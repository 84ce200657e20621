import GrammarChart.Digest.Sha1
import GrammarChart.Files.FilePath
import GrammarChart.Text.Blank
import GrammarChart.Text.Quoted

/-!
# Names of documents

The diagram of a document is filed under a name made from its address: the stem of the last part
of its path, with every character that is not safe in a file name replaced, and eight digits of the
digest of the whole address, which keep documents with the same stem apart.
-/

set_option autoImplicit false

namespace GrammarChart.DocumentName

/-- A character that may stand in a name. -/
def isSafe (c : Char) : Bool :=
  c.isAlphanum || c == '_' || c == '.' || c == '-'

/-- A character that a stem neither starts nor ends with. -/
def isFiller (c : Char) : Bool :=
  c == '_' || c == '.'

/-- The path in an address: what stands before a question mark, without slashes at its end. -/
def pathOf (address : String) : String :=
  let path := address.toList.takeWhile (· != '?')
  String.ofList (path.reverse.dropWhile (· == '/')).reverse

/-- A text with its unsafe characters replaced, and without fillers at its ends. -/
def sanitized (text : String) : List Char :=
  Text.trimBy isFiller (text.toList.map fun c => if isSafe c then c else '_')

/-- The stem of the name of a document. -/
def stem (address : String) : String :=
  match sanitized (FilePath.ofText (pathOf address)).stem with
  | [] => "diagram"
  | safe => String.ofList safe

/-- The digits that tell addresses apart: the first word of the digest. -/
def mark (address : String) : String :=
  String.ofList (Text.hexDigits 8 (Sha1.digest address.toUTF8.toList).a.toNat)

/-- The name under which the diagram of a document is filed. -/
def ofAddress (address : String) : String :=
  stem address ++ "-" ++ mark address

end GrammarChart.DocumentName
