import GrammarChart.Text.Utf8
import GrammarChart.Text.Lines

/-!
# File contents

Files are read and written as UTF-8 text, so the content of a file is its text, or its octets with
the reason why they are no text. `reading_plain` says that text without carriage returns is read as
it was written.
-/

set_option autoImplicit false

namespace GrammarChart

/-- What a file holds. -/
inductive Content where
  | plain (text : String)
  | garbled (bytes : List UInt8) (fault : Text.Utf8.Fault)
  deriving DecidableEq, Repr

namespace Content

/-- The content that given octets make up. -/
def ofBytes (bytes : List UInt8) : Content :=
  match Text.Utf8.decode bytes with
  | .ok text => .plain text
  | .error fault => .garbled bytes fault

/-- The octets of a file. -/
def bytes : Content → List UInt8
  | .plain text => text.toUTF8.toList
  | .garbled bytes _ => bytes

/-- The text read from a file, with its line ends unified. -/
def reading : Content → Except Text.Utf8.Fault String
  | .plain text => .ok (Text.unifyLineEnds text)
  | .garbled _ fault => .error fault

/-- Text without carriage returns is read as it was written. -/
theorem reading_plain {text : String} (h : '\r' ∉ text.toList) :
    (Content.plain text).reading = .ok text := by
  rw [reading, Text.unifyLineEnds_eq_self h]

end Content
end GrammarChart
