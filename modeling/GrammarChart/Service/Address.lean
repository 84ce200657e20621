import GrammarChart.Fault
import GrammarChart.Service.HostName

/-!
# Addresses of requests

The target of a request is an address: perhaps a scheme and the name of a host, a path, a query and
a fragment. Only the path counts. An address without a host is taken below the root of the service.
Dots in the path are resolved as they are written, and escapes are decoded after that, once by the
client and once by the service.
-/

set_option autoImplicit false

namespace GrammarChart.Address

/-- The value of a hexadecimal digit. -/
def hexValue? (byte : UInt8) : Option UInt8 :=
  if 48 ≤ byte && byte ≤ 57 then some (byte - 48)
  else if 65 ≤ byte && byte ≤ 70 then some (byte - 55)
  else if 97 ≤ byte && byte ≤ 102 then some (byte - 87)
  else none

/-- Replaces every escape, a percent sign with two hexadecimal digits, by its octet. -/
def decodeEscapes : List UInt8 → List UInt8
  | 37 :: high :: low :: rest =>
    match hexValue? high, hexValue? low with
    | some h, some l => (h * 16 + l) :: decodeEscapes rest
    | _, _ => 37 :: decodeEscapes (high :: low :: rest)
  | byte :: rest => byte :: decodeEscapes rest
  | [] => []

/-- A path with its escapes decoded. -/
def decoded (path : List Char) : List Char :=
  Text.Utf8.decodeLossy (decodeEscapes (String.ofList path).toUTF8.toList)

/-- Leaves out single dots, and takes a part back for every double dot. -/
def resolveDots (parts : List (List Char)) : List (List Char) :=
  parts.foldl (fun kept part =>
    if part = ['.'] then kept
    else if part = ['.', '.'] then if kept = [[]] then kept else kept.dropLast
    else kept ++ [part]) []

/-- The path that the service sees for a path as it is written. -/
def settled (path : List Char) : List Char :=
  decoded (decoded (['/'].intercalate (resolveDots (path.splitOn '/'))))

/-- The path at the start of a text, which a query or a fragment ends. -/
def pathAtStart (text : List Char) : List Char :=
  text.takeWhile fun c => c != '?' && c != '#'

/-- A character of a scheme. -/
def isInScheme (c : Char) : Bool :=
  c.isAlphanum || c == '+' || c == '.' || c == '-'

/-- Splits off the scheme at the start of an address. -/
def splitScheme (text : List Char) : List Char × List Char :=
  let scheme := text.takeWhile isInScheme
  match text.dropWhile isInScheme with
  | ':' :: rest => if (scheme.head?).all Char.isAlpha then (scheme, rest) else ([], text)
  | _ => ([], text)

/-- Splits off what names a host after a scheme. -/
def splitAuthority (text : List Char) : List Char × List Char :=
  match text with
  | '/' :: '/' :: rest =>
    let isInside (c : Char) : Bool := c != '/' && c != '?' && c != '#'
    (rest.takeWhile isInside, rest.dropWhile isInside)
  | _ => ([], text)

/-- What names a host: the name of a user, the host itself and the text for the port. -/
structure Authority where
  user : List Char
  host : List Char
  port : List Char

/-- Splits off a host: what stands in brackets, or all before a colon. -/
def splitHost (text : List Char) : List Char × List Char :=
  let bracketed := (text.reverse.dropWhile (· != ']')).reverse
  if text.head? = some '[' ∧ bracketed ≠ [] then (bracketed, text.drop bracketed.length)
  else (text.takeWhile (· != ':'), text.dropWhile (· != ':'))

/-- Takes apart what names a host. The last at sign ends the name of the user. -/
def Authority.ofText (text : List Char) : Authority :=
  let afterUser := (text.reverse.takeWhile (· != '@')).reverse
  let (host, rest) := splitHost afterUser
  { user := text.take (text.length - afterUser.length - 1)
    host := host
    port := if rest.head? = some ':' then rest.drop 1 else rest }

/-- The number of a port, if there is one, unless it is the usual one of the scheme. -/
def portNumber? (scheme port : List Char) : Except Fault (Option Int) :=
  if port.isEmpty then .ok none
  else match Text.Numeral.readInt (String.ofList port) with
    | .error _ => .error (.badAddress (.badPort (String.ofList port)))
    | .ok number =>
      let usual := [("ftp", 21), ("http", 80), ("https", 443), ("ws", 80), ("wss", 443)]
      .ok (if usual.lookup (String.ofList scheme) = some number then none else some number)

/-- The path below the root of the service. -/
def belowRoot (path : List Char) : List Char :=
  '/' :: path.dropWhile (· == '/')

/-- A control character of the basic block. -/
def isControl (c : Char) : Bool :=
  c.toNat < 0x20 || c.toNat == 0x7F

/-- The position of the first control character in a text. -/
def controlAt? (text : List Char) : Option (Nat × Char) :=
  (text.zipIdx.find? fun (c, _) => isControl c).map fun (c, i) => (i, c)

/-- The longest address. -/
def maxLength : Nat := 65536

/-- The schemes under which the service is reached. -/
def knownSchemes : List String := ["http", "https", "ws", "wss"]

/-- The path that the service sees for the target of a request. An address with a scheme and a host
is taken as it is, any other one is taken below the root of the service. -/
def path (target : String) : Except Fault (List Char) := do
  if target.length > maxLength then throw (.badAddress .tooLong)
  if let some (position, c) := controlAt? target.toList then
    throw (.badAddress (.unprintable c position))
  let (scheme, rest) := splitScheme target.toList
  let (authority, rest) := splitAuthority rest
  let ⟨user, host, port⟩ := Authority.ofText authority
  HostName.check (String.ofList host)
  let port ← portNumber? scheme port
  let path := pathAtStart rest
  if scheme.isEmpty && user.isEmpty && host.isEmpty && port.isNone then
    if ['/', '/'].isPrefixOf path then throw (.badAddress .twoSlashes)
    else if path.head? = some ':' then throw (.badAddress .colon)
    else return settled (belowRoot path)
  else if scheme.isEmpty || host.isEmpty then
    return settled (belowRoot (['/'].intercalate (resolveDots (path.splitOn '/'))))
  else
    let scheme := (String.ofList scheme).toLower
    if knownSchemes.contains scheme then return if path.isEmpty then ['/'] else settled path
    else throw (.missingKey scheme)

/-- The path that the service sees when a client is sent on to a path. A question mark and a number
sign in it are no start of a query or of a fragment. -/
def redirected (path : List Char) : List Char :=
  settled path

end GrammarChart.Address
