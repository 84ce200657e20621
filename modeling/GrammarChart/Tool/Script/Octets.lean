import GrammarChart.Text.Utf8

/-!
# Texts of octets

A shell knows no characters but octets. Its texts are strings in which every character stands for
the octet of its number, so that they can be read as characters and written as they are. Writing
the octets of a text and reading them again gives the text back.
-/

set_option autoImplicit false

namespace GrammarChart.Tool.Octets

/-- The text that stands for given octets. -/
def ofBytes (bytes : List UInt8) : String :=
  String.ofList (bytes.map fun byte => Char.ofNat byte.toNat)

/-- The octets that a text stands for. -/
def toBytes (text : String) : List UInt8 :=
  text.toList.map fun c => UInt8.ofNat c.toNat

/-- The text that stands for the octets of a text of characters. -/
def encode (text : String) : String :=
  ofBytes text.toUTF8.toList

/-- The text of characters that the octets of a text make up. Octets that are not UTF-8 stay as
they are. -/
def decode (text : String) : String :=
  match Text.Utf8.decode (toBytes text) with
  | .ok decoded => decoded
  | .error _ => text

/-- The character of an octet has its number. -/
theorem toNat_ofNat_byte (byte : UInt8) : (Char.ofNat byte.toNat).toNat = byte.toNat := by
  have bound : byte.toNat < 256 := byte.toNat_lt
  have valid : byte.toNat.isValidChar := Or.inl (by omega)
  rw [Char.ofNat, dif_pos valid]
  rfl

/-- Octets are not changed by standing as characters. -/
theorem toBytes_ofBytes (bytes : List UInt8) : toBytes (ofBytes bytes) = bytes := by
  have h : (fun c : Char => UInt8.ofNat c.toNat) ∘ (fun byte : UInt8 => Char.ofNat byte.toNat) =
      id := by
    funext byte
    show UInt8.ofNat (Char.ofNat byte.toNat).toNat = byte
    rw [toNat_ofNat_byte]
    exact UInt8.ofNat_toNat
  rw [toBytes, ofBytes, String.toList_ofList, List.map_map, h, List.map_id]

end GrammarChart.Tool.Octets
