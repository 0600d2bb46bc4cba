import Netconf.Bytes

/-! Character encodings of documents. A byte order mark decides the encoding; without one the bytes
are UTF-8 unless the declaration at the start names another encoding of single bytes. -/
namespace Netconf.Xml

/-- The encodings that a document can be decoded from. -/
inductive Encoding where
  | utf8
  | latin1
  | ascii
  | utf16 (bigEndian : Bool)
deriving DecidableEq, Repr

/-- The encodings that a declaration can name. -/
inductive EncodingLabel where
  | utf8
  | latin1
  | utf16
  | ascii
deriving DecidableEq, Repr

namespace EncodingLabel

/-- The names of encodings, in the order in which a label is compared with them. -/
def names : List (String × EncodingLabel) :=
  [("utf-8", utf8), ("utf8", utf8), ("iso-8859-1", latin1), ("latin1", latin1), ("utf-16", utf16),
    ("utf16", utf16), ("ascii", ascii), ("us-ascii", ascii)]

/-- Two texts agree, letter case aside, as far as the shorter one reaches. -/
def agree (name label : List Char) : Bool :=
  (name.zip label).all fun p => p.1 == p.2.toLower

/-- The first encoding whose name agrees with a label. -/
def ofText? (label : String) : Option EncodingLabel :=
  (names.find? fun n => agree n.1.toList label.toList).map (·.2)

end EncodingLabel

namespace Encoding

/-- The encoding that a byte order mark stands for, and the bytes behind the mark. -/
def ofMark? : Bytes → Option (Encoding × Bytes)
  | 0xEF :: 0xBB :: 0xBF :: rest => some (utf8, rest)
  | 0xFE :: 0xFF :: rest => some (utf16 true, rest)
  | 0xFF :: 0xFE :: rest => some (utf16 false, rest)
  | _ => none

/-- The encoding that a label selects for bytes without a mark. -/
def ofLabel? : EncodingLabel → Option Encoding
  | .utf8 => some utf8
  | .latin1 => some latin1
  | .ascii => some ascii
  | .utf16 => none

/-- A label that does not contradict the encoding of a byte order mark. -/
def admits : Encoding → EncodingLabel → Bool
  | utf8, .utf8 => true
  | utf16 _, .utf16 => true
  | _, _ => false

/-- The 16-bit units that bytes hold. -/
def units? (bigEndian : Bool) : Bytes → Option (List Nat)
  | [] => some []
  | [_] => none
  | a :: b :: rest =>
    let unit := if bigEndian then a.toNat * 256 + b.toNat else b.toNat * 256 + a.toNat
    (units? bigEndian rest).map (unit :: ·)

/-- The characters that 16-bit units spell; a surrogate must stand in its pair. -/
def charsOfUnits? : List Nat → Option (List Char)
  | [] => some []
  | u :: rest =>
    if u < 0xD800 ∨ 0xDFFF < u then (charsOfUnits? rest).map (Char.ofNat u :: ·)
    else match rest with
      | v :: rest' =>
        if u ≤ 0xDBFF ∧ 0xDC00 ≤ v ∧ v ≤ 0xDFFF then
          (charsOfUnits? rest').map
            (Char.ofNat (0x10000 + (u - 0xD800) * 0x400 + (v - 0xDC00)) :: ·)
        else none
      | [] => none

/-- The characters that bytes spell in an encoding. -/
def decode? : Encoding → Bytes → Option (List Char)
  | utf8, bytes => (Bytes.toString? bytes).map (·.toList)
  | latin1, bytes => some (bytes.map fun b => Char.ofNat b.toNat)
  | ascii, bytes =>
    if bytes.all (· < 0x80) then some (bytes.map fun b => Char.ofNat b.toNat) else none
  | utf16 bigEndian, bytes => (units? bigEndian bytes).bind charsOfUnits?

end Encoding
end Netconf.Xml
