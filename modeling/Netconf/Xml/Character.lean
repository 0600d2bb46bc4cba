/-! Character classes of XML 1.0 and 1.1: white space, the characters that names are made of, and
those that a document may hold, either written literally or named by a reference. -/
namespace Netconf.Xml

/-- The version that a document declares; without a declaration it is 1.0. -/
inductive Version where
  | v10
  | v11
deriving DecidableEq, Repr, Inhabited

/-- Space, tab, line feed and carriage return. -/
def isSpace (c : Char) : Bool :=
  c == ' ' || c == '\t' || c == '\n' || c == '\r'

/-- Membership in one of some ranges of code points, ends included. -/
def inRanges (ranges : List (Nat × Nat)) (c : Char) : Bool :=
  ranges.any fun r => r.1 ≤ c.toNat && c.toNat ≤ r.2

/-- The characters that a name can start with, the colon aside. -/
def nameStartRanges : List (Nat × Nat) :=
  [(0x41, 0x5A), (0x5F, 0x5F), (0x61, 0x7A), (0xC0, 0xD6), (0xD8, 0xF6), (0xF8, 0x2FF),
    (0x370, 0x37D), (0x37F, 0x1FFF), (0x200C, 0x200D), (0x2070, 0x218F), (0x2C00, 0x2FEF),
    (0x3001, 0xD7FF), (0xF900, 0xFDCF), (0xFDF0, 0xFFFD), (0x10000, 0xEFFFF)]

/-- The characters that a name can hold behind its start only: hyphen, full stop, digits, the
middle dot and combining marks. -/
def nameInnerRanges : List (Nat × Nat) :=
  [(0x2D, 0x2E), (0x30, 0x39), (0xB7, 0xB7), (0x300, 0x36F), (0x203F, 0x2040)]

/-- A character that a name without a prefix can start with. -/
def isNameStart (c : Char) : Bool := inRanges nameStartRanges c

/-- A character of a name, the colon between prefix and local part included. -/
def isNameChar (c : Char) : Bool := c == ':' || isNameStart c || inRanges nameInnerRanges c

namespace Version

/-- The characters of a document of this version. -/
def isChar : Version → Char → Bool
  | .v10, c => inRanges [(0x9, 0xA), (0xD, 0xD), (0x20, 0xFFFD), (0x10000, 0x10FFFF)] c
  | .v11, c => inRanges [(0x1, 0xFFFD), (0x10000, 0x10FFFF)] c

/-- The control characters that version 1.1 admits by reference only. -/
def restrictedRanges : List (Nat × Nat) :=
  [(0x1, 0x8), (0xB, 0xC), (0xE, 0x1F), (0x7F, 0x84), (0x86, 0x9F)]

/-- The characters that text and attribute values may hold literally. -/
def isLiteral : Version → Char → Bool
  | .v10, c => Version.v10.isChar c
  | .v11, c => Version.v11.isChar c && !inRanges restrictedRanges c

end Version
end Netconf.Xml
