/-! Byte strings, as lists, and the texts that they hold in UTF-8. -/
namespace Netconf

/-- A string of bytes. -/
abbrev Bytes := List UInt8

namespace Bytes

/-- The bytes of a text in UTF-8. -/
def ofString (s : String) : Bytes := s.toUTF8.toList

/-- The text that bytes hold, where they are UTF-8. -/
def toString? (bytes : Bytes) : Option String := String.fromUTF8? ⟨bytes.toArray⟩

end Bytes
end Netconf
