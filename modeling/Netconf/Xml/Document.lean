import Netconf.Xml.Encoding
import Netconf.Xml.Reading

/-! Documents as bytes: their encoding, the XML declaration at their start, and the element tree
that they hold. -/
namespace Netconf.Xml

/-- Decides what encoding the bytes behind a declaration have, without a byte order mark. -/
def Encoding.declared (label : Option String) : Except Malformed Encoding :=
  match label with
  | none => .ok .utf8
  | some label =>
    match EncodingLabel.ofText? label with
    | none => .error (.unknownEncoding label)
    | some l =>
      match Encoding.ofLabel? l with
      | none => .error (.conflictingEncoding label)
      | some encoding => .ok encoding

/-- Checks that a declaration does not contradict a byte order mark. -/
def Encoding.confirm (encoding : Encoding) (label : Option String) : Except Malformed Unit :=
  match label with
  | none => .ok ()
  | some label =>
    match EncodingLabel.ofText? label with
    | none => .error (.unknownEncoding label)
    | some l => if encoding.admits l then .ok () else .error (.conflictingEncoding label)

namespace Document

/-- The characters that bytes spell in an encoding, to be read from. -/
def source (encoding : Encoding) (bytes : Bytes) : Except Malformed Source :=
  match encoding.decode? bytes with
  | none => .error .undecodable
  | some cs => .ok { chars := cs }

/-- Reads a document whose encoding is known by its byte order mark. -/
def parseMarked (encoding : Encoding) (bytes : Bytes) : Except Malformed Element := do
  let r ← Reading.run {} (← source encoding bytes)
  encoding.confirm r.encoding
  r.finish

/-- The bytes up to the end of the first processing instruction, and those behind it. -/
def splitInstruction (acc : Bytes) : Bytes → Bytes × Bytes
  | 0x3F :: 0x3E :: rest => (acc.reverse ++ [0x3F, 0x3E], rest)
  | b :: rest => splitInstruction (b :: acc) rest
  | [] => (acc.reverse, [])

/-- Whether bytes start like an XML declaration. -/
def startsWithDeclaration : Bytes → Bool
  | 0x3C :: 0x3F :: 0x78 :: 0x6D :: 0x6C :: b :: _ => isSpace (Char.ofNat b.toNat)
  | _ => false

/-- Reads a document without a byte order mark. It is UTF-8 up to the end of its declaration, and
behind it what the declaration says. -/
def parseUnmarked (bytes : Bytes) : Except Malformed Element := do
  let (head, body) := if startsWithDeclaration bytes then splitInstruction [] bytes else ([], bytes)
  let r ← Reading.run {} (← source .utf8 head)
  let r ← Reading.run r (← source (← Encoding.declared r.encoding) body)
  r.finish

/-- The element tree of a document; of several roots the last. -/
def parse (bytes : Bytes) : Except Malformed Element :=
  match Encoding.ofMark? bytes with
  | some (encoding, rest) => parseMarked encoding rest
  | none => parseUnmarked bytes

end Document
end Netconf.Xml
