/-! The user behind a client certificate: its subject names the user in a field `CN`. -/
namespace Netconf

/-- Why a subject names no user. -/
inductive IdentityError where
  | missing
  | empty
deriving DecidableEq, Repr

/-- The cause in words. -/
def IdentityError.message : IdentityError → String
  | .missing => "client certificate subject has no commonName"
  | .empty => "client certificate commonName is empty"

namespace Identity

/-- What stands before the name. -/
def marker : List Char := "CN=".toList

/-- The characters behind the first marker. -/
def afterMarker? : List Char → Option (List Char)
  | [] => none
  | c :: cs => if marker.isPrefixOf (c :: cs) then some ((c :: cs).drop marker.length)
    else afterMarker? cs

/-- The user that a subject names: the text from behind the first marker up to the next slash. -/
def username (subject : String) : Except IdentityError String :=
  match afterMarker? subject.toList with
  | none => .error .missing
  | some rest =>
    let name := rest.takeWhile (· != '/')
    if name.isEmpty then .error .empty else .ok (String.ofList name)

end Identity
end Netconf
