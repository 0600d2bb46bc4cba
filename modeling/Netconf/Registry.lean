import Netconf.Json.Legible
import Netconf.Session.Snapshot

/-! Where the states of live sessions are kept for whoever monitors them: in memory, or also in the
files of a directory. -/
namespace Netconf

/-- A registry of sessions. `ρ` is its state. -/
class Registry (ρ : Type) where
  insert : Snapshot → ρ → ρ
  update : Snapshot → ρ → ρ
  get? : SessionId → ρ → Option Snapshot
  remove : SessionId → ρ → ρ

/-- A registry in memory: one snapshot for each session. -/
structure MemoryRegistry where
  entries : List Snapshot := []
deriving DecidableEq, Repr, Inhabited

namespace MemoryRegistry

/-- The number of sessions. -/
def size (r : MemoryRegistry) : Nat := r.entries.length

/-- Keeps a snapshot in place of an earlier one of its session. -/
def store (s : Snapshot) (r : MemoryRegistry) : MemoryRegistry :=
  { entries := s :: r.entries.filter (·.id ≠ s.id) }

/-- The snapshot of a session. -/
def get? (id : SessionId) (r : MemoryRegistry) : Option Snapshot := r.entries.find? (·.id = id)

/-- Forgets a session. -/
def remove (id : SessionId) (r : MemoryRegistry) : MemoryRegistry :=
  { entries := r.entries.filter (·.id ≠ id) }

instance : Registry MemoryRegistry where
  insert := store
  update := store
  get? := get?
  remove := remove

end MemoryRegistry

/-- What a name in a directory stands for. -/
inductive DirectoryEntry where
  | file (content : Bytes)
  | directory
deriving DecidableEq, Repr

/-- A directory, which may have been removed. -/
structure Directory where
  entries : Option (List (String × DirectoryEntry)) := some []
deriving DecidableEq, Repr, Inhabited

namespace Directory

/-- What a name stands for. -/
def find? (d : Directory) (name : String) : Option DirectoryEntry :=
  d.entries.bind fun es => (es.find? (·.1 == name)).map (·.2)

/-- Gives a name a meaning, if the directory is there. -/
def put (d : Directory) (name : String) (entry : DirectoryEntry) : Directory :=
  { entries := d.entries.map fun es => (name, entry) :: es.filter (·.1 ≠ name) }

/-- Takes a name away. -/
def erase (d : Directory) (name : String) : Directory :=
  { entries := d.entries.map fun es => es.filter (·.1 ≠ name) }

/-- Writes a file; without a directory, or over one, that cannot be done. -/
def write? (d : Directory) (name : String) (content : Bytes) : Option Directory :=
  if d.entries.isNone ∨ d.find? name = some .directory then none
  else some (d.put name (.file content))

/-- The content of a file. -/
def read? (d : Directory) (name : String) : Option Bytes :=
  match d.find? name with
  | some (.file content) => some content
  | _ => none

/-- Gives a file another name, under which a file may be lost; a directory is in the way. -/
def rename? (d : Directory) (old new : String) : Option Directory :=
  match d.read? old with
  | none => none
  | some content =>
    if d.find? new = some .directory then none
    else some ((d.erase old).put new (.file content))

/-- Makes a directory inside, under a name that is free. -/
def makeDirectory? (d : Directory) (name : String) : Option Directory :=
  if d.entries.isNone ∨ (d.find? name).isSome then none else some (d.put name .directory)

/-- Removes the directory itself and all that is in it. -/
def destroy? (d : Directory) : Option Directory :=
  d.entries.map fun _ => { entries := none }

/-- What is in the directory, by name. -/
def listing (d : Directory) : List (String × DirectoryEntry) :=
  (d.entries.getD []).mergeSort fun a b => a.1 ≤ b.1

/-- Removes a file, if it is one. -/
def removeFile (d : Directory) (name : String) : Directory :=
  if d.find? name = some .directory then d else d.erase name

end Directory

/-- Why no snapshot can be had from a file. -/
inductive LoadError where
  | reading
  | parsing
deriving DecidableEq, Repr

/-- A registry that also publishes every session in a file of a directory. What it answers comes
from memory alone, so that a failing directory does no harm. -/
structure FileRegistry where
  directory : Directory := {}
  entries : List Snapshot := []
deriving DecidableEq, Repr, Inhabited

namespace FileRegistry

/-- The name of a session's file. -/
def fileName (id : SessionId) : String := "session-" ++ id.text ++ ".json"

/-- The name of a file that is still being written. -/
def draftName (id : SessionId) : String := fileName id ++ ".tmp"

/-- Writes a snapshot under another name and gives it its own when it is whole. -/
def publish (d : Directory) (s : Snapshot) : Directory :=
  match d.write? (draftName s.id) (Bytes.ofString s.toValue.pretty) with
  | none => d
  | some d => (d.rename? (draftName s.id) (fileName s.id)).getD d

/-- Keeps a snapshot and publishes it. -/
def store (s : Snapshot) (r : FileRegistry) : FileRegistry :=
  { directory := publish r.directory s, entries := s :: r.entries.filter (·.id ≠ s.id) }

/-- The snapshot of a session. -/
def get? (id : SessionId) (r : FileRegistry) : Option Snapshot := r.entries.find? (·.id = id)

/-- Forgets a session and removes its file. -/
def remove (id : SessionId) (r : FileRegistry) : FileRegistry :=
  { directory := r.directory.removeFile (fileName id),
    entries := r.entries.filter (·.id ≠ id) }

/-- The snapshot that a file of a directory holds. -/
def load (d : Directory) (name : String) : Except LoadError Snapshot :=
  match d.read? name with
  | none => .error .reading
  | some content =>
    match (Json.parseBytes? content).bind Snapshot.ofValue? with
    | some s => .ok s
    | none => .error .parsing

instance : Registry FileRegistry where
  insert := store
  update := store
  get? := get?
  remove := remove

end FileRegistry
end Netconf
