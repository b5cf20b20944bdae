import ReplicaRouting.Config.File
/-!
A directory whose entries are files and empty directories, and the paths that start in it. Nothing else
exists but the directories above.
-/

namespace ReplicaRouting

inductive DirectoryEntry
  | file (bytes : ByteArray)
  | directory

abbrev Directory := List (String × DirectoryEntry)

namespace Directory

/-- How far a path has led. -/
inductive Place
  /-- So many directories above the one it started in. -/
  | above (levels : Nat)
  | top
  | inside
  | file (bytes : ByteArray)

def longestName : Nat := 255

def follow (d : Directory) (place : Place) (part : String) : Except FileFault Place :=
  match place with
  | .file _ => .error .notDirectory
  | place =>
    if part = "" || part = "." then .ok place
    else if part = ".." then
      match place with
      | .inside => .ok .top
      | .above n => .ok (.above (n + 1))
      | _ => .ok (.above 0)
    else if longestName < part.utf8ByteSize then .error .nameTooLong
    else
      match place, d.lookup part with
      | .top, some (.file bytes) => .ok (.file bytes)
      | .top, some .directory => .ok .inside
      | _, _ => .error .absent

def parts : List Char → List (List Char)
  | [] => [[]]
  | c :: cs =>
    if c = '/' then [] :: parts cs
    else
      match parts cs with
      | [] => [[c]]
      | p :: ps => (c :: p) :: ps

def names (path : String) : List String := (parts path.toList).map String.ofList

def open? (d : Directory) (path : String) : FileState :=
  let start : Place := if path.toList.head? = some '/' then .above path.length else .top
  match FileFault.ofPath? path with
  | some fault => .error fault
  | none =>
    match (names path).foldlM d.follow start with
    | .ok (.file bytes) => .ok bytes
    | .ok _ => .error .directory
    | .error fault => .error fault

end Directory
end ReplicaRouting
