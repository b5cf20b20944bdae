import ReplicaRouting.Config.Router
/-!
Configuration files. A file is its bytes, or the reason why there are none.
-/

namespace ReplicaRouting

inductive FileFault
  | absent
  | directory
  /-- A file stands where the path needs a directory. -/
  | notDirectory
  | nameTooLong
  | zeroInName
  | other (reason : String)
deriving Repr, DecidableEq

def FileFault.reason : FileFault → String
  | .absent => "No such file or directory (os error 2)"
  | .directory => "Is a directory (os error 21)"
  | .notDirectory => "Not a directory (os error 20)"
  | .nameTooLong => "File name too long (os error 36)"
  | .zeroInName => "file name contained an unexpected NUL byte"
  | .other reason => reason

def longestPath : Nat := 4095

/-- Paths that no file can have. -/
def FileFault.ofPath? (path : String) : Option FileFault :=
  if path.toList.contains '\x00' then some .zeroInName
  else if path = "" then some .absent
  else if longestPath < path.utf8ByteSize then some .nameTooLong
  else none

abbrev FileState := Except FileFault ByteArray

def FileState.text : FileState → Except String String
  | .error fault => .error fault.reason
  | .ok bytes =>
    match String.fromUTF8? bytes with
    | some text => .ok text
    | none => .error "stream did not contain valid UTF-8"

def Config.load (path : String) (file : FileState) : Except ConfigError Config :=
  match file.text with
  | .error reason => .error (.unreadable (path ++ ": " ++ reason))
  | .ok text => Config.ofJson text

end ReplicaRouting
