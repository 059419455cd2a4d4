import Conduit.Text.Lines
import Conduit.Text.Utf8

/-!
A file system of regular files and directories. It refuses a call only when the path does not lead
where the call needs it to.
-/
namespace Conduit

inductive FileFault where
  | missing
  | exists
  | notDirectory
  | isDirectory
  | notText
deriving DecidableEq, Repr

def FileFault.message : FileFault → String
  | .missing => "No such file or directory (os error 2)"
  | .exists => "File exists (os error 17)"
  | .notDirectory => "Not a directory (os error 20)"
  | .isDirectory => "Is a directory (os error 21)"
  | .notText => "stream did not contain valid UTF-8"

inductive Files where
  | file (bytes : List UInt8)
  | dir (entries : List (String × Files))

namespace Files

def components (path : String) : List String :=
  ((Text.pieces '/' path.toList).map String.ofList).filter fun c => c ≠ "" ∧ c ≠ "."

def put (name : String) (t : Files) : List (String × Files) → List (String × Files)
  | [] => [(name, t)]
  | (n, u) :: rest => if n = name then (n, t) :: rest else (n, u) :: put name t rest

def find? : Files → List String → Option Files
  | t, [] => some t
  | .file _, _ :: _ => none
  | .dir entries, name :: path =>
    match entries.lookup name with
    | some t => t.find? path
    | none => none

def exists? (t : Files) (path : List String) : Bool := (t.find? path).isSome

def bytesAt? (t : Files) (path : List String) : Option (List UInt8) :=
  match t.find? path with
  | some (.file bytes) => some bytes
  | _ => none

def read : Files → List String → Except FileFault (List UInt8)
  | .file bytes, [] => .ok bytes
  | .file _, _ :: _ => .error .notDirectory
  | .dir _, [] => .error .isDirectory
  | .dir entries, name :: path =>
    match entries.lookup name with
    | some t => t.read path
    | none => .error .missing

def readText (t : Files) (path : List String) : Except FileFault String := do
  match Text.decode? (← t.read path) with
  | some s => .ok s
  | none => .error .notText

def chain : List String → Files
  | [] => .dir []
  | name :: path => .dir [(name, chain path)]

def createDirs : Files → List String → Except FileFault Files
  | .dir entries, [] => .ok (.dir entries)
  | .file _, [] => .error .exists
  | .file _, _ :: _ => .error .notDirectory
  | .dir entries, name :: path =>
    match entries.lookup name with
    | some t => do .ok (.dir (put name (← t.createDirs path) entries))
    | none => .ok (.dir (put name (chain path) entries))

def write (bytes : List UInt8) : Files → List String → Except FileFault Files
  | .file _, [] => .ok (.file bytes)
  | .dir _, [] => .error .isDirectory
  | .file _, _ :: _ => .error .notDirectory
  | .dir entries, name :: path =>
    match entries.lookup name with
    | some t => do .ok (.dir (put name (← t.write bytes path) entries))
    | none =>
      match path with
      | [] => .ok (.dir (put name (.file bytes) entries))
      | _ :: _ => .error .missing

def install (bytes : List UInt8) (t : Files) (path : List String) : Except FileFault Files := do
  (← t.createDirs path.dropLast).write bytes path

end Files

end Conduit
