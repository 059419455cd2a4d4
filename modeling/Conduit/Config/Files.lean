import Conduit.Config.Document
import Conduit.Error
import Conduit.Log

/-!
Settings in files.
-/
namespace Conduit.Config

def validate (c : Config) : Except Error Unit :=
  match c.invalid? with
  | none => .ok ()
  | some detail => .error (.config detail)

def parse (source : String) : Except Error Config :=
  match Toml.parse? source with
  | none => .error .grammar
  | some t =>
    match ofTable t with
    | .error fault => .error (.document fault source)
    | .ok c => do
      c.validate
      .ok c

def toToml (c : Config) : Except Error String :=
  match c.toToml? with
  | some text => .ok text
  | none => .error .tooLarge

structure Location where
  shown : String
  path : List String

def load (t : Files) (l : Location) : Except Error Config :=
  if t.exists? l.path then
    match t.readText l.path with
    | .ok source => parse source
    | .error fault => .error (.file fault)
  else .error (.config ("Config file not found at " ++ l.shown))

/-- The settings of a file, or the default ones. A file that is there and cannot be used is told of in
the log. -/
def loadOrDefault (t : Files) (l : Location) : Config × List Log.Entry :=
  if t.exists? l.path then
    match load t l with
    | .ok c => (c, [])
    | .error e =>
      ({}, [⟨.host, .warn, .config, "Ignoring config at " ++ l.shown ++ ": " ++ e.message⟩])
  else ({}, [])

/-- Saves settings below directories that are made on the way. The directories stay even when the
settings cannot be written. -/
def save (c : Config) (t : Files) (path : List String) : Files × Except Error Unit :=
  match t.createDirs path.dropLast with
  | .error fault => (t, .error (.file fault))
  | .ok t =>
    match c.toToml with
    | .error e => (t, .error e)
    | .ok text =>
      match t.write (Text.encode text) path with
      | .error fault => (t, .error (.file fault))
      | .ok t => (t, .ok ())

end Conduit.Config
