import Conduit.Command.Basic

/-!
The command line: looks up the files that a command needs, passes typed lines on and prints what is
said.
-/
namespace Conduit.Main

def stages (path : List String) : List (List String) :=
  (List.range path.length).map fun n => path.take (n + 1)

def absolute (path : List String) : String := "/" ++ "/".intercalate path

def directoryCode : UInt32 := 21

def isDirectory : IO.Error → Bool
  | .inappropriateType _ code _ => code = directoryCode
  | _ => false

def lookAt (known : Files) (path : List String) : IO Files := do
  try
    let bytes ← IO.FS.readBinFile (absolute path)
    return (known.install bytes.data.toList path).toOption.getD known
  catch e =>
    if isDirectory e then return (known.createDirs path).toOption.getD known
    else return known

def lookAlong (known : Files) (path : List String) : IO Files :=
  (stages path).foldlM lookAt known

def pathsOf (p : Place) : Invocation → List (List String)
  | .command (.run o) =>
    [p.resolve o.file, (o.config.map p.resolve).getD p.configFile.path]
  | .command (.check file) => [p.resolve file]
  | .command (.config _ _) => [p.configFile.path]
  | _ => []

def placeFor (i : Invocation) : IO Place := do
  let home := (← IO.getEnv "HOME").getD ""
  let here := (← IO.currentDir).toString
  let p : Place :=
    { files := .dir [], here := Files.components here
      home := Files.components home, homeShown := home }
  let files ← (pathsOf p i).foldlM lookAlong p.files
  return { p with files }

def say (e : Emission) : IO Unit := do
  IO.print e.out
  (← IO.getStdout).flush
  for n in e.err do
    IO.eprint n.text

def typedLine? (input : IO.FS.Stream) : IO (Option (Option String)) := do
  try
    let line ← input.getLine
    if line.isEmpty then return none
    else return some (Text.lines line).head?
  catch _ => return some none

partial def attend (t : Terminal) (input : IO.FS.Stream) : IO Terminal := do
  let (t, said) := t.take
  say said
  if t.isFinished || t.closed then return t
  else
    match ← typedLine? input with
    | none => return t
    | some line => attend (t.accept line) input

partial def idle : IO Nat := do
  IO.sleep 50
  idle

def create (text : String) (path : List String) : IO Unit := do
  IO.FS.createDirAll (absolute path.dropLast)
  IO.FS.writeFile (absolute path) text

def complete (p : Place) : Command.Status → IO Nat
  | .waiting _ _ => idle
  | .finished f => do
    f.created.forM fun text => create text p.configFile.path
    say f.said
    return f.exit

def runProgram (p : Place) (o : RunOptions) : IO Nat := do
  match Command.prepare p o with
  | .error g => complete p (.finished (Command.giveUp [] g))
  | .ok r =>
    match Terminal.start p.grants r.config o.events r.source with
    | .error u => complete p (.finished (Command.giveUpStart r.logs u))
    | .ok t =>
      say { err := r.logs.map .log }
      complete p (Command.await (← attend t (← IO.getStdin)) {})

def run (i : Invocation) : IO Nat := do
  let p ← placeFor i
  match i with
  | .command (.run o) => runProgram p o
  | i => complete p (i.execute p [])

end Conduit.Main

def main (args : List String) : IO UInt32 := do
  return (← Conduit.Main.run (Conduit.Invocation.ofArguments args)).toUInt32
