import Conduit.Command.Arguments
import Conduit.Command.Terminal
import Conduit.Config.Files

/-!
The commands.
-/
namespace Conduit

structure Place where
  files : Files
  /-- The directory that relative paths start from. -/
  here : List String := []
  /-- The home directory, and how it is shown. -/
  home : List String := []
  homeShown : String
  /-- Whether the system has a worker for the run of that number. -/
  grants : Nat → Bool := fun _ => true

namespace Place

def resolve (p : Place) (path : String) : List String :=
  match path.toList with
  | '/' :: _ => Files.components path
  | _ => p.here ++ Files.components path

def configDirectoryShown (p : Place) : String := p.homeShown ++ "/.config/runbridge"

def configFile (p : Place) : Config.Location :=
  { shown := p.configDirectoryShown ++ "/config.toml"
    path := p.home ++ [".config", "runbridge", "config.toml"] }

end Place

structure Finish where
  exit : Nat := 0
  said : Emission := {}
  /-- The text of the configuration file, if the command made one. -/
  created : Option String := none

namespace Command

/-- Where a command stands once nothing more is typed. Only a program that waits keeps it from its
end. -/
inductive Status where
  | finished (f : Finish)
  | waiting (t : Terminal) (before : Emission)

def giveUp (logs : List Log.Entry) (g : GivenUp) : Finish :=
  { exit := 1, said := { err := logs.map .log ++ [.plain g.text] } }

/-- A panic ends the process. What the runtime says of it is left out. -/
def giveUpStart (logs : List Log.Entry) : Unstarted → Finish
  | .gaveUp g => giveUp logs g
  | .panicked => { exit := 101, said := { err := logs.map .log } }

def versionLine : String := "runbridge 0.1.0\n"

def versionText : String :=
  versionLine ++ "\nCrates:\n" ++
    "  - runbridge-core: input channel, output forwarding, run controller\n" ++
    "  - runbridge-rhai: Rhai engine and console API\n"

def usageText : String := "Usage: runbridge <run|check|config|version>\n"

def readProgram (p : Place) (file : String) : Except GivenUp String :=
  match p.files.readText (p.resolve file) with
  | .ok source => .ok source
  | .error fault => .error ⟨"Failed to read file: " ++ file, [fault.message]⟩

def checkProgram (p : Place) (file : String) : Finish :=
  match readProgram p file with
  | .error g => giveUp [] g
  | .ok source =>
    let r := Script.check source
    match r.problem with
    | some d => { exit := 1, said := { err := [.plain (file ++ ": " ++ d.text ++ "\n")] } }
    | none =>
      let names := String.join (r.functions.map fun f => "  fn " ++ f ++ "\n")
      { said := { out := file ++ ": ok\n" ++ names } }

def initConfig (p : Place) : Finish :=
  let l := p.configFile
  if p.files.exists? l.path then giveUp [] ⟨"Config file already exists: " ++ l.shown, []⟩
  else
    match p.files.createDirs l.path.dropLast with
    | .error fault =>
      giveUp [] ⟨"Failed to create " ++ p.configDirectoryShown, [fault.message]⟩
    | .ok _ =>
      { said := { out := "Created " ++ l.shown ++ "\n" }, created := some Config.defaultDocument }

def showConfig (p : Place) : Finish :=
  let (c, logs) := Config.loadOrDefault p.files p.configFile
  match c.toToml with
  | .error e => giveUp logs (GivenUp.ofError e)
  | .ok text => { said := { out := text, err := logs.map .log } }

def tellConfig (p : Place) (init path : Bool) : Finish :=
  if path then { said := { out := p.configFile.shown ++ "\n" } }
  else if init then initConfig p
  else showConfig p

structure Prepared where
  config : Config
  source : String
  logs : List Log.Entry := []

def loadConfig (p : Place) : Option String → Except GivenUp (Config × List Log.Entry)
  | some path =>
    match Config.load p.files ⟨path, p.resolve path⟩ with
    | .ok c => .ok (c, [])
    | .error e => .error ⟨"Failed to load config: " ++ path, e.causes⟩
  | none => .ok (Config.loadOrDefault p.files p.configFile)

def adjusted (o : RunOptions) (c : Config) : Config :=
  { c with run := { c.run with
      pause := o.pause.getD c.run.pause
      overlap := o.overlap.getD c.run.overlap
      debug := c.run.debug || o.debug } }

def prepare (p : Place) (o : RunOptions) : Except GivenUp Prepared :=
  if !p.files.exists? (p.resolve o.file) then .error ⟨"File not found: " ++ o.file, []⟩
  else do
    let source ← readProgram p o.file
    let (c, logs) ← loadConfig p o.config
    let c := adjusted o c
    match c.validate with
    | .error e => .error (GivenUp.ofError e)
    | .ok () => .ok { config := c, source, logs }

def conclude (t : Terminal) (r : RunReport) (before : Emission) : Finish :=
  { exit := r.outcome.exitCode, said := before.append t.take.2 }

def await (t : Terminal) (before : Emission) : Status :=
  match t.report? with
  | some r => .finished (conclude t r before)
  | none => .waiting t before

/-- Ctrl+C, of which a command that has finished takes no notice. -/
def Status.interrupt : Status → Status
  | .finished f => .finished f
  | .waiting t before => await t.interrupt before

/-- Runs a program as far as it goes on what is typed. The end of the input does not end it. -/
def runProgram (p : Place) (o : RunOptions) (typed : List UInt8) : Status :=
  match prepare p o with
  | .error g => .finished (giveUp [] g)
  | .ok r =>
    match Terminal.start p.grants r.config o.events r.source with
    | .error u => .finished (giveUpStart r.logs u)
    | .ok t => await (t.acceptAll (typedLines typed)) { err := r.logs.map .log }

def execute (p : Place) (typed : List UInt8) : Command → Status
  | .run o => runProgram p o typed
  | .check file => .finished (checkProgram p file)
  | .config init path => .finished (tellConfig p init path)
  | .version => .finished { said := { out := versionText } }

end Command

def Invocation.execute (p : Place) (typed : List UInt8) : Invocation → Command.Status
  | .command c => c.execute p typed
  | .version => .finished { said := { out := Command.versionLine } }
  | .help => .finished { said := { out := Command.usageText } }
  | .misuse => .finished { exit := 2, said := { err := [.plain Command.usageText] } }

end Conduit
