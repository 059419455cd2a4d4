import Conduit.Files
import Conduit.Toml.Fault

/-!
Everything that a call to the library can fail with.
-/
namespace Conduit

inductive Error where
  | config (detail : String)
  | file (fault : FileFault)
  /-- A text that is no document at all. -/
  | grammar
  | document (fault : Toml.Fault) (source : String)
  | tooLarge
  | spawn
  | inputFull (capacity : Nat)
  | noActiveRun
  | notPaused
  | alreadyInstalled
  | notInstalled

namespace Error

def documentText? : Error → Option String
  | .grammar => some "the text is not a TOML document\n"
  | .document fault source => some (fault.render source)
  | _ => none

def message : Error → String
  | .config detail => "Configuration error: " ++ detail
  | .file fault => "IO error: " ++ fault.message
  | .grammar => "TOML parse error: the text is not a TOML document\n"
  | .document fault source => "TOML parse error: " ++ fault.render source
  | .tooLarge => "TOML serialization error: out-of-range value for u64 type"
  | .spawn => "Failed to spawn worker thread"
  | .inputFull capacity => "Input channel is full (" ++ Decimal.natText capacity ++ " lines)"
  | .noActiveRun => "No program is running"
  | .notPaused => "No program is paused"
  | .alreadyInstalled => "A default bridge is already installed"
  | .notInstalled => "No default bridge is installed"

end Error

end Conduit
