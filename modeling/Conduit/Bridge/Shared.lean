import Conduit.Bridge.Call

/-!
The one bridge of a process. The first bridge that is installed stays; until then calls find none.
-/
namespace Conduit

structure Shared where
  bridge : Option Bridge := none
  /-- What was logged apart from the bridge. -/
  journal : List Log.Entry := []

namespace Shared

def note (s : Shared) (message : String) : Shared :=
  { s with journal := s.journal ++ [⟨.host, .warn, .shared, message⟩] }

def submitTooEarly : String := "submit_input_line called before a bridge was installed"

def runTooEarly : String := "run_program called before a bridge was installed"

/-- Installs a bridge and gives its capacity. Of a bridge that is refused only its log entries stay. -/
def install (s : Shared) (b : Bridge) : Shared × Except Error Nat :=
  match s.bridge with
  | none => ({ s with bridge := some b }, .ok b.channel.limit)
  | some _ => ({ s with journal := s.journal ++ b.journal }, .error .alreadyInstalled)

def get (s : Shared) : Option Bridge := s.bridge

def require (s : Shared) : Except Error Bridge :=
  match s.bridge with
  | some b => .ok b
  | none => .error .notInstalled

/-- A call to the bridge. Without one, lines and programs are only mentioned in the log. -/
def perform (s : Shared) (ticket : Nat) (call : Bridge.Call) : Shared × Bridge.Answer :=
  match s.bridge with
  | some b =>
    let (b, a) := b.perform ticket call
    ({ s with bridge := some b }, a)
  | none =>
    match call with
    | .submit _ => (s.note submitTooEarly, { reply := some .done })
    | .start _ false => (s.note runTooEarly, { reply := some .done })
    | _ => (s, { reply := some (.failed .notInstalled) })

def takeJournal (s : Shared) : Shared × List Log.Entry :=
  match s.bridge with
  | none => ({ s with journal := [] }, s.journal)
  | some b =>
    let (b, entries) := b.takeJournal
    ({ bridge := some b, journal := [] }, s.journal ++ entries)

end Shared

end Conduit
