import Conduit.Session.Basic
import Conduit.Json.Decode
import Conduit.Json.Printer
import Conduit.Json.Reader

/-!
Runs in JSON. An envelope is one flat object: the session, the name of the event and its fields.
-/
namespace Conduit

namespace RunOutcome

def all : List RunOutcome := [.analysisFailed, .completed, .runtimeError, .cancelled, .panicked]

def name : RunOutcome → String
  | .analysisFailed => "analysis_failed"
  | .completed => "completed"
  | .runtimeError => "runtime_error"
  | .cancelled => "cancelled"
  | .panicked => "panicked"

def toJson (o : RunOutcome) : Json := .str o.name

def ofJson? : Json → Option RunOutcome := Json.choice? name all

end RunOutcome

namespace RunReport

def toJson (r : RunReport) : Json :=
  .obj [("session", .nat r.session), ("outcome", r.outcome.toJson),
    ("pauses", .nat r.pauses.toNat), ("resumes", .nat r.resumes.toNat),
    ("reads", .nat r.reads.toNat)]

def ofJson? (v : Json) : Option RunReport := do
  match ← Json.record? ["session", "outcome", "pauses", "resumes", "reads"] v with
  | [session, outcome, pauses, resumes, reads] =>
    some {
      session := ← Json.required Json.nat64? session
      outcome := ← Json.required RunOutcome.ofJson? outcome
      pauses := ← Json.required Json.uint32? pauses
      resumes := ← Json.required Json.uint32? resumes
      reads := ← Json.required Json.uint32? reads }
  | _ => none

end RunReport

namespace ScopeInfo

def toJson (s : ScopeInfo) : Json :=
  .obj [("depth", .nat s.depth), ("name", .str s.name), ("variables", .arr (s.bindings.map .str))]

def ofJson? (v : Json) : Option ScopeInfo := do
  match ← Json.record? ["depth", "name", "variables"] v with
  | [depth, name, bindings] =>
    some {
      depth := ← Json.required Json.nat64? depth
      name := ← Json.required Json.str? name
      bindings := ← (← Json.required Json.list? bindings).mapM Json.str? }
  | _ => none

end ScopeInfo

namespace SessionEvent

def fields : SessionEvent → List (String × Json)
  | .spawned => [("event", .str "spawned")]
  | .analysisFinished success => [("event", .str "analysis_finished"), ("success", .bool success)]
  | .executionStarted => [("event", .str "execution_started")]
  | .executionPaused line wasPrint =>
    [("event", .str "execution_paused"), ("line", Json.opt .nat line), ("was_print", .bool wasPrint)]
  | .resumed => [("event", .str "resumed")]
  | .executionStopped => [("event", .str "execution_stopped")]
  | .stackPushed depth name =>
    [("event", .str "stack_pushed"), ("depth", .nat depth), ("name", .str name)]
  | .stackPopped depth => [("event", .str "stack_popped"), ("depth", .nat depth)]
  | .readExecuted line => [("event", .str "read_executed"), ("line", .nat line)]
  | .runtimeError => [("event", .str "runtime_error")]
  | .finished outcome => [("event", .str "finished"), ("outcome", outcome.toJson)]

def toJson (e : SessionEvent) : Json := .obj e.fields

def ofFields? (fields : List (String × Json)) : Option SessionEvent := do
  let get := Json.field? fields
  match ← (← get "event").str? with
  | "spawned" => some .spawned
  | "analysis_finished" => some (.analysisFinished (← (← get "success").bool?))
  | "execution_started" => some .executionStarted
  | "execution_paused" =>
    some (.executionPaused
      (← Json.defaulting (Json.nullable Json.nat32?) none (get "line"))
      (← (← get "was_print").bool?))
  | "resumed" => some .resumed
  | "execution_stopped" => some .executionStopped
  | "stack_pushed" => some (.stackPushed (← (← get "depth").nat64?) (← (← get "name").str?))
  | "stack_popped" => some (.stackPopped (← (← get "depth").nat64?))
  | "read_executed" => some (.readExecuted (← (← get "line").nat32?))
  | "runtime_error" => some .runtimeError
  | "finished" => some (.finished (← RunOutcome.ofJson? (← get "outcome")))
  | _ => none

def ofJson? : Json → Option SessionEvent
  | .obj fields => ofFields? fields
  | _ => none

end SessionEvent

namespace Envelope

def toJson (e : Envelope) : Json := .obj (("session", .nat e.session) :: e.event.fields)

def ofJson? : Json → Option Envelope
  | .obj fields => do
    let session ← (← Json.field? fields "session").nat64?
    some ⟨session, ← SessionEvent.ofFields? fields⟩
  | _ => none

def text (e : Envelope) : String := e.toJson.text

def logText (es : List Envelope) : String := String.join (es.map fun e => e.text ++ "\n")

end Envelope

end Conduit
