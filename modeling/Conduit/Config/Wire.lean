import Conduit.Config.Basic
import Conduit.Json.Decode

/-!
Settings in JSON. A setting that is left out has its default.
-/
namespace Conduit

namespace Config

def toJson (c : Config) : Json :=
  .obj [
    ("input", .obj [
      ("capacity", .nat c.input.capacity),
      ("when_full", .str c.input.whenFull.name)]),
    ("run", .obj [
      ("pause", .str c.run.pause.name),
      ("overlap", .str c.run.overlap.name),
      ("debug", .bool c.run.debug),
      ("thread_name", .str c.run.threadName),
      ("stack_size", Json.opt .nat c.run.stackSize)])]

def fullPolicyOfJson? : Json → Option FullPolicy := Json.choice? FullPolicy.name FullPolicy.all

def pausePolicyOfJson? : Json → Option PausePolicy := Json.choice? PausePolicy.name PausePolicy.all

def overlapPolicyOfJson? : Json → Option OverlapPolicy :=
  Json.choice? OverlapPolicy.name OverlapPolicy.all

def inputOfJson? (v : Json) : Option InputSettings := do
  let d : InputSettings := {}
  match ← Json.record? ["capacity", "when_full"] v with
  | [capacity, whenFull] =>
    some {
      capacity := ← Json.defaulting Json.nat64? d.capacity capacity
      whenFull := ← Json.defaulting fullPolicyOfJson? d.whenFull whenFull }
  | _ => none

def runOfJson? (v : Json) : Option RunSettings := do
  let d : RunSettings := {}
  match ← Json.record? ["pause", "overlap", "debug", "thread_name", "stack_size"] v with
  | [pause, overlap, debug, threadName, stackSize] =>
    some {
      pause := ← Json.defaulting pausePolicyOfJson? d.pause pause
      overlap := ← Json.defaulting overlapPolicyOfJson? d.overlap overlap
      debug := ← Json.defaulting Json.bool? d.debug debug
      threadName := ← Json.defaulting Json.str? d.threadName threadName
      stackSize := ← Json.defaulting (Json.nullable Json.nat64?) d.stackSize stackSize }
  | _ => none

def ofJson? (v : Json) : Option Config := do
  let d : Config := {}
  match ← Json.record? ["input", "run"] v with
  | [input, run] =>
    some {
      input := ← Json.defaulting inputOfJson? d.input input
      run := ← Json.defaulting runOfJson? d.run run }
  | _ => none

end Config

end Conduit
