import Conduit.Config.Files
import Conduit.Engine.Scripted
import Conduit.Proofs.Bridge.Round
import Conduit.Proofs.Config.RoundTrip

/-!
What a host is told when it starts a run with settings that were found valid. Settings are valid
whatever character their worker name holds, and with NUL in it there is no worker of that name.
-/
namespace Conduit

namespace Config

def NamesNul (c : Config) : Prop := Char.ofNat 0 ∈ c.run.threadName.toList

instance (c : Config) : Decidable c.NamesNul :=
  inferInstanceAs (Decidable (Char.ofNat 0 ∈ c.run.threadName.toList))

theorem not_isBlankText_of_namesNul {c : Config} (h : c.NamesNul) :
    Text.isBlankText c.run.threadName = false := by
  have hnul : Text.isBlank (Char.ofNat 0) = false := by decide
  exact List.all_eq_false.mpr ⟨_, h, by simp [hnul]⟩

theorem validate_of_namesNul {c : Config} (h : c.NamesNul) :
    c.validate = .ok () ↔ c.input.capacity ≠ 0 ∧ c.run.stackSize ≠ some 0 := by
  unfold validate invalid?
  rw [not_isBlankText_of_namesNul h]
  by_cases hcapacity : c.input.capacity = 0 <;> by_cases hstack : c.run.stackSize = some 0 <;>
    simp [hcapacity, hstack]

end Config

namespace Bridge

theorem start_cases (b : Bridge) (source : String) :
    (b.config.NamesNul ∧ b.canSpawn = false ∧ (b.start source).2 = .panicked) ∨
    (¬ b.config.NamesNul ∧ b.canSpawn = false ∧ (b.start source).2 = .failed .spawn ∧
      b.grants b.nextId = false) ∨
    (¬ b.config.NamesNul ∧ b.canSpawn = true ∧ (b.start source).2 = .started b.nextId ∧
      b.grants b.nextId = true) := by
  obtain ⟨channel, sessions, journal, admitted, hway⟩ := makeWay_eq b b.nextId
  unfold start canSpawn Config.NamesNul
  simp only [makeWay_nextId, hway, ← List.contains_iff_mem]
  cases hname : b.config.run.threadName.toList.contains (Char.ofNat 0) with
  | true => exact .inl ⟨rfl, rfl, rfl⟩
  | false =>
    cases hgrants : b.grants b.nextId with
    | false => exact .inr (.inl ⟨Bool.false_ne_true, rfl, rfl, rfl⟩)
    | true => exact .inr (.inr ⟨Bool.false_ne_true, rfl, rfl, rfl⟩)

theorem startUntold_of_panicked {b : Bridge} {source : String} (h : (b.start source).2 = .panicked) :
    (b.startUntold source).2 = .panicked := by
  obtain ⟨b', hb'⟩ : ∃ b', b.start source = (b', .panicked) := ⟨_, Prod.ext rfl h⟩
  rw [startUntold, hb']

theorem startUntold_of_ne {b : Bridge} {source : String} (h : (b.start source).2 ≠ .panicked) :
    (b.startUntold source).2 = .done := by
  unfold startUntold
  split
  · rfl
  · exact absurd (by simp only [*]) h
  · rfl

theorem ids_start (b : Bridge) (ticket : Nat) (source : String) (told : Bool) :
    (b.perform ticket (.start source told)).1.sessions.map Session.id =
      b.sessions.map Session.id ++ if b.canSpawn then [b.nextId] else [] := by
  rw [ids_perform, newcomers, newRuns]
  split <;> rfl

/-- With valid settings a start is answered, by a new run or by an error when the system has no worker
for it, unless the worker name holds NUL. Then the host breaks down in the call, told or not, and there
is no run; settings that can be written as a document are read from it with that name and all. -/
theorem start_breaks_down_iff_nul (e : Engine σ) (grants : Nat → Bool) (sink : Sink) {c : Config}
    (hc : c.validate = .ok ()) (calls : List (Nat × Call)) (ticket : Nat) (source : String) :
    let b := (create e grants sink c).after calls
    let told := b.perform ticket (.start source true)
    let untold := b.perform ticket (.start source false)
    (¬ c.NamesNul →
      (grants b.nextId = true ∧ told.2.reply = some (.started b.nextId) ∧
          told.1.sessions.map Session.id = b.sessions.map Session.id ++ [b.nextId] ∨
        grants b.nextId = false ∧ told.2.reply = some (.failed .spawn) ∧
          told.1.sessions.map Session.id = b.sessions.map Session.id) ∧
      untold.2.reply = some .done) ∧
    (c.NamesNul →
      told.2.reply = some .panicked ∧ untold.2.reply = some .panicked ∧
      told.1.sessions.map Session.id = b.sessions.map Session.id ∧
      untold.1.sessions.map Session.id = b.sessions.map Session.id ∧
      (c.toToml = .error .tooLarge ∨ ∃ text, c.toToml = .ok text ∧ Config.parse text = .ok c)) := by
  intro b told untold
  have haccounts := (sound_create e grants sink c).accounts (steps_history _ calls)
  have hconfig : b.config = c := haccounts.config
  have hgrants : b.grants = grants := haccounts.grants
  have htold : told.2.reply = some (b.start source).2 := rfl
  have huntold : untold.2.reply = some (b.startUntold source).2 := rfl
  have hids (t : Bool) := ids_start b ticket source t
  obtain ⟨hnul, hspawn, hreply⟩ | ⟨hnul, hspawn, hreply, hsystem⟩ |
    ⟨hnul, hspawn, hreply, hsystem⟩ := start_cases b source
  all_goals simp only [hspawn, Bool.false_eq_true, if_true, if_false, List.append_nil] at hids
  all_goals rw [hconfig] at hnul
  · refine ⟨fun h => absurd hnul h, fun _ => ⟨?_, ?_, hids true, hids false, ?_⟩⟩
    · rw [htold, hreply]
    · rw [huntold, startUntold_of_panicked hreply]
    · obtain ⟨-, hlarge⟩ | ⟨-, text, htext, hparse⟩ := c.toToml_cases
      · exact .inl hlarge
      · rw [hc] at hparse
        exact .inr ⟨text, htext, hparse⟩
  · refine ⟨fun _ => ⟨.inr ⟨hgrants ▸ hsystem, ?_, hids true⟩, ?_⟩, fun h => absurd h hnul⟩
    · rw [htold, hreply]
    · rw [huntold, startUntold_of_ne (by rw [hreply]; nofun)]
  · refine ⟨fun _ => ⟨.inl ⟨hgrants ▸ hsystem, ?_, hids true⟩, ?_⟩, fun h => absurd h hnul⟩
    · rw [htold, hreply]
    · rw [huntold, startUntold_of_ne (by rw [hreply]; nofun)]

/-- A document that names the worker so is accepted, and neither way of starting a program answers. -/
theorem start_breaks_down_iff_nul_accepted :
    let c : Config := { run := { threadName := "a\x00b" } }
    let b := create Scripted.engine (fun _ => true) (.capture "") c
    (∃ document, c.toToml = .ok document ∧ Config.parse document = .ok c) ∧
    (b.perform 0 (.start "print a" true)).2.reply = some .panicked ∧
    (b.perform 0 (.start "print a" false)).2.reply = some .panicked := by
  intro c b
  have hnul : c.NamesNul := by decide
  have hvalid : c.validate = .ok () := (Config.validate_of_namesNul hnul).mpr ⟨by decide, by decide⟩
  obtain ⟨-, hbreaks⟩ :=
    start_breaks_down_iff_nul Scripted.engine (fun _ => true) (.capture "") hvalid [] 0 "print a"
  obtain ⟨htold, huntold, -, -, hlarge | hdocument⟩ := hbreaks hnul
  · obtain ⟨hnot, -⟩ | ⟨-, text, htext, -⟩ := c.toToml_cases
    · exact absurd ⟨by decide, nofun⟩ hnot
    · rw [htext] at hlarge
      cases hlarge
  · exact ⟨hdocument, htold, huntold⟩

end Bridge

end Conduit
