import Conduit.Command.Terminal
import Conduit.Config.Wire
import Conduit.Output.Wire
import Conduit.Proofs.Json.RoundTrip
import Conduit.Proofs.Text.Lines
import Conduit.Session.Wire

/-!
What is told of a run, its output and its settings can be stored as JSON text and read again. An
event log gives back its envelopes line by line.
-/
namespace Conduit

namespace Json

def decode? (ofJson? : Json → Option α) (s : String) : Option α := (parse? s).bind ofJson?

theorem decode?_text {ofJson? : Json → Option α} {v : Json} {a : α} (hv : v.isWhole = true)
    (ha : ofJson? v = some a) : decode? ofJson? v.text = some a := by
  rw [decode?, parse?_text hv, Option.bind_some, ha]

/-! Numbers. A bound of 32 or 64 bits is nothing to compute with, so a number that is read stands
behind a name. -/

theorem natBelow?_nat {bound n : Nat} (h : n < bound) : natBelow? bound (.nat n) = some n := by
  simp [nat, natBelow?, h]

theorem exists_nat64 {n : Nat} (h : n < UInt64.size) : ∃ v, nat n = v ∧ nat64? v = some n :=
  ⟨_, rfl, natBelow?_nat h⟩

theorem exists_nat32 {n : Nat} (h : n < UInt32.size) : ∃ v, nat n = v ∧ nat32? v = some n :=
  ⟨_, rfl, natBelow?_nat h⟩

theorem exists_uint32 (n : UInt32) : ∃ v, nat n.toNat = v ∧ uint32? v = some n := by
  refine ⟨_, rfl, ?_⟩
  rw [uint32?, nat32?, natBelow?_nat n.toNat_lt, Option.map_some, UInt32.ofNat_toNat]

theorem isWhole_nat {n : Nat} (h : n < UInt64.size) : (nat n).isWhole = true := by
  have hlow : Decimal.minInt64 ≤ (n : Int) := Int.le_trans (by decide) (Int.natCast_nonneg n)
  have hhigh : (n : Int) < (UInt64.size : Int) := Int.ofNat_lt.mpr h
  rw [nat, isWhole, fits, Bool.and_eq_true, decide_eq_true_eq, decide_eq_true_eq]
  exact ⟨hlow, hhigh⟩

theorem isWhole_nat32 {n : Nat} (h : n < UInt32.size) : (nat n).isWhole = true :=
  isWhole_nat (Nat.lt_trans h (by decide))

theorem isWhole_opt {o : Option Nat} (h : ∀ n ∈ o, n < UInt64.size) :
    (opt .nat o).isWhole = true := by
  cases o with
  | none => rfl
  | some n => exact isWhole_nat (h n rfl)

theorem nullable_opt {bound : Nat} {o : Option Nat} (h : ∀ n ∈ o, n < bound) :
    nullable (natBelow? bound) (opt .nat o) = some o := by
  cases o with
  | none => rfl
  | some n =>
    change (natBelow? bound (nat n)).map some = some (some n)
    rw [natBelow?_nat (h n rfl), Option.map_some]

theorem exists_opt64 {o : Option Nat} (h : ∀ n ∈ o, n < UInt64.size) :
    ∃ v, opt .nat o = v ∧ nullable nat64? v = some o :=
  ⟨_, rfl, nullable_opt h⟩

theorem exists_opt32 {o : Option Nat} (h : ∀ n ∈ o, n < UInt32.size) :
    ∃ v, opt .nat o = v ∧ nullable nat32? v = some o :=
  ⟨_, rfl, nullable_opt h⟩

/-! Lists of strings -/

theorem wholeItems_str (ss : List String) : wholeItems (ss.map .str) = true := by
  induction ss with
  | nil => rfl
  | cons s ss ih => exact ih

theorem mapM_str? (ss : List String) : ss.mapM (str? ∘ .str) = some ss := by
  induction ss with
  | nil => rfl
  | cons s ss ih => simp [str?, ih]

/-! Flat objects -/

def isScalar : Json → Bool
  | .arr _ | .obj _ => false
  | _ => true

def IsFlat (v : Json) : Prop :=
  ∃ fields, v = .obj fields ∧ (fields.map (·.1)).Nodup ∧ ∀ f ∈ fields, f.2.isScalar = true

end Json

theorem RunOutcome.ofJson?_toJson (o : RunOutcome) : ofJson? o.toJson = some o := by
  cases o <;> rfl

/-! Reports -/

namespace RunReport

/-- The counts of a report are as wide as they are written; only its session may be too great. -/
def InRange (r : RunReport) : Prop := r.session < UInt64.size

theorem isWhole_toJson {r : RunReport} (h : r.InRange) : r.toJson.isWhole = true := by
  simp [toJson, RunOutcome.toJson, Json.isWhole, Json.wholeFields, Json.isWhole_nat h,
    Json.isWhole_nat32 (UInt32.toNat_lt _)]

theorem ofJson?_toJson {r : RunReport} (h : r.InRange) : ofJson? r.toJson = some r := by
  obtain ⟨session, hnat, hsession⟩ := Json.exists_nat64 h
  rw [toJson, hnat]
  obtain ⟨pauses, hnat, hpauses⟩ := Json.exists_uint32 r.pauses
  rw [hnat]
  obtain ⟨resumes, hnat, hresumes⟩ := Json.exists_uint32 r.resumes
  rw [hnat]
  obtain ⟨reads, hnat, hreads⟩ := Json.exists_uint32 r.reads
  rw [hnat]
  simp [ofJson?, Json.record?, Json.field?, Json.required, hsession, hpauses, hresumes, hreads,
    RunOutcome.ofJson?_toJson]

end RunReport

/-! Scopes -/

namespace ScopeInfo

def InRange (s : ScopeInfo) : Prop := s.depth < UInt64.size

theorem isWhole_toJson {s : ScopeInfo} (h : s.InRange) : s.toJson.isWhole = true := by
  simp [toJson, Json.isWhole, Json.wholeFields, Json.isWhole_nat h, Json.wholeItems_str]

theorem ofJson?_toJson {s : ScopeInfo} (h : s.InRange) : ofJson? s.toJson = some s := by
  obtain ⟨depth, hnat, hdepth⟩ := Json.exists_nat64 h
  rw [toJson, hnat]
  simp [ofJson?, Json.record?, Json.field?, Json.required, hdepth, Json.str?, Json.list?,
    Json.mapM_str?]

end ScopeInfo

/-! Output -/

namespace OutputEvent

theorem isWhole_toJson (e : OutputEvent) : e.toJson.isWhole = true := by
  cases e <;> rfl

theorem ofJson?_toJson (e : OutputEvent) : ofJson? e.toJson = some e := by
  cases e <;> rfl

end OutputEvent

/-! Settings -/

namespace Config

theorem fullPolicyOfJson?_name (p : FullPolicy) : fullPolicyOfJson? (.str p.name) = some p := by
  cases p <;> rfl

theorem pausePolicyOfJson?_name (p : PausePolicy) : pausePolicyOfJson? (.str p.name) = some p := by
  cases p <;> rfl

theorem overlapPolicyOfJson?_name (p : OverlapPolicy) :
    overlapPolicyOfJson? (.str p.name) = some p := by
  cases p <;> rfl

/-- The numbers that settings have room for. -/
structure InRange (c : Config) : Prop where
  capacity : c.input.capacity < UInt64.size
  stackSize : ∀ n ∈ c.run.stackSize, n < UInt64.size

theorem isWhole_toJson {c : Config} (h : c.InRange) : c.toJson.isWhole = true := by
  simp [toJson, Json.isWhole, Json.wholeFields, Json.isWhole_nat h.capacity,
    Json.isWhole_opt h.stackSize]

theorem ofJson?_toJson {c : Config} (h : c.InRange) : ofJson? c.toJson = some c := by
  obtain ⟨capacity, hnat, hcapacity⟩ := Json.exists_nat64 h.capacity
  rw [toJson, hnat]
  obtain ⟨stackSize, hopt, hstackSize⟩ := Json.exists_opt64 h.stackSize
  rw [hopt]
  simp [ofJson?, inputOfJson?, runOfJson?, Json.record?, Json.field?, Json.defaulting, Json.bool?,
    Json.str?, hcapacity, hstackSize, fullPolicyOfJson?_name, pausePolicyOfJson?_name,
    overlapPolicyOfJson?_name]

end Config

/-! Events -/

namespace SessionEvent

/-- The numbers that an event has room for. -/
def InRange : SessionEvent → Prop
  | .executionPaused line _ => ∀ n ∈ line, n < UInt32.size
  | .stackPushed depth _ | .stackPopped depth => depth < UInt64.size
  | .readExecuted line => line < UInt32.size
  | _ => True

theorem wholeFields_fields {e : SessionEvent} (h : e.InRange) :
    Json.wholeFields e.fields = true := by
  cases e with
  | executionPaused line wasPrint =>
    have hline := Json.isWhole_opt fun n hn => Nat.lt_trans (h n hn) (by decide)
    simp [fields, Json.wholeFields, Json.isWhole, hline]
  | stackPushed depth name => simp [fields, Json.wholeFields, Json.isWhole, Json.isWhole_nat h]
  | stackPopped depth => simp [fields, Json.wholeFields, Json.isWhole, Json.isWhole_nat h]
  | readExecuted line => simp [fields, Json.wholeFields, Json.isWhole, Json.isWhole_nat32 h]
  | _ => rfl

theorem ofFields?_fields {e : SessionEvent} (h : e.InRange) (session : Json) :
    ofFields? (("session", session) :: e.fields) = some e := by
  cases e with
  | executionPaused line wasPrint =>
    obtain ⟨v, hopt, hline⟩ := Json.exists_opt32 h
    rw [fields, hopt]
    simp [ofFields?, Json.field?, Json.defaulting, Json.str?, Json.bool?, hline]
  | stackPushed depth name =>
    obtain ⟨v, hnat, hdepth⟩ := Json.exists_nat64 h
    rw [fields, hnat]
    simp [ofFields?, Json.field?, Json.str?, hdepth]
  | stackPopped depth =>
    obtain ⟨v, hnat, hdepth⟩ := Json.exists_nat64 h
    rw [fields, hnat]
    simp [ofFields?, Json.field?, Json.str?, hdepth]
  | readExecuted line =>
    obtain ⟨v, hnat, hline⟩ := Json.exists_nat32 h
    rw [fields, hnat]
    simp [ofFields?, Json.field?, Json.str?, hline]
  | finished outcome =>
    simp [fields, ofFields?, Json.field?, Json.str?, RunOutcome.ofJson?_toJson]
  | _ => rfl

/-- No event has a field of the name under which an envelope keeps its session. -/
theorem nodup_names (e : SessionEvent) : ("session" :: e.fields.map (·.1)).Nodup := by
  cases e <;> simp [fields]

theorem isScalar_fields (e : SessionEvent) : ∀ f ∈ e.fields, f.2.isScalar = true := by
  cases e with
  | executionPaused line wasPrint => cases line <;> simp [fields, Json.opt, Json.nat, Json.isScalar]
  | _ => simp [fields, Json.nat, Json.isScalar, RunOutcome.toJson]

end SessionEvent

namespace Envelope

structure InRange (e : Envelope) : Prop where
  session : e.session < UInt64.size
  event : e.event.InRange

theorem isWhole_toJson {e : Envelope} (h : e.InRange) : e.toJson.isWhole = true := by
  simp only [toJson, Json.isWhole, Json.wholeFields, Json.isWhole_nat h.session,
    SessionEvent.wholeFields_fields h.event, Bool.and_self]

theorem field?_session (session : Json) (e : SessionEvent) :
    Json.field? (("session", session) :: e.fields) "session" = some session := by
  cases e <;> rfl

theorem ofJson?_toJson {e : Envelope} (h : e.InRange) : ofJson? e.toJson = some e := by
  obtain ⟨session, hnat, hsession⟩ := Json.exists_nat64 h.session
  rw [toJson, hnat]
  simp [ofJson?, field?_session, hsession, SessionEvent.ofFields?_fields h.event]

theorem isFlat_toJson (e : Envelope) : e.toJson.IsFlat :=
  ⟨_, rfl, e.event.nodup_names, List.forall_mem_cons.mpr ⟨rfl, e.event.isScalar_fields⟩⟩

theorem not_mem_text {e : Envelope} (h : e.InRange) {c : Char} (hc : c.toNat < 32) :
    c ∉ e.text.toList :=
  fun hmem => Nat.not_le.mpr hc (Json.unbroken_text (isWhole_toJson h) c hmem)

theorem lines_logText {es : List Envelope} (h : ∀ e ∈ es, e.InRange) :
    Text.lines (logText es) = es.map text := by
  have hchar (c : Char) (hc : c.toNat < 32) : ∀ t ∈ es.map text, c ∉ t.toList :=
    List.forall_mem_map.mpr fun e he => not_mem_text (h e he) hc
  have hlines := Text.lines_join (hchar '\n' (by decide)) (hchar '\r' (by decide))
  rwa [List.map_map] at hlines

theorem decode_lines {es : List Envelope} (h : ∀ e ∈ es, e.InRange) :
    (Text.lines (logText es)).mapM (Json.decode? ofJson?) = some es := by
  rw [lines_logText h]
  induction es with
  | nil => rfl
  | cons e es ih =>
    obtain ⟨he, hes⟩ := List.forall_mem_cons.mp h
    have hhead : Json.decode? ofJson? e.text = some e :=
      Json.decode?_text (isWhole_toJson he) (ofJson?_toJson he)
    simp [hhead, ih hes]

end Envelope

/-- What is printed of a run, its output and its settings is read back as it was, and a list of
envelopes printed one by one is recovered from the lines of what was printed. -/
theorem decode?_text_of_inRange :
    (∀ e : Envelope, e.InRange → Json.decode? Envelope.ofJson? e.text = some e ∧
      (∃ v, Json.parse? e.text = some v ∧ v.IsFlat) ∧ ∀ c ∈ e.text.toList, 32 ≤ c.toNat) ∧
    (∀ r : RunReport, r.InRange → Json.decode? RunReport.ofJson? r.toJson.text = some r) ∧
    (∀ s : ScopeInfo, s.InRange → Json.decode? ScopeInfo.ofJson? s.toJson.text = some s) ∧
    (∀ e : OutputEvent, Json.decode? OutputEvent.ofJson? e.toJson.text = some e) ∧
    (∀ c : Config, c.InRange → Json.decode? Config.ofJson? c.toJson.text = some c) ∧
    ∀ es : List Envelope, (∀ e ∈ es, e.InRange) →
      (Text.lines (String.join (es.map fun e => (Notice.event e).text))).mapM
        (Json.decode? Envelope.ofJson?) = some es := by
  refine ⟨fun e h => ⟨?_, ?_, ?_⟩, fun r h => ?_, fun s h => ?_, fun e => ?_, fun c h => ?_,
    fun es h => ?_⟩
  · exact Json.decode?_text (Envelope.isWhole_toJson h) (Envelope.ofJson?_toJson h)
  · exact ⟨e.toJson, Json.parse?_text (Envelope.isWhole_toJson h), e.isFlat_toJson⟩
  · exact Json.unbroken_text (Envelope.isWhole_toJson h)
  · exact Json.decode?_text (RunReport.isWhole_toJson h) (RunReport.ofJson?_toJson h)
  · exact Json.decode?_text (ScopeInfo.isWhole_toJson h) (ScopeInfo.ofJson?_toJson h)
  · exact Json.decode?_text e.isWhole_toJson e.ofJson?_toJson
  · exact Json.decode?_text (Config.isWhole_toJson h) (Config.ofJson?_toJson h)
  · exact Envelope.decode_lines h

/-- The greatest numbers, names full of characters that are escaped, and a pause without a line. -/
theorem decode?_text_of_extremes :
    let e : Envelope := ⟨UInt64.size - 1, .stackPushed (UInt64.size - 1) "\"f\\\n\r\t\x00\x1f é😀"⟩
    let p : Envelope := ⟨UInt64.size - 1, .executionPaused none true⟩
    let r : RunReport := ⟨UInt64.size - 1, .panicked, 4294967295, 4294967295, 0⟩
    let s : ScopeInfo := ⟨UInt64.size - 1, "\x7f\"", ["", "\n"]⟩
    let c : Config := ⟨⟨UInt64.size - 1, .drop⟩, { threadName := "\x00", stackSize := some 0 }⟩
    (Json.decode? Envelope.ofJson? e.text = some e ∧
      (∃ v, Json.parse? e.text = some v ∧ v.IsFlat) ∧ ∀ c ∈ e.text.toList, 32 ≤ c.toNat) ∧
    Json.decode? RunReport.ofJson? r.toJson.text = some r ∧
    Json.decode? ScopeInfo.ofJson? s.toJson.text = some s ∧
    Json.decode? Config.ofJson? c.toJson.text = some c ∧
    (Text.lines (String.join ([e, p].map fun e => (Notice.event e).text))).mapM
      (Json.decode? Envelope.ofJson?) = some [e, p] := by
  intro e p r s c
  obtain ⟨henvelope, hreport, hscope, -, hconfig, hlist⟩ := decode?_text_of_inRange
  have hgreatest : UInt64.size - 1 < UInt64.size := by decide
  have he : e.InRange := ⟨hgreatest, hgreatest⟩
  have hp : p.InRange := ⟨hgreatest, nofun⟩
  refine ⟨henvelope e he, hreport r hgreatest, hscope s hgreatest, hconfig c ⟨hgreatest, ?_⟩,
    hlist [e, p] ?_⟩
  · intro n hn
    cases hn
    decide
  · exact List.forall_mem_cons.mpr ⟨he, List.forall_mem_cons.mpr ⟨hp, nofun⟩⟩

end Conduit
