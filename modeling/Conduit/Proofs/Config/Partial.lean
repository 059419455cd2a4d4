import Conduit.Proofs.Config.Validity
import Conduit.Proofs.Toml.Pages

/-!
Documents that give some of the settings. In whatever order they stand, and whatever else is there, the
others have their defaults.
-/
namespace Conduit.Config
open Toml (Plain Section Passage Page Key Node TableHead Fault namesOf)

inductive Group where
  | input
  | run
deriving DecidableEq, Repr

def Group.name : Group → String
  | .input => "input"
  | .run => "run"

inductive Field where
  | capacity
  | whenFull
  | pause
  | overlap
  | debug
  | threadName
  | stackSize
deriving DecidableEq, Repr

namespace Field

def group : Field → Group
  | capacity | whenFull => .input
  | pause | overlap | debug | threadName | stackSize => .run

def name : Field → String
  | capacity => "capacity"
  | whenFull => "when_full"
  | pause => "pause"
  | overlap => "overlap"
  | debug => "debug"
  | threadName => "thread_name"
  | stackSize => "stack_size"

theorem name_inj {f g : Field} : f.name = g.name ↔ f = g := by
  cases f <;> cases g <;> decide

end Field

def value? (c : Config) : Field → Option Plain
  | .capacity => some (.nat c.input.capacity)
  | .whenFull => some (.text c.input.whenFull.name)
  | .pause => some (.text c.run.pause.name)
  | .overlap => some (.text c.run.overlap.name)
  | .debug => some (.flag c.run.debug)
  | .threadName => some (.text c.run.threadName)
  | .stackSize => c.run.stackSize.map .nat

def only (c : Config) (fs : List Field) : Config where
  input := {
    capacity := if .capacity ∈ fs then c.input.capacity else ({} : Config).input.capacity
    whenFull := if .whenFull ∈ fs then c.input.whenFull else ({} : Config).input.whenFull }
  run := {
    pause := if .pause ∈ fs then c.run.pause else ({} : Config).run.pause
    overlap := if .overlap ∈ fs then c.run.overlap else ({} : Config).run.overlap
    debug := if .debug ∈ fs then c.run.debug else ({} : Config).run.debug
    threadName := if .threadName ∈ fs then c.run.threadName else ({} : Config).run.threadName
    stackSize := if .stackSize ∈ fs then c.run.stackSize else ({} : Config).run.stackSize }

variable {c : Config} {fs fs' : List Field} {g : Group} {es : List (Key × Node)}

theorem value?_only (c : Config) (fs : List Field) (f : Field) :
    (c.only fs).value? f = if f ∈ fs then c.value? f else ({} : Config).value? f := by
  cases f <;> simp only [value?, only] <;> split <;> rfl

theorem input_only_congr (h : ∀ f, f.group = .input → (f ∈ fs ↔ f ∈ fs')) :
    (c.only fs).input = (c.only fs').input := by
  simp only [only, h .capacity rfl, h .whenFull rfl]

theorem run_only_congr (h : ∀ f, f.group = .run → (f ∈ fs ↔ f ∈ fs')) :
    (c.only fs).run = (c.only fs').run := by
  simp only [only, h .pause rfl, h .overlap rfl, h .debug rfl, h .threadName rfl, h .stackSize rfl]

/-! One table -/

structure GivesFields (c : Config) (fs : List Field) (g : Group) (es : List (Key × Node)) : Prop where
  names : ∀ f, f.group = g → (f ∈ fs ↔ f.name ∈ namesOf es)
  values : ∀ e ∈ es, ∀ f, f.group = g → e.1.name = f.name →
    ∃ v span, c.value? f = some v ∧ e.2 = v.node span

theorem addInput_field {f : Field} {v : Plain} (hg : f.group = .input) (hv : c.value? f = some v)
    (key : Option Toml.Span) (span : Toml.Span) :
    addInput (c.only fs).input ⟨f.name, key, v.node span⟩ = .ok (c.only (f :: fs)).input := by
  cases f with
  | capacity =>
    obtain rfl := Option.some.inj hv
    have honly : (c.only (.capacity :: fs)).input =
        { (c.only fs).input with capacity := c.input.capacity } := by simp [only]
    rw [honly]
    rfl
  | whenFull =>
    obtain rfl := Option.some.inj hv
    have honly : (c.only (.whenFull :: fs)).input =
        { (c.only fs).input with whenFull := c.input.whenFull } := by simp [only]
    rw [honly]
    cases c.input.whenFull <;> rfl
  | _ => cases hg

theorem addInput_other {i : InputSettings} {s : Setting}
    (h : ∀ f : Field, f.group = .input → s.name ≠ f.name) : addInput i s = .ok i := by
  unfold addInput
  split
  · exact absurd ‹_› (h .capacity rfl)
  · exact absurd ‹_› (h .whenFull rfl)
  · rfl

theorem addRun_field {f : Field} {v : Plain} (hg : f.group = .run) (hv : c.value? f = some v)
    (key : Option Toml.Span) (span : Toml.Span) :
    addRun (c.only fs).run ⟨f.name, key, v.node span⟩ = .ok (c.only (f :: fs)).run := by
  cases f with
  | pause =>
    obtain rfl := Option.some.inj hv
    have honly : (c.only (.pause :: fs)).run = { (c.only fs).run with pause := c.run.pause } := by
      simp [only]
    rw [honly]
    cases c.run.pause <;> rfl
  | overlap =>
    obtain rfl := Option.some.inj hv
    have honly : (c.only (.overlap :: fs)).run = { (c.only fs).run with overlap := c.run.overlap } := by
      simp [only]
    rw [honly]
    cases c.run.overlap <;> rfl
  | debug =>
    obtain rfl := Option.some.inj hv
    have honly : (c.only (.debug :: fs)).run = { (c.only fs).run with debug := c.run.debug } := by
      simp [only]
    rw [honly]
    rfl
  | threadName =>
    obtain rfl := Option.some.inj hv
    have honly : (c.only (.threadName :: fs)).run =
        { (c.only fs).run with threadName := c.run.threadName } := by simp [only]
    rw [honly]
    rfl
  | stackSize =>
    obtain ⟨n, hn, rfl⟩ := Option.map_eq_some_iff.mp hv
    have honly : (c.only (.stackSize :: fs)).run = { (c.only fs).run with stackSize := some n } := by
      simp [only, hn]
    rw [honly]
    rfl
  | _ => cases hg

theorem addRun_other {r : RunSettings} {s : Setting}
    (h : ∀ f : Field, f.group = .run → s.name ≠ f.name) : addRun r s = .ok r := by
  unfold addRun
  split
  · exact absurd ‹_› (h .pause rfl)
  · exact absurd ‹_› (h .overlap rfl)
  · exact absurd ‹_› (h .debug rfl)
  · exact absurd ‹_› (h .threadName rfl)
  · exact absurd ‹_› (h .stackSize rfl)
  · rfl

def settingOf (e : Key × Node) : Setting := ⟨e.1.name, some e.1.span, e.2⟩

section Fold
variable {γ : Type} (part : Config → γ) {add : γ → Setting → Except Fault γ}

/-- Entry after entry, the settings that have been named are those of `c` and the others the default
ones. -/
theorem foldlM_fields
    (hfield : ∀ (fs : List Field) (f : Field) (v : Plain) (key : Option Toml.Span) (span : Toml.Span),
      f.group = g → c.value? f = some v →
      add (part (c.only fs)) ⟨f.name, key, v.node span⟩ = .ok (part (c.only (f :: fs))))
    (hother : ∀ (r : γ) (s : Setting), (∀ f : Field, f.group = g → s.name ≠ f.name) → add r s = .ok r)
    (h : ∀ e ∈ es, ∀ f : Field, f.group = g → e.1.name = f.name →
      ∃ v span, c.value? f = some v ∧ e.2 = v.node span) (fs : List Field) :
    ∃ fs', (∀ f : Field, f.group = g → (f ∈ fs' ↔ f ∈ fs ∨ f.name ∈ namesOf es)) ∧
      (es.map settingOf).foldlM add (part (c.only fs)) = .ok (part (c.only fs')) := by
  -- `fs` are the settings named so far: an entry adds the one it names, or none.
  induction es generalizing fs with
  | nil => exact ⟨fs, by simp [namesOf], rfl⟩
  | cons e es ih =>
    obtain ⟨he, hes⟩ := List.forall_mem_cons.mp h
    have hnames : ∀ f : Field, f.name ∈ namesOf (e :: es) ↔ f.name = e.1.name ∨ f.name ∈ namesOf es :=
      fun _ => List.mem_cons
    by_cases hknown : ∃ f : Field, f.group = g ∧ e.1.name = f.name
    · obtain ⟨f, hg, hn⟩ := hknown
      obtain ⟨v, span, hv, hnode⟩ := he f hg hn
      obtain ⟨fs', hmem, hfold⟩ := ih hes (f :: fs)
      refine ⟨fs', fun f' hg' => ?_, ?_⟩
      · rw [hmem f' hg', hnames, hn, Field.name_inj, List.mem_cons]
        tauto
      · have hadd : add (part (c.only fs)) (settingOf e) = .ok (part (c.only (f :: fs))) := by
          rw [settingOf, hn, hnode]
          exact hfield fs f v _ span hg hv
        rw [List.map_cons, List.foldlM_cons, hadd]
        exact hfold
    · have hunknown : ∀ f : Field, f.group = g → e.1.name ≠ f.name := fun f hg hn => hknown ⟨f, hg, hn⟩
      obtain ⟨fs', hmem, hfold⟩ := ih hes fs
      refine ⟨fs', fun f' hg' => ?_, ?_⟩
      · rw [hmem f' hg', hnames, or_iff_right (hunknown f' hg').symm]
      · rw [List.map_cons, List.foldlM_cons, hother _ (settingOf e) hunknown]
        exact hfold

end Fold

theorem inputOf_gives (head : TableHead) (h : c.GivesFields fs .input es) :
    inputOf (.table head es) = .ok (c.only fs).input := by
  obtain ⟨fs', hmem, hfold⟩ := foldlM_fields input
    (fun _ _ _ key span hg hv => addInput_field hg hv key span) (fun _ _ => addInput_other) h.values []
  have hsame : (c.only fs).input = (c.only fs').input :=
    input_only_congr fun f hg => by rw [h.names f hg, hmem f hg]; simp
  rw [hsame]
  exact hfold

theorem runOf_gives (head : TableHead) (h : c.GivesFields fs .run es) :
    runOf (.table head es) = .ok (c.only fs).run := by
  obtain ⟨fs', hmem, hfold⟩ := foldlM_fields run
    (fun _ _ _ key span hg hv => addRun_field hg hv key span) (fun _ _ => addRun_other) h.values []
  have hsame : (c.only fs).run = (c.only fs').run :=
    run_only_congr fun f hg => by rw [h.names f hg, hmem f hg]; simp
  rw [hsame]
  exact hfold

/-! The whole document -/

/-- The tables of the document that have the name of a group give just the settings `fs`, with their values
in `c`. -/
structure Gives (c : Config) (fs : List Field) (t : Toml.Table) : Prop where
  tables : ∀ e ∈ t.entries, ∀ g : Group, e.1.name = g.name →
    ∃ head es, e.2 = .table head es ∧ c.GivesFields fs g es
  present : ∀ f ∈ fs, f.group.name ∈ namesOf t.entries

theorem addGroup_input {i : InputSettings} (c₀ : Config) {s : Setting} (hn : s.name = "input")
    (hi : inputOf s.value = .ok i) : addGroup c₀ s = .ok { c₀ with input := i } := by
  obtain ⟨name, key, value⟩ := s
  obtain rfl : name = "input" := hn
  simp only [addGroup, Setting.read, hi]
  rfl

theorem addGroup_run {r : RunSettings} (c₀ : Config) {s : Setting} (hn : s.name = "run")
    (hr : runOf s.value = .ok r) : addGroup c₀ s = .ok { c₀ with run := r } := by
  obtain ⟨name, key, value⟩ := s
  obtain rfl : name = "run" := hn
  simp only [addGroup, Setting.read, hr]
  rfl

theorem addGroup_other (c₀ : Config) {s : Setting} (hi : s.name ≠ "input") (hr : s.name ≠ "run") :
    addGroup c₀ s = .ok c₀ := by
  unfold addGroup
  split
  · exact absurd ‹_› hi
  · exact absurd ‹_› hr
  · rfl

theorem foldlM_groups {i : InputSettings} {r : RunSettings} (c₀ : Config)
    (hi : ∀ e ∈ es, e.1.name = "input" → inputOf e.2 = .ok i)
    (hr : ∀ e ∈ es, e.1.name = "run" → runOf e.2 = .ok r) :
    (es.map settingOf).foldlM addGroup c₀ =
      .ok { input := if "input" ∈ namesOf es then i else c₀.input
            run := if "run" ∈ namesOf es then r else c₀.run } := by
  induction es generalizing c₀ with
  | nil => rfl
  | cons e es ih =>
    obtain ⟨hi, his⟩ := List.forall_mem_cons.mp hi
    obtain ⟨hr, hrs⟩ := List.forall_mem_cons.mp hr
    have hnames : ∀ name, name ∈ namesOf (e :: es) ↔ name = e.1.name ∨ name ∈ namesOf es :=
      fun _ => List.mem_cons
    rw [List.map_cons, List.foldlM_cons]
    by_cases hinput : e.1.name = "input"
    · rw [addGroup_input c₀ (s := settingOf e) hinput (hi hinput)]
      refine (ih _ his hrs).trans ?_
      simp [hnames, hinput]
    · by_cases hrun : e.1.name = "run"
      · rw [addGroup_run c₀ (s := settingOf e) hrun (hr hrun)]
        refine (ih _ his hrs).trans ?_
        simp [hnames, hrun]
      · rw [addGroup_other c₀ (s := settingOf e) hinput hrun]
        refine (ih _ his hrs).trans ?_
        simp [hnames, Ne.symm hrun, Ne.symm hinput]

theorem ofTable_gives {t : Toml.Table} (h : c.Gives fs t) : ofTable t = .ok (c.only fs) := by
  have hinput : ∀ e ∈ t.entries, e.1.name = "input" → inputOf e.2 = .ok (c.only fs).input := by
    intro e he hn
    obtain ⟨head, es, hnode, hgives⟩ := h.tables e he .input hn
    rw [hnode, inputOf_gives head hgives]
  have hrun : ∀ e ∈ t.entries, e.1.name = "run" → runOf e.2 = .ok (c.only fs).run := by
    intro e he hn
    obtain ⟨head, es, hnode, hgives⟩ := h.tables e he .run hn
    rw [hnode, runOf_gives head hgives]
  have habsent : ∀ g : Group, g.name ∉ namesOf t.entries →
      ∀ f : Field, f.group = g → (f ∈ fs ↔ f ∈ ([] : List Field)) := by
    rintro _ hn f rfl
    exact iff_of_false (fun hf => hn (h.present f hf)) List.not_mem_nil
  refine (foldlM_groups {} hinput hrun).trans (congrArg Except.ok ?_)
  have hi : (if "input" ∈ namesOf t.entries then (c.only fs).input else {}) = (c.only fs).input := by
    split
    · rfl
    · next hn => exact (input_only_congr (habsent .input hn)).symm
  have hr : (if "run" ∈ namesOf t.entries then (c.only fs).run else {}) = (c.only fs).run := by
    split
    · rfl
    · next hn => exact (run_only_congr (habsent .run hn)).symm
  rw [hi, hr]

theorem parse_gives {source : String} {t : Toml.Table} (ht : Toml.parse? source = some t)
    (h : c.Gives fs t) : parse source = (c.only fs).validate.map fun _ => c.only fs := by
  simp only [parse, ht, ofTable_gives h]
  cases (c.only fs).validate <;> rfl

/-! Documents as they are written -/

structure GivesPairs (c : Config) (fs : List Field) (g : Group) (pairs : List (String × Plain)) :
    Prop where
  names : ∀ f : Field, f.group = g → (f ∈ fs ↔ f.name ∈ pairs.map Prod.fst)
  values : ∀ p ∈ pairs, ∀ f : Field, f.group = g → p.1 = f.name → c.value? f = some p.2

/-- The sections of a page that have the name of a group give just the settings `fs`, with their values in
`c`. -/
structure GivesPage (c : Config) (fs : List Field) (p : Page) : Prop where
  pairs : ∀ q ∈ p.pairs, ∀ g : Group, q.1 ≠ g.name
  sections : ∀ s ∈ p.sections, ∀ g : Group, s.name = g.name → c.GivesPairs fs g s.pairs
  present : ∀ f ∈ fs, f.group.name ∈ p.sections.map Section.name

theorem exists_of_mem {α β : Type} {R : α → β → Prop} {as : List α} {bs : List β}
    (h : List.Forall₂ R as bs) {a : α} (ha : a ∈ as) : ∃ b ∈ bs, R a b := by
  induction h with
  | nil => simp at ha
  | cons hab _ ih =>
    rcases List.mem_cons.mp ha with rfl | ha
    · exact ⟨_, List.mem_cons_self, hab⟩
    · obtain ⟨b, hb, hr⟩ := ih ha
      exact ⟨b, List.mem_cons_of_mem _ hb, hr⟩

theorem GivesPairs.entries {pairs : List (String × Plain)} (h : c.GivesPairs fs g pairs)
    (hs : List.Forall₂ Passage.Says es pairs) : c.GivesFields fs g es := by
  refine ⟨fun f hg => by rw [h.names f hg, Passage.namesOf_entries hs], fun e he f hg hn => ?_⟩
  obtain ⟨p, hp, hname, span, hnode⟩ := exists_of_mem hs he
  exact ⟨p.2, span, h.values p hp f hg (hname.symm.trans hn), hnode⟩

theorem GivesPage.root {p : Page} {ps : List Passage} (h : c.GivesPage fs p)
    (hs : List.Forall₂ Passage.Says es p.pairs) (hps : List.Forall₂ Passage.IsOf ps p.sections) :
    c.Gives fs { entries := es ++ ps.map Passage.entry } := by
  refine ⟨fun e he g hn => ?_, fun f hf => ?_⟩
  · rcases List.mem_append.mp he with he | he
    · obtain ⟨q, hq, hname, -⟩ := exists_of_mem hs he
      exact absurd (hname.symm.trans hn) (h.pairs q hq g)
    · obtain ⟨passage, hp, rfl⟩ := List.mem_map.mp he
      obtain ⟨s, hsection, hname, hentries⟩ := exists_of_mem hps hp
      have hgives := h.sections s hsection g (hname.symm.trans hn)
      exact ⟨_, passage.entries, rfl, hgives.entries hentries⟩
  · have hpresent := h.present f hf
    rw [← Passage.namesOf_entry hps] at hpresent
    rw [namesOf, List.map_append]
    exact List.mem_append_right _ hpresent

theorem parse_page {p : Page} (hp : p.Proper) (h : c.GivesPage fs p) :
    parse p.text = (c.only fs).validate.map fun _ => c.only fs := by
  obtain ⟨es, ps, hs, hps, hparse⟩ := Page.parse?_text hp
  exact parse_gives hparse (h.root hs hps)

/-- A document that gives just the settings `fs` their values in `c`, whatever else it has and in whatever
order, is read as those settings with defaults for the rest, or as what is wrong with these. Settings that
are handed out are valid, and where none can be loaded the default ones are. -/
theorem partial_documents_keep_defaults (c : Config) (fs : List Field) :
    (∀ f, (c.only fs).value? f = if f ∈ fs then c.value? f else ({} : Config).value? f) ∧
    (∀ (source : String) (t : Toml.Table), Toml.parse? source = some t → c.Gives fs t →
      parse source = (c.only fs).validate.map fun _ => c.only fs) ∧
    (∀ p : Page, p.Proper → c.GivesPage fs p →
      parse p.text = (c.only fs).validate.map fun _ => c.only fs) ∧
    (∀ (source : String) (m : Config), parse source = .ok m → m.validate = .ok ()) ∧
    ∀ (t : Files) (l : Location),
      (∀ m, load t l = .ok m → m.validate = .ok ()) ∧
      (loadOrDefault t l).1.validate = .ok () ∧
      (loadOrDefault t l).1 = match load t l with
        | .ok m => m
        | .error _ => {} := by
  refine ⟨value?_only c fs, fun source t ht h => parse_gives ht h, fun p hp h => parse_page hp h,
    fun source m h => validate_of_parse h, fun t l => ?_⟩
  exact ⟨fun m h => validate_of_load h, validate_loadOrDefault t l, loadOrDefault_eq t l⟩

/-- Two settings out of three, among keys and a table that mean nothing. -/
theorem partial_documents_keep_defaults_two_of_three :
    let c : Config := { input := { capacity := 5 }, run := { debug := true, threadName := "w" } }
    let fs : List Field := [.capacity, .threadName]
    let p : Page := ⟨[("title", .text "x")], [⟨"run", [("extra", .flag true), ("thread_name", .text "w")]⟩,
      ⟨"other", [("capacity", .nat 7)]⟩, ⟨"input", [("capacity", .nat 5)]⟩]⟩
    p.text = "title = \"x\"\n[run]\nextra = true\nthread_name = \"w\"\n\n[other]\ncapacity = 7\n\n" ++
        "[input]\ncapacity = 5\n" ∧
      (∃ t, Toml.parse? p.text = some t ∧ c.Gives fs t ∧
        parse p.text = (c.only fs).validate.map fun _ => c.only fs) ∧
      parse p.text = .ok { c with run := { threadName := "w" } } := by
  intro c fs p
  have hproper : p.Proper := by
    refine ⟨?_, ?_, by decide⟩
    · exact List.forall_mem_singleton.mpr ⟨by decide, trivial⟩
    · simp only [p, List.forall_mem_cons]
      refine ⟨⟨by decide, ?_, by decide⟩, ⟨by decide, ?_, by decide⟩, ⟨by decide, ?_, by decide⟩, by simp⟩
      · simp only [List.forall_mem_cons]
        exact ⟨⟨by decide, trivial⟩, ⟨by decide, trivial⟩, by simp⟩
      · exact List.forall_mem_singleton.mpr ⟨by decide, (by decide : Decimal.fitsInt64 7 = true)⟩
      · exact List.forall_mem_singleton.mpr ⟨by decide, (by decide : Decimal.fitsInt64 5 = true)⟩
  have hgives : c.GivesPage fs p := by
    refine ⟨?_, ?_, by decide⟩
    · refine List.forall_mem_singleton.mpr fun g => ?_
      cases g <;> decide
    · simp only [p, List.forall_mem_cons]
      refine ⟨fun g hg => ?_, fun g hg => ?_, fun g hg => ?_, by simp⟩
      · obtain rfl : g = .run := by cases g <;> first | rfl | exact absurd hg (by decide)
        refine ⟨fun f hf => ?_, ?_⟩
        · cases f <;> first | exact absurd hf (by decide) | decide
        · simp only [List.forall_mem_cons]
          refine ⟨fun f _ hn => ?_, fun f _ hn => ?_, by simp⟩
          · exact absurd hn (by cases f <;> decide)
          · obtain rfl : f = .threadName := Field.name_inj.mp hn.symm
            rfl
      · exact absurd hg (by cases g <;> decide)
      · obtain rfl : g = .input := by cases g <;> first | rfl | exact absurd hg (by decide)
        refine ⟨fun f hf => ?_, List.forall_mem_singleton.mpr fun f _ hn => ?_⟩
        · cases f <;> first | exact absurd hf (by decide) | decide
        · obtain rfl : f = .capacity := Field.name_inj.mp hn.symm
          rfl
  have honly : c.only fs = { c with run := { threadName := "w" } } := rfl
  have hvalid : validate { c with run := { threadName := "w" } } = .ok () := by
    rw [validate, invalid?, (by decide : Text.isBlankText "w" = false)]
    rfl
  obtain ⟨-, hparse, hpage, -, -⟩ := partial_documents_keep_defaults c fs
  obtain ⟨es, ps, hs, hps, ht⟩ := Page.parse?_text hproper
  have hroot := hgives.root hs hps
  refine ⟨by decide +kernel, ⟨_, ht, hroot, hparse _ _ ht hroot⟩, ?_⟩
  rw [hpage p hproper hgives, honly, hvalid]
  rfl

end Conduit.Config
