import Conduit.Files
import Mathlib.Data.List.Basic

/-!
Files of a tree. Making directories changes no file, and writing one changes that one only; a call that is
refused is refused for what stands on its path.
-/
namespace Conduit.Files

def IsDir (t : Files) (path : List String) : Prop := ∃ entries, t.find? path = some (.dir entries)

def IsBarred (t : Files) (path : List String) : Prop := ∃ p, p <+: path ∧ (t.bytesAt? p).isSome

variable {t t' u : Files} {path q : List String} {name : String} {entries : List (String × Files)}
  {bytes : List UInt8}

theorem lookup_cons (name : String) (t : Files) (entries : List (String × Files)) (n : String) :
    ((name, t) :: entries).lookup n = if n = name then some t else entries.lookup n := by
  by_cases h : n = name
  · rw [if_pos h, List.lookup_cons, beq_iff_eq.mpr h]
  · rw [if_neg h, List.lookup_cons, beq_eq_false_iff_ne.mpr h]

theorem lookup_put (name : String) (t : Files) (entries : List (String × Files)) (n : String) :
    (put name t entries).lookup n = if n = name then some t else entries.lookup n := by
  induction entries with
  | nil => exact lookup_cons name t [] n
  | cons e entries ih =>
    obtain ⟨m, u⟩ := e
    by_cases hm : m = name
    · rw [put, if_pos hm, lookup_cons, lookup_cons, hm]
      split <;> rfl
    · rw [put, if_neg hm, lookup_cons, lookup_cons, ih]
      by_cases h : n = name
      · rw [if_pos h, if_pos h, if_neg (h ▸ Ne.symm hm)]
      · rw [if_neg h, if_neg h]

theorem find?_cons (entries : List (String × Files)) (name : String) (path : List String) :
    (dir entries).find? (name :: path) = (entries.lookup name).bind (·.find? path) := by
  rw [find?]
  cases entries.lookup name <;> rfl

theorem bytesAt?_cons (entries : List (String × Files)) (name : String) (path : List String) :
    (dir entries).bytesAt? (name :: path) = (entries.lookup name).bind (·.bytesAt? path) := by
  rw [bytesAt?, find?_cons]
  cases entries.lookup name <;> rfl

/-! Making directories -/

theorem find?_chain (path q : List String) :
    q <+: path ∧ (chain path).IsDir q ∨ ¬ q <+: path ∧ (chain path).find? q = none := by
  induction path generalizing q with
  | nil =>
    cases q with
    | nil => exact .inl ⟨List.prefix_refl _, [], rfl⟩
    | cons n q => exact .inr ⟨by simp, rfl⟩
  | cons name path ih =>
    cases q with
    | nil => exact .inl ⟨List.nil_prefix, _, rfl⟩
    | cons n q =>
      have hfind : (chain (name :: path)).find? (n :: q) =
          if n = name then (chain path).find? q else none := by
        rw [chain, find?_cons, lookup_cons]
        split <;> rfl
      by_cases hn : n = name
      · subst hn
        simp only [IsDir, hfind, if_true, List.cons_prefix_cons, true_and]
        exact ih q
      · exact .inr ⟨fun h => hn (List.cons_prefix_cons.mp h).1, by rw [hfind, if_neg hn]⟩

/-- One step down a path on which directories are made: into an entry that is there, or to the new ones. -/
theorem createDirs_cons (h : (dir entries).createDirs (name :: path) = .ok t') :
    ∃ u, t' = .dir (put name u entries) ∧
      ((∃ v, entries.lookup name = some v ∧ v.createDirs path = .ok u) ∨
        entries.lookup name = none ∧ u = chain path) := by
  rw [createDirs] at h
  cases hl : entries.lookup name with
  | none =>
    simp only [hl, Except.ok.injEq] at h
    exact ⟨chain path, h.symm, .inr ⟨rfl, rfl⟩⟩
  | some v =>
    simp only [hl] at h
    cases hv : v.createDirs path with
    | error fault => simp [hv, bind, Except.bind] at h
    | ok u =>
      simp only [hv, bind, Except.bind, Except.ok.injEq] at h
      exact ⟨u, h.symm, .inl ⟨v, rfl, hv⟩⟩

/-- Where directories have been made, the path leads through directories and never led through a file;
elsewhere nothing has changed. -/
theorem createDirs_ok (h : t.createDirs path = .ok t') (q : List String) :
    q <+: path ∧ t'.IsDir q ∧ t.bytesAt? q = none ∨ ¬ q <+: path ∧ t'.find? q = t.find? q := by
  induction path generalizing t t' q with
  | nil =>
    cases t with
    | file bytes => cases h
    | dir entries =>
      obtain rfl : dir entries = t' := by simpa [createDirs] using h
      cases q with
      | nil => exact .inl ⟨List.prefix_refl _, ⟨entries, rfl⟩, rfl⟩
      | cons n q => exact .inr ⟨by simp, rfl⟩
  | cons name path ih =>
    cases t with
    | file bytes => cases h
    | dir entries =>
      obtain ⟨u, rfl, hu⟩ := createDirs_cons h
      cases q with
      | nil => exact .inl ⟨List.nil_prefix, ⟨_, rfl⟩, rfl⟩
      | cons n q =>
        -- Only below the entry that is on the path can anything have changed.
        by_cases hn : n = name
        · subst hn
          simp only [IsDir, find?_cons, bytesAt?_cons, lookup_put, if_true, Option.bind_some,
            List.cons_prefix_cons, true_and]
          rcases hu with ⟨v, hl, hv⟩ | ⟨hl, rfl⟩
          · rw [hl]
            exact ih hv q
          · rw [hl]
            exact (find?_chain path q).imp (fun hq => ⟨hq.1, hq.2, rfl⟩) id
        · refine .inr ⟨fun h => hn (List.cons_prefix_cons.mp h).1, ?_⟩
          rw [find?_cons, find?_cons, lookup_put, if_neg hn]

theorem createDirs_bytesAt? (h : t.createDirs path = .ok t') (q : List String) :
    t'.bytesAt? q = t.bytesAt? q := by
  rcases createDirs_ok h q with ⟨-, ⟨entries, hd⟩, hnone⟩ | ⟨-, hsame⟩
  · rw [hnone, bytesAt?, hd]
  · rw [bytesAt?, hsame, bytesAt?]

theorem createDirs_error_iff : (∃ fault, t.createDirs path = .error fault) ↔ t.IsBarred path := by
  constructor
  · rintro ⟨fault, h⟩
    induction path generalizing t fault with
    | nil =>
      cases t with
      | file bytes => exact ⟨[], List.prefix_refl _, rfl⟩
      | dir entries => cases h
    | cons name path ih =>
      cases t with
      | file bytes => exact ⟨[], List.nil_prefix, rfl⟩
      | dir entries =>
        rw [createDirs] at h
        cases hl : entries.lookup name with
        | none => simp [hl] at h
        | some v =>
          cases hv : v.createDirs path with
          | ok u => simp [hl, hv, bind, Except.bind] at h
          | error fault' =>
            obtain ⟨p, hp, hb⟩ := ih fault' hv
            refine ⟨name :: p, List.cons_prefix_cons.mpr ⟨rfl, hp⟩, ?_⟩
            rwa [bytesAt?_cons, hl]
  · rintro ⟨p, hp, hb⟩
    cases h : t.createDirs path with
    | error fault => exact ⟨fault, rfl⟩
    | ok t' =>
      rcases createDirs_ok h p with ⟨-, -, hnone⟩ | ⟨hnot, -⟩
      · simp [hnone] at hb
      · exact absurd hp hnot

/-! Writing a file -/

/-- One step down the path of a file: into an entry that is there, or to the new file. -/
theorem write_cons (h : (dir entries).write bytes (name :: path) = .ok t') :
    ∃ u, t' = .dir (put name u entries) ∧
      ((∃ v, entries.lookup name = some v ∧ v.write bytes path = .ok u) ∨
        entries.lookup name = none ∧ path = [] ∧ u = .file bytes) := by
  unfold write at h
  cases hl : entries.lookup name with
  | none =>
    cases path with
    | nil =>
      simp only [hl, Except.ok.injEq] at h
      exact ⟨.file bytes, h.symm, .inr ⟨rfl, rfl, rfl⟩⟩
    | cons m path => simp [hl] at h
  | some v =>
    simp only [hl] at h
    cases hv : v.write bytes path with
    | error fault => simp [hv, bind, Except.bind] at h
    | ok u =>
      simp only [hv, bind, Except.bind, Except.ok.injEq] at h
      exact ⟨u, h.symm, .inl ⟨v, rfl, hv⟩⟩

/-- A file that is written has the new contents, and every other file what it had. -/
theorem write_ok (h : t.write bytes path = .ok t') (q : List String) :
    t'.bytesAt? q = if q = path then some bytes else t.bytesAt? q := by
  induction path generalizing t t' q with
  | nil =>
    cases t with
    | dir entries => cases h
    | file old =>
      obtain rfl : file bytes = t' := by simpa [write] using h
      cases q <;> rfl
  | cons name path ih =>
    cases t with
    | file old => cases h
    | dir entries =>
      obtain ⟨u, rfl, hu⟩ := write_cons h
      cases q with
      | nil => rfl
      | cons n q =>
        rw [bytesAt?_cons, bytesAt?_cons, lookup_put]
        by_cases hn : n = name
        · subst hn
          simp only [if_true, Option.bind_some, List.cons.injEq, true_and]
          rcases hu with ⟨v, hl, hv⟩ | ⟨hl, rfl, rfl⟩
          · rw [hl]
            exact ih hv q
          · rw [hl]
            cases q <;> rfl
        · rw [if_neg hn, if_neg fun h => hn (List.cons.inj h).1]

theorem write_error_iff (h : t.IsDir path) (name : String) :
    (∃ fault, t.write bytes (path ++ [name]) = .error fault) ↔ t.IsDir (path ++ [name]) := by
  induction path generalizing t with
  | nil =>
    obtain ⟨entries, he⟩ := h
    obtain rfl : t = dir entries := by simpa [find?] using he
    simp only [List.nil_append, IsDir, find?_cons, write]
    cases entries.lookup name with
    | none => simp
    | some u => cases u <;> simp [write, find?, bind, Except.bind]
  | cons n path ih =>
    obtain ⟨below, hb⟩ := h
    cases t with
    | file old => cases hb
    | dir entries =>
      rw [find?_cons] at hb
      obtain ⟨v, hl, hv⟩ := Option.bind_eq_some_iff.mp hb
      have hrest := ih ⟨below, hv⟩
      simp only [IsDir, List.cons_append, find?_cons, hl, Option.bind_some, write] at hrest ⊢
      rw [← hrest]
      cases v.write bytes (path ++ [name]) <;> simp [bind, Except.bind]

/-! Reading one -/

theorem read_of_bytesAt? (h : t.bytesAt? path = some bytes) : t.read path = .ok bytes := by
  induction path generalizing t with
  | nil =>
    cases t with
    | dir entries => cases h
    | file old => exact congrArg Except.ok (Option.some.inj h)
  | cons name path ih =>
    cases t with
    | file old => cases h
    | dir entries =>
      rw [bytesAt?_cons] at h
      obtain ⟨v, hl, hv⟩ := Option.bind_eq_some_iff.mp h
      rw [read, hl]
      exact ih hv

theorem exists?_of_bytesAt? (h : t.bytesAt? path = some bytes) : t.exists? path = true := by
  rw [exists?]
  cases hf : t.find? path with
  | none => simp [bytesAt?, hf] at h
  | some u => rfl

end Conduit.Files
