import Conduit.Proofs.Config.RoundTrip
import Conduit.Proofs.Files.Tree
import Conduit.Proofs.Text.Utf8

/-!
Settings that are saved. Either the file has their document and no other file has changed, or no file has.
-/
namespace Conduit.Config

variable {t t' : Files} {path : List String} {c : Config}

/-- Something keeps settings from being saved at the path: a number that is too large for a document, a
directory of that name, or a file where a directory has to be. -/
def Hindered (c : Config) (t : Files) (path : List String) : Prop :=
  ¬ c.Fits ∨ t.IsDir path ∨ t.IsBarred path.dropLast

/-- Below directories that have been made, a file is refused only where a directory was before. -/
theorem write_made_error_iff (bytes : List UInt8) (h : t.createDirs path.dropLast = .ok t') :
    (∃ fault, t'.write bytes path = .error fault) ↔ t.IsDir path := by
  obtain rfl | ⟨parent, name, rfl⟩ := List.eq_nil_or_concat' path
  · cases t with
    | file old => cases h
    | dir entries =>
      obtain rfl : Files.dir entries = t' := by simpa [Files.createDirs] using h
      exact iff_of_true ⟨_, rfl⟩ ⟨entries, rfl⟩
  · rw [List.dropLast_concat] at h
    have hparent : t'.IsDir parent := by
      rcases Files.createDirs_ok h parent with ⟨-, hd, -⟩ | ⟨hnot, -⟩
      · exact hd
      · exact absurd (List.prefix_refl _) hnot
    have hsame : t'.find? (parent ++ [name]) = t.find? (parent ++ [name]) := by
      rcases Files.createDirs_ok h (parent ++ [name]) with ⟨hp, -⟩ | ⟨-, hsame⟩
      · have hlength := hp.length_le
        rw [List.length_append, List.length_singleton] at hlength
        omega
      · exact hsame
    rw [Files.write_error_iff hparent, Files.IsDir, hsame]
    rfl

/-- What saving does: all of it or, if something hinders it, nothing that a file would show. -/
theorem save_cases (c : Config) (t : Files) (path : List String) :
    (¬ c.Hindered t path ∧ (c.save t path).2 = .ok () ∧
      ∃ text, parse text = (c.validate.map fun _ => c) ∧
        ∀ q, (c.save t path).1.bytesAt? q =
          if q = path then some (Text.encode text) else t.bytesAt? q) ∨
    (c.Hindered t path ∧ (∃ e, (c.save t path).2 = .error e) ∧
      ∀ q, (c.save t path).1.bytesAt? q = t.bytesAt? q) := by
  unfold save
  cases hmade : t.createDirs path.dropLast with
  | error fault =>
    have hbarred := Files.createDirs_error_iff.mp ⟨fault, hmade⟩
    exact .inr ⟨.inr (.inr hbarred), ⟨_, rfl⟩, fun _ => rfl⟩
  | ok t' =>
    have hkept := Files.createDirs_bytesAt? hmade
    have hopen : ¬ t.IsBarred path.dropLast := by
      rw [← Files.createDirs_error_iff, hmade]
      simp
    -- The document is there before the file is touched, so that a refusal finds every file as it was.
    obtain ⟨hlarge, hnone⟩ | ⟨hfits, text, htext, hparse⟩ := c.toToml_cases
    · simp only [hnone]
      exact .inr ⟨.inl hlarge, ⟨_, rfl⟩, hkept⟩
    · simp only [htext]
      have hdir := write_made_error_iff (Text.encode text) hmade
      cases hwrite : t'.write (Text.encode text) path with
      | error fault => exact .inr ⟨.inr (.inl (hdir.mp ⟨fault, hwrite⟩)), ⟨_, rfl⟩, hkept⟩
      | ok t'' =>
        have hfree : ¬ t.IsDir path := by
          rw [← hdir, hwrite]
          simp
        refine .inl ⟨by simp [Hindered, hfits, hfree, hopen], rfl, text, hparse, fun q => ?_⟩
        rw [Files.write_ok hwrite, hkept]

/-- A text that is in a file is what is parsed when settings are loaded from it. -/
theorem load_eq {l : Location} {text : String} (h : t.bytesAt? l.path = some (Text.encode text)) :
    load t l = parse text := by
  have htext : t.readText l.path = .ok text := by
    rw [Files.readText, Files.read_of_bytesAt? h]
    simp [bind, Except.bind, Text.decode?_encode]
  simp only [load, Files.exists?_of_bytesAt? h, if_true, htext]

/-- Settings that have been saved are loaded again, or what is wrong with them is told, and every other
file is as before. When they cannot be saved, every file is as before; that is so for a number that is too
large for a document, where a directory has the name, and where a file is in place of a directory. -/
theorem saving_changes_one_file_or_none (c : Config) (t : Files) (path : List String)
    (shown : String) :
    let t' := (c.save t path).1
    let result := (c.save t path).2
    (result = .ok () →
      (c.validate = .ok () → load t' ⟨shown, path⟩ = .ok c) ∧
      (∀ e, c.validate = .error e → load t' ⟨shown, path⟩ = .error e) ∧
      ∀ q, q ≠ path → t'.bytesAt? q = t.bytesAt? q) ∧
    (∀ e, result = .error e → ∀ q, t'.bytesAt? q = t.bytesAt? q) ∧
    ((∃ e, result = .error e) ↔
      (2 ^ 63 ≤ c.input.capacity ∨ ∃ n, c.run.stackSize = some n ∧ 2 ^ 63 ≤ n) ∨
      t.IsDir path ∨ t.IsBarred path.dropLast) := by
  intro t' result
  have hcause : c.Hindered t path ↔
      (2 ^ 63 ≤ c.input.capacity ∨ ∃ n, c.run.stackSize = some n ∧ 2 ^ 63 ≤ n) ∨
        t.IsDir path ∨ t.IsBarred path.dropLast := by
    rw [Hindered, fits_iff, Classical.not_not]
  rw [← hcause]
  rcases save_cases c t path with ⟨hfree, hok, text, hparse, hfiles⟩ | ⟨hhindered, ⟨e, he⟩, hfiles⟩
  · have hload : load t' ⟨shown, path⟩ = c.validate.map fun _ => c :=
      (load_eq ((hfiles path).trans (if_pos rfl))).trans hparse
    refine ⟨fun _ => ⟨fun hv => ?_, fun e hv => ?_, fun q hq => ?_⟩, fun e he => ?_, ?_⟩
    · rw [hload, hv]
      rfl
    · rw [hload, hv]
      rfl
    · exact (hfiles q).trans (if_neg hq)
    · exact absurd (hok.symm.trans he) (by simp)
    · exact iff_of_false (fun ⟨e, he⟩ => absurd (hok.symm.trans he) (by simp)) hfree
  · refine ⟨fun hok => ?_, fun _ _ => hfiles, iff_of_true ⟨e, he⟩ hhindered⟩
    exact absurd (he.symm.trans hok) (by simp)

/-- A file in a new directory, and one that would have to be below another file. -/
theorem saving_changes_one_file_or_none_new_directory :
    let t : Files := .dir [("a", .file [1]), ("d", .dir [("e", .file [2])])]
    let saved := save {} t ["d", "x", "c"]
    let refused := save {} t ["a", "c"]
    saved.2 = .ok () ∧ load saved.1 ⟨"d/x/c", ["d", "x", "c"]⟩ = .ok {} ∧
      saved.1.bytesAt? ["d", "e"] = some [2] ∧
      (∃ e, refused.2 = .error e) ∧ refused.1.bytesAt? ["a"] = some [1] := by
  intro t saved refused
  obtain ⟨hok, -, -⟩ := saving_changes_one_file_or_none {} t ["d", "x", "c"] "d/x/c"
  obtain ⟨-, herror, hcause⟩ := saving_changes_one_file_or_none {} t ["a", "c"] "a/c"
  have hsaved : saved.2 = .ok () := by rfl
  obtain ⟨hload, -, hothers⟩ := hok hsaved
  have hbarred : t.IsBarred ["a"] := ⟨["a"], List.prefix_refl _, rfl⟩
  obtain ⟨e, he⟩ := hcause.mpr (.inr (.inr hbarred))
  exact ⟨hsaved, hload rfl, hothers ["d", "e"] (by decide), ⟨e, he⟩, herror e he ["a"]⟩

end Conduit.Config
