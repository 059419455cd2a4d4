import Conduit.Config.Files

/-!
Settings that are handed out. Whichever way they are read they are valid, and where there are none to read
the default ones stand in.
-/
namespace Conduit.Config

theorem validate_of_parse {source : String} {c : Config} (h : parse source = .ok c) :
    c.validate = .ok () := by
  unfold parse at h
  split at h
  · cases h
  · split at h
    · cases h
    · rename_i c' _
      cases hv : c'.validate with
      | error e => simp [hv, bind, Except.bind] at h
      | ok _ =>
        simp only [hv, bind, Except.bind, Except.ok.injEq] at h
        exact h ▸ hv

theorem validate_of_load {t : Files} {l : Location} {c : Config} (h : load t l = .ok c) :
    c.validate = .ok () := by
  unfold load at h
  split at h
  · split at h
    · exact validate_of_parse h
    · cases h
  · cases h

theorem validate_default : validate {} = .ok () := by
  have hname : Text.isBlankText ({} : Config).run.threadName = false := by decide
  rw [validate, invalid?, hname]
  rfl

theorem validate_loadOrDefault (t : Files) (l : Location) :
    (loadOrDefault t l).1.validate = .ok () := by
  unfold loadOrDefault
  split
  · split
    · exact validate_of_load ‹_›
    · exact validate_default
  · exact validate_default

theorem loadOrDefault_eq (t : Files) (l : Location) :
    (loadOrDefault t l).1 = match load t l with
      | .ok c => c
      | .error _ => {} := by
  unfold loadOrDefault
  by_cases h : t.exists? l.path = true
  · rw [if_pos h]
    cases load t l <;> rfl
  · rw [if_neg h, load, if_neg h]

end Conduit.Config
