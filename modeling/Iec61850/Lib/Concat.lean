import Iec61850.Lib.Memory
import Mathlib.Data.List.Forall2

/-! Loops that add to one list, when every step can fail. -/

namespace Machine

/-- A loop whose steps add to one list. -/
def concatM {α β : Type} (f : α → Exec (List β)) : List α → Exec (List β)
  | [] => .ok []
  | a :: as => do return (← f a) ++ (← concatM f as)

section ConcatM

variable {α β γ δ : Type} {f : α → Exec (List β)} {as : List α} {bs : List β}

theorem concatM_cons_ok {a : α} :
    concatM f (a :: as) = .ok bs ↔
      ∃ added rest, f a = .ok added ∧ concatM f as = .ok rest ∧ bs = added ++ rest := by
  rw [concatM]
  constructor
  · intro h
    obtain ⟨added, hadded, h⟩ := bind_ok h
    obtain ⟨rest, hrest, h⟩ := bind_ok h
    exact ⟨added, rest, hadded, hrest, (Except.ok.inj h).symm⟩
  · rintro ⟨added, rest, hadded, hrest, rfl⟩
    rw [hadded, hrest]
    rfl

theorem concatM_eq_flatMap {g : α → List β} (h : ∀ a ∈ as, f a = .ok (g a)) :
    concatM f as = .ok (as.flatMap g) := by
  induction as with
  | nil => rfl
  | cons a as ih =>
    rw [List.forall_mem_cons] at h
    exact concatM_cons_ok.mpr ⟨g a, as.flatMap g, h.1, ih h.2, rfl⟩

end ConcatM

end Machine
