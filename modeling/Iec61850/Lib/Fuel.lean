import Iec61850.Lib.Memory

/-! Programs with loops that are given fuel: a result does not depend on how much there was. -/

namespace Machine

variable {α β : Type}

def FuelMonotone (f : Nat → Exec α) : Prop := ∀ ⦃m n a⦄, m ≤ n → f m = .ok a → f n = .ok a

namespace FuelMonotone

theorem const (x : Exec α) : FuelMonotone fun _ => x := fun _ _ _ _ h => h

theorem bind {f : Nat → Exec α} {g : Nat → α → Exec β} (hf : FuelMonotone f)
    (hg : ∀ a, FuelMonotone fun n => g n a) : FuelMonotone fun n => f n >>= g n := by
  intro m n b hmn h
  obtain ⟨a, ha, hb⟩ := bind_ok h
  change (f n >>= g n) = .ok b
  rw [hf hmn ha, ok_bind]
  exact hg a hmn hb

theorem ite {c : Prop} [Decidable c] {f g : Nat → Exec α} (hf : FuelMonotone f)
    (hg : FuelMonotone g) : FuelMonotone fun n => if c then f n else g n := by
  by_cases hc : c
  · simpa only [if_pos hc] using hf
  · simpa only [if_neg hc] using hg

theorem unique {f : Nat → Exec α} (hf : FuelMonotone f) {m n : Nat} {a b : α} (ha : f m = .ok a)
    (hb : f n = .ok b) : a = b := by
  have ha' := hf (Nat.le_max_left m n) ha
  have hb' := hf (Nat.le_max_right m n) hb
  exact Except.ok.inj (ha'.symm.trans hb')

end FuelMonotone

end Machine
