import Iec61850.Lib.Memory

/-! Arithmetic in a signed 32 bit type that stops where the language gives no result: at a value that
does not fit, and at a division by zero. -/

namespace Machine

inductive ArithmeticFault
  | overflow | divisionByZero
  deriving DecidableEq

abbrev CheckedInt := Except ArithmeticFault Int

def FitsInt (x : Int) : Prop := -2147483648 ≤ x ∧ x < 2147483648

instance (x : Int) : Decidable (FitsInt x) := inferInstanceAs (Decidable (_ ∧ _))

def checkedInt (x : Int) : CheckedInt := if FitsInt x then .ok x else .error .overflow

def checkedDiv (a b : Int) : CheckedInt :=
  if b = 0 then .error .divisionByZero else checkedInt (a.tdiv b)

theorem FitsInt.i32_eq {x : Int} (h : FitsInt x) : i32 x = x := i32_of_range h.1 h.2

theorem checkedInt_of_fits {x : Int} (h : FitsInt x) : checkedInt x = .ok x := if_pos h

theorem checkedInt_ok_iff {x y : Int} : checkedInt x = .ok y ↔ FitsInt y ∧ y = x := by
  rw [checkedInt]
  constructor
  · intro h
    split at h
    case isTrue hfits =>
      cases h
      exact ⟨hfits, rfl⟩
    case isFalse => cases h
  · rintro ⟨hfits, rfl⟩
    exact if_pos hfits

theorem checked_bind_ok_iff {α β : Type} {x : Except ArithmeticFault α}
    {f : α → Except ArithmeticFault β} {b : β} :
    (x >>= f) = .ok b ↔ ∃ a, x = .ok a ∧ f a = .ok b := by
  cases x with
  | error e =>
    refine iff_of_false nofun ?_
    rintro ⟨a, ha, -⟩
    cases ha
  | ok a =>
    constructor
    · intro h
      exact ⟨a, rfl, h⟩
    · rintro ⟨a, ha, hf⟩
      cases ha
      exact hf

theorem fitsInt_of_le {x y : Int} (h0 : 0 ≤ x) (hle : x ≤ y) (h : FitsInt y) : FitsInt x :=
  ⟨by omega, hle.trans_lt h.2⟩

section Loops

variable {α : Type} {step : Int → α → CheckedInt} {next : Int → α → Int} {ds : List α} {v w : Int}

theorem le_foldl (hnext : ∀ d ∈ ds, ∀ v, 0 ≤ v → v ≤ next v d) (hv : 0 ≤ v) :
    v ≤ ds.foldl next v := by
  induction ds generalizing v with
  | nil => exact le_rfl
  | cons d ds ih =>
    have hle := hnext d List.mem_cons_self v hv
    exact hle.trans (ih (fun d hd => hnext d (List.mem_cons_of_mem _ hd)) (hv.trans hle))

/-- A loop over growing values stops nowhere when its last value fits. -/
theorem foldlM_checked (hnext : ∀ d ∈ ds, ∀ v, 0 ≤ v → v ≤ next v d)
    (hstep : ∀ d ∈ ds, ∀ v w, 0 ≤ v → (step v d = .ok w ↔ FitsInt w ∧ w = next v d))
    (hv : 0 ≤ v) (hfits : FitsInt v) :
    ds.foldlM step v = .ok w ↔ FitsInt w ∧ w = ds.foldl next v := by
  induction ds generalizing v with
  | nil =>
    constructor
    · intro h
      cases h
      exact ⟨hfits, rfl⟩
    · rintro ⟨-, rfl⟩
      rfl
  | cons d ds ih =>
    have hle := hnext d List.mem_cons_self v hv
    have hrest : ∀ d ∈ ds, ∀ v, 0 ≤ v → v ≤ next v d := fun d hd =>
      hnext d (List.mem_cons_of_mem _ hd)
    have ih' := fun hfit : FitsInt (next v d) =>
      ih hrest (fun d hd => hstep d (List.mem_cons_of_mem _ hd)) (hv.trans hle) hfit
    rw [List.foldlM_cons, List.foldl_cons]
    constructor
    · intro h
      cases hs : step v d with
      | error e =>
        rw [hs] at h
        cases h
      | ok u =>
        obtain ⟨hfit, rfl⟩ := (hstep d List.mem_cons_self v u hv).mp hs
        rw [hs] at h
        exact (ih' hfit).mp h
    · intro h
      have hfit : FitsInt (next v d) :=
        fitsInt_of_le (hv.trans hle) (h.2 ▸ le_foldl hrest (hv.trans hle)) h.1
      rw [(hstep d List.mem_cons_self v _ hv).mpr ⟨hfit, rfl⟩]
      exact (ih' hfit).mpr h

end Loops

end Machine
