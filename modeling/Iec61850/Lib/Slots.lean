import Iec61850.Lib.Memory
import Mathlib.Data.List.Forall2

/-! Storage that is allocated with a number of slots, and a loop that fills it: the storage and
the position are handed on. A slot that is behind the end is a fault. -/

namespace Machine

variable {α β : Type}

theorem bind_eq_of_ok {x : Exec α} {a : α} (h : x = .ok a) (f : α → Exec β) :
    (x >>= f) = f a := by
  rw [h, ok_bind]

/-- `slots[i] = value` -/
def store (slots : List α) (i : Nat) (value : α) : Exec (List α) :=
  if i < slots.length then .ok (slots.set i value) else .error .outOfBounds

/-- `slots[i++] = value` -/
def fillNext (s : List α × Nat) (value : α) : Exec (List α × Nat) := do
  return (← store s.1 s.2 value, s.2 + 1)

/-- The slots before the position have these values, and the others are as they were allocated. -/
def filled (null : α) (values : List α) (free : Nat) : List α × Nat :=
  (values ++ List.replicate free null, values.length)

theorem fillNext_filled (null : α) (values : List α) (value : α) (free : Nat) :
    fillNext (filled null values (free + 1)) value =
      .ok (filled null (values ++ [value]) free) := by
  have hlt : values.length < (values ++ List.replicate (free + 1) null).length := by simp
  rw [fillNext, store, filled, if_pos hlt, ok_bind, filled, List.set_append_right _ _ le_rfl,
    Nat.sub_self, List.replicate_succ, List.set_cons_zero, List.append_assoc,
    List.singleton_append, List.length_append, List.length_singleton]
  rfl

@[simp] theorem filled_nil (null : α) (free : Nat) :
    filled null [] free = (List.replicate free null, 0) := rfl

@[simp] theorem filled_full (null : α) (values : List α) :
    filled null values 0 = (values, values.length) := by
  rw [filled, List.replicate_zero, List.append_nil]

/-- A loop fills a slot for each element that `present` says is to have one. -/
def fillPresent (present : α → Bool) (make : α → Exec β) :
    List α → List β × Nat → Exec (List β × Nat)
  | [], s => .ok s
  | a :: as, s => do
    if present a then fillPresent present make as (← fillNext s (← make a))
    else fillPresent present make as s

/-- What is made of the elements with a slot fills as many slots, in their order. -/
theorem fillPresent_filled {present : α → Bool} {make : α → Exec β} {R : α → β → Prop}
    (null : β) {as : List α} (hmake : ∀ a ∈ as, present a = true → ∃ b, make a = .ok b ∧ R a b)
    (values : List β) {free : Nat} (hfree : as.countP present ≤ free) :
    ∃ bs, fillPresent present make as (filled null values free) =
        .ok (filled null (values ++ bs) (free - as.countP present)) ∧
      List.Forall₂ R (as.filter present) bs := by
  induction as generalizing values free with
  | nil => exact ⟨[], by simp [fillPresent], .nil⟩
  | cons a as ih =>
    have htail := fun b hb => hmake b (List.mem_cons_of_mem a hb)
    rw [fillPresent]
    cases hp : present a with
    | false =>
      rw [List.countP_cons_of_neg (by simp [hp])] at hfree ⊢
      rw [List.filter_cons_of_neg (by simp [hp])]
      exact ih htail values hfree
    | true =>
      obtain ⟨b, hb, hrel⟩ := hmake a List.mem_cons_self hp
      rw [List.countP_cons_of_pos hp] at hfree ⊢
      obtain ⟨free, rfl⟩ := Nat.exists_eq_succ_of_ne_zero (Nat.ne_of_gt (by omega : 0 < free))
      obtain ⟨bs, hfill, hall⟩ := ih htail (values ++ [b]) (Nat.le_of_succ_le_succ hfree)
      refine ⟨b :: bs, ?_, ?_⟩
      · rw [if_pos rfl, hb, ok_bind, fillNext_filled, ok_bind, hfill, List.append_assoc,
          List.singleton_append, Nat.succ_sub_succ]
      · rw [List.filter_cons_of_pos hp]
        exact .cons hrel hall

/-- Where as many slots are allocated as are filled, none is left over. -/
theorem fillPresent_replicate {present : α → Bool} {make : α → Exec β} {R : α → β → Prop}
    (null : β) {as : List α} (hmake : ∀ a ∈ as, present a = true → ∃ b, make a = .ok b ∧ R a b)
    {size : Nat} (hsize : size = as.countP present) :
    ∃ bs, fillPresent present make as (List.replicate size null, 0) = .ok (bs, bs.length) ∧
      size = bs.length ∧ List.Forall₂ R (as.filter present) bs := by
  obtain ⟨bs, hfill, hall⟩ := fillPresent_filled null hmake [] (le_of_eq hsize.symm)
  rw [hsize, Nat.sub_self, List.nil_append, filled_full, filled_nil] at hfill
  refine ⟨bs, ?_, ?_, hall⟩
  · rw [hsize]
    exact hfill
  · rw [hsize, List.countP_eq_length_filter, hall.length_eq]

/-- A loop over all of a list. -/
theorem fillPresent_all {make : α → Exec β} {R : α → β → Prop} (null : β) {as : List α}
    (hmake : ∀ a ∈ as, ∃ b, make a = .ok b ∧ R a b) {size : Nat} (hsize : size = as.length) :
    ∃ bs, fillPresent (fun _ => true) make as (List.replicate size null, 0) =
        .ok (bs, bs.length) ∧
      size = bs.length ∧ List.Forall₂ R as bs := by
  have hcount : size = as.countP (fun _ => true) := by simp [hsize]
  obtain ⟨bs, hfill, hlen, hall⟩ :=
    fillPresent_replicate null (fun a ha _ => hmake a ha) hcount
  rw [List.filter_true] at hall
  exact ⟨bs, hfill, hlen, hall⟩

end Machine
