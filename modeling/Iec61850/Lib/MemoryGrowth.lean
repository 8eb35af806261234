import Iec61850.Lib.Memory

/-! Programs that read a memory come to the same in a memory with more octets. -/

namespace Machine

/-- Where the first program has a result, the second one has a related one. -/
def Carried {α β : Type} (R : α → β → Prop) (x : Exec α) (y : Exec β) : Prop :=
  ∀ a, x = .ok a → ∃ b, y = .ok b ∧ R a b

namespace Carried

variable {α α' β β' : Type} {R : α → β → Prop} {S : α' → β' → Prop}

theorem ok {a : α} {b : β} (h : R a b) : Carried R (.ok a) (.ok b) := by
  intro a' ha
  cases ha
  exact ⟨b, rfl, h⟩

theorem error {e : Fault} {y : Exec β} : Carried R (.error e) y := by
  intro a ha
  cases ha

theorem refl (x : Exec α) : Carried Eq x x := fun a ha => ⟨a, ha, rfl⟩

theorem bind {x : Exec α} {y : Exec β} {f : α → Exec α'} {g : β → Exec β'}
    (hx : Carried R x y) (hf : ∀ a b, R a b → Carried S (f a) (g b)) :
    Carried S (x >>= f) (y >>= g) := by
  intro a' ha'
  obtain ⟨a, ha, hfa⟩ := bind_ok ha'
  obtain ⟨b, hb, hab⟩ := hx a ha
  obtain ⟨b', hb', h⟩ := hf a b hab a' hfa
  refine ⟨b', ?_, h⟩
  rw [hb, ok_bind]
  exact hb'

/-- The same is read by both programs. -/
theorem bind_eq {x y : Exec α} {f : α → Exec α'} {g : α → Exec β'} (hx : Carried Eq x y)
    (hf : ∀ a, Carried S (f a) (g a)) : Carried S (x >>= f) (y >>= g) := by
  refine hx.bind ?_
  rintro a _ rfl
  exact hf a

theorem ite {c : Prop} [Decidable c] {x x' : Exec α} {y y' : Exec β} (hx : Carried R x y)
    (hx' : Carried R x' y') : Carried R (if c then x else x') (if c then y else y') := by
  by_cases hc : c
  · rw [if_pos hc, if_pos hc]
    exact hx
  · rw [if_neg hc, if_neg hc]
    exact hx'

theorem eq_ok {x y : Exec α} (h : Carried Eq x y) {a : α} (ha : x = .ok a) : y = .ok a := by
  obtain ⟨b, hb, rfl⟩ := h a ha
  exact hb

end Carried

namespace Memory

/-- What is there in one memory is in the other one, too. -/
def Within (mem mem' : Memory) : Prop := ∀ pos b, mem pos = some b → mem' pos = some b

variable {mem mem' : Memory}

theorem Within.refl (mem : Memory) : mem.Within mem := fun _ _ h => h

theorem Within.read (h : mem.Within mem') (pos : Int) :
    Carried Eq (mem.read pos) (mem'.read pos) := by
  rw [Memory.read, Memory.read]
  cases hpos : mem pos with
  | none => exact Carried.error
  | some b =>
    rw [h pos b hpos]
    exact Carried.refl _

theorem Within.readOctets (h : mem.Within mem') (pos : Int) (n : Nat) :
    Carried Eq (mem.readOctets pos n) (mem'.readOctets pos n) := by
  induction n generalizing pos with
  | zero => exact Carried.refl _
  | succ n ih => exact (h.read pos).bind_eq fun b => (ih (pos + 1)).bind_eq fun _ => Carried.refl _

/-- The octets of a message, wherever it stands. -/
theorem within_of_readOctets {octets : List UInt8} {start : Int}
    (h : mem.readOctets start octets.length = .ok octets) :
    (ofList octets).Within fun pos => mem (start + pos) := by
  induction octets generalizing start with
  | nil =>
    intro pos b hb
    rw [ofList] at hb
    split at hb
    · cases hb
    · cases hb
  | cons o octets ih =>
    rw [List.length_cons, Memory.readOctets] at h
    obtain ⟨first, hfirst, h⟩ := bind_ok h
    obtain ⟨rest, hrest, h⟩ := bind_ok h
    cases h
    intro pos b hb
    rw [ofList] at hb
    split at hb
    case isFalse => cases hb
    case isTrue hpos =>
      obtain ⟨n, rfl⟩ := Int.eq_ofNat_of_zero_le hpos
      cases n with
      | zero =>
        rw [Int.toNat_natCast, List.getElem?_cons_zero] at hb
        cases hb
        change mem (start + 0) = some o
        rw [Int.add_zero]
        exact (read_ok_iff _ _ _).mp hfirst
      | succ n =>
        rw [Int.toNat_natCast, List.getElem?_cons_succ] at hb
        have hn := ih hrest n b (by rw [ofList_natCast]; exact hb)
        have hpos' : start + ((n + 1 : Nat) : Int) = start + 1 + n := by omega
        change mem (start + ((n + 1 : Nat) : Int)) = some b
        rw [hpos']
        exact hn

end Memory

end Machine
