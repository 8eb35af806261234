import Iec61850.Lib.Memory

/-! A block of memory for objects of several octets. An octet knows the object last
written over it and where that object begins, so an object is there as long as
nothing has been written over any of its octets. -/

namespace Machine

class Sized (α : Type) where
  size : α → Nat

structure Block (α : Type) where
  size : Nat
  cell : Nat → Option (Nat × α)

namespace Block

variable {α : Type}

def empty (n : Nat) : Block α := ⟨n, fun _ => none⟩

/-- Nothing has changed outside of an interval. -/
def SameOutside (b b' : Block α) (lo hi : Nat) : Prop :=
  b'.size = b.size ∧ ∀ p, p < lo ∨ hi ≤ p → b'.cell p = b.cell p

theorem SameOutside.refl (b : Block α) (lo hi : Nat) : b.SameOutside b lo hi :=
  ⟨rfl, fun _ _ => rfl⟩

theorem SameOutside.trans {b b' b'' : Block α} {lo hi : Nat} (h : b.SameOutside b' lo hi)
    (h' : b'.SameOutside b'' lo hi) : b.SameOutside b'' lo hi :=
  ⟨h'.1.trans h.1, fun p hp => (h'.2 p hp).trans (h.2 p hp)⟩

theorem SameOutside.mono {b b' : Block α} {lo hi lo' hi' : Nat} (h : b.SameOutside b' lo hi)
    (hlo : lo' ≤ lo) (hhi : hi ≤ hi') : b.SameOutside b' lo' hi' :=
  ⟨h.1, fun p hp => h.2 p (hp.imp (lt_of_lt_of_le · hlo) (hhi.trans ·))⟩

variable [Sized α]

def write (b : Block α) (pos : Nat) (a : α) : Exec (Block α) :=
  if pos + Sized.size a ≤ b.size then
    .ok { b with
      cell := fun p => if pos ≤ p ∧ p < pos + Sized.size a then some (pos, a) else b.cell p }
  else .error .outOfBounds

def read (b : Block α) (pos : Nat) : Exec α :=
  match b.cell pos with
  | some (_, a) =>
    if ∀ i < Sized.size a, (b.cell (pos + i)).map Prod.fst = some pos then .ok a
    else .error .notThere
  | none => .error .notThere

def sizeAll (as : List α) : Nat := (as.map Sized.size).sum

def Holds (b : Block α) (pos : Nat) (a : α) : Prop :=
  0 < Sized.size a ∧ ∀ p, pos ≤ p → p < pos + Sized.size a → b.cell p = some (pos, a)

/-- Objects that lie one behind the other. -/
def HoldsAll (b : Block α) : Nat → List α → Prop
  | _, [] => True
  | pos, a :: as => b.Holds pos a ∧ b.HoldsAll (pos + Sized.size a) as

@[simp] theorem sizeAll_nil : sizeAll ([] : List α) = 0 := rfl

@[simp] theorem sizeAll_cons (a : α) (as : List α) :
    sizeAll (a :: as) = Sized.size a + sizeAll as := rfl

@[simp] theorem sizeAll_append (as cs : List α) : sizeAll (as ++ cs) = sizeAll as + sizeAll cs := by
  simp [sizeAll]

theorem read_of_holds {b : Block α} {pos : Nat} {a : α} (h : b.Holds pos a) :
    b.read pos = .ok a := by
  obtain ⟨hpos, hcell⟩ := h
  rw [read, hcell pos le_rfl (by omega)]
  simp only
  rw [if_pos]
  intro i hi
  rw [hcell (pos + i) (by omega) (by omega)]
  rfl

theorem write_eq (b : Block α) (pos : Nat) (a : α) (hpos : 0 < Sized.size a)
    (h : pos + Sized.size a ≤ b.size) :
    ∃ b', b.write pos a = .ok b' ∧ b'.Holds pos a ∧
      b.SameOutside b' pos (pos + Sized.size a) := by
  refine ⟨_, if_pos h, ⟨hpos, ?_⟩, rfl, ?_⟩
  · intro p hlo hhi
    simp only
    rw [if_pos ⟨hlo, hhi⟩]
  · intro p hp
    simp only
    rw [if_neg (by omega)]

theorem Holds.of_same {b b' : Block α} {pos lo hi : Nat} {a : α} (h : b.Holds pos a)
    (hs : b.SameOutside b' lo hi) (hd : pos + Sized.size a ≤ lo ∨ hi ≤ pos) : b'.Holds pos a := by
  refine ⟨h.1, ?_⟩
  intro p hlo hhi
  rw [hs.2 p (by omega)]
  exact h.2 p hlo hhi

theorem HoldsAll.of_same {b b' : Block α} {pos lo hi : Nat} {as : List α}
    (h : b.HoldsAll pos as) (hs : b.SameOutside b' lo hi)
    (hd : pos + sizeAll as ≤ lo ∨ hi ≤ pos) : b'.HoldsAll pos as := by
  induction as generalizing pos with
  | nil => trivial
  | cons a as ih =>
    rw [sizeAll_cons] at hd
    exact ⟨h.1.of_same hs (by omega), ih h.2 (by omega)⟩

theorem holdsAll_append {b : Block α} {pos : Nat} {as cs : List α} :
    b.HoldsAll pos (as ++ cs) ↔ b.HoldsAll pos as ∧ b.HoldsAll (pos + sizeAll as) cs := by
  induction as generalizing pos with
  | nil => simp [HoldsAll]
  | cons a as ih => simp only [List.cons_append, HoldsAll, ih, sizeAll_cons, and_assoc, Nat.add_assoc]

end Block

end Machine
