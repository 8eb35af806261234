import Mathlib.Tactic.Linarith
import Mathlib.Data.List.Basic

/-! Memory read through checked accesses, for programs that walk a buffer with
signed machine positions. A read of an address that is not there is a fault,
and so are a failed assertion and a loop that does not end within its fuel. -/

namespace Machine

inductive Fault
  | outOfBounds | outOfFuel | nullPointer | assertion | notThere
  deriving DecidableEq

abbrev Exec := Except Fault

theorem ok_bind {α β : Type} (a : α) (f : α → Exec β) : (Except.ok a >>= f) = f a := rfl

theorem error_bind {α β : Type} (e : Fault) (f : α → Exec β) :
    ((Except.error e : Exec α) >>= f) = .error e := rfl

theorem bind_ok {α β : Type} {x : Exec α} {f : α → Exec β} {b : β} (h : (x >>= f) = .ok b) :
    ∃ a, x = .ok a ∧ f a = .ok b := by
  cases x with
  | error e => cases h
  | ok a => exact ⟨a, rfl, h⟩

theorem fst_of_ok {α β : Type} {p : α × β} {a : α} {b : β}
    (h : (Except.ok p : Exec (α × β)) = .ok (a, b)) : p.1 = a := by
  rw [Except.ok.inj h]

/-- The octets that may be read, by their address relative to the buffer. -/
abbrev Memory := Int → Option UInt8

namespace Memory

def read (mem : Memory) (pos : Int) : Exec UInt8 :=
  match mem pos with
  | some b => .ok b
  | none => .error .outOfBounds

def readOctets (mem : Memory) (pos : Int) : Nat → Exec (List UInt8)
  | 0 => .ok []
  | n + 1 => do
    let b ← mem.read pos
    return b :: (← readOctets mem (pos + 1) n)

/-- A buffer that holds these octets and nothing else. -/
def ofList (bs : List UInt8) : Memory := fun pos => if 0 ≤ pos then bs[pos.toNat]? else none

theorem ofList_natCast (bs : List UInt8) (n : Nat) : ofList bs n = bs[n]? := by
  simp [ofList]

theorem read_ofList_append (bs cs : List UInt8) (c : UInt8) :
    (ofList (bs ++ c :: cs)).read bs.length = .ok c := by
  simp [read, ofList_natCast]

theorem readOctets_ofList_append (bs cs ds : List UInt8) :
    (ofList (bs ++ cs ++ ds)).readOctets bs.length cs.length = .ok cs := by
  induction cs generalizing bs with
  | nil => rfl
  | cons c cs ih =>
    have hread := read_ofList_append bs (cs ++ ds) c
    have htail := ih (bs ++ [c])
    rw [List.append_assoc bs, List.cons_append, List.length_cons, readOctets, hread]
    simp only [List.append_assoc, List.cons_append, List.nil_append, List.length_append,
      List.length_singleton, Nat.cast_add, Nat.cast_one] at htail
    simp only [bind, Except.bind, htail, pure, Except.pure]

theorem read_ok_iff (mem : Memory) (pos : Int) (b : UInt8) :
    mem.read pos = .ok b ↔ mem pos = some b := by
  unfold read
  cases mem pos <;> simp

/-- What is left of a message at a position. -/
def Left (message rest : List UInt8) (pos : Int) : Prop :=
  ∃ first, message = first ++ rest ∧ pos = first.length

section Left

variable {message rest : List UInt8} {pos : Int}

theorem Left.start (message : List UInt8) : Left message message 0 := ⟨[], rfl, rfl⟩

theorem Left.advance {bs : List UInt8} (h : Left message (bs ++ rest) pos) :
    Left message rest (pos + bs.length) := by
  obtain ⟨first, rfl, rfl⟩ := h
  exact ⟨first ++ bs, by simp, by simp⟩

theorem Left.next {b : UInt8} (h : Left message (b :: rest) pos) : Left message rest (pos + 1) := by
  have hone : Left message ([b] ++ rest) pos := h
  exact hone.advance

theorem Left.length (h : Left message rest pos) : pos + rest.length = message.length := by
  obtain ⟨first, rfl, rfl⟩ := h
  simp

theorem Left.pos_nonneg (h : Left message rest pos) : 0 ≤ pos := by
  obtain ⟨first, rfl, rfl⟩ := h
  exact Int.natCast_nonneg _

theorem Left.length_le (h : Left message rest pos) : rest.length ≤ message.length := by
  obtain ⟨first, rfl, rfl⟩ := h
  simp

theorem Left.end_le {bs : List UInt8} (h : Left message (bs ++ rest) pos) :
    pos + bs.length ≤ message.length := by
  rw [← h.advance.length]
  exact le_add_of_nonneg_right (Int.natCast_nonneg _)

theorem Left.read {b : UInt8} (h : Left message (b :: rest) pos) :
    (ofList message).read pos = .ok b := by
  obtain ⟨first, rfl, rfl⟩ := h
  exact read_ofList_append first rest b

theorem Left.readOctets {bs : List UInt8} (h : Left message (bs ++ rest) pos) :
    (ofList message).readOctets pos bs.length = .ok bs := by
  obtain ⟨first, rfl, rfl⟩ := h
  rw [← List.append_assoc]
  exact readOctets_ofList_append first bs rest

end Left

end Memory

/-- Signed 32 bit arithmetic wraps around. -/
def i32 (x : Int) : Int := x.bmod 4294967296

theorem i32_of_range {x : Int} (lo : -2147483648 ≤ x) (hi : x < 2147483648) : i32 x = x := by
  unfold i32
  rw [Int.bmod_def]
  omega

theorem i32_range (x : Int) : -2147483648 ≤ i32 x ∧ i32 x < 2147483648 := by
  unfold i32
  rw [Int.bmod_def]
  omega

end Machine
