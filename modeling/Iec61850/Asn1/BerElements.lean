import Iec61850.Asn1.BerDecoder
import Iec61850.Lib.Fuel

/-! The loop that the parsers of the upper layers share: a tag, a length, and what the parser does
with an element of this tag. -/

namespace Iec61850

open Machine

/-- Part of a buffer, by its position and its size. -/
structure Region where
  start : Int
  size : Int
  deriving DecidableEq

/-- The buffer seen from the start of a part. -/
def Region.memory (region : Region) (buffer : Memory) : Memory :=
  fun pos => buffer (region.start + pos)

namespace BerDecoder

variable {σ : Type}

/-- What a parser does behind tag and length: the position after the element, unless there is an
error, and its state in either case. -/
abbrev ElementParser (σ : Type) := UInt8 → Int → Int → σ → Exec (Option Int × σ)

/-- One turn. `uninitialised` is what the length holds when none is decoded, and `checked` says
whether the parser looks at the position then. -/
def parseElement (buffer : Memory) (uninitialised maxBufPos : Int) (checked : Bool)
    (element : ElementParser σ) (bufPos : Int) (state : σ) : Exec (Option Int × σ) := do
  let tag ← buffer.read bufPos
  let (bufPos, len) ← decodeLength buffer uninitialised (bufPos + 1) maxBufPos
  if checked ∧ bufPos < 0 then return (none, state)
  element tag len bufPos state

def parseElements (buffer : Memory) (uninitialised maxBufPos : Int) (checked : Bool)
    (element : ElementParser σ) : Nat → Int → σ → Exec (Option Int × σ)
  | 0, _, _ => .error .outOfFuel
  | fuel + 1, bufPos, state =>
    if maxBufPos ≤ bufPos then return (some bufPos, state)
    else do
      let (next, state) ← parseElement buffer uninitialised maxBufPos checked element bufPos state
      match next with
      | none => return (none, state)
      | some bufPos => parseElements buffer uninitialised maxBufPos checked element fuel bufPos state

/-- Where nothing is done with an element but to go behind it. -/
def skip (len bufPos : Int) (state : σ) : Exec (Option Int × σ) :=
  return (some (i32 (bufPos + len)), state)

/-- The check of a position that is negative on errors. -/
def rejectNegative (r : Option Int × σ) : Option Int × σ :=
  (if r.1.getD (-1) < 0 then none else r.1, r.2)

variable {buffer : Memory} {uninitialised maxBufPos bufPos : Int} {checked : Bool}
  {element : ElementParser σ} {state : σ} {result : Option Int × σ} {fuel : Nat}

theorem parseElement_ok
    (h : parseElement buffer uninitialised maxBufPos checked element bufPos state = .ok result) :
    result = (none, state) ∨ ∃ tag len bufPos, element tag len bufPos state = .ok result := by
  obtain ⟨tag, _, h⟩ := bind_ok h
  obtain ⟨⟨bufPos', len⟩, _, h⟩ := bind_ok h
  dsimp only at h
  split at h
  · cases h
    exact Or.inl rfl
  · exact Or.inr ⟨tag, len, bufPos', h⟩

/-- What every element keeps, the loop keeps. -/
theorem parseElements_invariant {I : σ → Prop}
    (hstep : ∀ tag len bufPos state result, I state →
      element tag len bufPos state = .ok result → I result.2)
    (h : parseElements buffer uninitialised maxBufPos checked element fuel bufPos state =
      .ok result) (hI : I state) : I result.2 := by
  induction fuel generalizing bufPos state with
  | zero => cases h
  | succ fuel ih =>
    rw [parseElements] at h
    split at h
    · cases h
      exact hI
    · obtain ⟨⟨next, state'⟩, hel, h⟩ := bind_ok h
      have hI' : I state' := by
        rcases parseElement_ok hel with heq | ⟨tag, len, pos, hel⟩
        · cases heq
          exact hI
        · exact hstep tag len pos state _ hI hel
      cases next with
      | none =>
        cases h
        exact hI'
      | some bufPos' => exact ih h hI'

theorem parseElement_mono {element : Nat → ElementParser σ}
    (hel : ∀ tag len bufPos state, FuelMonotone fun fuel => element fuel tag len bufPos state) :
    FuelMonotone fun fuel =>
      parseElement buffer uninitialised maxBufPos checked (element fuel) bufPos state := by
  apply FuelMonotone.bind (FuelMonotone.const _)
  intro tag
  apply FuelMonotone.bind (FuelMonotone.const _)
  intro pair
  exact FuelMonotone.ite (FuelMonotone.const _) (hel tag pair.2 pair.1 state)

theorem parseElements_mono {element : Nat → ElementParser σ}
    (hel : ∀ tag len bufPos state, FuelMonotone fun fuel => element fuel tag len bufPos state)
    (bufPos : Int) (state : σ) :
    FuelMonotone fun fuel =>
      parseElements buffer uninitialised maxBufPos checked (element fuel) fuel bufPos state := by
  intro m n result hmn h
  have hloop (k k' : Nat) (hk : k ≤ k') (bufPos : Int) (state : σ)
      (h : parseElements buffer uninitialised maxBufPos checked (element m) k bufPos state =
        .ok result) :
      parseElements buffer uninitialised maxBufPos checked (element n) k' bufPos state =
        .ok result := by
    induction k generalizing k' bufPos state with
    | zero => cases h
    | succ k ih =>
      obtain ⟨k', rfl⟩ : ∃ l, k' = l + 1 := ⟨k' - 1, by omega⟩
      rw [parseElements] at h ⊢
      by_cases hend : maxBufPos ≤ bufPos
      · rw [if_pos hend] at h ⊢
        exact h
      · rw [if_neg hend] at h ⊢
        obtain ⟨⟨next, state'⟩, hone, h⟩ := bind_ok h
        have hone' : parseElement buffer uninitialised maxBufPos checked (element n) bufPos state =
            .ok (next, state') := parseElement_mono hel hmn hone
        rw [hone', ok_bind]
        cases next with
        | none => exact h
        | some bufPos' => exact ih k' (Nat.le_of_succ_le_succ hk) bufPos' state' h
  exact hloop m n hmn bufPos state h

/-- The same for elements that need no fuel themselves. -/
theorem parseElements_mono_leaf (element : ElementParser σ) (bufPos : Int) (state : σ) :
    FuelMonotone fun fuel =>
      parseElements buffer uninitialised maxBufPos checked element fuel bufPos state :=
  @parseElements_mono σ buffer uninitialised maxBufPos checked (fun _ => element)
    (fun _ _ _ _ => FuelMonotone.const _) bufPos state

end BerDecoder

end Iec61850
