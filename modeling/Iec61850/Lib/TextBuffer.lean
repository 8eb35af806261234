import Iec61850.Lib.Memory

/-! Text in a buffer of characters, as the functions of C leave it there. A buffer is what there
is from its address on; a character behind its end is a fault. -/

namespace TextBuffer

open Machine

/-- Characters are written one after the other. -/
def putChars (buffer : List UInt8) (pos : Nat) : List UInt8 → Exec (List UInt8)
  | [] => .ok buffer
  | c :: cs =>
    if pos < buffer.length then putChars (buffer.set pos c) (pos + 1) cs else .error .outOfBounds

/-- What there is room for is filled up with zeros. -/
def strncpy (buffer src : List UInt8) (n : Nat) : Exec (List UInt8) :=
  putChars buffer 0 (src.take n ++ List.replicate (n - src.length) 0)

/-- Nothing is written where there is no room at all. -/
def snprintf (buffer : List UInt8) (pos n : Nat) (text : List UInt8) : Exec (List UInt8) :=
  if n = 0 then .ok buffer else putChars buffer pos (text.take (n - 1) ++ [0])

def strlen (buffer : List UInt8) : Exec Nat :=
  if 0 ∈ buffer then .ok (buffer.idxOf 0) else .error .outOfBounds

variable (front : List UInt8) {rest cs : List UInt8}

theorem putChars_append (h : cs.length ≤ rest.length) :
    putChars (front ++ rest) front.length cs = .ok (front ++ (cs ++ rest.drop cs.length)) := by
  induction cs generalizing front rest with
  | nil => rfl
  | cons c cs ih =>
    cases rest with
    | nil => cases h
    | cons r rest =>
      have hlt : front.length < (front ++ r :: rest).length := by simp
      have hset : (front ++ r :: rest).set front.length c = (front ++ [c]) ++ rest := by simp
      have hnext := ih (front ++ [c]) (Nat.le_of_succ_le_succ h)
      rw [List.length_append, List.length_singleton] at hnext
      rw [putChars, if_pos hlt, hset, hnext, List.append_assoc]
      rfl

theorem putChars_outOfBounds (h : rest.length < cs.length) :
    putChars (front ++ rest) front.length cs = .error .outOfBounds := by
  induction cs generalizing front rest with
  | nil => cases h
  | cons c cs ih =>
    cases rest with
    | nil =>
      rw [List.append_nil, putChars, if_neg (lt_irrefl _)]
    | cons r rest =>
      have hlt : front.length < (front ++ r :: rest).length := by simp
      have hset : (front ++ r :: rest).set front.length c = (front ++ [c]) ++ rest := by simp
      have hnext := ih (front ++ [c]) (Nat.lt_of_succ_lt_succ h)
      rw [List.length_append, List.length_singleton] at hnext
      rw [putChars, if_pos hlt, hset, hnext]

theorem putChars_text (h : cs.length < rest.length) :
    putChars rest 0 (cs ++ [0]) = .ok (cs ++ 0 :: rest.drop (cs.length + 1)) := by
  have hfits : (cs ++ [0]).length ≤ rest.length := by
    rw [List.length_append, List.length_singleton]
    exact h
  have hput := putChars_append [] hfits
  rw [List.length_append, List.length_singleton, List.append_assoc] at hput
  exact hput

theorem putChars_text_outOfBounds (h : rest.length ≤ cs.length) :
    putChars rest 0 (cs ++ [0]) = .error .outOfBounds := by
  have hlong : rest.length < (cs ++ [0]).length := by
    rw [List.length_append, List.length_singleton]
    exact Nat.lt_succ_of_le h
  exact putChars_outOfBounds [] hlong

theorem strncpy_fits (h : cs.length < rest.length) : strncpy rest cs rest.length =
    .ok (cs ++ 0 :: List.replicate (rest.length - (cs.length + 1)) 0) := by
  have hzeros : List.replicate (rest.length - cs.length) (0 : UInt8) =
      0 :: List.replicate (rest.length - (cs.length + 1)) 0 := by
    rw [← List.replicate_succ]
    congr 1
    omega
  have hlength : (cs ++ List.replicate (rest.length - cs.length) (0 : UInt8)).length =
      rest.length := by
    rw [List.length_append, List.length_replicate]
    omega
  have hput := putChars_append [] hlength.le
  rw [hlength, List.drop_length, List.append_nil] at hput
  rw [strncpy, List.take_of_length_le h.le]
  rw [hzeros] at hput ⊢
  exact hput

theorem strncpy_full (h : rest.length ≤ cs.length) :
    strncpy rest cs rest.length = .ok (cs.take rest.length) := by
  have hlength : (cs.take rest.length).length = rest.length := List.length_take_of_le h
  have hput := putChars_append [] hlength.le
  rw [hlength, List.drop_length, List.append_nil] at hput
  rw [strncpy, Nat.sub_eq_zero_of_le h, List.replicate_zero, List.append_nil]
  exact hput

/-- What is left of a text at the end of the buffer. -/
def cut (text rest : List UInt8) : List UInt8 :=
  text.take (rest.length - 1) ++ 0 :: rest.drop ((text.take (rest.length - 1)).length + 1)

theorem cut_fits (h : cs.length < rest.length) :
    cut cs rest = cs ++ 0 :: rest.drop (cs.length + 1) := by
  have htake : cs.take (rest.length - 1) = cs := List.take_of_length_le (Nat.le_sub_one_of_lt h)
  unfold cut
  rw [htake]

theorem cut_truncated (h : rest.length ≤ cs.length) (hrest : rest ≠ []) :
    cut cs rest = cs.take (rest.length - 1) ++ [0] := by
  have hpos := List.length_pos_iff.mpr hrest
  have hlength : (cs.take (rest.length - 1)).length = rest.length - 1 :=
    List.length_take_of_le ((Nat.sub_le _ _).trans h)
  unfold cut
  rw [hlength, Nat.sub_add_cancel hpos, List.drop_length]

theorem snprintf_append (hrest : rest ≠ []) :
    snprintf (front ++ rest) front.length rest.length cs = .ok (front ++ cut cs rest) := by
  have hpos := List.length_pos_iff.mpr hrest
  have hfits : (cs.take (rest.length - 1) ++ [0]).length ≤ rest.length := by
    rw [List.length_append, List.length_singleton, List.length_take]
    omega
  rw [snprintf, if_neg hpos.ne', putChars_append front hfits, List.length_append,
    List.length_singleton, List.append_assoc]
  rfl

theorem strlen_text (h : 0 ∉ cs) (rest : List UInt8) :
    strlen (cs ++ 0 :: rest) = .ok cs.length := by
  have hmem : (0 : UInt8) ∈ cs ++ 0 :: rest := by simp
  rw [strlen, if_pos hmem, List.idxOf_append_of_notMem h, List.idxOf_cons_self, Nat.add_zero]

theorem strlen_outOfBounds (h : 0 ∉ cs) : strlen cs = .error .outOfBounds := if_neg h

end TextBuffer
