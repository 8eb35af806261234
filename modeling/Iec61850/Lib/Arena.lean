import Mathlib.Data.List.Basic
import Mathlib.Tactic.Linarith

/-! Records of several sizes in one stretch of `size` places, allocated one behind
the other and from the beginning again when the end is reached. Room is made by
dropping the oldest records. -/

namespace Arena

class Placed (α : Type) where
  pos : α → Nat
  len : α → Nat

variable {α : Type} [Placed α]

open Placed

/-- Records from `a` to `b` without a gap. -/
def Run : Nat → List α → Nat → Prop
  | a, [], b => a = b
  | a, x :: xs, b => pos x = a ∧ 0 < len x ∧ Run (a + len x) xs b

/-- The older records, and behind them the ones that start again at the beginning. -/
structure Parts (size : Nat) (hi lo : List α) (a b c : Nat) : Prop where
  upper : Run a hi b
  upper_ne : hi ≠ []
  upper_le : b ≤ size
  lower : Run 0 lo c
  lower_le : c ≤ a

/-- The oldest record first. -/
def Ring (size : Nat) (xs : List α) : Prop :=
  xs = [] ∨ ∃ hi lo a b c, xs = hi ++ lo ∧ Parts size hi lo a b c

def Apart (x y : α) : Prop := pos x + len x ≤ pos y ∨ pos y + len y ≤ pos x

/-- Where a record of `n` places goes, and the records that stay. -/
def place (size n : Nat) (xs : List α) : List α × Nat :=
  match xs.head?, xs.getLast? with
  | some first, some last =>
    let next := pos last + len last
    if next + n ≤ size then
      if pos last < pos first then
        (xs.dropWhile fun x => pos x < next + n ∧ pos x ≠ 0, next)
      else (xs, next)
    else if pos last = pos first then ([], 0)
    else if pos last < pos first then
      ((xs.dropWhile fun x => 0 < pos x).dropWhile fun x => pos x < n, 0)
    else (xs.dropWhile fun x => pos x < n, 0)
  | _, _ => ([], 0)

theorem Run.append {xs ys : List α} {a b c : Nat} (h : Run a xs b) (h' : Run b ys c) :
    Run a (xs ++ ys) c := by
  induction xs generalizing a with
  | nil =>
    obtain rfl := h
    exact h'
  | cons x xs ih => exact ⟨h.1, h.2.1, ih h.2.2⟩

theorem Run.split {xs ys : List α} {a c : Nat} (h : Run a (xs ++ ys) c) :
    ∃ b, Run a xs b ∧ Run b ys c := by
  induction xs generalizing a with
  | nil => exact ⟨a, rfl, h⟩
  | cons x xs ih =>
    obtain ⟨b, hb, hc⟩ := ih h.2.2
    exact ⟨b, ⟨h.1, h.2.1, hb⟩, hc⟩

theorem Run.bounds {xs : List α} {a b : Nat} (h : Run a xs b) :
    a ≤ b ∧ ∀ x ∈ xs, a ≤ pos x ∧ pos x + len x ≤ b ∧ 0 < len x := by
  induction xs generalizing a with
  | nil => exact ⟨h.le, by simp⟩
  | cons x xs ih =>
    obtain ⟨hx, hpos, hrest⟩ := h
    obtain ⟨hle, hall⟩ := ih hrest
    refine ⟨by omega, ?_⟩
    intro y hy
    rcases List.mem_cons.mp hy with rfl | hy
    · exact ⟨hx.ge, by omega, hpos⟩
    · have := hall y hy
      exact ⟨by omega, this.2⟩

theorem Run.apart {xs : List α} {a b : Nat} (h : Run a xs b) : xs.Pairwise Apart := by
  induction xs generalizing a with
  | nil => exact .nil
  | cons x xs ih =>
    obtain ⟨hx, -, hrest⟩ := h
    refine .cons ?_ (ih hrest)
    intro y hy
    have := hrest.bounds.2 y hy
    exact .inl (by omega)

theorem Run.getLast {xs : List α} {a b : Nat} (h : Run a xs b) {x : α}
    (hx : xs.getLast? = some x) : pos x + len x = b := by
  induction xs generalizing a with
  | nil => simp at hx
  | cons y ys ih =>
    cases ys with
    | nil =>
      obtain ⟨hy, -, rfl⟩ := h
      simp only [List.getLast?_singleton, Option.some.injEq] at hx
      rw [← hx, hy]
    | cons z zs => exact ih h.2.2 (by simpa using hx)

theorem Run.single {x : α} {a n : Nat} (hx : pos x = a) (hn : len x = n) (h : 0 < n) :
    Run a [x] (a + n) :=
  ⟨hx, by omega, by rw [hn]; rfl⟩

/-- What dropping from the front of a run leaves behind. -/
theorem Run.dropWhile {xs : List α} {a b : Nat} (h : Run a xs b) (p : α → Bool) :
    xs.dropWhile p = [] ∨ ∃ y ys, xs.dropWhile p = y :: ys ∧ Run (pos y) (y :: ys) b ∧
      a ≤ pos y ∧ p y = false := by
  induction xs generalizing a with
  | nil => exact .inl rfl
  | cons x xs ih =>
    cases hp : p x with
    | true =>
      rw [List.dropWhile_cons_of_pos hp]
      rcases ih h.2.2 with he | ⟨y, ys, he, hr, ha, hy⟩
      · exact .inl he
      · exact .inr ⟨y, ys, he, hr, by omega, hy⟩
    | false =>
      rw [List.dropWhile_cons_of_neg (by simp [hp])]
      exact .inr ⟨x, xs, rfl, h.1 ▸ h, h.1.ge, hp⟩

theorem Parts.bounds {size : Nat} {hi lo : List α} {a b c : Nat} (h : Parts size hi lo a b c) :
    ∀ x ∈ hi ++ lo, pos x + len x ≤ size ∧ 0 < len x := by
  have hhi := h.upper.bounds
  have hlo := h.lower.bounds
  have hsize := h.upper_le
  have hc := h.lower_le
  intro x hx
  rcases List.mem_append.mp hx with hx | hx
  · have := hhi.2 x hx
    omega
  · have := hlo.2 x hx
    omega

theorem Parts.apart {size : Nat} {hi lo : List α} {a b c : Nat} (h : Parts size hi lo a b c) :
    (hi ++ lo).Pairwise Apart := by
  have hc := h.lower_le
  refine List.pairwise_append.mpr ⟨h.upper.apart, h.lower.apart, ?_⟩
  intro x hx y hy
  have := h.upper.bounds.2 x hx
  have := h.lower.bounds.2 y hy
  exact .inr (by omega)

theorem Ring.bounds {size : Nat} {xs : List α} (h : Ring size xs) :
    ∀ x ∈ xs, pos x + len x ≤ size ∧ 0 < len x := by
  rcases h with rfl | ⟨hi, lo, a, b, c, rfl, h⟩
  · simp
  · exact h.bounds

theorem Ring.apart {size : Nat} {xs : List α} (h : Ring size xs) : xs.Pairwise Apart := by
  rcases h with rfl | ⟨hi, lo, a, b, c, rfl, h⟩
  · exact .nil
  · exact h.apart

theorem Ring.nodup {size : Nat} {xs : List α} (h : Ring size xs) : (xs.map pos).Nodup := by
  refine List.pairwise_map.mpr (h.apart.imp_of_mem ?_)
  intro x y hx hy hxy
  have hlx := (h.bounds x hx).2
  have hly := (h.bounds y hy).2
  rcases hxy with hxy | hxy <;> omega

/-- One run alone. -/
theorem Ring.of_run {size a b : Nat} {xs : List α} (h : Run a xs b) (hle : b ≤ size) :
    Ring size xs := by
  cases xs with
  | nil => exact .inl rfl
  | cons x xs =>
    exact .inr ⟨x :: xs, [], a, b, 0, by simp, ⟨h, by simp, hle, rfl, Nat.zero_le a⟩⟩

/-- A new record behind the lower part. -/
theorem Ring.of_parts {size a b c : Nat} {hi lo : List α} (hhi : Run a hi b) (hle : b ≤ size)
    (hlo : Run 0 lo c) (hc : c ≤ a) (hc' : c ≤ size) : Ring size (hi ++ lo) := by
  cases hi with
  | nil => exact .of_run hlo hc'
  | cons x xs => exact .inr ⟨x :: xs, lo, a, b, c, rfl, ⟨hhi, by simp, hle, hlo, hc⟩⟩

/-- What is left of a run that must give way to a new record at its beginning. -/
theorem Run.give_way {size n a b : Nat} {xs : List α} (h : Run a xs b) (hb : b ≤ size)
    (hn : 0 < n) (hle : n ≤ size) {x : α} (hx : pos x = 0) (hl : len x = n) :
    Ring size ((xs.dropWhile fun y => pos y < n) ++ [x]) := by
  have hnew : Run 0 [x] n := by simpa using Run.single hx hl hn
  rcases h.dropWhile fun y => pos y < n with he | ⟨y, ys, he, hr, -, hy⟩
  · rw [he]
    exact .of_run hnew hle
  · rw [he]
    exact .of_parts hr hb hnew (by simpa using hy) hle

theorem dropWhile_upper {hi lo : List α} {a b : Nat} (h : Run a hi b) (ha : 0 < a)
    (hlo : ∀ y ∈ lo.head?, pos y = 0) : ((hi ++ lo).dropWhile fun y => 0 < pos y) = lo := by
  have hall : ∀ y ∈ hi, (decide (0 < pos y)) = true := by
    intro y hy
    have := h.bounds.2 y hy
    simp only [decide_eq_true_eq]
    omega
  rw [List.dropWhile_append_of_pos hall]
  cases lo with
  | nil => rfl
  | cons y ys =>
    rw [List.dropWhile_cons_of_neg]
    simp [hlo y rfl]

variable {size n : Nat} {x : α}

/-- The lower part has room for the record once the upper part has given way. -/
theorem Parts.extend {hi lo : List α} {a b c : Nat} (h : Parts size hi lo a b c) (hlo : lo ≠ [])
    (hn : 0 < n) (hle : c + n ≤ size) (hx : pos x = c) (hl : len x = n) :
    Ring size (((hi ++ lo).dropWhile fun y => pos y < c + n ∧ pos y ≠ 0) ++ [x]) := by
  have hnew : Run 0 (lo ++ [x]) (c + n) := h.lower.append (.single hx hl hn)
  have hstop : (lo.dropWhile fun y => pos y < c + n ∧ pos y ≠ 0) = lo := by
    obtain ⟨y, ys, rfl⟩ := List.exists_cons_of_ne_nil hlo
    rw [List.dropWhile_cons_of_neg]
    simp [h.lower.1]
  rw [List.dropWhile_append]
  rcases h.upper.dropWhile fun y => pos y < c + n ∧ pos y ≠ 0 with he | ⟨y, ys, he, hr, ha, hy⟩
  · rw [he, hstop]
    exact .of_run hnew hle
  · rw [he]
    have hc : 0 < c := by
      obtain ⟨z, zs, rfl⟩ := List.exists_cons_of_ne_nil hlo
      have := h.lower.2.1
      have := h.lower.2.2.bounds.1
      omega
    have hca := h.lower_le
    have hy' : c + n ≤ pos y := by
      simp only [decide_eq_false_iff_not, not_and_or, not_lt, not_not] at hy
      omega
    rw [if_neg (by simp), List.append_assoc]
    exact .of_parts hr h.upper_le hnew hy' hle

theorem Run.last_le {xs : List α} {a b : Nat} (h : Run a xs b) {first last : α}
    (hf : xs.head? = some first) (hl : xs.getLast? = some last) :
    pos first = a ∧ pos first ≤ pos last ∧ pos last + len last = b := by
  have hmem := List.mem_of_getLast? hl
  refine ⟨?_, ?_, h.getLast hl⟩
  · cases xs with
    | nil => simp at hf
    | cons y ys =>
      obtain rfl := Option.some.inj hf
      exact h.1
  · cases xs with
    | nil => simp at hf
    | cons y ys =>
      obtain rfl := Option.some.inj hf
      rw [h.1]
      exact (h.bounds.2 last hmem).1

theorem place_of_run {xs : List α} {a b : Nat} (h : Run a xs b) (hb : b ≤ size) (hn : 0 < n)
    (hle : n ≤ size) (hx : pos x = (place size n xs).2) (hl : len x = n) :
    Ring size ((place size n xs).1 ++ [x]) ∧ (place size n xs).1 <:+ xs := by
  unfold place at hx ⊢
  split at hx
  case h_1 first last hfirst hlast =>
    obtain ⟨-, horder, hend⟩ := h.last_le hfirst hlast
    simp only [hend, if_neg (show ¬ pos last < pos first by omega)] at hx ⊢
    split at hx
    case isTrue hfit =>
      rw [if_pos hfit]
      exact ⟨.of_run (h.append (.single hx hl hn)) hfit, List.suffix_refl _⟩
    case isFalse hfit =>
      rw [if_neg hfit]
      split at hx
      case isTrue heq =>
        rw [if_pos heq]
        exact ⟨.of_run (Run.single hx hl hn) (by omega), List.nil_suffix⟩
      case isFalse hne =>
        rw [if_neg hne]
        exact ⟨h.give_way hb hn hle hx hl, List.dropWhile_suffix _⟩
  case h_2 => exact ⟨.of_run (Run.single hx hl hn) (by omega), List.nil_suffix⟩

theorem place_of_parts {hi lo : List α} {a b c : Nat} (h : Parts size hi lo a b c)
    (hne : lo ≠ []) (hn : 0 < n) (hle : n ≤ size) (hx : pos x = (place size n (hi ++ lo)).2)
    (hl : len x = n) :
    Ring size ((place size n (hi ++ lo)).1 ++ [x]) ∧ (place size n (hi ++ lo)).1 <:+ hi ++ lo := by
  obtain ⟨first, hfirst⟩ : ∃ y, hi.head? = some y :=
    ⟨_, List.head?_eq_some_head h.upper_ne⟩
  obtain ⟨last, hlast⟩ : ∃ y, lo.getLast? = some y :=
    ⟨_, List.getLast?_eq_some_getLast hne⟩
  have hhead : (hi ++ lo).head? = some first := by rw [List.head?_append, hfirst]; rfl
  have hend : (hi ++ lo).getLast? = some last := by rw [List.getLast?_append, hlast]; rfl
  have ha : pos first = a := by
    obtain ⟨y, ys, rfl⟩ := List.exists_cons_of_ne_nil h.upper_ne
    obtain rfl := Option.some.inj hfirst
    exact h.upper.1
  have hc := h.lower.getLast hlast
  have hlen := h.bounds last (List.mem_append_right _ (List.mem_of_getLast? hlast))
  have hca := h.lower_le
  have hbefore : pos last < pos first := by omega
  simp only [place, hhead, hend, hc, if_pos hbefore, if_neg hbefore.ne] at hx ⊢
  split at hx
  case isTrue hfit =>
    rw [if_pos hfit]
    exact ⟨h.extend hne hn hfit hx hl, List.dropWhile_suffix _⟩
  case isFalse hfit =>
    have hzero : ∀ y ∈ lo.head?, pos y = 0 := by
      intro y hy
      obtain ⟨z, zs, rfl⟩ := List.exists_cons_of_ne_nil hne
      obtain rfl := Option.some.inj hy
      exact h.lower.1
    have hsize := h.upper.bounds.1
    rw [if_neg hfit, dropWhile_upper h.upper (by omega) hzero]
    refine ⟨h.lower.give_way (by have := h.upper_le; omega) hn hle hx hl, ?_⟩
    exact (List.dropWhile_suffix _).trans (List.suffix_append hi lo)

/-- The new record and the ones that stay are a ring again. -/
theorem Ring.place {xs : List α} (h : Ring size xs) (hn : 0 < n) (hle : n ≤ size)
    (hx : pos x = (place size n xs).2) (hl : len x = n) :
    Ring size ((Arena.place size n xs).1 ++ [x]) ∧ (Arena.place size n xs).1 <:+ xs := by
  rcases h with rfl | ⟨hi, lo, a, b, c, rfl, h⟩
  · exact place_of_run (a := 0) rfl (Nat.zero_le size) hn hle hx hl
  · by_cases hne : lo = []
    · subst hne
      rw [List.append_nil] at hx ⊢
      exact place_of_run h.upper h.upper_le hn hle hx hl
    · exact place_of_parts h hne hn hle hx hl

end Arena
