import Mathlib.Algebra.Order.Group.Nat
import Mathlib.Tactic.Ring

/-! Numbers in groups of seven bits, the highest group first. Every octet but the last one has its
highest bit set. -/

namespace Base128

/-- The groups in front of the last one. -/
def continued (n : Nat) : List UInt8 :=
  if n = 0 then [] else continued (n / 128) ++ [UInt8.ofNat (n % 128 + 128)]
termination_by n
decreasing_by exact Nat.div_lt_self (Nat.pos_of_ne_zero ‹_›) (by decide)

/-- The shortest octets for a number. -/
def octets (n : Nat) : List UInt8 := continued (n / 128) ++ [UInt8.ofNat (n % 128)]

def groupCount (n : Nat) : Nat := if n = 0 then 0 else groupCount (n / 128) + 1
termination_by n
decreasing_by exact Nat.div_lt_self (Nat.pos_of_ne_zero ‹_›) (by decide)

/-- The lowest groups, each of them continued. -/
def lowGroups (n : Nat) : Nat → List UInt8
  | 0 => []
  | count + 1 => UInt8.ofNat (n / 128 ^ count % 128 + 128) :: lowGroups n count

@[simp] theorem groupCount_zero : groupCount 0 = 0 := by
  rw [groupCount, if_pos rfl]

theorem groupCount_of_pos {n : Nat} (h : 0 < n) : groupCount n = groupCount (n / 128) + 1 := by
  rw [groupCount, if_neg h.ne']

theorem groupCount_eq_zero_iff {n : Nat} : groupCount n = 0 ↔ n = 0 := by
  constructor
  · intro h
    by_contra hn
    rw [groupCount_of_pos (Nat.pos_of_ne_zero hn)] at h
    cases h
  · rintro rfl
    exact groupCount_zero

theorem lowGroups_succ (n count : Nat) :
    lowGroups n (count + 1) = lowGroups (n / 128) count ++ [UInt8.ofNat (n % 128 + 128)] := by
  induction count with
  | zero =>
    have hone : n / 128 ^ 0 = n := by rw [pow_zero, Nat.div_one]
    change [UInt8.ofNat (n / 128 ^ 0 % 128 + 128)] = [UInt8.ofNat (n % 128 + 128)]
    rw [hone]
  | succ count ih =>
    have hshift : n / 128 ^ (count + 1) = n / 128 / 128 ^ count := by
      rw [Nat.div_div_eq_div_mul, pow_succ, Nat.mul_comm]
    rw [lowGroups, ih, hshift]
    rfl

theorem continued_eq (n : Nat) : continued n = lowGroups n (groupCount n) := by
  induction n using Nat.strongRecOn with
  | ind n ih =>
    rw [continued]
    split
    case isTrue h =>
      subst h
      rw [groupCount_zero]
      rfl
    case isFalse h =>
      have hpos := Nat.pos_of_ne_zero h
      rw [ih _ (Nat.div_lt_self hpos (by decide)), groupCount_of_pos hpos, lowGroups_succ]

theorem length_lowGroups (n count : Nat) : (lowGroups n count).length = count := by
  induction count with
  | zero => rfl
  | succ count ih => rw [lowGroups, List.length_cons, ih]

theorem length_octets (n : Nat) : (octets n).length = groupCount (n / 128) + 1 := by
  rw [octets, List.length_append, continued_eq, length_lowGroups]
  rfl

theorem octets_of_lt {n : Nat} (h : n < 128) : octets n = [UInt8.ofNat n] := by
  rw [octets, Nat.div_eq_of_lt h, Nat.mod_eq_of_lt h, continued_eq, groupCount_zero]
  rfl

theorem length_octets_eq_one_iff {n : Nat} : (octets n).length = 1 ↔ n < 128 := by
  rw [length_octets, Nat.succ_inj, groupCount_eq_zero_iff, Nat.div_eq_zero_iff]
  exact or_iff_right (by decide)

end Base128
