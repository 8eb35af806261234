import Mathlib.Tactic.Ring
import Mathlib.Tactic.Linarith
import Mathlib.Tactic.Positivity

/-! Big-endian octet strings as unsigned and as two's complement numbers, and
the octet strings that are the shortest of their two's complement value. -/

namespace Octets

/-- The unsigned number an octet string denotes, most significant octet first. -/
def value : List UInt8 → Nat
  | [] => 0
  | b :: bs => b.toNat * 256 ^ bs.length + value bs

/-- The `w` low octets of `n`, most significant first. -/
def ofNat : Nat → Nat → List UInt8
  | 0, _ => []
  | w + 1, n => UInt8.ofNat (n / 256 ^ w) :: ofNat w n

/-- The two's complement number an octet string denotes. -/
def signed : List UInt8 → Int
  | [] => 0
  | b :: bs => value (b :: bs) - if 0x80 ≤ b.toNat then (256 : Int) ^ (bs.length + 1) else 0

@[simp] theorem value_nil : value [] = 0 := rfl

theorem value_cons (b : UInt8) (bs : List UInt8) :
    value (b :: bs) = b.toNat * 256 ^ bs.length + value bs := rfl

@[simp] theorem value_singleton (b : UInt8) : value [b] = b.toNat := by simp [value]

@[simp] theorem length_ofNat (w n : Nat) : (ofNat w n).length = w := by
  induction w with
  | zero => rfl
  | succ w ih => simp [ofNat, ih]

theorem value_lt (bs : List UInt8) : value bs < 256 ^ bs.length := by
  induction bs with
  | nil => simp [value]
  | cons b bs ih =>
    have hb : b.toNat < 256 := b.toNat_lt
    calc
      value (b :: bs) < b.toNat * 256 ^ bs.length + 256 ^ bs.length := by
        rw [value_cons]
        exact Nat.add_lt_add_left ih _
      _ = (b.toNat + 1) * 256 ^ bs.length := by ring
      _ ≤ 256 * 256 ^ bs.length := Nat.mul_le_mul_right _ hb
      _ = 256 ^ (b :: bs).length := by rw [List.length_cons, pow_succ]; ring

theorem value_ofNat (w n : Nat) : value (ofNat w n) = n % 256 ^ w := by
  induction w with
  | zero => simp [ofNat, Nat.mod_one]
  | succ w ih =>
    have hb : (UInt8.ofNat (n / 256 ^ w)).toNat = n / 256 ^ w % 256 := UInt8.toNat_ofNat'
    rw [ofNat, value_cons, hb, length_ofNat, ih, pow_succ, Nat.mod_mul]
    ring

theorem value_ofNat_of_lt {w n : Nat} (h : n < 256 ^ w) : value (ofNat w n) = n := by
  rw [value_ofNat, Nat.mod_eq_of_lt h]

@[simp] theorem ofNat_value (bs : List UInt8) : ofNat bs.length (value bs) = bs := by
  suffices h : ∀ k, ofNat bs.length (k * 256 ^ bs.length + value bs) = bs by
    simpa using h 0
  induction bs with
  | nil => intro k; rfl
  | cons b bs ih =>
    intro k
    have hpos : 0 < 256 ^ bs.length := by positivity
    have split : k * 256 ^ (bs.length + 1) + value (b :: bs) =
        (k * 256 + b.toNat) * 256 ^ bs.length + value bs := by
      rw [value_cons, pow_succ]; ring
    rw [List.length_cons, split, ofNat, ih]
    congr 1
    rw [Nat.add_comm, Nat.add_mul_div_right _ _ hpos, Nat.div_eq_of_lt (value_lt bs)]
    apply UInt8.toNat.inj
    rw [UInt8.toNat_ofNat']
    have := b.toNat_lt
    omega

theorem value_injective {bs cs : List UInt8} (hlen : bs.length = cs.length)
    (h : value bs = value cs) : bs = cs := by
  rw [← ofNat_value bs, ← ofNat_value cs, hlen, h]

@[simp] theorem signed_nil : signed [] = 0 := rfl

theorem signed_of_clear {b : UInt8} (bs : List UInt8) (h : b.toNat < 0x80) :
    signed (b :: bs) = value (b :: bs) := by
  rw [signed, if_neg (by omega), sub_zero]

theorem signed_of_set {b : UInt8} (bs : List UInt8) (h : 0x80 ≤ b.toNat) :
    signed (b :: bs) = value (b :: bs) - (256 : Int) ^ (bs.length + 1) := by
  rw [signed, if_pos h]

/-- A nonempty octet string denotes a number of its own width. -/
theorem signed_bounds (b : UInt8) (bs : List UInt8) :
    -(128 * 256 ^ bs.length : Int) ≤ signed (b :: bs) ∧
      signed (b :: bs) < 128 * 256 ^ bs.length := by
  have hv : (value bs : Int) < 256 ^ bs.length := by exact_mod_cast value_lt bs
  have hb : (b.toNat : Int) < 256 := by exact_mod_cast b.toNat_lt
  have hp : (0 : Int) < 256 ^ bs.length := by positivity
  have hv0 : (0 : Int) ≤ value bs := by positivity
  have expand : (value (b :: bs) : Int) = b.toNat * 256 ^ bs.length + value bs := by
    rw [value_cons]; push_cast; ring
  by_cases h : 0x80 ≤ b.toNat
  · have hb' : (128 : Int) ≤ b.toNat := by exact_mod_cast h
    rw [signed_of_set bs h, expand, pow_succ]
    constructor <;> nlinarith
  · have hb' : (b.toNat : Int) ≤ 127 := by exact_mod_cast (by omega : b.toNat ≤ 127)
    rw [signed_of_clear bs (by omega), expand]
    constructor <;> nlinarith

theorem signed_ofNat {k n : Nat} (h : n < 256 ^ (k + 1)) :
    signed (ofNat (k + 1) n) = n - if 128 * 256 ^ k ≤ n then (256 : Int) ^ (k + 1) else 0 := by
  have hpos : 0 < 256 ^ k := by positivity
  have hlead : n / 256 ^ k < 256 := by
    rw [Nat.div_lt_iff_lt_mul hpos, ← pow_succ']
    exact h
  have htop : (UInt8.ofNat (n / 256 ^ k)).toNat = n / 256 ^ k :=
    UInt8.toNat_ofNat_of_lt' hlead
  have hiff : 128 ≤ n / 256 ^ k ↔ 128 * 256 ^ k ≤ n := Nat.le_div_iff_mul_le hpos
  have hvalue := value_ofNat_of_lt h
  rw [ofNat] at hvalue ⊢
  rw [signed, hvalue, htop, length_ofNat]
  simp only [hiff]

/-- The octets of a number are the two's complement number nearest to zero. -/
theorem signed_ofNat_bmod {k n : Nat} (h : n < 256 ^ (k + 1)) :
    signed (ofNat (k + 1) n) = (n : Int).bmod (256 ^ (k + 1)) := by
  have hhalf : ((256 ^ (k + 1) : Nat) : Int) = 2 * (128 * 256 ^ k) := by
    rw [pow_succ]; push_cast; ring
  have hmod : (n : Int) % ((256 ^ (k + 1) : Nat) : Int) = n :=
    Int.emod_eq_of_lt (by positivity) (by exact_mod_cast h)
  have hiff : 128 * 256 ^ k ≤ n ↔ (128 * 256 ^ k : Int) ≤ n := by exact_mod_cast Iff.rfl
  rw [signed_ofNat h, Int.bmod_def, hmod]
  simp only [hiff]
  push_cast at hhalf ⊢
  split <;> split <;> omega

/-- The two's complement number and the unsigned one agree modulo the width. -/
theorem signed_emod (bs : List UInt8) : signed bs % 256 ^ bs.length = value bs := by
  have hv : (value bs : Int) < 256 ^ bs.length := by exact_mod_cast value_lt bs
  have hv0 : (0 : Int) ≤ value bs := by positivity
  cases bs with
  | nil => rfl
  | cons b bs =>
    by_cases h : 0x80 ≤ b.toNat
    · rw [signed_of_set bs h, List.length_cons, Int.sub_emod, Int.emod_self, sub_zero,
        Int.emod_emod_of_dvd _ dvd_rfl]
      exact Int.emod_eq_of_lt hv0 hv
    · rw [signed_of_clear bs (by omega)]
      exact Int.emod_eq_of_lt hv0 hv

/-- The first octet only repeats the sign bit of the second. -/
def Redundant : List UInt8 → Prop
  | b :: c :: _ => (b = 0x00 ∧ c.toNat < 0x80) ∨ (b = 0xff ∧ 0x80 ≤ c.toNat)
  | _ => False

instance : DecidablePred Redundant := fun bs => by
  unfold Redundant
  split <;> infer_instance

theorem signed_tail_of_redundant {b c : UInt8} {bs : List UInt8}
    (h : Redundant (b :: c :: bs)) : signed (c :: bs) = signed (b :: c :: bs) := by
  rcases h with ⟨rfl, hc⟩ | ⟨rfl, hc⟩
  · rw [signed_of_clear bs hc, signed_of_clear (c :: bs) (by decide), value_cons 0]
    simp
  · rw [signed_of_set bs hc, signed_of_set (c :: bs) (by decide), value_cons 0xff,
      List.length_cons]
    push_cast
    ring

/-- Outside the range of one octet less, an octet string is not redundant, and conversely. -/
theorem outside_of_not_redundant {b c : UInt8} {bs : List UInt8}
    (h : ¬ Redundant (b :: c :: bs)) :
    signed (b :: c :: bs) < -(128 * 256 ^ bs.length : Int) ∨
      (128 * 256 ^ bs.length : Int) ≤ signed (b :: c :: bs) := by
  have hv : (value bs : Int) < 256 ^ bs.length := by exact_mod_cast value_lt bs
  have hv0 : (0 : Int) ≤ value bs := by positivity
  have hp : (0 : Int) < 256 ^ bs.length := by positivity
  have hc : (c.toNat : Int) < 256 := by exact_mod_cast c.toNat_lt
  have expand : (value (b :: c :: bs) : Int) =
      (b.toNat * 256 + c.toNat) * 256 ^ bs.length + value bs := by
    rw [value_cons, value_cons, List.length_cons, pow_succ]; push_cast; ring
  by_cases hb : 0x80 ≤ b.toNat
  · left
    have lead : (b.toNat : Int) * 256 + c.toNat < 255 * 256 + 128 := by
      by_contra hge
      have hlt := b.toNat_lt
      have hb255 : b.toNat = 255 := by omega
      exact h (.inr ⟨UInt8.toNat.inj hb255, by omega⟩)
    rw [signed_of_set _ hb, expand, List.length_cons, pow_succ, pow_succ]
    nlinarith
  · right
    have lead : (128 : Int) ≤ b.toNat * 256 + c.toNat := by
      by_contra hlt
      have hb0 : b.toNat = 0 := by omega
      exact h (.inl ⟨UInt8.toNat.inj hb0, by omega⟩)
    rw [signed_of_clear _ (by omega), expand]
    nlinarith

/-- The shortest octet string of a two's complement number: the encoding ASN.1
asks for in an INTEGER. -/
structure Shortest (bs : List UInt8) (v : Int) : Prop where
  nonempty : bs ≠ []
  denotes : signed bs = v
  least : ∀ cs, cs ≠ [] → signed cs = v → bs.length ≤ cs.length

theorem shortest_of_not_redundant {bs : List UInt8} (hne : bs ≠ []) (h : ¬ Redundant bs) :
    Shortest bs (signed bs) := by
  refine ⟨hne, rfl, ?_⟩
  intro cs hcs heq
  match bs, cs with
  | [b], _ :: _ => simp
  | b :: c :: bs, d :: ds =>
    by_contra hlt
    have hle : ds.length ≤ bs.length := by
      simp only [List.length_cons] at hlt
      omega
    have hpow : (256 : Int) ^ ds.length ≤ 256 ^ bs.length :=
      pow_le_pow_right₀ (by norm_num) hle
    have hd := signed_bounds d ds
    rw [heq] at hd
    rcases outside_of_not_redundant h with low | high <;> linarith [hd.1, hd.2]

end Octets
