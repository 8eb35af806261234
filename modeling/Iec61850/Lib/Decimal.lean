import Mathlib.Data.Int.Basic

/-! Numbers as decimal text in ASCII, as C prints them. -/

namespace Decimal

def octets (n : Nat) : List UInt8 := (Nat.toDigits 10 n).map fun c => UInt8.ofNat c.toNat

def ofInt (n : Int) : List UInt8 := if n < 0 then 45 :: octets n.natAbs else octets n.natAbs

/-- The number that the digits stand for. -/
def value (digits : List UInt8) : Int := digits.foldl (fun n d => n * 10 + (d.toNat - 48)) 0

theorem toNat_octet {c : Char} (h : c.isDigit = true) :
    (UInt8.ofNat c.toNat).toNat = c.toNat ∧ 48 ≤ c.toNat ∧ c.toNat ≤ 57 := by
  obtain ⟨hle, hge⟩ := Char.isDigit_iff_toNat.mp h
  have hle' : 48 ≤ c.toNat := hle
  have hge' : c.toNat ≤ 57 := hge
  refine ⟨?_, hle', hge'⟩
  rw [UInt8.toNat_ofNat']
  omega

theorem isDigit_of_mem {n : Nat} {c : Char} (h : c ∈ Nat.toDigits 10 n) : c.isDigit = true :=
  Nat.isDigit_of_mem_toDigits (by decide) le_rfl h

theorem octet_bounds {n : Nat} {d : UInt8} (h : d ∈ octets n) : 48 ≤ d.toNat ∧ d.toNat ≤ 57 := by
  obtain ⟨c, hc, rfl⟩ := List.mem_map.mp h
  obtain ⟨heq, hbounds⟩ := toNat_octet (isDigit_of_mem hc)
  rwa [heq]

theorem octets_ne_nil (n : Nat) : octets n ≠ [] := by
  intro h
  exact Nat.toDigits_ne_nil (List.map_eq_nil_iff.mp h)

theorem zero_notMem_octets (n : Nat) : 0 ∉ octets n := by
  intro h
  exact absurd (octet_bounds h).1 (by decide)

theorem zero_notMem_ofInt (n : Int) : 0 ∉ ofInt n := by
  unfold ofInt
  split
  · intro h
    obtain h | h := List.mem_cons.mp h
    · cases h
    · exact zero_notMem_octets _ h
  · exact zero_notMem_octets _

theorem foldl_octets {cs : List Char} (h : ∀ c ∈ cs, c.isDigit = true) (n : Nat) :
    (cs.map fun c => UInt8.ofNat c.toNat).foldl (fun n d => n * 10 + ((d.toNat : Int) - 48)) n =
      Nat.ofDigitChars 10 cs n := by
  induction cs generalizing n with
  | nil => rfl
  | cons c cs ih =>
    obtain ⟨hc, hcs⟩ := List.forall_mem_cons.mp h
    obtain ⟨heq, hle, -⟩ := toNat_octet hc
    have hdigit : (n : Int) * 10 + ((c.toNat : Int) - 48) = (10 * n + (c.toNat - 48) : Nat) := by
      omega
    rw [List.map_cons, List.foldl_cons, heq, hdigit, ih hcs]
    rfl

/-- The digits of a number stand for it. -/
theorem value_octets (n : Nat) : value (octets n) = n := by
  have h := foldl_octets (fun c (hc : c ∈ Nat.toDigits 10 n) => isDigit_of_mem hc) 0
  rw [Nat.ofDigitChars_toDigits (by decide) le_rfl] at h
  exact h

end Decimal
