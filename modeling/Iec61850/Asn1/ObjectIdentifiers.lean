import Iec61850.Lib.Base128
import Iec61850.Lib.CheckedInt
import Iec61850.Report.OwnerAttribute

/-! Object identifiers that are written as numbers with points between them, and the octets that
`BerEncoder_encodeOIDToBuffer` makes of them. -/

namespace Iec61850

open Machine

namespace BerEncoder

open Reporting (atoi)

/-- How often the value can be shifted before it is gone. -/
def requiredBytes (val2 : Int) : Nat := if 0 < val2 then requiredBytes (val2 >>> (7 : Nat)) + 1 else 0
termination_by val2.toNat
decreasing_by
  rw [Int.shiftRight_eq_div_pow]
  change (val2 / 128).toNat < val2.toNat
  omega

/-- The octet that is written while this many follow. -/
def arcOctet (val : Int) (following : Nat) : UInt8 :=
  let val2 := (val >>> (7 * following)) % 128
  UInt8.ofInt (if 0 < following then val2 + 128 else val2)

/-- The inner loop, with none for a buffer that is full. -/
def encodeArc (maxBufLen val : Int) : Nat → List UInt8 → Option (List UInt8)
  | 0, encoded => some encoded
  | requiredBytes + 1, encoded =>
    if (encoded.length : Int) = maxBufLen then none
    else encodeArc maxBufLen val requiredBytes (encoded ++ [arcOctet val requiredBytes])

/-- The outer loop: behind every point there is an arc. -/
def encodeArcs (maxBufLen : Int) : List UInt8 → List UInt8 → Option (List UInt8)
  | [], encoded => some encoded
  | c :: string, encoded =>
    if c = 46 then do
      let val := atoi string
      encodeArcs maxBufLen string (← encodeArc maxBufLen val (requiredBytes val) encoded)
    else encodeArcs maxBufLen string encoded

/-- The octets in the buffer, with none where it returns 0. -/
def encodeOIDToBuffer (oidString : List UInt8) (maxBufLen : Int) :
    Except ArithmeticFault (Option (List UInt8)) :=
  let x := atoi oidString
  match strchr oidString 46 with
  | none => return none
  | some separator => do
    let y := atoi separator.tail
    let val ← checkedInt ((← checkedInt (x * 40)) + y)
    if 0 < maxBufLen then return encodeArcs maxBufLen separator.tail [UInt8.ofInt val]
    else return none

end BerEncoder

/-- An identifier has two arcs at least. -/
structure ObjectIdentifier where
  x : Int32
  y : Int32
  arcs : List Int32

namespace ObjectIdentifier

/-- Every arc behind a point. -/
def dottedArcs (arcs : List Int32) : List UInt8 :=
  arcs.flatMap fun arc => 46 :: Decimal.ofInt arc.toInt

def dotted (oid : ObjectIdentifier) : List UInt8 :=
  Decimal.ofInt oid.x.toInt ++ 46 :: (Decimal.ofInt oid.y.toInt ++ dottedArcs oid.arcs)

def firstSubidentifier (oid : ObjectIdentifier) : Int := oid.x.toInt * 40 + oid.y.toInt

def arcOctets (arc : Int32) : List UInt8 := Base128.octets arc.toInt.toNat

/-- The first two arcs share their octets. There are none for an arc that is negative. -/
def standardOctets (oid : ObjectIdentifier) : Option (List UInt8) :=
  if 0 ≤ oid.x.toInt ∧ 0 ≤ oid.y.toInt ∧ oid.arcs.all fun arc => 0 ≤ arc.toInt then
    some (Base128.octets oid.firstSubidentifier.toNat ++ oid.arcs.flatMap arcOctets)
  else none

/-- It returns 0, or the octets are those of the standard. -/
def Encoded (oid : ObjectIdentifier) (maxBufLen : Int) : Prop :=
  ∃ written, BerEncoder.encodeOIDToBuffer oid.dotted maxBufLen = .ok written ∧
    (written = none ∨ written = oid.standardOctets)

/-- The arcs from the third one on that are positive. -/
def positiveArcs (oid : ObjectIdentifier) : List Int32 :=
  oid.arcs.filter fun arc => 0 < arc.toInt

end ObjectIdentifier

namespace BerEncoder

open Reporting (atoi)

section Arcs

theorem toInt_shiftRight (n shift : Nat) :
    ((n : Int) >>> shift) = ((n / 2 ^ shift : Nat) : Int) := by
  rw [Int.shiftRight_eq_div_pow]
  push_cast
  rfl

theorem requiredBytes_natCast (n : Nat) : requiredBytes n = Base128.groupCount n := by
  induction n using Nat.strongRecOn with
  | ind n ih =>
    rw [requiredBytes]
    rcases Nat.eq_zero_or_pos n with rfl | hpos
    · rw [if_neg (by decide), Base128.groupCount_zero]
    · rw [if_pos (by exact_mod_cast hpos), toInt_shiftRight, Base128.groupCount_of_pos hpos]
      exact congrArg (· + 1) (ih _ (Nat.div_lt_self hpos (by decide)))

theorem requiredBytes_of_nonpos {val : Int} (h : val ≤ 0) : requiredBytes val = 0 := by
  rw [requiredBytes, if_neg (not_lt.mpr h)]

/-- What the inner loop writes. -/
def loopOctets (val : Int) : Nat → List UInt8
  | 0 => []
  | count + 1 => arcOctet val count :: loopOctets val count

theorem length_loopOctets (val : Int) (count : Nat) : (loopOctets val count).length = count := by
  induction count with
  | zero => rfl
  | succ count ih => rw [loopOctets, List.length_cons, ih]

theorem arcOctet_zero (n : Nat) : arcOctet n 0 = UInt8.ofNat (n % 128) := by
  rw [arcOctet, if_neg (by decide), Nat.mul_zero, toInt_shiftRight, pow_zero, Nat.div_one]
  have hcast : (n : Int) % 128 = ((n % 128 : Nat) : Int) := by push_cast; rfl
  rw [hcast, UInt8.ofInt]
  exact congrArg UInt8.ofNat (by omega)

theorem arcOctet_succ (n count : Nat) :
    arcOctet n (count + 1) = UInt8.ofNat (n / 128 / 128 ^ count % 128 + 128) := by
  have hshift : n / 2 ^ (7 * (count + 1)) = n / 128 / 128 ^ count := by
    rw [pow_mul, pow_succ, Nat.mul_comm, Nat.div_div_eq_div_mul]
    rfl
  rw [arcOctet, if_pos (Nat.succ_pos _), toInt_shiftRight, hshift]
  generalize n / 128 / 128 ^ count = m
  have hcast : (m : Int) % 128 + 128 = ((m % 128 + 128 : Nat) : Int) := by push_cast; rfl
  rw [hcast, UInt8.ofInt]
  exact congrArg UInt8.ofNat (by omega)

theorem loopOctets_succ (n count : Nat) : loopOctets n (count + 1) =
    Base128.lowGroups (n / 128) count ++ [UInt8.ofNat (n % 128)] := by
  induction count with
  | zero =>
    rw [Nat.zero_add, loopOctets, arcOctet_zero]
    rfl
  | succ count ih =>
    rw [loopOctets, arcOctet_succ, ih]
    rfl

theorem loopOctets_of_pos {n : Nat} (h : 0 < n) :
    loopOctets n (requiredBytes n) = Base128.octets n := by
  rw [requiredBytes_natCast, Base128.groupCount_of_pos h, loopOctets_succ, Base128.octets,
    Base128.continued_eq]

theorem encodeArc_eq {maxBufLen val : Int} (count : Nat) {encoded : List UInt8}
    (h : (encoded.length : Int) ≤ maxBufLen) :
    encodeArc maxBufLen val count encoded =
      if (encoded.length + count : Int) ≤ maxBufLen then some (encoded ++ loopOctets val count)
      else none := by
  induction count generalizing encoded with
  | zero =>
    rw [if_pos (by omega), loopOctets, List.append_nil]
    rfl
  | succ count ih =>
    rw [encodeArc]
    by_cases hfull : (encoded.length : Int) = maxBufLen
    · rw [if_pos hfull, if_neg (by omega)]
    · have hroom : ((encoded ++ [arcOctet val count]).length : Int) ≤ maxBufLen := by
        rw [List.length_append, List.length_singleton]
        omega
      rw [if_neg hfull, ih hroom, List.append_assoc, List.length_append, List.length_singleton]
      refine if_congr ?_ rfl rfl
      omega

end Arcs

section Strings

open ObjectIdentifier Reporting

variable {maxBufLen : Int} {encoded front string : List UInt8} {arcs : List Int32}

theorem takeWhile_dottedArcs (arcs : List Int32) :
    (dottedArcs arcs).takeWhile StringUtils.isDigit = [] := by
  cases arcs with
  | nil => rfl
  | cons arc arcs => exact List.takeWhile_cons_of_neg (by decide)

theorem digitsValue_octets (n : Nat) (arcs : List Int32) :
    digitsValue (Decimal.octets n ++ dottedArcs arcs) = n := by
  have hdigits : ∀ d ∈ Decimal.octets n, StringUtils.isDigit d = true :=
    fun _ hd => isDigit_of_mem_octets hd
  rw [digitsValue, List.takeWhile_append_of_pos hdigits, takeWhile_dottedArcs, List.append_nil]
  exact Decimal.value_octets n

/-- The number in front of the next point is read. -/
theorem atoi_ofInt (arc : Int32) (arcs : List Int32) :
    atoi (Decimal.ofInt arc.toInt ++ dottedArcs arcs) = arc.toInt := by
  have hlow := arc.le_toInt
  have hhigh := arc.toInt_lt
  have hread := digitsValue_octets arc.toInt.natAbs arcs
  rw [Decimal.ofInt]
  split
  case isTrue hneg =>
    have hspace : isSpace 45 = false := by decide
    rw [List.cons_append, atoi,
      List.dropWhile_cons_of_neg (by rw [hspace]; exact Bool.false_ne_true)]
    change i32 (-digitsValue (Decimal.octets arc.toInt.natAbs ++ dottedArcs arcs)) = arc.toInt
    rw [hread, i32_of_range (by omega) (by omega)]
    omega
  case isFalse hpos =>
    obtain ⟨d, ds, hds⟩ := List.exists_cons_of_ne_nil (Decimal.octets_ne_nil arc.toInt.natAbs)
    have hdigit : StringUtils.isDigit d = true :=
      isDigit_of_mem_octets (n := arc.toInt.natAbs) (hds ▸ List.mem_cons_self)
    rw [hds, List.cons_append] at hread ⊢
    rw [atoi_of_isDigit hdigit, hread, i32_of_range (by omega) (by omega)]
    omega

theorem point_notMem_ofInt (n : Int) : 46 ∉ Decimal.ofInt n := by
  rw [Decimal.ofInt]
  split
  · intro h
    rcases List.mem_cons.mp h with h | h
    · cases h
    · exact point_notMem_octets _ h
  · exact point_notMem_octets _

theorem encodeArcs_append (h : 46 ∉ front) :
    encodeArcs maxBufLen (front ++ string) encoded = encodeArcs maxBufLen string encoded := by
  induction front with
  | nil => rfl
  | cons c front ih =>
    have hc : c ≠ 46 := fun heq => h (heq ▸ List.mem_cons_self)
    rw [List.cons_append, encodeArcs, if_neg hc, ih (List.not_mem_of_not_mem_cons h)]

/-- What is written for an arc: nothing if it is not positive. -/
def storedOctets (arc : Int32) : List UInt8 := loopOctets arc.toInt (requiredBytes arc.toInt)

theorem storedOctets_of_pos {arc : Int32} (h : 0 < arc.toInt) :
    storedOctets arc = arcOctets arc := by
  obtain ⟨n, hn⟩ := Int.eq_ofNat_of_zero_le h.le
  rw [storedOctets, arcOctets, hn]
  exact loopOctets_of_pos (by omega)

theorem storedOctets_of_nonpos {arc : Int32} (h : arc.toInt ≤ 0) : storedOctets arc = [] := by
  rw [storedOctets, requiredBytes_of_nonpos h]
  rfl

theorem encodeArcs_eq (h : (encoded.length : Int) ≤ maxBufLen) :
    encodeArcs maxBufLen (dottedArcs arcs) encoded =
      if (encoded.length + (arcs.flatMap storedOctets).length : Int) ≤ maxBufLen then
        some (encoded ++ arcs.flatMap storedOctets)
      else none := by
  induction arcs generalizing encoded with
  | nil =>
    rw [List.flatMap_nil, List.append_nil, List.length_nil, if_pos (by omega)]
    rfl
  | cons arc arcs ih =>
    have hlength : (storedOctets arc).length = requiredBytes arc.toInt := length_loopOctets _ _
    have hdotted : dottedArcs (arc :: arcs) =
        46 :: (Decimal.ofInt arc.toInt ++ dottedArcs arcs) := rfl
    rw [hdotted, encodeArcs, if_pos rfl]
    simp only [atoi_ofInt, encodeArc_eq _ h, List.flatMap_cons, List.length_append,
      encodeArcs_append (point_notMem_ofInt _)]
    by_cases hroom : (encoded.length + requiredBytes arc.toInt : Int) ≤ maxBufLen
    · have hfits : ((encoded ++ storedOctets arc).length : Int) ≤ maxBufLen := by
        rw [List.length_append, hlength]
        omega
      rw [if_pos hroom]
      change encodeArcs maxBufLen (dottedArcs arcs) (encoded ++ storedOctets arc) = _
      rw [ih hfits, List.append_assoc, List.length_append]
      refine if_congr ?_ rfl rfl
      omega
    · rw [if_neg hroom, if_neg (by omega)]
      rfl

theorem flatMap_storedOctets (oid : ObjectIdentifier) :
    oid.arcs.flatMap storedOctets = oid.positiveArcs.flatMap arcOctets := by
  rw [positiveArcs]
  induction oid.arcs with
  | nil => rfl
  | cons arc arcs ih =>
    rw [List.flatMap_cons, ih, List.filter_cons]
    by_cases h : 0 < arc.toInt
    · rw [if_pos (decide_eq_true h), List.flatMap_cons, storedOctets_of_pos h]
    · rw [if_neg fun hd => h (of_decide_eq_true hd), storedOctets_of_nonpos (not_lt.mp h),
        List.nil_append]

/-- Arcs that are not positive are left out, and the first two share one octet. -/
theorem encodeOIDToBuffer_ok_iff {oid : ObjectIdentifier} {written : Option (List UInt8)} :
    encodeOIDToBuffer oid.dotted maxBufLen = .ok written ↔
      FitsInt (oid.x.toInt * 40) ∧ FitsInt oid.firstSubidentifier ∧
        written = if (1 + (oid.positiveArcs.flatMap arcOctets).length : Int) ≤ maxBufLen then
            some (UInt8.ofInt oid.firstSubidentifier :: oid.positiveArcs.flatMap arcOctets)
          else none := by
  have hx : atoi oid.dotted = oid.x.toInt := atoi_ofInt oid.x (oid.y :: oid.arcs)
  have hseparator : strchr oid.dotted 46 =
      some (46 :: (Decimal.ofInt oid.y.toInt ++ dottedArcs oid.arcs)) :=
    strchr_append (point_notMem_ofInt _) _
  have hwritten : (if 0 < maxBufLen then
        encodeArcs maxBufLen (Decimal.ofInt oid.y.toInt ++ dottedArcs oid.arcs)
          [UInt8.ofInt oid.firstSubidentifier]
      else none) =
      if (1 + (oid.positiveArcs.flatMap arcOctets).length : Int) ≤ maxBufLen then
        some (UInt8.ofInt oid.firstSubidentifier :: oid.positiveArcs.flatMap arcOctets)
      else none := by
    by_cases hroom : 0 < maxBufLen
    · rw [if_pos hroom, encodeArcs_append (point_notMem_ofInt _),
        encodeArcs_eq (by rw [List.length_singleton]; omega), flatMap_storedOctets]
      rfl
    · rw [if_neg hroom, if_neg (by omega)]
  rw [encodeOIDToBuffer, hseparator, ← hwritten]
  simp only [hx, List.tail_cons, atoi_ofInt, checked_bind_ok_iff, checkedInt_ok_iff]
  constructor
  · rintro ⟨v, ⟨hfit, rfl⟩, w, ⟨hfit', rfl⟩, h⟩
    refine ⟨hfit, hfit', ?_⟩
    rw [firstSubidentifier]
    split at h
    · cases h
      rw [if_pos ‹_›]
    · cases h
      rw [if_neg ‹_›]
  · rintro ⟨hfit, hfit', rfl⟩
    refine ⟨_, ⟨hfit, rfl⟩, _, ⟨hfit', rfl⟩, ?_⟩
    rw [firstSubidentifier]
    split <;> rfl

end Strings

end BerEncoder

namespace ObjectIdentifier

section Lengths

variable {α β : Type} {f : α → List β} {p : α → Bool} {as : List α}

theorem length_flatMap_filter_le :
    ((as.filter p).flatMap f).length ≤ (as.flatMap f).length := by
  induction as with
  | nil => exact le_rfl
  | cons a as ih =>
    rw [List.filter_cons, List.flatMap_cons, List.length_append]
    split
    · rw [List.flatMap_cons, List.length_append]
      exact Nat.add_le_add_left ih _
    · exact ih.trans (Nat.le_add_left _ _)

/-- What is left out makes the octets fewer. -/
theorem forall_of_length_le (hne : ∀ a, f a ≠ [])
    (h : (as.flatMap f).length ≤ ((as.filter p).flatMap f).length) : ∀ a ∈ as, p a = true := by
  induction as with
  | nil => exact fun a ha => nomatch ha
  | cons a as ih =>
    rw [List.filter_cons, List.flatMap_cons, List.length_append] at h
    have hpos := List.length_pos_of_ne_nil (hne a)
    split at h
    case isTrue hp =>
      rw [List.flatMap_cons, List.length_append] at h
      exact List.forall_mem_cons.mpr ⟨hp, ih (Nat.le_of_add_le_add_left h)⟩
    case isFalse =>
      have hle : ((as.filter p).flatMap f).length ≤ (as.flatMap f).length :=
        length_flatMap_filter_le
      omega

end Lengths

theorem ofInt_of_nonneg {v : Int} (h0 : 0 ≤ v) (h : v < 128) :
    UInt8.ofInt v = UInt8.ofNat v.toNat := by
  rw [UInt8.ofInt]
  exact congrArg UInt8.ofNat (by omega)

theorem arcOctets_ne_nil (arc : Int32) : arcOctets arc ≠ [] :=
  List.append_ne_nil_of_right_ne_nil _ (List.cons_ne_nil _ _)

theorem standardOctets_eq_some_iff {oid : ObjectIdentifier} :
    oid.standardOctets =
        some (UInt8.ofInt oid.firstSubidentifier :: oid.positiveArcs.flatMap arcOctets) ↔
      0 ≤ oid.x.toInt ∧ 0 ≤ oid.y.toInt ∧ oid.firstSubidentifier < 128 ∧
        ∀ arc ∈ oid.arcs, 0 < arc.toInt := by
  rw [standardOctets, Option.ite_none_right_eq_some]
  constructor
  · rintro ⟨⟨hx, hy, -⟩, heq⟩
    have hlength := congrArg List.length (Option.some.inj heq)
    rw [List.length_append, List.length_cons] at hlength
    have hle : (oid.positiveArcs.flatMap arcOctets).length ≤
        (oid.arcs.flatMap arcOctets).length := length_flatMap_filter_le
    have hpos : 1 ≤ (Base128.octets oid.firstSubidentifier.toNat).length := by
      rw [Base128.length_octets]
      exact Nat.succ_pos _
    have hone : (Base128.octets oid.firstSubidentifier.toNat).length = 1 := by omega
    have hsmall := Base128.length_octets_eq_one_iff.mp hone
    have hall : (oid.arcs.flatMap arcOctets).length ≤
        (oid.positiveArcs.flatMap arcOctets).length := by omega
    refine ⟨hx, hy, by omega, fun arc harc => ?_⟩
    exact of_decide_eq_true (forall_of_length_le arcOctets_ne_nil hall arc harc)
  · rintro ⟨hx, hy, hsmall, harcs⟩
    have hfirst : 0 ≤ oid.firstSubidentifier :=
      Int.add_nonneg (Int.mul_nonneg hx (by decide)) hy
    have hpositive : oid.positiveArcs = oid.arcs :=
      List.filter_eq_self.mpr fun arc harc => decide_eq_true (harcs arc harc)
    have hall : oid.arcs.all (fun arc => 0 ≤ arc.toInt) = true :=
      List.all_eq_true.mpr fun arc harc => decide_eq_true (harcs arc harc).le
    refine ⟨⟨hx, hy, hall⟩, ?_⟩
    rw [Base128.octets_of_lt (by omega), hpositive, ofInt_of_nonneg hfirst hsmall]
    rfl

theorem encoded_iff (oid : ObjectIdentifier) (maxBufLen : Int) :
    oid.Encoded maxBufLen ↔
      FitsInt (oid.x.toInt * 40) ∧ FitsInt oid.firstSubidentifier ∧
        (maxBufLen < 1 + (oid.positiveArcs.flatMap arcOctets).length ∨
          0 ≤ oid.x.toInt ∧ 0 ≤ oid.y.toInt ∧ oid.firstSubidentifier < 128 ∧
            ∀ arc ∈ oid.arcs, 0 < arc.toInt) := by
  constructor
  · rintro ⟨written, hok, hright⟩
    obtain ⟨hfit, hfit', rfl⟩ := BerEncoder.encodeOIDToBuffer_ok_iff.mp hok
    refine ⟨hfit, hfit', ?_⟩
    by_cases hroom : (1 + (oid.positiveArcs.flatMap arcOctets).length : Int) ≤ maxBufLen
    · rw [if_pos hroom] at hright
      rcases hright with hnone | hstandard
      · cases hnone
      · exact Or.inr (standardOctets_eq_some_iff.mp hstandard.symm)
    · exact Or.inl (not_le.mp hroom)
  · rintro ⟨hfit, hfit', h⟩
    refine ⟨_, BerEncoder.encodeOIDToBuffer_ok_iff.mpr ⟨hfit, hfit', rfl⟩, ?_⟩
    rcases h with hroom | hstandard
    · exact Or.inl (if_neg (not_le.mpr hroom))
    · split
      · exact Or.inr (standardOctets_eq_some_iff.mpr hstandard).symm
      · exact Or.inl rfl

end ObjectIdentifier

end Iec61850
