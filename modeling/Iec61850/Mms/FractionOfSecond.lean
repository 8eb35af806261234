import Iec61850.Lib.CheckedInt
import Iec61850.Mms.Conversions
import Mathlib.Data.Rat.Floor

/-! The fraction of a second in generalized time: the arithmetic of `int` that the parser does with
its digits, and the milliseconds it is meant to find. -/

namespace Iec61850.Conversions

open Machine
open StringUtils (isDigit)

/-! ## The arithmetic of the parser -/

/-- The loop over the digits makes a power of ten. -/
def powerOfTen (digits : List UInt8) : CheckedInt :=
  digits.foldlM (fun secondValue _ => checkedInt (secondValue * 10)) 1

/-- The loop of `StringUtils_digitsToInt` over digits. -/
def fractionOfSecond (digits : List UInt8) : CheckedInt :=
  digits.foldlM (fun value (digit : UInt8) => do
    let value ← checkedInt (value * 10)
    checkedInt (value + ((digit.toNat : Int) - 48))) 0

/-- `msOffset` for what is behind the point. -/
def checkedMilliseconds (rest : List UInt8) : CheckedInt := do
  let digits := rest.takeWhile isDigit
  let secondValue ← powerOfTen digits
  if 0 < digits.length then
    let fraction ← fractionOfSecond digits
    checkedDiv (← checkedInt (fraction * 1000)) secondValue
  else return 0

/-! ## The fraction -/

/-- The number that is written behind a point. -/
def decimalFraction : List UInt8 → ℚ
  | [] => 0
  | digit :: digits => (((digit.toNat : ℚ) - 48) + decimalFraction digits) / 10

def milliseconds (rest : List UInt8) : Int := ⌊1000 * decimalFraction (rest.takeWhile isDigit)⌋

/-- The seconds that the parser finds in the other fields of a time, if it takes them. -/
def secondsOf (lib : TimeLibrary) (date zone : List UInt8) : Option Int :=
  let year := digitsToInt date 4
  let month := digitsToInt (date.drop 4) 2
  let day := digitsToInt (date.drop 6) 2
  let hour := digitsToInt (date.drop 8) 2
  let min := digitsToInt (date.drop 10) 2
  let seconds := digitsToInt (date.drop 12) 2
  if year < 0 ∨ month < 0 ∨ day < 0 ∨ hour < 0 ∨ min < 0 ∨ seconds < 0 then none
  else secondsInZone lib ⟨year - 1900, month - 1, day, hour, min, seconds⟩ zone

/-- All steps of the arithmetic have a result, the last one is that of the fraction, and it is what
the parser adds to the seconds. -/
structure FractionExact (rest : List UInt8) : Prop where
  steps : checkedMilliseconds rest = .ok (milliseconds rest)
  parser : ∀ (lib : TimeLibrary) (date : List UInt8), date.length = 14 →
    generalizedTimeToMsTime lib (date ++ 46 :: rest) =
      .ok ((secondsOf lib date (rest.dropWhile isDigit)).elim invalidTime fun t =>
        UInt64.ofInt (t * 1000 + milliseconds rest))

/-- The digits as a whole number. -/
def wholeNumber (digits : List UInt8) : Int :=
  digits.foldl (fun value digit => value * 10 + ((digit.toNat : Int) - 48)) 0

/-! ## Digits -/

section Digits

variable {digits rest : List UInt8}

theorem digit_nonneg {d : UInt8} (h : isDigit d = true) :
    0 ≤ (d.toNat : Int) - 48 ∧ (d.toNat : Int) - 48 ≤ 9 := by
  simp only [isDigit, Bool.and_eq_true, decide_eq_true_eq, UInt8.lt_iff_toNat_lt] at h
  change 47 < d.toNat ∧ d.toNat < 58 at h
  omega

theorem isDigit_of_mem_takeWhile {d : UInt8} (h : d ∈ rest.takeWhile isDigit) :
    isDigit d = true := List.mem_takeWhile_imp h

theorem powerOfTen_ok_iff {v : Int} :
    powerOfTen digits = .ok v ↔ FitsInt v ∧ v = 10 ^ digits.length := by
  have hpower : digits.foldl (fun secondValue _ => secondValue * 10) (1 : Int) =
      10 ^ digits.length := by
    induction digits using List.reverseRecOn with
    | nil => rfl
    | append_singleton ds d ih =>
      rw [List.foldl_append, ih, List.length_append]
      rfl
  rw [← hpower]
  refine foldlM_checked (fun d _ v hv => ?_) (fun d _ v w _ => ?_) (by decide) (by decide)
  · omega
  · exact checkedInt_ok_iff

theorem fractionOfSecond_ok_iff (h : ∀ d ∈ digits, isDigit d = true) {v : Int} :
    fractionOfSecond digits = .ok v ↔ FitsInt v ∧ v = wholeNumber digits := by
  refine foldlM_checked (fun d hd v hv => ?_) (fun d hd v w hv => ?_) (by decide) (by decide)
  · have hdigit := digit_nonneg (h d hd)
    omega
  · have hdigit := digit_nonneg (h d hd)
    constructor
    · intro hstep
      cases hten : checkedInt (v * 10) with
      | error e =>
        rw [hten] at hstep
        cases hstep
      | ok u =>
        obtain ⟨-, rfl⟩ := checkedInt_ok_iff.mp hten
        rw [hten] at hstep
        exact checkedInt_ok_iff.mp hstep
    · rintro ⟨hfit, rfl⟩
      rw [checkedInt_of_fits (fitsInt_of_le (by omega) (by omega) hfit)]
      exact checkedInt_of_fits hfit

theorem foldl_wholeNumber (v : Int) :
    digits.foldl (fun value digit => value * 10 + ((digit.toNat : Int) - 48)) v =
      v * 10 ^ digits.length + wholeNumber digits := by
  rw [wholeNumber]
  induction digits generalizing v with
  | nil => simp
  | cons d ds ih =>
    rw [List.foldl_cons, ih, List.foldl_cons, ih (0 * 10 + _), List.length_cons, pow_succ]
    ring

theorem wholeNumber_nonneg (h : ∀ d ∈ digits, isDigit d = true) : 0 ≤ wholeNumber digits := by
  refine le_foldl (fun d hd v hv => ?_) le_rfl
  have hdigit := digit_nonneg (h d hd)
  omega

theorem decimalFraction_eq :
    decimalFraction digits = (wholeNumber digits : ℚ) / (10 ^ digits.length : ℕ) := by
  induction digits with
  | nil => simp [decimalFraction, wholeNumber]
  | cons d ds ih =>
    have hwhole : wholeNumber (d :: ds) =
        ((d.toNat : Int) - 48) * 10 ^ ds.length + wholeNumber ds := by
      rw [wholeNumber, List.foldl_cons, foldl_wholeNumber]
      simp
    rw [decimalFraction, ih, hwhole, List.length_cons]
    push_cast
    field_simp
    ring

theorem milliseconds_eq :
    milliseconds rest = 1000 * wholeNumber (rest.takeWhile isDigit) /
      10 ^ (rest.takeWhile isDigit).length := by
  have hfraction : 1000 * decimalFraction (rest.takeWhile isDigit) =
      ((1000 * wholeNumber (rest.takeWhile isDigit) : Int) : ℚ) /
        (10 ^ (rest.takeWhile isDigit).length : ℕ) := by
    rw [decimalFraction_eq]
    push_cast
    ring
  rw [milliseconds, hfraction, Rat.floor_intCast_div_natCast]
  push_cast
  rfl

theorem fitsInt_powerOfTen_iff {n : Nat} : FitsInt (10 ^ n) ↔ n ≤ 9 := by
  constructor
  · intro h
    by_contra hn
    have hle : (10 : Int) ^ 10 ≤ 10 ^ n := pow_le_pow_right₀ (by decide) (by omega)
    have hlt := h.2
    omega
  · intro hn
    have hle : (10 : Int) ^ n ≤ 10 ^ 9 := pow_le_pow_right₀ (by decide) hn
    exact fitsInt_of_le (by positivity) hle (by decide)

end Digits

/-! ## The parser -/

section Parser

variable {rest digits date : List UInt8}

theorem checkedMilliseconds_ok_iff {ms : Int} :
    checkedMilliseconds rest = .ok ms ↔
      ((rest.takeWhile isDigit).length ≤ 9 ∧ wholeNumber (rest.takeWhile isDigit) ≤ 2147483) ∧
        ms = milliseconds rest := by
  have hdigits : ∀ d ∈ rest.takeWhile isDigit, isDigit d = true := fun d =>
    isDigit_of_mem_takeWhile
  rw [milliseconds_eq, checkedMilliseconds]
  generalize rest.takeWhile isDigit = digits at hdigits
  have hnonneg := wholeNumber_nonneg hdigits
  have hpositive : (0 : Int) < 10 ^ digits.length := by positivity
  simp only [checked_bind_ok_iff, powerOfTen_ok_iff]
  constructor
  · rintro ⟨v, ⟨hfits, rfl⟩, h⟩
    have hlong := fitsInt_powerOfTen_iff.mp hfits
    by_cases hlength : 0 < digits.length
    · rw [if_pos hlength] at h
      simp only [checked_bind_ok_iff, fractionOfSecond_ok_iff hdigits, checkedInt_ok_iff] at h
      obtain ⟨w, ⟨-, rfl⟩, u, ⟨hfit, rfl⟩, hdiv⟩ := h
      rw [checkedDiv, if_neg hpositive.ne', checkedInt_ok_iff] at hdiv
      have hlt := hfit.2
      refine ⟨⟨hlong, by omega⟩, hdiv.2.trans ?_⟩
      rw [Int.tdiv_eq_ediv_of_nonneg (by omega), Int.mul_comm]
    · rw [if_neg hlength] at h
      cases h
      have hnil : digits = [] := List.eq_nil_of_length_eq_zero (Nat.eq_zero_of_not_pos hlength)
      subst hnil
      exact ⟨⟨by decide, by decide⟩, by decide⟩
  · rintro ⟨⟨hlong, hsmall⟩, hms⟩
    refine ⟨_, ⟨fitsInt_powerOfTen_iff.mpr hlong, rfl⟩, ?_⟩
    by_cases hlength : 0 < digits.length
    · have hfit : FitsInt (wholeNumber digits * 1000) := ⟨by omega, by omega⟩
      have hfit' : FitsInt (wholeNumber digits) := fitsInt_of_le hnonneg (by omega) hfit
      rw [if_pos hlength]
      simp only [checked_bind_ok_iff, fractionOfSecond_ok_iff hdigits, checkedInt_ok_iff]
      refine ⟨_, ⟨hfit', rfl⟩, _, ⟨hfit, rfl⟩, ?_⟩
      rw [checkedDiv, if_neg hpositive.ne', Int.tdiv_eq_ediv_of_nonneg (by omega), hms,
        Int.mul_comm]
      refine checkedInt_of_fits (fitsInt_of_le (Int.ediv_nonneg (by omega) hpositive.le) ?_ hfit)
      exact (Int.ediv_le_self _ (by omega)).trans (by omega)
    · rw [if_neg hlength]
      have hnil : digits = [] := List.eq_nil_of_length_eq_zero (Nat.eq_zero_of_not_pos hlength)
      subst hnil
      rw [hms]
      rfl

/-! Without an overflow the parser does the same arithmetic. -/

theorem foldl_i32_powerOfTen (h : FitsInt (10 ^ digits.length)) :
    digits.foldl (fun secondValue _ => i32 (secondValue * 10)) (1 : Int) = 10 ^ digits.length := by
  induction digits using List.reverseRecOn with
  | nil => rfl
  | append_singleton ds d ih =>
    rw [List.length_append, List.length_singleton] at h ⊢
    have hle : (10 : Int) ^ ds.length ≤ 10 ^ (ds.length + 1) :=
      pow_le_pow_right₀ (by decide) (Nat.le_succ _)
    rw [List.foldl_append, ih (fitsInt_of_le (by positivity) hle h), pow_succ, List.foldl_cons,
      List.foldl_nil]
    exact (pow_succ (10 : Int) ds.length ▸ h).i32_eq

theorem digitsFrom_of_fits (hdigits : ∀ d ∈ digits, isDigit d = true) (more : List UInt8) {v : Int}
    (hv : 0 ≤ v)
    (h : FitsInt (digits.foldl (fun value digit => value * 10 + ((digit.toNat : Int) - 48)) v)) :
    digitsFrom v digits.length (digits ++ more) =
      digits.foldl (fun value digit => value * 10 + ((digit.toNat : Int) - 48)) v := by
  induction digits generalizing v with
  | nil => rfl
  | cons d ds ih =>
    have hdigit := digit_nonneg (hdigits d List.mem_cons_self)
    have hrest : ∀ d ∈ ds, isDigit d = true := fun d hd => hdigits d (List.mem_cons_of_mem _ hd)
    rw [List.foldl_cons] at h ⊢
    have hle : v * 10 + ((d.toNat : Int) - 48) ≤
        ds.foldl (fun value digit => value * 10 + ((digit.toNat : Int) - 48))
          (v * 10 + ((d.toNat : Int) - 48)) := by
      refine le_foldl (fun d hd v hv => ?_) (by omega)
      have hd := digit_nonneg (hrest d hd)
      omega
    have hfit := fitsInt_of_le (by omega) hle h
    have hten : FitsInt (v * 10) := fitsInt_of_le (by omega) (by omega) hfit
    rw [List.length_cons, List.cons_append, digitsFrom, if_pos (hdigits d List.mem_cons_self),
      hten.i32_eq, hfit.i32_eq]
    exact ih hrest (by omega) h

theorem millisecondsOf_of_checked {ms : Int} (h : checkedMilliseconds rest = .ok ms) :
    millisecondsOf rest = .ok ms := by
  obtain ⟨⟨hlong, hsmall⟩, rfl⟩ := checkedMilliseconds_ok_iff.mp h
  have hdigits : ∀ d ∈ rest.takeWhile isDigit, isDigit d = true := fun d =>
    isDigit_of_mem_takeWhile
  have hnonneg := wholeNumber_nonneg hdigits
  have hfits := fitsInt_powerOfTen_iff.mpr hlong
  have hfit : FitsInt (wholeNumber (rest.takeWhile isDigit) * 1000) := ⟨by omega, by omega⟩
  have hfit' : FitsInt (wholeNumber (rest.takeWhile isDigit)) :=
    fitsInt_of_le hnonneg (by omega) hfit
  have hnumber : digitsToInt rest (rest.takeWhile isDigit).length =
      wholeNumber (rest.takeWhile isDigit) := by
    have hread := digitsFrom_of_fits hdigits (rest.dropWhile isDigit) le_rfl hfit'
    rwa [List.takeWhile_append_dropWhile] at hread
  have hpositive : (0 : Int) < 10 ^ (rest.takeWhile isDigit).length := by positivity
  rw [millisecondsOf, milliseconds_eq]
  simp only [hnumber, hfit.i32_eq, foldl_i32_powerOfTen hfits, divide, if_neg hpositive.ne']
  split
  case isTrue =>
    rw [Int.tdiv_eq_ediv_of_nonneg (by omega), Int.mul_comm]
  case isFalse hnone =>
    rw [List.eq_nil_of_length_eq_zero (Nat.eq_zero_of_not_pos hnone)]
    rfl

theorem digitsToInt_append {count : Nat} (h : count ≤ digits.length) (more : List UInt8) :
    digitsToInt (digits ++ more) count = digitsToInt digits count := by
  rw [digitsToInt, digitsToInt]
  generalize (0 : Int) = v
  induction digits generalizing v count with
  | nil =>
    cases Nat.le_zero.mp h
    cases more <;> rfl
  | cons d ds ih =>
    cases count with
    | zero => rfl
    | succ count =>
      rw [List.cons_append, digitsFrom, digitsFrom, ih (Nat.le_of_succ_le_succ h)]

theorem generalizedTimeToMsTime_of_milliseconds {ms : Int} (h : millisecondsOf rest = .ok ms)
    (lib : TimeLibrary) (hdate : date.length = 14) :
    generalizedTimeToMsTime lib (date ++ 46 :: rest) =
      .ok ((secondsOf lib date (rest.dropWhile isDigit)).elim invalidTime fun t =>
        UInt64.ofInt (t * 1000 + ms)) := by
  have hlength : ¬ (date ++ 46 :: rest).length < 14 := by
    rw [List.length_append, hdate]
    omega
  have hfield : ∀ pos count, pos + count ≤ 14 →
      digitsToInt ((date ++ 46 :: rest).drop pos) count = digitsToInt (date.drop pos) count := by
    intro pos count hpos
    rw [List.drop_append_of_le_length (by omega)]
    exact digitsToInt_append (by rw [List.length_drop, hdate]; omega) _
  have hyear : digitsToInt (date ++ 46 :: rest) 4 = digitsToInt date 4 := hfield 0 4 (by decide)
  have hbehind : (date ++ 46 :: rest).drop 14 = 46 :: rest := List.drop_left' hdate
  rw [generalizedTimeToMsTime, if_neg hlength, secondsOf]
  simp only [hyear, hfield 4 2 (by decide), hfield 6 2 (by decide), hfield 8 2 (by decide),
    hfield 10 2 (by decide), hfield 12 2 (by decide), hbehind, parseFraction, h, ok_bind, pure_bind]
  split
  case isTrue => rfl
  case isFalse =>
    generalize secondsInZone lib _ _ = zone
    cases zone with
    | none => rfl
    | some t => rfl

/-- The fraction is exact for up to nine digits whose number is at most 2147483. -/
theorem fractionExact_iff (rest : List UInt8) :
    FractionExact rest ↔
      (rest.takeWhile isDigit).length ≤ 9 ∧ wholeNumber (rest.takeWhile isDigit) ≤ 2147483 := by
  constructor
  · intro h
    exact (checkedMilliseconds_ok_iff.mp h.steps).1
  · intro h
    have hsteps := checkedMilliseconds_ok_iff.mpr ⟨h, rfl⟩
    exact ⟨hsteps, fun lib date hdate =>
      generalizedTimeToMsTime_of_milliseconds (millisecondsOf_of_checked hsteps) lib hdate⟩

/-- Seven digits are too many for these: the product with 1000 has no room. -/
theorem not_fractionExact_sevenDigits : ¬ FractionExact (ascii "2147484Z") := by
  intro h
  have hsteps : (.error .overflow : CheckedInt) = .ok (milliseconds (ascii "2147484Z")) := h.steps
  cases hsteps

end Parser

end Iec61850.Conversions
