import Iec61850.Client.ObjectReferences
import Mathlib.Data.Int.Basic
import Mathlib.Tactic.Ring

/-! Generalized time (`conversions.c`): a time in milliseconds as a string of digits, and back.
Strings are given without their terminating zero. -/

namespace Iec61850

open Machine

/-- The fields of `struct tm` that are used. -/
structure Tm where
  year : Int
  mon : Int
  mday : Int
  hour : Int
  min : Int
  sec : Int

/-- The functions of the C library for times in seconds. -/
structure TimeLibrary where
  gmtime_r : Int → Tm
  timegm : Tm → Int
  mktime : Tm → Int

namespace Conversions

open StringUtils (isDigit)

/-- The loop with what has been read; the terminating zero is no digit. -/
def digitsFrom (value : Int) : Nat → List UInt8 → Int
  | 0, _ => value
  | _ + 1, [] => -1
  | count + 1, digit :: digits =>
    if isDigit digit then
      digitsFrom (i32 (i32 (value * 10) + (digit.toNat - 48))) count digits
    else -1

/-- `StringUtils_digitsToInt` of the first characters of a string. -/
def digitsToInt (digits : List UInt8) (count : Nat) : Int := digitsFrom 0 count digits

/-- The loop of `Conversions_intToStringBuffer`. -/
def decimalDigits : Nat → Int → Int → List UInt8
  | 0, _, _ => []
  | n + 1, remainder, digitBase =>
    UInt8.ofInt (remainder.tdiv digitBase + 48) ::
      decimalDigits n (remainder.tmod digitBase) (digitBase.tdiv 10)

def intToStringBuffer (intValue : Int) (numberOfDigits : Nat) : List UInt8 :=
  decimalDigits numberOfDigits intValue (10 ^ (numberOfDigits - 1))

def msTimeToGeneralizedTime (lib : TimeLibrary) (msTime : UInt64) : List UInt8 :=
  let tmTime := lib.gmtime_r (msTime.toNat / 1000 : Nat)
  intToStringBuffer (tmTime.year + 1900) 4 ++ (intToStringBuffer (tmTime.mon + 1) 2 ++
    (intToStringBuffer tmTime.mday 2 ++ (intToStringBuffer tmTime.hour 2 ++
      (intToStringBuffer tmTime.min 2 ++ (intToStringBuffer tmTime.sec 2 ++
        46 :: (intToStringBuffer (msTime.toNat % 1000 : Nat) 3 ++ [90]))))))

/-- A division by zero ends the program. -/
def divide (a b : Int) : Exec Int := if b = 0 then .error .assertion else .ok (a.tdiv b)

/-- What is added for the digits behind the point: a power of ten is made with them. -/
def millisecondsOf (rest : List UInt8) : Exec Int :=
  let digits := rest.takeWhile isDigit
  if 0 < digits.length then
    divide (i32 (digitsToInt rest digits.length * 1000))
      (digits.foldl (fun secondValue _ => i32 (secondValue * 10)) 1)
  else .ok 0

/-- `msOffset`, and where the parser is behind the fraction. -/
def parseFraction : List UInt8 → Exec (Int × List UInt8)
  | 46 :: rest => do return (← millisecondsOf rest, rest.dropWhile isDigit)
  | rest => .ok (0, rest)

def getSecondsOffset (offsetString : List UInt8) : Int :=
  let hourOffset := digitsToInt offsetString 2
  if hourOffset < 0 then -1
  else
    let minOffset := digitsToInt (offsetString.drop 2) 2
    if minOffset < 0 then -1 else hourOffset * (60 * 60) + minOffset * 60

/-- The seconds of the time, by what is behind the fraction. -/
def secondsInZone (lib : TimeLibrary) (tmTime : Tm) : List UInt8 → Option Int
  | [] => some (lib.mktime tmTime)
  | 90 :: _ => some (lib.timegm tmTime)
  | 43 :: offset => some (lib.timegm tmTime - getSecondsOffset offset)
  | 45 :: offset => some (lib.timegm tmTime + getSecondsOffset offset)
  | _ => none

/-- What is returned for a string that is none: -1. -/
def invalidTime : UInt64 := 0xffffffffffffffff

def generalizedTimeToMsTime (lib : TimeLibrary) (gtString : List UInt8) : Exec UInt64 :=
  if gtString.length < 14 then .ok invalidTime
  else
    let year := digitsToInt gtString 4
    let month := digitsToInt (gtString.drop 4) 2
    let day := digitsToInt (gtString.drop 6) 2
    let hour := digitsToInt (gtString.drop 8) 2
    let min := digitsToInt (gtString.drop 10) 2
    let seconds := digitsToInt (gtString.drop 12) 2
    if year < 0 ∨ month < 0 ∨ day < 0 ∨ hour < 0 ∨ min < 0 ∨ seconds < 0 then .ok invalidTime
    else do
      let (msOffset, parsePos) ← parseFraction (gtString.drop 14)
      match secondsInZone lib ⟨year - 1900, month - 1, day, hour, min, seconds⟩ parsePos with
      | none => return invalidTime
      | some t => return UInt64.ofInt (t * 1000 + msOffset)

/-! ## Numbers as digits -/

theorem digit_value {d : Nat} (h : d < 10) : (UInt8.ofInt ((d : Int) + 48)).toNat = d + 48 := by
  have hd : ((d : Int) + 48) = ((d + 48 : Nat) : Int) := by rw [Nat.cast_add]; rfl
  rw [hd]
  change (UInt8.ofNat _).toNat = d + 48
  rw [UInt8.toNat_ofNat']
  omega

theorem isDigit_of_lt {d : Nat} (h : d < 10) : isDigit (UInt8.ofInt ((d : Int) + 48)) = true := by
  have hvalue := digit_value h
  simp only [isDigit, Bool.and_eq_true, decide_eq_true_eq, UInt8.lt_iff_toNat_lt, hvalue]
  exact ⟨by change 47 < d + 48; omega, by change d + 48 < 58; omega⟩

@[simp] theorem length_decimalDigits (n : Nat) (remainder digitBase : Int) :
    (decimalDigits n remainder digitBase).length = n := by
  induction n generalizing remainder digitBase with
  | zero => rfl
  | succ n ih => rw [decimalDigits, List.length_cons, ih]

@[simp] theorem length_intToStringBuffer (intValue : Int) (n : Nat) :
    (intToStringBuffer intValue n).length = n := length_decimalDigits n _ _

/-- A digit and what is left of a number with `n + 1` digits. -/
theorem decimalDigits_succ (n r : Nat) :
    decimalDigits (n + 1) r (10 ^ n) =
      UInt8.ofInt ((r / 10 ^ n : Nat) + 48) ::
        decimalDigits n (r % 10 ^ n : Nat) (((10 : Int) ^ n).tdiv 10) := by
  rw [decimalDigits]
  have hpow : ((10 : Int) ^ n) = ((10 ^ n : Nat) : Int) := by push_cast; rfl
  rw [hpow, ← Int.ofNat_tdiv, ← Int.ofNat_tmod]

theorem tdiv_ten (n : Nat) : ((10 : Int) ^ (n + 1)).tdiv 10 = 10 ^ n := by
  rw [pow_succ]
  exact Int.mul_tdiv_cancel _ (by decide)

theorem isDigit_decimalDigits {n r : Nat} {digitBase : Int} (hr : r < 10 ^ n)
    (hbase : n ≠ 0 → digitBase = 10 ^ (n - 1)) :
    ∀ d ∈ decimalDigits n r digitBase, isDigit d = true := by
  induction n generalizing r digitBase with
  | zero => exact fun d hd => absurd hd List.not_mem_nil
  | succ n ih =>
    rw [hbase (Nat.succ_ne_zero n), Nat.add_sub_cancel, decimalDigits_succ]
    intro d hd
    rcases List.mem_cons.mp hd with rfl | hd
    · refine isDigit_of_lt (Nat.div_lt_of_lt_mul ?_)
      rwa [← pow_succ]
    · refine ih (Nat.mod_lt _ (by positivity)) ?_ d hd
      intro hn
      obtain ⟨m, rfl⟩ := Nat.exists_eq_succ_of_ne_zero hn
      exact tdiv_ten m

/-- Reading the digits of a number gives it back, behind what has been read. -/
theorem digitsFrom_decimalDigits {n r a : Nat} {digitBase : Int} (rest : List UInt8)
    (hr : r < 10 ^ n) (hbase : n ≠ 0 → digitBase = 10 ^ (n - 1))
    (ha : a * 10 ^ n + r < 2 ^ 31) :
    digitsFrom a n (decimalDigits n r digitBase ++ rest) = (a * 10 ^ n + r : Nat) := by
  induction n generalizing r a digitBase with
  | zero =>
    rw [pow_zero] at hr ha ⊢
    rw [Nat.lt_one_iff.mp hr, Nat.mul_one, Nat.add_zero]
    rfl
  | succ n ih =>
    have hdigit : r / 10 ^ n < 10 := Nat.div_lt_of_lt_mul (by rwa [← pow_succ])
    have hsplit : a * 10 ^ (n + 1) + r = (a * 10 + r / 10 ^ n) * 10 ^ n + r % 10 ^ n := by
      have hr := Nat.div_add_mod r (10 ^ n)
      calc
        a * 10 ^ (n + 1) + r = a * 10 ^ (n + 1) + (10 ^ n * (r / 10 ^ n) + r % 10 ^ n) := by
          rw [hr]
        _ = (a * 10 + r / 10 ^ n) * 10 ^ n + r % 10 ^ n := by ring
    rw [hsplit] at ha ⊢
    have hone : 1 ≤ 10 ^ n := Nat.one_le_pow _ _ (by decide)
    have hbound : a * 10 + r / 10 ^ n < 2 ^ 31 :=
      (Nat.le_mul_of_pos_right _ hone).trans_lt ((Nat.le_add_right _ _).trans_lt ha)
    rw [hbase (Nat.succ_ne_zero n), Nat.add_sub_cancel, decimalDigits_succ, List.cons_append,
      digitsFrom, if_pos (isDigit_of_lt hdigit), digit_value hdigit]
    have hvalue : i32 (i32 ((a : Int) * 10) + ((r / 10 ^ n + 48 : Nat) - 48)) =
        ((a * 10 + r / 10 ^ n : Nat) : Int) := by
      generalize r / 10 ^ n = d at hbound hdigit
      rw [i32_of_range (x := (a : Int) * 10) (by omega) (by omega),
        i32_of_range (by omega) (by omega)]
      push_cast
      ring
    rw [hvalue]
    refine ih (Nat.mod_lt _ (by positivity)) ?_ ha
    intro hn
    obtain ⟨m, rfl⟩ := Nat.exists_eq_succ_of_ne_zero hn
    exact tdiv_ten m

/-- The digits of a number are read back. -/
theorem digitsToInt_intToStringBuffer {n r : Nat} (rest : List UInt8) (hr : r < 10 ^ n)
    (hn : n ≤ 4) : digitsToInt (intToStringBuffer r n ++ rest) n = r := by
  have hpow : 10 ^ n ≤ 10 ^ 4 := Nat.pow_le_pow_right (by decide) hn
  have hread : digitsFrom (0 : Nat) n (intToStringBuffer r n ++ rest) =
      (0 * 10 ^ n + r : Nat) :=
    digitsFrom_decimalDigits rest hr (fun _ => rfl) (by omega)
  rw [Nat.zero_mul, Nat.zero_add] at hread
  exact hread

end Conversions

end Iec61850
