import Iec61850.Mms.Conversions
import Iec61850.Server.AttributeUpdates

/-! Times in milliseconds in the formats of MMS and IEC 61850: each of them gives the time back
that it was made from. -/

namespace Iec61850

open Machine

/-- A `Timestamp` (`iec61850_common.c`). -/
structure Timestamp where
  val : List UInt8
  val_length : val.length = 8

namespace Timestamp

/-- Seconds and fraction of the second. -/
def timeOctets (millisSinceEpoch : UInt64) : List UInt8 :=
  let remainder := (millisSinceEpoch % 1000).toNat
  Octets.ofNat 4 (millisSinceEpoch / 1000).toNat ++
    Octets.ofNat 3 (remainder * 16777 + remainder * 216 / 1000)

theorem length_timeOctets (millisSinceEpoch : UInt64) :
    (timeOctets millisSinceEpoch).length = 7 := by
  simp only [timeOctets, List.length_append, Octets.length_ofNat]

/-- The time quality is not touched. -/
def setTimeInMilliseconds (self : Timestamp) (millisSinceEpoch : UInt64) : Timestamp where
  val := timeOctets millisSinceEpoch ++ self.val.drop 7
  val_length := by
    rw [List.length_append, length_timeOctets, List.length_drop, self.val_length]

/-- Seconds and fraction of the octets of a time. -/
def millisOf (octets : List UInt8) : UInt64 :=
  let timeval := Octets.value (octets.take 4)
  let fractionOfSecond := Octets.value ((octets.drop 4).take 3)
  UInt64.ofNat (timeval * 1000 + fractionOfSecond / 16777)

def getTimeInMs (self : Timestamp) : UInt64 := millisOf self.val

end Timestamp

namespace MmsValue

/-- The days are only there in the long form. -/
def getBinaryTimeAsUtcMs : MmsValue → Option UInt64
  | .binaryTime t =>
    let timestamp : UInt64 :=
      if t.size = 6 then
        (Octets.value ((t.buf.drop 4).take 2)).toUInt64 * 86400000 + 441763200000
      else 0
    some (timestamp + (Octets.value (t.buf.take 4)).toUInt64)
  | _ => none

end MmsValue

/-! ## Fractions of a second -/

/-- The fraction that is stored for milliseconds has room in three octets. -/
theorem fraction_lt {r : Nat} (h : r < 1000) : r * 16777 + r * 216 / 1000 < 256 ^ 3 := by omega

/-- Dividing by the same factor loses the remainder only. -/
theorem fraction_div {r : Nat} (h : r < 1000) :
    (r * 16777 + r * 216 / 1000) / 16777 = r := by omega

namespace Timestamp

/-- Seconds, fraction and what is behind them are read again. -/
theorem millisOf_timeOctets {t : UInt64} (rest : List UInt8) (h : t.toNat / 1000 < 2 ^ 32) :
    millisOf (timeOctets t ++ rest) = t := by
  have hr : t.toNat % 1000 < 1000 := Nat.mod_lt _ (by decide)
  have hdiv : (t / 1000).toNat = t.toNat / 1000 := by rw [UInt64.toNat_div]; rfl
  have hmod : (t % 1000).toNat = t.toNat % 1000 := by rw [UInt64.toNat_mod]; rfl
  have hseconds : (timeOctets t ++ rest).take 4 = Octets.ofNat 4 (t.toNat / 1000) := by
    rw [timeOctets, List.append_assoc, hdiv]
    exact List.take_left' (Octets.length_ofNat 4 _)
  have hfraction : ((timeOctets t ++ rest).drop 4).take 3 =
      Octets.ofNat 3 (t.toNat % 1000 * 16777 + t.toNat % 1000 * 216 / 1000) := by
    rw [timeOctets, List.append_assoc, List.drop_left' (Octets.length_ofNat 4 _), hmod]
    exact List.take_left' (Octets.length_ofNat 3 _)
  rw [millisOf, hseconds, hfraction, Octets.value_ofNat_of_lt h,
    Octets.value_ofNat_of_lt (fraction_lt hr), fraction_div hr, Nat.mul_comm, Nat.div_add_mod]
  exact UInt64.ofNat_toNat

theorem getTimeInMs_setTimeInMilliseconds (self : Timestamp) {t : UInt64}
    (h : t.toNat / 1000 < 2 ^ 32) : (self.setTimeInMilliseconds t).getTimeInMs = t :=
  millisOf_timeOctets _ h

end Timestamp

namespace MmsValue

theorem getUtcTimeInMs_setUtcTimeMs (value : UtcTime) {t : UInt64}
    (h : t.toNat / 1000 < 2 ^ 32) :
    ((MmsValue.utcTime value).setUtcTimeMs t).getUtcTimeInMs = some t :=
  congrArg some (Timestamp.millisOf_timeOctets [0x0a] h)

/-- The number of days has room in two octets, and the milliseconds of the day in four. -/
theorem getBinaryTimeAsUtcMs_setBinaryTime {b : BinaryTime} {t : UInt64} (hsize : b.size = 6)
    (hfrom : 441763200000 ≤ t.toNat) (hto : t.toNat < 441763200000 + 65536 * 86400000) :
    ((MmsValue.binaryTime b).setBinaryTime t).getBinaryTimeAsUtcMs = some t := by
  have hmms : (t - 441763200000).toNat = t.toNat - 441763200000 := by
    rw [UInt64.toNat_sub_of_le]
    · rfl
    · exact UInt64.le_iff_toNat_le.mpr hfrom
  have hdays : ((t - 441763200000) / 86400000).toNat = (t.toNat - 441763200000) / 86400000 := by
    rw [UInt64.toNat_div, hmms]
    rfl
  have hms : ((t - 441763200000) % 86400000).toNat = (t.toNat - 441763200000) % 86400000 := by
    rw [UInt64.toNat_mod, hmms]
    rfl
  have hdayslt : (t.toNat - 441763200000) / 86400000 < 256 ^ 2 := by omega
  have hmslt : (t.toNat - 441763200000) % 86400000 < 256 ^ 4 := by omega
  obtain ⟨b', hset, hsize', hbuf⟩ : ∃ b', (MmsValue.binaryTime b).setBinaryTime t = .binaryTime b' ∧
      b'.size = b.size ∧ b'.buf = Octets.ofNat 4 ((t - 441763200000) % 86400000).toNat ++
        if b.size = 6 then Octets.ofNat 2 ((t - 441763200000) / 86400000).toNat
        else b.buf.drop 4 := ⟨_, rfl, rfl, rfl⟩
  rw [hset, getBinaryTimeAsUtcMs, hsize', hbuf, hdays, hms, if_pos hsize, if_pos hsize,
    List.drop_left' (Octets.length_ofNat 4 _),
    List.take_of_length_le (Octets.length_ofNat 2 _).le,
    List.take_left' (Octets.length_ofNat 4 _), Octets.value_ofNat_of_lt hdayslt,
    Octets.value_ofNat_of_lt hmslt]
  refine congrArg some (UInt64.toNat_inj.mp ?_)
  have hday : UInt64.toNat 86400000 = 86400000 := rfl
  have hbase : UInt64.toNat 441763200000 = 441763200000 := rfl
  simp only [UInt64.toNat_add, UInt64.toNat_mul, Nat.toUInt64_eq, UInt64.toNat_ofNat', hday, hbase]
  have ht := t.toNat_lt
  omega

end MmsValue

/-! ## Generalized time -/

namespace TimeLibrary

/-- The year has four digits. -/
def FourDigits (tm : Tm) : Prop := 0 ≤ tm.year + 1900 ∧ tm.year + 1900 < 10000

/-- What the documentation of the C library says of `gmtime_r` and `timegm`: the ranges of the
fields, and that the one function is the inverse of the other. -/
structure Calendar (lib : TimeLibrary) : Prop where
  mon : ∀ s, 0 ≤ (lib.gmtime_r s).mon ∧ (lib.gmtime_r s).mon ≤ 11
  mday : ∀ s, 1 ≤ (lib.gmtime_r s).mday ∧ (lib.gmtime_r s).mday ≤ 31
  hour : ∀ s, 0 ≤ (lib.gmtime_r s).hour ∧ (lib.gmtime_r s).hour ≤ 23
  min : ∀ s, 0 ≤ (lib.gmtime_r s).min ∧ (lib.gmtime_r s).min ≤ 59
  sec : ∀ s, 0 ≤ (lib.gmtime_r s).sec ∧ (lib.gmtime_r s).sec ≤ 60
  timegm : ∀ s, FourDigits (lib.gmtime_r s) → lib.timegm (lib.gmtime_r s) = s

end TimeLibrary

namespace Conversions

open StringUtils (isDigit)

variable {lib : TimeLibrary}

/-- The digits behind the point are the milliseconds. -/
theorem parseFraction_milliseconds {ms : Nat} (h : ms < 10 ^ 3) :
    parseFraction (46 :: (intToStringBuffer ms 3 ++ [90])) = .ok ((ms : Int), [90]) := by
  have hdigits : ∀ d ∈ intToStringBuffer ms 3, isDigit d = true :=
    isDigit_decimalDigits h fun _ => rfl
  have htake : (intToStringBuffer ms 3 ++ [90]).takeWhile isDigit = intToStringBuffer ms 3 := by
    rw [List.takeWhile_append_of_pos hdigits]
    exact List.append_nil _
  have hdrop : (intToStringBuffer ms 3 ++ [90]).dropWhile isDigit = [90] := by
    rw [List.dropWhile_append_of_pos hdigits]
    rfl
  have hlength : (intToStringBuffer ms 3).length = 3 := length_intToStringBuffer ms 3
  have hpower : (intToStringBuffer ms 3).foldl (fun secondValue _ => i32 (secondValue * 10)) 1 =
      1000 := by
    rw [intToStringBuffer]
    rfl
  have hvalue : i32 ((ms : Int) * 1000) = (ms : Int) * 1000 :=
    i32_of_range (by omega) (by omega)
  rw [parseFraction, millisecondsOf, htake, hdrop, hlength, if_pos (by decide),
    digitsToInt_intToStringBuffer [90] h (by decide), hpower, hvalue, divide,
    if_neg (by decide), Int.mul_tdiv_cancel _ (by decide)]
  rfl

/-- A number with two digits at a position, and the position behind it. -/
theorem twoDigits {s rest : List UInt8} {pos r : Nat} (hr : r < 10 ^ 2)
    (h : s.drop pos = intToStringBuffer r 2 ++ rest) :
    digitsToInt (s.drop pos) 2 = r ∧ s.drop (pos + 2) = rest := by
  constructor
  · rw [h]
    exact digitsToInt_intToStringBuffer rest hr (by decide)
  · rw [← List.drop_drop, h]
    exact List.drop_left' (length_intToStringBuffer r 2)

/-- The parser reads the fields that were printed. -/
theorem generalizedTimeToMsTime_fields {year mon day hour min sec ms : Nat} (hyear : year < 10 ^ 4)
    (hmon : mon < 10 ^ 2) (hday : day < 10 ^ 2) (hhour : hour < 10 ^ 2) (hmin : min < 10 ^ 2)
    (hsec : sec < 10 ^ 2) (hms : ms < 10 ^ 3) :
    generalizedTimeToMsTime lib
        (intToStringBuffer year 4 ++ (intToStringBuffer mon 2 ++ (intToStringBuffer day 2 ++
          (intToStringBuffer hour 2 ++ (intToStringBuffer min 2 ++ (intToStringBuffer sec 2 ++
            46 :: (intToStringBuffer ms 3 ++ [90]))))))) =
      .ok (UInt64.ofInt (lib.timegm ⟨year - 1900, mon - 1, day, hour, min, sec⟩ * 1000 + ms)) := by
  generalize hs : intToStringBuffer year 4 ++ (intToStringBuffer mon 2 ++
    (intToStringBuffer day 2 ++ (intToStringBuffer hour 2 ++ (intToStringBuffer min 2 ++
      (intToStringBuffer sec 2 ++ 46 :: (intToStringBuffer ms 3 ++ [90])))))) = s
  have hlength : s.length = 19 := by
    rw [← hs]
    simp
  have hyear' : digitsToInt s 4 = year := by
    rw [← hs]
    exact digitsToInt_intToStringBuffer _ hyear (by decide)
  have h4 := congrArg (List.drop 4) hs
  rw [List.drop_left' (length_intToStringBuffer year 4)] at h4
  obtain ⟨hmon', h6⟩ := twoDigits hmon h4.symm
  obtain ⟨hday', h8⟩ := twoDigits hday h6
  obtain ⟨hhour', h10⟩ := twoDigits hhour h8
  obtain ⟨hmin', h12⟩ := twoDigits hmin h10
  obtain ⟨hsec', h14⟩ := twoDigits hsec h12
  have hnonneg : ¬ ((year : Int) < 0 ∨ (mon : Int) < 0 ∨ (day : Int) < 0 ∨ (hour : Int) < 0 ∨
      (min : Int) < 0 ∨ (sec : Int) < 0) := by omega
  rw [generalizedTimeToMsTime, if_neg (by omega)]
  simp only [hyear', hmon', hday', hhour', hmin', hsec', h14]
  rw [if_neg hnonneg, parseFraction_milliseconds hms]
  rfl

/-- A time with a four-digit year is read back from its generalized time. -/
theorem generalizedTimeToMsTime_msTimeToGeneralizedTime (hlib : lib.Calendar) (t : UInt64)
    (hyear : TimeLibrary.FourDigits (lib.gmtime_r (t.toNat / 1000 : Nat))) :
    generalizedTimeToMsTime lib (msTimeToGeneralizedTime lib t) = .ok t := by
  have htimegm := hlib.timegm _ hyear
  have hmon := hlib.mon (t.toNat / 1000 : Nat)
  have hmday := hlib.mday (t.toNat / 1000 : Nat)
  have hhour := hlib.hour (t.toNat / 1000 : Nat)
  have hmin := hlib.min (t.toNat / 1000 : Nat)
  have hsec := hlib.sec (t.toNat / 1000 : Nat)
  rw [msTimeToGeneralizedTime]
  generalize lib.gmtime_r (t.toNat / 1000 : Nat) = tm at *
  obtain ⟨year, mon, mday, hour, min, sec⟩ := tm
  dsimp only at *
  obtain ⟨y, hy⟩ := Int.eq_ofNat_of_zero_le hyear.1
  obtain ⟨mo, hmo⟩ := Int.eq_ofNat_of_zero_le (show 0 ≤ mon + 1 by omega)
  obtain ⟨d, rfl⟩ := Int.eq_ofNat_of_zero_le (show 0 ≤ mday by omega)
  obtain ⟨h, rfl⟩ := Int.eq_ofNat_of_zero_le hhour.1
  obtain ⟨mi, rfl⟩ := Int.eq_ofNat_of_zero_le hmin.1
  obtain ⟨s, rfl⟩ := Int.eq_ofNat_of_zero_le hsec.1
  have hylt := hyear.2
  have hms : t.toNat % 1000 < 10 ^ 3 := Nat.mod_lt _ (by decide)
  have hsum : ((t.toNat / 1000 : Nat) : Int) * 1000 + (t.toNat % 1000 : Nat) = (t.toNat : Int) := by
    omega
  dsimp only at hy hylt
  rw [hy, hmo, generalizedTimeToMsTime_fields (by omega) (by omega) (by omega) (by omega)
    (by omega) (by omega) hms, show (y : Int) - 1900 = year by omega,
    show (mo : Int) - 1 = mon by omega, htimegm]
  rw [hsum]
  refine congrArg Except.ok (UInt64.toNat_inj.mp ?_)
  change (UInt64.ofNat _).toNat = t.toNat
  rw [UInt64.toNat_ofNat']
  have ht := t.toNat_lt
  omega

end Conversions

/-! ## The formats -/

/-- Each of the formats that has room for a time gives it back. -/
structure GivesBack (lib : TimeLibrary) (t : UInt64) : Prop where
  utcTime : t.toNat / 1000 < 2 ^ 32 → ∀ value : MmsValue.UtcTime,
    ((MmsValue.utcTime value).setUtcTimeMs t).getUtcTimeInMs = some t
  timestamp : t.toNat / 1000 < 2 ^ 32 → ∀ self : Timestamp,
    (self.setTimeInMilliseconds t).getTimeInMs = t
  binaryTime : 441763200000 ≤ t.toNat → t.toNat < 441763200000 + 65536 * 86400000 →
    ∀ b : MmsValue.BinaryTime, b.size = 6 →
      ((MmsValue.binaryTime b).setBinaryTime t).getBinaryTimeAsUtcMs = some t
  generalizedTime : TimeLibrary.FourDigits (lib.gmtime_r (t.toNat / 1000 : Nat)) →
    Conversions.generalizedTimeToMsTime lib (Conversions.msTimeToGeneralizedTime lib t) = .ok t

theorem timeCodecs_giveBack (lib : TimeLibrary) (hlib : lib.Calendar) (t : UInt64) :
    GivesBack lib t where
  utcTime := fun h value => MmsValue.getUtcTimeInMs_setUtcTimeMs value h
  timestamp := fun h self => self.getTimeInMs_setTimeInMilliseconds h
  binaryTime := fun hfrom hto _ hsize =>
    MmsValue.getBinaryTimeAsUtcMs_setBinaryTime hsize hfrom hto
  generalizedTime := Conversions.generalizedTimeToMsTime_msTimeToGeneralizedTime hlib t

/-- A calendar that is right in January 1984; all its months have 31 days. -/
def januaryLibrary : TimeLibrary where
  gmtime_r := fun s =>
    { year := 84 + (s - 441763200) / 32140800
      mon := (s - 441763200) % 32140800 / 2678400
      mday := (s - 441763200) % 2678400 / 86400 + 1
      hour := (s - 441763200) % 86400 / 3600
      min := (s - 441763200) % 3600 / 60
      sec := (s - 441763200) % 60 }
  timegm := fun tm => 441763200 + (tm.year - 84) * 32140800 + tm.mon * 2678400 +
    (tm.mday - 1) * 86400 + tm.hour * 3600 + tm.min * 60 + tm.sec
  mktime := fun tm => 441763200 + (tm.year - 84) * 32140800 + tm.mon * 2678400 +
    (tm.mday - 1) * 86400 + tm.hour * 3600 + tm.min * 60 + tm.sec

theorem calendar_january : januaryLibrary.Calendar where
  mon := fun s => by dsimp only [januaryLibrary]; omega
  mday := fun s => by dsimp only [januaryLibrary]; omega
  hour := fun s => by dsimp only [januaryLibrary]; omega
  min := fun s => by dsimp only [januaryLibrary]; omega
  sec := fun s => by dsimp only [januaryLibrary]; omega
  timegm := fun s _ => by dsimp only [januaryLibrary]; omega

theorem timeCodecs_giveBack_1984 : GivesBack januaryLibrary 441763200123 :=
  timeCodecs_giveBack januaryLibrary calendar_january 441763200123

end Iec61850
