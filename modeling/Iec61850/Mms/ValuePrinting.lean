import Iec61850.Lib.Decimal
import Iec61850.Lib.TextBuffer
import Iec61850.Mms.BitStrings
import Iec61850.Mms.IntegerCodec
import Iec61850.Mms.TimeCodecs

/-! `MmsValue_printToBuffer` (`mms_value.c`). A buffer is what there is from the address of the
first character on, up to the end that its size gives. -/

namespace Iec61850

open Machine TextBuffer

/-- The functions of the C library that printing depends on: `%f`, and dates for times in seconds
until long after the last one that a value can hold. -/
structure Printer where
  formatFloat : MmsValue.FloatingPoint → MmsValue.CString
  lib : TimeLibrary
  calendar : lib.Calendar
  fourDigits : ∀ seconds : Nat, seconds < 2 ^ 33 → TimeLibrary.FourDigits (lib.gmtime_r seconds)

namespace MmsValue

def hexDigit (n : Nat) : UInt8 := UInt8.ofNat (if n < 10 then n + 48 else n + 87)

/-- `%02x` -/
def hexOctets (octet : UInt8) : List UInt8 :=
  [hexDigit (octet.toNat / 16), hexDigit (octet.toNat % 16)]

/-- The loop for octet strings. -/
def printOctets (buffer : List UInt8) (bufferSize bufPos : Nat) : List UInt8 → Exec (List UInt8)
  | [] => .ok buffer
  | octet :: octets => do
    let buffer ← snprintf buffer bufPos (bufferSize - bufPos) (hexOctets octet)
    if bufferSize ≤ bufPos + 2 then return buffer
    else printOctets buffer bufferSize (bufPos + 2) octets

/-- The characters of a bit string. -/
def bitCharacters (b : BitString) : List UInt8 :=
  (List.range b.size).map fun i => if (MmsValue.bitString b).getBitStringBit i then 49 else 48

def booleanText (b : Bool) : List UInt8 := if b then ascii "true" else ascii "false"

def errorText (e : MmsDataAccessError) : List UInt8 := ascii "error " ++ Decimal.ofInt e.code

section

variable (p : Printer)

/-- `Conversions_msTimeToGeneralizedTime`; the zeros behind the numbers are overwritten. -/
def putTime (buffer : List UInt8) (msTime : Option UInt64) : Exec (List UInt8) :=
  putChars buffer 0 (Conversions.msTimeToGeneralizedTime p.lib (msTime.getD 0) ++ [0])

mutual

def printToBuffer : MmsValue → List UInt8 → Nat → Exec (List UInt8)
  | .structured components, buffer, bufferSize => do
    printElements components (← putChars buffer 0 [123]) bufferSize 1
  | .array elements, buffer, bufferSize => do
    printElements elements (← putChars buffer 0 [123]) bufferSize 1
  | .binaryTime t, buffer, _ => putTime p buffer (getBinaryTimeAsUtcMs (.binaryTime t))
  | .bitString b, buffer, _ => putChars buffer 0 (bitCharacters b ++ [0])
  | .boolean b, buffer, bufferSize => strncpy buffer (booleanText b) bufferSize
  | .dataAccessError e, buffer, bufferSize => snprintf buffer 0 bufferSize (errorText e)
  | .float f, buffer, bufferSize => snprintf buffer 0 bufferSize (p.formatFloat f).octets
  | .integer v, buffer, bufferSize =>
    snprintf buffer 0 bufferSize (Decimal.ofInt (toInt32 (.integer v)).toInt)
  | .octetString o, buffer, bufferSize => printOctets buffer bufferSize 0 o.content
  | .unsigned v, buffer, bufferSize =>
    snprintf buffer 0 bufferSize (Decimal.octets (toUint32 (.unsigned v)).toNat)
  | .utcTime t, buffer, _ => putTime p buffer (getUtcTimeInMs (.utcTime t))
  | .mmsString (some s), buffer, bufferSize => strncpy buffer s.octets bufferSize
  | .visibleString (some s), buffer, bufferSize => strncpy buffer s.octets bufferSize
  | .mmsString none, _, _ => .error .nullPointer
  | .visibleString none, _, _ => .error .nullPointer

/-- The loop over the elements, and the brace behind it. -/
def printElements : List MmsValue → List UInt8 → Nat → Nat → Exec (List UInt8)
  | [], buffer, _, bufPos => putChars buffer bufPos [125, 0]
  | v :: vs, buffer, bufferSize, bufPos => do
    let currentStr ← printToBuffer v (buffer.drop bufPos) (bufferSize - bufPos)
    let buffer := buffer.take bufPos ++ currentStr
    let bufPos := bufPos + (← strlen currentStr)
    if bufferSize ≤ bufPos then putChars buffer bufPos [125, 0]
    else if vs.isEmpty then printElements vs buffer bufferSize bufPos
    else printElements vs (← putChars buffer bufPos [44]) bufferSize (bufPos + 1)

end

end

/-! ## What is printed -/

section

variable (p : Printer)

def timeText (msTime : Option UInt64) : List UInt8 :=
  Conversions.msTimeToGeneralizedTime p.lib (msTime.getD 0)

mutual

/-- The whole text, as if there was room for it. -/
def text : MmsValue → List UInt8
  | .structured components => 123 :: elementsText components
  | .array elements => 123 :: elementsText elements
  | .binaryTime t => timeText p (getBinaryTimeAsUtcMs (.binaryTime t))
  | .bitString b => bitCharacters b
  | .boolean b => booleanText b
  | .dataAccessError e => errorText e
  | .float f => (p.formatFloat f).octets
  | .integer v => Decimal.ofInt (toInt32 (.integer v)).toInt
  | .octetString o => o.content.flatMap hexOctets
  | .unsigned v => Decimal.octets (toUint32 (.unsigned v)).toNat
  | .utcTime t => timeText p (getUtcTimeInMs (.utcTime t))
  | .mmsString s => s.elim [] (·.octets)
  | .visibleString s => s.elim [] (·.octets)

def elementsText : List MmsValue → List UInt8
  | [] => [125]
  | v :: vs => text v ++ ((if vs.isEmpty then [] else [44]) ++ elementsText vs)

end

end

mutual

/-- Whether zeros fill the buffer behind the text, if they did in front of it or not: a string
that is copied puts them there. Without them an empty octet string shows what there is in the
buffer, and what is no string at all is not copied. -/
def zeros (filled : Bool) : MmsValue → Option Bool
  | .structured components => zerosOf filled components
  | .array elements => zerosOf filled elements
  | .boolean _ => some true
  | .octetString o => if o.size = 0 ∧ filled = false then none else some filled
  | .mmsString s => s.map fun _ => true
  | .visibleString s => s.map fun _ => true
  | _ => some filled

def zerosOf (filled : Bool) : List MmsValue → Option Bool
  | [] => some filled
  | v :: vs => (zeros filled v).bind fun filled => zerosOf filled vs

end

/-- Numbers and octets are cut off at the end of the buffer. -/
def Truncates : MmsValue → Prop
  | .integer _ => True
  | .unsigned _ => True
  | .float _ => True
  | .dataAccessError _ => True
  | .octetString o => o.size ≠ 0
  | _ => False

/-- Whatever there is in the buffer: no other octets are written, and a zero ends the string. -/
def PrintsInside (p : Printer) (v : MmsValue) (bufferSize : Nat) : Prop :=
  ∀ buffer : List UInt8, buffer.length = bufferSize →
    ∃ result, printToBuffer p v buffer bufferSize = .ok result ∧ 0 ∈ result

/-- The text has room with its zero, or it is one that is cut off. -/
def Printable (p : Printer) (v : MmsValue) (bufferSize : Nat) : Prop :=
  v.Truncates ∨ ((zeros false v).isSome = true ∧ (text p v).length < bufferSize)

end MmsValue

namespace MmsValue

/-! ## Texts without zeros -/

section

theorem zero_notMem_timeText (p : Printer) {msTime : Option UInt64}
    (h : (msTime.getD 0).toNat / 1000 < 2 ^ 33) : 0 ∉ timeText p msTime := by
  have hyear := p.fourDigits _ h
  have hmon := p.calendar.mon ((msTime.getD 0).toNat / 1000 : Nat)
  have hmday := p.calendar.mday ((msTime.getD 0).toNat / 1000 : Nat)
  have hhour := p.calendar.hour ((msTime.getD 0).toNat / 1000 : Nat)
  have hmin := p.calendar.min ((msTime.getD 0).toNat / 1000 : Nat)
  have hsec := p.calendar.sec ((msTime.getD 0).toNat / 1000 : Nat)
  have hms := Nat.mod_lt (msTime.getD 0).toNat (show 1000 > 0 by decide)
  have hdigits {x : Int} {n : Nat} (hx : 0 ≤ x) (hn : x < 10 ^ n) :
      0 ∉ Conversions.intToStringBuffer x n := by
    obtain ⟨r, rfl⟩ := Int.eq_ofNat_of_zero_le hx
    intro hzero
    have hr : r < 10 ^ n := by exact_mod_cast hn
    cases Conversions.isDigit_decimalDigits hr (fun _ => rfl) 0 hzero
  unfold timeText Conversions.msTimeToGeneralizedTime
  simp only [List.mem_append, List.mem_cons, List.not_mem_nil, not_or]
  refine ⟨hdigits hyear.1 (hyear.2.trans_le (by decide)), ?_, ?_, ?_, ?_, ?_, by decide, ?_,
    by decide, not_false⟩
  · exact hdigits (by omega) (by omega)
  · exact hdigits (by omega) (by omega)
  · exact hdigits hhour.1 (by omega)
  · exact hdigits hmin.1 (by omega)
  · exact hdigits hsec.1 (by omega)
  · exact hdigits (Int.natCast_nonneg _) (by omega)

theorem seconds_binaryTime_lt (t : BinaryTime) :
    ((getBinaryTimeAsUtcMs (.binaryTime t)).getD 0).toNat / 1000 < 2 ^ 33 := by
  have hms : Octets.value (t.buf.take 4) < 256 ^ 4 := by
    simpa [t.buf_length] using Octets.value_lt (t.buf.take 4)
  have hdays : Octets.value ((t.buf.drop 4).take 2) < 256 ^ 2 := by
    simpa [t.buf_length] using Octets.value_lt ((t.buf.drop 4).take 2)
  have hday : UInt64.toNat 86400000 = 86400000 := rfl
  have hbase : UInt64.toNat 441763200000 = 441763200000 := rfl
  simp only [getBinaryTimeAsUtcMs, Option.getD_some]
  generalize Octets.value (t.buf.take 4) = ms at hms
  generalize Octets.value ((t.buf.drop 4).take 2) = days at hdays
  split
  · have hle : (days.toUInt64 * 86400000 + 441763200000 + ms.toUInt64).toNat ≤
        days * 86400000 + 441763200000 + ms := by
      simp only [UInt64.toNat_add, UInt64.toNat_mul, Nat.toUInt64_eq, UInt64.toNat_ofNat', hday,
        hbase]
      refine (Nat.mod_le _ _).trans (Nat.add_le_add ((Nat.mod_le _ _).trans ?_) (Nat.mod_le _ _))
      exact Nat.add_le_add_right
        ((Nat.mod_le _ _).trans (Nat.mul_le_mul_right _ (Nat.mod_le _ _))) _
    refine (Nat.div_le_div_right hle).trans_lt ?_
    omega
  · rw [UInt64.zero_add, Nat.toUInt64_eq, UInt64.toNat_ofNat']
    refine (Nat.div_le_div_right (Nat.mod_le _ _)).trans_lt ?_
    omega

theorem seconds_utcTime_lt (t : UtcTime) :
    ((getUtcTimeInMs (.utcTime t)).getD 0).toNat / 1000 < 2 ^ 33 := by
  have hseconds : Octets.value (t.octets.take 4) < 256 ^ 4 := by
    simpa [t.octets_length] using Octets.value_lt (t.octets.take 4)
  have hfraction : Octets.value ((t.octets.drop 4).take 3) < 256 ^ 3 := by
    simpa [t.octets_length] using Octets.value_lt ((t.octets.drop 4).take 3)
  change (Timestamp.millisOf t.octets).toNat / 1000 < 2 ^ 33
  rw [Timestamp.millisOf, UInt64.toNat_ofNat']
  refine (Nat.div_le_div_right (Nat.mod_le _ _)).trans_lt ?_
  omega

theorem zero_notMem_hexOctets (octets : List UInt8) : 0 ∉ octets.flatMap hexOctets := by
  have hdigit : ∀ n < 16, hexDigit n ≠ 0 := by decide
  intro h
  obtain ⟨octet, -, hmem⟩ := List.mem_flatMap.mp h
  have hlt := octet.toNat_lt
  obtain h | h := List.mem_pair.mp hmem
  · exact hdigit _ (by omega) h.symm
  · exact hdigit _ (Nat.mod_lt _ (by decide)) h.symm

theorem zero_notMem_bitCharacters (b : BitString) : 0 ∉ bitCharacters b := by
  intro h
  obtain ⟨i, -, hi⟩ := List.mem_map.mp h
  split at hi <;> cases hi

theorem zero_notMem_booleanText (b : Bool) : 0 ∉ booleanText b := by
  cases b <;> decide

theorem zero_notMem_elementsText (p : Printer) {vs : List MmsValue}
    (h : ∀ v ∈ vs, 0 ∉ text p v) : 0 ∉ elementsText p vs := by
  induction vs with
  | nil => exact (by decide : (0 : UInt8) ∉ [125])
  | cons v vs ih =>
    obtain ⟨hv, hvs⟩ := List.forall_mem_cons.mp h
    rw [elementsText, List.mem_append, List.mem_append]
    refine not_or.mpr ⟨hv, not_or.mpr ⟨?_, ih hvs⟩⟩
    split <;> decide

theorem zero_notMem_text (p : Printer) (v : MmsValue) : 0 ∉ text p v := by
  induction v using tree_induction with
  | array vs ih =>
    rw [text, List.mem_cons]
    exact not_or.mpr ⟨by decide, zero_notMem_elementsText p ih⟩
  | structured vs ih =>
    rw [text, List.mem_cons]
    exact not_or.mpr ⟨by decide, zero_notMem_elementsText p ih⟩
  | leaf v hleaf =>
    cases v with
    | array => exact hleaf.elim
    | structured => exact hleaf.elim
    | boolean b => exact zero_notMem_booleanText b
    | bitString b => exact zero_notMem_bitCharacters b
    | integer v => exact Decimal.zero_notMem_ofInt _
    | unsigned v => exact Decimal.zero_notMem_octets _
    | float f => exact (p.formatFloat f).noZero
    | octetString o => exact zero_notMem_hexOctets _
    | visibleString s =>
      cases s with
      | none => exact List.not_mem_nil
      | some s => exact s.noZero
    | mmsString s =>
      cases s with
      | none => exact List.not_mem_nil
      | some s => exact s.noZero
    | binaryTime t => exact zero_notMem_timeText p (seconds_binaryTime_lt t)
    | utcTime t => exact zero_notMem_timeText p (seconds_utcTime_lt t)
    | dataAccessError e =>
      intro h
      obtain h | h := List.mem_append.mp h
      · revert h
        decide
      · exact Decimal.zero_notMem_ofInt _ h

end

/-! ## Octet strings -/

section

variable {rest octets : List UInt8}

theorem cut_hexOctets (octet : UInt8) (h : 2 < rest.length) (cs : List UInt8) :
    cut (hexOctets octet ++ cs) rest = hexOctets octet ++ cut cs (0 :: rest.drop 3) := by
  have hlength : (0 :: rest.drop 3).length - 1 + 2 = rest.length - 1 := by
    rw [List.length_cons, List.length_drop]
    omega
  have htake : (hexOctets octet ++ cs).take (rest.length - 1) =
      hexOctets octet ++ cs.take ((0 :: rest.drop 3).length - 1) := by
    rw [← hlength]
    rfl
  unfold cut
  rw [htake, List.append_assoc, List.length_append]
  congr 3
  rw [List.drop_succ_cons, List.drop_drop]
  congr 1
  change 2 + _ + 1 = 3 + _
  omega

theorem printOctets_append (front : List UInt8) (hrest : rest ≠ []) (hne : octets ≠ []) :
    printOctets (front ++ rest) (front.length + rest.length) front.length octets =
      .ok (front ++ cut (octets.flatMap hexOctets) rest) := by
  induction octets generalizing front rest with
  | nil => exact absurd rfl hne
  | cons octet octets ih =>
    rw [printOctets, Nat.add_sub_cancel_left, snprintf_append front hrest]
    change (if _ then _ else _) = _
    by_cases hend : front.length + rest.length ≤ front.length + 2
    · have hshort : rest.length - 1 ≤ (hexOctets octet).length := by
        change rest.length - 1 ≤ 2
        omega
      rw [if_pos hend, List.flatMap_cons, cut, cut, List.take_append_of_le_length hshort]
      rfl
    · rw [if_neg hend]
      have hlong : 2 < rest.length := by omega
      have hshown := cut_hexOctets octet hlong []
      rw [List.append_nil] at hshown
      have hempty : cut [] (0 :: rest.drop 3) = 0 :: rest.drop 3 := by simp [cut]
      have hfront : front.length + 2 = (front ++ hexOctets octet).length := by
        rw [List.length_append]
        rfl
      have hsize : front.length + rest.length =
          (front ++ hexOctets octet).length + (0 :: rest.drop 3).length := by
        rw [← hfront, List.length_cons, List.length_drop]
        omega
      rw [hshown, hempty, List.flatMap_cons, cut_hexOctets octet hlong, ← List.append_assoc,
        ← List.append_assoc]
      cases octets with
      | nil =>
        rw [List.flatMap_nil, hempty]
        rfl
      | cons next octets =>
        rw [hsize, hfront]
        exact ih (front ++ hexOctets octet) (List.cons_ne_nil _ _) (List.cons_ne_nil _ _)

end

/-! ## What is behind a text -/

/-- The buffer from a position on, where zeros fill it or nothing has been written. -/
def behind (filled : Bool) (rest : List UInt8) (n : Nat) : List UInt8 :=
  if filled then List.replicate (rest.length - n) 0 else rest.drop n

section

variable {filled filled' : Bool} {rest : List UInt8}

theorem length_behind (filled : Bool) (rest : List UInt8) (n : Nat) :
    (behind filled rest n).length = rest.length - n := by
  cases filled with
  | false => exact List.length_drop
  | true => exact List.length_replicate

theorem behind_zeros (n : Nat) : filled = true → ∀ c ∈ behind filled rest n, c = 0 := by
  rintro rfl c hc
  exact List.eq_of_mem_replicate hc

theorem behind_of_zeros (h : filled = true → ∀ c ∈ rest, c = 0) (n : Nat) :
    behind filled rest n = rest.drop n := by
  cases filled with
  | false => rfl
  | true =>
    refine (List.eq_replicate_iff.mpr ⟨List.length_drop, ?_⟩).symm
    exact fun c hc => h rfl c (List.mem_of_mem_drop hc)

theorem behind_behind (h : filled' = false → filled = false) (m n : Nat) :
    behind filled' (behind filled rest m) n = behind filled' rest (m + n) := by
  cases filled' with
  | false =>
    rw [h rfl]
    exact List.drop_drop
  | true =>
    change List.replicate ((behind filled rest m).length - n) (0 : UInt8) = _
    rw [length_behind, Nat.sub_sub]
    rfl

theorem behind_cons (filled : Bool) (c : UInt8) (rest : List UInt8) (n : Nat) :
    behind filled (c :: rest) (n + 1) = behind filled rest n := by
  cases filled with
  | false => rfl
  | true =>
    unfold behind
    rw [List.length_cons, Nat.add_sub_add_right]
    rfl

theorem zerosOf_eq_false {vs : List MmsValue}
    (h : ∀ v ∈ vs, ∀ filled, zeros filled v = some false → filled = false)
    (hvs : zerosOf filled vs = some false) : filled = false := by
  induction vs generalizing filled with
  | nil => exact Option.some.inj hvs
  | cons v vs ih =>
    obtain ⟨hv, htail⟩ := List.forall_mem_cons.mp h
    obtain ⟨between, hbetween, hrest⟩ := Option.bind_eq_some_iff.mp hvs
    rw [ih htail hrest] at hbetween
    exact hv filled hbetween

/-- Zeros that are there stay there. -/
theorem zeros_eq_false {v : MmsValue} (h : zeros filled v = some false) : filled = false := by
  induction v using tree_induction generalizing filled with
  | array vs ih => exact zerosOf_eq_false (fun v hv _ h => ih v hv h) h
  | structured vs ih => exact zerosOf_eq_false (fun v hv _ h => ih v hv h) h
  | leaf v hleaf =>
    cases v with
    | array => exact hleaf.elim
    | structured => exact hleaf.elim
    | boolean => cases h
    | visibleString s => cases s <;> cases h
    | mmsString s => cases s <;> cases h
    | octetString o =>
      simp only [zeros] at h
      split at h
      · cases h
      · exact Option.some.inj h
    | _ => exact Option.some.inj h

end

/-! ## Single values -/

section

variable (p : Printer) {v : MmsValue} {filled filled' : Bool} {rest : List UInt8}

theorem print_of_truncates (h : v.Truncates) (hrest : rest ≠ []) :
    printToBuffer p v rest rest.length = .ok (cut (text p v) rest) := by
  cases v with
  | integer v => exact snprintf_append [] hrest
  | unsigned v => exact snprintf_append [] hrest
  | float f => exact snprintf_append [] hrest
  | dataAccessError e => exact snprintf_append [] hrest
  | octetString o =>
    have hne : o.content ≠ [] := by
      rw [← List.length_pos_iff, OctetString.length_content]
      exact Nat.pos_of_ne_zero h
    have hprint := printOctets_append [] hrest hne
    rw [List.length_nil, Nat.zero_add] at hprint
    exact hprint
  | _ => exact h.elim

theorem print_nil_of_truncates (h : v.Truncates) : printToBuffer p v [] 0 = .ok [] := by
  cases v with
  | integer v => rfl
  | unsigned v => rfl
  | float f => rfl
  | dataAccessError e => rfl
  | octetString o =>
    rw [printToBuffer]
    cases o.content <;> rfl
  | _ => exact h.elim

theorem zeros_of_truncates (h : v.Truncates) (filled : Bool) : zeros filled v = some filled := by
  cases v with
  | integer v => rfl
  | unsigned v => rfl
  | float f => rfl
  | dataAccessError e => rfl
  | octetString o =>
    rw [zeros, if_neg fun hempty => h hempty.1]
  | _ => exact h.elim

/-- The text and what is behind it, if there is room for it. -/
def PrintsWell (v : MmsValue) : Prop :=
  ∀ filled filled' rest, zeros filled v = some filled' → (filled = true → ∀ c ∈ rest, c = 0) →
    (text p v).length < rest.length →
    printToBuffer p v rest rest.length =
      .ok (text p v ++ 0 :: behind filled' rest ((text p v).length + 1))

/-- A fault, or a string without an end. -/
def Stuck (result : Exec (List UInt8)) : Prop :=
  (∃ e, result = .error e) ∨ ∃ b, result = .ok b ∧ 0 ∉ b

/-- What happens where there is no room for the text, in a buffer without other zeros. -/
def GetsStuck (v : MmsValue) : Prop :=
  ∀ filled rest, ¬ v.Truncates → (filled = true → ∀ c ∈ rest, c = 0) →
    (filled = false → 0 ∉ rest) → (zeros filled v = none ∨ rest.length ≤ (text p v).length) →
    Stuck (printToBuffer p v rest rest.length)

variable {p}

theorem printsWell_of_truncates (h : v.Truncates) : PrintsWell p v := by
  intro filled filled' rest hzeros hfilled hlength
  cases (zeros_of_truncates h filled).symm.trans hzeros
  have hrest : rest ≠ [] := List.length_pos_iff.mp (Nat.zero_lt_of_lt hlength)
  rw [print_of_truncates p h hrest, cut_fits hlength, behind_of_zeros hfilled]

/-- A text that is written with its zero. -/
theorem printsWell_of_putChars
    (hprint : ∀ rest, printToBuffer p v rest rest.length = putChars rest 0 (text p v ++ [0]))
    (hzeros : ∀ filled, zeros filled v = some filled) : PrintsWell p v := by
  intro filled filled' rest hfilled' hfilled hlength
  cases (hzeros filled).symm.trans hfilled'
  rw [hprint, putChars_text hlength, behind_of_zeros hfilled]

/-- A text that is copied. -/
theorem printsWell_of_strncpy
    (hprint : ∀ rest, printToBuffer p v rest rest.length = strncpy rest (text p v) rest.length)
    (hzeros : ∀ filled, zeros filled v = some true) : PrintsWell p v := by
  intro filled filled' rest hfilled' _ hlength
  cases (hzeros filled).symm.trans hfilled'
  rw [hprint, strncpy_fits hlength]
  rfl

theorem printsWell_emptyOctetString {o : OctetString} (h : o.size = 0) :
    PrintsWell p (.octetString o) := by
  have hcontent : o.content = [] := by
    rw [← List.length_eq_zero_iff, OctetString.length_content, h]
  have htext : text p (.octetString o) = [] := by rw [text, hcontent]; rfl
  intro filled filled' rest hzeros hfilled hlength
  rw [htext] at hlength ⊢
  cases filled with
  | false =>
    rw [zeros, if_pos ⟨h, rfl⟩] at hzeros
    cases hzeros
  | true =>
    rw [zeros, if_neg fun hempty => Bool.noConfusion hempty.2] at hzeros
    cases hzeros
    rw [printToBuffer, hcontent, List.nil_append]
    cases rest with
    | nil => cases hlength
    | cons c rest =>
      obtain ⟨rfl, hrest⟩ := List.forall_mem_cons.mp (hfilled rfl)
      rw [behind_cons, behind_of_zeros fun _ => hrest]
      rfl

theorem printsWell_leaf (hleaf : v.IsLeaf) : PrintsWell p v := by
  cases v with
  | array => exact hleaf.elim
  | structured => exact hleaf.elim
  | boolean b => exact printsWell_of_strncpy (fun _ => rfl) fun _ => rfl
  | bitString b => exact printsWell_of_putChars (fun _ => rfl) fun _ => rfl
  | integer v => exact printsWell_of_truncates trivial
  | unsigned v => exact printsWell_of_truncates trivial
  | float f => exact printsWell_of_truncates trivial
  | dataAccessError e => exact printsWell_of_truncates trivial
  | binaryTime t => exact printsWell_of_putChars (fun _ => rfl) fun _ => rfl
  | utcTime t => exact printsWell_of_putChars (fun _ => rfl) fun _ => rfl
  | octetString o =>
    by_cases h : o.size = 0
    · exact printsWell_emptyOctetString h
    · exact printsWell_of_truncates h
  | visibleString s =>
    cases s with
    | none => exact fun _ _ _ hzeros => by cases hzeros
    | some s => exact printsWell_of_strncpy (fun _ => rfl) fun _ => rfl
  | mmsString s =>
    cases s with
    | none => exact fun _ _ _ hzeros => by cases hzeros
    | some s => exact printsWell_of_strncpy (fun _ => rfl) fun _ => rfl

theorem getsStuck_of_putChars
    (hprint : ∀ rest, printToBuffer p v rest rest.length = putChars rest 0 (text p v ++ [0]))
    (hzeros : ∀ filled, zeros filled v = some filled) : GetsStuck p v := by
  intro filled rest _ _ _ hbad
  have hlength := hbad.resolve_left fun hnone => by rw [hzeros] at hnone; cases hnone
  rw [hprint, putChars_text_outOfBounds hlength]
  exact .inl ⟨_, rfl⟩

theorem getsStuck_of_strncpy
    (hprint : ∀ rest, printToBuffer p v rest rest.length = strncpy rest (text p v) rest.length)
    (hzeros : ∀ filled, zeros filled v = some true) : GetsStuck p v := by
  intro filled rest _ _ _ hbad
  have hlength := hbad.resolve_left fun hnone => by rw [hzeros] at hnone; cases hnone
  rw [hprint, strncpy_full hlength]
  exact .inr ⟨_, rfl, fun hmem => zero_notMem_text p v (List.mem_of_mem_take hmem)⟩

theorem getsStuck_octetString (o : OctetString) : GetsStuck p (.octetString o) := by
  intro filled rest htruncates _ hbare hbad
  have hsize : o.size = 0 := not_not.mp htruncates
  have hcontent : o.content = [] := by
    rw [← List.length_eq_zero_iff, OctetString.length_content, hsize]
  refine .inr ⟨rest, by rw [printToBuffer, hcontent]; rfl, ?_⟩
  cases filled with
  | false => exact hbare rfl
  | true =>
    rw [zeros, if_neg fun hempty => Bool.noConfusion hempty.2, text, hcontent] at hbad
    have hlength := hbad.resolve_left fun hnone => by cases hnone
    rw [List.eq_nil_of_length_eq_zero (Nat.eq_zero_of_le_zero hlength)]
    exact List.not_mem_nil

theorem getsStuck_leaf (hleaf : v.IsLeaf) : GetsStuck p v := by
  cases v with
  | array => exact hleaf.elim
  | structured => exact hleaf.elim
  | boolean b => exact getsStuck_of_strncpy (fun _ => rfl) fun _ => rfl
  | bitString b => exact getsStuck_of_putChars (fun _ => rfl) fun _ => rfl
  | integer v => exact fun _ _ h => absurd trivial h
  | unsigned v => exact fun _ _ h => absurd trivial h
  | float f => exact fun _ _ h => absurd trivial h
  | dataAccessError e => exact fun _ _ h => absurd trivial h
  | binaryTime t => exact getsStuck_of_putChars (fun _ => rfl) fun _ => rfl
  | utcTime t => exact getsStuck_of_putChars (fun _ => rfl) fun _ => rfl
  | octetString o => exact getsStuck_octetString o
  | visibleString s =>
    cases s with
    | none => exact fun _ _ _ _ _ _ => .inl ⟨_, rfl⟩
    | some s => exact getsStuck_of_strncpy (fun _ => rfl) fun _ => rfl
  | mmsString s =>
    cases s with
    | none => exact fun _ _ _ _ _ _ => .inl ⟨_, rfl⟩
    | some s => exact getsStuck_of_strncpy (fun _ => rfl) fun _ => rfl

end

/-! ## Elements -/

section

variable {p : Printer} {v : MmsValue} {vs : List MmsValue} {rest t s : List UInt8}

theorem printElements_cons (front : List UInt8) (vs : List MmsValue)
    (hprint : printToBuffer p v rest rest.length = .ok (t ++ 0 :: s)) (ht : 0 ∉ t)
    (hlength : t.length < rest.length) :
    printElements p (v :: vs) (front ++ rest) (front.length + rest.length) front.length =
      if vs.isEmpty then
        printElements p vs ((front ++ t) ++ 0 :: s) (front.length + rest.length)
          (front ++ t).length
      else
        printElements p vs ((front ++ t ++ [44]) ++ s) (front.length + rest.length)
          (front ++ t ++ [44]).length := by
  have hput : putChars ((front ++ t) ++ 0 :: s) (front ++ t).length [44] =
      .ok ((front ++ t) ++ ([44] ++ s)) := putChars_append (front ++ t) (Nat.succ_pos _)
  have hroom : ¬ front.length + rest.length ≤ front.length + t.length := by omega
  have hpos : front.length + t.length = (front ++ t).length := List.length_append.symm
  have hnext : (front ++ t).length + 1 = (front ++ t ++ [44]).length := by
    simp [Nat.add_assoc]
  rw [printElements, List.drop_left, Nat.add_sub_cancel_left, hprint, ok_bind, strlen_text ht,
    ok_bind, List.take_left, if_neg hroom, hpos, ← List.append_assoc, hput, ok_bind,
    ← List.append_assoc, hnext]

theorem not_isEmpty (w : MmsValue) (ws : List MmsValue) : ¬ (w :: ws).isEmpty = true :=
  Bool.false_ne_true

theorem elementsText_singleton (v : MmsValue) :
    elementsText p [v] = text p v ++ [125] := rfl

theorem elementsText_cons_cons (v w : MmsValue) (ws : List MmsValue) :
    elementsText p (v :: w :: ws) = text p v ++ ([44] ++ elementsText p (w :: ws)) := rfl

/-- A value that leaves no string ends the program. -/
theorem printElements_stuck (front : List UInt8) (vs : List MmsValue)
    (h : Stuck (printToBuffer p v rest rest.length)) :
    ∃ e, printElements p (v :: vs) (front ++ rest) (front.length + rest.length) front.length =
      .error e := by
  rw [printElements, List.drop_left, Nat.add_sub_cancel_left]
  obtain ⟨e, he⟩ | ⟨b, hb, hzero⟩ := h
  · rw [he]
    exact ⟨e, rfl⟩
  · rw [hb, ok_bind, strlen_outOfBounds hzero]
    exact ⟨_, rfl⟩

theorem printElements_nil_outOfBounds (front : List UInt8) (n : Nat) (h : rest.length ≤ 1) :
    ∃ e, printElements p [] (front ++ rest) n front.length = .error e := by
  refine ⟨.outOfBounds, ?_⟩
  rw [printElements]
  exact putChars_outOfBounds front (Nat.lt_succ_of_le h)

/-- The texts of the elements, if there is room for them all. -/
theorem printElements_well (h : ∀ v ∈ vs, PrintsWell p v) (front : List UInt8)
    {filled filled' : Bool} (hzeros : zerosOf filled vs = some filled')
    (hfilled : filled = true → ∀ c ∈ rest, c = 0)
    (hlength : (elementsText p vs).length < rest.length) :
    printElements p vs (front ++ rest) (front.length + rest.length) front.length =
      .ok (front ++ (elementsText p vs ++ 0 ::
        behind filled' rest ((elementsText p vs).length + 1))) := by
  induction vs generalizing front filled rest with
  | nil =>
    cases hzeros
    rw [printElements, elementsText, behind_of_zeros hfilled]
    exact putChars_append front hlength
  | cons v vs ih =>
    obtain ⟨hv, hvs⟩ := List.forall_mem_cons.mp h
    obtain ⟨between, hbetween, htail⟩ := Option.bind_eq_some_iff.mp hzeros
    have hmono : filled' = false → between = false := by
      rintro rfl
      exact zerosOf_eq_false (fun _ _ _ h => zeros_eq_false h) htail
    cases vs with
    | nil =>
      cases htail
      rw [elementsText_singleton, List.length_append, List.length_singleton] at hlength
      have hfits : (text p v).length < rest.length := Nat.lt_of_succ_lt hlength
      have hroom : [125, (0 : UInt8)].length ≤
          (0 :: behind filled' rest ((text p v).length + 1)).length := by
        change 2 ≤ (behind filled' rest ((text p v).length + 1)).length + 1
        rw [length_behind]
        omega
      have hdrop : (0 :: behind filled' rest ((text p v).length + 1)).drop 2 =
          behind filled' rest ((text p v ++ [125]).length + 1) := by
        rw [List.drop_succ_cons, ← behind_of_zeros (behind_zeros _), behind_behind id,
          List.length_append]
        rfl
      rw [printElements_cons front [] (hv filled _ rest hbetween hfilled hfits)
        (zero_notMem_text p v) hfits, if_pos List.isEmpty_nil, printElements,
        putChars_append _ hroom, List.length_cons, List.length_singleton, hdrop,
        elementsText_singleton]
      simp only [List.append_assoc, List.cons_append, List.nil_append]
    | cons w ws =>
      rw [elementsText_cons_cons, List.length_append, List.length_append,
        List.length_singleton] at hlength
      have hfits : (text p v).length < rest.length := Nat.lt_of_add_right_lt hlength
      have hlong : (elementsText p (w :: ws)).length <
          (behind between rest ((text p v).length + 1)).length := by
        rw [length_behind]
        omega
      have hsize : front.length + rest.length = (front ++ text p v ++ [44]).length +
          (behind between rest ((text p v).length + 1)).length := by
        rw [List.length_append, List.length_append, List.length_singleton, length_behind]
        omega
      have hend : (text p v).length + 1 + ((elementsText p (w :: ws)).length + 1) =
          (text p v ++ ([44] ++ elementsText p (w :: ws))).length + 1 := by
        rw [List.length_append, List.length_append, List.length_singleton]
        omega
      rw [printElements_cons front (w :: ws) (hv filled between rest hbetween hfilled hfits)
        (zero_notMem_text p v) hfits, if_neg (not_isEmpty w ws), hsize,
        ih hvs (front ++ text p v ++ [44]) htail (behind_zeros _) hlong, behind_behind hmono, hend,
        elementsText_cons_cons]
      simp only [List.append_assoc]

/-- Without that room, or without a string where one is expected, the program ends. -/
theorem printElements_fails (h : ∀ v ∈ vs, PrintsWell p v ∧ GetsStuck p v) (front : List UInt8)
    {filled : Bool} (hfilled : filled = true → ∀ c ∈ rest, c = 0)
    (hbare : filled = false → 0 ∉ rest)
    (hbad : zerosOf filled vs = none ∨ rest.length ≤ (elementsText p vs).length) :
    ∃ e, printElements p vs (front ++ rest) (front.length + rest.length) front.length =
      .error e := by
  induction vs generalizing front filled rest with
  | nil =>
    have hlength := hbad.resolve_left fun hnone => by cases hnone
    exact printElements_nil_outOfBounds front _ hlength
  | cons v vs ih =>
    obtain ⟨⟨hwell, hstuck⟩, hvs⟩ := List.forall_mem_cons.mp h
    by_cases hv : zeros filled v = none ∨ rest.length ≤ (text p v).length
    · by_cases htruncates : v.Truncates
      · have hlength := hv.resolve_left fun hnone => by
          rw [zeros_of_truncates htruncates] at hnone
          cases hnone
        by_cases hrest : rest = []
        · refine printElements_stuck front vs (.inr ⟨[], ?_, List.not_mem_nil⟩)
          rw [hrest]
          exact print_nil_of_truncates p htruncates
        · -- the last place of the buffer has the zero, and nothing more can be written
          have hprint := print_of_truncates p htruncates hrest
          rw [cut_truncated hlength hrest] at hprint
          have hpos := List.length_pos_iff.mpr hrest
          have hshown : ((text p v).take (rest.length - 1)).length = rest.length - 1 :=
            List.length_take_of_le ((Nat.sub_le _ _).trans hlength)
          rw [printElements_cons front vs hprint
            (fun hmem => zero_notMem_text p v (List.mem_of_mem_take hmem)) (by omega)]
          cases vs with
          | nil =>
            rw [if_pos List.isEmpty_nil]
            exact printElements_nil_outOfBounds _ _ le_rfl
          | cons w ws =>
            have hsize : front.length + rest.length =
                (front ++ (text p v).take (rest.length - 1) ++ [44]).length +
                  ([] : List UInt8).length := by
              rw [List.length_append, List.length_append, hshown, List.length_singleton]
              change front.length + rest.length = front.length + (rest.length - 1) + 1 + 0
              omega
            rw [if_neg (not_isEmpty w ws), hsize]
            have hnothing : filled = true → ∀ c ∈ ([] : List UInt8), c = 0 :=
              fun _ c hc => absurd hc List.not_mem_nil
            exact ih hvs _ hnothing (fun _ => List.not_mem_nil) (.inr (Nat.zero_le _))
      · exact printElements_stuck front vs (hstuck filled rest htruncates hfilled hbare hv)
    · obtain ⟨hsome, hfits⟩ := not_or.mp hv
      rw [not_le] at hfits
      obtain ⟨between, hbetween⟩ := Option.ne_none_iff_exists'.mp hsome
      have htail : zerosOf filled (v :: vs) = zerosOf between vs := by
        rw [zerosOf, hbetween]
        rfl
      rw [htail] at hbad
      rw [printElements_cons front vs (hwell filled between rest hbetween hfilled hfits)
        (zero_notMem_text p v) hfits]
      cases vs with
      | nil =>
        have hlength := hbad.resolve_left fun hnone => by cases hnone
        rw [elementsText_singleton, List.length_append, List.length_singleton] at hlength
        rw [if_pos List.isEmpty_nil]
        refine printElements_nil_outOfBounds _ _ ?_
        rw [List.length_cons, length_behind]
        omega
      | cons w ws =>
        have hsize : front.length + rest.length = (front ++ text p v ++ [44]).length +
            (behind between rest ((text p v).length + 1)).length := by
          rw [List.length_append, List.length_append, List.length_singleton, length_behind]
          omega
        rw [if_neg (not_isEmpty w ws), hsize]
        refine ih hvs _ (behind_zeros _) ?_ (hbad.imp_right ?_)
        · rintro rfl
          exact fun hmem => hbare (zeros_eq_false hbetween) (List.mem_of_mem_drop hmem)
        · intro hlength
          rw [elementsText_cons_cons, List.length_append, List.length_append,
            List.length_singleton] at hlength
          rw [length_behind]
          omega

/-- An array or a structure: its elements between braces. -/
structure Braces (p : Printer) (v : MmsValue) (vs : List MmsValue) : Prop where
  print : ∀ buffer bufferSize, printToBuffer p v buffer bufferSize =
    putChars buffer 0 [123] >>= fun buffer => printElements p vs buffer bufferSize 1
  text : text p v = 123 :: elementsText p vs
  zeros : ∀ filled, zeros filled v = zerosOf filled vs

namespace Braces

variable (hv : Braces p v vs)

include hv

theorem print_cons (c : UInt8) (rest : List UInt8) :
    printToBuffer p v (c :: rest) (c :: rest).length =
      printElements p vs ([123] ++ rest) ([(123 : UInt8)].length + rest.length)
        [(123 : UInt8)].length := by
  rw [hv.print, List.length_cons, Nat.add_comm]
  rfl

theorem printsWell (h : ∀ v ∈ vs, PrintsWell p v) : PrintsWell p v := by
  intro filled filled' rest hzeros hfilled hlength
  rw [hv.text] at hlength ⊢
  cases rest with
  | nil => cases hlength
  | cons c rest =>
    have hrest := fun hfull => (List.forall_mem_cons.mp (hfilled hfull)).2
    rw [hv.print_cons, printElements_well h [123] ((hv.zeros filled).symm.trans hzeros) hrest
      (Nat.lt_of_succ_lt_succ hlength), List.length_cons, behind_cons]
    rfl

theorem getsStuck (h : ∀ v ∈ vs, PrintsWell p v ∧ GetsStuck p v) : GetsStuck p v := by
  intro filled rest _ hfilled hbare hbad
  rw [hv.text, hv.zeros] at hbad
  cases rest with
  | nil => exact .inl ⟨.outOfBounds, hv.print [] 0⟩
  | cons c rest =>
    refine .inl ?_
    rw [hv.print_cons]
    refine printElements_fails h [123] (fun hfull => (List.forall_mem_cons.mp (hfilled hfull)).2)
      (fun hempty hmem => hbare hempty (List.mem_cons_of_mem _ hmem)) ?_
    exact hbad.imp_right Nat.le_of_succ_le_succ

end Braces

theorem printsWell_and_getsStuck (p : Printer) (v : MmsValue) :
    PrintsWell p v ∧ GetsStuck p v := by
  induction v using tree_induction with
  | array vs ih =>
    have hv : Braces p (.array vs) vs := ⟨fun _ _ => rfl, rfl, fun _ => rfl⟩
    exact ⟨hv.printsWell fun v hmem => (ih v hmem).1, hv.getsStuck ih⟩
  | structured vs ih =>
    have hv : Braces p (.structured vs) vs := ⟨fun _ _ => rfl, rfl, fun _ => rfl⟩
    exact ⟨hv.printsWell fun v hmem => (ih v hmem).1, hv.getsStuck ih⟩
  | leaf v hleaf => exact ⟨printsWell_leaf hleaf, getsStuck_leaf hleaf⟩

/-- A value is printed inside of its buffer exactly if its text has room there with its zero, or
is cut off. -/
theorem printsInside_iff (p : Printer) (v : MmsValue) {bufferSize : Nat} (h : 1 ≤ bufferSize) :
    PrintsInside p v bufferSize ↔ Printable p v bufferSize := by
  obtain ⟨hwell, hstuck⟩ := printsWell_and_getsStuck p v
  constructor
  · intro hinside
    by_contra hnot
    obtain ⟨htruncates, hroom⟩ := not_or.mp hnot
    -- a buffer without any zero
    obtain ⟨result, hresult, hzero⟩ := hinside (List.replicate bufferSize 1) List.length_replicate
    have hbad : zeros false v = none ∨
        (List.replicate bufferSize (1 : UInt8)).length ≤ (text p v).length := by
      rw [List.length_replicate, ← Option.not_isSome_iff_eq_none, ← not_lt]
      exact not_and_or.mp hroom
    have hbare : (0 : UInt8) ∉ List.replicate bufferSize 1 := by
      intro hmem
      cases List.eq_of_mem_replicate hmem
    have hprint := hstuck false _ htruncates Bool.noConfusion (fun _ => hbare) hbad
    rw [List.length_replicate, hresult] at hprint
    obtain ⟨e, he⟩ | ⟨b, hb, hnozero⟩ := hprint
    · cases he
    · cases hb
      exact hnozero hzero
  · rintro (htruncates | ⟨hsome, hroom⟩) buffer rfl
    · have hne : buffer ≠ [] := List.length_pos_iff.mp h
      refine ⟨_, print_of_truncates p htruncates hne, ?_⟩
      exact List.mem_append_right _ List.mem_cons_self
    · obtain ⟨filled', hzeros⟩ := Option.isSome_iff_exists.mp hsome
      refine ⟨_, hwell false filled' buffer hzeros Bool.noConfusion hroom, ?_⟩
      exact List.mem_append_right _ List.mem_cons_self

theorem zero_notMem_zeroText : 0 ∉ ascii "0.000000" := by decide

theorem fourDigits_january (seconds : Nat) (h : seconds < 2 ^ 33) :
    TimeLibrary.FourDigits (januaryLibrary.gmtime_r seconds) := by
  unfold TimeLibrary.FourDigits januaryLibrary
  dsimp only
  omega

/-- A printer for zero and for times in January 1984. -/
def januaryPrinter : Printer where
  formatFloat := fun _ => ⟨ascii "0.000000", zero_notMem_zeroText⟩
  lib := januaryLibrary
  calendar := calendar_january
  fourDigits := fourDigits_january

/-- `{true,false}` -/
theorem printsInside_booleans :
    PrintsInside januaryPrinter (.structured [.boolean true, .boolean false]) 13 :=
  (printsInside_iff januaryPrinter _ (by decide)).mpr (.inr ⟨rfl, by decide⟩)

/-- The zero behind the closing brace is written behind the buffer. -/
theorem not_printsInside_emptyStructure :
    ¬ ∀ (p : Printer) (v : MmsValue) (bufferSize : Nat), 1 ≤ bufferSize →
      PrintsInside p v bufferSize := by
  intro h
  obtain ⟨result, hresult, -⟩ := h januaryPrinter (.structured []) 2 (by decide) [0, 0] rfl
  cases hresult

end

end MmsValue

end Iec61850
