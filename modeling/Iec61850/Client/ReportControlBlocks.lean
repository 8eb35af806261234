import Iec61850.Client.ObjectReferences
import Iec61850.Mms.IntegerSetters
import Iec61850.Mms.TimeCodecs
import Iec61850.Mms.UpdateEquality
import Iec61850.Report.Creation
import Iec61850.Server.ReadService

/-! The copy that a client keeps of a report control block (`client_report_control.c`): its
attributes, their getters and setters, and how it takes what a server sends. -/

namespace Iec61850

open Machine

inductive RcbAttribute
  | rptId | rptEna | resv | datSet | confRev | optFlds | bufTm | sqNum | trgOps | intgPd | gi
  | purgeBuf | entryId | timeOfEntry | resvTms | owner
  deriving DecidableEq

/-- The values are null pointers at first. -/
structure ClientReportControlBlock where
  objectReference : List UInt8
  isBuffered : Bool
  value : RcbAttribute → Option MmsValue

namespace MmsValue

def isOctetString : MmsValue → Bool
  | .octetString _ => true
  | _ => false

/-- The number of an integer, whatever its length is. -/
def number : MmsValue → Int
  | .integer v => Octets.signed v.content
  | .unsigned v => Octets.value v.content
  | _ => 0

end MmsValue

namespace ClientReportControlBlock

def isBufferedRcb (objectReference : List UInt8) : Bool :=
  match strchr objectReference 46 with
  | none => false
  | some separator => separator.getD 1 0 = 66

def create (objectReference : List UInt8) : ClientReportControlBlock :=
  ⟨objectReference, isBufferedRcb objectReference, fun _ => none⟩

def setValue (self : ClientReportControlBlock) (a : RcbAttribute) (v : MmsValue) :
    ClientReportControlBlock :=
  { self with value := Function.update self.value a (some v) }

section Getters

variable (self : ClientReportControlBlock)

def getString (a : RcbAttribute) : Option MmsValue.CString := (self.value a).bind MmsValue.toString

def getBoolean (a : RcbAttribute) : Bool := ((self.value a).map MmsValue.getBoolean).getD false

def getUint32 (a : RcbAttribute) : UInt32 := ((self.value a).map MmsValue.toUint32).getD 0

def getRptId : Option MmsValue.CString := self.getString .rptId

def getRptEna : Bool := self.getBoolean .rptEna

def getResv : Bool := self.getBoolean .resv

def getDataSetReference : Option MmsValue.CString := self.getString .datSet

def getConfRev : UInt32 := self.getUint32 .confRev

/-- There is no test for the null pointer here. -/
def getOptFlds : Exec Int32 :=
  match self.value .optFlds with
  | none => .error .nullPointer
  | some v => .ok v.getBitStringAsInteger.toInt32

def getBufTm : UInt32 := self.getUint32 .bufTm

def getSqNum : UInt16 := (self.getUint32 .sqNum).toUInt16

def getTrgOps : Int32 :=
  match self.value .trgOps with
  | none => 0
  | some v =>
    (if v.getBitStringBit 1 then 1 else 0) + (if v.getBitStringBit 2 then 2 else 0) +
      (if v.getBitStringBit 3 then 4 else 0) + (if v.getBitStringBit 4 then 8 else 0) +
      (if v.getBitStringBit 5 then 16 else 0)

def getIntgPd : UInt32 := self.getUint32 .intgPd

def getGI : Bool := self.getBoolean .gi

def getPurgeBuf : Bool := self.getBoolean .purgeBuf

def getResvTms : Int16 := ((self.value .resvTms).map fun v => v.toInt32.toInt16).getD 0

def getEntryId : Option MmsValue := self.value .entryId

def getEntryTime : UInt64 := ((self.value .timeOfEntry).bind MmsValue.getBinaryTimeAsUtcMs).getD 0

def getOwner : Option MmsValue := self.value .owner

end Getters

section Setters

variable (self : ClientReportControlBlock)

/-- A setter makes a new value when there is none. -/
def setWith (a : RcbAttribute) (new : MmsValue) (set : MmsValue → MmsValue) :
    ClientReportControlBlock :=
  self.setValue a (((self.value a).map set).getD new)

def setString (a : RcbAttribute) (string : MmsValue.CString) : ClientReportControlBlock :=
  self.setWith a (.visibleString (some string)) (·.setVisibleString string)

def setBoolean (a : RcbAttribute) (b : Bool) : ClientReportControlBlock :=
  self.setWith a (.boolean b) (·.setBoolean b)

def setUint32 (a : RcbAttribute) (integer : UInt32) : ClientReportControlBlock :=
  self.setWith a (.newUnsignedFromUint32 integer) (·.setUint32 integer)

/-- A new bit string is set like one that is there. -/
def setOptions (a : RcbAttribute) (bitSize : Nat) (options : UInt32) : ClientReportControlBlock :=
  self.setValue a (((self.value a).getD (.newBitString bitSize)).setBitStringFromInteger options)

def setRptId (rptId : MmsValue.CString) := self.setString .rptId rptId

def setRptEna (rptEna : Bool) := self.setBoolean .rptEna rptEna

def setResv (resv : Bool) := self.setBoolean .resv resv

def setDataSetReference (dataSetReference : MmsValue.CString) :=
  self.setString .datSet dataSetReference

/-- Bit 0 is reserved. -/
def setOptFlds (optFlds : Int32) := self.setOptions .optFlds 10 (optFlds * 2).toUInt32

def setBufTm (bufTm : UInt32) := self.setUint32 .bufTm bufTm

def setTrgOps (trgOps : Int32) := self.setOptions .trgOps 6 (trgOps <<< 1).toUInt32

def setIntgPd (intgPd : UInt32) := self.setUint32 .intgPd intgPd

def setGI (gi : Bool) := self.setBoolean .gi gi

def setPurgeBuf (purgeBuf : Bool) := self.setBoolean .purgeBuf purgeBuf

def setResvTms (resvTms : Int16) :=
  self.setWith .resvTms (.newIntegerFromInt16 resvTms) (·.setInt32 resvTms.toInt32)

def setEntryId (entryId : MmsValue) : Exec ClientReportControlBlock :=
  match self.value .entryId with
  | some v => do
    let (v, _) ← v.updateInMemory entryId
    return self.setValue .entryId v
  | none =>
    if entryId.isOctetString then do return self.setValue .entryId (← entryId.clone)
    else .ok self

end Setters

section Update

variable (self : ClientReportControlBlock) (values : List MmsValue)

/-- The element of a structure that was received, by its place. -/
def updateOrClone (a : RcbAttribute) (index : Nat) : Exec ClientReportControlBlock :=
  match self.value a, values[index]? with
  | some v, some element => do
    let (v, _) ← v.updateInMemory element
    return self.setValue a v
  | none, some element => do return self.setValue a (← element.clone)
  | _, none => .error .nullPointer

def updateEach (places : List (RcbAttribute × Nat)) : Exec ClientReportControlBlock :=
  places.foldlM (fun self p => self.updateOrClone values p.1 p.2) self

def commonPlaces : List (RcbAttribute × Nat) := [(.rptId, 0), (.rptEna, 1)]

def bufferedPlaces : List (RcbAttribute × Nat) :=
  [(.datSet, 2), (.confRev, 3), (.optFlds, 4), (.bufTm, 5), (.sqNum, 6), (.trgOps, 7), (.intgPd, 8),
    (.gi, 9), (.purgeBuf, 10), (.entryId, 11), (.timeOfEntry, 12)]

def unbufferedPlaces : List (RcbAttribute × Nat) :=
  [(.resv, 2), (.datSet, 3), (.confRev, 4), (.optFlds, 5), (.bufTm, 6), (.sqNum, 7), (.trgOps, 8),
    (.intgPd, 9), (.gi, 10)]

/-- `private_ClientReportControlBlock_updateValues` -/
def updateValues : Exec ClientReportControlBlock := do
  let self ← self.updateEach values commonPlaces
  if self.isBuffered then
    let self ← self.updateEach values bufferedPlaces
    match values[13]? with
    | none => return self
    | some element13 =>
      if element13.isOctetString then self.updateOrClone values .owner 13
      else
        let self ← self.updateOrClone values .resvTms 13
        if 14 < values.length then self.updateOrClone values .owner 14 else return self
  else
    let self ← self.updateEach values unbufferedPlaces
    if values.length = 12 then self.updateOrClone values .owner 11 else return self

end Update

end ClientReportControlBlock

/-! ## What the getters are to return -/

/-- What a getter returns. -/
inductive RcbReading
  | string (s : Option MmsValue.CString)
  | boolean (b : Bool)
  | number (n : Int)
  | value (d : Option MmsValue.Datum)

/-- A value that the application sets. -/
inductive RcbSetting
  | rptId (rptId : MmsValue.CString)
  | rptEna (rptEna : Bool)
  | resv (resv : Bool)
  | datSet (dataSetReference : MmsValue.CString)
  | optFlds (optFlds : Int32)
  | bufTm (bufTm : UInt32)
  | trgOps (trgOps : Int32)
  | intgPd (intgPd : UInt32)
  | gi (gi : Bool)
  | purgeBuf (purgeBuf : Bool)
  | resvTms (resvTms : Int16)
  | entryId (entryId : MmsValue)

namespace RcbSetting

open ClientReportControlBlock

def set (self : ClientReportControlBlock) : RcbSetting → Exec ClientReportControlBlock
  | rptId s => .ok (self.setRptId s)
  | rptEna b => .ok (self.setRptEna b)
  | resv b => .ok (self.setResv b)
  | datSet s => .ok (self.setDataSetReference s)
  | optFlds n => .ok (self.setOptFlds n)
  | bufTm n => .ok (self.setBufTm n)
  | trgOps n => .ok (self.setTrgOps n)
  | intgPd n => .ok (self.setIntgPd n)
  | gi b => .ok (self.setGI b)
  | purgeBuf b => .ok (self.setPurgeBuf b)
  | resvTms n => .ok (self.setResvTms n)
  | entryId v => self.setEntryId v

def rcbAttribute : RcbSetting → RcbAttribute
  | rptId _ => .rptId
  | rptEna _ => .rptEna
  | resv _ => .resv
  | datSet _ => .datSet
  | optFlds _ => .optFlds
  | bufTm _ => .bufTm
  | trgOps _ => .trgOps
  | intgPd _ => .intgPd
  | gi _ => .gi
  | purgeBuf _ => .purgeBuf
  | resvTms _ => .resvTms
  | entryId _ => .entryId

def reading : RcbSetting → RcbReading
  | rptId s | datSet s => .string (some s)
  | rptEna b | resv b | gi b | purgeBuf b => .boolean b
  | bufTm n | intgPd n => .number n.toNat
  | optFlds n | trgOps n => .number n.toInt
  | resvTms n => .number n.toInt
  | entryId v => .value (some v.datum)

end RcbSetting

namespace RcbAttribute

/-- The types of IEC 61850, with at least the room that all values of the library have. -/
def HasType : RcbAttribute → MmsValue → Prop
  | rptId, v | datSet, v => ∃ s, v = .visibleString (some s)
  | rptEna, v | resv, v | gi, v | purgeBuf, v => ∃ b, v = .boolean b
  | confRev, v | bufTm, v | sqNum, v | intgPd, v =>
    ∃ n, v = .unsigned n ∧ 0 < n.size ∧ 4 ≤ n.maxSize
  | resvTms, v => ∃ n, (v = .integer n ∨ v = .unsigned n) ∧ 0 < n.size ∧ 4 ≤ n.maxSize
  | optFlds, v => ∃ b, v = .bitString b ∧ b.size = 10
  | trgOps, v => ∃ b, v = .bitString b ∧ b.size = 6
  | entryId, v | owner, v => ∃ o, v = .octetString o
  | timeOfEntry, v => ∃ t, v = .binaryTime t

/-- What a value of the attribute says. Bit 0 of the option fields and of the trigger options is
reserved. -/
def reading : RcbAttribute → MmsValue → RcbReading
  | rptId, v | datSet, v => .string v.toString
  | rptEna, v | resv, v | gi, v | purgeBuf, v => .boolean v.getBoolean
  | confRev, v | bufTm, v | sqNum, v | intgPd, v | resvTms, v => .number v.number
  | optFlds, v | trgOps, v => .number (v.getBitStringAsInteger.toNat / 2 : Nat)
  | entryId, v | owner, v => .value (some v.datum)
  | timeOfEntry, v => .number (v.getBinaryTimeAsUtcMs.getD 0).toNat

end RcbAttribute

namespace ClientReportControlBlock

def get (self : ClientReportControlBlock) : RcbAttribute → Exec RcbReading
  | .rptId => .ok (.string self.getRptId)
  | .rptEna => .ok (.boolean self.getRptEna)
  | .resv => .ok (.boolean self.getResv)
  | .datSet => .ok (.string self.getDataSetReference)
  | .confRev => .ok (.number self.getConfRev.toNat)
  | .optFlds => do return .number (← self.getOptFlds).toInt
  | .bufTm => .ok (.number self.getBufTm.toNat)
  | .sqNum => .ok (.number self.getSqNum.toNat)
  | .trgOps => .ok (.number self.getTrgOps.toInt)
  | .intgPd => .ok (.number self.getIntgPd.toNat)
  | .gi => .ok (.boolean self.getGI)
  | .purgeBuf => .ok (.boolean self.getPurgeBuf)
  | .entryId => .ok (.value (self.getEntryId.map MmsValue.datum))
  | .timeOfEntry => .ok (.number self.getEntryTime.toNat)
  | .resvTms => .ok (.number self.getResvTms.toInt)
  | .owner => .ok (.value (self.getOwner.map MmsValue.datum))

end ClientReportControlBlock

/-! ## Numbers and option bits -/

namespace BerEncoder

/-- A number is kept unless the first octet is 0xff and is dropped. -/
theorem value_compressInteger_iff {b c : UInt8} {bs : List UInt8} :
    Octets.value (compressInteger (b :: c :: bs)) = Octets.value (b :: c :: bs) ↔
      ¬ (b = 0xff ∧ 0x80 ≤ c.toNat) := by
  rw [compressInteger_cons]
  split
  case isFalse h => exact iff_of_true rfl fun hff => h (Or.inr hff)
  case isTrue h =>
    rcases h with ⟨rfl, hc⟩ | ⟨rfl, hc⟩
    · refine iff_of_true ?_ fun hff => absurd hff.1 (by decide)
      rw [value_compressInteger_of_clear hc, Octets.value_cons 0]
      simp
    · refine iff_of_false ?_ (not_not_intro ⟨rfl, hc⟩)
      have hlt := Octets.value_lt (compressInteger (c :: bs))
      have hpow := Nat.pow_le_pow_right (n := 256) (by decide) (length_compressInteger_le (c :: bs))
      rw [Octets.value_cons 0xff, List.length_cons] at *
      simp only [UInt8.toNat_ofNat] at *
      omega

theorem value_compressInteger_four {n : UInt32} :
    Octets.value (compressInteger (Octets.ofNat 4 n.toNat)) = n.toNat ↔ n < 0xff800000 := by
  have hvalue := Octets.value_ofNat_of_lt (w := 4) n.toNat_lt
  obtain ⟨b, c, d, e, hoctets⟩ : ∃ b c d e, Octets.ofNat 4 n.toNat = [b, c, d, e] :=
    ⟨_, _, _, _, rfl⟩
  rw [hoctets] at hvalue ⊢
  rw [← hvalue, value_compressInteger_iff, UInt32.lt_iff_toNat_lt, ← hvalue, ← UInt8.toNat_inj]
  have hb := b.toNat_lt
  have hc := c.toNat_lt
  have hd := d.toNat_lt
  have he := e.toNat_lt
  simp only [Octets.value_cons, Octets.value_nil, List.length_cons, List.length_nil,
    UInt8.toNat_ofNat, UInt32.toNat_ofNat]
  omega

end BerEncoder

namespace MmsValue

variable {n : Asn1PrimitiveValue} {b : BitString}

/-- The getters give zero for integers of more than four octets. -/
def InFourOctets (v : MmsValue) : Prop := ∀ n, v.integerOf = some n → n.size < 5 ∨ v.number = 0

theorem toUint32_unsigned :
    (MmsValue.unsigned n).InFourOctets ∧
        ((MmsValue.unsigned n).toUint32.toNat : Int) = (MmsValue.unsigned n).number ∨
      ¬ (MmsValue.unsigned n).InFourOctets ∧ (MmsValue.unsigned n).toUint32 = 0 ∧
        (MmsValue.unsigned n).number ≠ 0 := by
  by_cases hsize : n.size < 5
  · obtain ⟨m, hm, hvalue⟩ := BerInteger.toUint32_of_content n hsize
    refine Or.inl ⟨?_, ?_⟩
    · intro k hk
      cases hk
      exact Or.inl hsize
    · rw [toUint32, integerOf, Option.bind_some, hm, number, ← hvalue]
      rfl
  · have hzero : (MmsValue.unsigned n).toUint32 = 0 := by
      rw [toUint32, integerOf, Option.bind_some, BerInteger.toUint32, if_neg hsize]
      rfl
    by_cases hnumber : (MmsValue.unsigned n).number = 0
    · refine Or.inl ⟨fun _ _ => Or.inr hnumber, ?_⟩
      rw [hzero, hnumber]
      rfl
    · exact Or.inr ⟨fun h => (h n rfl).elim hsize hnumber, hzero, hnumber⟩

theorem toUint32_unsigned_iff :
    ((MmsValue.unsigned n).toUint32.toNat : Int) = (MmsValue.unsigned n).number ↔
      (MmsValue.unsigned n).InFourOctets := by
  rcases toUint32_unsigned with ⟨hin, heq⟩ | ⟨hin, hzero, hne⟩
  · exact iff_of_true heq hin
  · rw [hzero]
    exact iff_of_false (fun h => hne h.symm) hin

theorem toUint16_unsigned_iff :
    ((MmsValue.unsigned n).toUint32.toUInt16.toNat : Int) = (MmsValue.unsigned n).number ↔
      (MmsValue.unsigned n).InFourOctets ∧ (MmsValue.unsigned n).number < 0x10000 := by
  rw [UInt32.toNat_toUInt16]
  rcases toUint32_unsigned with ⟨hin, heq⟩ | ⟨hin, hzero, hne⟩
  · rw [and_iff_right hin]
    omega
  · rw [hzero]
    exact iff_of_false (fun h => hne h.symm) fun h => hin h.1

/-- The number as the signed getters take it. -/
def Signed (v : MmsValue) : Prop := ∀ n, v.integerOf = some n → Octets.signed n.content = v.number

/-- An unsigned number that is taken for a negative one is not found again in 16 bits. -/
theorem signed_eq_of_bmod {bs : List UInt8}
    (h : (Octets.signed bs).bmod 0x10000 = Octets.value bs) :
    Octets.signed bs = Octets.value bs := by
  cases bs with
  | nil => rfl
  | cons b bs =>
    rw [Octets.signed] at h ⊢
    split at h
    case isFalse hb => simp [hb]
    case isTrue hb =>
      have hhigh : (Octets.value (b :: bs) : Int) < 0x8000 := by
        rw [← h]
        exact Int.bmod_lt (by decide)
      have hvalue : 0x80 * 256 ^ bs.length ≤ Octets.value (b :: bs) := by
        rw [Octets.value_cons]
        exact (Nat.mul_le_mul_right _ hb).trans (Nat.le_add_right _ _)
      cases bs with
      | nil =>
        have hb' := b.toNat_lt
        rw [Int.bmod_def] at h
        simp only [Octets.value_singleton, List.length_nil] at *
        omega
      | cons c bs =>
        have hpow : 0 < 256 ^ bs.length := Nat.pow_pos (by decide)
        rw [List.length_cons, Nat.pow_succ] at hvalue
        omega

theorem toInt16_iff {w : MmsValue} (hn : w = .integer n ∨ w = .unsigned n) (hpos : 0 < n.size) :
    w.toInt32.toInt16.toInt = w.number ↔
      w.InFourOctets ∧ w.Signed ∧ -0x8000 ≤ w.number ∧ w.number < 0x8000 := by
  have hof : w.integerOf = some n := by rcases hn with rfl | rfl <;> rfl
  have hin : w.InFourOctets ↔ n.size < 5 ∨ w.number = 0 := by simp [InFourOctets, hof]
  have hsigned : w.Signed ↔ Octets.signed n.content = w.number := by simp [Signed, hof]
  obtain ⟨b, bs, hcontent⟩ : ∃ b bs, n.content = b :: bs := by
    refine List.exists_cons_of_length_pos ?_
    rwa [n.length_content]
  rw [hin, hsigned, toInt32, hof, Option.bind_some]
  by_cases hsize : n.size < 5
  · obtain ⟨m, hm, hvalue⟩ := BerInteger.toInt32_of_content n hcontent hsize
    rw [hm, Option.getD_some, Int32.toInt_toInt16, hvalue, ← hcontent, and_iff_right (Or.inl hsize)]
    constructor
    · intro h
      have heq : Octets.signed n.content = w.number := by
        rcases hn with rfl | rfl
        · rfl
        · exact signed_eq_of_bmod h
      have hlow := Int.le_bmod (x := Octets.signed n.content) (m := 0x10000) (by decide)
      have hhigh := Int.bmod_lt (x := Octets.signed n.content) (m := 0x10000) (by decide)
      rw [h] at hlow hhigh
      exact ⟨heq, hlow, hhigh⟩
    · rintro ⟨heq, hlow, hhigh⟩
      rw [heq]
      exact Int.bmod_eq_of_le (by omega) (by omega)
  · rw [BerInteger.toInt32, if_neg hsize, or_iff_right hsize]
    constructor
    · intro h
      have hzero : w.number = 0 := h.symm
      refine ⟨hzero, ?_, by omega, by omega⟩
      rcases hn with rfl | rfl
      · rfl
      · have hvalue : Octets.value (b :: bs) = 0 := by
          rw [← hcontent]
          exact Int.ofNat_eq_zero.mp hzero
        have hb : b.toNat = 0 := by
          rw [Octets.value_cons, Nat.add_eq_zero_iff, Nat.mul_eq_zero] at hvalue
          exact hvalue.1.resolve_right (pow_ne_zero _ (by decide))
        rw [hzero, hcontent, Octets.signed, hvalue, hb]
        rfl
    · intro h
      exact h.1.symm

theorem getBitStringBit_bitString (i : Nat) :
    (MmsValue.bitString b).getBitStringBit i = b.buffer.getBitStringBit i := by
  rw [getBitStringBit, BitBuffer.getBitStringBit]
  by_cases hi : i < b.size
  · rw [dif_pos (show i < b.buffer.size from hi), BitBuffer.octetAt_eq (b := b.buffer) hi]
    simp [hi, UInt8.pos_iff_ne_zero, BitBuffer.bitMask, BitString.buffer]
  · rw [dif_neg (show ¬ i < b.buffer.size from hi)]
    simp [hi]

/-- The option bits as the getter adds them up, of a bit string of six bits. -/
theorem options_of_size_six (h : b.size = 6) :
    ((if b.buffer.getBitStringBit 1 then 1 else 0) +
      (if b.buffer.getBitStringBit 2 then 2 else 0) +
      (if b.buffer.getBitStringBit 3 then 4 else 0) +
      (if b.buffer.getBitStringBit 4 then 8 else 0) +
      (if b.buffer.getBitStringBit 5 then 16 else 0) : Int32).toInt =
      (b.buffer.getBitStringAsInteger.toNat / 2 : Nat) := by
  have hrange : List.range b.buffer.size = [0, 1, 2, 3, 4, 5] := congrArg List.range h
  rw [BitBuffer.getBitStringAsInteger, hrange]
  simp only [List.foldl_cons, List.foldl_nil]
  generalize b.buffer.getBitStringBit 0 = b0
  generalize b.buffer.getBitStringBit 1 = b1
  generalize b.buffer.getBitStringBit 2 = b2
  generalize b.buffer.getBitStringBit 3 = b3
  generalize b.buffer.getBitStringBit 4 = b4
  generalize b.buffer.getBitStringBit 5 = b5
  cases b0 <;> cases b1 <;> cases b2 <;> cases b3 <;> cases b4 <;> cases b5 <;> rfl

theorem bitString_set (intValue : UInt32) :
    ∃ c : BitString, (MmsValue.bitString b).setBitStringFromInteger intValue = .bitString c ∧
      c.size = b.size ∧ c.buffer = b.buffer.setBitStringFromInteger intValue := by
  have hsize : b.size = (BitBuffer.setBitsFrom b.size 0 intValue b.buffer).size :=
    (BitBuffer.size_setBitsFrom (b := b.buffer)).symm
  refine ⟨_, rfl, rfl, ?_⟩
  simp only [BitString.buffer]
  congr 1

theorem getBitStringAsInteger_set (intValue : UInt32) (h : b.size ≤ 32) :
    ((MmsValue.bitString b).setBitStringFromInteger intValue).getBitStringAsInteger.toNat =
      intValue.toNat % 2 ^ b.size := by
  obtain ⟨c, hc, hsize, hbuffer⟩ := bitString_set (b := b) intValue
  have hrange : List.range c.buffer.size = List.range b.size := congrArg List.range hsize
  rw [hc, getBitStringAsInteger, BitBuffer.getBitStringAsInteger, hrange]
  apply BitBuffer.foldl_bits h
  intro i hi
  rw [hbuffer]
  exact BitBuffer.bit_setBitStringFromInteger hi

end MmsValue

section Options

variable {n : Int32}

theorem toInt_eq_bmod : n.toInt = (n.toUInt32.toNat : Int).bmod (2 ^ 32) :=
  BitVec.toInt_eq_toNat_bmod n.toBitVec

/-- The getter of the option fields does not shift them. -/
theorem options_toInt32_iff {options : UInt32} :
    options.toInt32.toInt = (options.toNat / 2 : Nat) ↔ options = 0 := by
  have hlt := options.toNat_lt
  rw [toInt_eq_bmod, UInt32.toUInt32_toInt32, ← UInt32.toNat_inj, Int.bmod_def, UInt32.toNat_zero]
  omega

theorem toInt_toInt32_of_lt {options : UInt32} (h : options.toNat < 2 ^ 31) :
    options.toInt32.toInt = options.toNat := by
  rw [toInt_eq_bmod, UInt32.toUInt32_toInt32, Int.bmod_def]
  omega

theorem options_double_iff : ((n * 2).toUInt32.toNat % 2 ^ 10 : Nat) = n.toInt ↔ n = 0 := by
  have hdouble : (n * 2).toUInt32.toNat = n.toUInt32.toNat * 2 % 2 ^ 32 :=
    UInt32.toNat_mul n.toUInt32 2
  have hlt := n.toUInt32.toNat_lt
  rw [← Int32.toInt_inj, toInt_eq_bmod, hdouble, Int.bmod_def, Int32.toInt_zero]
  omega

theorem options_shift_iff :
    ((n <<< 1).toUInt32.toNat % 2 ^ 6 / 2 : Nat) = n.toInt ↔ 0 ≤ n ∧ n < 32 := by
  have hshift : (n <<< 1).toUInt32.toNat = n.toUInt32.toNat * 2 % 2 ^ 32 := by
    rw [show (n <<< 1).toUInt32 = n.toUInt32 <<< 1 from rfl, UInt32.toNat_shiftLeft,
      Nat.shiftLeft_eq]
    rfl
  have hbound : Int32.toInt 32 = 32 := rfl
  have hlt := n.toUInt32.toNat_lt
  rw [Int32.le_iff_toInt_le, Int32.lt_iff_toInt_lt, toInt_eq_bmod, hshift, Int.bmod_def,
    Int32.toInt_zero, hbound]
  omega

end Options

/-! ## Getters -/

namespace RcbAttribute

/-- The getter can return what the value says. -/
def Readable : RcbAttribute → MmsValue → Prop
  | optFlds, v => v.getBitStringAsInteger = 0
  | confRev, v | bufTm, v | intgPd, v => v.InFourOctets
  | sqNum, v => v.InFourOctets ∧ v.number < 0x10000
  | resvTms, v => v.InFourOctets ∧ v.Signed ∧ -0x8000 ≤ v.number ∧ v.number < 0x8000
  | _, _ => True

end RcbAttribute

namespace ClientReportControlBlock

variable {self self' : ClientReportControlBlock} {a : RcbAttribute} {v w : MmsValue}

/-- A getter looks at its own attribute only. -/
theorem get_congr (h : self.value a = self'.value a) : self.get a = self'.get a := by
  cases a <;>
    simp [get, getRptId, getRptEna, getResv, getDataSetReference, getConfRev, getOptFlds, getBufTm,
      getSqNum, getTrgOps, getIntgPd, getGI, getPurgeBuf, getResvTms, getEntryId, getEntryTime,
      getOwner, getString, getBoolean, getUint32, h]

theorem getUint32_iff {n : Asn1PrimitiveValue} (h : self.value a = some (.unsigned n)) :
    (.ok (.number (self.getUint32 a).toNat) : Exec RcbReading) =
        .ok (.number (MmsValue.unsigned n).number) ↔
      (MmsValue.unsigned n).InFourOctets := by
  rw [Except.ok.injEq, RcbReading.number.injEq, getUint32, h]
  exact MmsValue.toUint32_unsigned_iff

theorem get_iff (hvalue : self.value a = some v) (h : a.HasType v) :
    self.get a = .ok (a.reading v) ↔ a.Readable v := by
  cases a with
  | rptId | datSet =>
    refine iff_of_true ?_ trivial
    simp [get, getRptId, getDataSetReference, getString, hvalue, RcbAttribute.reading]
  | rptEna | resv | gi | purgeBuf =>
    refine iff_of_true ?_ trivial
    simp [get, getRptEna, getResv, getGI, getPurgeBuf, getBoolean, hvalue, RcbAttribute.reading]
  | entryId | owner =>
    refine iff_of_true ?_ trivial
    simp [get, getEntryId, getOwner, hvalue, RcbAttribute.reading]
  | timeOfEntry =>
    refine iff_of_true ?_ trivial
    simp [get, getEntryTime, hvalue, RcbAttribute.reading]
  | confRev | bufTm | intgPd =>
    obtain ⟨n, rfl, -, -⟩ := h
    exact getUint32_iff hvalue
  | sqNum =>
    obtain ⟨n, rfl, -, -⟩ := h
    rw [get, getSqNum, getUint32, hvalue, Except.ok.injEq, RcbAttribute.reading,
      RcbReading.number.injEq]
    exact MmsValue.toUint16_unsigned_iff
  | resvTms =>
    obtain ⟨n, hn, hpos, -⟩ := h
    rw [get, getResvTms, hvalue, Except.ok.injEq, RcbAttribute.reading, RcbReading.number.injEq]
    exact MmsValue.toInt16_iff hn hpos
  | trgOps =>
    obtain ⟨b, rfl, hsize⟩ := h
    refine iff_of_true ?_ trivial
    rw [get, getTrgOps, hvalue, RcbAttribute.reading]
    simp only [MmsValue.getBitStringBit_bitString]
    rw [MmsValue.options_of_size_six hsize]
    rfl
  | optFlds =>
    obtain ⟨b, rfl, hsize⟩ := h
    rw [get, getOptFlds, hvalue, RcbAttribute.Readable, ← options_toInt32_iff]
    change Except.ok (RcbReading.number _) = Except.ok (RcbReading.number _) ↔ _
    rw [Except.ok.injEq, RcbReading.number.injEq]

end ClientReportControlBlock

/-! ## Setters -/

namespace ClientReportControlBlock

/-- The values that are there have the types of their attributes. -/
def Typed (self : ClientReportControlBlock) : Prop :=
  ∀ a v, self.value a = some v → a.HasType v

end ClientReportControlBlock

namespace RcbSetting

open ClientReportControlBlock

/-- The getter after the setter gives the value again. -/
def ReadBack (self : ClientReportControlBlock) (s : RcbSetting) : Prop :=
  ∃ self', s.set self = .ok self' ∧ self'.get s.rcbAttribute = .ok s.reading

/-- The condition for that. An unsigned reservation time is left alone by its setter. -/
def Fits (self : ClientReportControlBlock) : RcbSetting → Prop
  | optFlds n => n = 0
  | trgOps n => 0 ≤ n ∧ n < 32
  | bufTm n | intgPd n => n < 0xff800000
  | resvTms n => ∀ v, self.value .resvTms = some (.unsigned v) → self.getResvTms = n
  | entryId v =>
    (self.value .entryId = none → v.isOctetString = true) ∧
      ∀ held, self.value .entryId = some held → held.Accepts v
  | _ => True

end RcbSetting

/-- What is stored of four octets. -/
theorem MmsValue.storeInteger_four {v : Asn1PrimitiveValue} (h : 4 ≤ v.maxSize) (n : Nat) :
    ∃ m, storeInteger (BerInteger.setIntegerValue · (BerEncoder.nativeOctets 4 n)) v = m ∧
      0 < m.size ∧ m.size < 5 ∧ 4 ≤ m.maxSize ∧
      m.content = BerEncoder.compressInteger (Octets.ofNat 4 n) := by
  have hle := BerEncoder.length_compressInteger_le (Octets.ofNat 4 n)
  have hpos : 0 < (BerEncoder.compressInteger (Octets.ofNat 4 n)).length :=
    List.length_pos_iff.mpr (BerEncoder.compressInteger_ne_nil (List.cons_ne_nil _ _))
  rw [Octets.length_ofNat] at hle
  have hfit := hle.trans h
  refine ⟨v.store _ hfit, ?_, hpos, Nat.lt_succ_of_le hle, h, v.content_store _ hfit⟩
  rw [storeInteger]
  simp only [BerInteger.setIntegerValue, BerEncoder.revertByteOrder_nativeOctets]
  rw [dif_pos hfit, Option.getD_some]

namespace ClientReportControlBlock

variable {self : ClientReportControlBlock} {a : RcbAttribute} {v w : MmsValue}

@[simp] theorem value_setValue : (self.setValue a v).value a = some v := Function.update_self ..

theorem Typed.setValue (h : self.Typed) (hv : a.HasType v) : (self.setValue a v).Typed := by
  intro a' v' hvalue
  by_cases ha : a' = a
  · subst ha
    rw [value_setValue, Option.some_inj] at hvalue
    exact hvalue ▸ hv
  · exact h a' v' ((Function.update_of_ne ha _ _).symm.trans hvalue)

theorem setString_eq {string : MmsValue.CString}
    (h : ∀ v, self.value a = some v → ∃ s, v = .visibleString (some s)) :
    self.setString a string = self.setValue a (.visibleString (some string)) := by
  rw [setString, setWith]
  cases hvalue : self.value a with
  | none => rfl
  | some v =>
    obtain ⟨s, rfl⟩ := h v hvalue
    rfl

theorem setBoolean_eq {b : Bool} (h : ∀ v, self.value a = some v → ∃ b, v = .boolean b) :
    self.setBoolean a b = self.setValue a (.boolean b) := by
  rw [setBoolean, setWith]
  cases hvalue : self.value a with
  | none => rfl
  | some v =>
    obtain ⟨b', rfl⟩ := h v hvalue
    rfl

theorem setUint32_eq (integer : UInt32)
    (h : ∀ v, self.value a = some v → ∃ n, v = .unsigned n ∧ 0 < n.size ∧ 4 ≤ n.maxSize) :
    ∃ m, self.setUint32 a integer = self.setValue a (.unsigned m) ∧ 0 < m.size ∧ m.size < 5 ∧
      4 ≤ m.maxSize ∧
      m.content = BerEncoder.compressInteger (Octets.ofNat 4 integer.toNat) := by
  rw [setUint32, setWith]
  cases hvalue : self.value a with
  | none =>
    obtain ⟨m, hm, hspec⟩ := MmsValue.storeInteger_four (v := .create 4) (by decide) integer.toNat
    exact ⟨m, congrArg (fun m => self.setValue a (.unsigned m)) hm, hspec⟩
  | some v =>
    obtain ⟨n, rfl, -, hroom⟩ := h v hvalue
    obtain ⟨m, hm, hspec⟩ := MmsValue.storeInteger_four hroom integer.toNat
    refine ⟨m, ?_, hspec⟩
    rw [Option.map_some, Option.getD_some, MmsValue.setUint32, MmsValue.setUnsigned, if_pos hroom]
    exact congrArg (fun m => self.setValue a (.unsigned m)) hm

theorem setOptions_eq {bitSize : Nat} (options : UInt32)
    (h : ∀ v, self.value a = some v → ∃ b, v = .bitString b ∧ b.size = bitSize) :
    ∃ b : MmsValue.BitString, b.size = bitSize ∧ self.setOptions a bitSize options =
      self.setValue a ((MmsValue.bitString b).setBitStringFromInteger options) := by
  rw [setOptions]
  cases hvalue : self.value a with
  | none => exact ⟨_, rfl, rfl⟩
  | some v =>
    obtain ⟨b, rfl, hsize⟩ := h v hvalue
    exact ⟨b, hsize, rfl⟩

end ClientReportControlBlock

/-! ## Updates -/

theorem Asn1PrimitiveValue.size_congr {m n : Asn1PrimitiveValue} (h : m.content = n.content) :
    m.size = n.size := by
  rw [← m.length_content, h, n.length_content]

/-- Only the octets in use are read. -/
theorem MmsValue.getBinaryTimeAsUtcMs_congr {t u : MmsValue.BinaryTime}
    (h : t.content = u.content) :
    (MmsValue.binaryTime t).getBinaryTimeAsUtcMs = (binaryTime u).getBinaryTimeAsUtcMs := by
  have hsize : t.size = u.size := by rw [← t.length_content, h, u.length_content]
  rw [BinaryTime.content, BinaryTime.content, ← hsize] at h
  rw [getBinaryTimeAsUtcMs, getBinaryTimeAsUtcMs, ← hsize]
  rcases t.size_eq with h4 | h6
  · rw [if_neg (by omega), if_neg (by omega), ← h4, h]
  · have hbuf : t.buf = u.buf := by
      rwa [List.take_of_length_le (t.buf_length.trans h6.symm).le,
        List.take_of_length_le (u.buf_length.trans h6.symm).le] at h
    rw [hbuf]

namespace RcbAttribute

variable {a : RcbAttribute} {u v w : MmsValue}

theorem HasType.isLeaf (h : a.HasType v) : v.IsLeaf := by
  cases a with
  | resvTms =>
    obtain ⟨n, rfl | rfl, -⟩ := h <;> trivial
  | _ =>
    obtain ⟨x, hx⟩ := h
    obtain ⟨rfl, -⟩ := hx
    trivial

theorem HasType.clone (h : a.HasType v) : v.clone = .ok v := by
  have hnull : v.isNullString = false := by
    cases a with
    | resvTms =>
      obtain ⟨n, rfl | rfl, -⟩ := h <;> rfl
    | _ =>
      obtain ⟨x, hx⟩ := h
      obtain ⟨rfl, -⟩ := hx
      rfl
  rw [MmsValue.clone, MmsValue.leaves_of_isLeaf h.isLeaf]
  simp [hnull]

theorem HasType.comparable (h : a.HasType w) : u.Comparable w := by
  cases a with
  | resvTms =>
    obtain ⟨n, rfl | rfl, -⟩ := h <;> cases u <;> trivial
  | _ =>
    obtain ⟨x, hx⟩ := h
    obtain ⟨rfl, -⟩ := hx
    cases u <;> trivial

theorem HasType.datum_updated (h : a.HasType w) (haccepts : v.Accepts w) :
    (v.updated w).datum = w.datum := by
  obtain ⟨htypes, htakes⟩ := MmsValue.accepts_iff.mp haccepts
  exact (MmsValue.equals_iff_datum h.comparable).mp ((MmsValue.equals_updated htypes).trans htakes)

theorem HasType.updated_eq (h : a.HasType v) (haccepts : ¬ v.Accepts w) : v.updated w = v := by
  rw [MmsValue.updated]
  cases hupdate : v.update w with
  | none => rfl
  | some v' =>
    exact absurd (MmsValue.accepts_iff.mpr (MmsValue.takes_of_update h.isLeaf hupdate)) haccepts

/-- What a value says is in its datum. -/
theorem HasType.reading_congr (hv : a.HasType v) (hw : a.HasType w) (h : v.datum = w.datum) :
    a.reading v = a.reading w ∧ (a.Readable v ↔ a.Readable w) := by
  cases a with
  | rptId | datSet =>
    obtain ⟨⟨s, hs⟩, rfl⟩ := hv
    obtain ⟨⟨t, ht⟩, rfl⟩ := hw
    cases h
    exact ⟨rfl, Iff.rfl⟩
  | rptEna | resv | gi | purgeBuf =>
    obtain ⟨b, rfl⟩ := hv
    obtain ⟨c, rfl⟩ := hw
    cases h
    exact ⟨rfl, Iff.rfl⟩
  | entryId | owner => exact ⟨congrArg (RcbReading.value ∘ some) h, Iff.rfl⟩
  | timeOfEntry =>
    obtain ⟨t, rfl⟩ := hv
    obtain ⟨u, rfl⟩ := hw
    have hcontent : t.content = u.content := MmsValue.Datum.binaryTime.inj h
    rw [reading, reading, MmsValue.getBinaryTimeAsUtcMs_congr hcontent]
    exact ⟨rfl, Iff.rfl⟩
  | optFlds | trgOps =>
    obtain ⟨⟨size, buf, hb⟩, rfl, -⟩ := hv
    obtain ⟨⟨size', buf', hc⟩, rfl, -⟩ := hw
    cases h
    exact ⟨rfl, Iff.rfl⟩
  | confRev | bufTm | intgPd | sqNum =>
    obtain ⟨m, rfl, -⟩ := hv
    obtain ⟨n, rfl, -⟩ := hw
    have hcontent : m.content = n.content := MmsValue.Datum.unsigned.inj h
    simp [reading, Readable, MmsValue.InFourOctets, MmsValue.integerOf, MmsValue.number, hcontent,
      Asn1PrimitiveValue.size_congr hcontent]
  | resvTms =>
    obtain ⟨m, rfl | rfl, -⟩ := hv <;> obtain ⟨n, rfl | rfl, -⟩ := hw
    · have hcontent : m.content = n.content := MmsValue.Datum.integer.inj h
      simp [reading, Readable, MmsValue.InFourOctets, MmsValue.Signed, MmsValue.integerOf,
        MmsValue.number, hcontent, Asn1PrimitiveValue.size_congr hcontent]
    · cases h
    · cases h
    · have hcontent : m.content = n.content := MmsValue.Datum.unsigned.inj h
      simp [reading, Readable, MmsValue.InFourOctets, MmsValue.Signed, MmsValue.integerOf,
        MmsValue.number, hcontent, Asn1PrimitiveValue.size_congr hcontent]

theorem updated_integer (m n : Asn1PrimitiveValue) (hm : 0 < m.size ∧ 4 ≤ m.maxSize)
    (hn : 0 < n.size) :
    ∃ k : Asn1PrimitiveValue, (0 < k.size ∧ 4 ≤ k.maxSize) ∧
      (MmsValue.integer m).updated (.integer n) = .integer k ∧
      (MmsValue.unsigned m).updated (.unsigned n) = .unsigned k := by
  simp only [MmsValue.updated, MmsValue.update, BerInteger.setFromBerInteger]
  split
  case isTrue hfit =>
    exact ⟨m.store n.content hfit, ⟨by rwa [m.store_size, n.length_content], hm.2⟩, rfl, rfl⟩
  case isFalse => exact ⟨m, hm, rfl, rfl⟩

theorem updated_octetString (o : MmsValue.OctetString) (w : MmsValue) :
    ∃ o', (MmsValue.octetString o).updated w = .octetString o' := by
  cases w with
  | octetString p =>
    simp only [MmsValue.updated, MmsValue.update, MmsValue.updateOctetString]
    split
    case isTrue => exact ⟨_, rfl⟩
    case isFalse => exact ⟨_, rfl⟩
  | _ => exact ⟨o, rfl⟩

/-- An octet string is updated only by one of the same room. -/
theorem datum_updated_octetString_iff {o : MmsValue.OctetString} :
    ((MmsValue.octetString o).updated v).datum = v.datum ↔ (MmsValue.octetString o).Accepts v := by
  constructor
  · intro hdatum
    by_contra haccepts
    have ho : entryId.HasType (.octetString o) := ⟨o, rfl⟩
    rw [ho.updated_eq haccepts] at hdatum
    cases v with
    | octetString p => exact haccepts (Or.inr (MmsValue.Datum.octetString.inj hdatum))
    | _ => cases hdatum
  · intro haccepts
    cases v with
    | octetString p => exact HasType.datum_updated (a := entryId) ⟨p, rfl⟩ haccepts
    | _ => exact haccepts.elim

theorem HasType.updated (hv : a.HasType v) (hw : a.HasType w) : a.HasType (v.updated w) := by
  cases a with
  | rptId | datSet =>
    obtain ⟨s, rfl⟩ := hv
    obtain ⟨t, rfl⟩ := hw
    exact ⟨t, rfl⟩
  | rptEna | resv | gi | purgeBuf =>
    obtain ⟨b, rfl⟩ := hv
    obtain ⟨c, rfl⟩ := hw
    exact ⟨c, rfl⟩
  | confRev | bufTm | intgPd | sqNum =>
    obtain ⟨m, rfl, hm⟩ := hv
    obtain ⟨n, rfl, hn, -⟩ := hw
    obtain ⟨k, hk, -, hupdated⟩ := updated_integer m n hm hn
    exact ⟨k, hupdated, hk⟩
  | resvTms =>
    obtain ⟨m, rfl | rfl, hm⟩ := hv <;> obtain ⟨n, rfl | rfl, hn, -⟩ := hw
    · obtain ⟨k, hk, hupdated, -⟩ := updated_integer m n hm hn
      exact ⟨k, Or.inl hupdated, hk⟩
    · exact ⟨m, Or.inl rfl, hm⟩
    · exact ⟨m, Or.inr rfl, hm⟩
    · obtain ⟨k, hk, -, hupdated⟩ := updated_integer m n hm hn
      exact ⟨k, Or.inr hupdated, hk⟩
  | optFlds | trgOps =>
    obtain ⟨b, rfl, hb⟩ := hv
    obtain ⟨c, rfl, hc⟩ := hw
    simp only [MmsValue.updated, MmsValue.update, MmsValue.updateBitString]
    split
    case isTrue => exact ⟨_, rfl, hb⟩
    case isFalse => exact ⟨_, rfl, hb⟩
  | entryId | owner =>
    obtain ⟨o, rfl⟩ := hv
    exact updated_octetString o w
  | timeOfEntry =>
    obtain ⟨t, rfl⟩ := hv
    obtain ⟨u, rfl⟩ := hw
    exact ⟨_, rfl⟩

end RcbAttribute

namespace RcbSetting

open ClientReportControlBlock

variable {self : ClientReportControlBlock}

/-- The block after a setter, with the value that its attribute has then. -/
theorem readBack_of_setValue {s : RcbSetting} {v : MmsValue} (h : self.Typed)
    (hset : s.set self = .ok (self.setValue s.rcbAttribute v)) (hv : s.rcbAttribute.HasType v)
    (hiff : (self.setValue s.rcbAttribute v).get s.rcbAttribute = .ok s.reading ↔ s.Fits self) :
    (∃ self', s.set self = .ok self' ∧ self'.Typed) ∧ (s.ReadBack self ↔ s.Fits self) := by
  refine ⟨⟨_, hset, h.setValue hv⟩, ?_⟩
  rw [← hiff, ReadBack, hset]
  constructor
  · rintro ⟨self', hself', hget⟩
    cases hself'
    exact hget
  · intro hget
    exact ⟨_, rfl, hget⟩

theorem readBack_of_readable {s : RcbSetting} {v : MmsValue} (h : self.Typed)
    (hset : s.set self = .ok (self.setValue s.rcbAttribute v)) (hv : s.rcbAttribute.HasType v)
    (hreadable : s.rcbAttribute.Readable v)
    (hiff : s.rcbAttribute.reading v = s.reading ↔ s.Fits self) :
    (∃ self', s.set self = .ok self' ∧ self'.Typed) ∧ (s.ReadBack self ↔ s.Fits self) := by
  refine readBack_of_setValue h hset hv ?_
  rw [(get_iff value_setValue hv).mpr hreadable, Except.ok.injEq]
  exact hiff

theorem readBack_uint32 {s : RcbSetting} {integer : UInt32} {m : Asn1PrimitiveValue}
    (h : self.Typed) (hset : s.set self = .ok (self.setValue s.rcbAttribute (.unsigned m)))
    (htype : s.rcbAttribute.HasType (.unsigned m))
    (hreadable : s.rcbAttribute.Readable (.unsigned m) ↔ (MmsValue.unsigned m).InFourOctets)
    (hsize : m.size < 5)
    (hcontent : m.content = BerEncoder.compressInteger (Octets.ofNat 4 integer.toNat))
    (hreading : s.rcbAttribute.reading (.unsigned m) = .number (MmsValue.unsigned m).number)
    (hsetting : s.reading = .number integer.toNat) (hfits : s.Fits self ↔ integer < 0xff800000) :
    (∃ self', s.set self = .ok self' ∧ self'.Typed) ∧ (s.ReadBack self ↔ s.Fits self) := by
  refine readBack_of_readable h hset htype (hreadable.mpr ?_) ?_
  · intro n hn
    cases hn
    exact Or.inl hsize
  · rw [hreading, hsetting, hfits, RcbReading.number.injEq, MmsValue.number, Int.natCast_inj,
      hcontent]
    exact BerEncoder.value_compressInteger_four

theorem readBack_resvTms {n : Int16} {v : Asn1PrimitiveValue} (h : self.Typed)
    (hset : (resvTms n).set self = .ok (self.setValue .resvTms
      (.integer (MmsValue.storeInteger (BerInteger.setInt32 · n.toInt32) v))))
    (hroom : 4 ≤ v.maxSize) (hfits : (resvTms n).Fits self) :
    (∃ self', (resvTms n).set self = .ok self' ∧ self'.Typed) ∧
      ((resvTms n).ReadBack self ↔ (resvTms n).Fits self) := by
  obtain ⟨m, hm, hpos, hsize, hmax, hcontent⟩ :=
    MmsValue.storeInteger_four hroom n.toInt32.toUInt32.toNat
  have hset' : (resvTms n).set self = .ok (self.setValue .resvTms (.integer m)) :=
    hset.trans (congrArg (fun m => Except.ok (self.setValue .resvTms (.integer m))) hm)
  have hnumber : (MmsValue.integer m).number = n.toInt := by
    calc
      Octets.signed m.content = Octets.signed (Octets.ofNat 4 n.toInt32.toUInt32.toNat) := by
        rw [hcontent, BerEncoder.signed_compressInteger]
      _ = n.toInt32.toInt := NativeInteger.signed_octets (.int32 n.toInt32) rfl
      _ = n.toInt := n.toInt_toInt32
  refine readBack_of_readable h hset' ⟨m, Or.inl rfl, hpos, hmax⟩ ⟨?_, ?_, ?_, ?_⟩
    (iff_of_true (congrArg RcbReading.number hnumber) hfits)
  · intro k hk
    cases hk
    exact Or.inl hsize
  · intro k hk
    cases hk
    rfl
  · rw [hnumber]
    exact n.le_toInt
  · rw [hnumber]
    exact n.toInt_lt

theorem readBack_iff (s : RcbSetting) (h : self.Typed) :
    (∃ self', s.set self = .ok self' ∧ self'.Typed) ∧ (s.ReadBack self ↔ s.Fits self) := by
  cases s with
  | rptId string =>
    exact readBack_of_readable h (congrArg _ (setString_eq (h .rptId))) ⟨string, rfl⟩ trivial
      (iff_of_true rfl trivial)
  | datSet string =>
    exact readBack_of_readable h (congrArg _ (setString_eq (h .datSet))) ⟨string, rfl⟩ trivial
      (iff_of_true rfl trivial)
  | rptEna b =>
    exact readBack_of_readable h (congrArg _ (setBoolean_eq (h .rptEna))) ⟨b, rfl⟩ trivial
      (iff_of_true rfl trivial)
  | resv b =>
    exact readBack_of_readable h (congrArg _ (setBoolean_eq (h .resv))) ⟨b, rfl⟩ trivial
      (iff_of_true rfl trivial)
  | gi b =>
    exact readBack_of_readable h (congrArg _ (setBoolean_eq (h .gi))) ⟨b, rfl⟩ trivial
      (iff_of_true rfl trivial)
  | purgeBuf b =>
    exact readBack_of_readable h (congrArg _ (setBoolean_eq (h .purgeBuf))) ⟨b, rfl⟩ trivial
      (iff_of_true rfl trivial)
  | bufTm n =>
    obtain ⟨m, hset, hpos, hsize, hroom, hcontent⟩ := setUint32_eq n (h .bufTm)
    exact readBack_uint32 h (congrArg _ hset) ⟨m, rfl, hpos, hroom⟩ Iff.rfl hsize hcontent rfl rfl
      Iff.rfl
  | intgPd n =>
    obtain ⟨m, hset, hpos, hsize, hroom, hcontent⟩ := setUint32_eq n (h .intgPd)
    exact readBack_uint32 h (congrArg _ hset) ⟨m, rfl, hpos, hroom⟩ Iff.rfl hsize hcontent rfl rfl
      Iff.rfl
  | trgOps n =>
    obtain ⟨b, hsize, hset⟩ := setOptions_eq (n <<< 1).toUInt32 (h .trgOps)
    obtain ⟨c, hc, hcsize, -⟩ := MmsValue.bitString_set (b := b) (n <<< 1).toUInt32
    refine readBack_of_readable h (congrArg _ hset) ⟨c, hc, hcsize.trans hsize⟩ trivial ?_
    rw [rcbAttribute, RcbAttribute.reading, reading, RcbReading.number.injEq,
      MmsValue.getBitStringAsInteger_set _ (by omega), hsize]
    exact options_shift_iff
  | optFlds n =>
    obtain ⟨b, hsize, hset⟩ := setOptions_eq (n * 2).toUInt32 (h .optFlds)
    obtain ⟨c, hc, hcsize, -⟩ := MmsValue.bitString_set (b := b) (n * 2).toUInt32
    have hvalue := MmsValue.getBitStringAsInteger_set (b := b) (n * 2).toUInt32 (by omega)
    rw [hsize] at hvalue
    refine readBack_of_setValue h (congrArg _ hset) ⟨c, hc, hcsize.trans hsize⟩ ?_
    rw [rcbAttribute, ClientReportControlBlock.get, getOptFlds, value_setValue]
    change Except.ok (RcbReading.number _) = Except.ok (RcbReading.number _) ↔ _
    rw [Except.ok.injEq, RcbReading.number.injEq, toInt_toInt32_of_lt (by omega), hvalue]
    exact options_double_iff
  | resvTms n =>
    have hset : (resvTms n).set self = .ok (self.setResvTms n) := rfl
    rw [setResvTms, setWith] at hset
    cases hvalue : self.value .resvTms with
    | none =>
      rw [hvalue] at hset
      refine readBack_resvTms h hset (by decide) ?_
      intro v hv
      cases hvalue.symm.trans hv
    | some held =>
      obtain ⟨m, rfl | rfl, hpos, hroom⟩ := h .resvTms held hvalue
      · rw [hvalue, Option.map_some, Option.getD_some, MmsValue.setInt32, MmsValue.setSigned,
          if_pos hroom] at hset
        refine readBack_resvTms h hset hroom ?_
        intro v hv
        cases hvalue.symm.trans hv
      · rw [hvalue] at hset
        have hset' : (resvTms n).set self = .ok (self.setValue .resvTms (.unsigned m)) := hset
        have hheld : (self.setValue .resvTms (.unsigned m)).value .resvTms = self.value .resvTms :=
          value_setValue.trans hvalue.symm
        have hget := get_congr hheld
        refine readBack_of_setValue h hset' ⟨m, Or.inr rfl, hpos, hroom⟩ ?_
        rw [rcbAttribute, hget, ClientReportControlBlock.get, reading, Except.ok.injEq,
          RcbReading.number.injEq, Int16.toInt_inj]
        constructor
        · intro heq k hk
          exact heq
        · intro hfits
          exact hfits m hvalue
  | entryId v =>
    have hset : (entryId v).set self = self.setEntryId v := rfl
    rw [setEntryId] at hset
    cases hvalue : self.value .entryId with
    | none =>
      rw [hvalue] at hset
      by_cases hv : v.isOctetString = true
      · have htype : RcbAttribute.entryId.HasType v := by
          cases v with
          | octetString o => exact ⟨o, rfl⟩
          | _ => cases hv
        simp only [if_pos hv, htype.clone, ok_bind] at hset
        refine readBack_of_readable h hset htype trivial (iff_of_true rfl ⟨fun _ => hv, ?_⟩)
        intro held hheld
        cases hvalue.symm.trans hheld
      · simp only [if_neg hv] at hset
        refine ⟨⟨self, hset, h⟩, iff_of_false ?_ fun hfits => hv (hfits.1 hvalue)⟩
        rintro ⟨self', hself', hget⟩
        rw [hset] at hself'
        cases hself'
        rw [rcbAttribute, ClientReportControlBlock.get, getEntryId, hvalue] at hget
        cases hget
    | some held =>
      obtain ⟨o, rfl⟩ := h .entryId held hvalue
      obtain ⟨p, hp⟩ := RcbAttribute.updated_octetString o v
      have hleaf : ¬ (MmsValue.octetString o).Composites v := by cases v <;> exact id
      rw [hvalue] at hset
      simp only [MmsValue.updateInMemory_apart hleaf, ok_bind] at hset
      refine readBack_of_setValue h hset ⟨p, hp⟩ ?_
      rw [rcbAttribute, ClientReportControlBlock.get, getEntryId, value_setValue, reading,
        Option.map_some, Except.ok.injEq, RcbReading.value.injEq, Option.some_inj,
        RcbAttribute.datum_updated_octetString_iff]
      constructor
      · intro haccepts
        constructor
        · intro hnone
          cases hvalue.symm.trans hnone
        · intro held hheld
          cases hvalue.symm.trans hheld
          exact haccepts
      · intro hfits
        exact hfits.2 _ hvalue

end RcbSetting

end Iec61850
