import Iec61850.Report.Events
import Iec61850.Report.BufferRuns

/-! Taking an entry apart with the number of members it was made of gives the report back. -/

namespace Iec61850.Reporting

open Machine

section

variable {x : UInt8} {j k : Nat}

theorem toBitVec_bit (hk : k < 8) :
    (1 <<< UInt8.ofNat k : UInt8).toBitVec = BitVec.twoPow 8 k := by
  have hall : ∀ k : Fin 8, (1 <<< UInt8.ofNat k : UInt8).toBitVec = BitVec.twoPow 8 k := by decide
  exact hall ⟨k, hk⟩

theorem and_bit (hk : k < 8) : ((x &&& (1 <<< UInt8.ofNat k)) != 0) = x.toBitVec.getLsbD k := by
  have hne : BitVec.twoPow 8 k ≠ 0 := by
    have hall : ∀ k : Fin 8, BitVec.twoPow 8 k ≠ 0 := by decide
    exact hall ⟨k, hk⟩
  have hiff : (x &&& (1 <<< UInt8.ofNat k)) = 0 ↔ x.toBitVec.getLsbD k = false := by
    rw [← UInt8.toBitVec_inj, UInt8.toBitVec_and, toBitVec_bit hk, BitVec.and_twoPow]
    cases x.toBitVec.getLsbD k with
    | false => simp
    | true => simpa using hne
  cases hx : x.toBitVec.getLsbD k with
  | false => simp [hiff, hx]
  | true => simp [hiff, hx]

theorem or_bit (hj : j < 8) (hk : k < 8) :
    (((x ||| (1 <<< UInt8.ofNat j)) &&& (1 <<< UInt8.ofNat k)) != 0) =
      (((x &&& (1 <<< UInt8.ofNat k)) != 0) || decide (j = k)) := by
  rw [and_bit hk, and_bit hk, UInt8.toBitVec_or, toBitVec_bit hj, BitVec.getLsbD_or,
    BitVec.getLsbD_twoPow, decide_eq_true hj, Bool.true_and]

theorem clear_bit (hj : j < 8) (hk : k < 8) (hne : j ≠ k) :
    (((x &&& ~~~(1 <<< UInt8.ofNat j)) &&& (1 <<< UInt8.ofNat k)) != 0) =
      ((x &&& (1 <<< UInt8.ofNat k)) != 0) := by
  rw [and_bit hk, and_bit hk, UInt8.toBitVec_and, UInt8.toBitVec_not, toBitVec_bit hj,
    BitVec.getLsbD_and, BitVec.getLsbD_not, BitVec.getLsbD_twoPow]
  simp [hj, hk, hne]

end

theorem getBitStringBit_setBitStringBit {buf : List UInt8} {i j : Nat} (hi : i / 8 < buf.length) :
    getBitStringBit (setBitStringBit buf j) i = (getBitStringBit buf i || decide (j = i)) := by
  rw [getBitStringBit, getBitStringBit, setBitStringBit, List.getD_eq_getElem?_getD,
    List.getD_eq_getElem?_getD, List.getElem?_modify]
  by_cases hij : j / 8 = i / 8
  · have hs : buf[i / 8]? = some buf[i / 8] := List.getElem?_eq_getElem hi
    rw [hs]
    simp only [hij, if_true, Option.map_some, Option.getD_some, Option.map_eq_map]
    rw [or_bit (by omega) (by omega)]
    congr 1
    apply decide_eq_decide.mpr
    omega
  · have hne : j ≠ i := fun h => hij (by rw [h])
    simp [hij, hne]

/-- Clearing a bit leaves the others alone. -/
theorem getBitStringBit_clearBitStringBit {v : MmsValue} {i j : Nat} (hne : j ≠ i) :
    (v.clearBitStringBit j).getBitStringBit i = v.getBitStringBit i := by
  unfold MmsValue.clearBitStringBit
  split
  case h_1 b =>
    split
    case isTrue =>
      simp only [MmsValue.getBitStringBit, List.getD_eq_getElem?_getD, List.getElem?_modify]
      by_cases hij : j / 8 = i / 8
      · cases hs : b.buf[i / 8]? with
        | none => simp
        | some x =>
          have := clear_bit (x := x) (j := 7 - j % 8) (k := 7 - i % 8) (by omega) (by omega)
            (by omega)
          rw [Bool.eq_iff_iff, bne_iff_ne, bne_iff_ne] at this
          simp [hij, this]
      · simp [hij]
    case isFalse => rfl
  case h_2 => rfl

section

variable {buf : List UInt8} {members : List Member}

theorem getBitStringBit_setInclusionBits {i j : Nat} (hj : j / 8 < buf.length) :
    getBitStringBit (setInclusionBits i members buf) j =
      (getBitStringBit buf j ||
        decide (i ≤ j ∧ ((members[j - i]?).map isIncluded).getD false = true)) := by
  induction members generalizing i buf with
  | nil => simp [setInclusionBits]
  | cons m ms ih =>
    rw [setInclusionBits, ih (by split <;> simpa [setBitStringBit] using hj)]
    rcases Nat.lt_trichotomy i j with hlt | rfl | hgt
    · have hsub : j - i = (j - (i + 1)) + 1 := by omega
      rw [hsub, List.getElem?_cons_succ]
      split
      · simp [Nat.le_of_lt hlt, Nat.succ_le_of_lt hlt]
      · rw [getBitStringBit_setBitStringBit hj]
        simp [Nat.le_of_lt hlt, Nat.succ_le_of_lt hlt, Nat.ne_of_lt hlt]
    · by_cases hm : m.flag = .none
      · simp [hm, isIncluded]
      · rw [if_neg hm, getBitStringBit_setBitStringBit hj]
        simp [hm, isIncluded]
    · split
      · simp [Nat.not_le_of_gt hgt, Nat.not_le_of_gt (Nat.lt_succ_of_lt hgt)]
      · rw [getBitStringBit_setBitStringBit hj]
        simp [Nat.not_le_of_gt hgt, Nat.not_le_of_gt (Nat.lt_succ_of_lt hgt), Nat.ne_of_gt hgt]

theorem byteSize_spec {n i : Nat} (h : i < n) : i / 8 < BerEncoder.bitStringByteSize n := by
  unfold BerEncoder.bitStringByteSize
  split <;> omega

/-- The inclusion field tells which members are included. -/
theorem getBitStringBit_inclusionBits {i : Nat} (hi : i < members.length) :
    getBitStringBit (inclusionBits members) i = isIncluded members[i] := by
  rw [inclusionBits, getBitStringBit_setInclusionBits (by simpa using byteSize_spec hi)]
  have hz : getBitStringBit (List.replicate (BerEncoder.bitStringByteSize members.length) 0) i =
      false := by
    rw [getBitStringBit, List.getD_eq_getElem?_getD, List.getElem?_replicate]
    split <;> simp
  rw [hz, Bool.false_or, Nat.sub_zero, List.getElem?_eq_getElem hi]
  simp

end

section

variable {m : Block BufferObject} {members : List Member}

theorem readOctets_holdsAll {octets : List UInt8} {pos : Nat}
    (h : m.HoldsAll pos (octets.map .octet)) : readOctets m pos octets.length = .ok octets := by
  induction octets generalizing pos with
  | nil => rfl
  | cons o os ih =>
    obtain ⟨ho, hos⟩ := h
    rw [List.length_cons, readOctets, Block.read_of_holds ho, ok_bind]
    rw [size_octet] at hos
    simp only
    rw [ih hos]
    rfl

theorem readValue_holdsAll {flag : ReportInclusionFlag} {v : MmsValue} {pos : Nat}
    (h : m.HoldsAll pos (valueObjects flag v)) (hv : v.HasStrings) :
    readValue m pos = .ok (flag.code, v, pos + Block.sizeAll (valueObjects flag v)) := by
  obtain ⟨hflag, hvalue, -⟩ := h
  rw [size_octet] at hvalue
  rw [readValue, Block.read_of_holds hflag, ok_bind]
  simp only
  rw [Block.read_of_holds hvalue, ok_bind]
  simp only
  rw [MmsValue.getSizeInMemory_eq hv]
  simp [valueObjects, Nat.add_assoc, pure, Except.pure, ok_bind]

/-- The values of an integrity or GI report. -/
theorem readValues_allObjects {pos : Nat} (h : m.HoldsAll pos (allObjects members))
    (hv : ∀ a ∈ members, a.value.HasStrings) (i : Nat) :
    readValues m (fun _ => true) members.length i pos =
      .ok (members.map fun a => (a.flag.code, a.value)) := by
  induction members generalizing pos i with
  | nil => rfl
  | cons a as ih =>
    rw [allObjects_cons, Block.holdsAll_append] at h
    rw [List.length_cons, readValues, if_pos rfl, readValue_holdsAll h.1 (hv a (by simp)), ok_bind]
    simp only
    rw [ih h.2 fun b hb => hv b (List.mem_cons_of_mem a hb)]
    rfl

/-- A stored value with its flag, for a member that is included. -/
def changedEntry (a : Member) : Option (UInt8 × MmsValue) :=
  if a.flag = .none then none else a.bufferedValue.map fun v => (a.flag.code, v)

theorem changedEntry_excluded {a : Member} {as : List Member} (h : a.flag = .none) :
    (a :: as).filterMap changedEntry = as.filterMap changedEntry :=
  List.filterMap_cons_none (by rw [changedEntry, if_pos h])

theorem changedEntry_included {a : Member} {as : List Member} {v : MmsValue}
    (h : a.flag ≠ .none) (hv : a.bufferedValue = some v) :
    (a :: as).filterMap changedEntry = (a.flag.code, v) :: as.filterMap changedEntry :=
  List.filterMap_cons_some (by rw [changedEntry, if_neg h, hv]; rfl)

/-- The values of a report of events: the reader has to find the same members included. -/
theorem readValues_changedObjects {pos i : Nat} {included : Nat → Bool}
    (h : m.HoldsAll pos (changedObjects members))
    (hv : ∀ a ∈ members, a.flag ≠ .none → ∀ v ∈ a.bufferedValue, v.HasStrings)
    (hi : ∀ k (hk : k < members.length), included (i + k) = isIncluded members[k]) :
    readValues m included members.length i pos = .ok (members.filterMap changedEntry) := by
  induction members generalizing pos i with
  | nil => rfl
  | cons a as ih =>
    have hfirst : included i = isIncluded a := hi 0 (by simp)
    have hrest : ∀ k (hk : k < as.length), included (i + 1 + k) = isIncluded as[k] := by
      intro k hk
      rw [Nat.add_right_comm]
      exact hi (k + 1) (by simpa using hk)
    have hvs : ∀ b ∈ as, b.flag ≠ .none → ∀ v ∈ b.bufferedValue, v.HasStrings :=
      fun b hb => hv b (List.mem_cons_of_mem a hb)
    rw [changedObjects] at h
    rw [List.length_cons, readValues, hfirst, isIncluded]
    by_cases hflag : a.flag = .none
    · rw [if_pos hflag] at h
      rw [if_neg (by simp [hflag]), ih h hvs hrest, changedEntry_excluded hflag]
    · obtain ⟨v, hval⟩ := Option.isSome_iff_exists.mp (a.bufferedValue_of_flag hflag)
      rw [if_neg hflag, hval] at h
      simp only at h
      rw [Block.holdsAll_append] at h
      rw [if_pos (by simp [hflag]), readValue_holdsAll h.1 (hv a (by simp) hflag v hval), ok_bind]
      simp only
      rw [ih h.2 hvs hrest, changedEntry_included hflag hval]
      rfl

/-- What is stored of a report of these members. -/
def storedReport (members : List Member) (isIntegrity isGI : Bool) (id : UInt64) :
    StoredReport where
  entryId := id
  flags := ReportBuffer.entryFlags isIntegrity isGI
  inclusion :=
    if isIntegrity || isGI then allBitStringBits members.length else inclusionBits members
  values :=
    if isIntegrity || isGI then members.map fun a => (a.flag.code, a.value)
    else members.filterMap changedEntry

theorem entryFlags_eq_zero {isIntegrity isGI : Bool} :
    ReportBuffer.entryFlags isIntegrity isGI = 0 ↔ (isIntegrity || isGI) = false := by
  cases isIntegrity <;> cases isGI <;> decide

/-- The reader undoes the writer, given the same number of members. -/
theorem readEntry_isReport {e : Entry} {next : Option Nat} {isIntegrity isGI : Bool} {id : UInt64}
    (h : e.Stored m next) (he : e.IsReport members isIntegrity isGI id)
    (hs : HasStrings members isIntegrity isGI) :
    readEntry m e.pos members.length = .ok (storedReport members isIntegrity isGI id) := by
  have hobjects := h.objects
  rw [he.objects, entryObjects] at hobjects
  rw [readEntry, Block.read_of_holds h.entryId, ok_bind, Block.read_of_holds h.flags, ok_bind]
  simp only
  rw [he.entryId, he.flags, storedReport]
  cases hall : isIntegrity || isGI with
  | true =>
    rw [if_neg (by rw [entryFlags_eq_zero, hall]; simp)]
    rw [if_pos hall] at hobjects
    rw [sizeofReportBufferEntry, readValues_allObjects hobjects ((hasStrings_all hall).mp hs)]
    rfl
  | false =>
    rw [if_pos (by rw [entryFlags_eq_zero, hall])]
    rw [if_neg (by rw [hall]; simp), Block.holdsAll_append, sizeAll_octets,
      length_inclusionBits] at hobjects
    rw [sizeofReportBufferEntry, ← length_inclusionBits, readOctets_holdsAll hobjects.1, ok_bind,
      length_inclusionBits,
      readValues_changedObjects hobjects.2 ((hasStrings_changed hall).mp hs) ?_]
    · rfl
    · intro k hk
      rw [Nat.zero_add, getBitStringBit_inclusionBits hk]
      simp [hk]

end

section

variable {members : List Member} {isIntegrity isGI : Bool} {id : UInt64}

/-- The values come back as they were taken. -/
theorem storedReport_values : (storedReport members isIntegrity isGI id).values.map Prod.snd =
    enqueuedValues members isIntegrity isGI := by
  rw [storedReport, enqueuedValues]
  split
  · simp
  · rw [List.map_filterMap]
    congr 1
    funext a
    rw [changedEntry]
    split <;> simp

theorem reasonOfCode_code (flag : ReportInclusionFlag) :
    reasonOfCode flag.code = reasonOfFlag flag := by
  cases flag <;> rfl

theorem changedEntry_reasons : (members.filterMap changedEntry).map (fun v => reasonOfCode v.1) =
    (members.filter isIncluded).map fun a => reasonOfFlag a.flag := by
  induction members with
  | nil => rfl
  | cons a as ih =>
    by_cases hflag : a.flag = .none
    · rw [changedEntry_excluded hflag, List.filter_cons_of_neg (by simp [isIncluded, hflag])]
      exact ih
    · obtain ⟨v, hval⟩ := Option.isSome_iff_exists.mp (a.bufferedValue_of_flag hflag)
      rw [changedEntry_included hflag hval, List.filter_cons_of_pos (by simp [isIncluded, hflag]),
        List.map_cons, List.map_cons, ih, reasonOfCode_code]

/-- So do the reasons for inclusion, unless they have to be told from the flags. -/
theorem storedReport_reasons_iff :
    (storedReport members isIntegrity isGI id).reasons = sentReasons isIntegrity isGI members ↔
      (isIntegrity || isGI) = false ∨ members = [] := by
  cases h : isIntegrity || isGI with
  | false =>
    have hflags : (storedReport members isIntegrity isGI id).flags = 0 := entryFlags_eq_zero.mpr h
    rw [StoredReport.reasons, if_pos hflags, sentReasons, Bool.or_comm, h, storedReport, h]
    exact iff_of_true changedEntry_reasons (.inl rfl)
  | true =>
    have hflags : (storedReport members isIntegrity isGI id).flags ≠ 0 := by
      intro hz
      rw [entryFlags_eq_zero.mp hz] at h
      cases h
    rw [StoredReport.reasons, if_neg hflags, sentReasons, Bool.or_comm, h, storedReport, h]
    cases members with
    | nil => simp
    | cons a as =>
      have hne : reasonOfFlags (ReportBuffer.entryFlags isIntegrity isGI) ≠
          if isIntegrity then setBitStringBit (if isGI then setBitStringBit [0] 5 else [0]) 4
          else if isGI then setBitStringBit [0] 5 else [0] := by
        cases isIntegrity <;> cases isGI <;> revert h <;> decide
      simp [hne]

end

end Iec61850.Reporting
