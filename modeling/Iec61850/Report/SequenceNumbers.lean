import Iec61850.Report.Ownership
import Iec61850.Mms.IntegerSetters

/-! The sequence numbers of the reports of a block. -/

namespace Iec61850.Reporting

open Machine ReportControl

/-- What is read of `SqNum`. -/
def ReportControl.readSqNum (rc : ReportControl) : Nat := (rc.rcbValues .sqNum).toUint32.toNat

/-- The sequence number is one of the options of the report. -/
def Report.givesSqNum (report : Report) : Bool :=
  report.header[1]?.elim false (·.getBitStringBit 1)

def Report.sqNum (report : Report) : Option MmsValue :=
  if report.givesSqNum then report.header[2]? else none

/-- A block with the reports that have been sent since it was enabled last, and the writes of
clients that have changed what is read of `SqNum`. -/
structure NumberHistory where
  rc : ReportControl
  sent : List Report
  changed : List Write

namespace NumberHistory

def changedBy (rc rc' : ReportControl) : Event → List Write
  | .writeAccessHandler _ w => if rc'.readSqNum = rc.readSqNum then [] else [w]
  | _ => []

def Step (h : NumberHistory) (e : Event) (h' : NumberHistory) : Prop :=
  ∃ rc outputs, h.rc.handle e = .ok (rc, outputs) ∧
    h' = ⟨rc, (if rc.enabled && !h.rc.enabled then [] else h.sent) ++ sentOf outputs,
      h.changed ++ changedBy h.rc rc e⟩

def Receives (h : NumberHistory) (e : Event) : Prop := h.rc.Receives e

/-- The handler does not come to the elements of the block. -/
def Refuses (rc : ReportControl) (w : Write) : Prop :=
  rc.enabled = true ∨ rc.reserved = true ∧ rc.clientConnection ≠ some w.connection

/-- The block is enabled when `SqNum` reads 0, and no client gives it another number. -/
def Steady (h : NumberHistory) (e : Event) : Prop :=
  h.rc.Receives e ∧
    match e with
    | .writeAccessHandler dataSets w =>
      (SwitchesOn h.rc dataSets w → h.rc.readSqNum = 0) ∧
        (w.elementName = .sqNum → Refuses h.rc w ∨
          ((h.rc.rcbValues .sqNum).updated w.value).toUint32.toNat = h.rc.readSqNum)
    | _ => True

/-- The reports carry their numbers, and the next number is read of `SqNum`, which no client
changes: `right` are the numbers of the reports for which this is so. -/
structure Numbered (right : Nat → Prop) (h : NumberHistory) : Prop where
  carried : ∀ k report value, h.sent[k]? = some report → report.sqNum = some value →
    (value.toUint32.toNat = k % 65536 ↔ right k)
  next : h.rc.enabled = true → (h.rc.readSqNum = h.sent.length % 65536 ↔ right h.sent.length)
  unchanged : h.changed = []

/-- The numbers that are read back. Of a larger one the compressor keeps the last octet only. -/
def Readable (k : Nat) : Prop := k % 65536 < 65408

def start (dataSets : DataSets) (buffered : Bool) (rcb : ReportControlBlock)
    (memoryBlockSize : Nat) (reportTime : UInt64) : NumberHistory where
  rc := (ReportControl.create buffered rcb memoryBlockSize reportTime).activateBufferedReports
    dataSets
  sent := []
  changed := []

end NumberHistory

/-! ## The number in the element -/

/-- An octet goes lost exactly where the number is negative as a small signed one. -/
theorem value_compressInteger_two {n : Nat} (h : n < 65536) :
    Octets.value (BerEncoder.compressInteger (Octets.ofNat 2 n)) = n ↔ n < 65408 := by
  have hvalue := Octets.value_ofNat_of_lt (w := 2) h
  obtain ⟨hi, lo, hoctets⟩ : ∃ hi lo, Octets.ofNat 2 n = [hi, lo] := ⟨_, _, rfl⟩
  rw [hoctets] at hvalue ⊢
  have hhi := hi.toNat_lt
  have hlo := lo.toNat_lt
  have hnum : hi.toNat * 256 + lo.toNat = n := by
    rw [← hvalue]
    simp [Octets.value_cons]
  rw [BerEncoder.compressInteger_cons]
  split
  case isTrue hred =>
    have hone : Octets.value (BerEncoder.compressInteger [lo]) = lo.toNat := by
      simp [BerEncoder.compressInteger, Octets.value_cons]
    rw [hone]
    rcases hred with ⟨rfl, hc⟩ | ⟨rfl, hc⟩
    · simp only [UInt8.toNat_ofNat, Nat.reducePow] at *
      omega
    · simp at hnum
      omega
  case isFalse hred =>
    rw [hvalue]
    refine iff_of_true rfl ?_
    by_contra hge
    refine hred (.inr ⟨?_, ?_⟩)
    · apply UInt8.toNat_inj.mp
      change hi.toNat = 255
      omega
    · omega

/-- A value that takes every number of two octets. -/
def HasRoom (value : MmsValue) : Prop := ∃ a, value = .unsigned a ∧ 2 ≤ a.maxSize

theorem HasRoom.updated {value : MmsValue} (h : HasRoom value) (w : MmsValue) :
    HasRoom (value.updated w) := by
  obtain ⟨a, rfl, hroom⟩ := h
  cases w with
  | unsigned b =>
    by_cases hfit : b.content.length ≤ a.maxSize
    · refine ⟨a.store b.content hfit, ?_, hroom⟩
      rw [MmsValue.updated, MmsValue.update, BerInteger.setFromBerInteger, dif_pos hfit]
      rfl
    · refine ⟨a, ?_, hroom⟩
      rw [MmsValue.updated, MmsValue.update, BerInteger.setFromBerInteger, dif_neg hfit]
      rfl
  | _ => exact ⟨a, rfl, hroom⟩

/-- A number of two octets is read back, or its last octet. -/
theorem HasRoom.setUint16 {value : MmsValue} (h : HasRoom value) (integer : UInt16) :
    HasRoom (value.setUint16 integer) ∧
      ((value.setUint16 integer).toUint32.toNat = integer.toNat ↔ integer.toNat < 65408) := by
  obtain ⟨a, rfl, hroom⟩ := h
  have hlen : (BerEncoder.compressInteger (Octets.ofNat 2 integer.toNat)).length ≤ 2 := by
    rw [← Octets.length_ofNat 2 integer.toNat]
    exact BerEncoder.length_compressInteger_le _
  obtain ⟨b, hset, hb⟩ := BerInteger.setIntegerValue_spec a (hlen.trans hroom)
  have hmax : b.maxSize = a.maxSize := by
    simp only [BerInteger.setIntegerValue, BerEncoder.revertByteOrder_nativeOctets] at hset
    rw [dif_pos (hlen.trans hroom)] at hset
    cases hset
    rfl
  have hvalue : (MmsValue.unsigned a).setUint16 integer = .unsigned b := by
    rw [MmsValue.setUint16, MmsValue.setUnsigned, if_pos hroom, MmsValue.storeInteger,
      BerInteger.setUint16, hset]
    rfl
  have hsize : b.size < 5 := by
    rw [← b.length_content, hb]
    omega
  obtain ⟨n, hn, hnum⟩ := BerInteger.toUint32_of_content b hsize
  have hread : ((MmsValue.unsigned b).toUint32).toNat = Octets.value b.content := by
    rw [← hnum, MmsValue.toUint32]
    change ((BerInteger.toUint32 b).getD 0).toNat = n.toNat
    rw [hn]
    rfl
  rw [hvalue, hread, hb]
  exact ⟨⟨b, rfl, hmax ▸ hroom⟩, value_compressInteger_two integer.toNat_lt⟩

/-! ## Reports and their numbers -/

namespace ReportControl

variable {rc rc' rc'' : ReportControl} {outputs outputs' : List Output}

/-- Of the number of reports both the block and its element have the last two octets. -/
structure Counts (rc : ReportControl) (n : Nat) : Prop where
  room : HasRoom (rc.rcbValues .sqNum)
  sqNum : rc.sqNum.toNat = n % 65536
  reads : rc.readSqNum = n % 65536 ↔ NumberHistory.Readable n

/-- The reports that are sent have the numbers from that of the first one on. -/
structure Numbers (rc : ReportControl) (outputs : List Output) (rc' : ReportControl) : Prop where
  room : HasRoom (rc.rcbValues .sqNum) → HasRoom (rc'.rcbValues .sqNum)
  counts : ∀ n, rc.Counts n → rc'.Counts (n + (sentOf outputs).length)
  carried : ∀ n, rc.Counts n → ∀ k report value, (sentOf outputs)[k]? = some report →
    report.sqNum = some value →
    (value.toUint32.toNat = (n + k) % 65536 ↔ NumberHistory.Readable (n + k))

/-- Nothing that has to do with the numbers has changed. -/
structure SameNumber (rc rc' : ReportControl) : Prop where
  sqNum : rc'.sqNum = rc.sqNum
  value : rc'.rcbValues .sqNum = rc.rcbValues .sqNum

theorem SameNumber.refl (rc : ReportControl) : SameNumber rc rc := ⟨rfl, rfl⟩

theorem SameNumber.trans (h : SameNumber rc rc') (h' : SameNumber rc' rc'') :
    SameNumber rc rc'' := ⟨h'.sqNum.trans h.sqNum, h'.value.trans h.value⟩

theorem SameNumber.setRCBValue {name : ElementName} (h : name ≠ .sqNum)
    (f : MmsValue → MmsValue) : SameNumber rc (rc.setRCBValue name f) := ⟨rfl, if_neg h.symm⟩

theorem SameNumber.counts (h : SameNumber rc rc') {n : Nat} (hc : rc.Counts n) : rc'.Counts n where
  room := h.value ▸ hc.room
  sqNum := h.sqNum ▸ hc.sqNum
  reads := by
    rw [readSqNum, h.value]
    exact hc.reads

theorem SameNumber.numbers (h : SameNumber rc rc') (hsent : sentOf outputs = []) :
    Numbers rc outputs rc' where
  room := fun hr => h.value ▸ hr
  counts := by
    intro n hc
    rw [hsent]
    exact h.counts hc
  carried := by
    intro n _ k report value hk
    rw [hsent] at hk
    cases hk

theorem Numbers.refl (rc : ReportControl) : Numbers rc [] rc := (SameNumber.refl rc).numbers rfl

theorem Numbers.trans (h : Numbers rc outputs rc') (h' : Numbers rc' outputs' rc'') :
    Numbers rc (outputs ++ outputs') rc'' where
  room := fun hr => h'.room (h.room hr)
  counts := by
    intro n hc
    rw [sentOf_append, List.length_append, ← Nat.add_assoc]
    exact h'.counts _ (h.counts n hc)
  carried := by
    intro n hc k report value hk hv
    rw [sentOf_append] at hk
    by_cases hlt : k < (sentOf outputs).length
    · rw [List.getElem?_append_left hlt] at hk
      exact h.carried n hc k report value hk hv
    · rw [List.getElem?_append_right (not_lt.mp hlt)] at hk
      have hlater := h'.carried _ (h.counts n hc) _ report value hk hv
      rwa [Nat.add_assoc, Nat.add_sub_cancel' (not_lt.mp hlt)] at hlater

/-- A report has the number that is read of its block. -/
theorem reportHeader_sqNum {entryId : Option MmsValue} {v : MmsValue} {report : Report}
    (hheader : report.header = rc.reportHeader entryId) (h : report.sqNum = some v) :
    v = rc.rcbValues .sqNum := by
  have hgives : report.givesSqNum = (rc.rcbValues .optFlds).getBitStringBit 1 := by
    rw [Report.givesSqNum, hheader]
    rfl
  rw [Report.sqNum, hgives] at h
  split at h
  case isTrue hbit =>
    rw [hheader, reportHeader] at h
    simp only [hbit, ↓reduceIte] at h
    exact (Option.some.inj h).symm
  case isFalse => cases h

theorem increaseSqNum_value (rc : ReportControl) : rc.increaseSqNum.rcbValues .sqNum =
    (rc.rcbValues .sqNum).setUint16 (rc.sqNum + 1) := rfl

/-- Another report has been sent: it has the number, and the next one is one greater. -/
theorem Numbers.sent {report : Report} (hsent : sentOf outputs = [report])
    (hv : ∀ value, report.sqNum = some value → value = rc.rcbValues .sqNum)
    (hnext : SameNumber rc.increaseSqNum rc') : Numbers rc outputs rc' where
  room := by
    intro hr
    rw [hnext.value, increaseSqNum_value]
    exact (hr.setUint16 _).1
  counts := by
    intro n hc
    rw [hsent]
    have hnumber : (rc.sqNum + 1).toNat = (n + 1) % 65536 := by
      rw [UInt16.toNat_add, hc.sqNum]
      simp [Nat.add_mod]
    obtain ⟨hroom, hread⟩ := hc.room.setUint16 (rc.sqNum + 1)
    have hvalue := hnext.value.trans (increaseSqNum_value rc)
    refine ⟨hvalue ▸ hroom, ?_, ?_⟩
    · rw [hnext.sqNum]
      exact hnumber
    · rw [hnumber] at hread
      rw [readSqNum, hvalue]
      exact hread
  carried := by
    intro n hc k r value hk hvalue
    rw [hsent] at hk
    cases k with
    | zero =>
      obtain rfl := Option.some.inj hk
      rw [hv value hvalue]
      exact hc.reads
    | succ k => cases hk

/-- Only what has to do with the numbers counts for a report that is sent. -/
theorem Numbers.of_same (hs : SameNumber rc rc') (h : Numbers rc' outputs rc'') :
    Numbers rc outputs rc'' := by
  have hnone : Numbers rc [] rc' := hs.numbers rfl
  exact hnone.trans h

theorem Numbers.andThen (h : Numbers rc outputs rc') (hs : SameNumber rc' rc'') :
    Numbers rc outputs rc'' := by
  have hnone : Numbers rc' [] rc'' := hs.numbers rfl
  have hall := h.trans hnone
  rwa [List.append_nil] at hall

theorem numbers_sendReport {isIntegrity isGI : Bool}
    (h : rc.sendReport isIntegrity isGI = .ok (rc', outputs)) : Numbers rc outputs rc' := by
  unfold sendReport at h
  split at h
  · cases h
  · obtain ⟨values, -, h⟩ := bind_ok h
    cases h
    have hsame : SameNumber rc (rc.setRCBValue .optFlds fun optFlds =>
        ((optFlds.clearBitStringBit 5).clearBitStringBit 7).clearBitStringBit 9) :=
      .setRCBValue (by decide) _
    refine Numbers.of_same hsame (.sent rfl ?_ ⟨rfl, rfl⟩)
    intro value hv
    exact reportHeader_sqNum rfl hv

theorem numbers_enqueueReport {isIntegrity isGI : Bool} {now : UInt64}
    (h : rc.enqueueReport isIntegrity isGI now = .ok (rc', outputs)) : Numbers rc outputs rc' := by
  unfold enqueueReport at h
  split at h
  · cases h
  · obtain ⟨⟨buffer, stored⟩, -, h⟩ := bind_ok h
    cases stored with
    | true =>
      by_cases hen : rc.enabled
      all_goals
        simp only [hen, ↓reduceIte] at h
        cases h
        exact SameNumber.numbers ⟨rfl, rfl⟩ rfl
    | false =>
      cases h
      exact .refl rc

theorem numbers_sendNextReportEntry (h : rc.sendNextReportEntry = .ok (rc', outputs)) :
    Numbers rc outputs rc' := by
  unfold sendNextReportEntry at h
  split at h
  · cases h
    exact .refl rc
  · cases h
  · obtain ⟨stored, -, h⟩ := bind_ok h
    have hsame : SameNumber rc (rc.prepareEntry stored) := ⟨rfl, rfl⟩
    dsimp only at h
    split at h
    · cases h
      exact hsame.numbers rfl
    · obtain ⟨buffer, -, h⟩ := bind_ok h
      cases h
      refine Numbers.of_same hsame (.sent rfl ?_ ⟨rfl, rfl⟩)
      intro value hv
      exact reportHeader_sqNum rfl hv

theorem numbers_generate {isIntegrity isGI : Bool} {now : UInt64}
    (h : rc.generate isIntegrity isGI now = .ok (rc', outputs)) : Numbers rc outputs rc' := by
  unfold generate at h
  split at h
  · exact numbers_enqueueReport h
  · exact numbers_sendReport h

theorem sameNumber_updateTimeOfEntry (rc : ReportControl) (currentTime : UInt64) :
    SameNumber rc (rc.updateTimeOfEntry currentTime) := by
  unfold updateTimeOfEntry
  split
  · exact .setRCBValue (by decide) _
  · exact ⟨rfl, rfl⟩

theorem numbers_rule : ProcessRule Numbers where
  refl := .refl
  trans := fun _ _ _ _ _ h h' => h.trans h'
  flush := by
    intro rc now rc' outputs h
    unfold flush at h
    split at h
    · obtain ⟨⟨rc1, outputs1⟩, h1, h⟩ := bind_ok h
      cases h
      exact (numbers_generate h1).andThen ⟨rfl, rfl⟩
    · cases h
      exact .refl rc
  generate := fun _ _ _ _ _ _ _ h => numbers_generate h
  sendNextReportEntry := fun _ _ _ _ _ h => numbers_sendNextReportEntry h
  updateTimeOfEntry := fun rc currentTime => (sameNumber_updateTimeOfEntry rc currentTime).numbers rfl
  settle := fun _ _ => SameNumber.numbers ⟨rfl, rfl⟩ rfl
  setNextTime := fun _ _ => SameNumber.numbers ⟨rfl, rfl⟩ rfl

theorem numbers_bypassBufferTime {member : Member} {now : UInt64} {hal : Nat → UInt64}
    (h : rc.bypassBufferTime member now hal = .ok (rc', outputs)) : Numbers rc outputs rc' := by
  unfold bypassBufferTime at h
  split at h
  · have hsame : SameNumber rc { rc with reportTime := now } := ⟨rfl, rfl⟩
    exact .of_same hsame (numbers_rule.processEventsForReport h)
  · cases h
    exact .refl rc

theorem sameNumber_startBufferTime (rc : ReportControl) (now : UInt64) :
    SameNumber rc (rc.startBufferTime now) := by
  have htime := sameNumber_updateTimeOfEntry rc now
  unfold startBufferTime
  split
  · exact .refl rc
  · exact ⟨htime.sqNum, htime.value⟩

theorem numbers_valueUpdated {index : Nat} {flag : ReportInclusionFlag} {now hal : Nat → UInt64}
    (h : rc.valueUpdated index flag now hal = .ok (rc', outputs)) : Numbers rc outputs rc' := by
  unfold valueUpdated at h
  split at h
  · cases h
  · obtain ⟨⟨rc1, outputs1⟩, h1, h⟩ := bind_ok h
    cases h
    have hstart := sameNumber_startBufferTime (rc1.setInclusionFlag index flag) (now 1)
    exact (numbers_bypassBufferTime h1).andThen ⟨hstart.sqNum, hstart.value⟩

theorem numbers_triggerReportObservers {index : Option Nat} {flag : ReportInclusionFlag}
    {now hal : Nat → UInt64}
    (h : rc.triggerReportObservers index flag now hal = .ok (rc', outputs)) :
    Numbers rc outputs rc' := by
  unfold triggerReportObservers at h
  split at h
  · split at h
    · exact numbers_valueUpdated h
    · cases h
      exact .refl rc
  · cases h
    exact .refl rc

/-! ## Writes -/

variable {dataSets : DataSets} {w : Write} {result : MmsDataAccessError}

theorem sameNumber_updateReportDataset {value : Option MmsValue}
    (h : updateReportDataset dataSets rc value = some rc') : SameNumber rc rc' := by
  obtain ⟨values, dynamic, rfl⟩ := updateReportDataset_cases h
  exact ⟨rfl, rfl⟩

theorem sameNumber_purgeIfBuffered (rc : ReportControl) : SameNumber rc rc.purgeIfBuffered := by
  unfold purgeIfBuffered
  split <;> exact ⟨rfl, rfl⟩

/-- The element that is written is the only one that takes the value. -/
theorem sameNumber_updateElement (hn : w.elementName ≠ .sqNum) :
    SameNumber rc (rc.updateElement w).1 := by
  have hset : SameNumber rc (rc.setRCBValue w.elementName (·.updated w.value)) :=
    .setRCBValue hn _
  unfold updateElement
  split
  · exact hset
  · exact .refl rc

theorem sameNumber_updateParameter {refresh : ReportControl → ReportControl}
    (hn : w.elementName ≠ .sqNum) (hr : ∀ rc, SameNumber rc (refresh rc)) :
    SameNumber rc (rc.updateParameter refresh w).1 := by
  unfold updateParameter
  split
  · exact .refl rc
  · have hset : SameNumber rc (rc.setRCBValue w.elementName (·.updated w.value)) :=
      .setRCBValue hn _
    exact hset.trans (hr _)

/-- A write to a block that is not enabled gives `SqNum` the value, and no other element has to do
with the numbers. -/
theorem writeElement_number (h : writeElement dataSets rc w = .ok (rc', result)) :
    SameNumber rc rc' ∨ w.elementName = .sqNum ∧ ¬ NumberHistory.Refuses rc w ∧
      rc'.sqNum = rc.sqNum ∧ rc'.rcbValues .sqNum = (rc.rcbValues .sqNum).updated w.value := by
  by_cases hn : w.elementName = .sqNum
  · unfold writeElement at h
    split at h
    · cases h
      exact .inl (.refl rc)
    case isFalse hen =>
      split at h
      · cases h
        exact .inl (.refl rc)
      case isFalse hfree =>
        right
        rw [hn] at h
        have hupdated := fst_of_ok h
        have hrefuses : ¬ NumberHistory.Refuses rc w := by
          rintro (h1 | h2)
          · exact hen h1
          · exact hfree h2
        refine ⟨hn, hrefuses, ?_⟩
        rw [← hupdated, updateElement, hn]
        exact ⟨rfl, rfl⟩
  · left
    unfold writeElement at h
    split at h
    · cases h
      exact .refl rc
    split at h
    · cases h
      exact .refl rc
    split at h
    case h_1 hr =>
      rw [← fst_of_ok h]
      let rc1 : ReportControl := { rc with
        reserved := w.boolean
        clientConnection := if w.boolean then some w.connection else rc.clientConnection }
      have hset : SameNumber rc1 (rc1.updateElement w).1 := sameNumber_updateElement hn
      exact ⟨hset.sqNum, hset.value⟩
    case h_2 =>
      split at h
      · cases h
        exact ⟨rfl, rfl⟩
      · rw [← fst_of_ok h]
        exact sameNumber_updateElement hn
    case h_3 =>
      split at h
      · cases h
        exact .refl rc
      · split at h
        case h_1 rc1 hd =>
          cases h
          have hpurged := (sameNumber_updateReportDataset hd).trans (sameNumber_purgeIfBuffered rc1)
          exact ⟨hpurged.sqNum, hpurged.value⟩
        case h_2 =>
          cases h
          exact .refl rc
    case h_4 =>
      rw [← fst_of_ok h]
      refine sameNumber_updateParameter hn fun rc => ?_
      dsimp only
      split <;> exact ⟨rfl, rfl⟩
    case h_5 =>
      rw [← fst_of_ok h]
      refine sameNumber_updateParameter hn fun rc => ?_
      have hpurged := sameNumber_purgeIfBuffered rc
      exact ⟨hpurged.sqNum, hpurged.value⟩
    case h_6 =>
      rw [← fst_of_ok h]
      refine sameNumber_updateParameter hn fun rc => ?_
      have hpurged := sameNumber_purgeIfBuffered rc
      exact ⟨hpurged.sqNum, hpurged.value⟩
    case h_7 =>
      split at h
      · split at h
        · cases h
          exact .refl rc
        · obtain ⟨⟨rc1, found⟩, hf, h⟩ := bind_ok h
          cases found with
          | true => cases h
          | false =>
            cases h
            rw [checkReportBufferForEntryID_cases hf]
            exact .refl rc
      · cases h
        exact .refl rc
    case h_8 =>
      cases h
      exact .refl rc
    case h_9 =>
      rw [← fst_of_ok h]
      exact sameNumber_updateElement hn

theorem sameNumber_disable (rc : ReportControl) : SameNumber rc rc.disable := by
  unfold disable
  split <;> exact ⟨rfl, rfl⟩

/-- Whether a block is active is not written to its elements. -/
structure SameFlags (rc rc' : ReportControl) : Prop where
  buffered : rc'.buffered = rc.buffered
  isBuffering : rc'.isBuffering = rc.isBuffering
  enabled : rc'.enabled = rc.enabled

theorem sameFlags_written (h : Written dataSets rc w rc') : SameFlags rc rc' := by
  cases h with
  | same => exact ⟨rfl, rfl, rfl⟩
  | reserved values => exact ⟨rfl, rfl, rfl⟩
  | dataSet rc1 values hn hen hfree hne hd =>
    have hs := (SameOwner.updateReportDataset hd).trans (SameOwner.purgeIfBuffered rc1)
    exact ⟨hs.buffered, hs.isBuffering, hs.enabled⟩
  | settings => exact ⟨rfl, rfl, rfl⟩

/-- What a write has to do with the numbers: it enables the block, or it gives `SqNum` another
value where the block is not enabled, or it does nothing to them. -/
theorem writeAccessHandler_number (h : rc.writeAccessHandler dataSets w = .ok (rc', result)) :
    rc'.buffered = rc.buffered ∧ rc'.isBuffering = rc.isBuffering ∧
      (SwitchesOn rc dataSets w ∧ rc.enabled = false ∧ rc'.enabled = true ∧ rc'.sqNum = 0 ∧
          rc'.rcbValues .sqNum = rc.rcbValues .sqNum ∨
        (rc'.enabled = true → rc.enabled = true) ∧
          (SameNumber rc rc' ∨ w.elementName = .sqNum ∧ ¬ NumberHistory.Refuses rc w ∧
            rc'.rcbValues .sqNum = (rc.rcbValues .sqNum).updated w.value)) := by
  by_cases hn : w.elementName = .rptEna
  · rcases Bool.eq_false_or_eq_true w.boolean with hb | hb
    · rw [writeAccessHandler_rptEna_true hn hb] at h
      split at h
      · cases h
        exact ⟨rfl, rfl, .inr ⟨id, .inl (.refl rc)⟩⟩
      case isFalse hen =>
        cases hd : updateReportDataset dataSets rc none with
        | none =>
          rw [hd] at h
          cases h
          exact ⟨rfl, rfl, .inr ⟨id, .inl (.refl rc)⟩⟩
        | some rc1 =>
          rw [hd] at h
          cases h
          have hoff := eq_false_of_ne_true hen
          have hon : SwitchesOn rc dataSets w := ⟨hn, hb, hoff, by rw [hd]; rfl⟩
          obtain ⟨values, dynamic, rfl⟩ := updateReportDataset_cases hd
          exact ⟨rfl, rfl, .inl ⟨hon, hoff, rfl, rfl, rfl⟩⟩
    · rw [writeAccessHandler_rptEna_false hn hb] at h
      split at h
      · cases h
        exact ⟨rfl, rfl, .inr ⟨id, .inl (.refl rc)⟩⟩
      · have hflags := sameFlags_written (writeElement_written h)
        have hkept : rc.disable.buffered = rc.buffered ∧
            rc.disable.isBuffering = rc.isBuffering := disable_kept
        have hoff : rc'.enabled = false := hflags.enabled
        refine ⟨hflags.buffered.trans hkept.1, hflags.isBuffering.trans hkept.2, .inr ⟨?_, .inl ?_⟩⟩
        · rw [hoff]
          exact fun hf => absurd hf Bool.false_ne_true
        · rcases writeElement_number h with hs | ⟨hs, -⟩
          · exact (sameNumber_disable rc).trans hs
          · rw [hn] at hs
            cases hs
  · rw [writeAccessHandler, if_neg hn] at h
    split at h
    · split at h
      · cases h
        exact ⟨rfl, rfl, .inr ⟨id, .inl ⟨rfl, rfl⟩⟩⟩
      · cases h
        exact ⟨rfl, rfl, .inr ⟨id, .inl (.refl rc)⟩⟩
    · have hflags := sameFlags_written (writeElement_written h)
      refine ⟨hflags.buffered, hflags.isBuffering, .inr ⟨hflags.enabled ▸ id, ?_⟩⟩
      exact (writeElement_number h).imp id fun hs => ⟨hs.1, hs.2.1, hs.2.2.2⟩

end ReportControl

/-! ## Runs -/

namespace NumberHistory

variable {h h' : NumberHistory} {e : Event}

/-- What the steps keep. -/
structure Counted (h : NumberHistory) : Prop where
  room : HasRoom (h.rc.rcbValues .sqNum)
  unbuffered : h.rc.buffered = false → h.rc.isBuffering = false
  carried : ∀ k report value, h.sent[k]? = some report → report.sqNum = some value →
    (value.toUint32.toNat = k % 65536 ↔ Readable k)
  counts : h.rc.enabled = true → h.rc.Counts h.sent.length
  unchanged : h.changed = []

theorem Counted.numbered (hc : h.Counted) : h.Numbered Readable where
  carried := hc.carried
  next := fun hen => (hc.counts hen).reads
  unchanged := hc.unchanged

/-- Reports are sent while the block is enabled. -/
theorem Counted.serve (hc : h.Counted) {rc : ReportControl} {outputs : List Output}
    (hn : Numbers h.rc outputs rc) (hs : OwnedBlock.SendsToOwner h.rc outputs rc) :
    Counted ⟨rc, h.sent ++ sentOf outputs, h.changed⟩ where
  room := hn.room hc.room
  unbuffered := by
    rw [hs.sameOwner.buffered, hs.sameOwner.isBuffering]
    exact hc.unbuffered
  carried := by
    intro k report value hk hv
    by_cases hlt : k < h.sent.length
    · rw [List.getElem?_append_left hlt] at hk
      exact hc.carried k report value hk hv
    · rw [List.getElem?_append_right (not_lt.mp hlt)] at hk
      have hen := (hs.sent hc.unbuffered report (List.mem_of_getElem? hk)).1
      have hnew := hn.carried _ (hc.counts hen) _ report value hk hv
      rwa [Nat.add_sub_cancel' (not_lt.mp hlt)] at hnew
  counts := by
    intro hen
    rw [hs.sameOwner.enabled] at hen
    rw [List.length_append]
    exact hn.counts _ (hc.counts hen)
  unchanged := hc.unchanged

theorem changedBy_same {rc rc' : ReportControl} (hv : rc'.readSqNum = rc.readSqNum) (e : Event) :
    changedBy rc rc' e = [] := by
  cases e with
  | writeAccessHandler dataSets w => exact if_pos hv
  | _ => rfl

theorem Counted.handleWrite (hc : h.Counted) {dataSets : DataSets} {w : Write}
    (hg : h.Steady (.writeAccessHandler dataSets w)) {rc : ReportControl}
    {result : MmsDataAccessError} (hw : h.rc.writeAccessHandler dataSets w = .ok (rc, result)) :
    Counted ⟨rc, (if rc.enabled && !h.rc.enabled then [] else h.sent),
      h.changed ++ changedBy h.rc rc (.writeAccessHandler dataSets w)⟩ := by
  obtain ⟨hb, hbuf, hcases⟩ := writeAccessHandler_number hw
  have hunbuffered : rc.buffered = false → rc.isBuffering = false := by
    rw [hb, hbuf]
    exact hc.unbuffered
  rcases hcases with ⟨hon, hoff, hen, hzero, hvalue⟩ | ⟨hen, hsame⟩
  · have hread : rc.readSqNum = h.rc.readSqNum := congrArg (·.toUint32.toNat) hvalue
    rw [changedBy_same hread, List.append_nil, hen, hoff]
    refine ⟨hvalue ▸ hc.room, hunbuffered, fun k report value hk => (nomatch hk), fun _ => ?_,
      hc.unchanged⟩
    refine ⟨hvalue ▸ hc.room, by rw [hzero]; rfl, ?_⟩
    have hfirst : rc.readSqNum = 0 := hread.trans (hg.2.1 hon)
    have hlow : Readable 0 := by
      unfold Readable
      decide
    exact iff_of_true hfirst hlow
  · have hkeep : (if rc.enabled && !h.rc.enabled then [] else h.sent) = h.sent := by
      apply if_neg
      intro hboth
      rw [Bool.and_eq_true, Bool.not_eq_true'] at hboth
      rw [hen hboth.1] at hboth
      exact Bool.noConfusion hboth.2
    rw [hkeep]
    rcases hsame with hs | ⟨hn, hfree, hvalue⟩
    · have hread : rc.readSqNum = h.rc.readSqNum := congrArg (·.toUint32.toNat) hs.value
      rw [changedBy_same hread, List.append_nil]
      exact ⟨hs.value ▸ hc.room, hunbuffered, hc.carried, fun ht => hs.counts (hc.counts (hen ht)),
        hc.unchanged⟩
    · have hread : rc.readSqNum = h.rc.readSqNum := by
        rw [readSqNum, hvalue]
        exact (hg.2.2 hn).resolve_left hfree
      rw [changedBy_same hread, List.append_nil]
      refine ⟨hvalue ▸ hc.room.updated w.value, hunbuffered, hc.carried, fun ht => ?_, hc.unchanged⟩
      exact absurd (.inl (hen ht)) hfree

/-- While an enabled block stays enabled, reports are sent after those before. -/
theorem Counted.sending (hc : h.Counted) {rc : ReportControl} {outputs : List Output}
    (hn : Numbers h.rc outputs rc) (hs : OwnedBlock.SendsToOwner h.rc outputs rc) :
    Counted ⟨rc, (if rc.enabled && !h.rc.enabled then [] else h.sent) ++ sentOf outputs,
      h.changed ++ []⟩ := by
  rw [hs.sameOwner.enabled, Bool.and_not_self, if_neg Bool.false_ne_true, List.append_nil]
  exact hc.serve hn hs

theorem Counted.deactivate (hc : h.Counted) (connection : Connection) :
    Counted ⟨h.rc.deactivateReportsForConnection connection,
      (if (h.rc.deactivateReportsForConnection connection).enabled && !h.rc.enabled then []
        else h.sent) ++ sentOf [], h.changed ++ []⟩ := by
  rw [sentOf, List.append_nil, List.append_nil]
  unfold deactivateReportsForConnection
  split
  case isFalse =>
    rw [Bool.and_not_self, if_neg Bool.false_ne_true]
    exact hc
  case isTrue =>
    cases hb : h.rc.buffered with
    | false =>
      refine ⟨?_, fun _ => hc.unbuffered hb, hc.carried, fun hen => Bool.noConfusion hen,
        hc.unchanged⟩
      exact hc.room
    | true =>
      refine ⟨?_, fun hbuf => Bool.noConfusion hbuf, hc.carried, fun hen => Bool.noConfusion hen,
        hc.unchanged⟩
      exact hc.room

theorem Counted.step (hc : h.Counted) (hg : h.Steady e) (hs : Step h e h') : h'.Counted := by
  obtain ⟨rc, outputs, hh, rfl⟩ := hs
  cases e with
  | writeAccessHandler dataSets w =>
    obtain ⟨⟨rc1, result⟩, hw, hh⟩ := bind_ok hh
    cases hh
    rw [sentOf, List.append_nil]
    exact hc.handleWrite hg hw
  | deactivateReportsForConnection connection =>
    cases hh
    exact hc.deactivate connection
  | triggerReportObservers index flag now hal =>
    exact hc.sending (numbers_triggerReportObservers hh)
      (OwnedBlock.sends_triggerReportObservers hh)
  | processEventsForReport currentTime hal =>
    exact hc.sending (numbers_rule.processEventsForReport hh)
      (OwnedBlock.sends_processEventsForReport hh)
  | setMemberValue index value =>
    cases hh
    exact hc.sending (SameNumber.numbers ⟨rfl, rfl⟩ rfl) (.nothing ⟨rfl, rfl, rfl, rfl, rfl, rfl⟩)

theorem Counted.start (dataSets : DataSets) (buffered : Bool) (rcb : ReportControlBlock)
    (memoryBlockSize : Nat) (reportTime : UInt64) :
    (start dataSets buffered rcb memoryBlockSize reportTime).Counted := by
  have hnew : Counted ⟨ReportControl.create buffered rcb memoryBlockSize reportTime, [], []⟩ :=
    ⟨⟨.create 4, rfl, by decide⟩, fun _ => rfl, fun _ _ _ hk => absurd hk (by simp),
      fun hen => Bool.noConfusion hen, rfl⟩
  cases buffered with
  | false => exact hnew
  | true =>
    rw [NumberHistory.start, activateBufferedReports, create_buffered, if_pos rfl]
    split
    case h_1 rc1 hd =>
      obtain ⟨values, dynamic, rfl⟩ := updateReportDataset_cases hd
      exact ⟨hnew.room, fun hb => Bool.noConfusion hb, hnew.carried, fun hen => Bool.noConfusion hen, rfl⟩
    case h_2 =>
      exact ⟨hnew.room, fun _ => rfl, hnew.carried, fun hen => Bool.noConfusion hen, rfl⟩

/-- In every run in which a block is enabled only when `SqNum` reads 0, and no client gives
`SqNum` another number, the reports are numbered. -/
theorem run_numbered (dataSets : DataSets) (buffered : Bool) (rcb : ReportControlBlock)
    (memoryBlockSize : Nat) (reportTime : UInt64) {events : List Event}
    (hr : Transition.Run Step Steady
      (start dataSets buffered rcb memoryBlockSize reportTime) events h) :
    h.Numbered Readable := by
  have hinv : h.Counted := by
    refine hr.invariant (Counted.start dataSets buffered rcb memoryBlockSize reportTime) ?_
    intro t e u ht hg hs
    exact ht.step hg hs
  exact hinv.numbered

/-- A block whose reports have sequence numbers. -/
def numberedBlock : ReportControlBlock := ⟨none, none, 1, 1, 0, 4, 0⟩

/-- The update of a value, and the report of it. -/
def observe : Event := .triggerReportObservers (some 0) .valueUpdate (fun _ => 0) fun _ => 0

def process : Event := .processEventsForReport 0 fun _ => 0

/-- The first report of a block that is enabled for the first time. -/
theorem run_numbered_first : ∃ h : NumberHistory, h.rc.enabled = true ∧
    h.rc.readSqNum = 1 ∧ h.sent.length = 1 ∧ h.Numbered Readable := by
  obtain ⟨rc1, h1, hen1⟩ : ∃ rc1, (start oneMember false numberedBlock 0 0).rc.handle
      (.writeAccessHandler oneMember (writeBoolean .rptEna true 1)) = .ok (rc1, []) ∧
        rc1.enabled = true := ⟨_, rfl, rfl⟩
  obtain ⟨rc2, h2, hen2⟩ : ∃ rc2, rc1.handle observe = .ok (rc2, []) ∧ rc2.enabled = true := by
    cases h1
    exact ⟨_, rfl, rfl⟩
  obtain ⟨rc3, outputs, h3, hen3, hread, hlen⟩ : ∃ rc3 outputs, rc2.handle process =
      .ok (rc3, outputs) ∧ rc3.enabled = true ∧ rc3.readSqNum = 1 ∧
        (sentOf outputs).length = 1 := by
    cases h1
    cases h2
    exact ⟨_, _, rfl, rfl, rfl, rfl⟩
  have hnil : Transition.Run Step Steady (start oneMember false numberedBlock 0 0) []
      (start oneMember false numberedBlock 0 0) := .nil
  have hsteady : (start oneMember false numberedBlock 0 0).Steady
      (.writeAccessHandler oneMember (writeBoolean .rptEna true 1)) :=
    ⟨receives_writeBoolean oneMember true 1 rfl, fun _ => rfl, fun hn => (nomatch hn)⟩
  have hr1 := hnil.snoc hsteady ⟨rc1, [], h1, rfl⟩
  have hr2 := hr1.snoc (i := observe) ⟨trivial, trivial⟩ ⟨rc2, [], h2, rfl⟩
  have hr3 := hr2.snoc (i := process) ⟨trivial, trivial⟩ ⟨rc3, outputs, h3, rfl⟩
  refine ⟨_, hen3, hread, ?_, run_numbered oneMember false numberedBlock 0 0 hr3⟩
  simp only [hen1, hen2, hen3, Bool.not_true, Bool.and_false, Bool.false_eq_true, ↓reduceIte]
  rw [List.length_append, hlen]
  rfl

/-- A block is enabled for the second time, and its first report has the next number. -/
theorem numbered_on : ∃ events h value, Transition.Run Step Receives
      (start oneMember false numberedBlock 0 0) events h ∧
    (h.sent[0]?).bind (·.sqNum) = some value ∧ value.toUint32.toNat = 1 ∧
    ¬ h.Numbered fun _ => True := by
  obtain ⟨rc1, h1, hb1, hen1⟩ : ∃ rc1, (start oneMember false numberedBlock 0 0).rc.handle
      (.writeAccessHandler oneMember (writeBoolean .rptEna true 1)) = .ok (rc1, []) ∧
        rc1.buffered = false ∧ rc1.enabled = true := ⟨_, rfl, rfl, rfl⟩
  obtain ⟨rc2, h2⟩ : ∃ rc2, rc1.handle observe = .ok (rc2, []) := by
    cases h1
    exact ⟨_, rfl⟩
  obtain ⟨rc3, outputs, h3, hb3⟩ : ∃ rc3 outputs, rc2.handle process = .ok (rc3, outputs) ∧
      rc3.buffered = false := by
    cases h1
    cases h2
    exact ⟨_, _, rfl, rfl⟩
  obtain ⟨rc4, h4, hb4, hen4⟩ : ∃ rc4, rc3.handle
      (.writeAccessHandler oneMember (writeBoolean .rptEna false 1)) = .ok (rc4, []) ∧
        rc4.buffered = false ∧ rc4.enabled = false := by
    cases h1
    cases h2
    cases h3
    exact ⟨_, rfl, rfl, rfl⟩
  obtain ⟨rc5, h5, hen5⟩ : ∃ rc5, rc4.handle
      (.writeAccessHandler oneMember (writeBoolean .rptEna true 1)) = .ok (rc5, []) ∧
        rc5.enabled = true := by
    cases h1
    cases h2
    cases h3
    cases h4
    exact ⟨_, rfl, rfl⟩
  obtain ⟨rc6, h6, hen6⟩ : ∃ rc6, rc5.handle observe = .ok (rc6, []) ∧ rc6.enabled = true := by
    cases h1
    cases h2
    cases h3
    cases h4
    cases h5
    exact ⟨_, rfl, rfl⟩
  obtain ⟨rc7, outputs', report, value, h7, hen7, hsent, hsq, hone⟩ : ∃ rc7 outputs' report value,
      rc6.handle process = .ok (rc7, outputs') ∧ rc7.enabled = true ∧
        sentOf outputs' = [report] ∧ report.sqNum = some value ∧ value.toUint32.toNat = 1 := by
    cases h1
    cases h2
    cases h3
    cases h4
    cases h5
    cases h6
    exact ⟨_, _, _, _, rfl, rfl, rfl, rfl, rfl⟩
  have hnil : Transition.Run Step Receives (start oneMember false numberedBlock 0 0) []
      (start oneMember false numberedBlock 0 0) := .nil
  have hr1 := hnil.snoc (receives_writeBoolean oneMember true 1 rfl) ⟨rc1, [], h1, rfl⟩
  have hr2 := hr1.snoc (i := observe) trivial ⟨rc2, [], h2, rfl⟩
  have hr3 := hr2.snoc (i := process) trivial ⟨rc3, outputs, h3, rfl⟩
  have hr4 := hr3.snoc (receives_writeBoolean oneMember false 1 (by rw [hb3]; rfl))
    ⟨rc4, [], h4, rfl⟩
  have hr5 := hr4.snoc (receives_writeBoolean oneMember true 1 (by rw [hb4]; rfl))
    ⟨rc5, [], h5, rfl⟩
  have hr6 := hr5.snoc (i := observe) trivial ⟨rc6, [], h6, rfl⟩
  have hr7 := hr6.snoc (i := process) trivial ⟨rc7, outputs', h7, rfl⟩
  have hfirst := hr7
  simp only [hen4, hen5, hen6, hen7, Bool.not_true, Bool.not_false, Bool.and_true, Bool.and_false,
    Bool.false_eq_true, ↓reduceIte, sentOf, List.append_nil, List.nil_append, hsent] at hfirst
  refine ⟨_, _, value, hfirst, hsq, hone, fun hn => ?_⟩
  have hzero := (hn.carried 0 report value rfl hsq).mpr trivial
  rw [hone] at hzero
  exact absurd hzero (by decide)

end NumberHistory

end Iec61850.Reporting
