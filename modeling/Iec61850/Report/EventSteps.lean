import Iec61850.Report.Creation

/-! What the functions that make reports can do to a report control block. -/

namespace Iec61850.Reporting

open Machine

/-- The reports that are sent. -/
def sentOf : List Output → List Report
  | [] => []
  | .generated _ _ _ :: outputs => sentOf outputs
  | .sent report :: outputs => report :: sentOf outputs

@[simp] theorem sentOf_append (outputs outputs' : List Output) :
    sentOf (outputs ++ outputs') = sentOf outputs ++ sentOf outputs' := by
  induction outputs with
  | nil => rfl
  | cons o outputs ih =>
    cases o with
    | generated => exact ih
    | sent report => exact congrArg (report :: ·) ih

namespace ReportControl

variable {rc rc' : ReportControl} {outputs : List Output} {isIntegrity isGI : Bool}

@[simp] theorem setRCBValue_rptEna {name : ElementName} (h : name ≠ .rptEna)
    (f : MmsValue → MmsValue) : (rc.setRCBValue name f).rcbValues .rptEna = rc.rcbValues .rptEna :=
  if_neg h.symm

/-- The state a report leaves behind: nothing is included any more. -/
def AfterReport (rc rc' : ReportControl) : Prop :=
  ∃ values sqNum buffer lastEntryId,
    values .rptEna = rc.rcbValues .rptEna ∧
    rc' = { rc.clearInclusionFlags with
      rcbValues := values
      sqNum := sqNum
      reportBuffer := buffer
      lastEntryId := lastEntryId }

/-- The memory block has room for an entry with the pending events. -/
def EntryFits (rc : ReportControl) : Prop :=
  ∀ members size, rc.members = some members → bufferEntrySize members false false = .ok size →
    size ≤ rc.reportBuffer.memoryBlock.size

theorem sendReport_cases (h : rc.sendReport isIntegrity isGI = .ok (rc', outputs)) :
    ∃ members report, rc.members = some members ∧ AfterReport rc rc' ∧
      report.connection = rc.clientConnection ∧
      outputs = [.generated isIntegrity isGI members, .sent report] := by
  unfold sendReport at h
  split at h
  · cases h
  case h_2 members hm =>
    obtain ⟨values, -, h⟩ := bind_ok h
    cases h
    refine ⟨members, _, hm, ⟨_, _, _, _, ?_, rfl⟩, rfl, rfl⟩
    simp [clearInclusionFlags, setRCBValue]

theorem enqueueReport_cases {now : UInt64}
    (h : rc.enqueueReport isIntegrity isGI now = .ok (rc', outputs)) :
    (∃ members, rc.members = some members ∧ AfterReport rc rc' ∧
      outputs = [.generated isIntegrity isGI members]) ∨
    ((isIntegrity = false → isGI = false → ¬ rc.EntryFits) ∧ rc' = rc ∧ outputs = []) := by
  unfold enqueueReport at h
  split at h
  · cases h
  case h_2 members hm =>
    obtain ⟨⟨buffer, stored⟩, he, h⟩ := bind_ok h
    cases stored with
    | true =>
      left
      by_cases hen : rc.enabled
      all_goals
        simp only [hen, ↓reduceIte] at h
        cases h
        exact ⟨members, hm, ⟨_, _, _, _, by simp [setRCBValue, clearInclusionFlags], rfl⟩, rfl⟩
    | false =>
      right
      cases h
      refine ⟨?_, rfl, rfl⟩
      rintro rfl rfl hfits
      rw [ReportBuffer.enqueueReport] at he
      obtain ⟨size, hsize, he⟩ := bind_ok he
      have hle := hfits members size hm hsize
      rw [if_neg (not_lt.mpr hle)] at he
      obtain ⟨⟨b, pos⟩, -, he⟩ := bind_ok he
      obtain ⟨b', -, he⟩ := bind_ok he
      cases he

theorem generate_cases {now : UInt64}
    (h : rc.generate isIntegrity isGI now = .ok (rc', outputs)) :
    (∃ members, rc.members = some members ∧ AfterReport rc rc' ∧
      (rc.buffered = true ∧ outputs = [.generated isIntegrity isGI members] ∨
        rc.buffered = false ∧ ∃ report : Report, report.connection = rc.clientConnection ∧
          outputs = [.generated isIntegrity isGI members, .sent report])) ∨
    (rc.buffered = true ∧ (isIntegrity = false → isGI = false → ¬ rc.EntryFits) ∧ rc' = rc ∧
      outputs = []) := by
  unfold generate at h
  split at h
  case isTrue hb =>
    rcases enqueueReport_cases h with ⟨members, hm, hafter, ho⟩ | hskip
    · exact .inl ⟨members, hm, hafter, .inl ⟨hb, ho⟩⟩
    · exact .inr ⟨hb, hskip⟩
  case isFalse hb =>
    obtain ⟨members, report, hm, hafter, hc, ho⟩ := sendReport_cases h
    exact .inl ⟨members, hm, hafter, .inr ⟨eq_false_of_ne_true hb, report, hc, ho⟩⟩

/-- Sending an entry changes the header elements and the position in the buffer. -/
theorem sendNextReportEntry_cases (h : rc.sendNextReportEntry = .ok (rc', outputs)) :
    ∃ values sqNum buffer, values .rptEna = rc.rcbValues .rptEna ∧
      rc' = { rc with rcbValues := values, sqNum := sqNum, reportBuffer := buffer } ∧
      (outputs = [] ∨ ∃ report : Report, report.connection = rc.clientConnection ∧
        outputs = [.sent report]) := by
  unfold sendNextReportEntry at h
  split at h
  · cases h
    exact ⟨rc.rcbValues, rc.sqNum, rc.reportBuffer, rfl, rfl, .inl rfl⟩
  · cases h
  · obtain ⟨stored, -, h⟩ := bind_ok h
    dsimp only at h
    split at h
    · cases h
      exact ⟨_, _, _, by simp [setRCBValue], rfl, .inl rfl⟩
    · obtain ⟨buffer, -, h⟩ := bind_ok h
      cases h
      exact ⟨_, _, _, by simp [prepareEntry, increaseSqNum, setRCBValue], rfl, .inr ⟨_, rfl, rfl⟩⟩

theorem processEventsForReport_inactive {currentTime : UInt64} {hal : Nat → UInt64}
    (h : (rc.enabled || rc.isBuffering) = false) :
    rc.processEventsForReport currentTime hal = .ok (rc, []) := by
  rw [processEventsForReport, h]
  rfl

/-- The time has come for a report of the pending events. -/
def Due (rc : ReportControl) (currentTime : UInt64) : Prop :=
  (rc.triggerOps.gi && rc.gi) = true ∨
    (rc.triggerOps.integrity && 0 < rc.intgPd && rc.nextIntgReportTime ≤ currentTime) = true ∨
    rc.reportTime ≤ currentTime

section

variable {r : ReportControl → List Output → ReportControl → Prop}

/-- What may happen to a block while its reports are made. -/
structure ProcessRule (r : ReportControl → List Output → ReportControl → Prop) : Prop where
  refl : ∀ rc, r rc [] rc
  trans : ∀ rc outputs rc' outputs' rc'', r rc outputs rc' → r rc' outputs' rc'' →
    r rc (outputs ++ outputs') rc''
  flush : ∀ rc now rc' outputs, rc.flush now = .ok (rc', outputs) → r rc outputs rc'
  generate : ∀ rc isIntegrity isGI now rc' outputs, (isIntegrity || isGI) = true →
    rc.generate isIntegrity isGI now = .ok (rc', outputs) → r rc outputs rc'
  sendNextReportEntry : ∀ rc rc' outputs, rc.buffered = true → rc.enabled = true →
    rc.sendNextReportEntry = .ok (rc', outputs) → r rc outputs rc'
  updateTimeOfEntry : ∀ rc currentTime, r rc [] (rc.updateTimeOfEntry currentTime)
  settle : ∀ rc gi, r rc [] { rc with gi := gi, triggered := false }
  setNextTime : ∀ rc next, r rc [] { rc with nextIntgReportTime := next }

namespace ProcessRule

variable (hr : ProcessRule r) {currentTime : UInt64} {hal : Nat → UInt64}

include hr

/-- The change of the time and the report behind a flush. -/
theorem generateAll (gi : Bool) (next : UInt64) {rc1 rc2 : ReportControl} {outputs : List Output}
    {now : UInt64} (hall : (isIntegrity || isGI) = true)
    (h : (ReportControl.updateTimeOfEntry { rc1 with nextIntgReportTime := next }
      currentTime).generate isIntegrity isGI now = .ok (rc2, outputs)) :
    r rc1 outputs { rc2 with gi := gi, triggered := false } := by
  have htime := hr.trans _ _ _ _ _ (hr.setNextTime rc1 next)
    (hr.updateTimeOfEntry _ currentTime)
  have hgen := hr.trans _ _ _ _ _ htime (hr.generate _ _ _ _ _ _ hall h)
  have := hr.trans _ _ _ _ _ hgen (hr.settle rc2 gi)
  rwa [List.append_nil] at this

/-- A GI report is made behind a flush, or none. -/
theorem processGI_cases (h : rc.processGI currentTime hal = .ok (rc', outputs)) :
    (rc.triggerOps.gi && rc.gi) = false ∧ rc' = rc ∧ outputs = [] ∨
      (rc.triggerOps.gi && rc.gi) = true ∧ ∃ now rc1 before after,
        rc.flush now = .ok (rc1, before) ∧ r rc1 after rc' ∧ outputs = before ++ after := by
  unfold ReportControl.processGI at h
  split at h
  case isTrue hdue =>
    obtain ⟨⟨rc1, before⟩, h1, h⟩ := bind_ok h
    obtain ⟨⟨rc2, after⟩, h2, h⟩ := bind_ok h
    cases h
    exact .inr ⟨hdue, _, rc1, before, after, h1,
      hr.generateAll false rc1.nextIntgReportTime rfl h2, rfl⟩
  case isFalse hdue =>
    cases h
    exact .inl ⟨eq_false_of_ne_true hdue, rfl, rfl⟩

theorem processIntegrity_cases (h : rc.processIntegrity currentTime hal = .ok (rc', outputs)) :
    (rc.triggerOps.integrity && 0 < rc.intgPd && rc.nextIntgReportTime ≤ currentTime) = false ∧
        rc' = rc ∧ outputs = [] ∨
      (rc.triggerOps.integrity && 0 < rc.intgPd && rc.nextIntgReportTime ≤ currentTime) = true ∧
        ∃ now rc1 before after,
          rc.flush now = .ok (rc1, before) ∧ r rc1 after rc' ∧ outputs = before ++ after := by
  unfold ReportControl.processIntegrity at h
  split at h
  case isTrue hdue =>
    obtain ⟨⟨rc1, before⟩, h1, h⟩ := bind_ok h
    obtain ⟨⟨rc2, after⟩, h2, h⟩ := bind_ok h
    cases h
    exact .inr ⟨hdue, _, rc1, before, after, h1, hr.generateAll rc2.gi _ rfl h2, rfl⟩
  case isFalse hdue =>
    cases h
    exact .inl ⟨eq_false_of_ne_true hdue, rfl, rfl⟩

theorem processGI (h : rc.processGI currentTime hal = .ok (rc', outputs)) : r rc outputs rc' := by
  rcases hr.processGI_cases h with ⟨-, rfl, rfl⟩ | ⟨-, now, rc1, before, after, h1, h2, rfl⟩
  · exact hr.refl rc'
  · exact hr.trans _ _ _ _ _ (hr.flush _ _ _ _ h1) h2

theorem processIntegrity (h : rc.processIntegrity currentTime hal = .ok (rc', outputs)) :
    r rc outputs rc' := by
  rcases hr.processIntegrity_cases h with
    ⟨-, rfl, rfl⟩ | ⟨-, now, rc1, before, after, h1, h2, rfl⟩
  · exact hr.refl rc'
  · exact hr.trans _ _ _ _ _ (hr.flush _ _ _ _ h1) h2

theorem processTriggered (h : rc.processTriggered currentTime hal = .ok (rc', outputs)) :
    r rc outputs rc' := by
  unfold ReportControl.processTriggered at h
  split at h
  · exact hr.flush _ _ _ _ h
  · cases h
    exact hr.refl rc

theorem sendPending (h : rc.sendPending = .ok (rc', outputs)) : r rc outputs rc' := by
  unfold ReportControl.sendPending at h
  split at h
  case isTrue hbe =>
    rw [Bool.and_eq_true] at hbe
    exact hr.sendNextReportEntry _ _ _ hbe.1 hbe.2 h
  case isFalse =>
    cases h
    exact hr.refl rc

theorem processEventsForReport
    (h : rc.processEventsForReport currentTime hal = .ok (rc', outputs)) : r rc outputs rc' := by
  unfold ReportControl.processEventsForReport at h
  split at h
  · obtain ⟨⟨rc1, outputs1⟩, h1, h⟩ := bind_ok h
    obtain ⟨⟨rc2, outputs2⟩, h2, h⟩ := bind_ok h
    obtain ⟨⟨rc3, outputs3⟩, h3, h⟩ := bind_ok h
    obtain ⟨⟨rc4, outputs4⟩, h4, h⟩ := bind_ok h
    cases h
    have h123 := hr.trans _ _ _ _ _ (hr.trans _ _ _ _ _ (hr.processGI h1)
      (hr.processIntegrity h2)) (hr.processTriggered h3)
    exact hr.trans _ _ _ _ _ h123 (hr.sendPending h4)
  · cases h
    exact hr.refl rc

/-- Pending events are flushed before anything else happens, or they stay pending. -/
theorem processEventsForReport_cases (ht : rc.triggered = true)
    (hactive : (rc.enabled || rc.isBuffering) = true)
    (h : rc.processEventsForReport currentTime hal = .ok (rc', outputs)) :
    (rc.Due currentTime ∧ ∃ now rc1 before after,
      rc.flush now = .ok (rc1, before) ∧ r rc1 after rc' ∧ outputs = before ++ after) ∨
    ¬ rc.reportTime ≤ currentTime ∧ rc.sendPending = .ok (rc', outputs) := by
  rw [ReportControl.processEventsForReport, if_pos hactive] at h
  obtain ⟨⟨rc1, outputs1⟩, h1, h⟩ := bind_ok h
  obtain ⟨⟨rc2, outputs2⟩, h2, h⟩ := bind_ok h
  obtain ⟨⟨rc3, outputs3⟩, h3, h⟩ := bind_ok h
  obtain ⟨⟨rc4, outputs4⟩, h4, h⟩ := bind_ok h
  cases h
  rcases hr.processGI_cases h1 with
    ⟨-, rfl, rfl⟩ | ⟨hdue, now, rc0, before, after, hf, hafter, rfl⟩
  · rcases hr.processIntegrity_cases h2 with
      ⟨-, rfl, rfl⟩ | ⟨hdue, now, rc0, before, after, hf, hafter, rfl⟩
    · by_cases hdue : rc2.reportTime ≤ currentTime
      · rw [ReportControl.processTriggered, ht, Bool.true_and, if_pos (decide_eq_true hdue)] at h3
        exact .inl ⟨.inr (.inr hdue), _, rc3, outputs3, outputs4, h3, hr.sendPending h4, rfl⟩
      · rw [ReportControl.processTriggered, ht, Bool.true_and,
          if_neg (by rwa [decide_eq_true_eq])] at h3
        cases h3
        exact .inr ⟨hdue, h4⟩
    · have h34 := hr.trans _ _ _ _ _ (hr.processTriggered h3) (hr.sendPending h4)
      refine .inl ⟨.inr (.inl hdue), now, rc0, before, _, hf, hr.trans _ _ _ _ _ hafter h34, ?_⟩
      simp only [List.nil_append, List.append_assoc]
  · have h34 := hr.trans _ _ _ _ _ (hr.processTriggered h3) (hr.sendPending h4)
    have h234 := hr.trans _ _ _ _ _ (hr.processIntegrity h2) h34
    refine .inl ⟨.inl hdue, now, rc0, before, _, hf, hr.trans _ _ _ _ _ hafter h234, ?_⟩
    simp only [List.append_assoc]

end ProcessRule

end

/-- What `writeElement` leaves behind. The values of the elements do not matter here, apart
from `RptEna`. -/
inductive Written (dataSets : DataSets) (rc : ReportControl) (w : Write) : ReportControl → Prop
  | same : Written dataSets rc w rc
  | reserved (values : ElementName → MmsValue) :
    w.elementName = .resv → values .rptEna = rc.rcbValues .rptEna →
    Written dataSets rc w { rc with
      rcbValues := values
      reserved := w.boolean
      clientConnection := if w.boolean then some w.connection else rc.clientConnection }
  | dataSet (rc1 : ReportControl) (values : ElementName → MmsValue) :
    w.elementName = .datSet → rc.enabled = false →
    (rc.reserved = true → rc.clientConnection = some w.connection) →
    (rc.rcbValues .datSet).equals w.value = false →
    updateReportDataset dataSets rc (some w.value) = some rc1 →
    values .rptEna = rc.rcbValues .rptEna →
    Written dataSets rc w { rc1.purgeIfBuffered with rcbValues := values }
  | settings (values : ElementName → MmsValue) (triggerOps : TriggerOptions)
      (intgPd bufTm : UInt32) (next : UInt64) (buffer : ReportBuffer) :
    (w.elementName ≠ .rptEna → values .rptEna = rc.rcbValues .rptEna) →
    (buffer = rc.reportBuffer ∨ buffer = rc.reportBuffer.purgeBuf) →
    Written dataSets rc w { rc with
      rcbValues := values
      triggerOps := triggerOps
      intgPd := intgPd
      bufTm := bufTm
      nextIntgReportTime := next
      reportBuffer := buffer }

section

variable {dataSets : DataSets} {w : Write} {result : MmsDataAccessError}

theorem written_updateElement : Written dataSets rc w (rc.updateElement w).1 := by
  unfold updateElement
  split
  · refine .settings _ rc.triggerOps rc.intgPd rc.bufTm rc.nextIntgReportTime rc.reportBuffer ?_
      (.inl rfl)
    intro hn
    exact setRCBValue_rptEna hn _
  · exact .same

theorem written_updateParameter {refresh : ReportControl → ReportControl}
    (hn : w.elementName ≠ .rptEna)
    (hr : ∀ rc, ∃ triggerOps intgPd bufTm next buffer,
      (buffer = rc.reportBuffer ∨ buffer = rc.reportBuffer.purgeBuf) ∧
      refresh rc = { rc with
        triggerOps := triggerOps
        intgPd := intgPd
        bufTm := bufTm
        nextIntgReportTime := next
        reportBuffer := buffer }) : Written dataSets rc w (rc.updateParameter refresh w).1 := by
  unfold updateParameter
  split
  · exact .same
  · obtain ⟨triggerOps, intgPd, bufTm, next, buffer, hb, he⟩ :=
      hr (rc.setRCBValue w.elementName fun value => value.updated w.value)
    rw [he]
    exact .settings _ triggerOps intgPd bufTm next buffer (fun _ => setRCBValue_rptEna hn _) hb

theorem purgeIfBuffered_eq (rc : ReportControl) : ∃ buffer,
    (buffer = rc.reportBuffer ∨ buffer = rc.reportBuffer.purgeBuf) ∧
      rc.purgeIfBuffered = { rc with reportBuffer := buffer } := by
  unfold purgeIfBuffered
  split
  · exact ⟨_, .inr rfl, rfl⟩
  · exact ⟨_, .inl rfl, rfl⟩

theorem updateReportDataset_cases {value : Option MmsValue}
    (h : updateReportDataset dataSets rc value = some rc') :
    ∃ (values : List MmsValue) (dynamic : Bool),
      rc' = { rc with
        isDynamicDataSet := dynamic
        members := some (values.map newMember) } := by
  unfold updateReportDataset at h
  dsimp only at h
  split at h
  case h_1 values _ =>
    cases h
    exact ⟨values, false, rfl⟩
  case h_2 =>
    split at h
    case h_1 values _ =>
      cases h
      exact ⟨values, true, rfl⟩
    case h_2 => cases h

theorem checkReportBufferForEntryID_cases {entryId : List UInt8}
    (h : rc.checkReportBufferForEntryID entryId = .ok (rc', false)) : rc' = rc := by
  unfold checkReportBufferForEntryID at h
  split at h
  · cases h
    rfl
  · obtain ⟨o, -, h⟩ := bind_ok h
    split at h
    · split at h
      · obtain ⟨next, -, h⟩ := bind_ok h
        cases h
      · cases h
    · cases h

theorem writeElement_written (h : writeElement dataSets rc w = .ok (rc', result)) :
    Written dataSets rc w rc' := by
  unfold writeElement at h
  split at h
  · cases h
    exact .same
  case isFalse hen =>
  split at h
  · cases h
    exact .same
  case isFalse hfree =>
  split at h
  case h_1 hn =>
    rw [← fst_of_ok h, updateElement]
    by_cases hel : hasElement rc.buffered w.elementName = true
    · rw [if_pos hel]
      have hne : w.elementName ≠ .rptEna := by
        rw [hn]
        decide
      exact .reserved _ hn (setRCBValue_rptEna hne _)
    · rw [if_neg hel]
      exact .reserved rc.rcbValues hn rfl
  case h_2 =>
    split at h
    · cases h
      exact .settings _ _ _ _ _ _ (fun _ => rfl) (.inr rfl)
    · rw [← fst_of_ok h]
      exact written_updateElement
  case h_3 hn =>
    split at h
    · cases h
      exact .same
    case isFalse hne =>
      split at h
      case h_1 rc1 hd =>
        cases h
        obtain ⟨values, dynamic, rfl⟩ := updateReportDataset_cases hd
        have hfree : rc.reserved = true → rc.clientConnection = some w.connection := by
          intro hr
          by_contra hc
          exact hfree ⟨hr, hc⟩
        refine .dataSet _ _ hn (eq_false_of_ne_true hen) hfree (eq_false_of_ne_true hne) hd ?_
        obtain ⟨buffer, -, he⟩ := purgeIfBuffered_eq { rc with
          isDynamicDataSet := dynamic
          members := some (values.map newMember) }
        rw [he]
        simp [setRCBValue]
      case h_2 =>
        cases h
        exact .same
  case h_4 hn =>
    rw [← fst_of_ok h]
    refine written_updateParameter (by rw [hn]; decide) ?_
    intro rc1
    dsimp only
    split
    · exact ⟨_, _, _, _, _, .inr rfl, rfl⟩
    · exact ⟨_, _, _, _, _, .inl rfl, rfl⟩
  case h_5 hn =>
    rw [← fst_of_ok h]
    refine written_updateParameter (by rw [hn]; decide) ?_
    intro rc1
    obtain ⟨buffer, hb, he⟩ := purgeIfBuffered_eq rc1
    rw [he]
    exact ⟨_, _, _, _, buffer, hb, rfl⟩
  case h_6 hn =>
    rw [← fst_of_ok h]
    refine written_updateParameter (by rw [hn]; decide) ?_
    intro rc1
    obtain ⟨buffer, hb, he⟩ := purgeIfBuffered_eq rc1
    rw [he]
    exact ⟨_, _, _, _, buffer, hb, rfl⟩
  case h_7 =>
    split at h
    · split at h
      · cases h
        exact .same
      · obtain ⟨⟨rc1, found⟩, hf, h⟩ := bind_ok h
        cases found with
        | true => cases h
        | false =>
          cases h
          rw [checkReportBufferForEntryID_cases hf]
          exact .same
    · cases h
      exact .same
  case h_8 =>
    cases h
    exact .same
  case h_9 =>
    rw [← fst_of_ok h]
    exact written_updateElement

/-- The write enables the block. -/
def SwitchesOn (rc : ReportControl) (dataSets : DataSets) (w : Write) : Prop :=
  w.elementName = .rptEna ∧ w.boolean = true ∧ rc.enabled = false ∧
    (updateReportDataset dataSets rc none).isSome

/-- The write ends that the block is enabled. -/
def SwitchesOff (rc : ReportControl) (w : Write) : Prop :=
  w.elementName = .rptEna ∧ w.boolean = false ∧ rc.enabled = true ∧
    rc.clientConnection = some w.connection

theorem writeAccessHandler_rptEna_true (hn : w.elementName = .rptEna) (hb : w.boolean = true) :
    writeAccessHandler dataSets rc w =
      if rc.enabled then .ok (rc, .temporarilyUnavailable)
      else (updateReportDataset dataSets rc none).elim (.ok (rc, .objectAttributeInconsistent))
        fun rc => .ok (rc.enable w, .success) := by
  rw [writeAccessHandler, if_pos hn, if_pos hb]
  cases updateReportDataset dataSets rc none <;> rfl

theorem writeAccessHandler_rptEna_false (hn : w.elementName = .rptEna) (hb : w.boolean = false) :
    writeAccessHandler dataSets rc w =
      if (rc.enabled ∨ rc.reserved) ∧ rc.clientConnection ≠ some w.connection then
        .ok (rc, .temporarilyUnavailable)
      else writeElement dataSets rc.disable w := by
  rw [writeAccessHandler, if_pos hn, if_neg (by rw [hb]; exact Bool.false_ne_true)]

/-- What the handler can do to a block. -/
theorem writeAccessHandler_cases (h : writeAccessHandler dataSets rc w = .ok (rc', result)) :
    rc' = rc ∨
    (∃ rc1, SwitchesOn rc dataSets w ∧ updateReportDataset dataSets rc none = some rc1 ∧
      rc' = rc1.enable w) ∨
    (w.elementName = .rptEna ∧ w.boolean = false ∧
      (rc.enabled = true → rc.clientConnection = some w.connection) ∧
      Written dataSets rc.disable w rc') ∨
    rc' = { rc with gi := true } ∨
    (w.elementName ≠ .rptEna ∧ Written dataSets rc w rc') := by
  by_cases hn : w.elementName = .rptEna
  · rcases Bool.eq_false_or_eq_true w.boolean with hb | hb
    · rw [writeAccessHandler_rptEna_true hn hb] at h
      split at h
      · cases h
        exact .inl rfl
      case isFalse hen =>
        cases hd : updateReportDataset dataSets rc none with
        | some rc1 =>
          rw [hd] at h
          cases h
          exact .inr (.inl ⟨rc1, ⟨hn, hb, eq_false_of_ne_true hen, by rw [hd]; rfl⟩, rfl, rfl⟩)
        | none =>
          rw [hd] at h
          cases h
          exact .inl rfl
    · rw [writeAccessHandler_rptEna_false hn hb] at h
      split at h
      · cases h
        exact .inl rfl
      case isFalse hfree =>
        refine .inr (.inr (.inl ⟨hn, hb, ?_, writeElement_written h⟩))
        intro hen
        by_contra hc
        exact hfree ⟨.inl hen, hc⟩
  · rw [writeAccessHandler, if_neg hn] at h
    split at h
    · split at h
      · cases h
        exact .inr (.inr (.inr (.inl rfl)))
      · cases h
        exact .inl rfl
    · exact .inr (.inr (.inr (.inr ⟨hn, writeElement_written h⟩)))

end

end ReportControl

end Iec61850.Reporting
