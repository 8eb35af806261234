import Iec61850.Report.EventSteps
import Iec61850.Lib.Transition

/-! The way of an event into a report. -/

namespace Iec61850.Reporting

open Machine ReportControl

/-- A member of the data set in a report of events. -/
structure Inclusion where
  index : Nat
  flag : ReportInclusionFlag
  value : Option MmsValue

/-- The included members, the first of which is the `i`th. -/
def inclusionsFrom (i : Nat) : List Member → List Inclusion
  | [] => []
  | m :: ms =>
    if m.flag = .none then inclusionsFrom (i + 1) ms
    else ⟨i, m.flag, m.bufferedValue⟩ :: inclusionsFrom (i + 1) ms

def inclusions (members : List Member) : List Inclusion := inclusionsFrom 0 members

/-- The reports of events among the reports that are generated. -/
def eventReports : List Output → List (List Inclusion)
  | [] => []
  | .sent _ :: outputs => eventReports outputs
  | .generated isIntegrity isGI members :: outputs =>
    if isIntegrity || isGI then eventReports outputs
    else inclusions members :: eventReports outputs

namespace ReportControl

def pendingEvents (rc : ReportControl) : List Inclusion := (rc.members.map inclusions).getD []

/-- The block is enabled or buffering. -/
def Active (rc : ReportControl) : Prop := (rc.enabled || rc.isBuffering) = true

def SomeIncluded (rc : ReportControl) : Prop :=
  ∃ members, rc.members = some members ∧ ∃ m ∈ members, m.flag ≠ .none

/-- The events that an active block observes. -/
def observed (rc : ReportControl) : Event → List Inclusion
  | .triggerReportObservers (some index) flag _ _ =>
    if rc.observes flag && (rc.enabled || rc.isBuffering) then
      ((rc.members.bind (·[index]?)).map fun m =>
        ⟨index, flag, (includeMember m flag).bufferedValue⟩).toList
    else []
  | _ => []

end ReportControl

/-- A block with the events observed while it was active and the reports of events that were
generated. -/
structure EventHistory where
  rc : ReportControl
  observed : List Inclusion
  reported : List (List Inclusion)

namespace EventHistory

def Step (h : EventHistory) (e : Event) (h' : EventHistory) : Prop :=
  ∃ rc outputs, h.rc.handle e = .ok (rc, outputs) ∧
    h' = ⟨rc, h.observed ++ h.rc.observed e, h.reported ++ eventReports outputs⟩

/-- Every event is in exactly one report or pending, and there is no report without one. -/
structure NoEventLost (h : EventHistory) : Prop where
  reported : ∀ report ∈ h.reported, report ≠ []
  triggered : h.rc.Active → (h.rc.triggered = true ↔ h.rc.SomeIncluded)
  pending : h.rc.Active → h.observed.Perm (h.reported.flatten ++ h.rc.pendingEvents)
  carried : ¬ h.rc.Active → h.observed.Perm h.reported.flatten

/-- The write replaces the data set and the inclusion flags with it. -/
def ChangesDataSet (rc : ReportControl) (dataSets : DataSets) (w : Write) : Prop :=
  w.elementName = .datSet ∧ rc.enabled = false ∧
    (rc.reserved = true → rc.clientConnection = some w.connection) ∧
    (rc.rcbValues .datSet).equals w.value = false ∧
    (updateReportDataset dataSets rc (some w.value)).isSome

/-- Nothing is pending when a write puts the inclusion flags away. -/
structure KeepsFlags (rc : ReportControl) (dataSets : DataSets) (w : Write) : Prop where
  on : SwitchesOn rc dataSets w → rc.triggered = false
  off : SwitchesOff rc w → rc.isBuffering = false → rc.triggered = false
  dataSet : ChangesDataSet rc dataSets w → rc.isBuffering = true → rc.triggered = false

/-- Pending events are not put away, and there is room for their report. -/
def Keeps (h : EventHistory) (e : Event) : Prop :=
  h.rc.Receives e ∧
    match e with
    | .writeAccessHandler dataSets w => KeepsFlags h.rc dataSets w
    | .deactivateReportsForConnection connection =>
      h.rc.enabled = true → h.rc.clientConnection = some connection → h.rc.isBuffering = false →
        h.rc.triggered = false
    | .processEventsForReport currentTime _ =>
      h.rc.Active → h.rc.triggered = true → h.rc.Due currentTime → h.rc.buffered = true →
        h.rc.EntryFits
    | .triggerReportObservers (some index) flag _ _ =>
      h.rc.observes flag = true → h.rc.Active →
        (∃ m, h.rc.members.bind (·[index]?) = some m ∧ m.flag ≠ .none) → h.rc.buffered = true →
          h.rc.EntryFits
    | _ => True

def start (dataSets : DataSets) (buffered : Bool) (rcb : ReportControlBlock)
    (memoryBlockSize : Nat) (reportTime : UInt64) : EventHistory where
  rc := (ReportControl.create buffered rcb memoryBlockSize reportTime).activateBufferedReports
    dataSets
  observed := []
  reported := []

end EventHistory

section

variable {i : Nat} {members : List Member}

theorem inclusionsFrom_ne_nil_iff : inclusionsFrom i members ≠ [] ↔ ∃ m ∈ members, m.flag ≠ .none := by
  induction members generalizing i with
  | nil => simp [inclusionsFrom]
  | cons m ms ih =>
    rw [inclusionsFrom]
    split
    case isTrue h => simp [ih, h]
    case isFalse h => simp [h]

theorem inclusionsFrom_eq_nil (h : ∀ m ∈ members, m.flag = .none) :
    inclusionsFrom i members = [] := by
  by_contra hne
  obtain ⟨m, hm, hf⟩ := inclusionsFrom_ne_nil_iff.mp hne
  exact hf (h m hm)

theorem inclusionsFrom_setValue (index : Nat) (value : MmsValue) :
    inclusionsFrom i (members.modify index fun m => { m with value := value }) =
      inclusionsFrom i members := by
  induction members generalizing i index with
  | nil => cases index <;> rfl
  | cons m ms ih =>
    cases index with
    | zero => rfl
    | succ index => simp only [List.modify_succ_cons, inclusionsFrom, ih]

/-- A member that was not included becomes an inclusion. -/
theorem inclusionsFrom_include {index : Nat} {m : Member} {flag : ReportInclusionFlag}
    (hm : members[index]? = some m) (hnone : m.flag = .none) (hflag : flag ≠ .none) :
    (inclusionsFrom i (members.modify index (includeMember · flag))).Perm
      (⟨i + index, flag, (includeMember m flag).bufferedValue⟩ :: inclusionsFrom i members) := by
  induction members generalizing i index with
  | nil => cases hm
  | cons m' ms ih =>
    cases index with
    | zero =>
      obtain rfl := Option.some.inj hm
      have hinc : ¬ (includeMember m' flag).flag = .none := hflag
      rw [List.modify_zero_cons, inclusionsFrom, inclusionsFrom, if_neg hinc, if_pos hnone]
      exact .refl _
    | succ index =>
      have := ih (i := i + 1) hm
      rw [Nat.add_right_comm] at this
      rw [List.modify_succ_cons, inclusionsFrom, inclusionsFrom]
      split
      · exact this
      · exact (this.cons _).trans (.swap _ _ _)

end

@[simp] theorem eventReports_append (outputs outputs' : List Output) :
    eventReports (outputs ++ outputs') = eventReports outputs ++ eventReports outputs' := by
  induction outputs with
  | nil => rfl
  | cons o outputs ih =>
    cases o with
    | sent report => exact ih
    | generated isIntegrity isGI members =>
      cases hall : isIntegrity || isGI <;> simp [eventReports, hall, ih]

namespace ReportControl

variable {rc rc' : ReportControl} {outputs : List Output}

theorem pendingEvents_eq {members : List Member} (h : rc.members = some members) :
    rc.pendingEvents = inclusions members := by
  rw [pendingEvents, h]
  rfl

theorem someIncluded_iff : rc.SomeIncluded ↔ rc.pendingEvents ≠ [] := by
  constructor
  · rintro ⟨members, hm, hsome⟩
    rw [pendingEvents_eq hm]
    exact inclusionsFrom_ne_nil_iff.mpr hsome
  · intro hne
    cases hm : rc.members with
    | none =>
      rw [pendingEvents, hm] at hne
      exact absurd rfl hne
    | some members =>
      rw [pendingEvents_eq hm] at hne
      exact ⟨members, hm, inclusionsFrom_ne_nil_iff.mp hne⟩

theorem pendingEvents_clear (rc : ReportControl) : rc.clearInclusionFlags.pendingEvents = [] := by
  cases hm : rc.members with
  | none => simp [pendingEvents, clearInclusionFlags, hm]
  | some members =>
    rw [pendingEvents, clearInclusionFlags, hm]
    apply inclusionsFrom_eq_nil
    intro m hmem
    obtain ⟨m', -, rfl⟩ := List.mem_map.mp hmem
    rfl

theorem pendingEvents_newMembers {dataSets : DataSets} {value : Option MmsValue}
    (h : updateReportDataset dataSets rc value = some rc') : rc'.pendingEvents = [] := by
  obtain ⟨values, dynamic, rfl⟩ := updateReportDataset_cases h
  apply inclusionsFrom_eq_nil
  intro m hmem
  obtain ⟨v, -, rfl⟩ := List.mem_map.mp hmem
  rfl

/-- What a member holds, apart from its flag. -/
def dataOf (m : Member) : MmsValue × Option MmsValue := (m.value, m.bufferedValue)

/-- The same data set in the same state of activity. -/
structure SameActivity (rc rc' : ReportControl) : Prop where
  enabled : rc'.enabled = rc.enabled
  isBuffering : rc'.isBuffering = rc.isBuffering
  buffered : rc'.buffered = rc.buffered
  data : rc'.members.map (·.map dataOf) = rc.members.map (·.map dataOf)

namespace SameActivity

theorem refl (rc : ReportControl) : SameActivity rc rc := ⟨rfl, rfl, rfl, rfl⟩

theorem trans {rc'' : ReportControl} (h : SameActivity rc rc') (h' : SameActivity rc' rc'') :
    SameActivity rc rc'' :=
  ⟨h'.enabled.trans h.enabled, h'.isBuffering.trans h.isBuffering, h'.buffered.trans h.buffered,
    h'.data.trans h.data⟩

theorem clear (rc : ReportControl) : SameActivity rc rc.clearInclusionFlags := by
  refine ⟨rfl, rfl, rfl, ?_⟩
  cases hm : rc.members with
  | none => simp [clearInclusionFlags, hm]
  | some members =>
    simp only [clearInclusionFlags, hm, Option.map_some, List.map_map]
    rfl

theorem afterReport (h : AfterReport rc rc') : SameActivity rc rc' := by
  obtain ⟨values, sqNum, buffer, lastEntryId, -, rfl⟩ := h
  exact ⟨rfl, rfl, rfl, (clear rc).data⟩

end SameActivity

theorem pendingEvents_afterReport (h : AfterReport rc rc') : rc'.pendingEvents = [] := by
  obtain ⟨values, sqNum, buffer, lastEntryId, -, rfl⟩ := h
  exact pendingEvents_clear rc

/-- No event is pending. -/
def Settled (rc : ReportControl) : Prop := rc.triggered = false ∧ rc.pendingEvents = []

/-- Nothing is pending afterwards if nothing was, and no events are reported. -/
structure Quiet (rc : ReportControl) (outputs : List Output) (rc' : ReportControl) : Prop where
  same : SameActivity rc rc'
  settled : rc.Settled → rc'.Settled ∧ eventReports outputs = []

theorem generate_same {isIntegrity isGI : Bool} {now : UInt64}
    (h : rc.generate isIntegrity isGI now = .ok (rc', outputs)) : SameActivity rc rc' := by
  rcases generate_cases h with ⟨members, -, hafter, -⟩ | ⟨-, -, rfl, -⟩
  · exact .afterReport hafter
  · exact .refl _

theorem generate_eventReports {isIntegrity isGI : Bool} {now : UInt64}
    (hall : (isIntegrity || isGI) = true)
    (h : rc.generate isIntegrity isGI now = .ok (rc', outputs)) : eventReports outputs = [] := by
  rcases generate_cases h with
    ⟨members, -, -, ⟨-, rfl⟩ | ⟨-, report, -, rfl⟩⟩ | ⟨-, -, -, rfl⟩
  · simp [eventReports, hall]
  · simp [eventReports, hall]
  · rfl

theorem generate_triggered {isIntegrity isGI : Bool} {now : UInt64}
    (h : rc.generate isIntegrity isGI now = .ok (rc', outputs)) :
    rc'.triggered = rc.triggered := by
  rcases generate_cases h with ⟨members, -, ⟨_, _, _, _, -, rfl⟩, -⟩ | ⟨-, -, rfl, -⟩ <;> rfl

theorem generate_settled {isIntegrity isGI : Bool} {now : UInt64}
    (h : rc.generate isIntegrity isGI now = .ok (rc', outputs)) (hs : rc.Settled) :
    rc'.Settled := by
  refine ⟨(generate_triggered h).trans hs.1, ?_⟩
  rcases generate_cases h with ⟨members, -, hafter, -⟩ | ⟨-, -, rfl, -⟩
  · exact pendingEvents_afterReport hafter
  · exact hs.2

theorem flush_same {now : UInt64} (h : rc.flush now = .ok (rc', outputs)) :
    SameActivity rc rc' := by
  unfold flush at h
  split at h
  · obtain ⟨⟨rc1, outputs1⟩, h1, h⟩ := bind_ok h
    cases h
    exact (generate_same h1).trans ⟨rfl, rfl, rfl, rfl⟩
  · cases h
    exact .refl _

/-- With room for it, the pending events make one report. -/
theorem flush_triggered {now : UInt64} (ht : rc.triggered = true)
    (hfits : rc.buffered = true → rc.EntryFits) (h : rc.flush now = .ok (rc', outputs)) :
    rc'.Settled ∧ eventReports outputs = [rc.pendingEvents] := by
  rw [flush, if_pos ht] at h
  obtain ⟨⟨rc1, outputs1⟩, h1, h⟩ := bind_ok h
  cases h
  rcases generate_cases h1 with
    ⟨members, hm, hafter, houtputs⟩ | ⟨hb, hskip, -, -⟩
  · have hnone := pendingEvents_afterReport hafter
    refine ⟨⟨rfl, hnone⟩, ?_⟩
    rw [pendingEvents_eq hm]
    rcases houtputs with ⟨-, rfl⟩ | ⟨-, report, -, rfl⟩ <;> rfl
  · exact absurd (hfits hb) (hskip rfl rfl)

theorem updateTimeOfEntry_eq (rc : ReportControl) (currentTime : UInt64) :
    ∃ values time, rc.updateTimeOfEntry currentTime =
      { rc with rcbValues := values, timeOfEntry := time } := by
  unfold updateTimeOfEntry
  split
  · exact ⟨_, rc.timeOfEntry, rfl⟩
  · exact ⟨rc.rcbValues, _, rfl⟩

theorem quiet_rule : ProcessRule Quiet where
  refl := fun rc => ⟨.refl rc, fun hs => ⟨hs, rfl⟩⟩
  trans := by
    intro rc outputs rc' outputs' rc'' h h'
    refine ⟨h.same.trans h'.same, fun hs => ?_⟩
    obtain ⟨hs1, ho⟩ := h.settled hs
    obtain ⟨hs2, ho'⟩ := h'.settled hs1
    exact ⟨hs2, by rw [eventReports_append, ho, ho']; rfl⟩
  flush := by
    intro rc now rc' outputs h
    refine ⟨flush_same h, fun hs => ?_⟩
    rw [flush, if_neg (by rw [hs.1]; exact Bool.false_ne_true)] at h
    cases h
    exact ⟨hs, rfl⟩
  generate := fun rc _ _ _ rc' outputs hall h =>
    ⟨generate_same h, fun hs => ⟨generate_settled h hs, generate_eventReports hall h⟩⟩
  sendNextReportEntry := by
    intro rc rc' outputs _ _ h
    obtain ⟨values, sqNum, buffer, -, rfl, rfl | ⟨report, -, rfl⟩⟩ := sendNextReportEntry_cases h
    · exact ⟨⟨rfl, rfl, rfl, rfl⟩, fun hs => ⟨hs, rfl⟩⟩
    · exact ⟨⟨rfl, rfl, rfl, rfl⟩, fun hs => ⟨hs, rfl⟩⟩
  updateTimeOfEntry := by
    intro rc currentTime
    obtain ⟨values, time, he⟩ := updateTimeOfEntry_eq rc currentTime
    rw [he]
    exact ⟨⟨rfl, rfl, rfl, rfl⟩, fun hs => ⟨hs, rfl⟩⟩
  settle := fun rc gi => ⟨⟨rfl, rfl, rfl, rfl⟩, fun hs => ⟨⟨rfl, hs.2⟩, rfl⟩⟩
  setNextTime := fun rc next => ⟨⟨rfl, rfl, rfl, rfl⟩, fun hs => ⟨hs, rfl⟩⟩

/-- The flags agree with `triggered`. -/
def Consistent (rc : ReportControl) : Prop := rc.triggered = true ↔ rc.pendingEvents ≠ []

theorem Consistent.settled (h : rc.Consistent) (ht : rc.triggered = false) : rc.Settled := by
  refine ⟨ht, ?_⟩
  by_contra hne
  rw [h.mpr hne] at ht
  exact Bool.noConfusion ht

theorem Settled.consistent (h : rc.Settled) : rc.Consistent := by
  rw [Consistent, h.1, h.2]
  simp

/-- The pending events are in the reports or still pending. -/
structure Carries (rc : ReportControl) (outputs : List Output) (rc' : ReportControl) : Prop where
  same : SameActivity rc rc'
  consistent : rc'.Consistent
  carried : rc.pendingEvents = (eventReports outputs).flatten ++ rc'.pendingEvents
  reported : ∀ report ∈ eventReports outputs, report ≠ []

theorem carries_sendPending (hc : rc.Consistent) (h : rc.sendPending = .ok (rc', outputs)) :
    Carries rc outputs rc' := by
  unfold sendPending at h
  split at h
  · obtain ⟨values, sqNum, buffer, -, rfl, rfl | ⟨report, -, rfl⟩⟩ := sendNextReportEntry_cases h
    · exact ⟨⟨rfl, rfl, rfl, rfl⟩, hc, rfl, fun _ hr => nomatch hr⟩
    · exact ⟨⟨rfl, rfl, rfl, rfl⟩, hc, rfl, fun _ hr => nomatch hr⟩
  · cases h
    exact ⟨.refl _, hc, rfl, fun _ hr => nomatch hr⟩

/-- A flush and what comes behind it. -/
theorem carries_flush {now : UInt64} {rc1 : ReportControl} {before after : List Output}
    (hc : rc.Consistent) (ht : rc.triggered = true) (hfits : rc.buffered = true → rc.EntryFits)
    (hf : rc.flush now = .ok (rc1, before)) (hq : Quiet rc1 after rc') :
    Carries rc (before ++ after) rc' ∧ rc'.Settled := by
  obtain ⟨hs1, hbefore⟩ := flush_triggered ht hfits hf
  obtain ⟨hs, hafter⟩ := hq.settled hs1
  have hreports : eventReports (before ++ after) = [rc.pendingEvents] := by
    rw [eventReports_append, hbefore, hafter]
    rfl
  refine ⟨⟨(flush_same hf).trans hq.same, hs.consistent, ?_, ?_⟩, hs⟩
  · rw [hreports, hs.2]
    simp
  · rw [hreports]
    intro report hr
    rw [List.mem_singleton.mp hr]
    exact hc.mp ht

theorem processEventsForReport_carries {currentTime : UInt64} {hal : Nat → UInt64}
    (hactive : rc.Active) (hc : rc.Consistent)
    (hfits : rc.triggered = true → rc.Due currentTime → rc.buffered = true → rc.EntryFits)
    (h : rc.processEventsForReport currentTime hal = .ok (rc', outputs)) :
    Carries rc outputs rc' ∧ (rc.reportTime ≤ currentTime → rc'.Settled) := by
  cases ht : rc.triggered with
  | false =>
    have hs := hc.settled ht
    have hq := quiet_rule.processEventsForReport h
    obtain ⟨hs', houtputs⟩ := hq.settled hs
    refine ⟨⟨hq.same, hs'.consistent, ?_, ?_⟩, fun _ => hs'⟩
    · rw [houtputs, hs.2, hs'.2]
      rfl
    · rw [houtputs]
      exact fun _ hr => nomatch hr
  | true =>
    rcases quiet_rule.processEventsForReport_cases ht hactive h with
      ⟨hdue, now, rc1, before, after, hf, hq, rfl⟩ | ⟨hnot, hsend⟩
    · have := carries_flush hc ht (hfits ht hdue) hf hq
      exact ⟨this.1, fun _ => this.2⟩
    · exact ⟨carries_sendPending hc hsend, fun hdue => absurd hdue hnot⟩

/-- A pending event of the same member is reported first. -/
theorem bypassBufferTime_carries {member : Member} {now : UInt64} {hal : Nat → UInt64}
    (hactive : rc.Active) (hc : rc.Consistent)
    (hfits : member.flag ≠ .none → rc.buffered = true → rc.EntryFits)
    (h : rc.bypassBufferTime member now hal = .ok (rc', outputs)) :
    Carries rc outputs rc' ∧ (member.flag ≠ .none → rc'.Settled) := by
  unfold bypassBufferTime at h
  split at h
  case isTrue hflag =>
    have hp := @processEventsForReport_carries { rc with reportTime := now } _ _ _ _ hactive hc
      (fun _ _ => hfits hflag) h
    obtain ⟨hcarries, hsettled⟩ := hp
    refine ⟨⟨?_, hcarries.consistent, hcarries.carried, hcarries.reported⟩,
      fun _ => hsettled (UInt64.le_refl now)⟩
    exact ⟨hcarries.same.enabled, hcarries.same.isBuffering, hcarries.same.buffered,
      hcarries.same.data⟩
  case isFalse hflag =>
    cases h
    exact ⟨⟨.refl _, hc, rfl, fun _ hr => nomatch hr⟩, fun hne => absurd hne hflag⟩

theorem pendingEvents_startBufferTime (rc : ReportControl) (now : UInt64) :
    (rc.startBufferTime now).members = rc.members ∧
      SameActivity rc (rc.startBufferTime now) := by
  unfold startBufferTime
  split
  · exact ⟨rfl, .refl _⟩
  · obtain ⟨values, time, he⟩ := updateTimeOfEntry_eq rc now
    rw [he]
    exact ⟨rfl, rfl, rfl, rfl, rfl⟩

/-- The event joins the events that are pending. -/
theorem pendingEvents_setInclusionFlag {index : Nat} {flag : ReportInclusionFlag} {m : Member}
    (hm : rc.members.bind (·[index]?) = some m) (hnone : m.flag = .none) (hflag : flag ≠ .none) :
    (rc.setInclusionFlag index flag).pendingEvents.Perm
      (⟨index, flag, (includeMember m flag).bufferedValue⟩ :: rc.pendingEvents) := by
  obtain ⟨members, hms, hget⟩ := Option.bind_eq_some_iff.mp hm
  rw [pendingEvents_eq hms, pendingEvents, setInclusionFlag, hms]
  have := inclusionsFrom_include (i := 0) hget hnone hflag
  rwa [Nat.zero_add] at this

theorem SameActivity.member {index : Nat} {m : Member} (h : SameActivity rc rc')
    (hm : rc.members.bind (·[index]?) = some m) :
    ∃ m', rc'.members.bind (·[index]?) = some m' ∧ dataOf m' = dataOf m := by
  obtain ⟨members, hms, hget⟩ := Option.bind_eq_some_iff.mp hm
  have hdata := h.data
  rw [hms, Option.map_some] at hdata
  obtain ⟨members', hms', heq⟩ := Option.map_eq_some_iff.mp hdata
  have hget' : (members'.map dataOf)[index]? = some (dataOf m) := by
    rw [heq, List.getElem?_map, hget]
    rfl
  rw [List.getElem?_map] at hget'
  obtain ⟨m', hm', hd⟩ := Option.map_eq_some_iff.mp hget'
  exact ⟨m', by rw [hms', Option.bind_some, hm'], hd⟩

theorem includeMember_congr {m m' : Member} (flag : ReportInclusionFlag)
    (h : dataOf m' = dataOf m) :
    (includeMember m' flag).bufferedValue = (includeMember m flag).bufferedValue := by
  obtain ⟨hv, hb⟩ := Prod.mk.inj h
  simp only [includeMember, hv, hb]

theorem Settled.flag_eq_none (h : rc.Settled) {index : Nat} {m : Member}
    (hm : rc.members.bind (·[index]?) = some m) : m.flag = .none := by
  obtain ⟨members, hms, hget⟩ := Option.bind_eq_some_iff.mp hm
  by_contra hne
  have hsome := someIncluded_iff.mp ⟨members, hms, m, List.mem_of_getElem? hget, hne⟩
  exact hsome h.2

/-- An observed event is pending afterwards, and the events pending before are pending or in the
reports. -/
structure Takes (rc : ReportControl) (event : List Inclusion) (outputs : List Output)
    (rc' : ReportControl) : Prop where
  enabled : rc'.enabled = rc.enabled
  isBuffering : rc'.isBuffering = rc.isBuffering
  buffered : rc'.buffered = rc.buffered
  consistent : rc'.Consistent
  carried : (rc.pendingEvents ++ event).Perm ((eventReports outputs).flatten ++ rc'.pendingEvents)
  reported : ∀ report ∈ eventReports outputs, report ≠ []

theorem Carries.takes (h : Carries rc outputs rc') : Takes rc [] outputs rc' :=
  ⟨h.same.enabled, h.same.isBuffering, h.same.buffered, h.consistent,
    by rw [List.append_nil, h.carried], h.reported⟩

theorem valueUpdated_takes {index : Nat} {flag : ReportInclusionFlag} {now hal : Nat → UInt64}
    {m : Member} (hactive : rc.Active) (hc : rc.Consistent) (hflag : flag ≠ .none)
    (hm : rc.members.bind (·[index]?) = some m)
    (hfits : m.flag ≠ .none → rc.buffered = true → rc.EntryFits)
    (h : rc.valueUpdated index flag now hal = .ok (rc', outputs)) :
    Takes rc [⟨index, flag, (includeMember m flag).bufferedValue⟩] outputs rc' := by
  rw [valueUpdated, hm] at h
  obtain ⟨⟨rc1, outputs1⟩, h1, h⟩ := bind_ok h
  cases h
  obtain ⟨hcarries, hsettled⟩ := bypassBufferTime_carries hactive hc hfits h1
  -- the member itself is not included any more
  obtain ⟨m1, hm1, hdata, hnone⟩ : ∃ m1, rc1.members.bind (·[index]?) = some m1 ∧
      dataOf m1 = dataOf m ∧ m1.flag = .none := by
    by_cases hf : m.flag = .none
    · rw [bypassBufferTime, if_neg (not_not.mpr hf)] at h1
      cases h1
      exact ⟨m, hm, rfl, hf⟩
    · obtain ⟨m1, hm1, hd⟩ := hcarries.same.member hm
      exact ⟨m1, hm1, hd, (hsettled hf).flag_eq_none hm1⟩
  have hperm := pendingEvents_setInclusionFlag hm1 hnone hflag
  rw [includeMember_congr flag hdata] at hperm
  obtain ⟨hmembers, hsame⟩ :=
    pendingEvents_startBufferTime (rc1.setInclusionFlag index flag) (now 1)
  have hpending : ((rc1.setInclusionFlag index flag).startBufferTime (now 1)).pendingEvents =
      (rc1.setInclusionFlag index flag).pendingEvents := by
    rw [pendingEvents, hmembers, ← pendingEvents]
  refine ⟨hsame.enabled.trans hcarries.same.enabled,
    hsame.isBuffering.trans hcarries.same.isBuffering,
    hsame.buffered.trans hcarries.same.buffered, ?_, ?_, hcarries.reported⟩
  · have hne : (rc1.setInclusionFlag index flag).pendingEvents ≠ [] := by
      intro hnil
      rw [hnil] at hperm
      exact absurd hperm.length_eq (by simp)
    rw [← hpending] at hne
    exact ⟨fun _ => hne, fun _ => rfl⟩
  · change (rc.pendingEvents ++ _).Perm (_ ++
      ((rc1.setInclusionFlag index flag).startBufferTime (now 1)).pendingEvents)
    rw [hpending, hcarries.carried, List.append_assoc]
    refine List.Perm.append_left _ ?_
    exact (List.perm_append_singleton _ _).trans hperm.symm

end ReportControl

namespace EventHistory

variable {h h' : EventHistory} {rc : ReportControl} {dataSets : DataSets} {w : Write}

/-- The invariant behind `NoEventLost`. -/
structure Tracks (h : EventHistory) : Prop where
  reported : ∀ report ∈ h.reported, report ≠ []
  consistent : h.rc.Active → h.rc.Consistent
  pending : h.rc.Active → h.observed.Perm (h.reported.flatten ++ h.rc.pendingEvents)
  carried : ¬ h.rc.Active → h.observed.Perm h.reported.flatten
  unbuffered : h.rc.buffered = false → h.rc.isBuffering = false

theorem Tracks.noEventLost (ht : h.Tracks) : h.NoEventLost where
  reported := ht.reported
  triggered := fun ha => (ht.consistent ha).trans someIncluded_iff.symm
  pending := ht.pending
  carried := ht.carried

/-- Nothing that events are about has changed. -/
structure SameEvents (rc rc' : ReportControl) : Prop where
  enabled : rc'.enabled = rc.enabled
  isBuffering : rc'.isBuffering = rc.isBuffering
  buffered : rc'.buffered = rc.buffered
  triggered : rc'.triggered = rc.triggered
  pending : rc'.pendingEvents = rc.pendingEvents

theorem Tracks.of_same (ht : h.Tracks) (hs : SameEvents h.rc rc) :
    Tracks ⟨rc, h.observed, h.reported⟩ := by
  have hactive : rc.Active ↔ h.rc.Active := by rw [Active, Active, hs.enabled, hs.isBuffering]
  refine ⟨ht.reported, fun ha => ?_, fun ha => ?_, fun ha => ?_, ?_⟩
  · rw [Consistent, hs.triggered, hs.pending]
    exact ht.consistent (hactive.mp ha)
  · rw [hs.pending]
    exact ht.pending (hactive.mp ha)
  · exact ht.carried (mt hactive.mpr ha)
  · rw [hs.buffered, hs.isBuffering]
    exact ht.unbuffered

/-- With nothing triggered, all events are in the reports. -/
theorem Tracks.all_reported (ht : h.Tracks) (hn : h.rc.triggered = false) :
    h.observed.Perm h.reported.flatten := by
  by_cases ha : h.rc.Active
  · have := ht.pending ha
    rwa [((ht.consistent ha).settled hn).2, List.append_nil] at this
  · exact ht.carried ha

/-- Nothing is triggered and the flags are new: the state of activity may change. -/
theorem Tracks.renew (ht : h.Tracks) (hn : h.rc.triggered = false)
    (htr : rc.triggered = h.rc.triggered) (hp : rc.pendingEvents = [])
    (hb : rc.buffered = h.rc.buffered) (hib : rc.isBuffering = h.rc.isBuffering) :
    Tracks ⟨rc, h.observed, h.reported⟩ := by
  refine ⟨ht.reported, fun _ => Settled.consistent ⟨htr.trans hn, hp⟩, fun _ => ?_,
    fun _ => ht.all_reported hn, ?_⟩
  · rw [hp, List.append_nil]
    exact ht.all_reported hn
  · rw [hb, hib]
    exact ht.unbuffered

/-- The block is not enabled any more. -/
theorem Tracks.stop (ht : h.Tracks) (hen : rc.enabled = false)
    (hib : rc.isBuffering = h.rc.isBuffering) (hb : rc.buffered = h.rc.buffered)
    (htr : rc.triggered = h.rc.triggered)
    (hp : h.rc.buffered = true → rc.pendingEvents = h.rc.pendingEvents)
    (hoff : h.rc.enabled = true → h.rc.isBuffering = false → h.rc.triggered = false) :
    Tracks ⟨rc, h.observed, h.reported⟩ := by
  cases hbuf : h.rc.isBuffering with
  | true =>
    have hactive : h.rc.Active := by
      rw [Active, hbuf, Bool.or_true]
    have hbuffered : h.rc.buffered = true := by
      by_contra hne
      exact Bool.noConfusion (hbuf.symm.trans (ht.unbuffered (eq_false_of_ne_true hne)))
    refine ⟨ht.reported, fun _ => ?_, fun _ => ?_, fun ha => absurd ?_ ha, fun hne => ?_⟩
    · rw [Consistent, htr, hp hbuffered]
      exact ht.consistent hactive
    · rw [hp hbuffered]
      exact ht.pending hactive
    · rw [Active, hib, hbuf, Bool.or_true]
    · exact Bool.noConfusion (hbuffered.symm.trans (hb.symm.trans hne))
  | false =>
    have hinactive : ¬ rc.Active := by
      rw [Active, hen, hib, hbuf]
      exact Bool.false_ne_true
    refine ⟨ht.reported, fun ha => absurd ha hinactive, fun ha => absurd ha hinactive,
      fun _ => ?_, fun _ => hib.trans hbuf⟩
    by_cases ha : h.rc.enabled = true
    · exact ht.all_reported (hoff ha hbuf)
    · refine ht.carried ?_
      rw [Active, hbuf, Bool.or_false]
      exact ha

theorem disable_events (rc : ReportControl) : rc.disable.isBuffering = rc.isBuffering ∧
    rc.disable.buffered = rc.buffered ∧ rc.disable.triggered = rc.triggered ∧
    (rc.buffered = true → rc.disable.members = rc.members) := by
  cases hb : rc.buffered <;> simp [disable, hb, updateOwner, setRCBValue, clearInclusionFlags]

theorem purgeIfBuffered_events (rc : ReportControl) : SameEvents rc rc.purgeIfBuffered := by
  obtain ⟨buffer, -, he⟩ := purgeIfBuffered_eq rc
  rw [he]
  exact ⟨rfl, rfl, rfl, rfl, rfl⟩

/-- A write to a block whose data set is not changed. -/
theorem sameEvents_of_written {rc' : ReportControl} (hn : w.elementName ≠ .datSet)
    (hw : Written dataSets rc w rc') : SameEvents rc rc' := by
  cases hw with
  | same => exact ⟨rfl, rfl, rfl, rfl, rfl⟩
  | reserved values _ _ => exact ⟨rfl, rfl, rfl, rfl, rfl⟩
  | dataSet rc1 values he => exact absurd he hn
  | settings values triggerOps intgPd bufTm next buffer _ _ => exact ⟨rfl, rfl, rfl, rfl, rfl⟩

theorem Tracks.written (ht : h.Tracks) (hk : KeepsFlags h.rc dataSets w)
    (hw : Written dataSets h.rc w rc) : Tracks ⟨rc, h.observed, h.reported⟩ := by
  by_cases hn : w.elementName = .datSet
  · cases hw with
    | same => exact ht
    | reserved values he => exact absurd (he.symm.trans hn) (by decide)
    | settings values triggerOps intgPd bufTm next buffer _ _ =>
      exact ht.of_same ⟨rfl, rfl, rfl, rfl, rfl⟩
    | dataSet rc1 values _ hen hfree hne hd _ =>
      obtain ⟨vs, dynamic, he⟩ := updateReportDataset_cases hd
      have hp := pendingEvents_newMembers hd
      have hs := purgeIfBuffered_events rc1
      have hchange : ChangesDataSet h.rc dataSets w := ⟨hn, hen, hfree, hne, by rw [hd]; rfl⟩
      have hib : rc1.isBuffering = h.rc.isBuffering := by rw [he]
      have hb : rc1.buffered = h.rc.buffered := by rw [he]
      have htr : rc1.triggered = h.rc.triggered := by rw [he]
      have hen1 : rc1.enabled = false := by rw [he]; exact hen
      cases hbuf : h.rc.isBuffering with
      | true =>
        exact ht.renew (hk.dataSet hchange hbuf) (hs.triggered.trans htr) (hs.pending.trans hp)
          (hs.buffered.trans hb) (hs.isBuffering.trans hib)
      | false =>
        have hinactive : ¬ h.rc.Active := by
          rw [Active, hen, hbuf]
          exact Bool.false_ne_true
        have hinactive' : ¬ Active { rc1.purgeIfBuffered with rcbValues := values } := by
          change ¬ (rc1.purgeIfBuffered.enabled || rc1.purgeIfBuffered.isBuffering) = true
          rw [hs.enabled, hs.isBuffering, hen1, hib, hbuf]
          exact Bool.false_ne_true
        exact ⟨ht.reported, fun ha => absurd ha hinactive', fun ha => absurd ha hinactive',
          fun _ => ht.carried hinactive, fun _ => hs.isBuffering.trans (hib.trans hbuf)⟩
  · exact ht.of_same (sameEvents_of_written hn hw)

/-- A write keeps the invariant. -/
theorem Tracks.handleWrite {result : MmsDataAccessError} (ht : h.Tracks)
    (hk : KeepsFlags h.rc dataSets w)
    (hw : writeAccessHandler dataSets h.rc w = .ok (rc, result)) :
    Tracks ⟨rc, h.observed, h.reported⟩ := by
  rcases writeAccessHandler_cases hw with
    rfl | ⟨rc1, hon, hd, rfl⟩ | ⟨hn, hb, hc, hwritten⟩ | rfl | ⟨-, hwritten⟩
  · exact ht
  · obtain ⟨vs, dynamic, he⟩ := updateReportDataset_cases hd
    have hp := pendingEvents_newMembers hd
    refine ht.renew (hk.on hon) ?_ hp ?_ ?_
    · rw [he]
      rfl
    · rw [he]
      rfl
    · rw [he]
      rfl
  · have hs := sameEvents_of_written (by rw [hn]; decide) hwritten
    obtain ⟨hib, hbuf, htr, hmembers⟩ := disable_events h.rc
    refine ht.stop (hs.enabled.trans rfl) (hs.isBuffering.trans hib) (hs.buffered.trans hbuf)
      (hs.triggered.trans htr) (fun hbuffered => ?_) fun hen => hk.off ⟨hn, hb, hen, hc hen⟩
    rw [hs.pending, pendingEvents, hmembers hbuffered, ← pendingEvents]
  · exact ht.of_same ⟨rfl, rfl, rfl, rfl, rfl⟩
  · exact ht.written hk hwritten

theorem Tracks.deactivate (ht : h.Tracks) (connection : Connection)
    (hk : h.rc.enabled = true → h.rc.clientConnection = some connection →
      h.rc.isBuffering = false → h.rc.triggered = false) :
    Tracks ⟨h.rc.deactivateReportsForConnection connection, h.observed, h.reported⟩ := by
  unfold deactivateReportsForConnection
  split
  case isTrue hc =>
    cases hb : h.rc.buffered with
    | false => exact ht.stop rfl rfl hb.symm rfl (fun _ => rfl) fun hen hbuf => hk hen hc hbuf
    | true => exact ht.stop rfl rfl hb.symm rfl (fun _ => rfl) fun hen hbuf => hk hen hc hbuf
  case isFalse => exact ht

/-- An active block makes reports and takes an event. -/
theorem Tracks.takes (ht : h.Tracks) (hactive : h.rc.Active) {event : List Inclusion}
    {outputs : List Output} (hk : Takes h.rc event outputs rc) :
    Tracks ⟨rc, h.observed ++ event, h.reported ++ eventReports outputs⟩ := by
  have hactive' : rc.Active := by
    rw [Active, hk.enabled, hk.isBuffering]
    exact hactive
  refine ⟨fun report hr => ?_, fun _ => hk.consistent, fun _ => ?_,
    fun ha => absurd hactive' ha, ?_⟩
  · rcases List.mem_append.mp hr with hr | hr
    · exact ht.reported report hr
    · exact hk.reported report hr
  · calc (h.observed ++ event).Perm ((h.reported.flatten ++ h.rc.pendingEvents) ++ event) :=
        (ht.pending hactive).append_right event
      _ = h.reported.flatten ++ (h.rc.pendingEvents ++ event) := List.append_assoc _ _ _
      List.Perm _ (h.reported.flatten ++ ((eventReports outputs).flatten ++ rc.pendingEvents)) :=
        hk.carried.append_left _
      _ = (h.reported ++ eventReports outputs).flatten ++ rc.pendingEvents := by
        rw [List.flatten_append, List.append_assoc]
  · rw [hk.buffered, hk.isBuffering]
    exact ht.unbuffered

/-- An inactive block notes the event and makes no report. -/
theorem valueUpdated_inactive {rc rc' : ReportControl} {outputs : List Output} {index : Nat}
    {flag : ReportInclusionFlag} {now hal : Nat → UInt64} (hactive : ¬ rc.Active)
    (hv : rc.valueUpdated index flag now hal = .ok (rc', outputs)) :
    outputs = [] ∧ rc'.enabled = rc.enabled ∧ rc'.isBuffering = rc.isBuffering ∧
      rc'.buffered = rc.buffered := by
  unfold valueUpdated at hv
  split at hv
  · cases hv
  · obtain ⟨⟨rc1, outputs1⟩, h1, hv⟩ := bind_ok hv
    cases hv
    obtain ⟨rfl, hsame⟩ : outputs = [] ∧ SameActivity rc rc1 := by
      unfold bypassBufferTime at h1
      split at h1
      · have hno : (rc.enabled || rc.isBuffering) = false := eq_false_of_ne_true hactive
        have hp := @processEventsForReport_inactive { rc with reportTime := now 0 } (now 0) hal hno
        rw [hp] at h1
        cases h1
        exact ⟨rfl, rfl, rfl, rfl, rfl⟩
      · cases h1
        exact ⟨rfl, .refl _⟩
    have hstart := (pendingEvents_startBufferTime (rc1.setInclusionFlag index flag) (now 1)).2
    exact ⟨rfl, hstart.enabled.trans hsame.enabled, hstart.isBuffering.trans hsame.isBuffering,
      hstart.buffered.trans hsame.buffered⟩

theorem Tracks.observe (ht : h.Tracks) {index : Option Nat} {flag : ReportInclusionFlag}
    {now hal : Nat → UInt64} {outputs : List Output}
    (hk : h.Keeps (.triggerReportObservers index flag now hal))
    (he : h.rc.triggerReportObservers index flag now hal = .ok (rc, outputs)) :
    Tracks ⟨rc, h.observed ++ h.rc.observed (.triggerReportObservers index flag now hal),
      h.reported ++ eventReports outputs⟩ := by
  unfold triggerReportObservers at he
  cases index with
  | none =>
    have hsame : rc = h.rc ∧ outputs = [] := by
      split at he <;> cases he <;> exact ⟨rfl, rfl⟩
    obtain ⟨rfl, rfl⟩ := hsame
    simpa [ReportControl.observed, eventReports] using ht
  | some index =>
    split at he
    case isFalse hobs =>
      cases he
      simpa [ReportControl.observed, hobs, eventReports] using ht
    case isTrue hobs =>
      by_cases hactive : h.rc.Active
      · obtain ⟨m, hm⟩ : ∃ m, h.rc.members.bind (·[index]?) = some m := by
          cases hm : h.rc.members.bind (·[index]?) with
          | some m => exact ⟨m, rfl⟩
          | none =>
            dsimp only at he
            rw [valueUpdated, hm] at he
            cases he
        have hflag : flag ≠ .none := by
          rintro rfl
          simp [observes] at hobs
        have hobserved : h.rc.observed (.triggerReportObservers (some index) flag now hal) =
            [⟨index, flag, (includeMember m flag).bufferedValue⟩] := by
          have hboth : (h.rc.observes flag && (h.rc.enabled || h.rc.isBuffering)) = true := by
            rw [hobs, Bool.true_and]
            exact hactive
          rw [ReportControl.observed, if_pos hboth, hm]
          rfl
        rw [hobserved]
        exact ht.takes hactive (valueUpdated_takes hactive (ht.consistent hactive) hflag hm
          (fun hne hb => hk.2 hobs hactive ⟨m, hm, hne⟩ hb) he)
      · have hobserved :
            h.rc.observed (.triggerReportObservers (some index) flag now hal) = [] := by
          have hboth : ¬ (h.rc.observes flag && (h.rc.enabled || h.rc.isBuffering)) = true := by
            rw [hobs, Bool.true_and]
            exact hactive
          rw [ReportControl.observed, if_neg hboth]
        obtain ⟨rfl, hen, hib, hb⟩ := valueUpdated_inactive hactive he
        have hactive' : ¬ rc.Active := by
          rw [Active, hen, hib]
          exact hactive
        rw [hobserved, eventReports, List.append_nil, List.append_nil]
        exact ⟨ht.reported, fun ha => absurd ha hactive', fun ha => absurd ha hactive',
          fun _ => ht.carried hactive, by rw [hb, hib]; exact ht.unbuffered⟩

/-- One step keeps the invariant. -/
theorem Tracks.step {e : Event} (ht : h.Tracks) (hk : h.Keeps e) (hs : h.Step e h') :
    h'.Tracks := by
  obtain ⟨rc, outputs, he, rfl⟩ := hs
  cases e with
  | writeAccessHandler dataSets w =>
    obtain ⟨⟨rc1, result⟩, hw, he⟩ := bind_ok he
    cases he
    simpa [ReportControl.observed, eventReports] using ht.handleWrite hk.2 hw
  | deactivateReportsForConnection connection =>
    cases he
    simpa [ReportControl.observed, eventReports] using ht.deactivate connection hk.2
  | triggerReportObservers index flag now hal => exact ht.observe hk he
  | processEventsForReport currentTime hal =>
    change h.rc.processEventsForReport currentTime hal = _ at he
    by_cases hactive : h.rc.Active
    · have := processEventsForReport_carries hactive (ht.consistent hactive)
        (hk.2 hactive) he
      exact ht.takes hactive this.1.takes
    · rw [processEventsForReport_inactive (eq_false_of_ne_true hactive)] at he
      cases he
      simpa [ReportControl.observed, eventReports] using ht
  | setMemberValue index value =>
    cases he
    have hp : (h.rc.setMemberValue index value).pendingEvents = h.rc.pendingEvents := by
      cases hm : h.rc.members with
      | none => simp [pendingEvents, setMemberValue, hm]
      | some members =>
        rw [pendingEvents, setMemberValue, hm, pendingEvents_eq hm]
        exact inclusionsFrom_setValue index value
    have hs : SameEvents h.rc (h.rc.setMemberValue index value) := ⟨rfl, rfl, rfl, rfl, hp⟩
    simpa [ReportControl.observed, eventReports] using ht.of_same hs

theorem Tracks.start (dataSets : DataSets) (buffered : Bool) (rcb : ReportControlBlock)
    (memoryBlockSize : Nat) (reportTime : UInt64) :
    (start dataSets buffered rcb memoryBlockSize reportTime).Tracks := by
  have hnew : Tracks ⟨ReportControl.create buffered rcb memoryBlockSize reportTime, [], []⟩ :=
    ⟨fun _ hr => (nomatch hr), fun _ => Settled.consistent ⟨rfl, rfl⟩, fun _ => .refl [],
      fun _ => .refl [], fun _ => rfl⟩
  cases buffered with
  | false => exact hnew
  | true =>
    rw [EventHistory.start, activateBufferedReports, create_buffered, if_pos rfl]
    split
    case h_1 rc1 hd =>
      obtain ⟨vs, dynamic, he⟩ := updateReportDataset_cases hd
      have hp := pendingEvents_newMembers hd
      have hs : Settled { rc1 with isBuffering := true } := ⟨by rw [he]; rfl, hp⟩
      have hb : rc1.buffered = true := by rw [he]; rfl
      refine ⟨fun _ hr => (nomatch hr), fun _ => hs.consistent, fun _ => ?_, fun _ => .refl [],
        fun hne => Bool.noConfusion (hb.symm.trans hne)⟩
      rw [hs.2]
      exact .refl []
    case h_2 =>
      exact ⟨fun _ hr => (nomatch hr), fun _ => Settled.consistent ⟨rfl, rfl⟩, fun _ => .refl [],
        fun _ => .refl [], fun _ => rfl⟩

/-- In every run in which pending events are not put away, no event is lost, reported twice or
reported empty. -/
theorem run_noEventLost (dataSets : DataSets) (buffered : Bool) (rcb : ReportControlBlock)
    (memoryBlockSize : Nat) (reportTime : UInt64) {events : List Event}
    (hr : Transition.Run Step Keeps
      (start dataSets buffered rcb memoryBlockSize reportTime) events h) : h.NoEventLost := by
  have hinv : h.Tracks := by
    refine hr.invariant (Tracks.start dataSets buffered rcb memoryBlockSize reportTime) ?_
    intro t e u ht hk hs
    exact ht.step hk hs
  exact hinv.noEventLost

/-- A block that is not buffered needs no room. -/
theorem keeps_observe_unbuffered {index : Nat} {flag : ReportInclusionFlag}
    {now hal : Nat → UInt64} (hb : h.rc.buffered = false) :
    h.Keeps (.triggerReportObservers (some index) flag now hal) :=
  ⟨trivial, fun _ _ _ hbuf => Bool.noConfusion (hb.symm.trans hbuf)⟩

theorem keeps_process_unbuffered {currentTime : UInt64} {hal : Nat → UInt64}
    (hb : h.rc.buffered = false) : h.Keeps (.processEventsForReport currentTime hal) :=
  ⟨trivial, fun _ _ _ hbuf => Bool.noConfusion (hb.symm.trans hbuf)⟩

/-- A client enables a block, and the event observed then is sent. -/
theorem run_noEventLost_sent : ∃ h : EventHistory, h.observed.length = 1 ∧
    h.reported.length = 1 ∧ h.NoEventLost := by
  obtain ⟨rc1, h1, hb1⟩ : ∃ rc1, (start oneMember false plainBlock 0 0).rc.handle
      (.writeAccessHandler oneMember (writeBoolean .rptEna true 1)) = .ok (rc1, []) ∧
        rc1.buffered = false := ⟨_, rfl, rfl⟩
  obtain ⟨rc2, h2, hb2, hobs⟩ : ∃ rc2, rc1.handle
      (.triggerReportObservers (some 0) .valueUpdate (fun _ => 0) (fun _ => 0)) =
        .ok (rc2, []) ∧ rc2.buffered = false ∧
        (rc1.observed
          (.triggerReportObservers (some 0) .valueUpdate (fun _ => 0) (fun _ => 0))).length = 1 := by
    cases h1
    exact ⟨_, rfl, rfl, rfl⟩
  obtain ⟨rc3, outputs, h3, ho⟩ : ∃ rc3 outputs, rc2.handle
      (.processEventsForReport 0 fun _ => 0) = .ok (rc3, outputs) ∧
        (eventReports outputs).length = 1 := by
    cases h1
    cases h2
    exact ⟨_, _, rfl, rfl⟩
  have hk1 : KeepsFlags (start oneMember false plainBlock 0 0).rc oneMember
      (writeBoolean .rptEna true 1) :=
    ⟨fun _ => rfl, fun hoff => (nomatch hoff.2.1), fun hd => (nomatch hd.1)⟩
  have hnil : Transition.Run Step Keeps (start oneMember false plainBlock 0 0) []
      (start oneMember false plainBlock 0 0) := .nil
  have hr1 := hnil.snoc ⟨receives_writeBoolean _ _ _ rfl, hk1⟩ ⟨rc1, [], h1, rfl⟩
  have hr2 := hr1.snoc (keeps_observe_unbuffered hb1) ⟨rc2, [], h2, rfl⟩
  have hr3 := hr2.snoc (keeps_process_unbuffered hb2) ⟨rc3, outputs, h3, rfl⟩
  refine ⟨_, ?_, ?_, run_noEventLost oneMember false plainBlock 0 0 hr3⟩
  · change (rc1.observed (.triggerReportObservers (some 0) .valueUpdate (fun _ => 0)
      (fun _ => 0)) ++ []).length = 1
    rw [List.append_nil]
    exact hobs
  · exact ho

/-- A client is gone before its event is reported; the next one gets a report of nothing. -/
theorem empty_report_after_disconnect :
    ∃ events h, Transition.Run Step (fun h e => h.rc.Receives e)
      (start oneMember false plainBlock 0 0) events h ∧ [] ∈ h.reported := by
  obtain ⟨rc1, h1, hb1⟩ : ∃ rc1, (start oneMember false plainBlock 0 0).rc.handle
      (.writeAccessHandler oneMember (writeBoolean .rptEna true 1)) = .ok (rc1, []) ∧
        rc1.buffered = false := ⟨_, rfl, rfl⟩
  obtain ⟨rc2, h2⟩ : ∃ rc2, rc1.handle
      (.triggerReportObservers (some 0) .valueUpdate (fun _ => 0) (fun _ => 0)) =
        .ok (rc2, []) := by
    cases h1
    exact ⟨_, rfl⟩
  obtain ⟨rc3, h3, hb3⟩ : ∃ rc3, rc2.handle (.deactivateReportsForConnection 1) =
      .ok (rc3, []) ∧ rc3.buffered = false := by
    cases h1
    cases h2
    exact ⟨_, rfl, rfl⟩
  obtain ⟨rc4, h4⟩ : ∃ rc4, rc3.handle
      (.writeAccessHandler oneMember (writeBoolean .rptEna true 2)) = .ok (rc4, []) := by
    cases h1
    cases h2
    cases h3
    exact ⟨_, rfl⟩
  obtain ⟨rc5, outputs, h5, ho⟩ : ∃ rc5 outputs, rc4.handle
      (.processEventsForReport 0 fun _ => 0) = .ok (rc5, outputs) ∧
        eventReports outputs = [[]] := by
    cases h1
    cases h2
    cases h3
    cases h4
    exact ⟨_, _, rfl, rfl⟩
  have hnil : Transition.Run Step (fun h e => h.rc.Receives e)
      (start oneMember false plainBlock 0 0) [] (start oneMember false plainBlock 0 0) := .nil
  have hr1 := hnil.snoc (receives_writeBoolean oneMember true 1 rfl) ⟨rc1, [], h1, rfl⟩
  have hr2 := hr1.snoc (by trivial) ⟨rc2, [], h2, rfl⟩
  have hr3 := hr2.snoc (by trivial) ⟨rc3, [], h3, rfl⟩
  have hr4 := hr3.snoc (receives_writeBoolean oneMember true 2 (by rw [hb3]; rfl))
    ⟨rc4, [], h4, rfl⟩
  have hr5 := hr4.snoc (by trivial) ⟨rc5, outputs, h5, rfl⟩
  refine ⟨_, _, hr5, ?_⟩
  change [] ∈ [] ++ eventReports outputs
  rw [ho]
  exact List.mem_singleton.mpr rfl

end EventHistory

end Iec61850.Reporting
