import Iec61850.Report.Delivery

/-! Where a client starts again in the report buffer, and the times its reports are dated with. -/

namespace Iec61850.Reporting

open Machine ReportControl

/-- The time of entry in a report, if its options ask for one. -/
def Report.timeOfEntry (report : Report) : Option MmsValue :=
  match report.header with
  | _ :: optFlds :: rest =>
    if optFlds.getBitStringBit 2 then
      if optFlds.getBitStringBit 1 then rest[1]? else rest[0]?
    else none
  | _ => none

/-- The value is the id of the entry. -/
def Entry.IsNamed (e : Entry) (value : MmsValue) : Prop :=
  ∃ o, value = .octetString o ∧ o.content = entryIdValue e.entryId

namespace ReportControl

/-- The client may not write the elements of the block. -/
def Refuses (rc : ReportControl) (w : Write) : Prop :=
  rc.enabled = true ∨ rc.reserved = true ∧ rc.clientConnection ≠ some w.connection

instance (rc : ReportControl) (w : Write) : Decidable (rc.Refuses w) :=
  inferInstanceAs (Decidable (_ ∨ _))

/-- The next entry to transmit is the one behind an entry with the id. -/
def IsBehind (rc : ReportControl) (value : MmsValue) (entries : List Entry) : Prop :=
  ∃ before e after, entries = before ++ e :: after ∧ e.IsNamed value ∧
    rc.reportBuffer.nextToTransmit = firstPos none after

/-- The id of one of the entries takes the client behind that entry, and any other one is
refused and changes nothing. -/
structure Resynchronises (rc : ReportControl) (dataSets : DataSets) (w : Write)
    (entries : List Entry) : Prop where
  found : (∃ e ∈ entries, e.IsNamed w.value) →
    ∃ rc', rc.writeAccessHandler dataSets w = .ok (rc', .success) ∧ rc'.IsBehind w.value entries
  unknown : (∀ e ∈ entries, ¬ e.IsNamed w.value) →
    ∃ rc' result, rc.writeAccessHandler dataSets w = .ok (rc', result) ∧ result ≠ .success ∧
      rc'.reportBuffer.nextToTransmit = rc.reportBuffer.nextToTransmit ∧
      rc'.rcbValues = rc.rcbValues

/-- The client is already where it wants to be, or it may not write and nothing has its id. -/
def InPosition (rc : ReportControl) (w : Write) (entries : List Entry) : Prop :=
  if rc.Refuses w then ∀ e ∈ entries, ¬ e.IsNamed w.value else rc.IsBehind w.value entries

/-- There is a next entry, and its report has room in the local storage. -/
def Transmits (rc : ReportControl) : Prop :=
  ∃ entry members stored, rc.reportBuffer.nextToTransmit = some entry ∧
    rc.members = some members ∧
    readEntry rc.reportBuffer.memoryBlock entry members.length = .ok stored ∧
    (rc.prepareEntry stored).localStorageUsed stored members.length ≤ localStorageMemorySize

def datesReports (rc : ReportControl) : Bool := (rc.rcbValues .optFlds).getBitStringBit 2

end ReportControl

/-- The moment at which a report is enqueued: the time of entry the block has then, and the
clock. -/
structure Moment where
  timeOfEntry : MmsValue
  clock : UInt64

/-- The clock as a time of entry. -/
def Moment.clockValue (m : Moment) : MmsValue :=
  (MmsValue.newBinaryTime false).setBinaryTime m.clock

/-- A report that is transmitted, and the moment at which its entry was enqueued. -/
structure Transmission where
  report : Report
  enqueued : Option Moment

/-- The report carries the time of the moment at which it was enqueued, if it carries any. -/
def Transmission.Dated (time : Moment → MmsValue) (t : Transmission) : Prop :=
  ∃ m, t.enqueued = some m ∧ ∀ v ∈ t.report.timeOfEntry, v = time m

/-- A buffered block with the moment at which an entry was last put at each position of the
memory block, and what has been transmitted. -/
structure MomentHistory where
  rc : ReportControl
  moments : Nat → Option Moment
  transmitted : List Transmission

namespace MomentHistory

def next (h : MomentHistory) : Option Moment :=
  h.rc.reportBuffer.nextToTransmit.bind h.moments

/-- The new entry is the last one of `rc`. -/
def enqueue (h : MomentHistory) (rc : ReportControl) (now : UInt64) : Nat → Option Moment :=
  fun pos => if rc.reportBuffer.lastEnqueuedReport = some pos then
      some ⟨h.rc.rcbValues .timeOfEntry, now⟩
    else h.moments pos

def enqueued (h : MomentHistory) (rc : ReportControl) (outputs : List Output) :
    Call → Nat → Option Moment
  | .enqueueReport _ _ now => if generatedOf outputs = [] then h.moments else h.enqueue rc now
  | _ => h.moments

def after (h : MomentHistory) (c : Call) (rc : ReportControl) (outputs : List Output) :
    MomentHistory where
  rc := rc
  moments := h.enqueued rc outputs c
  transmitted := h.transmitted ++ (sentOf outputs).map fun report => ⟨report, h.next⟩

def Step (h : MomentHistory) (c : Call) (h' : MomentHistory) : Prop :=
  ∃ rc outputs, h.rc.call c = .ok (rc, outputs) ∧ h' = h.after c rc outputs

def Permits (h : MomentHistory) (c : Call) : Prop := h.rc.Permits c

/-- A report with a time of entry is sent while the block has the time of its moment. -/
def InTime (time : Moment → MmsValue) (h : MomentHistory) : Call → Prop
  | .sendNextReportEntry => h.rc.Transmits → h.rc.datesReports = true →
    ∀ m, h.next = some m → h.rc.rcbValues .timeOfEntry = time m
  | _ => True

def PermitsInTime (time : Moment → MmsValue) (h : MomentHistory) (c : Call) : Prop :=
  h.Permits c ∧ h.InTime time c

def Dated (time : Moment → MmsValue) (h : MomentHistory) : Prop :=
  ∀ t ∈ h.transmitted, t.Dated time

def start (dataSets : DataSets) (rcb : ReportControlBlock) (memoryBlockSize : Nat)
    (reportTime : UInt64) : MomentHistory where
  rc := (Delivery.start dataSets rcb memoryBlockSize reportTime).rc
  moments := fun _ => none
  transmitted := []

end MomentHistory

section

variable {rc rc' : ReportControl} {dataSets : DataSets} {w : Write} {entries : List Entry}

/-- A client that may write the id writes it like any other element. -/
theorem writeAccessHandler_entryID (hb : rc.buffered = true) (hn : w.elementName = .entryID) :
    rc.writeAccessHandler dataSets w =
      if rc.Refuses w then .ok (rc, .temporarilyUnavailable)
      else .ok (rc.setRCBValue .entryID (·.updated w.value), .success) := by
  rw [writeAccessHandler, if_neg (by rw [hn]; decide), if_neg (by rw [hn]; decide), writeElement]
  by_cases hen : rc.enabled = true
  · rw [if_pos hen, if_pos (.inl hen)]
  · rw [if_neg hen]
    by_cases hres : rc.reserved = true ∧ rc.clientConnection ≠ some w.connection
    · rw [if_pos hres, if_pos (.inr hres)]
    · have hopen : ¬ rc.Refuses w := by
        rintro (h | h)
        · exact hen h
        · exact hres h
      rw [if_neg hres, if_neg hopen, hn]
      simp only [updateElement, hn, hb, hasElement, if_true]

/-- A write of the id does what it should exactly when there is nothing to be done. -/
theorem resynchronises_iff (hb : rc.buffered = true) (hn : w.elementName = .entryID) :
    rc.Resynchronises dataSets w entries ↔ rc.InPosition w entries := by
  have hw : rc.writeAccessHandler dataSets w = _ := writeAccessHandler_entryID hb hn
  rw [InPosition]
  split
  case isTrue href =>
    rw [if_pos href] at hw
    constructor
    · intro h e he hnamed
      obtain ⟨rc', hok, -⟩ := h.found ⟨e, he, hnamed⟩
      cases hw.symm.trans hok
    · intro hnone
      refine ⟨?_, fun _ => ⟨rc, _, hw, by decide, rfl, rfl⟩⟩
      rintro ⟨e, he, hnamed⟩
      exact absurd hnamed (hnone e he)
  case isFalse href =>
    rw [if_neg href] at hw
    constructor
    · intro h
      by_cases hsome : ∃ e ∈ entries, e.IsNamed w.value
      · obtain ⟨rc', hok, hbehind⟩ := h.found hsome
        cases hw.symm.trans hok
        exact hbehind
      · have hnone : ∀ e ∈ entries, ¬ e.IsNamed w.value :=
          fun e he hnamed => hsome ⟨e, he, hnamed⟩
        obtain ⟨rc', result, hok, hne, -⟩ := h.unknown hnone
        cases hw.symm.trans hok
        exact absurd rfl hne
    · rintro ⟨before, e, after, rfl, hnamed, hnext⟩
      refine ⟨fun _ => ⟨_, hw, before, e, after, rfl, hnamed, hnext⟩, ?_⟩
      intro hnone
      exact absurd hnamed (hnone e (by simp))

theorem entryReport_timeOfEntry (hb : rc.buffered = true) {stored : StoredReport} {n : Nat} :
    ((rc.prepareEntry stored).entryReport stored n).timeOfEntry =
      if rc.datesReports then some (rc.rcbValues .timeOfEntry) else none := by
  have hbit : ∀ i, i ≠ 5 → i ≠ 9 → ((rc.prepareEntry stored).rcbValues .optFlds).getBitStringBit i =
      (rc.rcbValues .optFlds).getBitStringBit i := by
    intro i h5 h9
    rw [prepareEntry, setRCBValue_self, getBitStringBit_clearBitStringBit h9.symm,
      getBitStringBit_clearBitStringBit h5.symm]
    rfl
  have htime : (rc.prepareEntry stored).timeOfEntryValue = rc.rcbValues .timeOfEntry := if_pos hb
  have hsqNum := hbit 1 (by decide) (by decide)
  have hdates := hbit 2 (by decide) (by decide)
  simp only [entryReport, entryHeader, reportHeader, Report.timeOfEntry, htime, datesReports]
  by_cases h2 : (rc.rcbValues .optFlds).getBitStringBit 2 = true
  · by_cases h1 : (rc.rcbValues .optFlds).getBitStringBit 1 = true
    · simp [hsqNum, hdates, h1, h2]
    · simp [hsqNum, hdates, h1, h2]
  · simp [hdates, h2]

/-- Sending the next entry dates its report with the time of entry that the block has. -/
theorem sendNextReportEntry_dated {outputs : List Output} (hb : rc.buffered = true)
    (h : rc.sendNextReportEntry = .ok (rc', outputs)) :
    outputs = [] ∧ ¬ rc.Transmits ∨
      rc.Transmits ∧ ∃ report : Report, outputs = [.sent report] ∧
        report.timeOfEntry =
          if rc.datesReports then some (rc.rcbValues .timeOfEntry) else none := by
  unfold sendNextReportEntry at h
  split at h
  case h_1 hnone =>
    cases h
    refine .inl ⟨rfl, ?_⟩
    rintro ⟨entry, _, _, hentry, -⟩
    cases hnone.symm.trans hentry
  case h_2 => cases h
  case h_3 entry members hentry hm =>
    obtain ⟨stored, hread, h⟩ := bind_ok h
    dsimp only at h
    split at h
    case isTrue hfull =>
      cases h
      refine .inl ⟨rfl, ?_⟩
      rintro ⟨entry', members', stored', hentry', hm', hread', hroom⟩
      cases hentry.symm.trans hentry'
      cases hm.symm.trans hm'
      cases hread.symm.trans hread'
      exact absurd hfull (not_lt.mpr hroom)
    case isFalse hroom =>
      obtain ⟨buffer, -, h⟩ := bind_ok h
      cases h
      exact .inr ⟨⟨entry, members, stored, hentry, hm, hread, not_lt.mp hroom⟩, _, rfl,
        entryReport_timeOfEntry hb⟩

end

namespace MomentHistory

/-- What the steps keep: every entry in the buffer has its moment. -/
structure Recorded (h : MomentHistory) : Prop where
  buffered : h.rc.buffered = true
  buffer : ∃ old waiting, Represents h.rc.reportBuffer old waiting ∧
    ∀ e ∈ old ++ waiting, ∃ m, h.moments e.pos = some m

variable {h h' : MomentHistory} {c : Call} {time : Moment → MmsValue}

/-- A call that enqueues nothing. -/
theorem Recorded.quiet (hr : h.Recorded) {rc : ReportControl} (transmitted : List Transmission)
    (hk : KeepsEntries h.rc rc) : Recorded ⟨rc, h.moments, transmitted⟩ := by
  refine ⟨hk.1.trans hr.buffered, ?_⟩
  rcases hk.2 with ⟨hbuf, -⟩ | hpurge
  · rw [hbuf]
    exact hr.buffer
  · rw [hpurge]
    exact ⟨[], [], represents_purgeBuf _, fun e he => absurd he List.not_mem_nil⟩

theorem Recorded.enqueueReport (hr : h.Recorded) {rc : ReportControl} {outputs : List Output}
    {isIntegrity isGI : Bool} {now : UInt64} (transmitted : List Transmission)
    (he : h.rc.enqueueReport isIntegrity isGI now = .ok (rc, outputs)) :
    Recorded ⟨rc, if generatedOf outputs = [] then h.moments else h.enqueue rc now,
      transmitted⟩ := by
  obtain ⟨old, waiting, hbuf, hmoments⟩ := hr.buffer
  rcases enqueueReport_entry hbuf he with ⟨rfl, rfl, -⟩ |
    ⟨members, size, old', waiting', e, -, -, -, rfl, -, -, hsuffix, hrep, -, -, -, hb, -⟩
  · exact hr.quiet transmitted (.refl _)
  · refine ⟨hb.trans hr.buffered, old', waiting' ++ [e], hrep, ?_⟩
    have hlast : rc.reportBuffer.lastEnqueuedReport = some e.pos := by
      rw [hrep.lastEnqueuedReport, ← List.append_assoc, List.getLast?_concat]
      rfl
    intro f hf
    change ∃ m, h.enqueue rc now f.pos = some m
    rw [enqueue, hlast]
    split
    case isTrue => exact ⟨_, rfl⟩
    case isFalse hne =>
      rw [← List.append_assoc, List.mem_append, List.mem_singleton] at hf
      rcases hf with hkept | rfl
      · exact hmoments f (hsuffix.subset hkept)
      · exact absurd rfl hne

theorem Recorded.sendNextReportEntry (hr : h.Recorded) {rc : ReportControl}
    {outputs : List Output} (transmitted : List Transmission)
    (he : h.rc.sendNextReportEntry = .ok (rc, outputs)) :
    Recorded ⟨rc, h.moments, transmitted⟩ := by
  obtain ⟨old, waiting, hbuf, hmoments⟩ := hr.buffer
  unfold ReportControl.sendNextReportEntry at he
  split at he
  · cases he
    exact hr.quiet transmitted (.refl _)
  · cases he
  · obtain ⟨stored, -, he⟩ := bind_ok he
    dsimp only at he
    split at he
    · cases he
      exact hr.quiet transmitted ⟨rfl, .inl ⟨rfl, rfl⟩⟩
    · obtain ⟨buffer, hbuffer, he⟩ := bind_ok he
      cases he
      refine ⟨hr.buffered, ?_⟩
      rcases transmitted_spec hbuf with ⟨rfl, hsame⟩ | ⟨e, rest, b', rfl, hsent, hb', -⟩
      · obtain rfl := Except.ok.inj (hsame.symm.trans hbuffer)
        exact ⟨old, [], hbuf, hmoments⟩
      · obtain rfl := Except.ok.inj (hsent.symm.trans hbuffer)
        refine ⟨old ++ [e], rest, hb', ?_⟩
        rwa [List.append_assoc]

theorem Recorded.step (hr : h.Recorded) (hs : Step h c h') : h'.Recorded := by
  obtain ⟨rc, outputs, hc, rfl⟩ := hs
  cases c with
  | enqueueReport isIntegrity isGI now => exact hr.enqueueReport _ hc
  | sendNextReportEntry => exact hr.sendNextReportEntry _ hc
  | writeAccessHandler dataSets w =>
    obtain ⟨⟨rc1, result⟩, hw, hc⟩ := bind_ok hc
    cases hc
    rcases keepsEntries_writeAccessHandler hr.buffered hw with hk | ⟨-, hb, hbuf, -⟩
    · exact hr.quiet _ hk
    · refine ⟨hb.trans hr.buffered, ?_⟩
      change ∃ old waiting, Represents rc1.reportBuffer old waiting ∧ _
      rw [hbuf]
      exact hr.buffer
  | deactivateReportsForConnection connection =>
    cases hc
    exact hr.quiet _ (.deactivate hr.buffered connection)
  | updateTimeOfEntry currentTime =>
    cases hc
    exact hr.quiet _ (.updateTimeOfEntry currentTime)
  | setInclusionFlag index flag =>
    cases hc
    exact hr.quiet _ (.modify index (includeMember · flag))
  | setMemberValue index value =>
    cases hc
    exact hr.quiet _ (.modify index fun m => { m with value := value })
  | settle gi triggered reportTime nextIntgReportTime =>
    cases hc
    exact hr.quiet _ ⟨rfl, .inl ⟨rfl, rfl⟩⟩

theorem Recorded.start (dataSets : DataSets) (rcb : ReportControlBlock) (memoryBlockSize : Nat)
    (reportTime : UInt64) :
    (MomentHistory.start dataSets rcb memoryBlockSize reportTime).Recorded := by
  obtain ⟨hb, hbuf, -⟩ := Delivery.start_rc dataSets rcb memoryBlockSize reportTime
  refine ⟨hb, [], [], ?_, fun e he => absurd he List.not_mem_nil⟩
  rw [MomentHistory.start, hbuf]
  exact represents_create _

/-- The next entry has its moment. -/
theorem Recorded.next (hr : h.Recorded) (ht : h.rc.Transmits) : ∃ m, h.next = some m := by
  obtain ⟨old, waiting, hbuf, hmoments⟩ := hr.buffer
  obtain ⟨entry, -, -, hentry, -⟩ := ht
  cases waiting with
  | nil => cases hbuf.nextToTransmit.symm.trans hentry
  | cons e rest =>
    have hnext : h.next = h.moments e.pos := by
      rw [MomentHistory.next, hbuf.nextToTransmit]
      rfl
    rw [hnext]
    exact hmoments e (by simp)

/-- Only sending the next entry transmits anything. -/
theorem sentOf_call {rc : ReportControl} {outputs : List Output}
    (hc : h.rc.call c = .ok (rc, outputs)) : c = .sendNextReportEntry ∨ sentOf outputs = [] := by
  cases c with
  | sendNextReportEntry => exact .inl rfl
  | enqueueReport isIntegrity isGI now =>
    rcases enqueueReport_cases hc with ⟨members, -, -, rfl⟩ | ⟨-, -, rfl⟩
    · exact .inr rfl
    · exact .inr rfl
  | writeAccessHandler dataSets w =>
    obtain ⟨_, -, hc⟩ := bind_ok hc
    cases hc
    exact .inr rfl
  | deactivateReportsForConnection | updateTimeOfEntry | setInclusionFlag | setMemberValue
  | settle =>
    cases hc
    exact .inr rfl

theorem inTime_of_ne (hc : c ≠ .sendNextReportEntry) : h.InTime time c := by
  cases c with
  | sendNextReportEntry => exact absurd rfl hc
  | _ => trivial

theorem dated_after_iff {rc : ReportControl} {outputs : List Output} :
    (h.after c rc outputs).Dated time ↔
      h.Dated time ∧ ∀ report ∈ sentOf outputs, Transmission.Dated time ⟨report, h.next⟩ := by
  simp only [Dated, after, List.mem_append, List.mem_map]
  constructor
  · exact fun hall => ⟨fun t ht => hall t (.inl ht), fun r hr => hall _ (.inr ⟨r, hr, rfl⟩)⟩
  · rintro ⟨hold, hnew⟩ t (ht | ⟨r, hr, rfl⟩)
    · exact hold t ht
    · exact hnew r hr

/-- One step keeps the reports dated exactly when it is in time. -/
theorem Recorded.dated_iff (hr : h.Recorded) (hd : h.Dated time) (hs : Step h c h') :
    h'.Dated time ↔ h.InTime time c := by
  obtain ⟨rc, outputs, hc, rfl⟩ := hs
  rw [dated_after_iff]
  by_cases hsend : c = .sendNextReportEntry
  · subst hsend
    rcases sendNextReportEntry_dated hr.buffered hc with ⟨rfl, hno⟩ | ⟨ht, report, rfl, htime⟩
    · exact iff_of_true ⟨hd, fun r hr => absurd hr List.not_mem_nil⟩ fun ht => absurd ht hno
    · obtain ⟨m, hm⟩ := hr.next ht
      have hone : Transmission.Dated time ⟨report, h.next⟩ ↔
          (h.rc.datesReports = true → h.rc.rcbValues .timeOfEntry = time m) := by
        simp only [Transmission.Dated, hm, htime]
        split
        case isTrue hdates => simp [hdates]
        case isFalse hdates => simp [hdates]
      constructor
      · rintro ⟨-, hnew⟩ ht hdates m' hm'
        obtain rfl := Option.some.inj (hm.symm.trans hm')
        exact hone.mp (hnew report List.mem_cons_self) hdates
      · intro hin
        refine ⟨hd, fun r hr => ?_⟩
        obtain rfl := List.mem_singleton.mp hr
        exact hone.mpr fun hdates => hin ht hdates m hm
  · rw [(sentOf_call hc).resolve_left hsend]
    exact iff_of_true ⟨hd, fun r hr => absurd hr List.not_mem_nil⟩ (inTime_of_ne hsend)

theorem dated_of_step (hs : Step h c h') (hd : h'.Dated time) : h.Dated time := by
  obtain ⟨rc, outputs, -, rfl⟩ := hs
  exact (dated_after_iff.mp hd).1

/-- A history whose reports have all been dated so far. -/
structure Timed (time : Moment → MmsValue) (h : MomentHistory) : Prop extends Recorded h where
  dated : h.Dated time

variable {calls : List Call} {s : MomentHistory}

theorem Recorded.run (hs : s.Recorded) (hr : Transition.Run Step Permits s calls h) : h.Recorded :=
  hr.invariant hs fun _ _ _ ht _ hstep => ht.step hstep

/-- The reports of a run are dated exactly when all its steps are in time. -/
theorem Recorded.run_dated_iff (hs : s.Recorded) (hd : s.Dated time)
    (hr : Transition.Run Step Permits s calls h) :
    h.Dated time ↔ Transition.Run Step (PermitsInTime time) s calls h := by
  constructor
  · intro hall
    induction hr with
    | nil => exact .nil
    | snoc hrun hg hstep ih =>
      have hbefore := dated_of_step hstep hall
      exact .snoc (ih hbefore) ⟨hg, ((hs.run hrun).dated_iff hbefore hstep).mp hall⟩ hstep
  · intro hin
    have hall : Timed time h := by
      refine hin.invariant ⟨hs, hd⟩ ?_
      intro t c u ht hg hstep
      exact ⟨ht.step hstep, (ht.dated_iff ht.dated hstep).mpr hg.2⟩
    exact hall.dated

/-- In every run, a write of an id does what it should exactly when the client is already in
position, and the reports are dated exactly when each is sent while the block still has the time
of its moment. -/
theorem run_resynchronises_iff (dataSets : DataSets) (rcb : ReportControlBlock)
    (memoryBlockSize : Nat) (reportTime : UInt64) {calls : List Call} {h : MomentHistory}
    (hr : Transition.Run Step Permits (start dataSets rcb memoryBlockSize reportTime) calls h) :
    (∃ entries, h.rc.reportBuffer.WellFormed entries) ∧
      (∀ entries dataSets w, h.rc.reportBuffer.WellFormed entries → w.elementName = .entryID →
        (h.rc.Resynchronises dataSets w entries ↔ h.rc.InPosition w entries)) ∧
      (h.Dated Moment.timeOfEntry ↔ Transition.Run Step (PermitsInTime Moment.timeOfEntry)
        (start dataSets rcb memoryBlockSize reportTime) calls h) ∧
      (h.Dated Moment.clockValue ↔ Transition.Run Step (PermitsInTime Moment.clockValue)
        (start dataSets rcb memoryBlockSize reportTime) calls h) := by
  have hstart := Recorded.start dataSets rcb memoryBlockSize reportTime
  have hrec := hstart.run hr
  have hnone : ∀ time, (start dataSets rcb memoryBlockSize reportTime).Dated time :=
    fun time t ht => absurd ht List.not_mem_nil
  obtain ⟨old, waiting, hbuf, -⟩ := hrec.buffer
  refine ⟨⟨old ++ waiting, hbuf.wellFormed⟩, ?_, hstart.run_dated_iff (hnone _) hr,
    hstart.run_dated_iff (hnone _) hr⟩
  intro entries dataSets w _ hn
  exact resynchronises_iff hrec.buffered hn

/-- A block that gives the time of entry in its reports. -/
def datedBlock : ReportControlBlock := ⟨none, none, 1, 2, 0, 4, 0⟩

/-- The id that the report enqueued at 5 has, as a client writes it. -/
def writeFive : Write where
  elementName := .entryID
  value := MmsValue.setOctetString (entryIdValue 5) (newRCBValue true datedBlock .entryID)
  rawBoolean := false
  connection := 1
  ownerAddress := [127, 0, 0, 1]

/-- A report that is sent before the time of entry changes is dated. -/
theorem run_resynchronises_dated : ∃ h : MomentHistory, h.transmitted.length = 1 ∧
    h.Dated Moment.timeOfEntry ∧ h.Dated Moment.clockValue := by
  obtain ⟨rc1, h1⟩ : ∃ rc1, (start oneMember datedBlock 200 0).rc.call
      (.writeAccessHandler oneMember (writeBoolean .rptEna true 1)) = .ok (rc1, []) := ⟨_, rfl⟩
  obtain ⟨rc2, h2⟩ : ∃ rc2, rc1.call (.updateTimeOfEntry 5) = .ok (rc2, []) := ⟨_, rfl⟩
  obtain ⟨rc3, members, h3, hen, hlast, hnext, htime, hclock⟩ : ∃ rc3 members,
      rc2.call (.enqueueReport true false 5) = .ok (rc3, [.generated true false members]) ∧
        rc3.enabled = true ∧ rc3.reportBuffer.lastEnqueuedReport = some 0 ∧
        rc3.reportBuffer.nextToTransmit = some 0 ∧
        rc3.rcbValues .timeOfEntry = rc2.rcbValues .timeOfEntry ∧
        rc2.rcbValues .timeOfEntry = Moment.clockValue ⟨rc2.rcbValues .timeOfEntry, 5⟩ := by
    cases h1
    cases h2
    exact ⟨_, _, rfl, rfl, rfl, rfl, rfl, rfl⟩
  obtain ⟨rc4, report, h4⟩ : ∃ rc4 report, rc3.call .sendNextReportEntry =
      .ok (rc4, [.sent report]) := by
    cases h1
    cases h2
    cases h3
    exact ⟨_, _, rfl⟩
  let s1 := (start oneMember datedBlock 200 0).after
    (.writeAccessHandler oneMember (writeBoolean .rptEna true 1)) rc1 []
  let s2 := s1.after (.updateTimeOfEntry 5) rc2 []
  let s3 := s2.after (.enqueueReport true false 5) rc3 [.generated true false members]
  let s4 := s3.after .sendNextReportEntry rc4 [.sent report]
  have hmoment : s3.next = some ⟨rc2.rcbValues .timeOfEntry, 5⟩ := by
    change rc3.reportBuffer.nextToTransmit.bind (s2.enqueue rc3 5) = _
    rw [hnext, Option.bind_some, enqueue, hlast, if_pos rfl]
    rfl
  have hrun : ∀ time : Moment → MmsValue,
      rc2.rcbValues .timeOfEntry = time ⟨rc2.rcbValues .timeOfEntry, 5⟩ →
      Transition.Run Step (PermitsInTime time) (start oneMember datedBlock 200 0)
        [.writeAccessHandler oneMember (writeBoolean .rptEna true 1), .updateTimeOfEntry 5,
          .enqueueReport true false 5, .sendNextReportEntry] s4 := by
    intro time hsame
    have hnil : Transition.Run Step (PermitsInTime time) (start oneMember datedBlock 200 0) []
        (start oneMember datedBlock 200 0) := .nil
    have hr1 := hnil.snoc (i := Call.writeAccessHandler oneMember (writeBoolean .rptEna true 1))
      ⟨rfl, trivial⟩ ⟨rc1, [], h1, rfl⟩
    have hr2 := hr1.snoc (i := Call.updateTimeOfEntry 5) ⟨trivial, trivial⟩ ⟨rc2, [], h2, rfl⟩
    have hr3 := hr2.snoc (i := Call.enqueueReport true false 5) ⟨trivial, trivial⟩
      ⟨rc3, _, h3, rfl⟩
    refine hr3.snoc (i := Call.sendNextReportEntry) ⟨hen, ?_⟩ ⟨rc4, _, h4, rfl⟩
    intro _ _ m hm
    obtain rfl := Option.some.inj (hmoment.symm.trans hm)
    exact htime.trans hsame
  have hkept := hrun Moment.timeOfEntry rfl
  obtain ⟨-, -, hentry, hclocked⟩ := run_resynchronises_iff oneMember datedBlock 200 0
    (hkept.mono fun _ _ => And.left)
  exact ⟨s4, rfl, hentry.mpr hkept, hclocked.mpr (hrun Moment.clockValue hclock)⟩

theorem five_ne_nine : ((MmsValue.newBinaryTime false).setBinaryTime 5).setBinaryTime 9 ≠
    (MmsValue.newBinaryTime false).setBinaryTime 5 := by
  intro h
  injection h with h
  injection h with _ hbuf
  revert hbuf
  decide

/-- The client asks for what is behind the only entry and stays before it, and a report of which
the time of entry has changed since says the later time. -/
theorem resynchronisation_fails :
    (∃ calls h entries, Transition.Run Step Permits (start oneMember datedBlock 200 0) calls h ∧
      h.rc.reportBuffer.WellFormed entries ∧
      ¬ h.rc.Resynchronises oneMember writeFive entries) ∧
    ∃ calls h, Transition.Run Step Permits (start oneMember datedBlock 200 0) calls h ∧
      ¬ h.Dated Moment.timeOfEntry := by
  have hnil : Transition.Run Step Permits (start oneMember datedBlock 200 0) []
      (start oneMember datedBlock 200 0) := .nil
  constructor
  · obtain ⟨rc1, members, h1, hid, hb, hsome, hen, hres⟩ : ∃ rc1 members,
        (start oneMember datedBlock 200 0).rc.call (.enqueueReport true false 5) =
          .ok (rc1, [.generated true false members]) ∧ rc1.lastEntryId = 5 ∧
          rc1.buffered = true ∧ rc1.reportBuffer.nextToTransmit = some 0 ∧ rc1.enabled = false ∧
          rc1.reserved = false := ⟨_, _, rfl, rfl, rfl, rfl, rfl, rfl⟩
    have hr1 := hnil.snoc (i := Call.enqueueReport true false 5) trivial ⟨rc1, _, h1, rfl⟩
    have hempty : Represents (start oneMember datedBlock 200 0).rc.reportBuffer [] [] :=
      represents_create 200
    rcases enqueueReport_entry hempty h1 with ⟨-, hno, -⟩ |
      ⟨_, _, old', waiting', e, -, -, -, -, ho, hw, -, hrep, -, hreport, -⟩
    · cases hno
    · obtain rfl := List.suffix_nil.mp ho
      obtain rfl := List.suffix_nil.mp hw
      refine ⟨_, _, [e], hr1, hrep.wellFormed, ?_⟩
      intro hsync
      have hnamed : e.IsNamed writeFive.value := by
        refine ⟨_, rfl, ?_⟩
        rw [hreport.entryId, hid]
        rfl
      obtain ⟨rc2, hw, before, f, after, hsplit, -, hnext⟩ :=
        hsync.found ⟨e, List.mem_cons_self, hnamed⟩
      change rc1.writeAccessHandler oneMember writeFive = _ at hw
      have hfree : ¬ rc1.Refuses writeFive := by simp [Refuses, hen, hres]
      rw [writeAccessHandler_entryID hb rfl, if_neg hfree] at hw
      cases hw
      have hafter : after = [] := by
        have hlen := congrArg List.length hsplit
        simp only [List.length_append, List.length_cons, List.length_nil] at hlen
        exact List.eq_nil_of_length_eq_zero (by omega)
      rw [hafter] at hnext
      change rc1.reportBuffer.nextToTransmit = none at hnext
      rw [hsome] at hnext
      cases hnext
  · obtain ⟨rc1, h1⟩ : ∃ rc1, (start oneMember datedBlock 200 0).rc.call
        (.writeAccessHandler oneMember (writeBoolean .rptEna true 1)) = .ok (rc1, []) := ⟨_, rfl⟩
    obtain ⟨rc2, h2⟩ : ∃ rc2, rc1.call (.updateTimeOfEntry 5) = .ok (rc2, []) := ⟨_, rfl⟩
    obtain ⟨rc3, members, h3⟩ : ∃ rc3 members,
        rc2.call (.enqueueReport true false 5) =
          .ok (rc3, [.generated true false members]) := by
      cases h1
      cases h2
      exact ⟨_, _, rfl⟩
    obtain ⟨rc4, h4, hen, hlast, hnext, hne⟩ : ∃ rc4,
        rc3.call (.updateTimeOfEntry 9) = .ok (rc4, []) ∧ rc4.enabled = true ∧
          rc3.reportBuffer.lastEnqueuedReport = some 0 ∧
          rc4.reportBuffer.nextToTransmit = some 0 ∧
          rc4.rcbValues .timeOfEntry ≠ rc2.rcbValues .timeOfEntry := by
      cases h1
      cases h2
      cases h3
      exact ⟨_, rfl, rfl, rfl, rfl, five_ne_nine⟩
    obtain ⟨rc5, report, h5, htime⟩ : ∃ rc5 report, rc4.call .sendNextReportEntry =
        .ok (rc5, [.sent report]) ∧ report.timeOfEntry = some (rc4.rcbValues .timeOfEntry) := by
      cases h1
      cases h2
      cases h3
      cases h4
      exact ⟨_, _, rfl, rfl⟩
    have hr1 := hnil.snoc (i := Call.writeAccessHandler oneMember (writeBoolean .rptEna true 1)) rfl
      ⟨rc1, [], h1, rfl⟩
    have hr2 := hr1.snoc (i := Call.updateTimeOfEntry 5) trivial ⟨rc2, [], h2, rfl⟩
    have hr3 := hr2.snoc (i := Call.enqueueReport true false 5) trivial ⟨rc3, _, h3, rfl⟩
    have hr4 := hr3.snoc (i := Call.updateTimeOfEntry 9) trivial ⟨rc4, [], h4, rfl⟩
    have hr5 := hr4.snoc (i := Call.sendNextReportEntry) hen ⟨rc5, _, h5, rfl⟩
    refine ⟨_, _, hr5, ?_⟩
    intro hdated
    obtain ⟨m, hm, hsame⟩ := (dated_after_iff.mp hdated).2 report List.mem_cons_self
    have hmoment : m.timeOfEntry = rc2.rcbValues .timeOfEntry := by
      change rc4.reportBuffer.nextToTransmit.bind (enqueue _ rc3 5) = some m at hm
      rw [hnext, Option.bind_some, enqueue, hlast, if_pos rfl] at hm
      obtain rfl := Option.some.inj hm
      rfl
    have hwrong := hsame _ htime
    exact hne (hwrong.trans hmoment)

end MomentHistory

end Iec61850.Reporting
