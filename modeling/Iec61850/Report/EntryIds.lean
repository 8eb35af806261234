import Iec61850.Report.Delivery

/-! The ids of the entries of the report buffer. -/

namespace Iec61850.Reporting

open Machine ReportControl

/-- A buffered block with the time that has been read last, and the ids of the entries that have
been enqueued. -/
structure EntryHistory where
  rc : ReportControl
  clock : UInt64
  entryIds : List UInt64

namespace EntryHistory

/-- The time that a call reads, if it reads one. -/
def time (h : EntryHistory) : Call → UInt64
  | .enqueueReport _ _ now => now
  | _ => h.clock

def Step (h : EntryHistory) (c : Call) (h' : EntryHistory) : Prop :=
  ∃ rc outputs, h.rc.call c = .ok (rc, outputs) ∧
    h' = ⟨rc, h.time c, h.entryIds ++ (generatedOf outputs).map fun _ => rc.lastEntryId⟩

/-- The clock does not go back. -/
def Clocked (h : EntryHistory) (c : Call) : Prop := h.rc.Permits c ∧ h.clock ≤ h.time c

/-- A report that fits into the memory block is enqueued when the last id is not ahead of the
clock, and there is a next id where the clock still shows the last one. -/
def InTime (h : EntryHistory) : Call → Prop
  | .enqueueReport isIntegrity isGI now =>
    ∀ members size, h.rc.members = some members →
      bufferEntrySize members isIntegrity isGI = .ok size →
      size ≤ h.rc.reportBuffer.memoryBlock.size →
      h.rc.lastEntryId ≤ now ∧ (now = h.rc.lastEntryId → now < now + 1)
  | _ => True

def ClockedInTime (h : EntryHistory) (c : Call) : Prop := h.Clocked c ∧ h.InTime c

/-- The ids grow, and no two of the entries in the buffer have the same one. -/
structure Distinct (h : EntryHistory) : Prop where
  increasing : h.entryIds.Pairwise (· < ·)
  present : ∃ entries, h.rc.reportBuffer.WellFormed entries ∧
    entries.map Entry.entryId <:+ h.entryIds ∧ (entries.map Entry.entryId).Nodup

def start (dataSets : DataSets) (rcb : ReportControlBlock) (memoryBlockSize : Nat)
    (reportTime : UInt64) : EntryHistory where
  rc := (Delivery.start dataSets rcb memoryBlockSize reportTime).rc
  clock := 0
  entryIds := []

end EntryHistory

section

variable {rc rc' : ReportControl} {dataSets : DataSets} {w : Write}

theorem lastEntryId_written (h : Written dataSets rc w rc') : rc'.lastEntryId = rc.lastEntryId := by
  cases h with
  | same => rfl
  | reserved values => rfl
  | dataSet rc1 values hn hen hfree hne hd =>
    obtain ⟨vs, dynamic, rfl⟩ := updateReportDataset_cases hd
    obtain ⟨buffer, -, he⟩ := purgeIfBuffered_eq
      { rc with isDynamicDataSet := dynamic, members := some (vs.map newMember) }
    rw [he]
  | settings => rfl

theorem lastEntryId_disable (rc : ReportControl) : rc.disable.lastEntryId = rc.lastEntryId := by
  rw [ReportControl.disable]
  split <;> rfl

theorem lastEntryId_writeAccessHandler {result : MmsDataAccessError}
    (h : rc.writeAccessHandler dataSets w = .ok (rc', result)) :
    rc'.lastEntryId = rc.lastEntryId := by
  rcases writeAccessHandler_cases h with rfl | ⟨rc1, -, hd, rfl⟩ | ⟨-, -, -, hw⟩ | rfl | ⟨-, hw⟩
  · rfl
  · obtain ⟨vs, dynamic, rfl⟩ := updateReportDataset_cases hd
    rfl
  · exact (lastEntryId_written hw).trans (lastEntryId_disable rc)
  · rfl
  · exact lastEntryId_written hw

theorem lastEntryId_deactivate (connection : Connection) :
    (rc.deactivateReportsForConnection connection).lastEntryId = rc.lastEntryId := by
  rw [deactivateReportsForConnection]
  split
  · dsimp only [setRCBValue, updateOwner]
    split <;> rfl
  · rfl

theorem lastEntryId_updateTimeOfEntry (currentTime : UInt64) :
    (rc.updateTimeOfEntry currentTime).lastEntryId = rc.lastEntryId := by
  rw [ReportControl.updateTimeOfEntry]
  split <;> rfl

end

namespace EntryHistory

/-- What the steps keep: the block remembers the last id, and the buffer has the entries that
have been enqueued last. -/
structure Recorded (h : EntryHistory) : Prop where
  buffered : h.rc.buffered = true
  last : h.rc.lastEntryId = h.entryIds.getLastD 0
  buffer : ∃ old waiting, Represents h.rc.reportBuffer old waiting ∧
    (old ++ waiting).map Entry.entryId <:+ h.entryIds

variable {h h' : EntryHistory} {c : Call}

/-- A call that enqueues nothing. -/
theorem Recorded.quiet (hr : h.Recorded) {rc : ReportControl} (time : UInt64)
    (hk : KeepsEntries h.rc rc) (hlast : rc.lastEntryId = h.rc.lastEntryId) :
    Recorded ⟨rc, time, h.entryIds⟩ := by
  refine ⟨hk.1.trans hr.buffered, hlast.trans hr.last, ?_⟩
  rcases hk.2 with ⟨hbuf, -⟩ | hpurge
  · rw [hbuf]
    exact hr.buffer
  · rw [hpurge]
    exact ⟨[], [], represents_purgeBuf _, List.nil_suffix⟩

theorem Recorded.enqueueReport (hr : h.Recorded) {rc : ReportControl} {outputs : List Output}
    {isIntegrity isGI : Bool} {now : UInt64}
    (he : h.rc.enqueueReport isIntegrity isGI now = .ok (rc, outputs)) :
    Recorded ⟨rc, now, h.entryIds ++ (generatedOf outputs).map fun _ => rc.lastEntryId⟩ := by
  obtain ⟨old, waiting, hbuf, hids⟩ := hr.buffer
  rcases enqueueReport_entry hbuf he with ⟨rfl, rfl, -⟩ |
    ⟨members, size, old', waiting', e, -, -, -, rfl, -, -, hsuffix, hrep, -, hreport, -, hb, -⟩
  · rw [generatedOf, List.map_nil, List.append_nil]
    exact hr.quiet now (.refl _) rfl
  · refine ⟨hb.trans hr.buffered, List.getLastD_concat.symm, old', waiting' ++ [e], hrep, ?_⟩
    obtain ⟨gone, hgone⟩ := (hsuffix.map Entry.entryId).trans hids
    refine ⟨gone, ?_⟩
    rw [← List.append_assoc, List.map_append, ← List.append_assoc, hgone]
    simp only [List.map_cons, List.map_nil, hreport.entryId]
    rfl

theorem Recorded.sendNextReportEntry (hr : h.Recorded) {rc : ReportControl}
    {outputs : List Output} (he : h.rc.sendNextReportEntry = .ok (rc, outputs)) :
    generatedOf outputs = [] ∧ Recorded ⟨rc, h.clock, h.entryIds⟩ := by
  obtain ⟨old, waiting, hbuf, hids⟩ := hr.buffer
  unfold ReportControl.sendNextReportEntry at he
  split at he
  · cases he
    exact ⟨rfl, hr.quiet h.clock (.refl _) rfl⟩
  · cases he
  · obtain ⟨stored, -, he⟩ := bind_ok he
    dsimp only at he
    split at he
    · cases he
      exact ⟨rfl, hr.quiet h.clock ⟨rfl, .inl ⟨rfl, rfl⟩⟩ rfl⟩
    · obtain ⟨buffer, hbuffer, he⟩ := bind_ok he
      cases he
      refine ⟨rfl, hr.buffered, hr.last, ?_⟩
      rcases transmitted_spec hbuf with ⟨rfl, hsame⟩ | ⟨e, rest, b', rfl, hsent, hb', -⟩
      · obtain rfl := Except.ok.inj (hsame.symm.trans hbuffer)
        exact ⟨old, [], hbuf, hids⟩
      · obtain rfl := Except.ok.inj (hsent.symm.trans hbuffer)
        refine ⟨old ++ [e], rest, hb', ?_⟩
        rwa [List.append_assoc]

theorem Recorded.step (hr : h.Recorded) (hs : Step h c h') : h'.Recorded := by
  obtain ⟨rc, outputs, hc, rfl⟩ := hs
  cases c with
  | enqueueReport isIntegrity isGI now => exact hr.enqueueReport hc
  | sendNextReportEntry =>
    obtain ⟨hnone, hrec⟩ := hr.sendNextReportEntry hc
    rw [hnone, List.map_nil, List.append_nil]
    exact hrec
  | writeAccessHandler dataSets w =>
    obtain ⟨⟨rc1, result⟩, hw, hc⟩ := bind_ok hc
    cases hc
    rw [generatedOf, List.map_nil, List.append_nil]
    have hlast := lastEntryId_writeAccessHandler hw
    rcases keepsEntries_writeAccessHandler hr.buffered hw with hk | ⟨-, hb, hbuf, -⟩
    · exact hr.quiet h.clock hk hlast
    · refine ⟨hb.trans hr.buffered, hlast.trans hr.last, ?_⟩
      rw [hbuf]
      exact hr.buffer
  | deactivateReportsForConnection connection =>
    cases hc
    rw [generatedOf, List.map_nil, List.append_nil]
    exact hr.quiet h.clock (.deactivate hr.buffered connection) (lastEntryId_deactivate connection)
  | updateTimeOfEntry currentTime =>
    cases hc
    rw [generatedOf, List.map_nil, List.append_nil]
    exact hr.quiet h.clock (.updateTimeOfEntry currentTime)
      (lastEntryId_updateTimeOfEntry currentTime)
  | setInclusionFlag index flag =>
    cases hc
    rw [generatedOf, List.map_nil, List.append_nil]
    exact hr.quiet h.clock (.modify index (includeMember · flag)) rfl
  | setMemberValue index value =>
    cases hc
    rw [generatedOf, List.map_nil, List.append_nil]
    exact hr.quiet h.clock (.modify index fun m => { m with value := value }) rfl
  | settle gi triggered reportTime nextIntgReportTime =>
    cases hc
    rw [generatedOf, List.map_nil, List.append_nil]
    exact hr.quiet h.clock ⟨rfl, .inl ⟨rfl, rfl⟩⟩ rfl

theorem Recorded.start (dataSets : DataSets) (rcb : ReportControlBlock) (memoryBlockSize : Nat)
    (reportTime : UInt64) :
    (EntryHistory.start dataSets rcb memoryBlockSize reportTime).Recorded := by
  obtain ⟨hb, hbuf, hlast⟩ := Delivery.start_rc dataSets rcb memoryBlockSize reportTime
  refine ⟨hb, hlast, [], [], ?_, List.nil_suffix⟩
  rw [EntryHistory.start, hbuf]
  exact represents_create _

/-- The ids are those of the block: as many new ones as there are new entries, each made of the
clock and of the last one. -/
theorem Recorded.ids_cases (hr : h.Recorded) (hs : Step h c h') :
    h'.entryIds = h.entryIds ∧ h.InTime c ∨
      ∃ isIntegrity isGI now members size, c = .enqueueReport isIntegrity isGI now ∧
        h.rc.members = some members ∧ bufferEntrySize members isIntegrity isGI = .ok size ∧
        size ≤ h.rc.reportBuffer.memoryBlock.size ∧
        h'.entryIds = h.entryIds ++ [if now = h.rc.lastEntryId then now + 1 else now] := by
  obtain ⟨rc, outputs, hc, rfl⟩ := hs
  have hquiet : generatedOf outputs = [] →
      h.entryIds ++ (generatedOf outputs).map (fun _ => rc.lastEntryId) = h.entryIds := by
    intro hnil
    rw [hnil, List.map_nil, List.append_nil]
  cases c with
  | enqueueReport isIntegrity isGI now =>
    obtain ⟨old, waiting, hbuf, -⟩ := hr.buffer
    rcases enqueueReport_entry hbuf hc with ⟨rfl, rfl, hskip⟩ |
      ⟨members, size, _, _, _, hm, hsize, hfit, rfl, -, -, -, -, -, -, hid, -⟩
    · refine .inl ⟨hquiet rfl, ?_⟩
      intro members size hm hsize hfit
      exact absurd hfit (not_le.mpr (hskip members size hm hsize))
    · refine .inr ⟨isIntegrity, isGI, now, members, size, rfl, hm, hsize, hfit, ?_⟩
      rw [← hid]
      rfl
  | sendNextReportEntry => exact .inl ⟨hquiet (hr.sendNextReportEntry hc).1, trivial⟩
  | writeAccessHandler dataSets w =>
    obtain ⟨⟨rc1, result⟩, hw, hc⟩ := bind_ok hc
    cases hc
    exact .inl ⟨hquiet rfl, trivial⟩
  | deactivateReportsForConnection | updateTimeOfEntry | setInclusionFlag | setMemberValue
  | settle =>
    cases hc
    exact .inl ⟨hquiet rfl, trivial⟩

/-- An id that is made of a clock that has not been overtaken is new. -/
theorem lt_next_iff {last now : UInt64} :
    (last < if now = last then now + 1 else now) ↔
      last ≤ now ∧ (now = last → now < now + 1) := by
  by_cases heq : now = last
  · rw [if_pos heq, heq]
    constructor
    · exact fun hlt => ⟨UInt64.le_refl _, fun _ => hlt⟩
    · exact fun hin => hin.2 rfl
  · rw [if_neg heq]
    constructor
    · exact fun hlt => ⟨UInt64.le_of_lt hlt, fun hn => absurd hn heq⟩
    · exact fun hin => UInt64.lt_of_le_of_ne hin.1 (Ne.symm heq)

theorem getLastD_mem {ids : List UInt64} (hne : ids ≠ []) : ids.getLastD 0 ∈ ids := by
  rw [List.getLastD_eq_getLast?, List.getLast?_eq_some_getLast hne]
  exact List.getLast_mem hne

/-- The ids still grow with one more exactly when it is greater than the last one. -/
theorem increasing_concat_iff {ids : List UInt64} {id : UInt64} (h : ids.Pairwise (· < ·)) :
    (ids ++ [id]).Pairwise (· < ·) ↔ ids = [] ∨ ids.getLastD 0 < id := by
  rw [List.pairwise_append]
  constructor
  · rintro ⟨-, -, hall⟩
    by_cases hnil : ids = []
    · exact .inl hnil
    · exact .inr (hall _ (getLastD_mem hnil) id List.mem_cons_self)
  · rintro hlast
    refine ⟨h, List.pairwise_singleton _ _, ?_⟩
    intro a ha b hb
    obtain rfl := List.mem_singleton.mp hb
    have hne : ids ≠ [] := List.ne_nil_of_mem ha
    have hlt := hlast.resolve_left hne
    obtain ⟨front, last, rfl⟩ := (List.eq_nil_or_concat' ids).resolve_left hne
    rw [List.getLastD_concat] at hlt
    rcases List.mem_append.mp ha with hfront | hl
    · exact UInt64.lt_trans ((List.pairwise_append.mp h).2.2 a hfront last List.mem_cons_self) hlt
    · rwa [List.mem_singleton.mp hl]

/-- One step keeps the ids growing exactly when it is in time. -/
theorem Recorded.increasing_iff (hr : h.Recorded) (hinc : h.entryIds.Pairwise (· < ·))
    (hs : Step h c h') : h'.entryIds.Pairwise (· < ·) ↔ h.InTime c := by
  rcases hr.ids_cases hs with ⟨hsame, hin⟩ |
    ⟨isIntegrity, isGI, now, members, size, rfl, hm, hsize, hfit, hids⟩
  · rw [hsame]
    exact iff_of_true hinc hin
  · rw [hids, increasing_concat_iff hinc]
    have hnext : h.InTime (.enqueueReport isIntegrity isGI now) ↔
        h.rc.lastEntryId < if now = h.rc.lastEntryId then now + 1 else now := by
      rw [lt_next_iff]
      constructor
      · exact fun hin => hin members size hm hsize hfit
      · exact fun hin _ _ _ _ _ => hin
    rw [hnext, ← hr.last]
    constructor
    · rintro (hnil | hlt)
      · have hzero : h.rc.lastEntryId = 0 := by rw [hr.last, hnil]; rfl
        rw [hzero, lt_next_iff]
        exact ⟨UInt64.zero_le, fun hz => by rw [hz]; decide⟩
      · exact hlt
    · exact .inr

/-- A growing list of ids has grown all the time. -/
theorem increasing_of_step (hs : Step h c h') (hinc : h'.entryIds.Pairwise (· < ·)) :
    h.entryIds.Pairwise (· < ·) := by
  obtain ⟨rc, outputs, -, rfl⟩ := hs
  exact (List.pairwise_append.mp hinc).1

structure Growing (h : EntryHistory) : Prop extends Recorded h where
  increasing : h.entryIds.Pairwise (· < ·)

theorem Growing.distinct (hg : h.Growing) : h.Distinct where
  increasing := hg.increasing
  present := by
    obtain ⟨old, waiting, hbuf, hids⟩ := hg.buffer
    refine ⟨old ++ waiting, hbuf.wellFormed, hids, ?_⟩
    exact (hg.increasing.sublist hids.sublist).imp UInt64.ne_of_lt

variable {calls : List Call} {s : EntryHistory}

theorem Recorded.run (hs : s.Recorded) (hr : Transition.Run Step Clocked s calls h) : h.Recorded :=
  hr.invariant hs fun _ _ _ ht _ hstep => ht.step hstep

/-- Where the ids have grown, every step has been in time. -/
theorem run_inTime (hs : s.Recorded) (hr : Transition.Run Step Clocked s calls h)
    (hinc : h.entryIds.Pairwise (· < ·)) : Transition.Run Step ClockedInTime s calls h := by
  induction hr with
  | nil => exact .nil
  | snoc hrun hg hstep ih =>
    have hbefore := increasing_of_step hstep hinc
    have hin := ((hs.run hrun).increasing_iff hbefore hstep).mp hinc
    exact .snoc (ih hbefore) ⟨hg, hin⟩ hstep

/-- The ids of the entries of a block grow, and those in its buffer are different, exactly in the
runs in which no report is enqueued while the last id is ahead of the clock. -/
theorem run_distinct_iff (dataSets : DataSets) (rcb : ReportControlBlock) (memoryBlockSize : Nat)
    (reportTime : UInt64) {calls : List Call} {h : EntryHistory}
    (hr : Transition.Run Step Clocked (start dataSets rcb memoryBlockSize reportTime) calls h) :
    h.Distinct ↔
      Transition.Run Step ClockedInTime (start dataSets rcb memoryBlockSize reportTime) calls h := by
  have hstart := Recorded.start dataSets rcb memoryBlockSize reportTime
  constructor
  · exact fun hd => run_inTime hstart hr hd.increasing
  · intro hin
    have hall : h.Growing := by
      refine hin.invariant ⟨hstart, .nil⟩ ?_
      intro t c u ht hg hstep
      exact ⟨ht.step hstep, (ht.increasing_iff ht.increasing hstep).mpr hg.2⟩
    exact hall.distinct

/-- Integrity reports that a block enqueues in one millisecond. -/
def integrity : Call := .enqueueReport true false 5

/-- Two reports in one millisecond have different ids. -/
theorem run_distinct_twice : ∃ h : EntryHistory, h.entryIds = [5, 6] ∧ h.Distinct := by
  obtain ⟨rc1, members, h1, hid1⟩ : ∃ rc1 members,
      (start oneMember plainBlock 200 0).rc.call integrity =
        .ok (rc1, [.generated true false members]) ∧ rc1.lastEntryId = 5 := ⟨_, _, rfl, rfl⟩
  obtain ⟨rc2, members', h2, hid2⟩ : ∃ rc2 members,
      rc1.call integrity = .ok (rc2, [.generated true false members]) ∧ rc2.lastEntryId = 6 := by
    cases h1
    exact ⟨_, _, rfl, rfl⟩
  have hnil : Transition.Run Step ClockedInTime (start oneMember plainBlock 200 0) []
      (start oneMember plainBlock 200 0) := .nil
  have hr1 := hnil.snoc (i := integrity)
    ⟨⟨trivial, by decide⟩, fun _ _ _ _ _ => ⟨by decide, fun h => absurd h (by decide)⟩⟩
    ⟨rc1, _, h1, rfl⟩
  have hr2 := hr1.snoc (i := integrity)
    ⟨⟨trivial, UInt64.le_refl _⟩, fun _ _ _ _ _ => ⟨UInt64.le_of_eq hid1, fun _ => by decide⟩⟩
    ⟨rc2, _, h2, rfl⟩
  refine ⟨_, ?_, (run_distinct_iff oneMember plainBlock 200 0 (hr2.mono fun _ _ => And.left)).mpr
    hr2⟩
  simp only [generatedOf, List.map_cons, List.map_nil, hid1, hid2]
  rfl

/-- The third report in one millisecond has the id of the first one. -/
theorem ids_repeated : ∃ calls h, Transition.Run Step Clocked (start oneMember plainBlock 200 0)
    calls h ∧ ¬ h.Distinct := by
  obtain ⟨rc1, members, h1, hid1⟩ : ∃ rc1 members,
      (start oneMember plainBlock 200 0).rc.call integrity =
        .ok (rc1, [.generated true false members]) ∧ rc1.lastEntryId = 5 := ⟨_, _, rfl, rfl⟩
  obtain ⟨rc2, members', h2, hid2⟩ : ∃ rc2 members,
      rc1.call integrity = .ok (rc2, [.generated true false members]) ∧ rc2.lastEntryId = 6 := by
    cases h1
    exact ⟨_, _, rfl, rfl⟩
  obtain ⟨rc3, members'', h3, hid3⟩ : ∃ rc3 members,
      rc2.call integrity = .ok (rc3, [.generated true false members]) ∧ rc3.lastEntryId = 5 := by
    cases h1
    cases h2
    exact ⟨_, _, rfl, rfl⟩
  have hnil : Transition.Run Step Clocked (start oneMember plainBlock 200 0) []
      (start oneMember plainBlock 200 0) := .nil
  have hr1 := hnil.snoc (i := integrity) ⟨trivial, by decide⟩ ⟨rc1, _, h1, rfl⟩
  have hr2 := hr1.snoc (i := integrity) ⟨trivial, UInt64.le_refl _⟩ ⟨rc2, _, h2, rfl⟩
  have hr3 := hr2.snoc (i := integrity) ⟨trivial, UInt64.le_refl _⟩ ⟨rc3, _, h3, rfl⟩
  refine ⟨_, _, hr3, ?_⟩
  intro hd
  have hinc := hd.increasing
  simp only [generatedOf, List.map_cons, List.map_nil, hid1, hid2, hid3] at hinc
  exact absurd hinc (by decide)

end EntryHistory

end Iec61850.Reporting
