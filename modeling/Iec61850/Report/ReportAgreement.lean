import Iec61850.Report.Delivery
import Mathlib.Logic.Relation

/-! The two builders of a report: `sendReport`, and `enqueueReport` with `sendNextReportEntry`. -/

namespace Iec61850.Reporting

open Machine ReportControl

/-- Apart from their headers the reports are the same. -/
structure Report.SameContent (report direct : Report) : Prop where
  elementCount : report.elementCount = direct.elementCount
  inclusion : report.inclusion = direct.inclusion
  values : report.values = direct.values
  reasons : report.reasons = direct.reasons

/-- The reason for inclusion is one of the options of the block. -/
def ReportControl.givesReasons (rc : ReportControl) : Bool :=
  (rc.rcbValues .optFlds).getBitStringBit 3

section

variable {members : List Member} {isIntegrity isGI : Bool}

theorem changedValues_enqueued :
    changedValues members = .ok (enqueuedValues members false false) := by
  change changedValues members = Except.ok (members.filterMap _)
  induction members with
  | nil => rfl
  | cons m ms ih =>
    by_cases hflag : m.flag = .none
    · rw [changedValues, if_pos hflag, ih, List.filterMap_cons_none (by rw [if_pos hflag])]
    · obtain ⟨v, hv⟩ := Option.isSome_iff_exists.mp (m.bufferedValue_of_flag hflag)
      rw [changedValues, if_neg hflag, hv]
      simp only
      rw [ih, List.filterMap_cons_some (by rw [if_neg hflag, hv])]
      rfl

/-- Both builders take the same values. -/
theorem sentValues_enqueued :
    sentValues (isGI || isIntegrity) members = .ok (enqueuedValues members isIntegrity isGI) := by
  cases hall : isIntegrity || isGI with
  | true => rw [sentValues, Bool.or_comm, hall, enqueuedValues, hall, if_pos rfl, if_pos rfl]
  | false =>
    rw [sentValues, Bool.or_comm, hall, if_neg Bool.false_ne_true, changedValues_enqueued]
    simp only [enqueuedValues, hall]
    rfl

end

section

variable {rc rc' : ReportControl} {members : List Member} {isIntegrity isGI : Bool}

/-- A report that is sent at once says what would be enqueued. -/
theorem sendReport_carries (isIntegrity isGI : Bool) (hm : rc.members = some members) :
    ∃ rc' direct,
    rc.sendReport isIntegrity isGI =
        .ok (rc', [.generated isIntegrity isGI members, .sent direct]) ∧
      direct.Carries ⟨isIntegrity, isGI, members⟩ ∧ direct.givesReasons = rc.givesReasons := by
  rw [sendReport, hm]
  simp only
  rw [sentValues_enqueued, ok_bind]
  refine ⟨_, _, rfl, ⟨rfl, ?_, rfl, Generation.values_current, rfl⟩, ?_⟩
  · change (if isGI || isIntegrity then _ else _) = if isIntegrity || isGI then _ else _
    rw [Bool.or_comm]
  · change ((rc.setRCBValue .optFlds _).rcbValues .optFlds).getBitStringBit 3 = _
    rw [setRCBValue_self, getBitStringBit_clearBitStringBit (by decide),
      getBitStringBit_clearBitStringBit (by decide), getBitStringBit_clearBitStringBit (by decide)]
    rfl

theorem prepareEntry_givesReasons (rc : ReportControl) (stored : StoredReport) :
    (rc.prepareEntry stored).givesReasons = rc.givesReasons := prepareEntry_reasons

/-- The report of an entry may differ from the direct one in the reasons for inclusion only. -/
theorem entryReport_sameContent_iff {g : Generation} {id : UInt64} {direct : Report}
    (hd : direct.Carries g) (hr : direct.givesReasons = rc.givesReasons) :
    (rc.entryReport (storedReport g.members g.isIntegrity g.isGI id)
        g.members.length).SameContent direct ↔
      ¬ (rc.givesReasons ∧ (g.isIntegrity || g.isGI) ∧ g.members ≠ []) := by
  have hreasons : (rc.entryReport (storedReport g.members g.isIntegrity g.isGI id)
      g.members.length).reasons = direct.reasons ↔
        ¬ (rc.givesReasons ∧ (g.isIntegrity || g.isGI) ∧ g.members ≠ []) := by
    rw [hd.reasons, hr]
    change (if rc.givesReasons then _ else _) = _ ↔ _
    cases rc.givesReasons with
    | false => simp
    | true =>
      change (storedReport g.members g.isIntegrity g.isGI id).reasons = sentReasons _ _ _ ↔ _
      rw [storedReport_reasons_iff]
      simp only [true_and, not_and_or, Bool.not_eq_true, ne_eq, not_not]
  refine ⟨fun h => hreasons.mp h.reasons, fun h => ⟨?_, ?_, ?_, hreasons.mpr h⟩⟩
  · exact hd.elementCount.symm
  · exact hd.inclusion.symm
  · exact storedReport_values.trans hd.values.symm

theorem enqueueReport_givesReasons {now : UInt64} {outputs : List Output}
    (h : rc.enqueueReport isIntegrity isGI now = .ok (rc', outputs)) :
    rc'.givesReasons = rc.givesReasons := by
  unfold ReportControl.enqueueReport at h
  split at h
  case h_1 => cases h
  case h_2 members hm =>
    obtain ⟨⟨buffer, stored⟩, -, h⟩ := bind_ok h
    by_cases hen : rc.enabled
    all_goals
      simp only [hen, ↓reduceIte] at h
      cases stored with
      | true =>
        cases h
        rfl
      | false =>
        cases h
        rfl

theorem sendNextReportEntry_inv {outputs : List Output}
    (h : rc.sendNextReportEntry = .ok (rc', outputs)) :
    outputs = [] ∧ (rc' = rc ∨ ∃ stored, rc' = rc.prepareEntry stored) ∨
      ∃ entry members stored buffer, rc.reportBuffer.nextToTransmit = some entry ∧
        rc.members = some members ∧
        readEntry rc.reportBuffer.memoryBlock entry members.length = .ok stored ∧
        rc.reportBuffer.transmitted = .ok buffer ∧
        rc' = { (rc.prepareEntry stored).increaseSqNum with reportBuffer := buffer } ∧
        outputs = [.sent ((rc.prepareEntry stored).entryReport stored members.length)] := by
  unfold sendNextReportEntry at h
  split at h
  case h_1 =>
    cases h
    exact .inl ⟨rfl, .inl rfl⟩
  case h_2 => cases h
  case h_3 entry members hentry hm =>
    obtain ⟨stored, hread, h⟩ := bind_ok h
    dsimp only at h
    split at h
    case isTrue =>
      cases h
      exact .inl ⟨rfl, .inr ⟨stored, rfl⟩⟩
    case isFalse =>
      obtain ⟨buffer, hbuffer, h⟩ := bind_ok h
      cases h
      exact .inr ⟨entry, members, stored, buffer, hentry, hm, hread, hbuffer, rfl, rfl⟩

end

/-- The entry of a report is in the buffer, and the reader will find the number of members
that it was made of. -/
structure Retains (rc : ReportControl) (g : Generation) (e : Entry) (gives : Bool) : Prop where
  buffer : ∃ sent waiting, Represents rc.reportBuffer sent waiting ∧ e ∈ sent ++ waiting
  stored : g.StoredAs e
  readable : rc.members.map List.length = some g.members.length
  reasons : rc.givesReasons = gives

/-- `sendNextReportEntry` is called. -/
def Sends (rc rc' : ReportControl) : Prop := ∃ outputs, rc.sendNextReportEntry = .ok (rc', outputs)

section

variable {rc rc' : ReportControl} {g : Generation} {e : Entry} {gives : Bool}

theorem Retains.sends (h : Retains rc g e gives) (hs : Sends rc rc') : Retains rc' g e gives := by
  obtain ⟨outputs, hs⟩ := hs
  obtain ⟨sent, waiting, hrep, he⟩ := h.buffer
  rcases sendNextReportEntry_inv hs with
    ⟨-, rfl | ⟨stored, rfl⟩⟩ | ⟨entry, members, stored, buffer, -, -, -, hbuffer, rfl, -⟩
  · exact h
  · exact ⟨⟨sent, waiting, hrep, he⟩, h.stored, h.readable,
      (prepareEntry_givesReasons rc stored).trans h.reasons⟩
  · refine ⟨?_, h.stored, h.readable, (prepareEntry_givesReasons rc stored).trans h.reasons⟩
    rcases transmitted_spec hrep with ⟨-, hok⟩ | ⟨f, rest, b', rfl, hok, hrep', -⟩
    · obtain rfl := Except.ok.inj (hok.symm.trans hbuffer)
      exact ⟨sent, waiting, hrep, he⟩
    · obtain rfl := Except.ok.inj (hok.symm.trans hbuffer)
      exact ⟨sent ++ [f], rest, hrep', by simpa using he⟩

theorem Retains.run (h : Retains rc g e gives) (hr : Relation.ReflTransGen Sends rc rc') :
    Retains rc' g e gives := by
  induction hr with
  | refl => exact h
  | tail _ hs ih => exact ih.sends hs

/-- What is transmitted when it is the turn of the entry. -/
theorem Retains.transmits (h : Retains rc g e gives)
    (hnext : rc.reportBuffer.nextToTransmit = some e.pos) {report : Report}
    (hs : rc.sendNextReportEntry = .ok (rc', [.sent report])) : ∃ stored id,
    report = (rc.prepareEntry stored).entryReport
      (storedReport g.members g.isIntegrity g.isGI id) g.members.length := by
  obtain ⟨sent, waiting, hrep, he⟩ := h.buffer
  rcases sendNextReportEntry_inv hs with
    ⟨hnil, -⟩ | ⟨entry, members, stored, buffer, hentry, hm, hread, -, -, hout⟩
  · cases hnil
  · obtain rfl := Option.some.inj (hnext.symm.trans hentry)
    have hlen : members.length = g.members.length := by
      have hread := h.readable
      rw [hm] at hread
      exact Option.some.inj hread
    obtain ⟨hstrings, id, hreport⟩ := h.stored
    obtain ⟨before, after, hsplit⟩ := List.append_of_mem he
    have hchain := hrep.chain
    rw [hsplit] at hchain
    have hentry : e.Stored rc.reportBuffer.memoryBlock _ := (chain_append.mp hchain).2.1
    rw [hlen, readEntry_isReport hentry hreport hstrings] at hread
    obtain rfl := Except.ok.inj hread
    rw [hlen] at hout
    exact ⟨_, id, (Output.sent.inj (List.cons.inj hout).1)⟩

/-- A report that is enqueued is retained at the end of the buffer. -/
theorem retains_enqueued {size : Nat} {ops : List BufferOp} {members : List Member}
    {isIntegrity isGI : Bool} {now : UInt64} {outputs : List Output}
    (hb : ReportBuffer.run size ops = .ok rc.reportBuffer) (hm : rc.members = some members)
    (he : rc.enqueueReport isIntegrity isGI now = .ok (rc', outputs)) (hne : outputs ≠ []) :
    ∃ e, Retains rc' ⟨isIntegrity, isGI, members⟩ e rc.givesReasons ∧
      rc'.reportBuffer.lastEnqueuedReport = some e.pos := by
  rcases foldlM_spec (represents_create size) ops with ⟨b, hok, -, old, waiting, hrep⟩ | ⟨herr, -⟩
  · obtain rfl := Except.ok.inj (hok.symm.trans hb)
    rcases enqueueReport_stored hrep he with
      ⟨-, hnil⟩ | ⟨ms, old', waiting', e, hms, -, -, -, -, hrep', hstored, -, hlen⟩
    · exact absurd hnil hne
    · obtain rfl := Option.some.inj (hm.symm.trans hms)
      refine ⟨e, ⟨⟨old', waiting' ++ [e], hrep', by simp⟩, hstored, hlen,
        enqueueReport_givesReasons he⟩, ?_⟩
      rw [hrep'.lastEnqueuedReport]
      simp
  · cases herr.symm.trans hb

end

/-- Whatever the buffer has gone through: the report that is transmitted for an event is the one
that would be sent at once, unless it is an integrity or GI report with its reasons. -/
theorem transmitted_sameContent_iff {size : Nat} {ops : List BufferOp} {rc rc1 : ReportControl}
    {members : List Member} {isIntegrity isGI : Bool} {now : UInt64}
    (hb : ReportBuffer.run size ops = .ok rc.reportBuffer) (hm : rc.members = some members)
    (he : rc.enqueueReport isIntegrity isGI now =
      .ok (rc1, [.generated isIntegrity isGI members])) :
    ∃ rc' direct, rc.sendReport isIntegrity isGI =
        .ok (rc', [.generated isIntegrity isGI members, .sent direct]) ∧
      ∀ rc2 rc3 report, Relation.ReflTransGen Sends rc1 rc2 →
        rc2.reportBuffer.nextToTransmit = rc1.reportBuffer.lastEnqueuedReport →
        rc2.sendNextReportEntry = .ok (rc3, [.sent report]) →
        (report.SameContent direct ↔
          ¬ (rc.givesReasons ∧ (isIntegrity || isGI) ∧ members ≠ [])) := by
  obtain ⟨rc', direct, hdirect, hcarries, hgives⟩ :=
    sendReport_carries isIntegrity isGI hm
  refine ⟨rc', direct, hdirect, ?_⟩
  intro rc2 rc3 report hr hturn hs
  obtain ⟨e, hretains, hlast⟩ := retains_enqueued hb hm he (List.cons_ne_nil _ _)
  have hat := hretains.run hr
  obtain ⟨stored, id, rfl⟩ := hat.transmits (hturn.trans hlast) hs
  have hsame : (rc2.prepareEntry stored).givesReasons = rc.givesReasons :=
    (prepareEntry_givesReasons rc2 stored).trans hat.reasons
  rw [← hsame]
  exact entryReport_sameContent_iff (g := ⟨isIntegrity, isGI, members⟩) hcarries
    (hgives.trans hsame.symm)

/-- A block with one boolean and the reasons for inclusion in its reports, after an event. -/
def reasonBlockChanged : ReportControl :=
  (Delivery.start oneMember Delivery.reasonBlock 200 0).rc.setInclusionFlag 0 .valueUpdate

theorem transmitted_sameContent_event : ∃ rc1 rc3 rc' report direct,
    reasonBlockChanged.enqueueReport false false 5 = .ok (rc1, [.generated false false
      (reasonBlockChanged.members.getD [])]) ∧
    rc1.sendNextReportEntry = .ok (rc3, [.sent report]) ∧
    reasonBlockChanged.sendReport false false = .ok (rc', [.generated false false
      (reasonBlockChanged.members.getD []), .sent direct]) ∧ report.SameContent direct := by
  obtain ⟨rc1, h1, hturn⟩ : ∃ rc1, reasonBlockChanged.enqueueReport false false 5 =
      .ok (rc1, [.generated false false (reasonBlockChanged.members.getD [])]) ∧
        rc1.reportBuffer.nextToTransmit = rc1.reportBuffer.lastEnqueuedReport := ⟨_, rfl, rfl⟩
  obtain ⟨rc3, report, h3⟩ : ∃ rc3 report, rc1.sendNextReportEntry =
      .ok (rc3, [.sent report]) := by
    cases h1
    exact ⟨_, _, rfl⟩
  have hb : ReportBuffer.run 200 [] = .ok reasonBlockChanged.reportBuffer := rfl
  obtain ⟨rc', direct, hdirect, hsame⟩ := transmitted_sameContent_iff hb rfl h1
  refine ⟨rc1, rc3, rc', report, direct, h1, h3, hdirect, ?_⟩
  exact (hsame rc1 rc3 report .refl hturn h3).mpr fun h => Bool.false_ne_true h.2.1

/-- Sent at once, an integrity report says so; from the buffer it is the answer to a general
interrogation. -/
theorem integrity_reason_differs : ∃ rc1 rc3 rc' report direct,
    reasonBlockChanged.enqueueReport true false 5 = .ok (rc1, [.generated true false
      (reasonBlockChanged.members.getD [])]) ∧
    rc1.sendNextReportEntry = .ok (rc3, [.sent report]) ∧
    reasonBlockChanged.sendReport true false = .ok (rc', [.generated true false
      (reasonBlockChanged.members.getD []), .sent direct]) ∧
    report.reasons = [reasonBit 5] ∧ direct.reasons = [reasonBit 4] ∧
    ¬ report.SameContent direct := by
  obtain ⟨rc1, h1⟩ : ∃ rc1, reasonBlockChanged.enqueueReport true false 5 =
      .ok (rc1, [.generated true false (reasonBlockChanged.members.getD [])]) := ⟨_, rfl⟩
  obtain ⟨rc3, report, h3, hreport⟩ : ∃ rc3 report, rc1.sendNextReportEntry =
      .ok (rc3, [.sent report]) ∧ report.reasons = [reasonBit 5] := by
    cases h1
    exact ⟨_, _, rfl, rfl⟩
  obtain ⟨rc', direct, hdirect, hreasons⟩ : ∃ rc' direct, reasonBlockChanged.sendReport true false =
      .ok (rc', [.generated true false (reasonBlockChanged.members.getD []), .sent direct]) ∧
        direct.reasons = [reasonBit 4] := ⟨_, _, rfl, rfl⟩
  refine ⟨rc1, rc3, rc', report, direct, h1, h3, hdirect, hreport, hreasons, ?_⟩
  intro hsame
  rw [hsame.reasons, hreasons] at hreport
  exact absurd hreport (by decide)

end Iec61850.Reporting
