import Iec61850.Report.EventSteps
import Iec61850.Lib.Transition

/-! Who owns a report control block. -/

namespace Iec61850.Reporting

open Machine ReportControl

/-- A block with the connection whose write enabled it last and the one that reserved it last. -/
structure OwnedBlock where
  rc : ReportControl
  enabledBy : Option Connection
  reservedBy : Option Connection

namespace OwnedBlock

def handleWrite (s : OwnedBlock) (dataSets : DataSets) (w : Write) : Exec OwnedBlock := do
  let (rc, result) ← s.rc.writeAccessHandler dataSets w
  return {
    rc := rc
    enabledBy := if rc.enabled && !s.rc.enabled then some w.connection else s.enabledBy
    reservedBy := if w.elementName = .resv ∧ w.boolean ∧ result = .success then
        some w.connection
      else s.reservedBy }

def handle (s : OwnedBlock) : Event → Exec (OwnedBlock × List Output)
  | .writeAccessHandler dataSets w => do return (← s.handleWrite dataSets w, [])
  | e => do
    let (rc, outputs) ← s.rc.handle e
    return ({ s with rc := rc }, outputs)

/-- The connection `a` has enabled or reserved the block. -/
def Holder (s : OwnedBlock) (a : Connection) : Prop :=
  (s.rc.enabled = true ∧ s.enabledBy = some a) ∨ (s.rc.reserved = true ∧ s.reservedBy = some a)

def IsBoolean : MmsValue → Prop
  | .boolean _ => True
  | _ => False

/-- A block that is reserved is enabled by nobody else, and it is switched on and off with a
Boolean. -/
structure RespectsOwner (rc : ReportControl) (dataSets : DataSets) (w : Write) : Prop where
  on : SwitchesOn rc dataSets w → IsBoolean w.value ∧
    (rc.reserved = true → rc.clientConnection = some w.connection)
  off : SwitchesOff rc w → IsBoolean w.value

def Respects (s : OwnedBlock) (e : Event) : Prop :=
  s.rc.Receives e ∧
    match e with
    | .writeAccessHandler dataSets w => RespectsOwner s.rc dataSets w
    | _ => True

/-- Exclusive ownership in one state. -/
structure Exclusive (s : OwnedBlock) : Prop where
  rptEna : s.rc.rcbValues .rptEna = .boolean s.rc.enabled
  enabled : s.rc.enabled = true →
    ∃ a, s.enabledBy = some a ∧ s.rc.clientConnection = some a
  refuses : ∀ a dataSets w, s.Holder a → w.connection ≠ a →
    s.Respects (.writeAccessHandler dataSets w) →
      ∃ result, result ≠ .success ∧ s.rc.writeAccessHandler dataSets w = .ok (s.rc, result)
  reports : ∀ e s' outputs, s.handle e = .ok (s', outputs) → ∀ report ∈ sentOf outputs,
    s.rc.enabled = true ∧ report.connection = s.enabledBy

def start (dataSets : DataSets) (buffered : Bool) (rcb : ReportControlBlock)
    (memoryBlockSize : Nat) (reportTime : UInt64) : OwnedBlock where
  rc := (ReportControl.create buffered rcb memoryBlockSize reportTime).activateBufferedReports
    dataSets
  enabledBy := none
  reservedBy := none

def Step (s : OwnedBlock) (e : Event) (s' : OwnedBlock) : Prop :=
  ∃ outputs, s.handle e = .ok (s', outputs)

/-- The invariant behind `Exclusive`. -/
structure Owned (s : OwnedBlock) : Prop where
  rptEna : s.rc.rcbValues .rptEna = .boolean s.rc.enabled
  enabled : s.rc.enabled = true → ∃ a, s.enabledBy = some a ∧ s.rc.clientConnection = some a
  reserved : s.rc.reserved = true → ∃ a, s.reservedBy = some a ∧ s.rc.clientConnection = some a
  buffered : s.rc.buffered = true → s.rc.reserved = false
  unbuffered : s.rc.buffered = false → s.rc.isBuffering = false

end OwnedBlock

namespace ReportControl

/-- Nothing that ownership is about has changed. -/
structure SameOwner (rc rc' : ReportControl) : Prop where
  buffered : rc'.buffered = rc.buffered
  isBuffering : rc'.isBuffering = rc.isBuffering
  enabled : rc'.enabled = rc.enabled
  reserved : rc'.reserved = rc.reserved
  clientConnection : rc'.clientConnection = rc.clientConnection
  rptEna : rc'.rcbValues .rptEna = rc.rcbValues .rptEna

variable {rc rc' : ReportControl}

namespace SameOwner

theorem refl (rc : ReportControl) : SameOwner rc rc := ⟨rfl, rfl, rfl, rfl, rfl, rfl⟩

theorem trans {rc'' : ReportControl} (h : SameOwner rc rc') (h' : SameOwner rc' rc'') :
    SameOwner rc rc'' :=
  ⟨h'.buffered.trans h.buffered, h'.isBuffering.trans h.isBuffering, h'.enabled.trans h.enabled,
    h'.reserved.trans h.reserved, h'.clientConnection.trans h.clientConnection,
    h'.rptEna.trans h.rptEna⟩

theorem setRCBValue {name : ElementName} (h : name ≠ .rptEna) (f : MmsValue → MmsValue) :
    SameOwner rc (rc.setRCBValue name f) :=
  ⟨rfl, rfl, rfl, rfl, rfl, setRCBValue_rptEna h f⟩

theorem updateReportDataset {dataSets : DataSets} {value : Option MmsValue}
    (h : ReportControl.updateReportDataset dataSets rc value = some rc') : SameOwner rc rc' := by
  obtain ⟨values, dynamic, rfl⟩ := updateReportDataset_cases h
  exact ⟨rfl, rfl, rfl, rfl, rfl, rfl⟩

theorem purgeIfBuffered (rc : ReportControl) : SameOwner rc rc.purgeIfBuffered := by
  obtain ⟨buffer, -, he⟩ := purgeIfBuffered_eq rc
  rw [he]
  exact ⟨rfl, rfl, rfl, rfl, rfl, rfl⟩

/-- Only `Resv` and `RptEna` have to do with ownership. -/
theorem of_written {dataSets : DataSets} {w : Write} (hr : w.elementName ≠ .resv)
    (he : w.elementName ≠ .rptEna) (h : Written dataSets rc w rc') : SameOwner rc rc' := by
  cases h with
  | same => exact refl rc
  | reserved values hn => exact absurd hn hr
  | dataSet rc1 values hn _ _ _ hd hv =>
    have hs := (updateReportDataset hd).trans (purgeIfBuffered rc1)
    exact ⟨hs.buffered, hs.isBuffering, hs.enabled, hs.reserved, hs.clientConnection, hv⟩
  | settings values triggerOps intgPd bufTm next buffer hv =>
    exact ⟨rfl, rfl, rfl, rfl, rfl, hv he⟩

theorem afterReport (h : AfterReport rc rc') : SameOwner rc rc' := by
  obtain ⟨values, sqNum, buffer, lastEntryId, hv, rfl⟩ := h
  exact ⟨rfl, rfl, rfl, rfl, rfl, hv⟩

end SameOwner

variable {dataSets : DataSets} {w : Write} {result : MmsDataAccessError}

theorem writeElement_refused
    (h : rc.enabled = true ∨ rc.reserved = true ∧ rc.clientConnection ≠ some w.connection) :
    writeElement dataSets rc w = .ok (rc, .temporarilyUnavailable) := by
  unfold writeElement
  split
  · rfl
  · rw [if_pos (h.resolve_left ‹_›)]

theorem disable_rptEna : rc.disable.rcbValues .rptEna = rc.rcbValues .rptEna := by
  cases hb : rc.buffered <;> simp [disable, hb, updateOwner, setRCBValue, clearInclusionFlags]

theorem disable_kept : rc.disable.buffered = rc.buffered ∧
    rc.disable.isBuffering = rc.isBuffering := by
  cases hb : rc.buffered <;> simp [disable, hb, updateOwner, setRCBValue, clearInclusionFlags]

theorem disable_reserved (hr : rc.buffered = true → rc.reserved = false) :
    rc.disable.reserved = false := by
  cases hb : rc.buffered with
  | true => simp [disable, updateOwner, setRCBValue, hb, hr hb]
  | false => simp [disable, updateOwner, setRCBValue, hb]

/-- Switching a block off that nobody else owns. -/
theorem writeElement_disable (hn : w.elementName = .rptEna)
    (hr : rc.buffered = true → rc.reserved = false) :
    writeElement dataSets rc.disable w =
      .ok (rc.disable.setRCBValue .rptEna (·.updated w.value), .success) := by
  have hen : rc.disable.enabled = false := rfl
  rw [writeElement, hen, disable_reserved hr]
  simp [hn, updateElement, hasElement]

end ReportControl

namespace OwnedBlock

open ReportControl

variable {s s' : OwnedBlock} {dataSets : DataSets} {w : Write}

theorem isBoolean_iff {v : MmsValue} : IsBoolean v ↔ ∃ b, v = .boolean b := by
  constructor
  · intro h
    cases v with
    | boolean b => exact ⟨b, rfl⟩
    | _ => exact h.elim
  · rintro ⟨b, rfl⟩
    trivial

/-- The element `RptEna` after a write that the handler has taken over. -/
theorem updated_rptEna {b : Bool} (h : IsBoolean w.value ∨ w.boolean = b) :
    (MmsValue.boolean b).updated w.value = .boolean w.boolean := by
  rcases h with h | h
  · obtain ⟨c, hc⟩ := isBoolean_iff.mp h
    rw [MmsValue.updated, Write.boolean, hc, MmsValue.update]
    rfl
  · rw [h, MmsValue.updated]
    cases hv : w.value with
    | boolean c =>
      have hc : c = b := by
        rw [Write.boolean, hv] at h
        exact h
      rw [MmsValue.update, hc]
      rfl
    | _ => simp [MmsValue.update]

theorem Owned.of_sameOwner (h : s.Owned) {rc : ReportControl} (hs : SameOwner s.rc rc) :
    Owned { s with rc := rc } where
  rptEna := by rw [hs.rptEna, hs.enabled, h.rptEna]
  enabled := by rw [hs.enabled, hs.clientConnection]; exact h.enabled
  reserved := by rw [hs.reserved, hs.clientConnection]; exact h.reserved
  buffered := by rw [hs.buffered, hs.reserved]; exact h.buffered
  unbuffered := by rw [hs.buffered, hs.isBuffering]; exact h.unbuffered

theorem Owned.start (dataSets : DataSets) (buffered : Bool) (rcb : ReportControlBlock)
    (memoryBlockSize : Nat) (reportTime : UInt64) :
    (start dataSets buffered rcb memoryBlockSize reportTime).Owned := by
  have hnew : Owned ⟨ReportControl.create buffered rcb memoryBlockSize reportTime, none, none⟩ :=
    ⟨rfl, fun h => (nomatch h), fun h => (nomatch h), fun _ => rfl, fun _ => rfl⟩
  cases buffered with
  | false => exact hnew
  | true =>
    rw [OwnedBlock.start, activateBufferedReports, create_buffered, if_pos rfl]
    split
    case h_1 rc1 hd =>
      have h1 := hnew.of_sameOwner (SameOwner.updateReportDataset hd)
      have hb : rc1.buffered = true := (SameOwner.updateReportDataset hd).buffered
      exact ⟨h1.rptEna, h1.enabled, h1.reserved, h1.buffered,
        fun h => absurd (hb.symm.trans h) (by decide)⟩
    case h_2 =>
      exact ⟨hnew.rptEna, hnew.enabled, hnew.reserved, hnew.buffered, fun _ => rfl⟩

/-- `RptEna` with true on a block that is not enabled. -/
theorem Owned.enable (h : s.Owned) (hn : w.elementName = .rptEna) (hb : w.boolean = true)
    (hen : s.rc.enabled = false) (hg : s.Respects (.writeAccessHandler dataSets w))
    {rc : ReportControl} (hd : updateReportDataset dataSets s.rc none = some rc) :
    Owned ⟨rc.enable w, some w.connection, s.reservedBy⟩ := by
  have hs := SameOwner.updateReportDataset hd
  have hon := hg.2.on ⟨hn, hb, hen, by rw [hd]; rfl⟩
  refine ⟨?_, fun _ => ⟨w.connection, rfl, rfl⟩, ?_, ?_, ?_⟩
  · change (rc.rcbValues .rptEna).updated w.value = .boolean true
    rw [hs.rptEna, h.rptEna, updated_rptEna (.inl hon.1), hb]
  · intro hres
    have hr : s.rc.reserved = true := hs.reserved.symm.trans hres
    obtain ⟨a, ha, hc⟩ := h.reserved hr
    exact ⟨w.connection, by rw [ha, ← hc, hon.2 hr], rfl⟩
  · intro hbuf
    exact hs.reserved.trans (h.buffered (hs.buffered.symm.trans hbuf))
  · intro hbuf
    exact hs.isBuffering.trans (h.unbuffered (hs.buffered.symm.trans hbuf))

/-- `RptEna` with false on a block that nobody else owns. -/
theorem Owned.disable (h : s.Owned) (hn : w.elementName = .rptEna) (hb : w.boolean = false)
    (hg : s.Respects (.writeAccessHandler dataSets w))
    (hc : s.rc.enabled = true → s.rc.clientConnection = some w.connection) (enabledBy : Option Connection) :
    Owned ⟨s.rc.disable.setRCBValue .rptEna (·.updated w.value), enabledBy, s.reservedBy⟩ := by
  have hres := disable_reserved h.buffered
  have hvalue : IsBoolean w.value ∨ w.boolean = s.rc.enabled := by
    cases hen : s.rc.enabled with
    | true => exact .inl (hg.2.off ⟨hn, hb, hen, hc hen⟩)
    | false => exact .inr hb
  refine ⟨?_, fun hen => Bool.noConfusion hen, fun hr => ?_, fun _ => hres, ?_⟩
  · change (s.rc.disable.rcbValues .rptEna).updated w.value = .boolean false
    rw [disable_rptEna, h.rptEna, updated_rptEna hvalue, hb]
  · exact Bool.noConfusion (hres.symm.trans hr)
  · intro hbuf
    exact disable_kept.2.trans (h.unbuffered (disable_kept.1.symm.trans hbuf))

theorem Owned.deactivate (h : s.Owned) (connection : Connection) :
    Owned { s with rc := s.rc.deactivateReportsForConnection connection } := by
  unfold deactivateReportsForConnection
  split
  case isFalse => exact h
  case isTrue =>
    cases hb : s.rc.buffered with
    | false =>
      refine ⟨?_, fun hen => Bool.noConfusion hen, fun hr => Bool.noConfusion hr, fun _ => rfl,
        fun _ => h.unbuffered hb⟩
      simp [updateOwner, setRCBValue, h.rptEna, MmsValue.setBoolean]
    | true =>
      have hres := h.buffered hb
      refine ⟨?_, fun hen => Bool.noConfusion hen, fun hr => ?_, fun _ => hres,
        fun hbuf => Bool.noConfusion hbuf⟩
      · simp [updateOwner, setRCBValue, h.rptEna, MmsValue.setBoolean]
      · exact Bool.noConfusion (hres.symm.trans hr)

/-- While one connection holds the block, every write of another one is refused. -/
theorem Owned.refuses (h : s.Owned) {a : Connection} (ha : s.Holder a) (hw : w.connection ≠ a)
    (hg : s.Respects (.writeAccessHandler dataSets w)) :
    ∃ result, result ≠ .success ∧ s.rc.writeAccessHandler dataSets w = .ok (s.rc, result) := by
  have hconn : s.rc.clientConnection ≠ some w.connection := by
    rcases ha with ⟨hen, hby⟩ | ⟨hres, hby⟩
    · obtain ⟨b, hb, hc⟩ := h.enabled hen
      rw [hc, ← hb, hby]
      exact fun he => hw (Option.some.inj he).symm
    · obtain ⟨b, hb, hc⟩ := h.reserved hres
      rw [hc, ← hb, hby]
      exact fun he => hw (Option.some.inj he).symm
  have hheld : s.rc.enabled = true ∨ s.rc.reserved = true := ha.imp And.left And.left
  have hrefused : writeElement dataSets s.rc w = .ok (s.rc, .temporarilyUnavailable) :=
    writeElement_refused (hheld.imp_right fun hr => ⟨hr, hconn⟩)
  by_cases hn : w.elementName = .rptEna
  · cases hb : w.boolean with
    | true =>
      rw [writeAccessHandler_rptEna_true hn hb]
      cases hen : s.rc.enabled with
      | true => exact ⟨.temporarilyUnavailable, by decide, rfl⟩
      | false =>
        cases hd : updateReportDataset dataSets s.rc none with
        | none => exact ⟨.objectAttributeInconsistent, by decide, rfl⟩
        | some rc =>
          have hr : s.rc.reserved = true := hheld.resolve_left (by rw [hen]; decide)
          exact absurd ((hg.2.on ⟨hn, hb, hen, by rw [hd]; rfl⟩).2 hr) hconn
    | false =>
      rw [writeAccessHandler_rptEna_false hn hb, if_pos ⟨hheld, hconn⟩]
      exact ⟨.temporarilyUnavailable, by decide, rfl⟩
  · rw [writeAccessHandler, if_neg hn]
    by_cases hgi : w.elementName = .gi
    · rw [if_pos hgi, if_neg fun hc => hconn hc.2]
      exact ⟨.temporarilyUnavailable, by decide, rfl⟩
    · rw [if_neg hgi, hrefused]
      exact ⟨.temporarilyUnavailable, by decide, rfl⟩

/-- A write that has nothing to do with `RptEna` and `Resv`, or that was refused. -/
theorem Owned.keep (h : s.Owned) {rc : ReportControl} {result : MmsDataAccessError}
    (hs : SameOwner s.rc rc) (hr : w.elementName = .resv → result ≠ .success) :
    Owned ⟨rc, if rc.enabled && !s.rc.enabled then some w.connection else s.enabledBy,
      if w.elementName = .resv ∧ w.boolean = true ∧ result = .success then some w.connection
      else s.reservedBy⟩ := by
  rw [hs.enabled, Bool.and_not_self, if_neg Bool.false_ne_true, if_neg fun hc => hr hc.1 hc.2.2]
  exact h.of_sameOwner hs

theorem Owned.reserve (h : s.Owned) (hn : w.elementName = .resv)
    (hel : hasElement s.rc.buffered w.elementName = true) {rc : ReportControl}
    {result : MmsDataAccessError} (hw : writeElement dataSets s.rc w = .ok (rc, result)) :
    Owned ⟨rc, if rc.enabled && !s.rc.enabled then some w.connection else s.enabledBy,
      if w.elementName = .resv ∧ w.boolean = true ∧ result = .success then some w.connection
      else s.reservedBy⟩ := by
  have hbuf : s.rc.buffered = false := by
    rw [hn] at hel
    exact Bool.not_eq_true' _ ▸ hel
  unfold writeElement at hw
  split at hw
  · cases hw
    exact h.keep (.refl _) (fun _ => by decide)
  case isFalse hen =>
    have hen : s.rc.enabled = false := eq_false_of_ne_true hen
    split at hw
    · cases hw
      exact h.keep (.refl _) (fun _ => by decide)
    · simp only [hn, updateElement, hbuf, hasElement, Bool.not_false, ↓reduceIte] at hw
      cases hw
      cases hb : w.boolean with
      | true =>
        refine ⟨?_, fun he => absurd he (by simp [setRCBValue, hen]), fun _ => ?_,
          fun hc => Bool.noConfusion hc, fun _ => h.unbuffered hbuf⟩
        · simp [setRCBValue, h.rptEna]
        · exact ⟨w.connection, by simp [hn], rfl⟩
      | false =>
        refine ⟨?_, fun he => absurd he (by simp [setRCBValue, hen]),
          fun hr => Bool.noConfusion hr, fun _ => rfl, fun _ => h.unbuffered hbuf⟩
        simp [setRCBValue, h.rptEna]

/-- A write keeps the invariant. -/
theorem Owned.handleWrite (h : s.Owned) (hg : s.Respects (.writeAccessHandler dataSets w))
    (hw : s.handleWrite dataSets w = .ok s') : s'.Owned := by
  obtain ⟨⟨rc, result⟩, hh, hw⟩ := bind_ok hw
  obtain rfl := Except.ok.inj hw
  by_cases hn : w.elementName = .rptEna
  · have hnr : w.elementName = .resv → result ≠ .success := by
      rw [hn]
      exact fun hc => absurd hc (by decide)
    rcases Bool.eq_false_or_eq_true w.boolean with hb | hb
    · rw [writeAccessHandler_rptEna_true hn hb] at hh
      split at hh
      · cases hh
        exact h.keep (.refl _) hnr
      case isFalse hen =>
        cases hd : updateReportDataset dataSets s.rc none with
        | some rc1 =>
          rw [hd] at hh
          cases hh
          have hby : (rc1.enable w).enabled && !s.rc.enabled := by
            rw [eq_false_of_ne_true hen]
            rfl
          rw [if_pos hby, if_neg fun hc => hnr hc.1 rfl]
          exact h.enable hn hb (eq_false_of_ne_true hen) hg hd
        | none =>
          rw [hd] at hh
          cases hh
          exact h.keep (.refl _) hnr
    · rw [writeAccessHandler_rptEna_false hn hb] at hh
      split at hh
      · cases hh
        exact h.keep (.refl _) hnr
      case isFalse hfree =>
        rw [writeElement_disable hn h.buffered] at hh
        cases hh
        have hc : s.rc.enabled = true → s.rc.clientConnection = some w.connection := by
          intro hen
          by_contra hne
          exact hfree ⟨.inl hen, hne⟩
        have hno : ¬ (w.elementName = .resv ∧ w.boolean = true ∧
            MmsDataAccessError.success = .success) := fun hc => hnr hc.1 rfl
        rw [if_neg hno]
        exact h.disable hn hb hg hc _
  · rw [writeAccessHandler, if_neg hn] at hh
    split at hh
    case isTrue hgi =>
      have hnr : w.elementName = .resv → result ≠ .success := by
        rw [hgi]
        exact fun hc => absurd hc (by decide)
      split at hh
      · cases hh
        exact h.keep ⟨rfl, rfl, rfl, rfl, rfl, rfl⟩ hnr
      · cases hh
        exact h.keep (.refl _) hnr
    case isFalse =>
      by_cases hr : w.elementName = .resv
      · exact h.reserve hr hg.1 hh
      · exact h.keep (.of_written hr hn (writeElement_written hh)) fun hc => absurd hc hr

/-- What is sent while reports are made: it goes to the client of an enabled block. -/
structure Sends (rc : ReportControl) (outputs : List Output) (rc' : ReportControl) : Prop where
  sameOwner : SameOwner rc rc'
  sent : (rc.buffered = false → rc.enabled = true) → ∀ report ∈ sentOf outputs,
    rc.enabled = true ∧ report.connection = rc.clientConnection

theorem Sends.nothing {rc rc' : ReportControl} (h : SameOwner rc rc') : Sends rc [] rc' :=
  ⟨h, fun _ _ hr => nomatch hr⟩

theorem Sends.trans {rc rc' rc'' : ReportControl} {outputs outputs' : List Output}
    (h : Sends rc outputs rc') (h' : Sends rc' outputs' rc'') :
    Sends rc (outputs ++ outputs') rc'' := by
  refine ⟨h.sameOwner.trans h'.sameOwner, fun hen report hr => ?_⟩
  rw [sentOf_append, List.mem_append] at hr
  rcases hr with hr | hr
  · exact h.sent hen report hr
  · have := h'.sent (by rw [h.sameOwner.buffered, h.sameOwner.enabled]; exact hen) report hr
    rwa [h.sameOwner.enabled, h.sameOwner.clientConnection] at this

theorem sends_generate {rc rc' : ReportControl} {outputs : List Output} {isIntegrity isGI : Bool}
    {now : UInt64} (h : rc.generate isIntegrity isGI now = .ok (rc', outputs)) :
    Sends rc outputs rc' := by
  rcases generate_cases h with
    ⟨members, -, hafter, ⟨-, rfl⟩ | ⟨hb, report, hc, rfl⟩⟩ | ⟨-, -, rfl, rfl⟩
  · exact ⟨.afterReport hafter, fun _ _ hr => nomatch hr⟩
  · refine ⟨.afterReport hafter, fun hen r hr => ?_⟩
    obtain rfl := List.mem_singleton.mp hr
    exact ⟨hen hb, hc⟩
  · exact .nothing (.refl _)

theorem sends_rule : ProcessRule Sends where
  refl := fun rc => .nothing (.refl rc)
  trans := fun _ _ _ _ _ h h' => h.trans h'
  flush := by
    intro rc now rc' outputs h
    unfold flush at h
    split at h
    · obtain ⟨⟨rc1, outputs1⟩, h1, h⟩ := bind_ok h
      cases h
      exact ⟨(sends_generate h1).sameOwner.trans ⟨rfl, rfl, rfl, rfl, rfl, rfl⟩,
        (sends_generate h1).sent⟩
    · cases h
      exact .nothing (.refl rc)
  generate := fun _ _ _ _ _ _ _ h => sends_generate h
  sendNextReportEntry := by
    intro rc rc' outputs _ hen h
    obtain ⟨values, sqNum, buffer, hv, rfl, rfl | ⟨report, hc, rfl⟩⟩ :=
      sendNextReportEntry_cases h
    · exact .nothing ⟨rfl, rfl, rfl, rfl, rfl, hv⟩
    · refine ⟨⟨rfl, rfl, rfl, rfl, rfl, hv⟩, fun _ r hr => ?_⟩
      obtain rfl := List.mem_singleton.mp hr
      exact ⟨hen, hc⟩
  updateTimeOfEntry := by
    intro rc currentTime
    unfold updateTimeOfEntry
    split
    · exact .nothing (.setRCBValue (by decide) _)
    · exact .nothing ⟨rfl, rfl, rfl, rfl, rfl, rfl⟩
  settle := fun _ _ => .nothing ⟨rfl, rfl, rfl, rfl, rfl, rfl⟩
  setNextTime := fun _ _ => .nothing ⟨rfl, rfl, rfl, rfl, rfl, rfl⟩

/-- In the same way for any block that is only buffering when it is buffered. -/
structure SendsToOwner (rc : ReportControl) (outputs : List Output) (rc' : ReportControl) :
    Prop where
  sameOwner : SameOwner rc rc'
  sent : (rc.buffered = false → rc.isBuffering = false) → ∀ report ∈ sentOf outputs,
    rc.enabled = true ∧ report.connection = rc.clientConnection

theorem SendsToOwner.nothing {rc rc' : ReportControl} (h : SameOwner rc rc') :
    SendsToOwner rc [] rc' := ⟨h, fun _ _ hr => nomatch hr⟩

theorem SendsToOwner.andThen {rc rc' rc'' : ReportControl} {outputs : List Output}
    (h : SendsToOwner rc outputs rc') (hs : SameOwner rc' rc'') : SendsToOwner rc outputs rc'' :=
  ⟨h.sameOwner.trans hs, h.sent⟩

section

variable {rc rc' : ReportControl} {outputs : List Output}

theorem sends_processEventsForReport {currentTime : UInt64} {hal : Nat → UInt64}
    (h : rc.processEventsForReport currentTime hal = .ok (rc', outputs)) :
    SendsToOwner rc outputs rc' := by
  have hs := sends_rule.processEventsForReport h
  refine ⟨hs.sameOwner, fun hb => ?_⟩
  by_cases hactive : rc.enabled || rc.isBuffering
  · refine hs.sent fun hunbuffered => ?_
    rwa [hb hunbuffered, Bool.or_false] at hactive
  · rw [processEventsForReport_inactive (eq_false_of_ne_true hactive)] at h
    cases h
    exact fun report hr => nomatch hr

theorem sends_bypassBufferTime {member : Member} {now : UInt64} {hal : Nat → UInt64}
    (h : rc.bypassBufferTime member now hal = .ok (rc', outputs)) :
    SendsToOwner rc outputs rc' := by
  unfold bypassBufferTime at h
  split at h
  · obtain ⟨hsame, hsent⟩ := sends_processEventsForReport h
    have hset : SameOwner rc { rc with reportTime := now } := ⟨rfl, rfl, rfl, rfl, rfl, rfl⟩
    exact ⟨hset.trans hsame, hsent⟩
  · cases h
    exact .nothing (.refl rc)

theorem sameOwner_startBufferTime (rc : ReportControl) (now : UInt64) :
    SameOwner rc (rc.startBufferTime now) := by
  unfold startBufferTime
  split
  · exact .refl rc
  · exact (sends_rule.updateTimeOfEntry rc now).sameOwner.trans ⟨rfl, rfl, rfl, rfl, rfl, rfl⟩

theorem sends_valueUpdated {index : Nat} {flag : ReportInclusionFlag} {now hal : Nat → UInt64}
    (h : rc.valueUpdated index flag now hal = .ok (rc', outputs)) :
    SendsToOwner rc outputs rc' := by
  unfold valueUpdated at h
  split at h
  · cases h
  · obtain ⟨⟨rc1, outputs1⟩, h1, h⟩ := bind_ok h
    cases h
    have hmark : SameOwner rc1 (rc1.setInclusionFlag index flag) := ⟨rfl, rfl, rfl, rfl, rfl, rfl⟩
    have hstart := hmark.trans (sameOwner_startBufferTime _ (now 1))
    exact (sends_bypassBufferTime h1).andThen (hstart.trans ⟨rfl, rfl, rfl, rfl, rfl, rfl⟩)

theorem sends_triggerReportObservers {index : Option Nat} {flag : ReportInclusionFlag}
    {now hal : Nat → UInt64}
    (h : rc.triggerReportObservers index flag now hal = .ok (rc', outputs)) :
    SendsToOwner rc outputs rc' := by
  unfold triggerReportObservers at h
  split at h
  · split at h
    · exact sends_valueUpdated h
    · cases h
      exact .nothing (.refl rc)
  · cases h
    exact .nothing (.refl rc)

end

/-- Reports and changes of values leave the owner alone. -/
theorem Owned.serve (h : s.Owned) {rc : ReportControl} {outputs : List Output}
    (hs : SendsToOwner s.rc outputs rc) :
    Owned { s with rc := rc } ∧ ∀ report ∈ sentOf outputs,
      s.rc.enabled = true ∧ report.connection = s.enabledBy := by
  refine ⟨h.of_sameOwner hs.sameOwner, fun report hr => ?_⟩
  obtain ⟨hen, hc⟩ := hs.sent h.unbuffered report hr
  obtain ⟨a, ha, hclient⟩ := h.enabled hen
  exact ⟨hen, by rw [hc, hclient, ha]⟩

/-- One step keeps the invariant, and what it sends goes to the client that enabled the block. -/
theorem Owned.handle (h : s.Owned) {e : Event} {outputs : List Output}
    (he : s.handle e = .ok (s', outputs)) :
    (s.Respects e → s'.Owned) ∧
      ∀ report ∈ sentOf outputs, s.rc.enabled = true ∧ report.connection = s.enabledBy := by
  cases e with
  | writeAccessHandler dataSets w =>
    obtain ⟨s1, hw, he⟩ := bind_ok he
    cases he
    exact ⟨fun hg => h.handleWrite hg hw, fun report hr => nomatch hr⟩
  | deactivateReportsForConnection connection =>
    cases he
    exact ⟨fun _ => h.deactivate connection, fun report hr => nomatch hr⟩
  | triggerReportObservers index flag now hal =>
    obtain ⟨⟨rc, outputs1⟩, hr, he⟩ := bind_ok he
    cases he
    have := h.serve (sends_triggerReportObservers hr)
    exact ⟨fun _ => this.1, this.2⟩
  | processEventsForReport currentTime hal =>
    obtain ⟨⟨rc, outputs1⟩, hr, he⟩ := bind_ok he
    cases he
    have := h.serve (sends_processEventsForReport hr)
    exact ⟨fun _ => this.1, this.2⟩
  | setMemberValue index value =>
    cases he
    exact ⟨fun _ => h.of_sameOwner ⟨rfl, rfl, rfl, rfl, rfl, rfl⟩, fun report hr => nomatch hr⟩

theorem Owned.exclusive (h : s.Owned) : s.Exclusive where
  rptEna := h.rptEna
  enabled := h.enabled
  refuses := fun _ _ _ ha hw hg => h.refuses ha hw hg
  reports := fun _ _ _ he => (h.handle he).2

/-- In every run in which nobody enables a block that another connection has reserved, and
`RptEna` is written as a Boolean, the block is owned exclusively in every state. -/
theorem run_exclusive (dataSets : DataSets) (buffered : Bool) (rcb : ReportControlBlock)
    (memoryBlockSize : Nat) (reportTime : UInt64) {events : List Event}
    (hr : Transition.Run Step Respects
      (OwnedBlock.start dataSets buffered rcb memoryBlockSize reportTime) events s) :
    s.Exclusive := by
  have hinv : s.Owned := by
    refine hr.invariant (Owned.start dataSets buffered rcb memoryBlockSize reportTime) ?_
    rintro t e u ht hg ⟨outputs, he⟩
    exact (ht.handle he).1 hg
  exact hinv.exclusive

/-- The first connection reserves and enables the block. -/
theorem run_exclusive_reserved :
    ∃ s : OwnedBlock, s.rc.enabled = true ∧ s.rc.reserved = true ∧ s.Exclusive := by
  obtain ⟨s1, h1⟩ : ∃ s1, (start oneMember false plainBlock 0 0).handle
      (.writeAccessHandler oneMember (writeBoolean .resv true 1)) = .ok (s1, []) := ⟨_, rfl⟩
  have hr1 : s1.rc.buffered = false ∧ s1.rc.clientConnection = some 1 := by
    cases h1
    exact ⟨rfl, rfl⟩
  obtain ⟨s2, h2⟩ : ∃ s2, s1.handle
      (.writeAccessHandler oneMember (writeBoolean .rptEna true 1)) = .ok (s2, []) := by
    cases h1
    exact ⟨_, rfl⟩
  have hr2 : s2.rc.enabled = true ∧ s2.rc.reserved = true := by
    cases h1
    cases h2
    exact ⟨rfl, rfl⟩
  have hg1 : (start oneMember false plainBlock 0 0).Respects
      (.writeAccessHandler oneMember (writeBoolean .resv true 1)) :=
    ⟨receives_writeBoolean _ _ _ rfl,
      RespectsOwner.mk (fun h => nomatch h.1) (fun h => nomatch h.1)⟩
  have hg2 : s1.Respects (.writeAccessHandler oneMember (writeBoolean .rptEna true 1)) :=
    ⟨receives_writeBoolean _ _ _ (by rw [hr1.1]; rfl),
      RespectsOwner.mk (fun _ => ⟨trivial, fun _ => hr1.2⟩) (fun h => nomatch h.2.1)⟩
  refine ⟨s2, hr2.1, hr2.2, ?_⟩
  exact run_exclusive oneMember false plainBlock 0 0
    ((Transition.Run.nil.snoc hg1 ⟨[], h1⟩).snoc hg2 ⟨[], h2⟩)

/-- The first connection reserves the block and the second one gets it. -/
theorem reserved_taken_over :
    ∃ s rc, Transition.Run Step (fun s e => s.rc.Receives e)
        (start oneMember false plainBlock 0 0)
        [.writeAccessHandler oneMember (writeBoolean .resv true 1)] s ∧
      s.Holder 1 ∧
      s.rc.writeAccessHandler oneMember (writeBoolean .rptEna true 2) = .ok (rc, .success) ∧
      rc.clientConnection = some 2 := by
  obtain ⟨s1, h1⟩ : ∃ s1, (start oneMember false plainBlock 0 0).handle
      (.writeAccessHandler oneMember (writeBoolean .resv true 1)) = .ok (s1, []) := ⟨_, rfl⟩
  have hstep : Step (start oneMember false plainBlock 0 0)
      (.writeAccessHandler oneMember (writeBoolean .resv true 1)) s1 := ⟨[], h1⟩
  have hnil : Transition.Run Step (fun s e => s.rc.Receives e)
      (start oneMember false plainBlock 0 0) [] (start oneMember false plainBlock 0 0) := .nil
  have hr := hnil.snoc (receives_writeBoolean oneMember true 1 rfl) hstep
  cases h1
  exact ⟨_, _, hr, .inr ⟨rfl, rfl⟩, rfl, rfl⟩

end OwnedBlock

end Iec61850.Reporting
