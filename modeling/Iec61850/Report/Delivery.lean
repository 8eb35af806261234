import Iec61850.Report.EventSteps
import Iec61850.Report.EntryReading
import Iec61850.Mms.CloneLayout
import Iec61850.Lib.Ledger
import Iec61850.Lib.Transition

/-! The way of an entry of the report buffer to the client. -/

namespace Iec61850.Reporting

open Machine ReportControl

mutual

/-- The values differ at most in the octets of their integers. -/
def SameButIntegers : MmsValue → MmsValue → Prop
  | .array vs, .array ws => SameButIntegersAll vs ws
  | .structured vs, .structured ws => SameButIntegersAll vs ws
  | .integer _, .integer _ => True
  | .unsigned _, .unsigned _ => True
  | v, w => v = w

def SameButIntegersAll : List MmsValue → List MmsValue → Prop
  | [], [] => True
  | v :: vs, w :: ws => SameButIntegers v w ∧ SameButIntegersAll vs ws
  | _, _ => False

end

theorem SameButIntegers.refl (v : MmsValue) : SameButIntegers v v := by
  have hall : ∀ vs : List MmsValue, (∀ v ∈ vs, SameButIntegers v v) →
      SameButIntegersAll vs vs := by
    intro vs
    induction vs with
    | nil => exact fun _ => trivial
    | cons v vs ih =>
      intro h
      exact ⟨h v List.mem_cons_self, ih fun w hw => h w (List.mem_cons_of_mem v hw)⟩
  induction v using MmsValue.tree_induction with
  | array vs ih => exact hall vs ih
  | structured vs ih => exact hall vs ih
  | leaf v hv =>
    cases v with
    | array | structured => exact hv.elim
    | integer | unsigned => trivial
    | _ => exact rfl

/-- How the values of an entry are read. The copy of an integer still points to the integer that
has been copied (`MmsValue.cloneInteger`), which may hold anything by then. -/
structure Reading where
  read : List MmsValue → List MmsValue
  sameButIntegers : ∀ vs, List.Forall₂ SameButIntegers vs (read vs)

/-- The integers have not changed. -/
def Reading.asCopied : Reading := ⟨id, fun _ => List.forall₂_same.mpr fun v _ => .refl v⟩

def Report.readBy (report : Report) (reading : Reading) : Report :=
  { report with values := reading.read report.values }

theorem Report.readBy_eq {report : Report} {reading : Reading}
    (h : reading.read report.values = report.values) : report.readBy reading = report := by
  rw [Report.readBy, h]

/-- What `enqueueReport` is called for. -/
structure Generation where
  isIntegrity : Bool
  isGI : Bool
  members : List Member

namespace Generation

def included (g : Generation) : List Member :=
  if g.isIntegrity || g.isGI then g.members else g.members.filter isIncluded

def inclusion (g : Generation) : List UInt8 :=
  if g.isIntegrity || g.isGI then allBitStringBits g.members.length else inclusionBits g.members

def values (g : Generation) : List MmsValue := enqueuedValues g.members g.isIntegrity g.isGI

def reasons (g : Generation) : List (List UInt8) := sentReasons g.isIntegrity g.isGI g.members

/-- The values copied at the events are still those of the data set. -/
def Current (g : Generation) : Prop :=
  ∀ m ∈ g.members, isIncluded m → m.bufferedValue = some m.value

/-- The entry is stored for this report. -/
def StoredAs (g : Generation) (e : Entry) : Prop :=
  HasStrings g.members g.isIntegrity g.isGI ∧
    ∃ id, e.IsReport g.members g.isIntegrity g.isGI id

end Generation

/-- The reason for inclusion is one of the options of the report. -/
def Report.givesReasons (report : Report) : Bool :=
  report.header[1]?.elim false (·.getBitStringBit 3)

/-- The report says what was enqueued. -/
structure Report.Carries (report : Report) (g : Generation) : Prop where
  elementCount : report.elementCount = g.members.length
  inclusion : report.inclusion = g.inclusion
  values : report.values = g.values
  current : g.Current → report.values = g.included.map (·.value)
  reasons : report.reasons = if report.givesReasons then g.reasons else []

def generatedOf : List Output → List Generation
  | [] => []
  | .generated isIntegrity isGI members :: outputs =>
    ⟨isIntegrity, isGI, members⟩ :: generatedOf outputs
  | .sent _ :: outputs => generatedOf outputs

@[simp] theorem generatedOf_append (outputs outputs' : List Output) :
    generatedOf (outputs ++ outputs') = generatedOf outputs ++ generatedOf outputs' := by
  induction outputs with
  | nil => rfl
  | cons o outputs ih =>
    cases o with
    | generated isIntegrity isGI members => exact congrArg (_ :: ·) ih
    | sent => exact ih

/-- The calls that the life of a buffered block is made of. -/
inductive Call
  | enqueueReport (isIntegrity isGI : Bool) (now : UInt64)
  | sendNextReportEntry
  | writeAccessHandler (dataSets : DataSets) (w : Write)
  | deactivateReportsForConnection (connection : Connection)
  | updateTimeOfEntry (currentTime : UInt64)
  | setInclusionFlag (index : Nat) (flag : ReportInclusionFlag)
  | setMemberValue (index : Nat) (value : MmsValue)
  | settle (gi triggered : Bool) (reportTime nextIntgReportTime : UInt64)

namespace ReportControl

def call (rc : ReportControl) : Call → Exec (ReportControl × List Output)
  | .enqueueReport isIntegrity isGI now => rc.enqueueReport isIntegrity isGI now
  | .sendNextReportEntry => rc.sendNextReportEntry
  | .writeAccessHandler dataSets w => do return ((← rc.writeAccessHandler dataSets w).1, [])
  | .deactivateReportsForConnection connection =>
    .ok (rc.deactivateReportsForConnection connection, [])
  | .updateTimeOfEntry currentTime => .ok (rc.updateTimeOfEntry currentTime, [])
  | .setInclusionFlag index flag => .ok (rc.setInclusionFlag index flag, [])
  | .setMemberValue index value => .ok (rc.setMemberValue index value, [])
  | .settle gi triggered reportTime nextIntgReportTime =>
    .ok ({ rc with gi := gi, triggered := triggered, reportTime := reportTime
                   nextIntgReportTime := nextIntgReportTime }, [])

/-- Entries are sent to an enabled client, and only elements that are there are written. -/
def Permits (rc : ReportControl) : Call → Prop
  | .sendNextReportEntry => rc.enabled
  | .writeAccessHandler _ w => hasElement rc.buffered w.elementName
  | _ => True

/-- The next entry is an integrity or GI report that is to be sent with its reasons. -/
def SwapsReasons (rc : ReportControl) : Prop :=
  ∃ entry flags, rc.reportBuffer.nextToTransmit = some entry ∧
    rc.reportBuffer.memoryBlock.read (entry + 8) = .ok (.octet flags) ∧ flags ≠ 0 ∧
    rc.members ≠ some [] ∧ (rc.rcbValues .optFlds).getBitStringBit 3

/-- The integers of the next entry hold what they held when they were copied. -/
def KeepsIntegers (rc : ReportControl) (reading : Reading) : Prop :=
  ∀ entry members stored, rc.reportBuffer.nextToTransmit = some entry → rc.members = some members →
    readEntry rc.reportBuffer.memoryBlock entry members.length = .ok stored →
    reading.read (stored.values.map Prod.snd) = stored.values.map Prod.snd

/-- The block is enabled with a data set of the same size when there are entries to transmit. -/
def KeepsCount (rc : ReportControl) (dataSets : DataSets) (w : Write) : Prop :=
  SwitchesOn rc dataSets w → rc.reportBuffer.nextToTransmit.isSome →
    (updateReportDataset dataSets rc none).map (fun rc => rc.members.map List.length) =
      some (rc.members.map List.length)

end ReportControl

/-- A buffered block with the reports that have been enqueued and transmitted. -/
structure Delivery where
  rc : ReportControl
  enqueued : List Generation
  transmitted : List Report

namespace Delivery

def Step (d : Delivery) (c : Call × Reading) (d' : Delivery) : Prop :=
  ∃ rc outputs, d.rc.call c.1 = .ok (rc, outputs) ∧
    d' = ⟨rc, d.enqueued ++ generatedOf outputs,
      d.transmitted ++ (sentOf outputs).map (·.readBy c.2)⟩

/-- The call does not send swapped reasons or integers that have changed, and it does not change
the number of members that the next entries are read with. -/
def Faithful (d : Delivery) (c : Call × Reading) : Prop :=
  d.rc.Permits c.1 ∧
    match c.1 with
    | .sendNextReportEntry => ¬ d.rc.SwapsReasons ∧ d.rc.KeepsIntegers c.2
    | .writeAccessHandler dataSets w => d.rc.KeepsCount dataSets w
    | _ => True

/-- What the ledger says of a block whose buffer holds the entries `old`, which have been
sent, and then those that wait. -/
structure Delivered (d : Delivery) (l : Ledger) (old waiting : List Entry) : Prop where
  buffer : Represents d.rc.reportBuffer old waiting
  first : l.first + old.length = l.next
  next : l.next + waiting.length = l.count
  count : l.count = d.enqueued.length
  stored : List.Forall₂ Generation.StoredAs (d.enqueued.drop l.next) waiting
  carried : List.Forall₂ (fun k report => ∃ g, d.enqueued[k]? = some g ∧ report.Carries g) l.sent
    d.transmitted

/-- The reports transmitted are those that have been enqueued, in their order and none twice,
and one that is left out is not in the buffer any more. -/
def Delivers (d : Delivery) : Prop := ∃ l old waiting, d.Delivered l old waiting

def start (dataSets : DataSets) (rcb : ReportControlBlock) (memoryBlockSize : Nat)
    (reportTime : UInt64) : Delivery where
  rc := (ReportControl.create true rcb memoryBlockSize reportTime).activateBufferedReports dataSets
  enqueued := []
  transmitted := []

end Delivery

/-- With the copies of the events as they are, the values are those of the data set. -/
theorem changedValues_current {members : List Member}
    (h : ∀ m ∈ members, isIncluded m → m.bufferedValue = some m.value) :
    enqueuedValues members false false = (members.filter isIncluded).map (·.value) := by
  change members.filterMap _ = _
  induction members with
  | nil => rfl
  | cons m ms ih =>
    have htail := ih fun n hn => h n (List.mem_cons_of_mem m hn)
    by_cases hflag : m.flag = .none
    · rw [List.filterMap_cons_none (by rw [if_pos hflag]),
        List.filter_cons_of_neg (by simp [isIncluded, hflag])]
      exact htail
    · have hval := h m (by simp) (by simp [isIncluded, hflag])
      rw [List.filterMap_cons_some (by rw [if_neg hflag, hval]),
        List.filter_cons_of_pos (by simp [isIncluded, hflag]), List.map_cons, htail]

theorem Generation.values_current {g : Generation} (h : g.Current) :
    g.values = g.included.map (·.value) := by
  cases hall : g.isIntegrity || g.isGI with
  | true => simp [Generation.values, enqueuedValues, Generation.included, hall]
  | false =>
    rw [Generation.included, if_neg (by simp [hall]), ← changedValues_current h]
    simp only [Generation.values, enqueuedValues, hall]
    rfl

section

variable {rc rc' : ReportControl} {stored : StoredReport}

@[simp] theorem ReportControl.setRCBValue_self {name : ElementName} (f : MmsValue → MmsValue) :
    (rc.setRCBValue name f).rcbValues name = f (rc.rcbValues name) := if_pos rfl

theorem ReportControl.prepareEntry_reasons :
    ((rc.prepareEntry stored).rcbValues .optFlds).getBitStringBit 3 =
      (rc.rcbValues .optFlds).getBitStringBit 3 := by
  rw [prepareEntry, setRCBValue_self, getBitStringBit_clearBitStringBit (by decide),
    getBitStringBit_clearBitStringBit (by decide)]
  rfl

/-- The report of an entry that was stored for the same number of members. -/
theorem entryReport_carries {g : Generation} {id : UInt64}
    (h : (rc.rcbValues .optFlds).getBitStringBit 3 = true →
      (g.isIntegrity || g.isGI) = false ∨ g.members = []) :
    (rc.entryReport (storedReport g.members g.isIntegrity g.isGI id)
      g.members.length).Carries g := by
  have hvalues : (storedReport g.members g.isIntegrity g.isGI id).values.map Prod.snd = g.values :=
    storedReport_values
  refine ⟨rfl, rfl, hvalues, fun hcur => hvalues.trans (Generation.values_current hcur), ?_⟩
  have hgives : (rc.entryReport (storedReport g.members g.isIntegrity g.isGI id)
      g.members.length).givesReasons = (rc.rcbValues .optFlds).getBitStringBit 3 := rfl
  rw [hgives]
  change (if (rc.rcbValues .optFlds).getBitStringBit 3 then _ else _) = _
  split
  case isTrue hopt => exact storedReport_reasons_iff.mpr (h hopt)
  case isFalse => rfl

end

/-- Nothing that the entries depend on has changed, or the buffer is purged. -/
def KeepsEntries (rc rc' : ReportControl) : Prop :=
  rc'.buffered = rc.buffered ∧
    (rc'.reportBuffer = rc.reportBuffer ∧
        rc'.members.map List.length = rc.members.map List.length ∨
      rc'.reportBuffer = rc.reportBuffer.purgeBuf)

section

variable {rc rc' rc'' : ReportControl} {dataSets : DataSets} {w : Write}

theorem KeepsEntries.refl (rc : ReportControl) : KeepsEntries rc rc := ⟨rfl, .inl ⟨rfl, rfl⟩⟩

theorem KeepsEntries.written (hb : rc.buffered = true) (h : Written dataSets rc w rc') :
    KeepsEntries rc rc' := by
  cases h with
  | same => exact .refl rc
  | reserved values => exact ⟨rfl, .inl ⟨rfl, rfl⟩⟩
  | dataSet rc1 values hn hen hfree hne hd =>
    obtain ⟨vs, dynamic, rfl⟩ := updateReportDataset_cases hd
    rw [purgeIfBuffered, if_pos hb]
    exact ⟨rfl, .inr rfl⟩
  | settings values triggerOps intgPd bufTm next buffer hr hbuf =>
    refine ⟨rfl, ?_⟩
    rcases hbuf with rfl | rfl
    · exact .inl ⟨rfl, rfl⟩
    · exact .inr rfl

theorem KeepsEntries.disable (hb : rc.buffered = true) : KeepsEntries rc rc.disable := by
  rw [ReportControl.disable, if_pos hb]
  exact ⟨rfl, .inl ⟨rfl, rfl⟩⟩

theorem KeepsEntries.deactivate (hb : rc.buffered = true) (connection : Connection) :
    KeepsEntries rc (rc.deactivateReportsForConnection connection) := by
  rw [deactivateReportsForConnection]
  split
  · dsimp only [setRCBValue, updateOwner]
    rw [if_pos hb]
    exact ⟨rfl, .inl ⟨rfl, rfl⟩⟩
  · exact .refl rc

theorem KeepsEntries.updateTimeOfEntry (currentTime : UInt64) :
    KeepsEntries rc (rc.updateTimeOfEntry currentTime) := by
  rw [ReportControl.updateTimeOfEntry]
  split
  · exact ⟨rfl, .inl ⟨rfl, rfl⟩⟩
  · exact ⟨rfl, .inl ⟨rfl, rfl⟩⟩

theorem KeepsEntries.modify (index : Nat) (f : Member → Member) :
    KeepsEntries rc { rc with members := rc.members.map (·.modify index f) } := by
  refine ⟨rfl, .inl ⟨rfl, ?_⟩⟩
  cases rc.members with
  | none => rfl
  | some members => simp

/-- The handler purges the buffer, or it keeps what the entries depend on, unless it reads the
data set again. -/
theorem keepsEntries_writeAccessHandler {result : MmsDataAccessError} (hb : rc.buffered = true)
    (h : rc.writeAccessHandler dataSets w = .ok (rc', result)) :
    KeepsEntries rc rc' ∨
      SwitchesOn rc dataSets w ∧ rc'.buffered = rc.buffered ∧
        rc'.reportBuffer = rc.reportBuffer ∧
        (updateReportDataset dataSets rc none).map (·.members.map List.length) =
          some (rc'.members.map List.length) := by
  rcases writeAccessHandler_cases h with rfl | ⟨rc1, hon, hd, rfl⟩ | ⟨-, -, -, hw⟩ | rfl | ⟨-, hw⟩
  · exact .inl (.refl _)
  · right
    rw [hd]
    obtain ⟨vs, dynamic, rfl⟩ := updateReportDataset_cases hd
    exact ⟨hon, rfl, rfl, rfl⟩
  · left
    obtain ⟨hbd, hd⟩ := KeepsEntries.disable hb
    have hw' := KeepsEntries.written (hbd.trans hb) hw
    rw [ReportControl.disable, if_pos hb] at hw'
    exact hw'
  · exact .inl ⟨rfl, .inl ⟨rfl, rfl⟩⟩
  · exact .inl (.written hb hw)

end

/-- What the steps keep. -/
structure Tracked (d : Delivery) (l : Ledger) (old waiting : List Entry) : Prop
    extends Delivery.Delivered d l old waiting where
  buffered : d.rc.buffered = true
  readable : ∀ g ∈ d.enqueued.drop l.next,
    d.rc.members.map List.length = some g.members.length

def Accounted (d : Delivery) : Prop := ∃ l old waiting, Tracked d l old waiting

section

variable {d : Delivery} {l : Ledger} {old waiting : List Entry} {rc : ReportControl}

theorem Tracked.keeps (h : Tracked d l old waiting) (hk : KeepsEntries d.rc rc) :
    Accounted ⟨rc, d.enqueued, d.transmitted⟩ := by
  obtain ⟨hb, ⟨hbuf, hmembers⟩ | hpurge⟩ := hk
  · refine ⟨l, old, waiting, ⟨?_, h.first, h.next, h.count, h.stored, h.carried⟩,
      hb.trans h.buffered, ?_⟩
    · rw [hbuf]
      exact h.buffer
    · rw [hmembers]
      exact h.readable
  · have hnext : max l.next l.count = l.count := max_eq_right l.next_le
    have hfirst : max l.first l.count = l.count := max_eq_right (l.first_le.trans l.next_le)
    have hdrop : d.enqueued.drop (max l.next l.count) = [] := by
      rw [hnext, h.count, List.drop_length]
    refine ⟨l.evict l.count le_rfl, [], [], ⟨?_, ?_, ?_, h.count, ?_, h.carried⟩,
      hb.trans h.buffered, ?_⟩
    · rw [hpurge]
      exact represents_purgeBuf _
    · exact hfirst.trans hnext.symm
    · exact hnext
    · change List.Forall₂ _ (d.enqueued.drop (max l.next l.count)) []
      rw [hdrop]
      exact .nil
    · intro g hg
      change g ∈ d.enqueued.drop (max l.next l.count) at hg
      rw [hdrop] at hg
      cases hg

/-- A call that makes no report. -/
theorem Tracked.quiet (h : Tracked d l old waiting) (hk : KeepsEntries d.rc rc) :
    Accounted ⟨rc, d.enqueued ++ generatedOf [], d.transmitted ++ sentOf []⟩ := by
  rw [generatedOf, sentOf, List.append_nil, List.append_nil]
  exact h.keeps hk

/-- When an old entry is kept, all those that wait are. -/
theorem kept_of_suffix {old' waiting' : List Entry} (hn : (old ++ waiting).Nodup)
    (ho : old' <:+ old) (hw : waiting' <:+ waiting) (h : old' ++ waiting' <:+ old ++ waiting) :
    old' = [] ∨ waiting' = waiting := by
  obtain ⟨lost, rfl⟩ := hw
  obtain ⟨q, hq⟩ := h
  rw [← List.append_assoc, ← List.append_assoc, List.append_left_inj] at hq
  rcases List.eq_nil_or_concat old' with rfl | ⟨os, x, rfl⟩
  · exact .inl rfl
  · rcases List.eq_nil_or_concat lost with rfl | ⟨ls, y, rfl⟩
    · exact .inr rfl
    · rw [List.concat_eq_append, List.concat_eq_append, ← List.append_assoc, ← List.append_assoc]
        at hq
      have hxy : x = y := by simpa using List.append_inj_right' hq rfl
      have hx : x ∈ old := ho.subset (by simp)
      have hdisjoint := List.disjoint_of_nodup_append hn
      exact absurd (List.mem_append_left _ (by simp [hxy])) (hdisjoint hx)

/-- What is skipped does not fit. -/
theorem enqueueReport_skipped {b b' : ReportBuffer} {members : List Member}
    {isIntegrity isGI : Bool} {id : UInt64} {size : Nat}
    (h : b.enqueueReport members isIntegrity isGI id = .ok (b', false))
    (hsize : bufferEntrySize members isIntegrity isGI = .ok size) : b.memoryBlock.size < size := by
  rw [ReportBuffer.enqueueReport, hsize, ok_bind] at h
  split at h
  · assumption
  · obtain ⟨⟨b1, pos⟩, -, h⟩ := bind_ok h
    obtain ⟨b2, -, h⟩ := bind_ok h
    cases h

/-- The buffer takes the report under a new id, or it stays as it is. -/
theorem enqueueReport_entry {rc' : ReportControl} {outputs : List Output} {isIntegrity isGI : Bool}
    {now : UInt64} (h : Represents rc.reportBuffer old waiting)
    (he : rc.enqueueReport isIntegrity isGI now = .ok (rc', outputs)) :
    (rc' = rc ∧ outputs = [] ∧ ∀ members size, rc.members = some members →
        bufferEntrySize members isIntegrity isGI = .ok size →
        rc.reportBuffer.memoryBlock.size < size) ∨
      ∃ members size old' waiting' e, rc.members = some members ∧
        bufferEntrySize members isIntegrity isGI = .ok size ∧
        size ≤ rc.reportBuffer.memoryBlock.size ∧
        outputs = [.generated isIntegrity isGI members] ∧
        old' <:+ old ∧ waiting' <:+ waiting ∧ old' ++ waiting' <:+ old ++ waiting ∧
        Represents rc'.reportBuffer old' (waiting' ++ [e]) ∧
        HasStrings members isIntegrity isGI ∧
        e.IsReport members isIntegrity isGI rc'.lastEntryId ∧
        rc'.lastEntryId = (if now = rc.lastEntryId then now + 1 else now) ∧
        rc'.buffered = rc.buffered ∧
        rc'.members.map List.length = some members.length := by
  unfold ReportControl.enqueueReport at he
  split at he
  · cases he
  case h_2 members hm =>
    dsimp only at he
    obtain ⟨⟨buffer, stored⟩, hbuf, he⟩ := bind_ok he
    by_cases hs : HasStrings members isIntegrity isGI
    · rcases enqueueReport_spec h hs (if now = rc.lastEntryId then now + 1 else now) with
        hskip | ⟨b', old', waiting', e, hok, ho, hw, how, hrep, hreport, -⟩
      · cases hskip.symm.trans hbuf
        cases he
        refine .inl ⟨rfl, rfl, ?_⟩
        intro members' size hm' hsize
        obtain rfl := Option.some.inj (hm.symm.trans hm')
        exact enqueueReport_skipped hskip hsize
      · cases hok.symm.trans hbuf
        right
        obtain ⟨size, hsize, hfit⟩ : ∃ size, bufferEntrySize members isIntegrity isGI = .ok size ∧
            size ≤ rc.reportBuffer.memoryBlock.size := by
          rw [ReportBuffer.enqueueReport] at hbuf
          obtain ⟨size, hsize, hbuf⟩ := bind_ok hbuf
          split at hbuf
          · cases hbuf
          case isFalse hle => exact ⟨size, hsize, not_lt.mp hle⟩
        refine ⟨members, size, old', waiting', e, hm, hsize, hfit, ?_⟩
        by_cases hen : rc.enabled
        all_goals
          simp only [hen, ↓reduceIte] at he
          cases he
          refine ⟨rfl, ho, hw, how, hrep, hs, hreport, rfl, rfl, ?_⟩
          simp [clearInclusionFlags, setRCBValue, hm]
    · rw [enqueueReport_null hs] at hbuf
      cases hbuf

/-- The buffer takes the report, or it stays as it is. -/
theorem enqueueReport_stored {rc' : ReportControl} {outputs : List Output} {isIntegrity isGI : Bool}
    {now : UInt64} (h : Represents rc.reportBuffer old waiting)
    (he : rc.enqueueReport isIntegrity isGI now = .ok (rc', outputs)) :
    rc' = rc ∧ outputs = [] ∨
      ∃ members old' waiting' e, rc.members = some members ∧
        outputs = [.generated isIntegrity isGI members] ∧
        old' <:+ old ∧ waiting' <:+ waiting ∧ old' ++ waiting' <:+ old ++ waiting ∧
        Represents rc'.reportBuffer old' (waiting' ++ [e]) ∧
        Generation.StoredAs ⟨isIntegrity, isGI, members⟩ e ∧
        rc'.buffered = rc.buffered ∧
        rc'.members.map List.length = some members.length := by
  rcases enqueueReport_entry h he with ⟨hsame, ho, -⟩ |
    ⟨members, size, old', waiting', e, hm, -, -, hout, ho, hw, how, hrep, hs, hreport, -, hb, hlen⟩
  · exact .inl ⟨hsame, ho⟩
  · exact .inr ⟨members, old', waiting', e, hm, hout, ho, hw, how, hrep, ⟨hs, _, hreport⟩, hb, hlen⟩

theorem Tracked.enqueueReport (h : Tracked d l old waiting) {isIntegrity isGI : Bool} {now : UInt64}
    {outputs : List Output} (he : d.rc.enqueueReport isIntegrity isGI now = .ok (rc, outputs)) :
    Accounted ⟨rc, d.enqueued ++ generatedOf outputs, d.transmitted ++ sentOf outputs⟩ := by
  rcases enqueueReport_stored h.buffer he with
    ⟨rfl, rfl⟩ | ⟨members, old', waiting', e, hm, rfl, ho, hw, how, hrep, hstored, hb, hlen⟩
  · exact h.quiet (.refl _)
  · have hcounts := h.first
    have hnext := h.next
    have hlo := ho.length_le
    have hlw := hw.length_le
    let g : Generation := ⟨isIntegrity, isGI, members⟩
    let first := l.count - (old'.length + waiting'.length)
    have hkept := kept_of_suffix (h.buffer.ring.nodup.of_map _) ho hw how
    have hkeptLength : old'.length = 0 ∨ waiting'.length = waiting.length :=
      hkept.imp (by rintro rfl; rfl) (by rintro rfl; rfl)
    have hnext' : max l.next first = l.count - waiting'.length := by omega
    have hfirst' : max l.first first + old'.length = max l.next first := by omega
    have hdrop : (d.enqueued ++ [g]).drop (max l.next first) =
        d.enqueued.drop (max l.next first) ++ [g] := by
      apply List.drop_append_of_le_length
      rw [hnext', ← h.count]
      exact Nat.sub_le _ _
    have hlate : d.enqueued.drop (max l.next first) =
        (d.enqueued.drop l.next).drop (waiting.length - waiting'.length) := by
      rw [List.drop_drop]
      congr 1
      omega
    refine ⟨(l.evict first (Nat.sub_le _ _)).append, old', waiting' ++ [e],
      ⟨hrep, hfirst', ?_, ?_, ?_, ?_⟩, hb.trans h.buffered, ?_⟩
    · change max l.next first + (waiting' ++ [e]).length = l.count + 1
      rw [List.length_append, List.length_singleton]
      omega
    · change l.count + 1 = (d.enqueued ++ [g]).length
      rw [List.length_append, h.count]
      rfl
    · change List.Forall₂ _ ((d.enqueued ++ [g]).drop (max l.next first)) _
      have hkeep := List.forall₂_drop (waiting.length - waiting'.length) h.stored
      rw [← List.suffix_iff_eq_drop.mp hw, ← hlate] at hkeep
      rw [hdrop]
      exact List.rel_append hkeep (.cons hstored .nil)
    · rw [sentOf, sentOf, List.append_nil]
      refine h.carried.imp ?_
      rintro k report ⟨g', hg', hcarries⟩
      exact ⟨g', by rw [List.getElem?_append_left (List.getElem?_eq_some_iff.mp hg').1, hg'],
        hcarries⟩
    · change ∀ g' ∈ (d.enqueued ++ [g]).drop (max l.next first), _
      rw [hdrop, hlate]
      intro g' hg'
      rcases List.mem_append.mp hg' with hold | hnew
      · rw [hlen, ← h.readable g' (List.mem_of_mem_drop hold), hm]
        rfl
      · rw [List.mem_singleton.mp hnew, hlen]

theorem notSwapped {g : Generation} {e : Entry} {rest : List Entry} {id : UInt64}
    {members : List Member} {stored : StoredReport} (h : ¬ rc.SwapsReasons)
    (hb : Represents rc.reportBuffer old (e :: rest))
    (he : e.IsReport g.members g.isIntegrity g.isGI id) (hm : rc.members = some members)
    (hlen : members.length = g.members.length)
    (hopt : ((rc.prepareEntry stored).rcbValues .optFlds).getBitStringBit 3 = true) :
    (g.isIntegrity || g.isGI) = false ∨ g.members = [] := by
  rw [prepareEntry_reasons] at hopt
  have hstored : e.Stored rc.reportBuffer.memoryBlock (firstPos none rest) :=
    (chain_append.mp hb.chain).2.1
  by_contra hne
  rw [not_or] at hne
  refine h ⟨e.pos, e.flags, hb.nextToTransmit, Block.read_of_holds hstored.flags, ?_, ?_, hopt⟩
  · rw [he.flags, ne_eq, entryFlags_eq_zero]
    exact hne.1
  · intro hnil
    rw [hm] at hnil
    obtain rfl := Option.some.inj hnil
    exact hne.2 (List.eq_nil_of_length_eq_zero hlen.symm)

theorem Tracked.sendNextReportEntry (h : Tracked d l old waiting) (hg : ¬ d.rc.SwapsReasons)
    {reading : Reading} (hr : d.rc.KeepsIntegers reading) {outputs : List Output}
    (he : d.rc.sendNextReportEntry = .ok (rc, outputs)) :
    Accounted ⟨rc, d.enqueued ++ generatedOf outputs,
      d.transmitted ++ (sentOf outputs).map (·.readBy reading)⟩ := by
  unfold ReportControl.sendNextReportEntry at he
  split at he
  case h_1 =>
    cases he
    exact h.quiet (.refl _)
  case h_2 => cases he
  case h_3 entry members hentry hm =>
    obtain ⟨stored, hread, he⟩ := bind_ok he
    have hkeeps := hr entry members stored hentry hm hread
    dsimp only at he
    split at he
    case isTrue =>
      cases he
      have hkeeps : KeepsEntries d.rc (d.rc.prepareEntry stored) := ⟨rfl, .inl ⟨rfl, rfl⟩⟩
      exact h.quiet hkeeps
    case isFalse =>
      obtain ⟨buffer, hbuffer, he⟩ := bind_ok he
      cases he
      rcases transmitted_spec h.buffer with ⟨rfl, -⟩ | ⟨e, rest, b', rfl, hok, hrep, hmem⟩
      · rw [h.buffer.nextToTransmit] at hentry
        cases hentry
      · obtain rfl := Except.ok.inj (hok.symm.trans hbuffer)
        obtain rfl : e.pos = entry := by
          rw [h.buffer.nextToTransmit] at hentry
          exact Option.some.inj hentry
        have hbuf : e.Stored d.rc.reportBuffer.memoryBlock (firstPos none rest) :=
          (chain_append.mp h.buffer.chain).2.1
        have hfirst := h.first
        have hnext := h.next
        rw [List.length_cons] at hnext
        cases hdrop : d.enqueued.drop l.next with
        | nil =>
          have hempty := h.stored
          rw [hdrop] at hempty
          cases hempty
        | cons g gs =>
          have hall := h.stored
          rw [hdrop] at hall
          obtain ⟨⟨hs, id, hreport⟩, hrest⟩ := List.forall₂_cons.mp hall
          have hg' : d.enqueued[l.next]? = some g := by
            have hhead : (d.enqueued.drop l.next)[0]? = d.enqueued[l.next]? := List.getElem?_drop
            rw [hdrop] at hhead
            exact hhead.symm
          have hlen : members.length = g.members.length := by
            have := h.readable g (by rw [hdrop]; exact List.mem_cons_self)
            rw [hm] at this
            exact Option.some.inj this
          rw [hlen, readEntry_isReport hbuf hreport hs] at hread
          obtain rfl := Except.ok.inj hread
          rw [hlen]
          rw [generatedOf, generatedOf, List.append_nil]
          have hlater : d.enqueued.drop (l.next + 1) = gs := by
            rw [← List.drop_drop, hdrop]
            rfl
          refine ⟨l.send (by omega), old ++ [e], rest, ⟨hrep, ?_, ?_, h.count, ?_, ?_⟩,
            h.buffered, ?_⟩
          · change l.first + (old ++ [e]).length = l.next + 1
            rw [List.length_append, List.length_singleton]
            omega
          · change l.next + 1 + rest.length = l.count
            omega
          · change List.Forall₂ _ (d.enqueued.drop (l.next + 1)) rest
            rwa [hlater]
          · refine List.rel_append h.carried (.cons ⟨g, hg', ?_⟩ .nil)
            change (Report.readBy _ reading).Carries g
            rw [Report.readBy_eq]
            · exact entryReport_carries (notSwapped hg h.buffer hreport hm hlen)
            · exact hkeeps
          · change ∀ g' ∈ d.enqueued.drop (l.next + 1), _
            rw [hlater]
            intro g' hg'
            exact h.readable g' (by rw [hdrop]; exact List.mem_cons_of_mem g hg')

theorem Tracked.writeAccessHandler (h : Tracked d l old waiting) {dataSets : DataSets} {w : Write}
    {result : MmsDataAccessError} (hg : d.rc.KeepsCount dataSets w)
    (he : d.rc.writeAccessHandler dataSets w = .ok (rc, result)) :
    Accounted ⟨rc, d.enqueued, d.transmitted⟩ := by
  rcases keepsEntries_writeAccessHandler h.buffered he with hk | ⟨hon, hb, hbuf, hd⟩
  · exact h.keeps hk
  · refine ⟨l, old, waiting, ⟨?_, h.first, h.next, h.count, h.stored, h.carried⟩,
      hb.trans h.buffered, ?_⟩
    · rw [hbuf]
      exact h.buffer
    · intro g hmem
      cases waiting with
      | nil =>
        rw [List.forall₂_nil_right_iff.mp h.stored] at hmem
        cases hmem
      | cons e rest =>
        have hsome : d.rc.reportBuffer.nextToTransmit.isSome := by
          rw [h.buffer.nextToTransmit]
          rfl
        have hsame := Option.some.inj (hd.symm.trans (hg hon hsome))
        rw [hsame]
        exact h.readable g hmem

/-- One call keeps account of what is enqueued and transmitted. -/
theorem Tracked.step (h : Tracked d l old waiting) {c : Call × Reading} {d' : Delivery}
    (hg : d.Faithful c) (hs : Delivery.Step d c d') : Accounted d' := by
  obtain ⟨rc, outputs, hc, rfl⟩ := hs
  obtain ⟨c, reading⟩ := c
  cases c with
  | enqueueReport isIntegrity isGI now =>
    have hnone : sentOf outputs = [] := by
      rcases enqueueReport_stored h.buffer hc with ⟨-, rfl⟩ | ⟨_, _, _, _, -, rfl, -⟩
      · rfl
      · rfl
    have ha := h.enqueueReport hc
    rw [hnone] at ha ⊢
    exact ha
  | sendNextReportEntry => exact h.sendNextReportEntry hg.2.1 hg.2.2 hc
  | writeAccessHandler dataSets w =>
    obtain ⟨⟨rc1, result⟩, hw, hc⟩ := bind_ok hc
    cases hc
    rw [generatedOf, sentOf, List.map_nil, List.append_nil, List.append_nil]
    exact h.writeAccessHandler hg.2 hw
  | deactivateReportsForConnection connection =>
    cases hc
    exact h.quiet (.deactivate h.buffered connection)
  | updateTimeOfEntry currentTime =>
    cases hc
    exact h.quiet (.updateTimeOfEntry currentTime)
  | setInclusionFlag index flag =>
    cases hc
    exact h.quiet (.modify index (includeMember · flag))
  | setMemberValue index value =>
    cases hc
    exact h.quiet (.modify index fun m => { m with value := value })
  | settle gi triggered reportTime nextIntgReportTime =>
    cases hc
    exact h.quiet ⟨rfl, .inl ⟨rfl, rfl⟩⟩

/-- A new buffered block, with an empty buffer. -/
theorem Delivery.start_rc (dataSets : DataSets) (rcb : ReportControlBlock) (memoryBlockSize : Nat)
    (reportTime : UInt64) :
    (Delivery.start dataSets rcb memoryBlockSize reportTime).rc.buffered = true ∧
      (Delivery.start dataSets rcb memoryBlockSize reportTime).rc.reportBuffer =
        .create memoryBlockSize ∧
      (Delivery.start dataSets rcb memoryBlockSize reportTime).rc.lastEntryId = 0 := by
  rw [Delivery.start, activateBufferedReports, create_buffered, if_pos rfl]
  split
  case h_1 rc1 hd =>
    obtain ⟨vs, dynamic, rfl⟩ := updateReportDataset_cases hd
    exact ⟨rfl, rfl, rfl⟩
  case h_2 => exact ⟨rfl, rfl, rfl⟩

theorem Accounted.start (dataSets : DataSets) (rcb : ReportControlBlock) (memoryBlockSize : Nat)
    (reportTime : UInt64) :
    Accounted (Delivery.start dataSets rcb memoryBlockSize reportTime) := by
  obtain ⟨hb, hbuf, -⟩ := Delivery.start_rc dataSets rcb memoryBlockSize reportTime
  refine ⟨.create, [], [], ⟨?_, rfl, rfl, rfl, .nil, .nil⟩, hb, fun g hg => nomatch hg⟩
  rw [hbuf]
  exact represents_create _

end

namespace Delivery

/-- In every run in which no swapped reasons and no changed integers are sent and the number of
members stays the same while entries wait, the reports transmitted are those that were enqueued. -/
theorem run_delivers (dataSets : DataSets) (rcb : ReportControlBlock) (memoryBlockSize : Nat)
    (reportTime : UInt64) {calls : List (Call × Reading)} {d : Delivery}
    (hr : Transition.Run Step Faithful (start dataSets rcb memoryBlockSize reportTime) calls d) :
    d.Delivers := by
  have hinv : Accounted d := by
    refine hr.invariant (Accounted.start dataSets rcb memoryBlockSize reportTime) ?_
    rintro t c u ⟨l, old, waiting, ht⟩ hg hs
    exact ht.step hg hs
  obtain ⟨l, old, waiting, h⟩ := hinv
  exact ⟨l, old, waiting, h.toDelivered⟩

/-- A block that gives the reasons for inclusion in its reports. -/
def reasonBlock : ReportControlBlock := ⟨none, none, 1, 4, 0, 4, 0⟩

theorem faithful_enable {d : Delivery} (dataSets : DataSets) (b : Bool) (connection : Connection)
    (h : d.rc.reportBuffer.nextToTransmit = none) :
    d.Faithful (.writeAccessHandler dataSets (writeBoolean .rptEna b connection), .asCopied) := by
  refine ⟨rfl, ?_⟩
  intro _ hsome
  rw [h] at hsome
  exact absurd hsome Bool.false_ne_true

/-- A client enables a block, and a report of an event is sent to it. -/
theorem run_delivers_event : ∃ d : Delivery, d.transmitted.length = 1 ∧ d.Delivers := by
  obtain ⟨rc1, h1⟩ : ∃ rc1, (start oneMember reasonBlock 200 0).rc.call
      (.writeAccessHandler oneMember (writeBoolean .rptEna true 1)) = .ok (rc1, []) := ⟨_, rfl⟩
  obtain ⟨rc2, h2⟩ : ∃ rc2, rc1.call (.setInclusionFlag 0 .valueUpdate) = .ok (rc2, []) := ⟨_, rfl⟩
  obtain ⟨rc3, outputs3, h3, hen, hno, hs3⟩ : ∃ rc3 outputs,
      rc2.call (.enqueueReport false false 5) = .ok (rc3, outputs) ∧ rc3.enabled = true ∧
        ¬ rc3.SwapsReasons ∧ sentOf outputs = [] := by
    cases h1
    cases h2
    refine ⟨_, _, rfl, rfl, ?_, rfl⟩
    rintro ⟨entry, flags, hentry, hflags, hne, -⟩
    obtain rfl := Option.some.inj hentry
    cases hflags
    exact hne rfl
  obtain ⟨rc4, outputs4, h4, hs4⟩ : ∃ rc4 outputs, rc3.call .sendNextReportEntry =
      .ok (rc4, outputs) ∧ (sentOf outputs).length = 1 := by
    cases h1
    cases h2
    cases h3
    exact ⟨_, _, rfl, rfl⟩
  have hnil : Transition.Run Step Faithful (start oneMember reasonBlock 200 0) []
      (start oneMember reasonBlock 200 0) := .nil
  have hr1 := hnil.snoc (faithful_enable oneMember true 1 rfl) ⟨rc1, [], h1, rfl⟩
  have hr2 := hr1.snoc (i := (Call.setInclusionFlag 0 .valueUpdate, Reading.asCopied))
    ⟨trivial, trivial⟩ ⟨rc2, [], h2, rfl⟩
  have hr3 := hr2.snoc (i := (Call.enqueueReport false false 5, Reading.asCopied))
    ⟨trivial, trivial⟩ ⟨rc3, outputs3, h3, rfl⟩
  have hr4 := hr3.snoc (i := (Call.sendNextReportEntry, Reading.asCopied))
    ⟨hen, hno, fun _ _ _ _ _ _ => rfl⟩ ⟨rc4, outputs4, h4, rfl⟩
  refine ⟨_, ?_, run_delivers oneMember reasonBlock 200 0 hr4⟩
  rw [hs3, List.length_append, List.length_map, hs4]
  rfl

/-- The report of an integrity period says that it is the answer to a general interrogation. -/
theorem reasons_swapped : ∃ calls d, Transition.Run Step (fun d c => d.rc.Permits c.1)
    (start oneMember reasonBlock 200 0) calls d ∧ ¬ d.Delivers := by
  obtain ⟨rc1, h1⟩ : ∃ rc1, (start oneMember reasonBlock 200 0).rc.call
      (.writeAccessHandler oneMember (writeBoolean .rptEna true 1)) = .ok (rc1, []) := ⟨_, rfl⟩
  obtain ⟨rc2, members, h2, hen, hreasons⟩ : ∃ rc2 members,
      rc1.call (.enqueueReport true false 5) = .ok (rc2, [.generated true false members]) ∧
        rc2.enabled = true ∧ sentReasons true false members = [[8]] := by
    cases h1
    exact ⟨_, _, rfl, rfl, rfl⟩
  obtain ⟨rc3, report, h3, hgives, hsent⟩ : ∃ rc3 report, rc2.call .sendNextReportEntry =
      .ok (rc3, [.sent report]) ∧ report.givesReasons = true ∧ report.reasons = [[4]] := by
    cases h1
    cases h2
    exact ⟨_, _, rfl, rfl, rfl⟩
  have hnil : Transition.Run Step (fun d c => d.rc.Permits c.1)
      (start oneMember reasonBlock 200 0) [] (start oneMember reasonBlock 200 0) := .nil
  have hr1 := hnil.snoc
    (i := (Call.writeAccessHandler oneMember (writeBoolean .rptEna true 1), Reading.asCopied)) rfl
    ⟨rc1, [], h1, rfl⟩
  have hr2 := hr1.snoc (i := (Call.enqueueReport true false 5, Reading.asCopied)) trivial
    ⟨rc2, _, h2, rfl⟩
  have hr3 := hr2.snoc (i := (Call.sendNextReportEntry, Reading.asCopied)) hen ⟨rc3, _, h3, rfl⟩
  refine ⟨_, _, hr3, ?_⟩
  rintro ⟨l, old, waiting, hd⟩
  obtain ⟨k, ks, ⟨g, hg, hcarries⟩, -, -⟩ := List.forall₂_cons_right_iff.mp hd.carried
  have hk : k = 0 := by
    have := (List.getElem?_eq_some_iff.mp hg).1
    exact Nat.lt_one_iff.mp this
  subst hk
  obtain rfl := Option.some.inj hg
  have hsame : report.reasons = if report.givesReasons then Generation.reasons _ else [] :=
    hcarries.reasons
  rw [hgives, hsent, if_pos rfl, Generation.reasons, hreasons] at hsame
  exact absurd hsame (by decide)

end Delivery

/-- The block goes through calls that make these reports. -/
def MadeOfCalls (rc : ReportControl) (outputs : List Output) (rc' : ReportControl) : Prop :=
  rc.buffered = true → rc'.buffered = true ∧ ∀ enqueued transmitted, ∃ calls,
    Transition.Run Delivery.Step (fun d c => d.rc.Permits c.1) ⟨rc, enqueued, transmitted⟩ calls
      ⟨rc', enqueued ++ generatedOf outputs, transmitted ++ sentOf outputs⟩

section

variable {rc rc' rc'' : ReportControl} {outputs outputs' : List Output}

theorem MadeOfCalls.refl (rc : ReportControl) : MadeOfCalls rc [] rc := by
  intro hb
  refine ⟨hb, fun enqueued transmitted => ⟨[], ?_⟩⟩
  rw [generatedOf, sentOf, List.append_nil, List.append_nil]
  exact .nil

theorem MadeOfCalls.trans (h : MadeOfCalls rc outputs rc') (h' : MadeOfCalls rc' outputs' rc'') :
    MadeOfCalls rc (outputs ++ outputs') rc'' := by
  intro hb
  obtain ⟨hb1, h1⟩ := h hb
  obtain ⟨hb2, h2⟩ := h' hb1
  refine ⟨hb2, fun enqueued transmitted => ?_⟩
  obtain ⟨calls, hr⟩ := h1 enqueued transmitted
  obtain ⟨calls', hr'⟩ := h2 (enqueued ++ generatedOf outputs) (transmitted ++ sentOf outputs)
  rw [List.append_assoc, List.append_assoc, ← generatedOf_append, ← sentOf_append] at hr'
  exact ⟨calls ++ calls', hr.append hr'⟩

theorem MadeOfCalls.call {c : Call} (hp : rc.Permits c) (hc : rc.call c = .ok (rc', outputs))
    (hb : rc'.buffered = rc.buffered) : MadeOfCalls rc outputs rc' := by
  intro hbuf
  refine ⟨hb.trans hbuf, fun enqueued transmitted => ⟨[(c, .asCopied)], ?_⟩⟩
  have hnil : Transition.Run Delivery.Step (fun d c => d.rc.Permits c.1)
      ⟨rc, enqueued, transmitted⟩ [] ⟨rc, enqueued, transmitted⟩ := .nil
  refine hnil.snoc hp ⟨rc', outputs, hc, ?_⟩
  have hsame : (sentOf outputs).map (·.readBy .asCopied) = sentOf outputs := List.map_id _
  rw [hsame]

theorem MadeOfCalls.settle (rc : ReportControl) (gi triggered : Bool)
    (reportTime nextIntgReportTime : UInt64) :
    MadeOfCalls rc [] { rc with gi := gi, triggered := triggered, reportTime := reportTime
                                nextIntgReportTime := nextIntgReportTime } :=
  .call (c := .settle gi triggered reportTime nextIntgReportTime) trivial rfl rfl

theorem MadeOfCalls.updateTimeOfEntry (rc : ReportControl) (currentTime : UInt64) :
    MadeOfCalls rc [] (rc.updateTimeOfEntry currentTime) :=
  .call (c := .updateTimeOfEntry currentTime) trivial rfl (KeepsEntries.updateTimeOfEntry _).1

theorem MadeOfCalls.generate {isIntegrity isGI : Bool} {now : UInt64}
    (h : rc.generate isIntegrity isGI now = .ok (rc', outputs)) : MadeOfCalls rc outputs rc' := by
  intro hb
  rw [ReportControl.generate, if_pos hb] at h
  refine MadeOfCalls.call (c := .enqueueReport isIntegrity isGI now) trivial h ?_ hb
  rcases enqueueReport_cases h with ⟨members, -, ⟨_, _, _, _, -, rfl⟩, -⟩ | ⟨-, rfl, -⟩
  · rfl
  · rfl

theorem MadeOfCalls.flush {now : UInt64} (h : rc.flush now = .ok (rc', outputs)) :
    MadeOfCalls rc outputs rc' := by
  unfold ReportControl.flush at h
  split at h
  · obtain ⟨⟨rc1, outputs1⟩, hg, h⟩ := bind_ok h
    cases h
    have hall := (MadeOfCalls.generate hg).trans (.settle rc1 rc1.gi false rc1.reportTime
      rc1.nextIntgReportTime)
    rwa [List.append_nil] at hall
  · cases h
    exact .refl rc

theorem MadeOfCalls.sendNextReportEntry (hen : rc.enabled = true)
    (h : rc.sendNextReportEntry = .ok (rc', outputs)) : MadeOfCalls rc outputs rc' := by
  refine .call (c := .sendNextReportEntry) hen h ?_
  obtain ⟨_, _, _, -, rfl, -⟩ := sendNextReportEntry_cases h
  rfl

theorem madeOfCalls_rule : ProcessRule MadeOfCalls where
  refl := .refl
  trans := fun _ _ _ _ _ => .trans
  flush := fun _ _ _ _ => .flush
  generate := fun _ _ _ _ _ _ _ => .generate
  sendNextReportEntry := fun _ _ _ _ => .sendNextReportEntry
  updateTimeOfEntry := .updateTimeOfEntry
  settle := fun rc gi => .settle rc gi false rc.reportTime rc.nextIntgReportTime
  setNextTime := fun rc next => .settle rc rc.gi rc.triggered rc.reportTime next

theorem MadeOfCalls.startBufferTime (rc : ReportControl) (now : UInt64) :
    MadeOfCalls rc [] (rc.startBufferTime now) := by
  rw [ReportControl.startBufferTime]
  split
  · exact .refl rc
  · have htime := MadeOfCalls.updateTimeOfEntry rc now
    exact htime.trans (.settle _ _ _ _ _)

theorem MadeOfCalls.bypassBufferTime {member : Member} {now : UInt64} {hal : Nat → UInt64}
    (h : rc.bypassBufferTime member now hal = .ok (rc', outputs)) :
    MadeOfCalls rc outputs rc' := by
  unfold ReportControl.bypassBufferTime at h
  split at h
  · exact (MadeOfCalls.settle rc rc.gi rc.triggered now rc.nextIntgReportTime).trans
      (madeOfCalls_rule.processEventsForReport h)
  · cases h
    exact .refl rc

theorem MadeOfCalls.valueUpdated {index : Nat} {flag : ReportInclusionFlag}
    {now hal : Nat → UInt64} (h : rc.valueUpdated index flag now hal = .ok (rc', outputs)) :
    MadeOfCalls rc outputs rc' := by
  unfold ReportControl.valueUpdated at h
  split at h
  · cases h
  · obtain ⟨⟨rc1, outputs1⟩, h1, h⟩ := bind_ok h
    cases h
    have hflag : MadeOfCalls rc1 [] (rc1.setInclusionFlag index flag) :=
      .call (c := .setInclusionFlag index flag) trivial rfl rfl
    let rc2 := (rc1.setInclusionFlag index flag).startBufferTime (now 1)
    have hstart : MadeOfCalls rc1 [] rc2 := hflag.trans (.startBufferTime _ (now 1))
    have hall := (MadeOfCalls.bypassBufferTime h1).trans
      (hstart.trans (.settle rc2 rc2.gi true rc2.reportTime rc2.nextIntgReportTime))
    rwa [List.append_nil, List.append_nil] at hall

/-- Whatever happens to a buffered block is a run of calls, with the same reports. -/
theorem madeOfCalls_handle {e : Event} (hr : rc.Receives e)
    (h : rc.handle e = .ok (rc', outputs)) : MadeOfCalls rc outputs rc' := by
  cases e with
  | writeAccessHandler dataSets w =>
    intro hb
    obtain ⟨⟨rc1, result⟩, hw, h'⟩ := bind_ok h
    cases h'
    refine MadeOfCalls.call (c := .writeAccessHandler dataSets w) hr h ?_ hb
    rcases keepsEntries_writeAccessHandler hb hw with hk | ⟨-, hbuf, -⟩
    · exact hk.1
    · exact hbuf
  | deactivateReportsForConnection connection =>
    intro hb
    cases h
    exact MadeOfCalls.call (c := .deactivateReportsForConnection connection) trivial rfl
      (KeepsEntries.deactivate hb connection).1 hb
  | triggerReportObservers index flag now hal =>
    change rc.triggerReportObservers index flag now hal = _ at h
    unfold ReportControl.triggerReportObservers at h
    split at h
    · split at h
      · exact .valueUpdated h
      · cases h
        exact .refl rc
    · cases h
      exact .refl rc
  | processEventsForReport currentTime hal => exact madeOfCalls_rule.processEventsForReport h
  | setMemberValue index value =>
    cases h
    exact .call (c := .setMemberValue index value) trivial rfl rfl

end

end Iec61850.Reporting
