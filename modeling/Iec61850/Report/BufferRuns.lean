import Iec61850.Report.EntryWriting

/-! The report buffer over whole runs. -/

namespace Iec61850.Reporting

open Machine Arena

/-- The entry that a call of `enqueueReport` adds to the chain. -/
structure Entry.IsReport (e : Entry) (members : List Member) (isIntegrity isGI : Bool)
    (entryId : UInt64) : Prop where
  entryId : e.entryId = entryId
  flags : e.flags = ReportBuffer.entryFlags isIntegrity isGI
  objects : e.objects = entryObjects members isIntegrity isGI

section

variable {b : ReportBuffer} {sent pending : List Entry} {members : List Member}
  {isIntegrity isGI : Bool}

/-- The room for the entry is not there at all, or it is made by evicting the oldest entries. -/
theorem enqueueReport_spec (h : Represents b sent pending)
    (hs : HasStrings members isIntegrity isGI) (id : UInt64) :
    b.enqueueReport members isIntegrity isGI id = .ok (b, false) ∨
      ∃ b' sent' pending' e, b.enqueueReport members isIntegrity isGI id = .ok (b', true) ∧
        sent' <:+ sent ∧ pending' <:+ pending ∧ sent' ++ pending' <:+ sent ++ pending ∧
        Represents b' sent' (pending' ++ [e]) ∧ e.IsReport members isIntegrity isGI id ∧
        b'.memoryBlock.size = b.memoryBlock.size := by
  obtain ⟨hsize, -⟩ : bufferEntrySize members isIntegrity isGI =
      .ok (24 + Block.sizeAll (entryObjects members isIntegrity isGI)) ∧ _ :=
    (bufferEntrySize_cases members isIntegrity isGI).resolve_right fun hne => hne.2 hs
  rw [ReportBuffer.enqueueReport, hsize, ok_bind]
  split
  case isTrue => exact .inl rfl
  case isFalse hfit =>
    right
    obtain ⟨b1, pos, sent', pending', hw, hplace, hsuf, hpuf, ha⟩ :=
      allocateEntry_spec h (Nat.le_add_right 24 _) (not_lt.mp hfit)
    let e : Entry := ⟨pos, id, ReportBuffer.entryFlags isIntegrity isGI,
      entryObjects members isIntegrity isGI⟩
    have hring := h.ring.place (x := e)
      (n := 24 + Block.sizeAll (entryObjects members isIntegrity isGI)) (by omega)
      (not_lt.mp hfit) (by rw [hplace]; rfl) rfl
    rw [hplace] at hring
    have hbound : e.pos + e.len ≤ b1.memoryBlock.size := by
      rw [ha.blockSize]
      exact (hring.1.bounds e (by simp)).1
    obtain ⟨m', hwrite, hstored, hsame⟩ := writeEntry_spec hs (e := e) rfl rfl hbound
    have hchain : Chain m' (some pos) (sent' ++ pending') := by
      refine ha.chain.of_same hsame ?_
      intro f hf
      exact (List.pairwise_append.mp hring.1.apart).2.2 f hf e (by simp)
    refine ⟨⟨m', b1.reportsCount + 1, b1.oldestReport.or (some pos), some pos,
      b1.nextToTransmit.or (some pos)⟩, sent', pending', e, ?_, hsuf, hpuf, hring.2, ?_,
      ⟨rfl, rfl, rfl⟩, ?_⟩
    · rw [hw, ok_bind]
      change ((b1.writeEntry e.pos e.len members isIntegrity isGI e.entryId) >>= fun b => _) = _
      rw [hwrite]
      rfl
    · have hassoc : sent' ++ (pending' ++ [e]) = (sent' ++ pending') ++ [e] :=
        (List.append_assoc _ _ _).symm
      refine ⟨⟨?_, ?_, ?_, ?_⟩, ?_, ?_⟩
      · rw [hassoc]
        exact chain_append.mpr ⟨hchain, hstored, trivial⟩
      · rw [hassoc, firstPos_append]
        exact ha.oldestReport
      · rw [firstPos_append]
        exact ha.nextToTransmit
      · rw [hassoc, List.length_append, ha.reportsCount]
        simp
      · rw [hassoc, List.getLast?_concat]
        rfl
      · rw [hassoc, hsame.1, ha.blockSize]
        exact hring.1
    · exact hsame.1.trans ha.blockSize

theorem enqueueReport_null (h : ¬ HasStrings members isIntegrity isGI) (id : UInt64) :
    b.enqueueReport members isIntegrity isGI id = .error .nullPointer := by
  obtain ⟨he, -⟩ := (bufferEntrySize_cases members isIntegrity isGI).resolve_left fun hok => h hok.2
  rw [ReportBuffer.enqueueReport, he]
  rfl

/-- The oldest of the entries that have not been transmitted is the next one. -/
theorem transmitted_spec (h : Represents b sent pending) :
    (pending = [] ∧ b.transmitted = .ok b) ∨
      ∃ e rest b', pending = e :: rest ∧ b.transmitted = .ok b' ∧
        Represents b' (sent ++ [e]) rest ∧ b'.memoryBlock = b.memoryBlock := by
  cases pending with
  | nil =>
    left
    have hnext : b.nextToTransmit = none := h.nextToTransmit
    exact ⟨rfl, by rw [ReportBuffer.transmitted, hnext]⟩
  | cons e rest =>
    right
    have hnext : b.nextToTransmit = some e.pos := h.nextToTransmit
    have hstored : e.Stored b.memoryBlock (firstPos none rest) := (chain_append.mp h.chain).2.1
    have hne : firstPos none rest ≠ some e.pos := by
      cases rest with
      | nil => simp [firstPos]
      | cons f fs =>
        have hnodup := (h.ring.nodup.sublist
          ((List.sublist_append_right sent (e :: f :: fs)).map _))
        intro heq
        have hpos : f.pos = e.pos := Option.some.inj heq
        simp [hpos] at hnodup
    have hassoc : sent ++ [e] ++ rest = sent ++ e :: rest := by simp
    refine ⟨e, rest, { b with nextToTransmit := firstPos none rest }, rfl, ?_,
      ⟨⟨?_, ?_, rfl, ?_⟩, ?_, ?_⟩, rfl⟩
    · rw [ReportBuffer.transmitted, hnext]
      simp only [readNext_of_stored hstored, ok_bind]
      rw [if_neg hne]
      rfl
    · rw [hassoc]
      exact h.chain
    · rw [hassoc]
      exact h.oldestReport
    · rw [hassoc]
      exact h.reportsCount
    · rw [hassoc]
      exact h.lastEnqueuedReport
    · rw [hassoc]
      exact h.ring

theorem represents_purgeBuf (b : ReportBuffer) : Represents b.purgeBuf [] [] :=
  ⟨⟨trivial, rfl, rfl, rfl⟩, rfl, .inl rfl⟩

theorem represents_create (size : Nat) : Represents (.create size) [] [] :=
  ⟨⟨trivial, rfl, rfl, rfl⟩, rfl, .inl rfl⟩

end

/-- The functions of `reporting.c` that change a report buffer, with their inputs.
`complete` tells whether the local storage of `sendNextReportEntry` was large enough. -/
inductive BufferOp
  | enqueueReport (members : List Member) (isIntegrity isGI : Bool) (entryId : UInt64)
  | sendNextReportEntry (complete : Bool)
  | purgeBuf

def BufferOp.HasStrings : BufferOp → Prop
  | .enqueueReport members isIntegrity isGI _ => Reporting.HasStrings members isIntegrity isGI
  | _ => True

namespace ReportBuffer

def apply (b : ReportBuffer) : BufferOp → Exec ReportBuffer
  | .enqueueReport members isIntegrity isGI entryId => do
    return (← b.enqueueReport members isIntegrity isGI entryId).1
  | .sendNextReportEntry complete => if complete then b.transmitted else .ok b
  | .purgeBuf => .ok b.purgeBuf

def run (size : Nat) (ops : List BufferOp) : Exec ReportBuffer :=
  ops.foldlM apply (.create size)

/-- The representation invariant: `entries` is the chain from `oldestReport` on. -/
structure WellFormed (b : ReportBuffer) (entries : List Entry) : Prop where
  chain : Chain b.memoryBlock none entries
  oldestReport : b.oldestReport = firstPos none entries
  lastEnqueuedReport : b.lastEnqueuedReport = entries.getLast?.map Entry.pos
  reportsCount : b.reportsCount = entries.length
  within : ∀ e ∈ entries, e.pos + e.len ≤ b.memoryBlock.size
  disjoint : entries.Pairwise Apart
  nextToTransmit : b.nextToTransmit = none ∨ ∃ e ∈ entries, b.nextToTransmit = some e.pos

/-- What one function may do to the chain. -/
def StepsTo (entries : List Entry) (b : ReportBuffer) : BufferOp → ReportBuffer → Prop
  | .enqueueReport members isIntegrity isGI entryId, b' =>
    b' = b ∨ ∃ evicted kept e, entries = evicted ++ kept ∧ b'.WellFormed (kept ++ [e]) ∧
      e.IsReport members isIntegrity isGI entryId
  | .sendNextReportEntry _, b' => b'.WellFormed entries
  | .purgeBuf, b' => b'.WellFormed []

end ReportBuffer

theorem Represents.wellFormed {b : ReportBuffer} {sent pending : List Entry}
    (h : Represents b sent pending) : b.WellFormed (sent ++ pending) where
  chain := h.chain
  oldestReport := h.oldestReport
  lastEnqueuedReport := h.lastEnqueuedReport
  reportsCount := h.reportsCount
  within := fun e he => (h.ring.bounds e he).1
  disjoint := h.ring.apart
  nextToTransmit := by
    rw [h.nextToTransmit]
    cases pending with
    | nil => exact .inl rfl
    | cons e es => exact .inr ⟨e, by simp, rfl⟩

/-- One function on a buffer that represents a chain. -/
theorem apply_spec {b : ReportBuffer} {sent pending : List Entry} (h : Represents b sent pending)
    (op : BufferOp) :
    (∃ b', b.apply op = .ok b' ∧ b'.memoryBlock.size = b.memoryBlock.size ∧
      ReportBuffer.StepsTo (sent ++ pending) b op b' ∧
      ∃ sent' pending', Represents b' sent' pending') ∨
      b.apply op = .error .nullPointer ∧ ¬ op.HasStrings := by
  cases op with
  | enqueueReport members isIntegrity isGI id =>
    by_cases hs : HasStrings members isIntegrity isGI
    · left
      rcases enqueueReport_spec h hs id with
        he | ⟨b', sent', pending', e, he, -, -, hsuffix, hb', hreport, hsize⟩
      · exact ⟨b, by rw [ReportBuffer.apply, he]; rfl, rfl, .inl rfl, sent, pending, h⟩
      · obtain ⟨evicted, hev⟩ := hsuffix
        refine ⟨b', by rw [ReportBuffer.apply, he]; rfl, hsize, .inr ?_, sent', pending' ++ [e],
          hb'⟩
        refine ⟨evicted, sent' ++ pending', e, hev.symm, ?_, hreport⟩
        rw [List.append_assoc]
        exact hb'.wellFormed
    · right
      exact ⟨by rw [ReportBuffer.apply, enqueueReport_null hs id]; rfl, hs⟩
  | sendNextReportEntry complete =>
    left
    cases complete with
    | false => exact ⟨b, rfl, rfl, h.wellFormed, sent, pending, h⟩
    | true =>
      rcases transmitted_spec h with ⟨rfl, he⟩ | ⟨e, rest, b', rfl, he, hb', hm⟩
      · exact ⟨b, he, rfl, h.wellFormed, sent, [], h⟩
      · refine ⟨b', he, by rw [hm], ?_, sent ++ [e], rest, hb'⟩
        have := hb'.wellFormed
        rwa [List.append_assoc] at this
  | purgeBuf =>
    left
    exact ⟨_, rfl, rfl, (represents_purgeBuf b).wellFormed, [], [], represents_purgeBuf b⟩

theorem foldlM_spec {b : ReportBuffer} {sent pending : List Entry} (h : Represents b sent pending)
    (ops : List BufferOp) :
    (∃ b', ops.foldlM ReportBuffer.apply b = .ok b' ∧
      b'.memoryBlock.size = b.memoryBlock.size ∧ ∃ sent' pending', Represents b' sent' pending') ∨
      ops.foldlM ReportBuffer.apply b = .error .nullPointer ∧ ∃ op ∈ ops, ¬ op.HasStrings := by
  induction ops generalizing b sent pending with
  | nil => exact .inl ⟨b, rfl, rfl, sent, pending, h⟩
  | cons op ops ih =>
    rw [List.foldlM_cons]
    rcases apply_spec h op with ⟨b1, he, hsize, -, sent1, pending1, h1⟩ | ⟨he, hop⟩
    · rw [he, ok_bind]
      rcases ih h1 with ⟨b2, he2, hsize2, hrep⟩ | ⟨he2, op', hmem, hop⟩
      · exact .inl ⟨b2, he2, hsize2.trans hsize, hrep⟩
      · exact .inr ⟨he2, op', List.mem_cons_of_mem op hmem, hop⟩
    · exact .inr ⟨by rw [he]; rfl, op, List.mem_cons_self, hop⟩

/-- Every run of a report buffer ends with a well-formed chain, and any further function
steps to one; nothing but `strlen` of a null pointer in a value can stop a run. -/
theorem run_wellFormed (size : Nat) (ops : List BufferOp) :
    (∃ b entries, ReportBuffer.run size ops = .ok b ∧ b.memoryBlock.size = size ∧
      b.WellFormed entries ∧
      ∀ op b', b.apply op = .ok b' → ReportBuffer.StepsTo entries b op b') ∨
    (ReportBuffer.run size ops = .error .nullPointer ∧ ∃ op ∈ ops, ¬ op.HasStrings) := by
  rcases foldlM_spec (represents_create size) ops with ⟨b, he, hsize, sent, pending, h⟩ | herr
  · left
    refine ⟨b, sent ++ pending, he, hsize, h.wellFormed, ?_⟩
    intro op b' hb'
    rcases apply_spec h op with ⟨b1, he1, -, hsteps, -⟩ | ⟨he1, -⟩
    · obtain rfl := Except.ok.inj (he1.symm.trans hb')
      exact hsteps
    · rw [he1] at hb'
      cases hb'
  · exact .inr herr

end Iec61850.Reporting
