import Iec61850.Report.BufferInvariant

/-! What `enqueueReport` writes for a new entry. -/

namespace Iec61850.Reporting

open Machine Arena

/-- A function that puts objects one behind the other and returns the position behind them. -/
def Writes (f : ReportBuffer → Nat → Exec (ReportBuffer × Nat)) (objects : List BufferObject) :
    Prop :=
  ∀ b pos, pos + Block.sizeAll objects ≤ b.memoryBlock.size →
    ∃ m', f b pos = .ok ({ b with memoryBlock := m' }, pos + Block.sizeAll objects) ∧
      m'.HoldsAll pos objects ∧
      b.memoryBlock.SameOutside m' pos (pos + Block.sizeAll objects)

theorem Writes.nil : Writes (fun b pos => .ok (b, pos)) [] :=
  fun b _ _ => ⟨b.memoryBlock, rfl, trivial, .refl _ _ _⟩

theorem Writes.seq {f g : ReportBuffer → Nat → Exec (ReportBuffer × Nat)}
    {os ps : List BufferObject} (hf : Writes f os) (hg : Writes g ps) :
    Writes (fun b pos => f b pos >>= fun r => g r.1 r.2) (os ++ ps) := by
  intro b pos h
  rw [Block.sizeAll_append] at h
  obtain ⟨m1, h1, hh1, hs1⟩ := hf b pos (by omega)
  obtain ⟨m2, h2, hh2, hs2⟩ := hg { b with memoryBlock := m1 } (pos + Block.sizeAll os)
    (by simp only [hs1.1]; omega)
  refine ⟨m2, ?_, Block.holdsAll_append.mpr ⟨hh1.of_same hs2 (by omega), hh2⟩, ?_⟩
  · change (f b pos >>= _) = _
    rw [h1, ok_bind, h2, Block.sizeAll_append, Nat.add_assoc]
  · rw [Block.sizeAll_append]
    exact (hs1.mono le_rfl (by omega)).trans (hs2.mono (by omega) (by omega))

theorem Writes.object (o : BufferObject) (h : 0 < Sized.size o) :
    Writes (fun b pos => do return (← b.write pos o, pos + Sized.size o)) [o] := by
  intro b pos hb
  rw [Block.sizeAll_cons, Block.sizeAll_nil, Nat.add_zero] at hb ⊢
  obtain ⟨m', hw, hh, hs⟩ := b.memoryBlock.write_eq pos o h hb
  refine ⟨m', ?_, ⟨hh, trivial⟩, hs⟩
  simp only [ReportBuffer.write, hw]
  rfl

def valueObjects (flag : ReportInclusionFlag) (value : MmsValue) : List BufferObject :=
  [.octet flag.code, .value value]

theorem writes_encodeValue (flag : ReportInclusionFlag) {value : MmsValue}
    (h : value.HasStrings) :
    Writes (fun b pos => b.encodeValue pos flag value) (valueObjects flag value) := by
  have hsize := MmsValue.getSizeInMemory_eq h
  have hclone (pos : Nat) : value.cloneToBuffer pos = .ok (pos + value.sizeInMemory) := by
    rw [MmsValue.cloneToBuffer_eq, hsize]
    rfl
  have hfun : (fun b pos => ReportBuffer.encodeValue b pos flag value) = fun b pos =>
      (do return (← b.write pos (.octet flag.code), pos + Sized.size (BufferObject.octet flag.code)))
        >>= fun r => do
          return (← r.1.write r.2 (.value value), r.2 + Sized.size (BufferObject.value value)) := by
    funext b pos
    simp only [ReportBuffer.encodeValue, hclone, size_octet, size_value, bind_assoc, pure_bind,
      ok_bind]
  rw [hfun]
  exact (Writes.object _ (by simp)).seq (.object _ value.sizeInMemory_pos)

theorem writes_writeOctets (octets : List UInt8) :
    Writes (fun b pos => b.writeOctets pos octets) (octets.map .octet) := by
  induction octets with
  | nil => exact .nil
  | cons o os ih =>
    have hfun : (fun b pos => ReportBuffer.writeOctets b pos (o :: os)) = fun b pos =>
        (do return (← b.write pos (.octet o), pos + Sized.size (BufferObject.octet o)))
          >>= fun r => r.1.writeOctets r.2 os := by
      funext b pos
      simp only [ReportBuffer.writeOctets, size_octet, bind_assoc, pure_bind]
    rw [hfun]
    exact (Writes.object _ (by simp)).seq ih

def allObjects (members : List Member) : List BufferObject :=
  members.flatMap fun m => valueObjects m.flag m.value

theorem allObjects_cons (m : Member) (ms : List Member) :
    allObjects (m :: ms) = valueObjects m.flag m.value ++ allObjects ms := List.flatMap_cons

def changedObjects : List Member → List BufferObject
  | [] => []
  | m :: ms =>
    if m.flag = .none then changedObjects ms
    else match m.bufferedValue with
      | some v => valueObjects m.flag v ++ changedObjects ms
      | none => changedObjects ms

/-- What follows the header of an entry. -/
def entryObjects (members : List Member) (isIntegrity isGI : Bool) : List BufferObject :=
  if isIntegrity || isGI then allObjects members
  else (inclusionBits members).map .octet ++ changedObjects members

/-- The values that go into an entry. -/
def enqueuedValues (members : List Member) (isIntegrity isGI : Bool) : List MmsValue :=
  if isIntegrity || isGI then members.map (·.value)
  else members.filterMap fun m => if m.flag = .none then none else m.bufferedValue

def HasStrings (members : List Member) (isIntegrity isGI : Bool) : Prop :=
  ∀ v ∈ enqueuedValues members isIntegrity isGI, v.HasStrings

theorem writes_encodeAllValues {members : List Member}
    (h : ∀ m ∈ members, m.value.HasStrings) :
    Writes (fun b pos => b.encodeAllValues pos members) (allObjects members) := by
  induction members with
  | nil => exact .nil
  | cons m ms ih =>
    intro b pos hb
    obtain ⟨m', heq, hrest⟩ := (writes_encodeValue m.flag (h m (by simp))).seq
      (ih fun n hn => h n (List.mem_cons_of_mem m hn)) b pos hb
    exact ⟨m', heq, hrest⟩

theorem writes_encodeChangedValues {members : List Member}
    (h : ∀ m ∈ members, m.flag ≠ .none → ∀ v ∈ m.bufferedValue, v.HasStrings) :
    Writes (fun b pos => b.encodeChangedValues pos members) (changedObjects members) := by
  induction members with
  | nil => exact .nil
  | cons m ms ih =>
    have htail := ih fun n hn => h n (List.mem_cons_of_mem m hn)
    by_cases hflag : m.flag = .none
    · simp only [ReportBuffer.encodeChangedValues, changedObjects, hflag, if_true]
      exact htail
    · obtain ⟨v, hv⟩ := Option.isSome_iff_exists.mp (m.bufferedValue_of_flag hflag)
      simp only [ReportBuffer.encodeChangedValues, changedObjects, hflag, if_false, hv]
      exact (writes_encodeValue m.flag (h m (by simp) hflag v hv)).seq htail

theorem length_setInclusionBits (i : Nat) (members : List Member) (buf : List UInt8) :
    (setInclusionBits i members buf).length = buf.length := by
  induction members generalizing i buf with
  | nil => rfl
  | cons m ms ih =>
    rw [setInclusionBits, ih]
    split
    · rfl
    · simp [setBitStringBit]

theorem length_inclusionBits (members : List Member) :
    (inclusionBits members).length = BerEncoder.bitStringByteSize members.length := by
  rw [inclusionBits, length_setInclusionBits, List.length_replicate]

theorem sizeAll_octets (octets : List UInt8) :
    Block.sizeAll (octets.map BufferObject.octet) = octets.length := by
  induction octets with
  | nil => rfl
  | cons o os ih =>
    rw [List.map_cons, Block.sizeAll_cons, ih, size_octet, List.length_cons, Nat.add_comm]

theorem addValueSize_cases (size : Nat) (flag : ReportInclusionFlag) (v : MmsValue) :
    (addValueSize size v = .ok (size + Block.sizeAll (valueObjects flag v)) ∧ v.HasStrings) ∨
      addValueSize size v = .error .nullPointer ∧ ¬ v.HasStrings := by
  by_cases h : v.HasStrings
  · left
    refine ⟨?_, h⟩
    rw [addValueSize, MmsValue.getSizeInMemory_eq h, ok_bind]
    simp only [valueObjects, Block.sizeAll_cons, Block.sizeAll_nil, size_octet, size_value,
      Nat.add_zero, Nat.add_assoc]
    rfl
  · right
    rcases v.getSizeInMemory_cases with ⟨n, -, hv⟩ | ⟨he, -⟩
    · exact absurd hv h
    · exact ⟨by rw [addValueSize, he]; rfl, h⟩

theorem allValuesSize_cases (members : List Member) (size : Nat) :
    (members.foldlM (fun size m => addValueSize size m.value) size =
        .ok (size + Block.sizeAll (allObjects members)) ∧ ∀ m ∈ members, m.value.HasStrings) ∨
      members.foldlM (fun size m => addValueSize size m.value) size = .error .nullPointer ∧
        ¬ ∀ m ∈ members, m.value.HasStrings := by
  induction members generalizing size with
  | nil => exact .inl ⟨rfl, by simp⟩
  | cons m ms ih =>
    rw [List.foldlM_cons]
    rcases addValueSize_cases size m.flag m.value with ⟨hok, hm⟩ | ⟨he, hm⟩
    · rw [hok, ok_bind]
      rcases ih (size + Block.sizeAll (valueObjects m.flag m.value)) with ⟨hok, hms⟩ | ⟨he, hms⟩
      · left
        refine ⟨?_, by simpa using ⟨hm, hms⟩⟩
        rw [hok, allObjects_cons, Block.sizeAll_append, Nat.add_assoc]
      · exact .inr ⟨he, fun hall => hms fun n hn => hall n (List.mem_cons_of_mem m hn)⟩
    · exact .inr ⟨by rw [he]; rfl, fun hall => hm (hall m (by simp))⟩

theorem changedValuesSize_cases (members : List Member) (size : Nat) :
    (members.foldlM addChangedValueSize size =
        .ok (size + Block.sizeAll (changedObjects members)) ∧
        ∀ m ∈ members, m.flag ≠ .none → ∀ v ∈ m.bufferedValue, v.HasStrings) ∨
      members.foldlM addChangedValueSize size = .error .nullPointer ∧
        ¬ ∀ m ∈ members, m.flag ≠ .none → ∀ v ∈ m.bufferedValue, v.HasStrings := by
  induction members generalizing size with
  | nil => exact .inl ⟨rfl, by simp⟩
  | cons m ms ih =>
    rw [List.foldlM_cons, addChangedValueSize, changedObjects]
    by_cases hflag : m.flag = .none
    · rw [if_pos hflag, if_pos hflag, ok_bind]
      rcases ih size with ⟨hok, hms⟩ | ⟨he, hms⟩
      · exact .inl ⟨hok, List.forall_mem_cons.mpr ⟨fun h => absurd hflag h, hms⟩⟩
      · exact .inr ⟨he, fun hall => hms (List.forall_mem_cons.mp hall).2⟩
    · obtain ⟨v, hv⟩ := Option.isSome_iff_exists.mp (m.bufferedValue_of_flag hflag)
      rw [if_neg hflag, if_neg hflag]
      simp only [hv]
      rcases addValueSize_cases size m.flag v with ⟨hok, hm⟩ | ⟨he, hm⟩
      · rw [hok, ok_bind]
        rcases ih (size + Block.sizeAll (valueObjects m.flag v)) with ⟨hok, hms⟩ | ⟨he, hms⟩
        · left
          refine ⟨by rw [hok, Block.sizeAll_append, Nat.add_assoc], List.forall_mem_cons.mpr ⟨?_, hms⟩⟩
          intro _ w hw
          obtain rfl := Option.some.inj (hv.symm.trans hw)
          exact hm
        · exact .inr ⟨he, fun hall => hms (List.forall_mem_cons.mp hall).2⟩
      · right
        exact ⟨by rw [he]; rfl, fun hall => hm (hall m (by simp) hflag v hv)⟩

theorem hasStrings_all {members : List Member} {isIntegrity isGI : Bool}
    (h : (isIntegrity || isGI) = true) :
    HasStrings members isIntegrity isGI ↔ ∀ m ∈ members, m.value.HasStrings := by
  simp [HasStrings, enqueuedValues, h]

theorem hasStrings_changed {members : List Member} {isIntegrity isGI : Bool}
    (h : (isIntegrity || isGI) = false) :
    HasStrings members isIntegrity isGI ↔
      ∀ m ∈ members, m.flag ≠ .none → ∀ v ∈ m.bufferedValue, v.HasStrings := by
  simp only [HasStrings, enqueuedValues, h, Bool.false_eq_true, if_false, List.mem_filterMap]
  constructor
  · intro hall m hm hflag v hv
    exact hall v ⟨m, hm, by rw [if_neg hflag]; exact hv⟩
  · rintro hall v ⟨m, hm, hv⟩
    split at hv
    case isTrue => cases hv
    case isFalse hflag => exact hall m hm hflag v hv

/-- The size is counted exactly, unless `strlen` is called on the null pointer. -/
theorem bufferEntrySize_cases (members : List Member) (isIntegrity isGI : Bool) :
    (bufferEntrySize members isIntegrity isGI =
        .ok (24 + Block.sizeAll (entryObjects members isIntegrity isGI)) ∧
        HasStrings members isIntegrity isGI) ∨
      bufferEntrySize members isIntegrity isGI = .error .nullPointer ∧
        ¬ HasStrings members isIntegrity isGI := by
  rw [bufferEntrySize, entryObjects]
  cases h : isIntegrity || isGI with
  | true =>
    rw [if_pos rfl, if_pos rfl, hasStrings_all h]
    exact allValuesSize_cases members sizeofReportBufferEntry
  | false =>
    rw [if_neg (by simp), if_neg (by simp), hasStrings_changed h, Block.sizeAll_append,
      sizeAll_octets, length_inclusionBits, ← Nat.add_assoc]
    exact changedValuesSize_cases members _

theorem write_ok (b : ReportBuffer) (pos : Nat) (o : BufferObject) (ho : 0 < Sized.size o)
    (h : pos + Sized.size o ≤ b.memoryBlock.size) :
    ∃ m', b.write pos o = .ok { b with memoryBlock := m' } ∧ m'.Holds pos o ∧
      b.memoryBlock.SameOutside m' pos (pos + Sized.size o) := by
  obtain ⟨m', hw, hh, hs⟩ := b.memoryBlock.write_eq pos o ho h
  exact ⟨m', by rw [ReportBuffer.write, hw]; rfl, hh, hs⟩

/-- The contents of an entry, behind its header. -/
def writeContents (members : List Member) (isIntegrity isGI : Bool) (b : ReportBuffer)
    (pos : Nat) : Exec (ReportBuffer × Nat) :=
  if isIntegrity || isGI then b.encodeAllValues pos members
  else b.writeOctets pos (inclusionBits members) >>= fun r => r.1.encodeChangedValues r.2 members

theorem writes_writeContents {members : List Member} {isIntegrity isGI : Bool}
    (h : HasStrings members isIntegrity isGI) :
    Writes (writeContents members isIntegrity isGI) (entryObjects members isIntegrity isGI) := by
  cases hb : isIntegrity || isGI with
  | true =>
    have hfun : writeContents members isIntegrity isGI =
        fun b pos => b.encodeAllValues pos members := by
      funext b pos
      rw [writeContents, if_pos hb]
    rw [hfun, entryObjects, if_pos hb]
    exact writes_encodeAllValues ((hasStrings_all hb).mp h)
  | false =>
    have hfun : writeContents members isIntegrity isGI = fun b pos =>
        b.writeOctets pos (inclusionBits members) >>=
          fun r => r.1.encodeChangedValues r.2 members := by
      funext b pos
      rw [writeContents, if_neg (by simp [hb])]
    rw [hfun, entryObjects, if_neg (by simp [hb])]
    exact (writes_writeOctets _).seq (writes_encodeChangedValues ((hasStrings_changed hb).mp h))

theorem writeEntry_eq (b : ReportBuffer) (pos n : Nat) (members : List Member)
    (isIntegrity isGI : Bool) (id : UInt64) :
    b.writeEntry pos n members isIntegrity isGI id = (do
      let b ← ReportBuffer.writeNext { b with lastEnqueuedReport := some pos } pos none
      let b ← ReportBuffer.write { b with reportsCount := b.reportsCount + 1 } pos (.entryId id)
      let b ← b.write (pos + 8) (.octet (ReportBuffer.entryFlags isIntegrity isGI))
      let b ← b.write (pos + 12) (.entryLength n)
      return (← writeContents members isIntegrity isGI b (pos + 24)).1) := by
  unfold ReportBuffer.writeEntry writeContents
  split
  · rfl
  · simp only [bind_assoc]
    rfl

/-- The new entry lies in the octets that have been counted for it. -/
theorem writeEntry_spec {b : ReportBuffer} {members : List Member} {isIntegrity isGI : Bool}
    (h : HasStrings members isIntegrity isGI) {e : Entry}
    (hobjects : e.objects = entryObjects members isIntegrity isGI)
    (hflags : e.flags = ReportBuffer.entryFlags isIntegrity isGI)
    (hbound : e.pos + e.len ≤ b.memoryBlock.size) :
    ∃ m', b.writeEntry e.pos e.len members isIntegrity isGI e.entryId =
        .ok { b with memoryBlock := m', reportsCount := b.reportsCount + 1
                     lastEnqueuedReport := some e.pos } ∧
      e.Stored m' none ∧ b.memoryBlock.SameOutside m' e.pos (e.pos + e.len) := by
  have hlen : e.len = 24 + Block.sizeAll e.objects := rfl
  obtain ⟨m1, hw1, hh1, hs1⟩ := write_ok { b with lastEnqueuedReport := some e.pos }
    (e.pos + 16) (.next none) (by simp) (by simp only [size_next]; omega)
  obtain ⟨m2, hw2, hh2, hs2⟩ := write_ok
    { b with lastEnqueuedReport := some e.pos, memoryBlock := m1
             reportsCount := b.reportsCount + 1 }
    e.pos (.entryId e.entryId) (by simp)
    (by simp only [size_entryId, hs1.1]; omega)
  obtain ⟨m3, hw3, hh3, hs3⟩ := write_ok
    { b with lastEnqueuedReport := some e.pos, memoryBlock := m2
             reportsCount := b.reportsCount + 1 }
    (e.pos + 8) (.octet e.flags) (by simp)
    (by simp only [size_octet, hs2.1, hs1.1]; omega)
  obtain ⟨m4, hw4, hh4, hs4⟩ := write_ok
    { b with lastEnqueuedReport := some e.pos, memoryBlock := m3
             reportsCount := b.reportsCount + 1 }
    (e.pos + 12) (.entryLength e.len) (by simp)
    (by simp only [size_entryLength, hs3.1, hs2.1, hs1.1]; omega)
  obtain ⟨m5, hw5, hh5, hs5⟩ := writes_writeContents h
    { b with lastEnqueuedReport := some e.pos, memoryBlock := m4
             reportsCount := b.reportsCount + 1 } (e.pos + 24)
    (by simp only [hs4.1, hs3.1, hs2.1, hs1.1, ← hobjects]; omega)
  rw [← hobjects] at hh5 hs5
  simp only [size_next, size_entryId, size_octet, size_entryLength] at hs1 hs2 hs3 hs4
  refine ⟨m5, ?_, ⟨?_, ?_, ?_, ?_, hh5⟩, ?_⟩
  · rw [writeEntry_eq, ReportBuffer.writeNext, hw1, ok_bind, hw2, ok_bind, ← hflags, hw3, ok_bind,
      hw4, ok_bind, hw5]
    rfl
  · exact ((hh2.of_same hs3 (by simp)).of_same hs4 (by simp)).of_same hs5 (by simp)
  · exact (hh3.of_same hs4 (by simp)).of_same hs5 (by simp)
  · exact hh4.of_same hs5 (by simp)
  · exact (((hh1.of_same hs2 (by simp)).of_same hs3 (by simp)).of_same hs4 (by simp)).of_same hs5
      (by simp)
  · have hs1' : b.memoryBlock.SameOutside m1 e.pos (e.pos + e.len) :=
      hs1.mono (by omega) (by omega)
    refine ((((hs1'.trans (hs2.mono ?_ ?_)).trans (hs3.mono ?_ ?_)).trans (hs4.mono ?_ ?_)).trans
      (hs5.mono ?_ ?_)) <;> omega

end Iec61850.Reporting
