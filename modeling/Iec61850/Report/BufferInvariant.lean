import Iec61850.Report.Buffer

/-! The chain of entries in the report buffer: what it looks like after any sequence of
`enqueueReport`, `sendNextReportEntry` and `purgeBuf`. -/

namespace Iec61850.Reporting

open Machine Arena

@[simp] theorem size_entryId (id : UInt64) : Sized.size (BufferObject.entryId id) = 8 := rfl

@[simp] theorem size_octet (b : UInt8) : Sized.size (BufferObject.octet b) = 1 := rfl

@[simp] theorem size_entryLength (n : Nat) : Sized.size (BufferObject.entryLength n) = 4 := rfl

@[simp] theorem size_next (p : Option Nat) : Sized.size (BufferObject.next p) = 8 := rfl

@[simp] theorem size_value (v : MmsValue) :
    Sized.size (BufferObject.value v) = v.sizeInMemory := rfl

/-- An entry as it lies in the memory block. -/
structure Entry where
  pos : Nat
  entryId : UInt64
  flags : UInt8
  objects : List BufferObject

namespace Entry

def len (e : Entry) : Nat := sizeofReportBufferEntry + Block.sizeAll e.objects

instance : Placed Entry := ⟨Entry.pos, Entry.len⟩

@[simp] theorem placed_pos (e : Entry) : Placed.pos e = e.pos := rfl

@[simp] theorem placed_len (e : Entry) : Placed.len e = e.len := rfl

/-- Header and contents of the entry, with its `next` pointer. -/
structure Stored (m : Block BufferObject) (e : Entry) (next : Option Nat) : Prop where
  entryId : m.Holds e.pos (.entryId e.entryId)
  flags : m.Holds (e.pos + 8) (.octet e.flags)
  entryLength : m.Holds (e.pos + 12) (.entryLength e.len)
  next : m.Holds (e.pos + 16) (.next next)
  objects : m.HoldsAll (e.pos + 24) e.objects

theorem Stored.of_same {m m' : Block BufferObject} {e : Entry} {next : Option Nat} {lo hi : Nat}
    (h : e.Stored m next) (hs : m.SameOutside m' lo hi) (hd : e.pos + e.len ≤ lo ∨ hi ≤ e.pos) :
    e.Stored m' next := by
  simp only [len, sizeofReportBufferEntry] at hd
  exact ⟨h.entryId.of_same hs (by rw [size_entryId]; omega),
    h.flags.of_same hs (by rw [size_octet]; omega),
    h.entryLength.of_same hs (by rw [size_entryLength]; omega),
    h.next.of_same hs (by rw [size_next]; omega), h.objects.of_same hs (by omega)⟩

end Entry

/-- Where a chain begins that goes on at `rest`. -/
def firstPos (rest : Option Nat) : List Entry → Option Nat
  | [] => rest
  | e :: _ => some e.pos

/-- Entries that are linked by their `next` pointers, the last one to `rest`. -/
def Chain (m : Block BufferObject) (rest : Option Nat) : List Entry → Prop
  | [] => True
  | e :: es => e.Stored m (firstPos rest es) ∧ Chain m rest es

@[simp] theorem firstPos_append (rest : Option Nat) (es fs : List Entry) :
    firstPos rest (es ++ fs) = firstPos (firstPos rest fs) es := by
  cases es <;> rfl

theorem chain_append {m : Block BufferObject} {rest : Option Nat} {es fs : List Entry} :
    Chain m rest (es ++ fs) ↔ Chain m (firstPos rest fs) es ∧ Chain m rest fs := by
  induction es with
  | nil => simp [Chain]
  | cons e es ih => simp only [List.cons_append, Chain, firstPos_append, ih, and_assoc]

theorem Chain.of_same {m m' : Block BufferObject} {rest : Option Nat} {es : List Entry}
    {lo hi : Nat} (h : Chain m rest es) (hs : m.SameOutside m' lo hi)
    (hd : ∀ e ∈ es, e.pos + e.len ≤ lo ∨ hi ≤ e.pos) : Chain m' rest es := by
  induction es with
  | nil => trivial
  | cons e es ih =>
    exact ⟨h.1.of_same hs (hd e (by simp)), ih h.2 fun f hf => hd f (List.mem_cons_of_mem e hf)⟩

/-- The buffer without the pointer to its last entry and without the layout: what the
eviction loops keep. -/
structure Linked (b : ReportBuffer) (sent pending : List Entry) : Prop where
  chain : Chain b.memoryBlock none (sent ++ pending)
  oldestReport : b.oldestReport = firstPos none (sent ++ pending)
  nextToTransmit : b.nextToTransmit = firstPos none pending
  reportsCount : b.reportsCount = (sent ++ pending).length

/-- The buffer holds the entries that have been transmitted, and then those that have not. -/
structure Represents (b : ReportBuffer) (sent pending : List Entry) : Prop
    extends Linked b sent pending where
  lastEnqueuedReport : b.lastEnqueuedReport = (sent ++ pending).getLast?.map Entry.pos
  ring : Ring b.memoryBlock.size (sent ++ pending)

theorem readNext_of_stored {b : ReportBuffer} {e : Entry} {next : Option Nat}
    (h : e.Stored b.memoryBlock next) : b.readNext e.pos = .ok next := by
  rw [ReportBuffer.readNext, Block.read_of_holds h.next]
  rfl

theorem readEntryLength_of_stored {b : ReportBuffer} {e : Entry} {next : Option Nat}
    (h : e.Stored b.memoryBlock next) : b.readEntryLength e.pos = .ok e.len := by
  rw [ReportBuffer.readEntryLength, Block.read_of_holds h.entryLength]
  rfl

/-- Removing the oldest entry, which may be the next one to transmit. -/
theorem evictOldest_spec {b : ReportBuffer} {e : Entry} {es sent pending : List Entry}
    (h : Linked b sent pending) (he : sent ++ pending = e :: es)
    (hd : ∀ f ∈ es, f.pos ≠ e.pos) :
    ∃ b', b.evictOldest e.pos = .ok b' ∧ b'.memoryBlock = b.memoryBlock ∧
      b'.lastEnqueuedReport = b.lastEnqueuedReport ∧
      ∃ sent' pending', es = sent' ++ pending' ∧ sent' <:+ sent ∧ pending' <:+ pending ∧
        Linked b' sent' pending' := by
  obtain ⟨hchain, hold, hnext, hcount⟩ := h
  rw [he] at hchain hold hcount
  refine ⟨{ b with
    nextToTransmit := if b.nextToTransmit = some e.pos then firstPos none es
      else b.nextToTransmit
    oldestReport := firstPos none es
    reportsCount := b.reportsCount - 1 }, ?_, rfl, rfl, ?_⟩
  · rw [ReportBuffer.evictOldest, readNext_of_stored hchain.1]
    rfl
  cases sent with
  | nil =>
    rw [List.nil_append] at he
    subst he
    refine ⟨[], es, rfl, List.suffix_refl _, List.suffix_cons e es, hchain.2, rfl, ?_, ?_⟩
    · simp only [hnext, firstPos, if_true]
    · simp only [hcount, List.length_cons, List.nil_append]
      omega
  | cons s sent =>
    rw [List.cons_append] at he
    obtain ⟨rfl, rfl⟩ := List.cons.inj he
    refine ⟨sent, pending, rfl, List.suffix_cons s sent, List.suffix_refl _, hchain.2, rfl, ?_, ?_⟩
    · simp only [hnext]
      cases pending with
      | nil => simp [firstPos]
      | cons p pending =>
        have := hd p (by simp)
        simp [firstPos, this]
    · simp only [hcount, List.length_cons]
      omega

theorem evictWhile_spec (test : Nat → Bool) {fuel : Nat} {b : ReportBuffer}
    {sent pending : List Entry} (h : Linked b sent pending)
    (hd : ((sent ++ pending).map Entry.pos).Nodup) (hf : (sent ++ pending).length < fuel) :
    ∃ b', b.evictWhile test fuel = .ok b' ∧ b'.memoryBlock = b.memoryBlock ∧
      b'.lastEnqueuedReport = b.lastEnqueuedReport ∧
      ∃ sent' pending', (sent ++ pending).dropWhile (fun e => test e.pos) = sent' ++ pending' ∧
        sent' <:+ sent ∧ pending' <:+ pending ∧ Linked b' sent' pending' := by
  induction fuel generalizing b sent pending with
  | zero => omega
  | succ fuel ih =>
    cases he : sent ++ pending with
    | nil =>
      have hold : b.oldestReport = none := by rw [h.oldestReport, he]; rfl
      exact ⟨b, by rw [ReportBuffer.evictWhile, hold], rfl, rfl, sent, pending, by rw [he]; rfl,
        List.suffix_refl _, List.suffix_refl _, h⟩
    | cons e es =>
      have hold : b.oldestReport = some e.pos := by rw [h.oldestReport, he]; rfl
      rw [ReportBuffer.evictWhile, hold]
      cases ht : test e.pos with
      | false =>
        exact ⟨b, by simp only [ht]; rfl, rfl, rfl, sent, pending,
          by rw [List.dropWhile_cons_of_neg (by simp [ht]), he], List.suffix_refl _,
          List.suffix_refl _, h⟩
      | true =>
        rw [he] at hd hf
        rw [List.map_cons, List.nodup_cons] at hd
        obtain ⟨b1, hb1, hm1, hl1, sent1, pending1, he1, hs1, hp1, h1⟩ := evictOldest_spec h he
          fun f hf hpos => hd.1 (hpos ▸ List.mem_map_of_mem hf)
        obtain ⟨b2, hb2, hm2, hl2, sent2, pending2, he2, hs2, hp2, h2⟩ := ih h1
          (by rw [← he1]; exact hd.2) (by rw [← he1]; simpa using hf)
        refine ⟨b2, ?_, hm2.trans hm1, hl2.trans hl1, sent2, pending2, ?_, hs2.trans hs1,
          hp2.trans hp1, h2⟩
        · change (if test e.pos = true then _ else _) = _
          rw [if_pos ht, hb1]
          exact hb2
        · rw [List.dropWhile_cons_of_pos (by simpa using ht), he1, he2]

theorem Linked.chainLength {b : ReportBuffer} {sent pending : List Entry}
    (h : Linked b sent pending) : (sent ++ pending).length < b.fuel := by
  rw [ReportBuffer.fuel, h.reportsCount, Int.toNat_natCast]
  omega

theorem Entry.le_len (e : Entry) : 24 ≤ e.len := by
  simp only [Entry.len, sizeofReportBufferEntry]
  omega

theorem Entry.Stored.setNext {m : Block BufferObject} {e : Entry} {next : Option Nat}
    (h : e.Stored m next) (hb : e.pos + e.len ≤ m.size) (next' : Option Nat) :
    ∃ m', m.write (e.pos + 16) (.next next') = .ok m' ∧ e.Stored m' next' ∧
      m.SameOutside m' e.pos (e.pos + e.len) := by
  have hle := e.le_len
  obtain ⟨m', hw, hh, hs⟩ := m.write_eq (e.pos + 16) (BufferObject.next next')
    (by simp) (by rw [size_next]; omega)
  rw [size_next] at hs
  refine ⟨m', hw, ?_, hs.mono (by omega) (by omega)⟩
  exact ⟨h.entryId.of_same hs (by rw [size_entryId]; omega),
    h.flags.of_same hs (by rw [size_octet]; omega),
    h.entryLength.of_same hs (by rw [size_entryLength]; omega), hh, h.objects.of_same hs (by omega)⟩

/-- The chain goes on behind its last entry. -/
theorem Chain.setNext {m : Block BufferObject} {es : List Entry} {e : Entry}
    {rest : Option Nat} (h : Chain m rest (es ++ [e])) (hb : e.pos + e.len ≤ m.size)
    (ha : (es ++ [e]).Pairwise Apart) (rest' : Option Nat) :
    ∃ m', m.write (e.pos + 16) (.next rest') = .ok m' ∧ Chain m' rest' (es ++ [e]) ∧
      m'.size = m.size := by
  obtain ⟨hes, he, -⟩ := chain_append.mp h
  obtain ⟨m', hw, hstored, hs⟩ := he.setNext hb rest'
  refine ⟨m', hw, chain_append.mpr ⟨?_, hstored, trivial⟩, hs.1⟩
  refine hes.of_same hs ?_
  intro f hf
  exact (List.pairwise_append.mp ha).2.2 f hf e (by simp)

/-- The new position as `allocateEntry` leaves the buffer: the kept entries go on to it. -/
structure Allocated (b : ReportBuffer) (size pos : Nat) (sent pending : List Entry) : Prop where
  chain : Chain b.memoryBlock (some pos) (sent ++ pending)
  oldestReport : b.oldestReport.or (some pos) = firstPos (some pos) (sent ++ pending)
  nextToTransmit : b.nextToTransmit.or (some pos) = firstPos (some pos) pending
  reportsCount : b.reportsCount = (sent ++ pending).length
  blockSize : b.memoryBlock.size = size

theorem or_firstPos (pos : Nat) (es : List Entry) :
    (firstPos none es).or (some pos) = firstPos (some pos) es := by
  cases es <;> rfl

theorem Represents.getLast {b : ReportBuffer} {sent pending : List Entry}
    (h : Represents b sent pending) {last : Entry} (hl : (sent ++ pending).getLast? = some last) :
    b.lastEnqueuedReport = some last.pos ∧ b.readEntryLength last.pos = .ok last.len ∧
      last.pos + last.len ≤ b.memoryBlock.size := by
  obtain ⟨es, hes⟩ := List.getLast?_eq_some_iff.mp hl
  have hchain := h.chain
  rw [hes] at hchain
  refine ⟨?_, readEntryLength_of_stored (chain_append.mp hchain).2.1, ?_⟩
  · rw [h.lastEnqueuedReport, hl]
    rfl
  · exact (h.ring.bounds last (List.mem_of_getLast? hl)).1

/-- Linking the last entry to the new one, when some of the old entries have stayed. -/
theorem link_last {b : ReportBuffer} {sent pending sent' pending' : List Entry} {size : Nat}
    (hl : Linked b sent' pending') (hring : Ring size (sent ++ pending))
    (hsize : b.memoryBlock.size = size) (hsuffix : sent' ++ pending' <:+ sent ++ pending)
    {last : Entry} (hlast : (sent ++ pending).getLast? = some last) (pos : Nat) :
    ∃ b', b.writeNext last.pos (some pos) = .ok b' ∧ Allocated b' size pos sent' pending' := by
  have hbound : last.pos + last.len ≤ b.memoryBlock.size := by
    rw [hsize]
    exact (hring.bounds last (List.mem_of_getLast? hlast)).1
  suffices hm : ∃ m', b.memoryBlock.write (last.pos + 16) (.next (some pos)) = .ok m' ∧
      Chain m' (some pos) (sent' ++ pending') ∧ m'.size = b.memoryBlock.size by
    obtain ⟨m', hw, hc, hs⟩ := hm
    refine ⟨{ b with memoryBlock := m' }, ?_, ⟨hc, ?_, ?_, hl.reportsCount, hs.trans hsize⟩⟩
    · rw [ReportBuffer.writeNext, ReportBuffer.write, hw]
      rfl
    · simp only [hl.oldestReport, or_firstPos]
    · simp only [hl.nextToTransmit, or_firstPos]
  cases hk : (sent' ++ pending').getLast? with
  | none =>
    rw [List.getLast?_eq_none_iff.mp hk]
    have hle := last.le_len
    obtain ⟨m', hw, -, hs⟩ := b.memoryBlock.write_eq (last.pos + 16)
      (BufferObject.next (some pos)) (by simp) (by rw [size_next]; omega)
    exact ⟨m', hw, trivial, hs.1⟩
  | some e =>
    have he : e = last := by
      obtain ⟨pre, hpre⟩ := hsuffix
      rw [← hpre, List.getLast?_append, hk] at hlast
      exact Option.some.inj hlast
    obtain ⟨es, hes⟩ := List.getLast?_eq_some_iff.mp hk
    rw [he] at hes
    have hapart := hring.apart.sublist hsuffix.sublist
    have hchain := hl.chain
    rw [hes] at hapart hchain ⊢
    exact hchain.setNext hbound hapart (some pos)

theorem writeNext_ok (b : ReportBuffer) (pos : Nat) (h : pos + 24 ≤ b.memoryBlock.size)
    (next : Option Nat) :
    ∃ m', b.writeNext pos next = .ok { b with memoryBlock := m' } ∧
      m'.size = b.memoryBlock.size := by
  obtain ⟨m', hw, -, hs⟩ := b.memoryBlock.write_eq (pos + 16)
    (BufferObject.next next) (by simp) (by rw [size_next]; omega)
  refine ⟨m', ?_, hs.1⟩
  rw [ReportBuffer.writeNext, ReportBuffer.write, hw]
  rfl

/-- What `allocateEntry` has to show for the records that `place` keeps. -/
def Places (b : ReportBuffer) (sent pending : List Entry) (n : Nat)
    (result : Exec (ReportBuffer × Nat)) : Prop :=
  ∃ b' pos sent' pending', result = .ok (b', pos) ∧
    place b.memoryBlock.size n (sent ++ pending) = (sent' ++ pending', pos) ∧
    sent' <:+ sent ∧ pending' <:+ pending ∧
    Allocated b' b.memoryBlock.size pos sent' pending'

section

variable {b : ReportBuffer} {sent pending : List Entry} {n : Nat} {first last : Entry}

theorem allocateEntry_nil (h : Represents b sent pending) (he : sent ++ pending = []) :
    Places b sent pending n (b.allocateEntry n) := by
  have hlast : b.lastEnqueuedReport = none := by rw [h.lastEnqueuedReport, he]; rfl
  obtain ⟨rfl, rfl⟩ := List.append_eq_nil_iff.mp he
  refine ⟨{ b with oldestReport := some 0, nextToTransmit := some 0 }, 0, [], [], ?_, rfl,
    List.suffix_refl _, List.suffix_refl _, ⟨trivial, rfl, rfl, h.reportsCount, rfl⟩⟩
  rw [ReportBuffer.allocateEntry, hlast]
  rfl

/-- The new entry goes behind the last one, and nothing is evicted. -/
theorem allocateEntry_fits (h : Represents b sent pending)
    (hl : (sent ++ pending).getLast? = some last) (hf : (sent ++ pending).head? = some first)
    (hfit : last.pos + last.len + n ≤ b.memoryBlock.size) (horder : first.pos ≤ last.pos) :
    Places b sent pending n (do
      return (← b.writeNext last.pos (some (last.pos + last.len)), last.pos + last.len)) := by
  obtain ⟨b', hw, ha⟩ := link_last h.toLinked h.ring rfl (List.suffix_refl _) hl
    (last.pos + last.len)
  refine ⟨b', last.pos + last.len, sent, pending, by rw [hw]; rfl, ?_, List.suffix_refl _,
    List.suffix_refl _, ha⟩
  simp only [place, hf, hl, Entry.placed_pos, Entry.placed_len, if_pos hfit]
  rw [if_neg (by omega)]

theorem restartIfEmpty_spec (h : Linked b sent pending) (hn : 24 ≤ b.memoryBlock.size) :
    ∃ b', b.restartIfEmpty = .ok b' ∧ b'.memoryBlock.size = b.memoryBlock.size ∧
      (sent ++ pending = [] → b'.oldestReport = some 0 ∧ b'.nextToTransmit = none ∧
        b'.reportsCount = 0) ∧ (sent ++ pending ≠ [] → b' = b) := by
  cases hk : sent ++ pending with
  | nil =>
    have hold : b.oldestReport = none := by rw [h.oldestReport, hk]; rfl
    have hcount : b.reportsCount = 0 := by rw [h.reportsCount, hk]; rfl
    have hnext : b.nextToTransmit = none := by
      rw [h.nextToTransmit, (List.append_eq_nil_iff.mp hk).2]
      rfl
    obtain ⟨m', hw, hs⟩ := writeNext_ok { b with oldestReport := some 0 } 0
      (by simpa using hn) none
    refine ⟨{ b with oldestReport := some 0, memoryBlock := m' }, ?_, hs,
      fun _ => ⟨rfl, hnext, hcount⟩, fun hne => absurd rfl hne⟩
    rw [ReportBuffer.restartIfEmpty, if_pos hold]
    exact hw
  | cons e es =>
    have hold : b.oldestReport ≠ none := by
      rw [h.oldestReport, hk]
      simp [firstPos]
    exact ⟨b, if_neg hold, rfl, by simp, fun _ => rfl⟩

/-- The new entry goes to the beginning, and what is in its way is evicted. -/
theorem allocateEntry_wraps (h : Represents b sent pending) (hn : 24 ≤ n)
    (hle : n ≤ b.memoryBlock.size) (hl : (sent ++ pending).getLast? = some last)
    (hf : (sent ++ pending).head? = some first)
    (hfit : ¬ last.pos + last.len + n ≤ b.memoryBlock.size) (horder : first.pos < last.pos) :
    Places b sent pending n (do
      let b ← b.evictWhile (fun p => p < n) b.fuel
      let b ← b.restartIfEmpty
      return (← b.writeNext last.pos (some 0), 0)) := by
  obtain ⟨b1, he, hm, -, sent', pending', hd, hs, hp, h1⟩ :=
    evictWhile_spec (fun p => p < n) h.toLinked h.ring.nodup h.toLinked.chainLength
  have hsuffix : sent' ++ pending' <:+ sent ++ pending := hd ▸ List.dropWhile_suffix _
  have hplace : place b.memoryBlock.size n (sent ++ pending) = (sent' ++ pending', 0) := by
    simp only [place, hf, hl, Entry.placed_pos, Entry.placed_len, if_neg hfit]
    rw [if_neg (by omega), if_neg (by omega), ← hd]
  obtain ⟨b2, hr, hs2, hnil, hcons⟩ := restartIfEmpty_spec h1 (by rw [hm]; omega)
  rw [he, ok_bind, hr, ok_bind]
  by_cases hk : sent' ++ pending' = []
  · obtain ⟨hold, hnext, hcount⟩ := hnil hk
    obtain ⟨rfl, rfl⟩ := List.append_eq_nil_iff.mp hk
    have hbound := (h.ring.bounds last (List.mem_of_getLast? hl)).1
    have hlen := last.le_len
    simp only [Entry.placed_pos, Entry.placed_len] at hbound
    obtain ⟨m3, hw, hs3⟩ := writeNext_ok b2 last.pos (by rw [hs2, hm]; omega) (some 0)
    refine ⟨{ b2 with memoryBlock := m3 }, 0, [], [], by rw [hw]; rfl, hplace, hs, hp,
      ⟨trivial, ?_, ?_, hcount, ?_⟩⟩
    · simp only [hold]
      rfl
    · simp only [hnext]
      rfl
    · simp only [hs3, hs2, hm]
  · obtain rfl := hcons hk
    obtain ⟨b3, hw, ha⟩ := link_last h1 h.ring (by rw [hm]) hsuffix hl 0
    exact ⟨b3, 0, sent', pending', by rw [hw]; rfl, hplace, hs, hp, ha⟩

/-- Behind the last entry of the lower part, after evicting from the upper part. -/
theorem allocateEntry_lower (h : Represents b sent pending)
    (hl : (sent ++ pending).getLast? = some last) (hf : (sent ++ pending).head? = some first)
    (hfit : last.pos + last.len + n ≤ b.memoryBlock.size) (horder : last.pos < first.pos) :
    Places b sent pending n (do
      let b ← b.evictWhile (fun p => p < last.pos + last.len + n ∧ p ≠ 0) b.fuel
      return (← b.writeNext last.pos (some (last.pos + last.len)), last.pos + last.len)) := by
  obtain ⟨b1, he, hm, -, sent', pending', hd, hs, hp, h1⟩ :=
    evictWhile_spec (fun p => p < last.pos + last.len + n ∧ p ≠ 0) h.toLinked h.ring.nodup
      h.toLinked.chainLength
  have hsuffix : sent' ++ pending' <:+ sent ++ pending := hd ▸ List.dropWhile_suffix _
  obtain ⟨b2, hw, ha⟩ := link_last h1 h.ring (by rw [hm]) hsuffix hl (last.pos + last.len)
  refine ⟨b2, last.pos + last.len, sent', pending', by rw [he, ok_bind, hw]; rfl, ?_, hs, hp, ha⟩
  simp only [place, hf, hl, Entry.placed_pos, Entry.placed_len, if_pos hfit, if_pos horder]
  rw [← hd]

/-- The upper part is evicted, and what is in the way of the new entry in the lower one. -/
theorem allocateEntry_restarts (h : Represents b sent pending)
    (hl : (sent ++ pending).getLast? = some last) (hf : (sent ++ pending).head? = some first)
    (hfit : ¬ last.pos + last.len + n ≤ b.memoryBlock.size) (horder : last.pos < first.pos) :
    Places b sent pending n (do
      let b ← b.evictWhile (fun p => 0 < p) b.fuel
      let b ← b.evictWhile (fun p => p < n) b.fuel
      return (← b.writeNext last.pos (some 0), 0)) := by
  obtain ⟨b1, he1, hm1, -, sent1, pending1, hd1, hs1, hp1, h1⟩ :=
    evictWhile_spec (fun p => 0 < p) h.toLinked h.ring.nodup h.toLinked.chainLength
  have hsuffix1 : sent1 ++ pending1 <:+ sent ++ pending := hd1 ▸ List.dropWhile_suffix _
  have hnodup : ((sent1 ++ pending1).map Entry.pos).Nodup :=
    h.ring.nodup.sublist (hsuffix1.sublist.map _)
  obtain ⟨b2, he2, hm2, -, sent2, pending2, hd2, hs2, hp2, h2⟩ :=
    evictWhile_spec (fun p => p < n) h1 hnodup h1.chainLength
  have hsuffix2 : sent2 ++ pending2 <:+ sent1 ++ pending1 := hd2 ▸ List.dropWhile_suffix _
  obtain ⟨b3, hw, ha⟩ := link_last h2 h.ring (by rw [hm2, hm1]) (hsuffix2.trans hsuffix1) hl 0
  refine ⟨b3, 0, sent2, pending2, by rw [he1, ok_bind, he2, ok_bind, hw]; rfl, ?_, hs2.trans hs1,
    hp2.trans hp1, ha⟩
  simp only [place, hf, hl, Entry.placed_pos, Entry.placed_len, if_neg hfit, if_pos horder]
  rw [if_neg (by omega), hd1, hd2]

/-- With one entry the pointers to the oldest and the last one are the same. -/
theorem allocateEntry_single (h : Represents b sent pending) (hn : 24 ≤ n)
    (hle : n ≤ b.memoryBlock.size) (hl : (sent ++ pending).getLast? = some last)
    (hf : (sent ++ pending).head? = some first) (hone : last.pos = first.pos) :
    b.reportsCount = 1 ∧
    (¬ last.pos + last.len + n ≤ b.memoryBlock.size → Places b sent pending n (do
      let b ← ReportBuffer.writeNext { b with reportsCount := 0, oldestReport := some 0 } 0 none
      return ({ b with nextToTransmit := none }, 0))) := by
  have hsingle : (sent ++ pending).length = 1 := by
    cases hes : sent ++ pending with
    | nil => simp [hes] at hf
    | cons e es =>
      rw [hes] at hf hl
      obtain rfl := Option.some.inj hf
      cases es with
      | nil => rfl
      | cons f fs =>
        have hnodup := h.ring.nodup
        rw [hes, List.map_cons, List.nodup_cons] at hnodup
        rw [List.getLast?_cons_cons] at hl
        exact absurd (List.mem_map.mpr ⟨last, List.mem_of_getLast? hl, hone⟩) hnodup.1
  refine ⟨by rw [h.reportsCount, hsingle]; rfl, ?_⟩
  intro hfit
  obtain ⟨m', hw, hs⟩ := writeNext_ok { b with reportsCount := 0, oldestReport := some 0 }
    0 (by simp only; omega) none
  refine ⟨{ b with reportsCount := 0, oldestReport := some 0, nextToTransmit := none
                   memoryBlock := m' }, 0, [], [], by rw [hw]; rfl, ?_, List.nil_suffix,
    List.nil_suffix, ⟨trivial, rfl, rfl, rfl, hs⟩⟩
  simp only [place, hf, hl, Entry.placed_pos, Entry.placed_len, if_neg hfit, if_pos hone]
  rfl

theorem allocateEntry_spec (h : Represents b sent pending) (hn : 24 ≤ n)
    (hle : n ≤ b.memoryBlock.size) : Places b sent pending n (b.allocateEntry n) := by
  cases hl : (sent ++ pending).getLast? with
  | none => exact allocateEntry_nil h (List.getLast?_eq_none_iff.mp hl)
  | some last =>
    obtain ⟨first, hf⟩ : ∃ first, (sent ++ pending).head? = some first :=
      ⟨_, List.head?_eq_some_head (by intro he; simp [he] at hl)⟩
    obtain ⟨hlast, hlen, -⟩ := h.getLast hl
    have hold : b.oldestReport = some first.pos := by
      rw [h.oldestReport]
      cases hes : sent ++ pending with
      | nil => simp [hes] at hf
      | cons e es =>
        rw [hes] at hf
        obtain rfl := Option.some.inj hf
        rfl
    rw [ReportBuffer.allocateEntry, hlast]
    simp only [hold, hlen, ok_bind]
    by_cases hone : last.pos = first.pos
    · obtain ⟨hcount, hover⟩ := allocateEntry_single h hn hle hl hf hone
      rw [if_pos hone, if_neg (not_not.mpr hcount)]
      by_cases hfit : last.pos + last.len + n ≤ b.memoryBlock.size
      · have hsame : (if b.nextToTransmit = some first.pos then some last.pos
            else b.nextToTransmit) = b.nextToTransmit := by
          split
          case isTrue hnext => rw [hnext, hone]
          case isFalse => rfl
        have hb : (⟨b.memoryBlock, b.reportsCount, some last.pos, some last.pos,
            if b.nextToTransmit = some first.pos then some last.pos else b.nextToTransmit⟩ :
            ReportBuffer) = b :=
          ReportBuffer.ext rfl rfl (by rw [hold, hone]) hlast.symm hsame
        rw [if_neg (by omega), hb]
        exact allocateEntry_fits h hl hf hfit hone.ge
      · rw [if_pos (by omega)]
        simpa only [hlast] using hover hfit
    · rw [if_neg hone]
      by_cases horder : first.pos < last.pos
      · rw [if_pos horder]
        by_cases hfit : last.pos + last.len + n ≤ b.memoryBlock.size
        · rw [if_neg (by omega)]
          exact allocateEntry_fits h hl hf hfit horder.le
        · rw [if_pos (by omega)]
          exact allocateEntry_wraps h hn hle hl hf hfit horder
      · have hbefore : last.pos < first.pos := by omega
        rw [if_neg horder]
        by_cases hfit : last.pos + last.len + n ≤ b.memoryBlock.size
        · rw [if_neg (by omega)]
          exact allocateEntry_lower h hl hf hfit hbefore
        · rw [if_pos (by omega)]
          exact allocateEntry_restarts h hl hf hfit hbefore

end

end Iec61850.Reporting
