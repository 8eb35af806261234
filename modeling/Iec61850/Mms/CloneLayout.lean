import Iec61850.Mms.Clone
import Iec61850.Mms.Elements
import Iec61850.Lib.Block

/-! The three functions that copy values (`mms_value.c`): the room that is counted, the copy in a
buffer with the pointers in it, and the copy on the heap. -/

namespace Machine.Block

variable {α : Type} [Sized α] {b b' : Block α}

theorem Holds.unique {pos : Nat} {a c : α} (h : b.Holds pos a) (h' : b.Holds pos c) : a = c := by
  have hcell := h.2 pos le_rfl (Nat.lt_add_of_pos_right h.1)
  rw [h'.2 pos le_rfl (Nat.lt_add_of_pos_right h'.1)] at hcell
  exact (Prod.mk.inj (Option.some.inj hcell)).2.symm

/-- Objects that lie one behind the other, where `own` holds of every address. -/
structure HoldsIn (b : Block α) (own : Nat → Prop) (pos : Nat) (as : List α) : Prop where
  holds : b.HoldsAll pos as
  within : ∀ p, pos ≤ p → p < pos + sizeAll as → own p

theorem HoldsAll.of_agree {pos : Nat} {as : List α} (h : b.HoldsAll pos as)
    (hs : ∀ p, pos ≤ p → p < pos + sizeAll as → b'.cell p = b.cell p) : b'.HoldsAll pos as := by
  induction as generalizing pos with
  | nil => trivial
  | cons a as ih =>
    rw [sizeAll_cons] at hs
    refine ⟨⟨h.1.1, fun p hlo hhi => ?_⟩, ih h.2 fun p hlo hhi => hs p (by omega) (by omega)⟩
    rw [hs p hlo (by omega)]
    exact h.1.2 p hlo hhi

theorem HoldsIn.transfer {own own' : Nat → Prop} {pos : Nat} {as : List α}
    (h : b.HoldsIn own pos as) (hs : ∀ p, own p → own' p ∧ b'.cell p = b.cell p) :
    b'.HoldsIn own' pos as where
  holds := h.holds.of_agree fun p hlo hhi => (hs p (h.within p hlo hhi)).2
  within := fun p hlo hhi => (hs p (h.within p hlo hhi)).1

theorem HoldsIn.head {own : Nat → Prop} {pos : Nat} {a : α} {as : List α}
    (h : b.HoldsIn own pos (a :: as)) : b.Holds pos a := h.holds.1

theorem HoldsIn.tail {own : Nat → Prop} {pos : Nat} {a : α} {as : List α}
    (h : b.HoldsIn own pos (a :: as)) : b.HoldsIn own (pos + Sized.size a) as := by
  refine ⟨h.holds.2, fun p hlo hhi => h.within p (by omega) ?_⟩
  rw [sizeAll_cons]
  omega

end Machine.Block

namespace Iec61850.MmsValue

open Machine

/-- What the union of an `MmsValue` holds, apart from its pointer. -/
inductive Kind
  | array (size : Nat)
  | structured (size : Nat)
  | boolean (b : Bool)
  | bitString (size : Nat)
  | integer
  | unsigned
  | float (exponentWidth : UInt8) (formatWidth : Nat)
  | octetString (size maxSize : Nat)
  | visibleString
  | binaryTime (t : BinaryTime)
  | mmsString
  | utcTime (t : UtcTime)
  | dataAccessError (e : MmsDataAccessError)

def kind : MmsValue → Kind
  | .array vs => .array vs.length
  | .structured vs => .structured vs.length
  | .boolean b => .boolean b
  | .bitString b => .bitString b.size
  | .integer _ => .integer
  | .unsigned _ => .unsigned
  | .float f => .float f.exponentWidth f.formatWidth
  | .octetString o => .octetString o.size o.maxSize
  | .visibleString _ => .visibleString
  | .binaryTime t => .binaryTime t
  | .mmsString _ => .mmsString
  | .utcTime t => .utcTime t
  | .dataAccessError e => .dataAccessError e

/-- The objects that values are made of in memory. -/
inductive Piece
  | value (kind : Kind) (pointer : Option Nat)
  | pointer (p : Nat)
  | primitive (size maxSize octets : Nat)
  | octet (b : UInt8)

instance : Sized Piece where
  size
    | .value _ _ => sizeofMmsValue
    | .pointer _ => sizeofPointer
    | .primitive _ _ _ => sizeofAsn1PrimitiveValue
    | .octet _ => 1

def readValueAt (m : Block Piece) (self : Nat) : Exec (Kind × Option Nat) := do
  match ← m.read self with
  | .value kind pointer => return (kind, pointer)
  | _ => .error .notThere

def readPointer (m : Block Piece) (pos : Nat) : Exec Nat := do
  match ← m.read pos with
  | .pointer p => return p
  | _ => .error .notThere

def readPrimitive (m : Block Piece) (pos : Nat) : Exec (Nat × Nat × Nat) := do
  match ← m.read pos with
  | .primitive size maxSize octets => return (size, maxSize, octets)
  | _ => .error .notThere

def readOctet (m : Block Piece) (pos : Nat) : Exec UInt8 := do
  match ← m.read pos with
  | .octet b => return b
  | _ => .error .notThere

def notNull : Option Nat → Exec Nat
  | some p => .ok p
  | none => .error .nullPointer

def readOctetsAt (m : Block Piece) (pos : Nat) : Nat → Exec (List UInt8)
  | 0 => .ok []
  | n + 1 => do
    let b ← readOctet m pos
    return b :: (← readOctetsAt m (pos + 1) n)

/-- The octets before the terminating zero. -/
def readString (m : Block Piece) : Nat → Nat → Exec (List UInt8)
  | 0, _ => .error .outOfFuel
  | fuel + 1, pos => do
    let b ← readOctet m pos
    if b = 0 then return [] else return b :: (← readString m fuel (pos + 1))

def writeOctets (m : Block Piece) (pos : Nat) : List UInt8 → Exec (Block Piece)
  | [] => .ok m
  | b :: bs => do writeOctets (← m.write pos (.octet b)) (pos + 1) bs

def memcpy (m : Block Piece) (dest src n : Nat) : Exec (Block Piece) := do
  writeOctets m dest (← readOctetsAt m src n)

/-- The loop over the components: the pointers go to `copies`, the values to
`destinationAddress`. -/
def cloneComponentsLoop (clone : Block Piece → Nat → Nat → Exec (Block Piece × Nat)) :
    Nat → Nat → Nat → Block Piece → Nat → Exec (Block Piece × Nat)
  | 0, _, _, m, destinationAddress => .ok (m, destinationAddress)
  | n + 1, components, copies, m, destinationAddress => do
    let m ← m.write copies (.pointer destinationAddress)
    let component ← readPointer m components
    let (m, destinationAddress) ← clone m component destinationAddress
    cloneComponentsLoop clone n (components + sizeofPointer) (copies + sizeofPointer) m
      destinationAddress

/-- Arrays and structures. -/
def cloneComponentsInMemory (clone : Block Piece → Nat → Nat → Exec (Block Piece × Nat))
    (m : Block Piece) (newValue : Nat) (kind : Kind) (pointer : Option Nat)
    (destinationAddress size : Nat) : Exec (Block Piece × Nat) := do
  let m ← m.write newValue (.value kind (some destinationAddress))
  cloneComponentsLoop clone size (← notNull pointer) destinationAddress m
    (destinationAddress + sizeofPointer * size)

/-- Bit strings, floating point numbers and octet strings. -/
def cloneOctets (m : Block Piece) (newValue : Nat) (kind : Kind) (pointer : Option Nat)
    (destinationAddress n : Nat) : Exec (Block Piece × Nat) := do
  let m ← memcpy m destinationAddress (← notNull pointer) n
  let m ← m.write newValue (.value kind (some destinationAddress))
  return (m, destinationAddress + n)

/-- Integers: the new value still points to the integer that is copied. -/
def cloneInteger (m : Block Piece) (pointer : Option Nat) (destinationAddress : Nat) :
    Exec (Block Piece × Nat) := do
  let (size, maxSize, octets) ← readPrimitive m (← notNull pointer)
  let newOctets := destinationAddress + sizeofAsn1PrimitiveValue
  let m ← m.write destinationAddress (.primitive size maxSize newOctets)
  let m ← memcpy m newOctets octets maxSize
  return (m, newOctets + maxSize)

def cloneString (m : Block Piece) (newValue : Nat) (kind : Kind) (pointer : Option Nat)
    (destinationAddress : Nat) : Exec (Block Piece × Nat) := do
  let m ← m.write newValue (.value kind (some destinationAddress))
  let string ← readString m m.size (← notNull pointer)
  let m ← writeOctets m destinationAddress (string ++ [0])
  return (m, destinationAddress + (string.length + 1))

/-- `MmsValue_cloneToBuffer` of the value at `self`. -/
def cloneToBufferInMemory : Nat → Block Piece → Nat → Nat → Exec (Block Piece × Nat)
  | 0, _, _, _ => .error .outOfFuel
  | fuel + 1, m, self, newValue => do
    let (kind, pointer) ← readValueAt m self
    let m ← m.write newValue (.value kind pointer)
    let destinationAddress := newValue + sizeofMmsValue
    match kind with
    | .array size =>
      cloneComponentsInMemory (cloneToBufferInMemory fuel) m newValue kind pointer
        destinationAddress size
    | .structured size =>
      cloneComponentsInMemory (cloneToBufferInMemory fuel) m newValue kind pointer
        destinationAddress size
    | .bitString size =>
      cloneOctets m newValue kind pointer destinationAddress (BerEncoder.bitStringByteSize size)
    | .integer => cloneInteger m pointer destinationAddress
    | .unsigned => cloneInteger m pointer destinationAddress
    | .float _ formatWidth =>
      cloneOctets m newValue kind pointer destinationAddress (formatWidth / 8)
    | .octetString _ maxSize => cloneOctets m newValue kind pointer destinationAddress maxSize
    | .visibleString => cloneString m newValue kind pointer destinationAddress
    | .mmsString => cloneString m newValue kind pointer destinationAddress
    | _ => return (m, destinationAddress)

/-- The octets behind the pointer of a value. -/
def octetsOf : MmsValue → Option (List UInt8)
  | .bitString b => some b.buf
  | .float f => some f.buf
  | .octetString o => some o.buf
  | .visibleString s => s.map (·.octets ++ [0])
  | .mmsString s => s.map (·.octets ++ [0])
  | _ => none

/-- What lies behind the pointer of a value without components. -/
def PointsTo (m : Block Piece) (own integers : Nat → Prop) (pointer : Option Nat) (v : MmsValue) :
    Prop :=
  match v.integerOf with
  | some w => ∃ p octets, pointer = some p ∧
      m.HoldsIn integers p [.primitive w.size w.maxSize octets] ∧
      m.HoldsIn integers octets (w.octets.map .octet)
  | none =>
    match v.octetsOf with
    | some octets => ∃ p, pointer = some p ∧ m.HoldsIn own p (octets.map .octet)
    | none => pointer = none

mutual

/-- The value can be read at `self`; its integers lie at addresses where `integers` holds, and all
the rest where `own` does. -/
def LaidOut (m : Block Piece) (own integers : Nat → Prop) : Nat → MmsValue → Prop
  | self, .array vs => ∃ components ps,
      m.HoldsIn own self [.value (.array vs.length) (some components)] ∧
      m.HoldsIn own components (ps.map .pointer) ∧ LaidOutAll m own integers ps vs
  | self, .structured vs => ∃ components ps,
      m.HoldsIn own self [.value (.structured vs.length) (some components)] ∧
      m.HoldsIn own components (ps.map .pointer) ∧ LaidOutAll m own integers ps vs
  | self, v => ∃ pointer,
      m.HoldsIn own self [.value v.kind pointer] ∧ PointsTo m own integers pointer v

def LaidOutAll (m : Block Piece) (own integers : Nat → Prop) : List Nat → List MmsValue → Prop
  | [], [] => True
  | p :: ps, v :: vs => LaidOut m own integers p v ∧ LaidOutAll m own integers ps vs
  | _, _ => False

end

/-- The addresses of an interval, and those outside of it. -/
def Inside (lo hi p : Nat) : Prop := lo ≤ p ∧ p < hi

def Outside (lo hi p : Nat) : Prop := p < lo ∨ hi ≤ p

section

variable {m m' : Block Piece} {own own' integers integers' : Nat → Prop}

theorem sizeAll_octet (octets : List UInt8) :
    Block.sizeAll (octets.map Piece.octet) = octets.length := by
  induction octets with
  | nil => rfl
  | cons b bs ih =>
    rw [List.map_cons, Block.sizeAll_cons, ih, List.length_cons, Nat.add_comm]
    rfl

theorem sizeAll_pointer (ps : List Nat) :
    Block.sizeAll (ps.map Piece.pointer) = sizeofPointer * ps.length := by
  induction ps with
  | nil => rfl
  | cons p ps ih =>
    rw [List.map_cons, Block.sizeAll_cons, ih, List.length_cons, Nat.mul_succ, Nat.add_comm]
    rfl

theorem LaidOutAll.length_eq {ps : List Nat} {vs : List MmsValue}
    (h : LaidOutAll m own integers ps vs) : ps.length = vs.length := by
  induction vs generalizing ps with
  | nil =>
    cases ps with
    | nil => rfl
    | cons p ps => exact h.elim
  | cons v vs ih =>
    cases ps with
    | nil => exact h.elim
    | cons p ps => exact congrArg (· + 1) (ih h.2)

theorem PointsTo.transfer {pointer : Option Nat} {v : MmsValue}
    (h : PointsTo m own integers pointer v) (ho : ∀ p, own p → own' p ∧ m'.cell p = m.cell p)
    (hi : ∀ p, integers p → integers' p ∧ m'.cell p = m.cell p) :
    PointsTo m' own' integers' pointer v := by
  unfold PointsTo at h ⊢
  split at h
  · obtain ⟨p, octets, hp, hprimitive, hoctets⟩ := h
    exact ⟨p, octets, hp, hprimitive.transfer hi, hoctets.transfer hi⟩
  · split at h
    · obtain ⟨p, hp, hoctets⟩ := h
      exact ⟨p, hp, hoctets.transfer ho⟩
    · exact h

theorem LaidOutAll.transfer {ps : List Nat} {vs : List MmsValue}
    (ih : ∀ v ∈ vs, ∀ p, LaidOut m own integers p v → LaidOut m' own' integers' p v)
    (h : LaidOutAll m own integers ps vs) : LaidOutAll m' own' integers' ps vs := by
  induction vs generalizing ps with
  | nil => cases ps <;> exact h
  | cons v vs ihvs =>
    cases ps with
    | nil => exact h
    | cons p ps =>
      refine ⟨ih v List.mem_cons_self p h.1, ihvs ?_ h.2⟩
      intro w hw
      exact ih w (List.mem_cons_of_mem v hw)

/-- A value stays where it is while nothing is written over it. -/
theorem LaidOut.transfer {self : Nat} {v : MmsValue} (h : LaidOut m own integers self v)
    (ho : ∀ p, own p → own' p ∧ m'.cell p = m.cell p)
    (hi : ∀ p, integers p → integers' p ∧ m'.cell p = m.cell p) :
    LaidOut m' own' integers' self v := by
  induction v using tree_induction generalizing self with
  | array vs ih | structured vs ih =>
    obtain ⟨components, ps, hself, hps, hvs⟩ := h
    exact ⟨components, ps, hself.transfer ho, hps.transfer ho,
      hvs.transfer fun v hv p hp => ih v hv hp⟩
  | leaf v hv =>
    cases v with
    | array | structured => exact hv.elim
    | _ =>
      obtain ⟨pointer, hself, hp⟩ := h
      exact ⟨pointer, hself.transfer ho, hp.transfer ho hi⟩

end

section

variable {m : Block Piece}

theorem readValueAt_eq {self : Nat} {kind : Kind} {pointer : Option Nat}
    (h : m.Holds self (.value kind pointer)) : readValueAt m self = .ok (kind, pointer) := by
  rw [readValueAt, Block.read_of_holds h]
  rfl

theorem readPointer_eq {pos p : Nat} (h : m.Holds pos (.pointer p)) :
    readPointer m pos = .ok p := by
  rw [readPointer, Block.read_of_holds h]
  rfl

theorem readPrimitive_eq {pos size maxSize octets : Nat}
    (h : m.Holds pos (.primitive size maxSize octets)) :
    readPrimitive m pos = .ok (size, maxSize, octets) := by
  rw [readPrimitive, Block.read_of_holds h]
  rfl

theorem readOctet_eq {pos : Nat} {b : UInt8} (h : m.Holds pos (.octet b)) :
    readOctet m pos = .ok b := by
  rw [readOctet, Block.read_of_holds h]
  rfl

theorem readOctetsAt_eq {pos : Nat} {octets : List UInt8}
    (h : m.HoldsAll pos (octets.map .octet)) :
    readOctetsAt m pos octets.length = .ok octets := by
  induction octets generalizing pos with
  | nil => rfl
  | cons b bs ih =>
    have hbs : m.HoldsAll (pos + 1) (bs.map .octet) := h.2
    rw [List.length_cons, readOctetsAt, readOctet_eq h.1, ok_bind, ih hbs]
    rfl

theorem readString_eq {pos : Nat} (fuel : Nat) {octets : List UInt8} (hz : 0 ∉ octets)
    (h : m.HoldsAll pos ((octets ++ [0]).map .octet)) (hf : octets.length < fuel) :
    readString m fuel pos = .ok octets := by
  induction octets generalizing pos fuel with
  | nil =>
    obtain ⟨fuel, rfl⟩ := Nat.exists_eq_succ_of_ne_zero (Nat.ne_of_gt hf)
    rw [readString, readOctet_eq h.1, ok_bind, if_pos rfl]
    rfl
  | cons b bs ih =>
    obtain ⟨fuel, rfl⟩ := Nat.exists_eq_succ_of_ne_zero (Nat.ne_of_gt (Nat.zero_lt_of_lt hf))
    have hbs : m.HoldsAll (pos + 1) ((bs ++ [0]).map .octet) := h.2
    rw [List.mem_cons, not_or] at hz
    rw [readString, readOctet_eq h.1, ok_bind, if_neg (Ne.symm hz.1),
      ih fuel hz.2 hbs (Nat.lt_of_succ_lt_succ hf)]
    rfl

theorem writeOctets_eq (m : Block Piece) (pos : Nat) (octets : List UInt8)
    (h : pos + octets.length ≤ m.size) :
    ∃ m', writeOctets m pos octets = .ok m' ∧ m'.HoldsAll pos (octets.map .octet) ∧
      m.SameOutside m' pos (pos + octets.length) := by
  induction octets generalizing m pos with
  | nil => exact ⟨m, rfl, trivial, .refl _ _ _⟩
  | cons b bs ih =>
    rw [List.length_cons] at h
    have hsize : Sized.size (Piece.octet b) = 1 := rfl
    obtain ⟨m1, hw, hb, hs⟩ := m.write_eq pos (.octet b) Nat.one_pos (by rw [hsize]; omega)
    rw [hsize] at hs
    obtain ⟨m', hws, hbs, hs'⟩ := ih m1 (pos + 1) (by rw [hs.1]; omega)
    refine ⟨m', by rw [writeOctets, hw, ok_bind, hws], ⟨hb.of_same hs' ?_, hbs⟩, ?_⟩
    · exact .inl le_rfl
    · rw [List.length_cons]
      exact (hs.mono le_rfl (by omega)).trans (hs'.mono (by omega) (by omega))

theorem memcpy_eq (dest : Nat) {src : Nat} {octets : List UInt8}
    (hsrc : m.HoldsAll src (octets.map .octet)) (h : dest + octets.length ≤ m.size) :
    ∃ m', memcpy m dest src octets.length = .ok m' ∧ m'.HoldsAll dest (octets.map .octet) ∧
      m.SameOutside m' dest (dest + octets.length) := by
  rw [memcpy, readOctetsAt_eq hsrc, ok_bind]
  exact writeOctets_eq m dest octets h

end

/-- The value has been copied to `dest`: `n` octets have been written, and the copy's integers lie
where `integers` holds. -/
structure Copied (m m' : Block Piece) (dest n : Nat) (integers : Nat → Prop) (v : MmsValue) :
    Prop where
  same : m.SameOutside m' dest (dest + n)
  laidOut : LaidOut m' (Inside dest (dest + n)) integers dest v

theorem laidOut_leaf {m : Block Piece} {own integers : Nat → Prop} {self : Nat} {v : MmsValue}
    (h : v.IsLeaf) : LaidOut m own integers self v ↔
      ∃ pointer, m.HoldsIn own self [.value v.kind pointer] ∧
        PointsTo m own integers pointer v := by
  cases v with
  | array | structured => exact h.elim
  | _ => exact Iff.rfl

theorem HoldsIn.of_outside {m m' : Block Piece} {lo hi dest n src : Nat} {as : List Piece}
    (h : m.HoldsIn (Outside lo hi) src as) (hs : m.SameOutside m' dest (dest + n)) (hlo : lo ≤ dest)
    (hhi : dest + n ≤ hi) : m'.HoldsIn (Outside lo hi) src as :=
  h.transfer fun p hp => ⟨hp, hs.2 p (hp.imp (Nat.lt_of_lt_of_le · hlo) (Nat.le_trans hhi ·))⟩

theorem holdsIn_inside {m : Block Piece} {lo hi pos : Nat} {as : List Piece}
    (h : m.HoldsAll pos as) (hlo : lo ≤ pos) (hhi : pos + Block.sizeAll as ≤ hi) :
    m.HoldsIn (Inside lo hi) pos as where
  holds := h
  within := fun _ hp hq => ⟨hlo.trans hp, Nat.lt_of_lt_of_le hq hhi⟩

theorem write_value (m : Block Piece) (pos : Nat) (kind : Kind) (pointer : Option Nat)
    (h : pos + sizeofMmsValue ≤ m.size) :
    ∃ m', m.write pos (.value kind pointer) = .ok m' ∧ m'.Holds pos (.value kind pointer) ∧
      m.SameOutside m' pos (pos + sizeofMmsValue) :=
  m.write_eq pos (.value kind pointer) (show 0 < sizeofMmsValue by decide) h

section

variable {m : Block Piece} {lo hi dest : Nat} {v : MmsValue} {pointer : Option Nat}

/-- Values that need no more room than their own. -/
theorem laidOut_plain (lo hi : Nat) (hv : v.IsLeaf) (hn : v.integerOf = none)
    (ho : v.octetsOf = none)
    (h : m.Holds dest (.value v.kind none)) :
    LaidOut m (Inside dest (dest + sizeofMmsValue)) (Outside lo hi) dest v := by
  refine (laidOut_leaf hv).mpr ⟨none, holdsIn_inside ⟨h, trivial⟩ le_rfl le_rfl, ?_⟩
  simp only [PointsTo, hn, ho]

/-- A copy with octets behind it. -/
theorem laidOut_octets (lo hi : Nat) {octets : List UInt8} (hv : v.IsLeaf) (hn : v.integerOf = none)
    (ho : v.octetsOf = some octets)
    (h : m.Holds dest (.value v.kind (some (dest + sizeofMmsValue))))
    (hs : m.HoldsAll (dest + sizeofMmsValue) (octets.map .octet)) :
    LaidOut m (Inside dest (dest + (sizeofMmsValue + octets.length))) (Outside lo hi) dest v := by
  refine (laidOut_leaf hv).mpr ⟨_, holdsIn_inside ⟨h, trivial⟩ le_rfl ?_, ?_⟩
  · exact Nat.add_le_add_left (Nat.le_add_right _ _) _
  · simp only [PointsTo, hn, ho]
    refine ⟨_, rfl, holdsIn_inside hs (Nat.le_add_right _ _) ?_⟩
    rw [sizeAll_octet, Nat.add_assoc]

theorem cloneOctets_copied {octets : List UInt8} {n : Nat} (hv : v.IsLeaf)
    (hn : v.integerOf = none) (ho : v.octetsOf = some octets) (hlen : octets.length = n)
    (hsrc : PointsTo m (Outside lo hi) (Outside lo hi) pointer v)
    (hhi : dest + (sizeofMmsValue + n) ≤ m.size) :
    ∃ m', cloneOctets m dest v.kind pointer (dest + sizeofMmsValue) n =
        .ok (m', dest + (sizeofMmsValue + n)) ∧
      Copied m m' dest (sizeofMmsValue + n) (Outside lo hi) v := by
  subst hlen
  simp only [PointsTo, hn, ho] at hsrc
  obtain ⟨p, rfl, hoctets⟩ := hsrc
  obtain ⟨m1, h1, hholds, hs1⟩ := memcpy_eq (dest + sizeofMmsValue) hoctets.holds (by omega)
  obtain ⟨m2, h2, hvalue, hs2⟩ := write_value m1 dest v.kind (some (dest + sizeofMmsValue))
    (by rw [hs1.1]; omega)
  have hholds2 := hholds.of_same hs2 (.inr le_rfl)
  refine ⟨m2, ?_, ?_, laidOut_octets lo hi hv hn ho hvalue hholds2⟩
  · rw [cloneOctets, notNull, ok_bind, h1, ok_bind, h2, ok_bind, Nat.add_assoc]
    rfl
  · exact (hs1.mono (by omega) (by omega)).trans (hs2.mono le_rfl (by omega))

theorem cloneString_copied {string : CString} (hv : v.IsLeaf) (hn : v.integerOf = none)
    (ho : v.octetsOf = some (string.octets ++ [0])) (hlo : lo ≤ dest)
    (hsrc : PointsTo m (Outside lo hi) (Outside lo hi) pointer v)
    (hhi : dest + (sizeofMmsValue + (string.octets.length + 1)) ≤ hi) (hm : hi ≤ m.size) :
    ∃ m', cloneString m dest v.kind pointer (dest + sizeofMmsValue) =
        .ok (m', dest + (sizeofMmsValue + (string.octets.length + 1))) ∧
      Copied m m' dest (sizeofMmsValue + (string.octets.length + 1)) (Outside lo hi) v := by
  simp only [PointsTo, hn, ho] at hsrc
  obtain ⟨p, rfl, hoctets⟩ := hsrc
  have hlen : (string.octets ++ [0]).length = string.octets.length + 1 := List.length_append
  obtain ⟨m1, h1, hvalue, hs1⟩ := write_value m dest v.kind (some (dest + sizeofMmsValue))
    (by omega)
  have hread := readString_eq m1.size string.noZero
    (HoldsIn.of_outside hoctets hs1 hlo (by omega)).holds (by rw [hs1.1]; omega)
  obtain ⟨m2, h2, hholds, hs2⟩ := writeOctets_eq m1 (dest + sizeofMmsValue)
    (string.octets ++ [0]) (by rw [hs1.1, hlen]; omega)
  have hvalue2 := hvalue.of_same hs2 (.inl le_rfl)
  have hlaid := laidOut_octets lo hi hv hn ho hvalue2 hholds
  rw [hlen] at hs2 hlaid
  refine ⟨m2, ?_, ?_, hlaid⟩
  · rw [cloneString, h1, ok_bind, notNull, ok_bind, hread, ok_bind, h2, ok_bind, Nat.add_assoc]
    rfl
  · exact (hs1.mono le_rfl (by omega)).trans (hs2.mono (by omega) (by omega))

theorem cloneInteger_copied {w : Asn1PrimitiveValue} (hv : v.IsLeaf) (hn : v.integerOf = some w)
    (hlo : lo ≤ dest) (hself : m.Holds dest (.value v.kind pointer))
    (hsrc : PointsTo m (Outside lo hi) (Outside lo hi) pointer v)
    (hhi : dest + (sizeofMmsValue + (sizeofAsn1PrimitiveValue + w.maxSize)) ≤ hi)
    (hm : hi ≤ m.size) :
    ∃ m', cloneInteger m pointer (dest + sizeofMmsValue) =
        .ok (m', dest + (sizeofMmsValue + (sizeofAsn1PrimitiveValue + w.maxSize))) ∧
      Copied m m' dest (sizeofMmsValue + (sizeofAsn1PrimitiveValue + w.maxSize)) (Outside lo hi)
        v := by
  simp only [PointsTo, hn] at hsrc
  obtain ⟨p, octets, rfl, hprimitive, hoctets⟩ := hsrc
  have hlen : w.octets.length = w.maxSize := w.octets_length
  obtain ⟨m1, h1, -, hs1⟩ := m.write_eq (dest + sizeofMmsValue)
    (.primitive w.size w.maxSize (dest + sizeofMmsValue + sizeofAsn1PrimitiveValue))
    (show 0 < sizeofAsn1PrimitiveValue by decide) (show _ + sizeofAsn1PrimitiveValue ≤ _ by omega)
  change m.SameOutside m1 _ (dest + sizeofMmsValue + sizeofAsn1PrimitiveValue) at hs1
  have hoctets1 := HoldsIn.of_outside hoctets hs1 (by omega) (by omega)
  obtain ⟨m2, h2, -, hs2⟩ := memcpy_eq (dest + sizeofMmsValue + sizeofAsn1PrimitiveValue)
    hoctets1.holds (by rw [hs1.1]; omega)
  rw [hlen] at h2 hs2
  have hs : m.SameOutside m2 (dest + sizeofMmsValue)
      (dest + (sizeofMmsValue + (sizeofAsn1PrimitiveValue + w.maxSize))) :=
    (hs1.mono le_rfl (by omega)).trans (hs2.mono (by omega) (by omega))
  refine ⟨m2, ?_, hs.mono (by omega) le_rfl, (laidOut_leaf hv).mpr ⟨some p, ?_, ?_⟩⟩
  · rw [cloneInteger, notNull, ok_bind, readPrimitive_eq hprimitive.head, ok_bind]
    simp only
    rw [h1, ok_bind, h2, ok_bind]
    simp only [Nat.add_assoc]
    rfl
  · exact holdsIn_inside ⟨hself.of_same hs (.inl le_rfl), trivial⟩ le_rfl
      (show _ + sizeofMmsValue ≤ _ by omega)
  · have hkeep : ∀ q, Outside lo hi q → Outside lo hi q ∧ m2.cell q = m.cell q := by
      intro q hq
      refine ⟨hq, hs.2 q ?_⟩
      rcases hq with hq | hq
      · left
        omega
      · right
        omega
    simp only [PointsTo, hn]
    exact ⟨p, octets, rfl, hprimitive.transfer hkeep, hoctets.transfer hkeep⟩

theorem sizeofMmsValue_le {n : Nat} (h : v.getSizeInMemory = .ok n) : sizeofMmsValue ≤ n := by
  cases v with
  | array vs | structured vs =>
    obtain ⟨k, -, h⟩ := bind_ok h
    obtain rfl := Except.ok.inj h
    omega
  | visibleString s | mmsString s =>
    cases s with
    | none => cases h
    | some s =>
      obtain rfl := Except.ok.inj h
      omega
  | _ =>
    obtain rfl := Except.ok.inj h
    omega

/-- After the first `memcpy` the value that is copied is still there. -/
theorem Copied.after {m0 m' : Block Piece} {n : Nat} (hs : m.SameOutside m0 dest (dest + n))
    (h : Copied m0 m' dest n (Outside lo hi) v) : Copied m m' dest n (Outside lo hi) v :=
  ⟨hs.trans h.same, h.laidOut⟩

/-- The values without components. -/
theorem cloneLeaf_copied {n fuel self : Nat} (hv : v.IsLeaf) (hsize : v.getSizeInMemory = .ok n)
    (hlo : lo ≤ dest) (hhi : dest + n ≤ hi) (hm : hi ≤ m.size)
    (h : LaidOut m (Outside lo hi) (Outside lo hi) self v) :
    ∃ m', cloneToBufferInMemory (fuel + 1) m self dest = .ok (m', dest + n) ∧
      Copied m m' dest n (Outside lo hi) v := by
  obtain ⟨pointer, hself, hp⟩ := (laidOut_leaf hv).mp h
  have hn := sizeofMmsValue_le hsize
  obtain ⟨m0, hw, hvalue, hs⟩ := write_value m dest v.kind pointer (by omega)
  have hkeep : ∀ q, Outside lo hi q → Outside lo hi q ∧ m0.cell q = m.cell q := by
    intro q hq
    refine ⟨hq, hs.2 q ?_⟩
    rcases hq with hq | hq
    · exact .inl (Nat.lt_of_lt_of_le hq hlo)
    · right
      omega
  have hp0 := hp.transfer hkeep hkeep
  have hs0 : m.SameOutside m0 dest (dest + n) := hs.mono le_rfl (Nat.add_le_add_left hn dest)
  rw [cloneToBufferInMemory, readValueAt_eq hself.head, ok_bind]
  simp only
  rw [hw, ok_bind]
  cases v with
  | array | structured => exact hv.elim
  | bitString b =>
    obtain rfl := Except.ok.inj hsize
    obtain ⟨m', hclone, hcopied⟩ := cloneOctets_copied hv rfl rfl b.buf_length hp0
      (by rw [hs.1]; exact hhi.trans hm)
    exact ⟨m', hclone, hcopied.after hs0⟩
  | integer w | unsigned w =>
    obtain rfl := Except.ok.inj hsize
    rw [Nat.add_assoc sizeofMmsValue] at hhi hs0 ⊢
    obtain ⟨m', hclone, hcopied⟩ := cloneInteger_copied hv rfl hlo hvalue hp0 hhi (by rwa [hs.1])
    exact ⟨m', hclone, hcopied.after hs0⟩
  | float f =>
    obtain rfl := Except.ok.inj hsize
    obtain ⟨m', hclone, hcopied⟩ := cloneOctets_copied hv rfl rfl f.buf_length hp0
      (by rw [hs.1]; exact hhi.trans hm)
    exact ⟨m', hclone, hcopied.after hs0⟩
  | octetString o =>
    obtain rfl := Except.ok.inj hsize
    obtain ⟨m', hclone, hcopied⟩ := cloneOctets_copied hv rfl rfl o.buf_length hp0
      (by rw [hs.1]; exact hhi.trans hm)
    exact ⟨m', hclone, hcopied.after hs0⟩
  | visibleString s | mmsString s =>
    cases s with
    | none => cases hsize
    | some s =>
      obtain rfl := Except.ok.inj hsize
      obtain ⟨m', hclone, hcopied⟩ := cloneString_copied hv rfl rfl hlo hp0 hhi (by rwa [hs.1])
      exact ⟨m', hclone, hcopied.after hs0⟩
  | _ =>
    obtain rfl := Except.ok.inj hsize
    cases hp
    exact ⟨m0, rfl, hs, laidOut_plain lo hi hv rfl rfl hvalue⟩

end

/-- The function copies the value, wherever it lies outside of the room for the copy. -/
def ClonedBy (clone : Block Piece → Nat → Nat → Exec (Block Piece × Nat)) (v : MmsValue) : Prop :=
  ∀ m lo hi self dest n, v.getSizeInMemory = .ok n → lo ≤ dest → dest + n ≤ hi → hi ≤ m.size →
    LaidOut m (Outside lo hi) (Outside lo hi) self v →
    ∃ m', clone m self dest = .ok (m', dest + n) ∧ Copied m m' dest n (Outside lo hi) v

section

variable {m : Block Piece} {lo hi : Nat}

theorem Outside.mono {lo' hi' p : Nat} (h : Outside lo hi p) (hlo : lo ≤ lo') (hhi : hi' ≤ hi) :
    Outside lo' hi' p := h.imp (Nat.lt_of_lt_of_le · hlo) (Nat.le_trans hhi ·)

theorem LaidOutAll.of_agree {m' : Block Piece} {own own' integers : Nat → Prop} {ps : List Nat}
    {vs : List MmsValue} (h : LaidOutAll m own integers ps vs)
    (ho : ∀ p, own p → own' p ∧ m'.cell p = m.cell p)
    (hi : ∀ p, integers p → m'.cell p = m.cell p) : LaidOutAll m' own' integers ps vs :=
  h.transfer fun _ _ _ hv => hv.transfer ho fun p hp => ⟨hp, hi p hp⟩

theorem cloneComponentsLoop_copied {clone : Block Piece → Nat → Nat → Exec (Block Piece × Nat)}
    {vs : List MmsValue} {ps : List Nat} {components copies dest n : Nat}
    (hclone : ∀ v ∈ vs, ClonedBy clone v) (hsize : componentsSizeInMemory vs = .ok n)
    (hlo : lo ≤ copies) (hdest : copies + sizeofPointer * vs.length ≤ dest) (hhi : dest + n ≤ hi)
    (hm : hi ≤ m.size) (hps : m.HoldsIn (Outside lo hi) components (ps.map .pointer))
    (hvs : LaidOutAll m (Outside lo hi) (Outside lo hi) ps vs) :
    ∃ m' qs, cloneComponentsLoop clone vs.length components copies m dest = .ok (m', dest + n) ∧
      m'.size = m.size ∧
      (∀ p, Outside copies (copies + sizeofPointer * vs.length) p → Outside dest (dest + n) p →
        m'.cell p = m.cell p) ∧
      m'.HoldsAll copies (qs.map .pointer) ∧
      LaidOutAll m' (Inside dest (dest + n)) (Outside lo hi) qs vs := by
  induction vs generalizing m ps components copies dest n with
  | nil =>
    obtain rfl := Except.ok.inj hsize
    exact ⟨m, [], rfl, rfl, fun _ _ _ => rfl, trivial, trivial⟩
  | cons v vs ih =>
    cases ps with
    | nil => exact hvs.elim
    | cons p ps =>
      obtain ⟨n1, hn1, hrest⟩ := bind_ok hsize
      obtain ⟨n2, hn2, hsum⟩ := bind_ok hrest
      obtain rfl := Except.ok.inj hsum
      rw [List.length_cons, Nat.mul_succ] at hdest ⊢
      obtain ⟨m1, hw, hpointer, hs1⟩ := m.write_eq copies (.pointer dest)
        (show 0 < sizeofPointer by decide) (show copies + sizeofPointer ≤ m.size by omega)
      change m.SameOutside m1 copies (copies + sizeofPointer) at hs1
      have hout1 : ∀ q, Outside lo hi q → Outside lo hi q ∧ m1.cell q = m.cell q :=
        fun q hq => ⟨hq, hs1.2 q (hq.mono hlo (by omega))⟩
      obtain ⟨m2, h2, hcopied⟩ := hclone v List.mem_cons_self m1 lo hi p dest n1 hn1 (by omega)
        (by omega) (by rwa [hs1.1]) (hvs.1.transfer hout1 hout1)
      have hs2 := hcopied.same
      have hout2 : ∀ q, Outside lo hi q → Outside lo hi q ∧ m2.cell q = m.cell q :=
        fun q hq => ⟨hq, (hs2.2 q (hq.mono (by omega) (by omega))).trans (hout1 q hq).2⟩
      obtain ⟨m', qs, h', hsize', hcells, hqs, hcopies⟩ := ih
        (fun w hw => hclone w (List.mem_cons_of_mem v hw)) hn2
        (show lo ≤ copies + sizeofPointer by omega) (show _ ≤ dest + n1 by omega)
        (by omega) (by rwa [hs2.1, hs1.1]) (hps.tail.transfer hout2)
        (hvs.2.of_agree hout2 fun q hq => (hout2 q hq).2)
      have hkeep : ∀ q, Inside dest (dest + n1) q → m'.cell q = m2.cell q :=
        fun q hq => hcells q (.inr (by have := hq.1; omega)) (.inl hq.2)
      refine ⟨m', dest :: qs, ?_, hsize'.trans (hs2.1.trans hs1.1), ?_, ⟨?_, hqs⟩, ?_, ?_⟩
      · rw [cloneComponentsLoop, hw, ok_bind, readPointer_eq (hps.transfer hout1).head, ok_bind, h2,
          ok_bind]
        rw [← Nat.add_assoc]
        exact h'
      · intro q hq hq'
        rw [hcells q (by unfold Outside at *; omega) (by unfold Outside at *; omega),
          hs2.2 q (by unfold Outside at *; omega), hs1.2 q (by unfold Outside at *; omega)]
      · refine ⟨hpointer.1, fun q hq hq' => ?_⟩
        change q < copies + sizeofPointer at hq'
        rw [hcells q (.inl hq') (.inl (by omega)), hs2.2 q (.inl (by omega))]
        exact hpointer.2 q hq hq'
      · refine hcopied.laidOut.transfer (fun q hq => ⟨⟨hq.1, ?_⟩, hkeep q hq⟩) fun q hq => ⟨hq, ?_⟩
        · exact Nat.lt_of_lt_of_le hq.2 (by omega)
        · exact hcells q (hq.mono (by omega) (by omega)) (hq.mono (by omega) (by omega))
      · refine hcopies.of_agree (fun q hq => ⟨⟨?_, ?_⟩, rfl⟩) fun q hq => rfl
        · exact Nat.le_trans (Nat.le_add_right _ _) hq.1
        · rw [← Nat.add_assoc]
          exact hq.2

/-- The part that arrays and structures have in common. -/
theorem cloneComponents_copied {clone : Block Piece → Nat → Nat → Exec (Block Piece × Nat)}
    {vs : List MmsValue} {ps : List Nat} {components dest n : Nat} (kind : Kind)
    (hclone : ∀ v ∈ vs, ClonedBy clone v) (hsize : componentsSizeInMemory vs = .ok n)
    (hlo : lo ≤ dest) (hhi : dest + sizeofMmsValue + sizeofPointer * vs.length + n ≤ hi)
    (hm : hi ≤ m.size) (hps : m.HoldsIn (Outside lo hi) components (ps.map .pointer))
    (hvs : LaidOutAll m (Outside lo hi) (Outside lo hi) ps vs) :
    ∃ m' qs, cloneComponentsInMemory clone m dest kind (some components) (dest + sizeofMmsValue)
        vs.length = .ok (m', dest + sizeofMmsValue + sizeofPointer * vs.length + n) ∧
      m.SameOutside m' dest (dest + sizeofMmsValue + sizeofPointer * vs.length + n) ∧
      m'.Holds dest (.value kind (some (dest + sizeofMmsValue))) ∧
      m'.HoldsAll (dest + sizeofMmsValue) (qs.map .pointer) ∧
      LaidOutAll m' (Inside (dest + sizeofMmsValue + sizeofPointer * vs.length)
        (dest + sizeofMmsValue + sizeofPointer * vs.length + n)) (Outside lo hi) qs vs := by
  obtain ⟨m1, hw, hvalue, hs⟩ := write_value m dest kind (some (dest + sizeofMmsValue)) (by omega)
  have hout : ∀ q, Outside lo hi q → Outside lo hi q ∧ m1.cell q = m.cell q :=
    fun q hq => ⟨hq, hs.2 q (hq.mono hlo (by omega))⟩
  obtain ⟨m', qs, hloop, hsize', hcells, hqs, hcopies⟩ := cloneComponentsLoop_copied hclone hsize
    (show lo ≤ dest + sizeofMmsValue by omega) le_rfl (by omega) (by rwa [hs.1])
    (hps.transfer hout) (hvs.of_agree hout fun q hq => (hout q hq).2)
  refine ⟨m', qs, ?_, ⟨hsize'.trans hs.1, fun q hq => ?_⟩, ⟨hvalue.1, fun q hq hq' => ?_⟩, hqs,
    hcopies⟩
  · rw [cloneComponentsInMemory, hw, ok_bind, notNull, ok_bind]
    exact hloop
  · rw [hcells q (by unfold Outside; omega) (by unfold Outside; omega), hs.2 q (by omega)]
  · change q < dest + sizeofMmsValue at hq'
    rw [hcells q (.inl hq') (.inl (by omega))]
    exact hvalue.2 q hq hq'

theorem getSizeInMemory_le {vs : List MmsValue} {v : MmsValue} {k n : Nat} (hv : v ∈ vs)
    (hk : v.getSizeInMemory = .ok k) (hn : componentsSizeInMemory vs = .ok n) : k ≤ n := by
  induction vs generalizing n with
  | nil => cases hv
  | cons w ws ih =>
    obtain ⟨n1, hn1, hrest⟩ := bind_ok hn
    obtain ⟨n2, hn2, hsum⟩ := bind_ok hrest
    obtain rfl := Except.ok.inj hsum
    rcases List.mem_cons.mp hv with rfl | hw
    · obtain rfl := Except.ok.inj (hk.symm.trans hn1)
      exact Nat.le_add_right _ _
    · exact (ih hw hn2).trans (Nat.le_add_left _ _)

/-- The components lie behind the value and the pointers to them. -/
theorem copied_of_components {m' : Block Piece} {vs : List MmsValue} {qs : List Nat} {dest n : Nat}
    (hqs : m'.HoldsAll (dest + sizeofMmsValue) (qs.map .pointer))
    (hvs : LaidOutAll m' (Inside (dest + sizeofMmsValue + sizeofPointer * vs.length)
      (dest + sizeofMmsValue + sizeofPointer * vs.length + n)) (Outside lo hi) qs vs) :
    let e := dest + (sizeofMmsValue + sizeofPointer * vs.length + n)
    m'.HoldsIn (Inside dest e) (dest + sizeofMmsValue) (qs.map .pointer) ∧
      LaidOutAll m' (Inside dest e) (Outside lo hi) qs vs := by
  refine ⟨holdsIn_inside hqs (Nat.le_add_right _ _) ?_, hvs.of_agree ?_ fun _ _ => rfl⟩
  · rw [sizeAll_pointer, hvs.length_eq]
    omega
  · intro q hq
    refine ⟨⟨?_, ?_⟩, rfl⟩
    · have := hq.1
      omega
    · have := hq.2
      omega

/-- With fuel for its size the function copies every value that has a size. -/
theorem cloneToBuffer_copied (v : MmsValue) (fuel : Nat)
    (hf : ∀ n, v.getSizeInMemory = .ok n → n ≤ fuel) :
    ClonedBy (cloneToBufferInMemory fuel) v := by
  induction v using tree_induction generalizing fuel with
  | array vs ih | structured vs ih =>
    intro m lo hi self dest n hsize hlo hhi hm h
    obtain ⟨k, hk, hn⟩ := bind_ok hsize
    obtain rfl := Except.ok.inj hn
    have hfuel := hf _ hsize
    have hpos := getSizeInMemory_pos hsize
    obtain ⟨fuel, rfl⟩ := Nat.exists_eq_succ_of_ne_zero (show fuel ≠ 0 by omega)
    obtain ⟨components, ps, hself, hps, hvs⟩ := h
    obtain ⟨m0, hw, -, hs⟩ := write_value m dest _ (some components) (by omega)
    have hout : ∀ q, Outside lo hi q → Outside lo hi q ∧ m0.cell q = m.cell q :=
      fun q hq => ⟨hq, hs.2 q (hq.mono hlo (by omega))⟩
    have hcomponents : ∀ v ∈ vs, ClonedBy (cloneToBufferInMemory fuel) v := by
      intro v hv
      refine ih v hv fuel fun i hi => ?_
      have hle := getSizeInMemory_le hv hi hk
      simp only [sizeofMmsValue] at hfuel
      omega
    obtain ⟨m', qs, hclone, hsame, hvalue, hqs, hcopies⟩ := cloneComponents_copied _ hcomponents hk
      hlo (by omega) (by rwa [hs.1]) (hps.transfer hout)
      (hvs.of_agree hout fun q hq => (hout q hq).2)
    obtain ⟨hpointers, hvalues⟩ := copied_of_components hqs hcopies
    refine ⟨m', ?_, ⟨?_, _, qs, holdsIn_inside ⟨hvalue, trivial⟩ le_rfl ?_, hpointers, hvalues⟩⟩
    · rw [cloneToBufferInMemory, readValueAt_eq hself.head, ok_bind]
      simp only
      rw [hw, ok_bind, ← Nat.add_assoc, ← Nat.add_assoc]
      exact hclone
    · rw [← Nat.add_assoc, ← Nat.add_assoc]
      exact (hs.mono le_rfl (by omega)).trans hsame
    · change dest + sizeofMmsValue ≤ _
      omega
  | leaf v hv =>
    intro m lo hi self dest n hsize hlo hhi hm h
    have hfuel := hf n hsize
    have hpos := getSizeInMemory_pos hsize
    obtain ⟨fuel, rfl⟩ := Nat.exists_eq_succ_of_ne_zero (show fuel ≠ 0 by omega)
    exact cloneLeaf_copied hv hsize hlo hhi hm h

end

/-- No integer of the tree has to be found through a pointer. -/
def NoIntegers (v : MmsValue) : Prop := ∀ l ∈ v.leaves, l.integerOf = none

theorem noIntegers_leavesOf {vs : List MmsValue} :
    (∀ l ∈ leavesOf vs, l.integerOf = none) ↔ ∀ v ∈ vs, NoIntegers v := by
  simp only [NoIntegers, mem_leavesOf]
  constructor
  · intro h v hv l hl
    exact h l ⟨v, hv, hl⟩
  · rintro h l ⟨v, hv, hl⟩
    exact h v hv l hl

theorem noIntegers_array {vs : List MmsValue} :
    NoIntegers (.array vs) ↔ ∀ v ∈ vs, NoIntegers v := by
  rw [← noIntegers_leavesOf, NoIntegers, leaves]

theorem noIntegers_structured {vs : List MmsValue} :
    NoIntegers (.structured vs) ↔ ∀ v ∈ vs, NoIntegers v := by
  rw [← noIntegers_leavesOf, NoIntegers, leaves]

theorem noIntegers_leaf {v : MmsValue} (h : v.IsLeaf) : NoIntegers v ↔ v.integerOf = none := by
  rw [NoIntegers, leaves_of_isLeaf h, List.forall_mem_singleton]

section

variable {m : Block Piece} {own own' integers integers' : Nat → Prop} {v w : MmsValue} {self : Nat}

theorem pointers_unique {pos : Nat} {ps qs : List Nat} (hlen : ps.length = qs.length)
    (hp : m.HoldsAll pos (ps.map .pointer)) (hq : m.HoldsAll pos (qs.map .pointer)) : ps = qs := by
  induction ps generalizing pos qs with
  | nil => exact (List.eq_nil_of_length_eq_zero hlen.symm).symm
  | cons p ps ih =>
    cases qs with
    | nil => cases hlen
    | cons q qs =>
      obtain rfl := Piece.pointer.inj (hp.1.unique hq.1)
      rw [ih (Nat.succ.inj hlen) hp.2 hq.2]

theorem laidOut_value (h : LaidOut m own integers self v) :
    ∃ pointer, m.Holds self (.value v.kind pointer) := by
  cases v with
  | array vs | structured vs =>
    obtain ⟨components, -, hself, -, -⟩ := h
    exact ⟨some components, hself.head⟩
  | _ =>
    obtain ⟨pointer, hself, -⟩ := h
    exact ⟨pointer, hself.head⟩

/-- What is read at an address is always of the same kind. -/
theorem kind_unique (h : LaidOut m own integers self v) (h' : LaidOut m own' integers' self w) :
    v.kind = w.kind := by
  obtain ⟨pointer, hself⟩ := laidOut_value h
  obtain ⟨pointer', hself'⟩ := laidOut_value h'
  exact (Piece.value.inj (hself.unique hself')).1

theorem noIntegers_all {vs ws : List MmsValue} {ps : List Nat}
    (ih : ∀ v ∈ vs, ∀ w p, LaidOut m own integers p v → LaidOut m own' integers' p w → NoIntegers v)
    (hvs : LaidOutAll m own integers ps vs) (hws : LaidOutAll m own' integers' ps ws) :
    ∀ v ∈ vs, NoIntegers v := by
  induction vs generalizing ps ws with
  | nil => simp
  | cons v vs ihvs =>
    cases ps with
    | nil => exact hvs.elim
    | cons p ps =>
      cases ws with
      | nil => exact hws.elim
      | cons w ws =>
        rw [List.forall_mem_cons]
        refine ⟨ih v List.mem_cons_self w p hvs.1 hws.1, ihvs ?_ hvs.2 hws.2⟩
        intro x hx
        exact ih x (List.mem_cons_of_mem v hx)

/-- Integers cannot lie in two places. -/
theorem noIntegers_of_laidOut (h : LaidOut m own integers self v)
    (h' : LaidOut m own' integers' self w) (hd : ∀ p, integers p → ¬ integers' p) :
    NoIntegers v := by
  induction v using tree_induction generalizing self w with
  | array vs ih =>
    have hkind := kind_unique h h'
    cases w with
    | array ws =>
      obtain ⟨components, ps, hself, hps, hvs⟩ := h
      obtain ⟨components', qs, hself', hqs, hws⟩ := h'
      obtain ⟨hk, hc⟩ := Piece.value.inj (hself.head.unique hself'.head)
      obtain rfl := Option.some.inj hc
      obtain rfl := pointers_unique ((hvs.length_eq.trans (Kind.array.inj hk)).trans
        hws.length_eq.symm) hps.holds hqs.holds
      exact noIntegers_array.mpr (noIntegers_all (fun v hv w p => ih v hv) hvs hws)
    | _ => cases hkind
  | structured vs ih =>
    have hkind := kind_unique h h'
    cases w with
    | structured ws =>
      obtain ⟨components, ps, hself, hps, hvs⟩ := h
      obtain ⟨components', qs, hself', hqs, hws⟩ := h'
      obtain ⟨hk, hc⟩ := Piece.value.inj (hself.head.unique hself'.head)
      obtain rfl := Option.some.inj hc
      obtain rfl := pointers_unique ((hvs.length_eq.trans (Kind.structured.inj hk)).trans
        hws.length_eq.symm) hps.holds hqs.holds
      exact noIntegers_structured.mpr (noIntegers_all (fun v hv w p => ih v hv) hvs hws)
    | _ => cases hkind
  | leaf v hv =>
    rw [noIntegers_leaf hv]
    by_contra hint
    obtain ⟨i, hi⟩ := Option.ne_none_iff_exists'.mp hint
    have hkind := kind_unique h h'
    obtain ⟨pointer, hself, hp⟩ := (laidOut_leaf hv).mp h
    obtain ⟨j, hj⟩ : ∃ j, w.integerOf = some j := by
      cases v <;> cases hi <;> cases w <;> first | exact ⟨_, rfl⟩ | cases hkind
    have hw : w.IsLeaf := by
      cases w <;> trivial
    obtain ⟨pointer', hself', hp'⟩ := (laidOut_leaf hw).mp h'
    simp only [PointsTo, hi, hj] at hp hp'
    obtain ⟨p, octets, rfl, hprimitive, -⟩ := hp
    obtain ⟨q, octets', rfl, hprimitive', -⟩ := hp'
    obtain rfl := Option.some.inj (Piece.value.inj (hself.head.unique hself'.head)).2
    refine hd p (hprimitive.within p le_rfl ?_) (hprimitive'.within p le_rfl ?_)
    · exact Nat.lt_add_of_pos_right (show 0 < sizeofAsn1PrimitiveValue + 0 by decide)
    · exact Nat.lt_add_of_pos_right (show 0 < sizeofAsn1PrimitiveValue + 0 by decide)

theorem PointsTo.anywhere {pointer : Option Nat} (h : PointsTo m own integers pointer v)
    (hn : v.integerOf = none) : PointsTo m own integers' pointer v := by
  simp only [PointsTo, hn] at h ⊢
  exact h

/-- Without integers it does not matter where they may lie. -/
theorem LaidOut.anywhere (h : LaidOut m own integers self v) (hn : NoIntegers v) :
    LaidOut m own integers' self v := by
  induction v using tree_induction generalizing self with
  | array vs ih =>
    rw [noIntegers_array] at hn
    obtain ⟨components, ps, hself, hps, hvs⟩ := h
    exact ⟨components, ps, hself, hps, hvs.transfer fun v hv p hp => ih v hv hp (hn v hv)⟩
  | structured vs ih =>
    rw [noIntegers_structured] at hn
    obtain ⟨components, ps, hself, hps, hvs⟩ := h
    exact ⟨components, ps, hself, hps, hvs.transfer fun v hv p hp => ih v hv hp (hn v hv)⟩
  | leaf v hv =>
    obtain ⟨pointer, hself, hp⟩ := (laidOut_leaf hv).mp h
    exact (laidOut_leaf hv).mpr ⟨pointer, hself, hp.anywhere ((noIntegers_leaf hv).mp hn)⟩

end

/-- `malloc` and `memcpy` of the octets in use; `fresh` is what `malloc` leaves behind them. -/
def OctetString.cloneOnHeap (fresh : Nat → UInt8) (o : OctetString) : OctetString :=
  { o with
    buf := o.content ++ (List.range (o.maxSize - o.size)).map fresh
    buf_length := by
      rw [List.length_append, o.length_content, List.length_map, List.length_range]
      exact Nat.add_sub_of_le o.size_le }

/-- `strlen` and `strcpy` -/
def cloneCString : Option CString → Exec (Option CString)
  | some string => .ok (some string)
  | none => .error .nullPointer

mutual

/-- `MmsValue_clone` -/
def cloneOnHeap (fresh : Nat → UInt8) : MmsValue → Exec MmsValue
  | .array vs => do return .array (← cloneAllOnHeap fresh vs)
  | .structured vs => do return .structured (← cloneAllOnHeap fresh vs)
  | .octetString o => .ok (.octetString (o.cloneOnHeap fresh))
  | .visibleString s => do return .visibleString (← cloneCString s)
  | .mmsString s => do return .mmsString (← cloneCString s)
  | v => .ok v

def cloneAllOnHeap (fresh : Nat → UInt8) : List MmsValue → Exec (List MmsValue)
  | [] => .ok []
  | v :: vs => do return (← cloneOnHeap fresh v) :: (← cloneAllOnHeap fresh vs)

end

section

variable {fresh : Nat → UInt8} {v : MmsValue}

theorem OctetString.content_cloneOnHeap (o : OctetString) :
    (o.cloneOnHeap fresh).content = o.content :=
  List.take_left' o.length_content

theorem cloneAllOnHeap_spec {vs : List MmsValue}
    (ih : ∀ v ∈ vs, ∀ n, v.getSizeInMemory = .ok n →
      ∃ c, v.cloneOnHeap fresh = .ok c ∧ c.equals v = true ∧ c.getSizeInMemory = .ok n)
    {n : Nat} (h : componentsSizeInMemory vs = .ok n) :
    ∃ cs, cloneAllOnHeap fresh vs = .ok cs ∧ equalComponents cs vs = true ∧
      componentsSizeInMemory cs = .ok n ∧ cs.length = vs.length := by
  induction vs generalizing n with
  | nil => exact ⟨[], rfl, rfl, h, rfl⟩
  | cons v vs ihvs =>
    obtain ⟨n1, hn1, hrest⟩ := bind_ok h
    obtain ⟨n2, hn2, hsum⟩ := bind_ok hrest
    obtain ⟨c, hc, heq, hsize⟩ := ih v List.mem_cons_self n1 hn1
    obtain ⟨cs, hcs, heqs, hsizes, hlen⟩ :=
      ihvs (fun w hw => ih w (List.mem_cons_of_mem v hw)) hn2
    refine ⟨c :: cs, ?_, ?_, ?_, congrArg (· + 1) hlen⟩
    · rw [cloneAllOnHeap, hc, ok_bind, hcs]
      rfl
    · rw [equalComponents, heq, heqs, Bool.and_self]
    · rw [componentsSizeInMemory, hsize, ok_bind, hsizes, ok_bind]
      exact hsum

/-- A value with a size has a copy on the heap, which equals it and has its size. -/
theorem cloneOnHeap_spec {n : Nat} (h : v.getSizeInMemory = .ok n) :
    ∃ c, v.cloneOnHeap fresh = .ok c ∧ c.equals v = true ∧ c.getSizeInMemory = .ok n := by
  induction v using tree_induction generalizing n with
  | array vs ih =>
    obtain ⟨k, hk, hn⟩ := bind_ok h
    obtain ⟨cs, hcs, heqs, hsizes, hlen⟩ := cloneAllOnHeap_spec (fun v hv n => ih v hv) hk
    refine ⟨.array cs, by rw [cloneOnHeap, hcs]; rfl, heqs, ?_⟩
    rw [getSizeInMemory, hsizes, hlen]
    exact hn
  | structured vs ih =>
    obtain ⟨k, hk, hn⟩ := bind_ok h
    obtain ⟨cs, hcs, heqs, hsizes, hlen⟩ := cloneAllOnHeap_spec (fun v hv n => ih v hv) hk
    refine ⟨.structured cs, by rw [cloneOnHeap, hcs]; rfl, heqs, ?_⟩
    rw [getSizeInMemory, hsizes, hlen]
    exact hn
  | leaf v hv =>
    cases v with
    | array | structured => exact hv.elim
    | octetString o =>
      refine ⟨_, rfl, ?_, h⟩
      rw [equals, OctetString.content_cloneOnHeap, beq_self_eq_true, Bool.and_true]
      exact beq_self_eq_true o.size
    | visibleString s | mmsString s =>
      cases s with
      | none => cases h
      | some s => exact ⟨_, rfl, equals_refl _, h⟩
    | _ => exact ⟨_, rfl, equals_refl _, h⟩

end

/-- What the copies of a value at `self` promise: the size is what the copy in the buffer takes,
both copies equal the value and have its size, and all of the copy in the buffer lies there. -/
def CloneLaw (m : Block Piece) (self dest : Nat) (fresh : Nat → UInt8) (v : MmsValue) : Prop :=
  ∃ size, v.getSizeInMemory = .ok size ∧
    (∃ m' copy, cloneToBufferInMemory m.size m self dest = .ok (m', dest + size) ∧
      LaidOut m' (Inside dest (dest + size)) (Inside dest (dest + size)) dest copy ∧
      copy.equals v = true ∧ copy.getSizeInMemory = .ok size) ∧
    ∃ copy, v.cloneOnHeap fresh = .ok copy ∧ copy.equals v = true ∧ copy.getSizeInMemory = .ok size

section

variable {m : Block Piece} {self dest : Nat} {v : MmsValue}

/-- The copy in the buffer, up to where its integers lie. -/
theorem cloneToBuffer_spec (hs : v.HasStrings) (hm : dest + v.sizeInMemory ≤ m.size)
    (h : LaidOut m (Outside dest (dest + v.sizeInMemory)) (Outside dest (dest + v.sizeInMemory))
      self v) :
    ∃ m', cloneToBufferInMemory m.size m self dest = .ok (m', dest + v.sizeInMemory) ∧
      Copied m m' dest v.sizeInMemory (Outside dest (dest + v.sizeInMemory)) v := by
  refine cloneToBuffer_copied v m.size ?_ m dest _ self dest _ (getSizeInMemory_eq hs) le_rfl le_rfl
    hm h
  intro n hn
  obtain rfl := Except.ok.inj ((getSizeInMemory_eq hs).symm.trans hn)
  exact (Nat.le_add_left _ _).trans hm

/-- The end of the copy is where `cloneToBuffer` says. -/
theorem cloneToBufferInMemory_end (hs : v.HasStrings) (hm : dest + v.sizeInMemory ≤ m.size)
    (h : LaidOut m (Outside dest (dest + v.sizeInMemory)) (Outside dest (dest + v.sizeInMemory))
      self v) :
    (cloneToBufferInMemory m.size m self dest).map Prod.snd = v.cloneToBuffer dest := by
  obtain ⟨m', hclone, -⟩ := cloneToBuffer_spec hs hm h
  rw [hclone, cloneToBuffer_eq, getSizeInMemory_eq hs]
  rfl

/-- The promise is kept for the values without null strings and without integers, wherever they
lie outside of the buffer. -/
theorem cloneLaw_iff (fresh : Nat → UInt8) (hm : dest + v.sizeInMemory ≤ m.size)
    (h : LaidOut m (Outside dest (dest + v.sizeInMemory)) (Outside dest (dest + v.sizeInMemory))
      self v) :
    CloneLaw m self dest fresh v ↔ v.HasStrings ∧ v.NoIntegers := by
  constructor
  · rintro ⟨size, hsize, ⟨m', copy, hclone, hcopy, -, -⟩, -⟩
    have hs : v.HasStrings := by
      rcases getSizeInMemory_cases v with ⟨-, -, hs⟩ | ⟨herr, -⟩
      · exact hs
      · rw [herr] at hsize
        cases hsize
    obtain rfl := Except.ok.inj ((getSizeInMemory_eq hs).symm.trans hsize)
    obtain ⟨m'', hclone', hcopied⟩ := cloneToBuffer_spec hs hm h
    obtain rfl := (Prod.mk.inj (Except.ok.inj (hclone'.symm.trans hclone))).1
    refine ⟨hs, noIntegers_of_laidOut hcopied.laidOut hcopy ?_⟩
    rintro p (hp | hp) hq
    · exact absurd hq.1 (Nat.not_le_of_gt hp)
    · exact absurd hq.2 (Nat.not_lt_of_ge hp)
  · rintro ⟨hs, hn⟩
    obtain ⟨m', hclone, hcopied⟩ := cloneToBuffer_spec hs hm h
    have hsize := getSizeInMemory_eq hs
    exact ⟨v.sizeInMemory, hsize,
      ⟨m', v, hclone, hcopied.laidOut.anywhere hn, equals_refl v, hsize⟩, cloneOnHeap_spec hsize⟩

end

/-- A boolean at the address 0, and room for its copy behind it. -/
def booleanAtZero : Block Piece where
  size := 36
  cell p := if p < 18 then some (0, .value (.boolean true) none) else none

theorem laidOut_booleanAtZero (integers : Nat → Prop) :
    LaidOut booleanAtZero (Outside 18 36) integers 0 (.boolean true) := by
  refine ⟨none, ⟨⟨⟨by decide, fun p _ hp => if_pos ?_⟩, trivial⟩, fun p _ hp => .inl ?_⟩, rfl⟩
  · exact Nat.lt_of_lt_of_le hp (by decide)
  · exact Nat.lt_of_lt_of_le hp (by decide)

theorem cloneLaw_boolean : CloneLaw booleanAtZero 0 18 (fun _ => 0) (.boolean true) := by
  have hleaf : IsLeaf (.boolean true) := trivial
  refine (cloneLaw_iff (fun _ => 0) ?_ (laidOut_booleanAtZero _)).mpr ⟨?_, ?_⟩
  · exact Nat.le_refl 36
  · exact (hasStrings_leaf hleaf).mpr id
  · exact (noIntegers_leaf hleaf).mpr rfl

def five : Asn1PrimitiveValue where
  size := 1
  maxSize := 1
  octets := [5]
  size_le := le_rfl
  octets_length := rfl
  maxSize_lt := by decide

/-- The integer 5, its primitive value at 18 and its octet at 28. -/
def integerAtZero : Block Piece where
  size := 58
  cell p :=
    if p < 18 then some (0, .value .integer (some 18))
    else if p < 28 then some (18, .primitive 1 1 28)
    else if p < 29 then some (28, .octet 5)
    else none

theorem holds_integerAtZero : integerAtZero.Holds 0 (.value .integer (some 18)) ∧
    integerAtZero.Holds 18 (.primitive 1 1 28) ∧ integerAtZero.Holds 28 (.octet 5) := by
  refine ⟨⟨by decide, fun p _ hp => ?_⟩, ⟨by decide, fun p hlo hp => ?_⟩, by decide,
    fun p hlo hp => ?_⟩
  · exact if_pos (Nat.lt_of_lt_of_le hp (by decide))
  · have hlt : p < 28 := Nat.lt_of_lt_of_le hp (by decide)
    simp [integerAtZero, hlt, Nat.not_lt_of_ge hlo]
  · have hlt : p < 29 := Nat.lt_of_lt_of_le hp (by decide)
    have hle : 18 ≤ p := Nat.le_trans (by decide) hlo
    simp [integerAtZero, hlt, Nat.not_lt_of_ge hlo, Nat.not_lt_of_ge hle]

theorem laidOut_integerAtZero :
    LaidOut integerAtZero (Outside 29 58) (Outside 29 58) 0 (.integer five) := by
  obtain ⟨hvalue, hprimitive, hoctet⟩ := holds_integerAtZero
  refine ⟨some 18, ⟨⟨hvalue, trivial⟩, fun p _ hp => .inl ?_⟩, 18, 28, rfl,
    ⟨⟨hprimitive, trivial⟩, fun p _ hp => .inl ?_⟩, ⟨hoctet, trivial⟩, fun p _ hp => .inl ?_⟩
  · exact Nat.lt_of_lt_of_le hp (by decide)
  · exact Nat.lt_of_lt_of_le hp (by decide)
  · exact Nat.lt_of_lt_of_le hp (by decide)

/-- The copy of an integer in a buffer still points to the integer that has been copied. -/
theorem integer_shared : ¬ CloneLaw integerAtZero 0 29 (fun _ => 0) (.integer five) := by
  rintro ⟨size, hsize, ⟨m', copy, hclone, hcopy, -, -⟩, -⟩
  obtain rfl : 29 = size := Except.ok.inj hsize
  have hleaf : IsLeaf (.integer five) := trivial
  obtain ⟨m'', hclone', hcopied⟩ := cloneToBuffer_spec ((hasStrings_leaf hleaf).mpr id)
    (Nat.le_refl 58) laidOut_integerAtZero
  obtain rfl := (Prod.mk.inj (Except.ok.inj (hclone'.symm.trans hclone))).1
  have hnone := noIntegers_of_laidOut hcopied.laidOut hcopy ?_
  · exact absurd ((noIntegers_leaf hleaf).mp hnone) (by simp [integerOf])
  · rintro p (hp | hp) hq
    · exact absurd hq.1 (Nat.not_le_of_gt hp)
    · exact absurd hq.2 (Nat.not_lt_of_ge hp)

end Iec61850.MmsValue
