import Iec61850.Mms.ClientRead
import Mathlib.Data.Nat.Bitwise

/-! The bit strings of `mms_value.c`. Counting and the bulk operations work on octets, access to
one bit works on positions. -/

namespace Iec61850

open Machine BerEncoder

/-- The bit string of a value. A decoder can leave more octets than the size needs, and nothing
is said about the bits behind the last position. -/
structure BitBuffer where
  size : Nat
  buf : List UInt8
  byteSize_le : bitStringByteSize size ≤ buf.length

namespace BitBuffer

variable (b : BitBuffer)

theorem bytePos_lt {size bitPos : Nat} (h : bitPos < size) :
    bitPos / 8 < bitStringByteSize size := by
  unfold bitStringByteSize
  split <;> omega

def octetAt (bitPos : Nat) (h : bitPos < b.size) : UInt8 :=
  b.buf.get ⟨bitPos / 8, (bytePos_lt h).trans_le b.byteSize_le⟩

def setOctet (pos : Nat) (octet : UInt8) : BitBuffer where
  size := b.size
  buf := b.buf.set pos octet
  byteSize_le := b.byteSize_le.trans_eq List.length_set.symm

def read (pos : Int) : Exec UInt8 := (Memory.ofList b.buf).read pos

def write (pos : Int) (octet : UInt8) : Exec BitBuffer := do
  let _ ← b.read pos
  return b.setOctet pos.toNat octet

def bitMask (bitPos : Nat) : UInt8 := 1 <<< UInt8.ofNat (7 - bitPos % 8)

def newBitString (bitSize : Nat) : BitBuffer where
  size := bitSize
  buf := List.replicate (bitStringByteSize bitSize) 0
  byteSize_le := List.length_replicate.ge

/-- `for (i = 0; i < byteSize; i++) buf[i] = octet` -/
def fill (octet : UInt8) (byteSize : Nat) : Exec BitBuffer :=
  (List.range byteSize).foldlM (fun b (i : Nat) => b.write i octet) b

def deleteAllBitStringBits : Exec BitBuffer := b.fill 0 (bitStringByteSize b.size)

def setAllBitStringBits : Exec BitBuffer := do
  let byteSize := bitStringByteSize b.size
  let b ← b.fill 0xff byteSize
  let last ← b.read (byteSize - 1)
  b.write (byteSize - 1) (last &&& paddingMask (byteSize * 8 - b.size))

/-- The loop about `currentByte`. -/
def countSetBits : Nat → UInt8 → Nat → Exec Nat
  | 0, _, _ => .error .outOfFuel
  | fuel + 1, currentByte, setBitsCount =>
    if currentByte = 0 then .ok setBitsCount
    else
      countSetBits fuel (currentByte >>> 1)
        (if currentByte &&& 1 = 1 then setBitsCount + 1 else setBitsCount)

def getNumberOfSetBits : Exec Nat :=
  (List.range (bitStringByteSize b.size)).foldlM
    (fun setBitsCount (i : Nat) => do countSetBits 9 (← b.read i) setBitsCount) 0

def setBitStringBit (bitPos : Nat) (value : Bool) : BitBuffer :=
  if h : bitPos < b.size then
    b.setOctet (bitPos / 8)
      (if value then b.octetAt bitPos h ||| bitMask bitPos
        else b.octetAt bitPos h &&& ~~~bitMask bitPos)
  else b

def getBitStringBit (bitPos : Nat) : Bool :=
  if h : bitPos < b.size then 0 < b.octetAt bitPos h &&& bitMask bitPos
  -- out of range bits are always zero
  else false

/-- `1 << 31` is the sign bit of an `int`, which counts as `2 ^ 31` when it is added. -/
def getBitStringAsInteger : UInt32 :=
  (List.range b.size).foldl
    (fun value bitPos =>
      if b.getBitStringBit bitPos then value + (1 <<< UInt32.ofNat bitPos) else value) 0

/-- The loop from a position on. -/
def setBitsFrom : Nat → Nat → UInt32 → BitBuffer → BitBuffer
  | 0, _, _, b => b
  | n + 1, bitPos, intValue, b =>
    setBitsFrom n (bitPos + 1) (intValue >>> 1) (b.setBitStringBit bitPos (intValue &&& 1 = 1))

def setBitStringFromInteger (intValue : UInt32) : BitBuffer := setBitsFrom b.size 0 intValue b

end BitBuffer

namespace GooseSubscriber

/-- What `parseAllData` does with an element of tag 0x84 when the member is a bit string;
`parseAllDataUnknownValue` makes a new one of the computed size and copies the same octets. -/
def storeBitString (b : BitBuffer) : List UInt8 → Exec BitBuffer
  | [] => .error .outOfBounds
  | padding :: octets =>
    if 8 * (octets.length : Int) - padding.toNat = b.size then
      if h : octets.length ≤ b.buf.length then
        .ok ⟨b.size, octets ++ b.buf.drop octets.length, by
          rw [List.length_append, List.length_drop, Nat.add_sub_cancel' h]
          exact b.byteSize_le⟩
      else .error .outOfBounds
    else .ok b

end GooseSubscriber

namespace BitBuffer

section Octets

variable {x : UInt8} {j k : Nat}

theorem testBit_shift (hk : k < 8) (hj : j < 8) :
    (1 <<< UInt8.ofNat k : UInt8).toNat.testBit j = decide (j = k) := by
  have hall : ∀ k < 8, ∀ j < 8, (1 <<< UInt8.ofNat k : UInt8).toNat.testBit j = decide (j = k) := by
    decide +kernel
  exact hall k hk j hj

theorem testBit_not_shift (hk : k < 8) (hj : j < 8) :
    (~~~(1 <<< UInt8.ofNat k) : UInt8).toNat.testBit j = !decide (j = k) := by
  have hall : ∀ k < 8, ∀ j < 8,
      (~~~(1 <<< UInt8.ofNat k) : UInt8).toNat.testBit j = !decide (j = k) := by
    decide +kernel
  exact hall k hk j hj

theorem pos_and_shift (hk : k < 8) :
    decide ((0 : UInt8) < x &&& (1 <<< UInt8.ofNat k)) = x.toNat.testBit k := by
  have hall : ∀ k < 8, (1 <<< UInt8.ofNat k : UInt8).toNat = 2 ^ k := by decide
  rw [Bool.eq_iff_iff, decide_eq_true_iff, UInt8.lt_iff_toNat_lt, UInt8.toNat_and, hall k hk,
    Nat.and_two_pow]
  cases x.toNat.testBit k with
  | false => simp
  | true => simp

end Octets

variable {b : BitBuffer}

theorem octetAt_eq {i : Nat} (h : i < b.size) : b.octetAt i h = b.buf.getD (i / 8) 0 :=
  List.getElem_eq_getD 0

theorem getBitStringBit_of_lt {i : Nat} (h : i < b.size) :
    b.getBitStringBit i = bufferBit b.buf i := by
  rw [getBitStringBit, dif_pos h, octetAt_eq h, bitMask, pos_and_shift (by omega), bufferBit]

theorem getBitStringBit_of_le {i : Nat} (h : b.size ≤ i) : b.getBitStringBit i = false :=
  dif_neg (Nat.not_lt.mpr h)

section SetBit

variable {i : Nat} {value : Bool}

theorem bufferBit_set {buf : List UInt8} {octet : UInt8} (h : i / 8 < buf.length) (j : Nat) :
    bufferBit (buf.set (i / 8) octet) j =
      if j / 8 = i / 8 then octet.toNat.testBit (7 - j % 8) else bufferBit buf j := by
  rw [bufferBit, bufferBit, List.getD_eq_getElem?_getD, List.getElem?_set]
  by_cases hij : j / 8 = i / 8
  · simp [hij, h]
  · simp [hij, Ne.symm hij]

/-- Setting a position of the bit string leaves every other bit of the buffer alone. -/
theorem bufferBit_setBitStringBit (h : i < b.size) (j : Nat) :
    bufferBit (b.setBitStringBit i value).buf j = if j = i then value else bufferBit b.buf j := by
  rw [setBitStringBit, dif_pos h, setOctet,
    bufferBit_set ((bytePos_lt h).trans_le b.byteSize_le), octetAt_eq h]
  by_cases hij : j / 8 = i / 8
  · have hmask : decide (7 - j % 8 = 7 - i % 8) = decide (j = i) :=
      decide_eq_decide.mpr (by omega)
    rw [if_pos hij, bufferBit, hij]
    cases value with
    | true =>
      rw [if_pos rfl, UInt8.toNat_or, Nat.testBit_or, bitMask,
        testBit_shift (by omega) (by omega), hmask]
      by_cases hji : j = i <;> simp [hji]
    | false =>
      rw [if_neg Bool.false_ne_true, UInt8.toNat_and, Nat.testBit_and, bitMask,
        testBit_not_shift (by omega) (by omega), hmask]
      by_cases hji : j = i <;> simp [hji]
  · have hne : j ≠ i := fun hji => hij (by rw [hji])
    rw [if_neg hij, if_neg hne]

@[simp] theorem size_setBitStringBit : (b.setBitStringBit i value).size = b.size := by
  unfold setBitStringBit
  split <;> rfl

end SetBit

section Count

/-- The loop about one octet, with a turn for each of the lowest `n` bits and one more. -/
theorem countSetBits_eq {n : Nat} {x : UInt8} (h : x.toNat < 2 ^ n) (count : Nat) :
    countSetBits (n + 1) x count =
      .ok (count + (List.range n).countP fun k => x.toNat.testBit k) := by
  induction n generalizing x count with
  | zero =>
    have hx : x = 0 := UInt8.toNat_inj.mp (by simpa using h)
    rw [countSetBits, if_pos hx]
    rfl
  | succ n ih =>
    by_cases hx : x = 0
    · subst hx
      rw [countSetBits, if_pos rfl, List.countP_eq_zero.mpr (by simp), Nat.add_zero]
    · have hshift : (x >>> 1).toNat = x.toNat / 2 := by
        rw [UInt8.toNat_shiftRight, Nat.shiftRight_eq_div_pow]
        rfl
      have hlow : (x &&& 1 = 1) ↔ x.toNat.testBit 0 = true := by
        rw [← UInt8.toNat_inj, UInt8.toNat_and, UInt8.toNat_one, Nat.and_one_is_mod,
          Nat.testBit_zero, decide_eq_true_iff]
      rw [countSetBits, if_neg hx, ih (by omega), List.range_succ_eq_map, List.countP_cons,
        List.countP_map, hshift]
      simp only [hlow, Function.comp_def, Nat.testBit_succ]
      by_cases hbit : x.toNat.testBit 0 = true
      · rw [if_pos hbit, if_pos hbit]
        congr 1
        omega
      · rw [if_neg hbit, if_neg hbit]
        rfl

/-- Positions count the bits of an octet from the other end. -/
theorem countP_octet (buf : List UInt8) (i : Nat) :
    ((List.range 8).map (8 * i + ·)).countP (bufferBit buf) =
      (List.range 8).countP fun k => (buf.getD i 0).toNat.testBit k := by
  have hrev : (List.range 8).reverse = (List.range 8).map (7 - ·) := by decide
  rw [← List.countP_reverse (l := List.range 8), hrev, List.countP_map, List.countP_map]
  apply List.countP_congr
  intro j hj
  have hlt : j < 8 := List.mem_range.mp hj
  rw [Function.comp_apply, Function.comp_apply, bufferBit, Nat.mul_add_div (by decide),
    Nat.div_eq_of_lt hlt, Nat.mul_add_mod, Nat.mod_eq_of_lt hlt, Nat.add_zero]

theorem read_of_lt {i : Nat} (h : i < b.buf.length) : b.read i = .ok (b.buf.getD i 0) := by
  rw [read, Memory.read_ok_iff, Memory.ofList_natCast, List.getElem?_eq_getElem h,
    List.getElem_eq_getD 0]

theorem foldlM_countSetBits {n : Nat} (h : n ≤ b.buf.length) :
    (List.range n).foldlM
        (fun setBitsCount (i : Nat) => do countSetBits 9 (← b.read i) setBitsCount) 0 =
      (.ok ((List.range (8 * n)).countP (bufferBit b.buf)) : Exec Nat) := by
  induction n with
  | zero => rfl
  | succ n ih =>
    rw [List.range_succ, List.foldlM_append, ih (Nat.le_of_succ_le h), Nat.mul_succ,
      List.range_add, List.countP_append, countP_octet]
    rw [ok_bind, List.foldlM_cons, read_of_lt h, ok_bind,
      countSetBits_eq (UInt8.toNat_lt _), ok_bind]
    rfl

end Count

/-- The bits of the last octet behind the last position. -/
def PaddingZero (b : BitBuffer) : Prop :=
  ∀ i < bitStringByteSize b.size * 8 - b.size, bufferBit b.buf (b.size + i) = false

theorem size_le_byteSize (n : Nat) : n ≤ bitStringByteSize n * 8 := by
  unfold bitStringByteSize
  split <;> omega

/-- The count includes the padding. -/
theorem getNumberOfSetBits_eq :
    b.getNumberOfSetBits =
      .ok ((List.range b.size).countP b.getBitStringBit +
        (List.range (bitStringByteSize b.size * 8 - b.size)).countP
          fun i => bufferBit b.buf (b.size + i)) := by
  have hsplit : 8 * bitStringByteSize b.size =
      b.size + (bitStringByteSize b.size * 8 - b.size) := by
    rw [Nat.add_sub_cancel' (size_le_byteSize b.size), Nat.mul_comm]
  have hbits : (List.range b.size).countP (bufferBit b.buf) =
      (List.range b.size).countP b.getBitStringBit := by
    apply List.countP_congr
    intro i hi
    rw [getBitStringBit_of_lt (List.mem_range.mp hi)]
  rw [getNumberOfSetBits, foldlM_countSetBits b.byteSize_le, hsplit, List.range_add,
    List.countP_append, List.countP_map, hbits]
  rfl

theorem counts_iff :
    b.getNumberOfSetBits = .ok ((List.range b.size).countP b.getBitStringBit) ↔
      b.PaddingZero := by
  rw [getNumberOfSetBits_eq, Except.ok.injEq, Nat.add_eq_left, List.countP_eq_zero]
  constructor
  · intro h i hi
    exact Bool.eq_false_of_not_eq_true (h i (List.mem_range.mpr hi))
  · intro h i hi
    rw [h i (List.mem_range.mp hi)]
    exact Bool.false_ne_true

section Bulk

variable {octet : UInt8}

/-- One turn writes the next octet. -/
theorem write_of_lt {i : Nat} (h : i < b.buf.length) :
    b.write i octet = .ok (b.setOctet i octet) := by
  rw [write, read_of_lt h]
  rfl

theorem fill_spec (octet : UInt8) {n : Nat} (h : n ≤ b.buf.length) :
    ∃ c : BitBuffer, b.fill octet n = .ok c ∧ c.size = b.size ∧
      c.buf = List.replicate n octet ++ b.buf.drop n := by
  induction n with
  | zero => exact ⟨b, rfl, rfl, rfl⟩
  | succ n ih =>
    obtain ⟨c, hc, hsize, hbuf⟩ := ih (Nat.le_of_succ_le h)
    have hlen : n < c.buf.length := by
      rw [hbuf, List.length_append, List.length_replicate, List.length_drop]
      omega
    refine ⟨c.setOctet n octet, ?_, hsize, ?_⟩
    · rw [fill] at hc
      rw [fill, List.range_succ, List.foldlM_append, hc, ok_bind, List.foldlM_cons,
        write_of_lt hlen]
      rfl
    · change c.buf.set n octet = _
      rw [hbuf, List.set_append_right _ _ (by simp), List.length_replicate,
        Nat.sub_self, List.drop_eq_getElem_cons h, List.set_cons_zero, List.replicate_succ',
        List.append_assoc]
      rfl

/-- All positions have this value, the bits behind them are clear and no other octet has
changed. -/
structure SetTo (b c : BitBuffer) (value : Bool) : Prop where
  size_eq : c.size = b.size
  positions : ∀ i < b.size, c.getBitStringBit i = value
  padding : c.PaddingZero
  behind : c.buf.drop (bitStringByteSize b.size) = b.buf.drop (bitStringByteSize b.size)

variable {c : BitBuffer} {value : Bool}

theorem setTo_of_bits (hsize : c.size = b.size)
    (hbits : ∀ i < bitStringByteSize b.size * 8,
      bufferBit c.buf i = if i < b.size then value else false)
    (hbehind : c.buf.drop (bitStringByteSize b.size) = b.buf.drop (bitStringByteSize b.size)) :
    SetTo b c value where
  size_eq := hsize
  positions i hi := by
    rw [getBitStringBit_of_lt (hsize ▸ hi),
      hbits i (hi.trans_le (size_le_byteSize b.size)), if_pos hi]
  padding i hi := by
    rw [hsize] at hi ⊢
    rw [hbits _ (by omega), if_neg (by omega)]
  behind := hbehind

theorem bufferBit_replicate_append {n i : Nat} {rest : List UInt8} (h : i < n * 8) :
    bufferBit (List.replicate n octet ++ rest) i = octet.toNat.testBit (7 - i % 8) := by
  have hlt : i / 8 < (List.replicate n octet).length := by
    rw [List.length_replicate]
    omega
  rw [bufferBit, List.getD_append _ _ _ _ hlt, List.getD_replicate (h := by simpa using hlt)]

theorem deleteAll_setTo : ∃ c, b.deleteAllBitStringBits = .ok c ∧ SetTo b c false := by
  obtain ⟨c, hc, hsize, hbuf⟩ := fill_spec 0 b.byteSize_le
  refine ⟨c, hc, setTo_of_bits hsize ?_ ?_⟩
  · intro i hi
    rw [hbuf, bufferBit_replicate_append hi]
    simp
  · rw [hbuf, List.drop_left' List.length_replicate]

theorem testBit_and_paddingMask {padding k : Nat} (hp : padding < 8) (hk : k < 8) :
    (0xff &&& paddingMask padding).toNat.testBit k = decide (padding ≤ k) := by
  have hall : ∀ k < 8, ∀ padding < 8,
      (0xff &&& paddingMask padding).toNat.testBit k = decide (padding ≤ k) := by
    decide +kernel
  exact hall k hk padding hp

/-- Without positions the octet before the buffer is masked. -/
theorem setAll_of_size_zero (h : b.size = 0) :
    b.setAllBitStringBits = .error .outOfBounds := by
  rw [setAllBitStringBits, h]
  rfl

theorem setAll_setTo (h : 0 < b.size) : ∃ c, b.setAllBitStringBits = .ok c ∧ SetTo b c true := by
  have hpos : 0 < bitStringByteSize b.size := Nat.zero_lt_of_lt (bytePos_lt h)
  have hpadding : bitStringByteSize b.size * 8 - b.size < 8 := by
    unfold bitStringByteSize
    split <;> omega
  obtain ⟨c, hc, hsize, hbuf⟩ := fill_spec 0xff b.byteSize_le
  have hlast : bitStringByteSize b.size - 1 < c.buf.length := by
    rw [hbuf, List.length_append, List.length_replicate]
    omega
  have hoctet : c.buf.getD (bitStringByteSize b.size - 1) 0 = 0xff := by
    rw [hbuf, List.getD_append _ _ _ _ (by simpa using hpos),
      List.getD_replicate (h := Nat.sub_lt hpos (by decide))]
  have hcast : (bitStringByteSize b.size : Int) - 1 = (bitStringByteSize b.size - 1 : Nat) := by
    omega
  refine ⟨_, ?_, setTo_of_bits (c := c.setOctet (bitStringByteSize b.size - 1)
    (0xff &&& paddingMask (bitStringByteSize b.size * 8 - b.size))) hsize ?_ ?_⟩
  · simp only [setAllBitStringBits]
    rw [hc, ok_bind, hcast, read_of_lt hlast, ok_bind, write_of_lt hlast, hoctet, hsize]
  · intro i hi
    change bufferBit (c.buf.set _ _) i = _
    by_cases hi' : i / 8 = bitStringByteSize b.size - 1
    · rw [← hi'] at hlast ⊢
      rw [bufferBit_set hlast, if_pos rfl, testBit_and_paddingMask hpadding (by omega),
        Bool.if_false_right, Bool.and_true]
      exact decide_eq_decide.mpr (by omega)
    · have hlt : i < b.size := by omega
      rw [if_pos hlt, bufferBit, List.getD_eq_getElem?_getD, List.getElem?_set_ne (Ne.symm hi'),
        ← List.getD_eq_getElem?_getD, hbuf]
      refine (bufferBit_replicate_append hi).trans ?_
      have hall : ∀ k < 8, (0xff : UInt8).toNat.testBit k = true := by decide
      exact hall _ (by omega)
  · change (c.buf.set _ _).drop _ = _
    rw [List.drop_set_of_lt (Nat.sub_lt hpos (by decide)), hbuf,
      List.drop_left' List.length_replicate]

end Bulk

section Integers

/-- The bits of the integer come to the positions, the lowest one first. -/
theorem bufferBit_setBitsFrom {n bitPos : Nat} {intValue : UInt32} (h : bitPos + n ≤ b.size)
    (j : Nat) :
    bufferBit (setBitsFrom n bitPos intValue b).buf j =
      if bitPos ≤ j ∧ j < bitPos + n then intValue.toNat.testBit (j - bitPos)
      else bufferBit b.buf j := by
  induction n generalizing bitPos intValue b with
  | zero => rw [setBitsFrom, if_neg (by omega)]
  | succ n ih =>
    have hshift : (intValue >>> 1).toNat = intValue.toNat / 2 := by
      rw [UInt32.toNat_shiftRight, Nat.shiftRight_eq_div_pow]
      rfl
    have hlow : decide (intValue &&& 1 = 1) = intValue.toNat.testBit 0 := by
      rw [Nat.testBit_zero, ← Nat.and_one_is_mod]
      exact decide_eq_decide.mpr UInt32.toNat_inj.symm
    rw [setBitsFrom, ih (by simpa [Nat.add_assoc, Nat.add_comm 1 n] using h),
      bufferBit_setBitStringBit (by omega), hshift, hlow]
    by_cases hj : bitPos + 1 ≤ j ∧ j < bitPos + 1 + n
    · rw [if_pos hj, if_pos (by omega), Nat.testBit_div_two]
      congr 1
      omega
    · rw [if_neg hj]
      by_cases hji : j = bitPos
      · rw [if_pos hji, if_pos (by omega), hji, Nat.sub_self]
      · rw [if_neg hji, if_neg (by omega)]

theorem size_setBitsFrom {n bitPos : Nat} {intValue : UInt32} :
    (setBitsFrom n bitPos intValue b).size = b.size := by
  induction n generalizing bitPos intValue b with
  | zero => rfl
  | succ n ih => rw [setBitsFrom, ih, size_setBitStringBit]

theorem bit_setBitStringFromInteger {intValue : UInt32} {i : Nat} (h : i < b.size) :
    (b.setBitStringFromInteger intValue).getBitStringBit i = intValue.toNat.testBit i := by
  rw [setBitStringFromInteger, getBitStringBit_of_lt (size_setBitsFrom.symm ▸ h),
    bufferBit_setBitsFrom (Nat.zero_add _).le, if_pos ⟨i.zero_le, by omega⟩, Nat.sub_zero]

/-- The sum over the first positions, which are those of the low bits. -/
theorem foldl_bits {intValue : UInt32} {n : Nat} (hn : n ≤ 32)
    (h : ∀ i < n, b.getBitStringBit i = intValue.toNat.testBit i) :
    ((List.range n).foldl
      (fun value bitPos =>
        if b.getBitStringBit bitPos then value + (1 <<< UInt32.ofNat bitPos) else value)
      0).toNat = intValue.toNat % 2 ^ n := by
  induction n with
  | zero => simp [Nat.mod_one]
  | succ n ih =>
    have hpow : (1 <<< UInt32.ofNat n : UInt32).toNat = 2 ^ n := by
      have hall : ∀ n < 32, (1 <<< UInt32.ofNat n : UInt32).toNat = 2 ^ n := by decide
      exact hall n hn
    have hlt : intValue.toNat % 2 ^ n + 2 ^ n < 2 ^ 32 := by
      calc
        intValue.toNat % 2 ^ n + 2 ^ n < 2 ^ n + 2 ^ n :=
          Nat.add_lt_add_right (Nat.mod_lt _ (Nat.two_pow_pos n)) _
        _ = 2 ^ (n + 1) := by rw [Nat.pow_succ, Nat.mul_two]
        _ ≤ 2 ^ 32 := Nat.pow_le_pow_right (by decide) hn
    rw [List.range_succ, List.foldl_append, List.foldl_cons, List.foldl_nil, h n (by omega),
      Nat.mod_pow_succ, ← Nat.toNat_testBit]
    have hsum := ih (by omega) fun i hi => h i (by omega)
    cases intValue.toNat.testBit n with
    | false => simpa using hsum
    | true =>
      rw [if_pos rfl, UInt32.toNat_add, hsum, hpow, Nat.mod_eq_of_lt hlt]
      simp

theorem getBitStringAsInteger_setBitStringFromInteger {intValue : UInt32} (hn : b.size ≤ 32)
    (h : intValue.toNat < 2 ^ b.size) :
    (b.setBitStringFromInteger intValue).getBitStringAsInteger = intValue := by
  have hsize : (b.setBitStringFromInteger intValue).size = b.size := size_setBitsFrom
  apply UInt32.toNat_inj.mp
  rw [getBitStringAsInteger, hsize,
    foldl_bits hn fun i hi => bit_setBitStringFromInteger hi, Nat.mod_eq_of_lt h]

end Integers

/-- What the functions about bit strings promise each other. -/
structure Consistent (b : BitBuffer) : Prop where
  count : b.getNumberOfSetBits = .ok ((List.range b.size).countP b.getBitStringBit)
  setAll : ∃ c, b.setAllBitStringBits = .ok c ∧ SetTo b c true
  deleteAll : ∃ c, b.deleteAllBitStringBits = .ok c ∧ SetTo b c false
  setBit : ∀ i < b.size, ∀ value j,
    (b.setBitStringBit i value).getBitStringBit j = if j = i then value else b.getBitStringBit j
  setBit_behind : ∀ i < b.size, ∀ value j, b.size ≤ j →
    bufferBit (b.setBitStringBit i value).buf j = bufferBit b.buf j
  integer : b.size ≤ 32 → ∀ v : UInt32, v.toNat < 2 ^ b.size →
    (b.setBitStringFromInteger v).getBitStringAsInteger = v

theorem getBitStringBit_setBitStringBit {i : Nat} (h : i < b.size) (j : Nat) :
    (b.setBitStringBit i value).getBitStringBit j =
      if j = i then value else b.getBitStringBit j := by
  by_cases hj : j < b.size
  · rw [getBitStringBit_of_lt (by simpa using hj), bufferBit_setBitStringBit h,
      getBitStringBit_of_lt hj]
  · have hle : b.size ≤ j := Nat.not_lt.mp hj
    rw [getBitStringBit_of_le (by simpa using hle), getBitStringBit_of_le hle,
      if_neg (by omega)]

theorem consistent_iff (b : BitBuffer) : b.Consistent ↔ 0 < b.size ∧ b.PaddingZero := by
  constructor
  · intro h
    refine ⟨?_, counts_iff.mp h.count⟩
    obtain ⟨c, hc, -⟩ := h.setAll
    by_contra hzero
    rw [setAll_of_size_zero (Nat.eq_zero_of_not_pos hzero)] at hc
    cases hc
  · rintro ⟨hpos, hpadding⟩
    refine ⟨counts_iff.mpr hpadding, setAll_setTo hpos, deleteAll_setTo, ?_, ?_, ?_⟩
    · intro i hi value j
      exact getBitStringBit_setBitStringBit hi j
    · intro i hi value j hj
      rw [bufferBit_setBitStringBit hi, if_neg (by omega)]
    · intro hn v hv
      exact getBitStringAsInteger_setBitStringFromInteger hn hv

/-- A member of four bits after a message whose four padding bits are set. -/
theorem not_consistent_received :
    ∃ b : BitBuffer, GooseSubscriber.storeBitString (newBitString 4) [4, 0x0f] = .ok b ∧
      ¬ b.Consistent := by
  refine ⟨⟨4, [0x0f], by decide⟩, rfl, ?_⟩
  intro h
  have hcount : (Except.ok 4 : Exec Nat) = .ok 0 := h.count
  cases hcount

/-! Where clear padding comes from. -/

/-- The values an application builds. -/
inductive Built : BitBuffer → Prop
  | newBitString (bitSize : Nat) : Built (newBitString bitSize)
  | setBitStringBit {b : BitBuffer} (bitPos : Nat) (value : Bool) :
    Built b → Built (b.setBitStringBit bitPos value)
  | setBitStringFromInteger {b : BitBuffer} (intValue : UInt32) :
    Built b → Built (b.setBitStringFromInteger intValue)
  | setAllBitStringBits {b c : BitBuffer} :
    Built b → b.setAllBitStringBits = .ok c → Built c
  | deleteAllBitStringBits {b c : BitBuffer} :
    Built b → b.deleteAllBitStringBits = .ok c → Built c

theorem paddingZero_setBitStringBit {bitPos : Nat} (h : b.PaddingZero) :
    (b.setBitStringBit bitPos value).PaddingZero := by
  intro i hi
  rw [size_setBitStringBit] at hi ⊢
  by_cases hpos : bitPos < b.size
  · rw [bufferBit_setBitStringBit hpos, if_neg (by omega)]
    exact h i hi
  · rw [setBitStringBit, dif_neg hpos]
    exact h i hi

theorem paddingZero_setBitsFrom {n bitPos : Nat} {intValue : UInt32} (h : b.PaddingZero) :
    (setBitsFrom n bitPos intValue b).PaddingZero := by
  induction n generalizing bitPos intValue b with
  | zero => exact h
  | succ n ih => exact ih (paddingZero_setBitStringBit h)

theorem Built.paddingZero (h : b.Built) : b.PaddingZero := by
  induction h with
  | newBitString bitSize =>
    intro i hi
    have hlt : bitSize + i < bitStringByteSize bitSize * 8 := Nat.add_lt_of_lt_sub' hi
    have hbuf : (BitBuffer.newBitString bitSize).buf =
        List.replicate (bitStringByteSize bitSize) 0 ++ [] := (List.append_nil _).symm
    rw [hbuf]
    exact (bufferBit_replicate_append hlt).trans (by simp)
  | setBitStringBit bitPos value _ ih => exact paddingZero_setBitStringBit ih
  | setBitStringFromInteger intValue _ ih => exact paddingZero_setBitsFrom ih
  | @setAllBitStringBits b c _ hc _ =>
    by_cases hpos : 0 < b.size
    · obtain ⟨d, hd, hset⟩ := setAll_setTo hpos
      rw [hd] at hc
      exact Except.ok.inj hc ▸ hset.padding
    · rw [setAll_of_size_zero (Nat.eq_zero_of_not_pos hpos)] at hc
      cases hc
  | @deleteAllBitStringBits b c _ hc _ =>
    obtain ⟨d, hd, hset⟩ := deleteAll_setTo (b := b)
    rw [hd] at hc
    exact Except.ok.inj hc ▸ hset.padding

theorem testBit_paddingMask_of_lt {padding k : Nat} (h : k < padding) (hp : padding < 8) :
    (paddingMask padding).toNat.testBit k = false := by
  have hall : ∀ padding < 8, ∀ k < padding, (paddingMask padding).toNat.testBit k = false := by
    decide
  exact hall padding hp k h

/-- The decoder of MMS messages clears the unused bits of the last octet, when there are fewer
than eight. -/
theorem paddingZero_of_decoded {unused : UInt8} {octets : List UInt8} {d : Data}
    (hd : Asn1.decodePrimitive 0x84 (unused :: octets) = some d)
    (hp : MmsMsg.parseDataElement d = .ok (.bitString b.size b.buf)) (hu : unused.toNat < 8) :
    b.PaddingZero := by
  cases Option.some.inj hd
  simp only [Asn1.decodeBitString, MmsMsg.parseDataElement, length_maskLast] at hp
  injection hp with hvalue
  injection hvalue with hsize hbuf
  intro i hi
  have hi' := hi
  unfold bitStringByteSize at hi'
  rw [← hbuf, bufferBit, getD_maskLast]
  have hlast : (b.size + i) / 8 + 1 = octets.length := by
    split at hi' <;> omega
  rw [if_pos hlast, UInt8.toNat_and, Nat.testBit_and,
    testBit_paddingMask_of_lt (by split at hi' <;> omega) hu, Bool.and_false]

end BitBuffer

end Iec61850
