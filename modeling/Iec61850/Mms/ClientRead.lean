import Iec61850.Mms.AccessResult
import Iec61850.Mms.DataElement

/-! `mms_client_read.c`: what a client makes of the access results a server has encoded. -/

namespace Iec61850

open Machine

/-- `AccessResult_t` -/
inductive AccessResult
  | failure (buf : List UInt8)
  | data (d : Data)

/-! The decoder between them, for elements with definite lengths. -/

namespace Asn1

def decodeBitString : List UInt8 → List UInt8 × Int
  | [] => ([], 0)
  | unused :: buf =>
    (BerEncoder.maskLast (BerEncoder.paddingMask unused.toNat) buf, unused.toNat)

def decodePrimitive (tag : UInt8) (content : List UInt8) : Option Data :=
  if tag = 0x83 then
    match content with
    | [b] => some (.boolean (b ≠ 0))
    | _ => none
  else if tag = 0x84 then
    some (.bitstring (decodeBitString content).1 (decodeBitString content).2)
  else if tag = 0x85 then some (.integer content)
  else if tag = 0x86 then some (.unsigned content)
  else if tag = 0x87 then some (.floatingpoint content)
  else if tag = 0x89 then some (.octetstring content)
  else if tag = 0x8a then some (.visiblestring content)
  else if tag = 0x8b then some (.generalizedtime content)
  else if tag = 0x8c then some (.binarytime content)
  else if tag = 0x8d then some (.bcd content)
  else if tag = 0x8e then
    some (.booleanArray (decodeBitString content).1 (decodeBitString content).2)
  else if tag = 0x90 then some (.mMSString content)
  else if tag = 0x91 then some (.utctime content)
  else none

mutual

def decodeData : Tlv.Tree → Option Data
  | .primitive tag content => decodePrimitive tag content
  | .constructed tag elements =>
    if tag = 0xa1 then (decodeDataSequence elements).map .array
    else if tag = 0xa2 then (decodeDataSequence elements).map .structure
    else none

def decodeDataSequence : List Tlv.Tree → Option (List Data)
  | [] => some []
  | t :: ts => do return (← decodeData t) :: (← decodeDataSequence ts)

end

def decodeAccessResult : Tlv.Tree → Option AccessResult
  | .primitive tag content =>
    if tag = 0x80 then some (.failure content)
    else (decodePrimitive tag content).map .data
  | t => (decodeData t).map .data

def decodeListOfAccessResult (octets : List UInt8) : Option (List AccessResult) := do
  (← Tlv.readAll octets).mapM decodeAccessResult

end Asn1

namespace MmsClient

/-- The codes from 0 to 11 are known. -/
def dataAccessErrorOfCode : Nat → MmsDataAccessError
  | 0 => .objectInvalidated
  | 1 => .hardwareFault
  | 2 => .temporarilyUnavailable
  | 3 => .objectAccessDenied
  | 4 => .objectUndefined
  | 5 => .invalidAddress
  | 6 => .typeUnsupported
  | 7 => .typeInconsistent
  | 8 => .objectAttributeInconsistent
  | 9 => .objectAccessUnsupported
  | 10 => .objectNoneExistent
  | 11 => .objectValueInvalid
  | _ => .unknown

/-- One turn of the loop. `value` is what the turn before has left in the variable. -/
def parseAccessResult (value : ParsedValue) : AccessResult → Exec ParsedValue
  | .failure [] => .ok (.dataAccessError .unknown)
  | .failure (code :: _) => .ok (.dataAccessError (dataAccessErrorOfCode code.toNat))
  | .data (.binarytime buf) => .ok (if buf.length ≤ 6 then .binaryTime buf else value)
  | .data .nothing => .ok (.dataAccessError .objectValueInvalid)
  | .data (.generalizedtime _) => .ok (.dataAccessError .objectValueInvalid)
  | .data (.bcd _) => .ok (.dataAccessError .objectValueInvalid)
  | .data (.booleanArray _ _) => .ok (.dataAccessError .objectValueInvalid)
  -- the lines about the other types are the ones of `mmsMsg_parseDataElement`
  | .data d => MmsMsg.parseDataElement d

def parseElements (value : ParsedValue) : List AccessResult → Exec (List ParsedValue)
  | [] => .ok []
  | r :: rs => do
    let value ← parseAccessResult value r
    return value :: (← parseElements value rs)

/-- `mmsClient_parseListOfAccessResults` -/
def parseListOfAccessResults (accessResultList : List AccessResult) (createArray : Bool) :
    Exec ParsedValue := do
  let values ← parseElements .null accessResultList
  return if 1 < accessResultList.length ∨ createArray then .array values else values.headD .null

/-- The client reads these values from what the server has encoded. -/
def ReadsBack (vs : List MmsValue) (createArray : Bool) : Prop :=
  ∃ results ps,
    Asn1.decodeListOfAccessResult (MmsServer.encodeElements vs) = some results ∧
      parseListOfAccessResults results createArray =
        .ok (if 1 < vs.length ∨ createArray then .array ps else ps.headD .null) ∧
      MmsValue.SameAll vs ps

end MmsClient

namespace MmsValue

/-- An access error is a result of its own, with a code that names an error. -/
def Reports (e : MmsDataAccessError) : Prop := 0 ≤ e.code

instance : DecidablePred Reports := fun e => inferInstanceAs (Decidable (0 ≤ e.code))

def IsDataAccessError : MmsValue → Prop
  | .dataAccessError _ => True
  | _ => False

/-- What can be the value of a result: no access error is inside, the lengths have at most two
octets, and within an array or a structure the leaves are sized as they are written. -/
structure IsReadable (v : MmsValue) : Prop where
  noError : ∀ l ∈ v.leaves, ¬ l.IsDataAccessError
  length_lt : (MmsServer.encodeAccessResult v).length < 65536
  sized : v.IsLeaf ∨ ∀ l ∈ v.leaves, MmsServer.SizedExactly l

/-- What can be a result. -/
def IsResult : MmsValue → Prop
  | .dataAccessError e => Reports e
  | v => v.IsReadable

end MmsValue

namespace MmsServer

open BerEncoder MmsValue

mutual

/-- The element that carries a value. -/
def treeOf : MmsValue → Tlv.Tree
  | .structured components => .constructed 0xa2 (treesOf components)
  | .array elements => .constructed 0xa1 (treesOf elements)
  | .dataAccessError e => .primitive 0x80 (encodeUInt32 (.ofInt e.code))
  | .visibleString s => .primitive 0x8a ((s.map (·.octets)).getD [])
  | .unsigned v => .primitive 0x86 v.content
  | .integer v => .primitive 0x85 v.content
  | .utcTime t => .primitive 0x91 t.octets
  | .bitString b =>
    let padding := bitStringByteSize b.size * 8 - b.size
    .primitive 0x84 (maskLast (paddingMask padding)
      (UInt8.ofNat padding :: b.buf.take (bitStringByteSize b.size)))
  | .boolean b => .primitive 0x83 [if b then 0xff else 0x00]
  | .binaryTime t => .primitive 0x8c t.content
  | .octetString o => .primitive 0x89 o.content
  | .float f => .primitive 0x87 (encodeFloat f.buf f.exponentWidth)
  | .mmsString s => .primitive 0x90 ((s.map (·.octets)).getD [])

def treesOf : List MmsValue → List Tlv.Tree
  | [] => []
  | v :: vs => treeOf v :: treesOf vs

end

theorem encodes_primitive {tag : UInt8} (hp : ¬ Tlv.IsConstructed tag) {content : List UInt8}
    {n : Nat} (hn : content.length = n) {trees : List Tlv.Tree} {octets : List UInt8}
    (ht : Tlv.Encodes trees octets) (h : (tag :: encodeLength n ++ content).length < 65536) :
    Tlv.Encodes (.primitive tag content :: trees) (tag :: encodeLength n ++ content ++ octets) := by
  rw [List.length_append] at h
  rw [List.append_assoc]
  apply Tlv.Encodes.primitive hp _ ht
  rw [hn]
  exact lengthOctets_encodeLength (by omega)

theorem encodes_string {tag : UInt8} (hp : ¬ Tlv.IsConstructed tag) (s : Option (List UInt8))
    {trees : List Tlv.Tree} {octets : List UInt8} (ht : Tlv.Encodes trees octets)
    (h : (encodeStringWithTag tag s).length < 65536) :
    Tlv.Encodes (.primitive tag (s.getD []) :: trees) (encodeStringWithTag tag s ++ octets) := by
  cases s with
  | none =>
    have hnil : Tlv.Encodes (.primitive tag [] :: trees)
        (tag :: encodeLength 0 ++ [] ++ octets) :=
      encodes_primitive hp List.length_nil ht (by simp [encodeLength])
    rwa [List.append_nil] at hnil
  | some s => exact encodes_primitive hp rfl ht h

theorem leaf_encodes {v : MmsValue} (hv : v.IsLeaf) (h : (encodeAccessResult v).length < 65536)
    {trees : List Tlv.Tree} {octets : List UInt8} (ht : Tlv.Encodes trees octets) :
    Tlv.Encodes (treeOf v :: trees) (encodeAccessResult v ++ octets) := by
  cases v with
  | array | structured => exact hv.elim
  | visibleString s | mmsString s => exact encodes_string (by decide) _ ht h
  | boolean b =>
    change Tlv.Encodes _ (0x83 :: encodeLength 1 ++ [if b then 0xff else 0x00] ++ octets)
    exact encodes_primitive (by decide) rfl ht h
  | bitString b =>
    refine encodes_primitive (by decide) ?_ ht h
    simp [b.buf_length]
  | integer v | unsigned v => exact encodes_primitive (by decide) v.length_content ht h
  | float f => exact encodes_primitive (by decide) (length_encodeFloat f) ht h
  | octetString o => exact encodes_primitive (by decide) rfl ht h
  | binaryTime t => exact encodes_primitive (by decide) rfl ht h
  | utcTime t => exact encodes_primitive (by decide) rfl ht h
  | dataAccessError e => exact encodes_primitive (by decide) (length_encodeUInt32 _) ht h

/-- The elements of an array or a structure, one after the other. -/
theorem elements_encode {vs : List MmsValue}
    (h : ∀ v ∈ vs, ∀ {trees octets}, Tlv.Encodes trees octets →
      Tlv.Encodes (treeOf v :: trees) (encodeAccessResult v ++ octets)) :
    Tlv.Encodes (treesOf vs) (encodeElements vs) := by
  induction vs with
  | nil => exact .nil
  | cons v vs ih =>
    apply h v List.mem_cons_self
    apply ih
    intro w hw
    exact h w (List.mem_cons_of_mem v hw)

theorem encodes_constructed {tag : UInt8} (hc : Tlv.IsConstructed tag) {vs : List MmsValue}
    (hs : (encodeElements vs).length = elementsSize vs)
    (he : Tlv.Encodes (treesOf vs) (encodeElements vs)) {trees : List Tlv.Tree}
    {octets : List UInt8} (ht : Tlv.Encodes trees octets)
    (h : (tag :: encodeLength (elementsSize vs) ++ encodeElements vs).length < 65536) :
    Tlv.Encodes (.constructed tag (treesOf vs) :: trees)
      (tag :: encodeLength (elementsSize vs) ++ encodeElements vs ++ octets) := by
  rw [List.length_append] at h
  rw [List.append_assoc]
  apply Tlv.Encodes.constructed hc he _ ht
  rw [hs]
  exact lengthOctets_encodeLength (by omega)

theorem tree_encodes {v : MmsValue} (h : (encodeAccessResult v).length < 65536)
    (hexact : ∀ l ∈ leaves v, SizedExactly l) {trees : List Tlv.Tree} {octets : List UInt8}
    (ht : Tlv.Encodes trees octets) :
    Tlv.Encodes (treeOf v :: trees) (encodeAccessResult v ++ octets) := by
  induction v using MmsValue.tree_induction generalizing trees octets with
  | array vs ih | structured vs ih =>
    simp only [encodeAccessResult, leaves] at h hexact
    have hs := (elements_size fun v _ => tree_size v).2.mpr hexact
    refine encodes_constructed (by decide) hs (elements_encode ?_) ht h
    intro v hv trees octets ht
    have hle := length_le_elements hv
    rw [List.length_append] at h
    exact ih v hv (by omega) (fun l hl => hexact l (mem_leavesOf.mpr ⟨v, hv, hl⟩)) ht
  | leaf v hv => exact leaf_encodes hv h ht

end MmsServer

namespace BerEncoder

theorem getD_maskLast (mask : UInt8) (bs : List UInt8) (i : Nat) :
    (maskLast mask bs).getD i 0 =
      if i + 1 = bs.length then bs.getD i 0 &&& mask else bs.getD i 0 := by
  induction bs generalizing i with
  | nil => rfl
  | cons b bs ih =>
    cases bs with
    | nil =>
      cases i with
      | zero => rfl
      | succ i => rfl
    | cons c bs =>
      cases i with
      | zero => rfl
      | succ i =>
        rw [maskLast, List.getD_cons_succ, ih i, List.getD_cons_succ]
        simp only [List.length_cons, Nat.add_right_cancel_iff]

theorem testBit_paddingMask {padding k : Nat} (h : padding ≤ k) (hk : k < 8) :
    (paddingMask padding).toNat.testBit k = true := by
  have hall : ∀ k < 8, ∀ padding ≤ k, (paddingMask padding).toNat.testBit k = true := by decide
  exact hall k hk padding h

/-- The mask clears none of the bits of the bit string. -/
theorem bufferBit_maskLast {size i : Nat} {buf : List UInt8}
    (hlen : buf.length = bitStringByteSize size) (hi : i < size) :
    bufferBit (maskLast (paddingMask (bitStringByteSize size * 8 - size)) buf) i =
      bufferBit buf i := by
  rw [bufferBit, bufferBit, getD_maskLast]
  split
  case isTrue hlast =>
    have hbit : bitStringByteSize size * 8 - size ≤ 7 - i % 8 := by
      rw [hlen] at hlast
      omega
    rw [UInt8.toNat_and, Nat.testBit_and, testBit_paddingMask hbit (by omega), Bool.and_true]
  case isFalse => rfl

theorem decodeBitString_maskLast {padding : Nat} {buf : List UInt8} (hp : padding < 8)
    (hnil : buf = [] → padding = 0) :
    Asn1.decodeBitString (maskLast (paddingMask padding) (UInt8.ofNat padding :: buf)) =
      (maskLast (paddingMask padding) (maskLast (paddingMask padding) buf), (padding : Int)) := by
  cases buf with
  | nil =>
    rw [hnil rfl]
    rfl
  | cons b buf =>
    have hpad : (UInt8.ofNat padding).toNat = padding :=
      UInt8.toNat_ofNat_of_lt' (show padding < 256 by omega)
    rw [maskLast, Asn1.decodeBitString, hpad]

end BerEncoder

namespace MmsClient

open MmsServer MmsValue BerEncoder

/-- What a leaf sends is decoded and parsed, at the top and inside. -/
theorem leaf_parses {v : MmsValue} (hv : v.IsLeaf) (he : ¬ v.IsDataAccessError) :
    ∃ tag content d p, treeOf v = .primitive tag content ∧ tag ≠ 0x80 ∧
      Asn1.decodePrimitive tag content = some d ∧ MmsMsg.parseDataElement d = .ok p ∧
      (∀ value, parseAccessResult value (.data d) = .ok p) ∧ v.Same p := by
  cases v with
  | array | structured => exact hv.elim
  | dataAccessError e => exact absurd trivial he
  | boolean b =>
    refine ⟨_, _, _, _, rfl, by decide, rfl, rfl, fun _ => rfl, ?_⟩
    cases b with
    | true => rfl
    | false => rfl
  | bitString b =>
    have hcover : b.size ≤ bitStringByteSize b.size * 8 ∧
        bitStringByteSize b.size * 8 - b.size < 8 := by
      rw [bitStringByteSize]
      split <;> omega
    have htake : b.buf.take (bitStringByteSize b.size) = b.buf :=
      List.take_of_length_le b.buf_length.le
    have hnil : b.buf = [] → bitStringByteSize b.size * 8 - b.size = 0 := by
      intro h
      rw [← b.buf_length, h]
      exact Nat.zero_sub _
    refine ⟨_, _, _, _, rfl, by decide, rfl, rfl, fun _ => rfl, ?_⟩
    rw [htake, decodeBitString_maskLast hcover.2 hnil]
    refine ⟨?_, ?_⟩
    · rw [length_maskLast, length_maskLast, b.buf_length]
      omega
    · intro i hi
      have hmasked : (maskLast (paddingMask (bitStringByteSize b.size * 8 - b.size)) b.buf).length
          = bitStringByteSize b.size := (length_maskLast _ _).trans b.buf_length
      rw [bufferBit_maskLast hmasked hi, bufferBit_maskLast b.buf_length hi]
  | integer v | unsigned v =>
    have hcontent := BerInteger.content_createFromOctets (v.length_content.trans_lt v.size_lt)
    exact ⟨_, _, _, _, rfl, by decide, rfl, rfl, fun _ => rfl, hcontent.symm⟩
  | float f =>
    have hparsed : MmsMsg.parseFloatData (encodeFloat f.buf f.exponentWidth) =
        .float f.exponentWidth f.formatWidth f.buf := by
      rcases f.formatWidth_eq with h | h
      · simp [encodeFloat, revertByteOrder, MmsMsg.parseFloatData, f.buf_length, h]
      · simp [encodeFloat, revertByteOrder, MmsMsg.parseFloatData, f.buf_length, h]
    refine ⟨_, _, _, _, rfl, by decide, rfl, rfl, fun _ => rfl, ?_⟩
    rw [hparsed]
    exact ⟨rfl, rfl, rfl⟩
  | octetString o =>
    have hlt := o.size_le.trans_lt o.maxSize_lt
    refine ⟨_, _, _, _, rfl, by decide, rfl, rfl, fun _ => rfl, ?_, rfl⟩
    rw [o.length_content, Nat.mod_eq_of_lt hlt]
  | visibleString s | mmsString s =>
    exact ⟨_, _, _, _, rfl, by decide, rfl, rfl, fun _ => rfl, rfl⟩
  | binaryTime t =>
    have hle : t.content.length ≤ 6 := by
      rw [t.length_content]
      rcases t.size_eq with h | h <;> omega
    refine ⟨_, _, .binarytime t.content, .binaryTime t.content, rfl, by decide, rfl, ?_, ?_, rfl⟩
    · rw [MmsMsg.parseDataElement, if_pos hle]
    · intro value
      rw [parseAccessResult, if_pos hle]
  | utcTime t =>
    have hparsed : MmsMsg.parseDataElement (.utctime t.octets) = .ok (.utcTime t.octets) := by
      rw [MmsMsg.parseDataElement, if_pos t.octets_length.ge,
        List.take_of_length_le t.octets_length.le]
    exact ⟨_, _, .utctime t.octets, _, rfl, by decide, rfl, hparsed, fun _ => hparsed, rfl⟩

/-- The tree of a value is decoded into something that is parsed as the value. -/
def Parses (v : MmsValue) : Prop :=
  ∃ d p, Asn1.decodeData (treeOf v) = some d ∧ MmsMsg.parseDataElement d = .ok p ∧ v.Same p

theorem elements_parse {vs : List MmsValue} (h : ∀ v ∈ vs, Parses v) :
    ∃ ds ps, Asn1.decodeDataSequence (treesOf vs) = some ds ∧
      MmsMsg.parseDataElements ds = .ok ps ∧ SameAll vs ps := by
  induction vs with
  | nil => exact ⟨[], [], rfl, rfl, trivial⟩
  | cons v vs ih =>
    obtain ⟨d, p, hd, hp, hsame⟩ := h v List.mem_cons_self
    obtain ⟨ds, ps, hds, hps, hsames⟩ := ih fun w hw => h w (List.mem_cons_of_mem v hw)
    refine ⟨d :: ds, p :: ps, ?_, ?_, hsame, hsames⟩
    · rw [treesOf, Asn1.decodeDataSequence, hd, hds]
      rfl
    · rw [MmsMsg.parseDataElements, hp, ok_bind, hps]
      rfl

theorem tree_parses (v : MmsValue) (he : ∀ l ∈ leaves v, ¬ l.IsDataAccessError) : Parses v := by
  induction v using MmsValue.tree_induction with
  | array vs ih =>
    obtain ⟨ds, ps, hds, hps, hsame⟩ := elements_parse fun v hv =>
      ih v hv fun l hl => he l (mem_leavesOf.mpr ⟨v, hv, hl⟩)
    refine ⟨.array ds, .array ps, ?_, ?_, hsame⟩
    · rw [treeOf, Asn1.decodeData, hds]
      rfl
    · rw [MmsMsg.parseDataElement, hps]
      rfl
  | structured vs ih =>
    obtain ⟨ds, ps, hds, hps, hsame⟩ := elements_parse fun v hv =>
      ih v hv fun l hl => he l (mem_leavesOf.mpr ⟨v, hv, hl⟩)
    refine ⟨.structure ds, .structured ps, ?_, ?_, hsame⟩
    · rw [treeOf, Asn1.decodeData, hds]
      rfl
    · rw [MmsMsg.parseDataElement, hps]
      rfl
  | leaf v hv =>
    rw [leaves_of_isLeaf hv, List.forall_mem_singleton] at he
    obtain ⟨tag, content, d, p, htree, -, hd, hp, -, hsame⟩ := leaf_parses hv he
    refine ⟨d, p, ?_, hp, hsame⟩
    rw [htree, Asn1.decodeData, hd]

/-- The codes of errors come back as they are. -/
theorem dataAccessError_parses {e : MmsDataAccessError} (h : Reports e) (value : ParsedValue) :
    parseAccessResult value (.failure (encodeUInt32 (.ofInt e.code))) =
      .ok (.dataAccessError e) := by
  cases e with
  | noResponse | success => exact absurd h (by decide)
  | _ => rfl

theorem constructed_parses {v : MmsValue} {tag : UInt8} {trees : List Tlv.Tree} {d : Data}
    (ht : treeOf v = .constructed tag trees) (hd : Asn1.decodeData (treeOf v) = some d) :
    Asn1.decodeAccessResult (treeOf v) = some (.data d) := by
  rw [ht] at hd ⊢
  rw [Asn1.decodeAccessResult, hd]
  · rfl
  · intro tag content h
    cases h

theorem leaf_result_parses {v : MmsValue} (hv : v.IsLeaf) (he : ¬ v.IsDataAccessError) :
    ∃ r p, Asn1.decodeAccessResult (treeOf v) = some r ∧
      (∀ value, parseAccessResult value r = .ok p) ∧ v.Same p := by
  obtain ⟨tag, content, d, p, htree, htag, hd, -, hp, hsame⟩ := leaf_parses hv he
  refine ⟨.data d, p, ?_, hp, hsame⟩
  rw [htree, Asn1.decodeAccessResult, if_neg htag, hd]
  rfl

/-- One result is decoded into something that is parsed as the value. -/
theorem result_parses {v : MmsValue} (h : v.IsResult) :
    ∃ r p, Asn1.decodeAccessResult (treeOf v) = some r ∧
      (∀ value, parseAccessResult value r = .ok p) ∧ v.Same p := by
  cases v with
  | dataAccessError e => exact ⟨_, _, rfl, dataAccessError_parses h, rfl⟩
  | array vs =>
    obtain ⟨d, p, hd, hp, hsame⟩ := tree_parses (.array vs) h.noError
    refine ⟨_, p, constructed_parses rfl hd, fun value => ?_, hsame⟩
    obtain ⟨ds, -, rfl⟩ := Option.map_eq_some_iff.mp hd
    exact hp
  | structured vs =>
    obtain ⟨d, p, hd, hp, hsame⟩ := tree_parses (.structured vs) h.noError
    refine ⟨_, p, constructed_parses rfl hd, fun value => ?_, hsame⟩
    obtain ⟨ds, -, rfl⟩ := Option.map_eq_some_iff.mp hd
    exact hp
  | _ =>
    apply leaf_result_parses
    · exact trivial
    · exact id

theorem results_parse {vs : List MmsValue} (h : ∀ v ∈ vs, v.IsResult) :
    ∃ results ps, (treesOf vs).mapM Asn1.decodeAccessResult = some results ∧
      results.length = vs.length ∧ (∀ value, parseElements value results = .ok ps) ∧
      SameAll vs ps := by
  induction vs with
  | nil => exact ⟨[], [], rfl, rfl, fun _ => rfl, trivial⟩
  | cons v vs ih =>
    obtain ⟨r, p, hr, hp, hsame⟩ := result_parses (h v List.mem_cons_self)
    obtain ⟨results, ps, hrs, hlength, hps, hsames⟩ :=
      ih fun w hw => h w (List.mem_cons_of_mem v hw)
    refine ⟨r :: results, p :: ps, ?_, congrArg (· + 1) hlength, fun value => ?_, hsame, hsames⟩
    · rw [treesOf, List.mapM_cons, hr, hrs]
      rfl
    · rw [parseElements, hp, ok_bind, hps]
      rfl

theorem result_encodes {v : MmsValue} (h : v.IsResult) {trees : List Tlv.Tree}
    {octets : List UInt8} (ht : Tlv.Encodes trees octets) :
    Tlv.Encodes (treeOf v :: trees) (encodeAccessResult v ++ octets) := by
  cases v with
  | array | structured =>
    rcases h.sized with hleaf | hsized
    · exact hleaf.elim
    · exact tree_encodes h.length_lt hsized ht
  | dataAccessError e =>
    refine leaf_encodes (v := .dataAccessError e) trivial ?_ ht
    have hle := uInt32determineEncodedSize_le (.ofInt e.code)
    rw [encodeAccessResult, List.length_append, length_encodeTL_short _ (by omega),
      length_encodeUInt32]
    omega
  | _ =>
    refine leaf_encodes ?_ h.length_lt ht
    exact trivial

/-- Every list of results is read back. -/
theorem readsBack_of_results (vs : List MmsValue) (createArray : Bool)
    (h : ∀ v ∈ vs, v.IsResult) : ReadsBack vs createArray := by
  have hencodes : Tlv.Encodes (treesOf vs) (encodeElements vs) :=
    elements_encode fun v hv _ _ ht => result_encodes (h v hv) ht
  obtain ⟨results, ps, hr, hlength, hp, hsame⟩ := results_parse h
  refine ⟨results, ps, ?_, ?_, hsame⟩
  · rw [Asn1.decodeListOfAccessResult, hencodes.readAll]
    exact hr
  · rw [parseListOfAccessResults, hp, ok_bind, hlength]
    rfl

/-- A structure with a bit string and an empty string, and an access error. -/
theorem readsBack_structure_and_error : ReadsBack
    [.structured [.bitString ⟨8, [0xff], rfl⟩, .visibleString none],
      .dataAccessError .objectUndefined] true := by
  apply readsBack_of_results
  intro v hv
  rw [List.mem_cons, List.mem_singleton] at hv
  rcases hv with rfl | rfl
  · refine ⟨?_, by decide, .inr ?_⟩
    · intro l hl
      simp only [leaves, leavesOf, List.append_nil, List.mem_append, List.mem_singleton] at hl
      rcases hl with rfl | rfl
      · exact id
      · exact id
    · intro l hl
      simp only [leaves, leavesOf, List.append_nil, List.mem_append, List.mem_singleton] at hl
      rcases hl with rfl | rfl
      · exact ⟨by decide, by decide⟩
      · trivial
  · exact (by decide : Reports .objectUndefined)

/-- The head of the values is the one of the first result. -/
theorem ReadsBack.head {v : MmsValue} {vs : List MmsValue} (h : ReadsBack (v :: vs) true) :
    ∃ r results p, Asn1.decodeListOfAccessResult (encodeElements (v :: vs)) = some (r :: results) ∧
      parseAccessResult .null r = .ok p ∧ v.Same p := by
  obtain ⟨results, ps, hdecode, hparse, hsame⟩ := h
  obtain ⟨values, hvalues, hparse⟩ := bind_ok hparse
  simp only [or_true, if_true] at hparse
  obtain rfl : values = ps := ParsedValue.array.inj (Except.ok.inj hparse)
  cases results with
  | nil =>
    cases hvalues
    exact hsame.elim
  | cons r results =>
    obtain ⟨p, hp, hvalues⟩ := bind_ok hvalues
    obtain ⟨rest, -, hvalues⟩ := bind_ok hvalues
    cases hvalues
    exact ⟨r, results, p, hdecode, hp, hsame.1⟩

theorem not_readsBack_of_isNone {vs : List MmsValue} {v : MmsValue}
    (h : (Asn1.decodeListOfAccessResult (encodeElements (v :: vs))).isNone = true) :
    ¬ ReadsBack (v :: vs) true := by
  intro hr
  obtain ⟨r, results, p, hd, -⟩ := hr.head
  rw [hd] at h
  cases h

theorem not_readsBack_success : ¬ ReadsBack [.dataAccessError .success] true := by
  intro hr
  obtain ⟨r, results, p, hd, hp, hsame⟩ := hr.head
  have hd' : Asn1.decodeListOfAccessResult (encodeElements [.dataAccessError .success]) =
    some [.failure [0, 0xff, 0xff, 0xff, 0xff]] := rfl
  rw [hd'] at hd
  cases hd
  cases hp
  cases hsame

/-- The length octets of 65536 octets say that there are none. -/
theorem not_readsBack_long {s : MmsValue.CString} (hs : s.octets.length = 65536) :
    ¬ ReadsBack [.visibleString (some s)] true := by
  intro hr
  obtain ⟨r, results, p, hd, hp, hsame⟩ := hr.head
  have hencode : encodeElements [.visibleString (some s)] =
      0x8a :: ([0x82, 0, 0] ++ s.octets) := by
    rw [encodeElements, encodeElements, List.append_nil, encodeAccessResult, Option.map_some,
      encodeStringWithTag, hs]
    rfl
  obtain ⟨trees, htrees, hd⟩ := Option.bind_eq_some_iff.mp hd
  have hlength : Tlv.readLength ([0x82, 0, 0] ++ s.octets) = some (0, s.octets) :=
    Tlv.readLength_append (.long (by simp) (by simp) (by simp)) s.octets
  have hp0 : ¬ Tlv.IsConstructed 0x8a := by decide
  rw [hencode, Tlv.readAll, Tlv.readTrees, hlength] at htrees
  simp only [Option.bind_eq_bind, Option.bind_some, Nat.not_lt_zero, if_false, hp0] at htrees
  obtain ⟨rest, -, htrees⟩ := Option.bind_eq_some_iff.mp htrees
  cases htrees
  rw [List.mapM_cons] at hd
  obtain ⟨first, hfirst, hd⟩ := Option.bind_eq_some_iff.mp hd
  obtain ⟨others, -, hd⟩ := Option.bind_eq_some_iff.mp hd
  cases hd
  cases hfirst
  cases hp
  have hnil : s.octets = [] := hsame
  rw [hnil] at hs
  cases hs

/-- A string of blanks. -/
def blanks (n : Nat) : MmsValue.CString :=
  ⟨List.replicate n 0x20, fun h => absurd (List.eq_of_mem_replicate h) (by decide)⟩

/-- Four lists that do not come back: an access error inside a structure, a code that is none of an
error, a string of 65536 octets, and 127 octets of bits inside a structure. -/
theorem results_not_read_back :
    ¬ ReadsBack [.structured [.dataAccessError .objectUndefined]] true ∧
      ¬ ReadsBack [.dataAccessError .success] true ∧
      ¬ ReadsBack [.visibleString (some (blanks 65536))] true ∧
      ¬ ReadsBack [.structured [.bitString
        ⟨1016, List.replicate 127 0, by simp [bitStringByteSize]⟩]] true :=
  ⟨not_readsBack_of_isNone rfl, not_readsBack_success,
    not_readsBack_long (List.length_replicate), not_readsBack_of_isNone (by decide +kernel)⟩

end MmsClient

end Iec61850
