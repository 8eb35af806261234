import Iec61850.Goose.GoosePublisher
import Iec61850.Lib.TextBuffer
import Iec61850.Lib.TlvSizes

/-! The frames of a publisher in their buffer, with sizes that are added up in 32 bits: which
lists of values are refused, which ones have room, and what the frames say about their lengths.
No string is longer than an `int` can tell. -/

namespace Iec61850

open Machine BerEncoder TextBuffer

namespace MmsServer

open MmsValue

mutual

/-- `mmsServer_encodeAccessResult` with `encode` false, which adds up machine integers. -/
def accessResultSize32 : MmsValue → UInt32
  | .structured components =>
    let componentsSize := elementsSize32 components
    1 + componentsSize + UInt32.ofNat (determineLengthSize componentsSize.toNat)
  | .array elements =>
    let elementsSize := elementsSize32 elements
    1 + elementsSize + UInt32.ofNat (determineLengthSize elementsSize.toNat)
  | v => UInt32.ofNat (encodeAccessResultSize v)

def elementsSize32 : List MmsValue → UInt32
  | [] => 0
  | v :: vs => accessResultSize32 v + elementsSize32 vs

end

mutual

/-- `mmsServer_encodeAccessResult` with `encode` true: the lengths are those machine integers. -/
def encodeAccessResult32 : MmsValue → List UInt8
  | .structured components => 0xa2 :: encodeLength (elementsSize32 components).toNat ++
      encodeElements32 components
  | .array elements => 0xa1 :: encodeLength (elementsSize32 elements).toNat ++
      encodeElements32 elements
  | v => encodeAccessResult v

def encodeElements32 : List MmsValue → List UInt8
  | [] => []
  | v :: vs => encodeAccessResult32 v ++ encodeElements32 vs

end

/-- Where the sum has room in 32 bits it is the sum. -/
def SumsUp (v : MmsValue) : Prop :=
  encodeAccessResultSize v < 2 ^ 32 →
    accessResultSize32 v = UInt32.ofNat (encodeAccessResultSize v) ∧
      encodeAccessResult32 v = encodeAccessResult v

theorem elements_sumUp {vs : List MmsValue} (h : ∀ v ∈ vs, SumsUp v)
    (hlt : elementsSize vs < 2 ^ 32) :
    elementsSize32 vs = UInt32.ofNat (elementsSize vs) ∧
      encodeElements32 vs = encodeElements vs := by
  induction vs with
  | nil => exact ⟨rfl, rfl⟩
  | cons v vs ih =>
    obtain ⟨hv, hvs⟩ := List.forall_mem_cons.mp h
    rw [elementsSize] at hlt
    obtain ⟨hsize, hencode⟩ := hv (Nat.lt_of_add_right_lt hlt)
    obtain ⟨hsizes, hencodes⟩ := ih hvs (Nat.lt_of_add_left_lt hlt)
    rw [elementsSize32, hsize, hsizes, encodeElements32, hencode, hencodes, elementsSize,
      UInt32.ofNat_add]
    exact ⟨rfl, rfl⟩

/-- What is written in 32 bits has been counted in 32 bits. -/
def Counted32 (v : MmsValue) : Prop :=
  (encodeAccessResult32 v).length < 2 ^ 32 → encodeAccessResultSize v < 2 ^ 32

theorem size_le_length32 {v : MmsValue} (hsum : SumsUp v) (hcounted : Counted32 v)
    (h : (encodeAccessResult32 v).length < 2 ^ 32) :
    encodeAccessResultSize v ≤ (encodeAccessResult32 v).length := by
  rw [(hsum (hcounted h)).2]
  exact (tree_size v).1

theorem elements_counted {vs : List MmsValue} (h : ∀ v ∈ vs, SumsUp v ∧ Counted32 v)
    (hlt : (encodeElements32 vs).length < 2 ^ 32) :
    elementsSize vs ≤ (encodeElements32 vs).length := by
  induction vs with
  | nil => exact le_rfl
  | cons v vs ih =>
    obtain ⟨⟨hsum, hcounted⟩, hvs⟩ := List.forall_mem_cons.mp h
    rw [encodeElements32, List.length_append] at hlt ⊢
    exact Nat.add_le_add (size_le_length32 hsum hcounted (Nat.lt_of_add_right_lt hlt))
      (ih hvs (Nat.lt_of_add_left_lt hlt))

/-- An array or a structure. -/
structure Composite (v : MmsValue) (vs : List MmsValue) (tag : UInt8) : Prop where
  size : encodeAccessResultSize v =
    1 + elementsSize vs + determineLengthSize (elementsSize vs)
  size32 : accessResultSize32 v =
    1 + elementsSize32 vs + UInt32.ofNat (determineLengthSize (elementsSize32 vs).toNat)
  encode : encodeAccessResult v = tag :: encodeLength (elementsSize vs) ++ encodeElements vs
  encode32 : encodeAccessResult32 v =
    tag :: encodeLength (elementsSize32 vs).toNat ++ encodeElements32 vs

namespace Composite

variable {v : MmsValue} {vs : List MmsValue} {tag : UInt8} (hv : Composite v vs tag)

include hv

theorem sumsUp (h : ∀ v ∈ vs, SumsUp v) : SumsUp v := by
  intro hlt
  rw [hv.size] at hlt
  have hsum : elementsSize vs < 2 ^ 32 := by omega
  obtain ⟨hsize, hencode⟩ := elements_sumUp h hsum
  have htoNat : (UInt32.ofNat (elementsSize vs)).toNat = elementsSize vs :=
    UInt32.toNat_ofNat_of_lt' hsum
  rw [hv.size32, hv.encode32, hsize, hencode, htoNat, hv.encode, hv.size, UInt32.ofNat_add,
    UInt32.ofNat_add]
  exact ⟨rfl, rfl⟩

theorem counted32 (h : ∀ v ∈ vs, SumsUp v ∧ Counted32 v) : Counted32 v := by
  intro hlt
  rw [hv.encode32, List.length_append, List.length_cons, length_encodeLength] at hlt
  have hle := elements_counted h (Nat.lt_of_add_left_lt hlt)
  have hsum : elementsSize vs < 2 ^ 32 := by omega
  have htoNat : (UInt32.ofNat (elementsSize vs)).toNat = elementsSize vs :=
    UInt32.toNat_ofNat_of_lt' hsum
  rw [(elements_sumUp (fun v hmem => (h v hmem).1) hsum).1, htoNat] at hlt
  rw [hv.size]
  omega

end Composite

theorem sumsUp_and_counted32 (v : MmsValue) : SumsUp v ∧ Counted32 v := by
  induction v using MmsValue.tree_induction with
  | array vs ih =>
    have hv : Composite (.array vs) vs 0xa1 := ⟨rfl, rfl, rfl, rfl⟩
    exact ⟨hv.sumsUp fun v hmem => (ih v hmem).1, hv.counted32 ih⟩
  | structured vs ih =>
    have hv : Composite (.structured vs) vs 0xa2 := ⟨rfl, rfl, rfl, rfl⟩
    exact ⟨hv.sumsUp fun v hmem => (ih v hmem).1, hv.counted32 ih⟩
  | leaf v hleaf =>
    have hencode : encodeAccessResult32 v = encodeAccessResult v := by
      cases v with
      | array => exact hleaf.elim
      | structured => exact hleaf.elim
      | _ => rfl
    have hsize : accessResultSize32 v = UInt32.ofNat (encodeAccessResultSize v) := by
      cases v with
      | array => exact hleaf.elim
      | structured => exact hleaf.elim
      | _ => rfl
    refine ⟨fun _ => ⟨hsize, hencode⟩, fun hlt => ?_⟩
    rw [hencode] at hlt
    exact (tree_size v).1.trans_lt hlt

theorem elements_of_lt {vs : List MmsValue} (h : elementsSize vs < 2 ^ 32) :
    elementsSize32 vs = UInt32.ofNat (elementsSize vs) ∧
      encodeElements32 vs = encodeElements vs :=
  elements_sumUp (fun v _ => (sumsUp_and_counted32 v).1) h

theorem elementsSize_le_length32 (vs : List MmsValue)
    (h : (encodeElements32 vs).length < 2 ^ 32) :
    elementsSize vs ≤ (encodeElements32 vs).length :=
  elements_counted (fun v _ => sumsUp_and_counted32 v) h

end MmsServer

namespace Goose

open MmsServer MmsValue

namespace GoosePublisher

/-- The length of the fields in front of the values. -/
def fieldsLength (self : GoosePublisher) (numberOfDataSetEntries : UInt32) : Nat :=
  determineEncodedStringSize self.goCBRef + determineEncodedStringSize self.dataSetRef +
    (match self.goID with
      | some goID => determineEncodedStringSize (some goID)
      | none => 0) +
    (2 + uInt32determineEncodedSize self.timeAllowedToLive) + (2 + 8) +
    (2 + uInt32determineEncodedSize self.sqNum) + (2 + uInt32determineEncodedSize self.stNum) +
    (2 + uInt32determineEncodedSize self.confRev) + 6 +
    (2 + uInt32determineEncodedSize numberOfDataSetEntries)

def fields (self : GoosePublisher) (numberOfDataSetEntries : UInt32) : List UInt8 :=
  encodeStringWithTag 0x80 self.goCBRef ++ encodeUInt32WithTL 0x81 self.timeAllowedToLive ++
    encodeStringWithTag 0x82 self.dataSetRef ++
    (match self.goID with
      | some goID => encodeStringWithTag 0x83 (some goID)
      | none => []) ++
    encodeOctetString 0x84 self.timestamp.octets ++ encodeUInt32WithTL 0x85 self.stNum ++
    encodeUInt32WithTL 0x86 self.sqNum ++ encodeBoolean 0x87 self.simulation ++
    encodeUInt32WithTL 0x88 self.confRev ++ encodeBoolean 0x89 self.needsCommission ++
    encodeUInt32WithTL 0x8a numberOfDataSetEntries

/-- The first step of `createGoosePayload`. -/
def goosePduLength32 (self : GoosePublisher) (dataSetValues : List MmsValue) : UInt32 :=
  let dataSetSize := elementsSize32 dataSetValues
  UInt32.ofNat (self.fieldsLength (UInt32.ofNat dataSetValues.length)) +
    (dataSetSize + UInt32.ofNat (determineLengthSize dataSetSize.toNat) + 1)

/-- The second step of `createGoosePayload`. -/
def goosePdu32 (self : GoosePublisher) (dataSetValues : List MmsValue) : List UInt8 :=
  encodeTL 0x61 (self.goosePduLength32 dataSetValues).toNat ++
    (self.fields (UInt32.ofNat dataSetValues.length) ++
      (encodeTL 0xab (elementsSize32 dataSetValues).toNat ++ encodeElements32 dataSetValues))

/-- `GoosePublisher_publish`: the packet that is sent, if one is. Behind what
`prepareGooseBuffer` has written there is space for the payload. -/
def publishFrame (self : GoosePublisher) (space : List UInt8) (dataSetValues : List MmsValue) :
    Exec (Option (List UInt8)) :=
  if maxPayloadSize < (self.goosePduLength32 dataSetValues).toNat then .ok none
  else do
    let payloadLength := (self.goosePdu32 dataSetValues).length
    let buffer ← putChars (self.buffer.octets ++ space) self.buffer.octets.length
      (self.goosePdu32 dataSetValues)
    let gooseLength := payloadLength + 8
    let buffer := (buffer.set lengthField (UInt8.ofNat (gooseLength / 256))).set
      (lengthField + 1) (UInt8.ofNat (gooseLength % 256))
    return some (buffer.take (self.buffer.octets.length + payloadLength))

/-- The length of the frame and those of the PDU and of its values say how much follows. The
length of the frame counts from the APPID on. -/
def LengthsAgree (self : GoosePublisher) (dataSetValues : List MmsValue)
    (packet : List UInt8) : Prop :=
  ∃ start pduLength allDataLength : List UInt8,
    let allData := encodeElements32 dataSetValues
    let pdu := self.fields (UInt32.ofNat dataSetValues.length) ++
      0xab :: (allDataLength ++ allData)
    start.length = 26 ∧ packet = start ++ 0x61 :: (pduLength ++ pdu) ∧
      Octets.value ((start.drop lengthField).take 2) = packet.length - 18 ∧
      Tlv.LengthOctets pdu.length pduLength ∧ Tlv.LengthOctets allData.length allDataLength

/-- Nothing is sent, or a frame of the buffer whose lengths agree. -/
def PublishesInside (self : GoosePublisher) (dataSetValues : List MmsValue) : Prop :=
  ∀ space : List UInt8, space.length = maxPayloadSize →
    ∃ result, self.publishFrame space dataSetValues = .ok result ∧
      ∀ packet, result = some packet → self.LengthsAgree dataSetValues packet

/-- The sizes that are counted are too large, or they are right and there is room for the PDU with
its header as well. -/
def Publishable (self : GoosePublisher) (dataSetValues : List MmsValue) : Prop :=
  maxPayloadSize < (self.goosePduLength32 dataSetValues).toNat ∨
    (self.Fits dataSetValues ∧ ∀ l ∈ leavesOf dataSetValues, SizedExactly l)

variable {self : GoosePublisher} {dataSetValues : List MmsValue}

/-! ## Sizes -/

theorem length_fields (self : GoosePublisher) (n : UInt32) :
    (self.fields n).length = self.fieldsLength n := by
  have htime := self.timestamp.octets_length
  have height : determineLengthSize 8 = 1 := rfl
  cases hid : self.goID with
  | none | some =>
    simp only [fields, fieldsLength, hid, List.length_append, List.length_nil, List.length_cons,
      length_encodeString, length_encodeUInt32WithTL, length_encodeOctetString, htime, height,
      encodeBoolean]
    omega

theorem goosePdu_eq (self : GoosePublisher) (dataSetValues : List MmsValue) :
    self.goosePdu dataSetValues = encodeTL 0x61 (self.goosePduLength dataSetValues) ++
      (self.fields (UInt32.ofNat dataSetValues.length) ++
        (encodeTL 0xab (elementsSize dataSetValues) ++ encodeElements dataSetValues)) := by
  cases hid : self.goID with
  | none | some => simp only [goosePdu, fields, hid, List.append_assoc]

/-- The sums of a PDU that has room in 32 bits. -/
theorem goosePdu32_eq (h : self.goosePduLength dataSetValues < 2 ^ 32) :
    (self.goosePduLength32 dataSetValues).toNat = self.goosePduLength dataSetValues ∧
      self.goosePdu32 dataSetValues = self.goosePdu dataSetValues := by
  have hpdu : self.goosePduLength dataSetValues =
      self.fieldsLength (UInt32.ofNat dataSetValues.length) +
        (elementsSize dataSetValues + determineLengthSize (elementsSize dataSetValues) + 1) := rfl
  have hsum : elementsSize dataSetValues < 2 ^ 32 := by omega
  obtain ⟨hsize, hencode⟩ := elements_of_lt hsum
  have hdata : (elementsSize32 dataSetValues).toNat = elementsSize dataSetValues := by
    rw [hsize]
    exact UInt32.toNat_ofNat_of_lt' hsum
  have hlength : (self.goosePduLength32 dataSetValues).toNat =
      self.goosePduLength dataSetValues := by
    rw [goosePduLength32, hdata, hsize, ← UInt32.ofNat_add, ← UInt32.ofNat_one,
      ← UInt32.ofNat_add, ← UInt32.ofNat_add, ← hpdu]
    exact UInt32.toNat_ofNat_of_lt' h
  refine ⟨hlength, ?_⟩
  rw [goosePdu32, hlength, hdata, hencode, goosePdu_eq]

/-- A PDU that has room in the frame has room in 32 bits. -/
theorem goosePduLength_lt_of_room
    (h : (self.goosePdu32 dataSetValues).length ≤ maxPayloadSize) :
    self.goosePduLength dataSetValues < 2 ^ 32 := by
  have hmax : maxPayloadSize = 1492 := rfl
  have hpdu : self.goosePduLength dataSetValues =
      self.fieldsLength (UInt32.ofNat dataSetValues.length) +
        (elementsSize dataSetValues + determineLengthSize (elementsSize dataSetValues) + 1) := rfl
  simp only [goosePdu32, List.length_append, length_fields] at h
  have hdata := elementsSize_le_length32 dataSetValues (by omega)
  have hle := determineLengthSize_le (elementsSize dataSetValues)
  omega

/-! ## Writing the frame -/

variable {space : List UInt8}

theorem publishFrame_refused
    (h : maxPayloadSize < (self.goosePduLength32 dataSetValues).toNat) :
    self.publishFrame space dataSetValues = .ok none := if_pos h

theorem publishFrame_outOfBounds
    (hcounted : ¬ maxPayloadSize < (self.goosePduLength32 dataSetValues).toNat)
    (hspace : space.length = maxPayloadSize)
    (h : maxPayloadSize < (self.goosePdu32 dataSetValues).length) :
    self.publishFrame space dataSetValues = .error .outOfBounds := by
  simp only [publishFrame, if_neg hcounted, putChars_outOfBounds _ (hspace ▸ h)]
  rfl

theorem publishFrame_room
    (hcounted : ¬ maxPayloadSize < (self.goosePduLength32 dataSetValues).toNat)
    (hspace : space.length = maxPayloadSize)
    (h : (self.goosePdu32 dataSetValues).length ≤ maxPayloadSize) :
    self.publishFrame space dataSetValues =
      .ok (some (self.packet (self.goosePdu32 dataSetValues))) := by
  have hlength := self.buffer.octets_length
  have hlow : lengthField < self.buffer.octets.length := by rw [hlength]; decide
  have hhigh : lengthField + 1 < self.buffer.octets.length := by rw [hlength]; decide
  simp only [publishFrame, if_neg hcounted, putChars_append _ (hspace ▸ h), ok_bind]
  refine congrArg (fun packet => Except.ok (some packet)) ?_
  rw [List.set_append_left _ _ hlow,
    List.set_append_left _ _ (by rw [List.length_set]; exact hhigh), ← List.append_assoc]
  refine List.take_left' ?_
  rw [List.length_append, List.length_set, List.length_set]

/-- What is published inside the buffer is refused or has room with its header. -/
theorem room_of_publishesInside (h : self.PublishesInside dataSetValues)
    (hcounted : ¬ maxPayloadSize < (self.goosePduLength32 dataSetValues).toNat) :
    (self.goosePdu32 dataSetValues).length ≤ maxPayloadSize := by
  by_contra hlong
  obtain ⟨result, hresult, -⟩ := h (List.replicate maxPayloadSize 0) List.length_replicate
  rw [publishFrame_outOfBounds hcounted List.length_replicate (Nat.not_le.mp hlong)] at hresult
  cases hresult

/-! ## The lengths of a frame -/

/-- What a frame has in front of the PDU. -/
def start (self : GoosePublisher) (payload : List UInt8) : List UInt8 :=
  (self.buffer.octets.set lengthField (UInt8.ofNat ((payload.length + 8) / 256))).set
    (lengthField + 1) (UInt8.ofNat ((payload.length + 8) % 256))

theorem length_start (self : GoosePublisher) (payload : List UInt8) :
    (self.start payload).length = 26 := by
  rw [start, List.length_set, List.length_set, self.buffer.octets_length]

theorem packet_eq (self : GoosePublisher) (payload : List UInt8) :
    self.packet payload = self.start payload ++ payload := rfl

/-- The two octets of the length of the frame. -/
theorem lengthField_start (self : GoosePublisher) (payload : List UInt8) :
    ((self.start payload).drop lengthField).take 2 =
      [UInt8.ofNat ((payload.length + 8) / 256), UInt8.ofNat ((payload.length + 8) % 256)] := by
  have hlength := self.buffer.octets_length
  apply List.ext_getElem
  · simp [start, hlength, lengthField]
  · intro i hi hi'
    simp only [List.length_cons, List.length_nil] at hi'
    obtain rfl | rfl : i = 0 ∨ i = 1 := by omega
    · simp [start, lengthField]
    · simp [start, lengthField]

/-- The PDU with its two headers. -/
theorem goosePdu_headers (self : GoosePublisher) (dataSetValues : List MmsValue) :
    self.goosePdu dataSetValues = 0x61 :: (encodeLength (self.goosePduLength dataSetValues) ++
      (self.fields (UInt32.ofNat dataSetValues.length) ++
        0xab :: (encodeLength (elementsSize dataSetValues) ++ encodeElements dataSetValues))) := by
  rw [goosePdu_eq]
  rfl

theorem elementsSize_lt (h : self.goosePduLength dataSetValues ≤ maxPayloadSize) :
    elementsSize dataSetValues < maxPayloadSize := by
  have hpdu : self.goosePduLength dataSetValues =
      self.fieldsLength (UInt32.ofNat dataSetValues.length) +
        (elementsSize dataSetValues + determineLengthSize (elementsSize dataSetValues) + 1) := rfl
  omega

/-- The lengths agree where each value has as many octets as are counted for it. -/
theorem lengthsAgree_iff (h : self.Fits dataSetValues) :
    self.LengthsAgree dataSetValues (self.packet (self.goosePdu dataSetValues)) ↔
      ∀ l ∈ leavesOf dataSetValues, SizedExactly l := by
  have hmax : maxPayloadSize = 1492 := rfl
  have hfits : (self.goosePdu dataSetValues).length ≤ maxPayloadSize := h
  have hpdu := h.goosePduLength_le
  have hdata := elementsSize_lt hpdu
  rw [← (elements_size fun v (_ : v ∈ dataSetValues) => tree_size v).2]
  have hsum : elementsSize dataSetValues < 2 ^ 32 := by omega
  obtain ⟨-, hencode⟩ := elements_of_lt hsum
  have hpduLength := lengthOctets_encodeLength (n := self.goosePduLength dataSetValues) (by omega)
  have hdataLength := lengthOctets_encodeLength (n := elementsSize dataSetValues) (by omega)
  constructor
  · rintro ⟨front, pduLength, allDataLength, hfront, hpacket, -, hpduOctets, hdataOctets⟩
    rw [packet_eq] at hpacket
    obtain ⟨-, hpayload⟩ := List.append_inj hpacket (by rw [hfront, length_start])
    rw [goosePdu_headers] at hpayload
    obtain ⟨-, -, hcontent⟩ :=
      Tlv.lengthOctets_unique hpduLength hpduOctets (List.tail_eq_of_cons_eq hpayload)
    have hvalues := List.tail_eq_of_cons_eq (List.append_cancel_left hcontent)
    obtain ⟨hsize, -, -⟩ := Tlv.lengthOctets_unique hdataLength hdataOctets hvalues
    rw [hsize, hencode]
  · intro hexact
    refine ⟨self.start (self.goosePdu dataSetValues),
      encodeLength (self.goosePduLength dataSetValues), encodeLength (elementsSize dataSetValues),
      length_start _ _, ?_, ?_, ?_, ?_⟩
    · rw [packet_eq, hencode]
      exact congrArg _ (goosePdu_headers self dataSetValues)
    · rw [lengthField_start, packet_eq, List.length_append, length_start]
      simp only [Octets.value_cons, Octets.value_nil, List.length_cons, List.length_nil,
        UInt8.toNat_ofNat']
      omega
    · rw [hencode]
      convert hpduLength using 1
      have hlength := length_goosePdu self dataSetValues
      rw [goosePdu_headers, List.length_cons, List.length_append, length_encodeLength] at hlength
      omega
    · rw [hencode, hexact]
      exact hdataLength

theorem publishesInside_iff :
    self.PublishesInside dataSetValues ↔ self.Publishable dataSetValues := by
  by_cases hcounted : maxPayloadSize < (self.goosePduLength32 dataSetValues).toNat
  · refine iff_of_true (fun _ _ => ⟨none, publishFrame_refused hcounted, ?_⟩) (.inl hcounted)
    intro packet hpacket
    cases hpacket
  · constructor
    · intro h
      have hroom := room_of_publishesInside h hcounted
      obtain ⟨-, hpdu⟩ := goosePdu32_eq (goosePduLength_lt_of_room hroom)
      have hfits : self.Fits dataSetValues := by
        rw [Fits, ← hpdu]
        exact hroom
      obtain ⟨result, hresult, hagree⟩ :=
        h (List.replicate maxPayloadSize 0) List.length_replicate
      rw [publishFrame_room hcounted List.length_replicate hroom, hpdu] at hresult
      cases hresult
      exact .inr ⟨hfits, (lengthsAgree_iff hfits).mp (hagree _ rfl)⟩
    · rintro (hrefused | ⟨hfits, hexact⟩)
      · exact absurd hrefused hcounted
      · intro space hspace
        have hlt : self.goosePduLength dataSetValues < 2 ^ 32 :=
          hfits.goosePduLength_le.trans_lt (by decide)
        have hpdu := (goosePdu32_eq hlt).2
        refine ⟨_, publishFrame_room hcounted hspace (hpdu.symm ▸ hfits), ?_⟩
        rintro packet ⟨⟩
        rw [hpdu]
        exact (lengthsAgree_iff hfits).mpr hexact

/-- The destination of GOOSE frames, which is the source as well. -/
def address : List UInt8 := [0x01, 0x0c, 0xcd, 0x01, 0x00, 0x01]

theorem length_address : address.length = 6 := rfl

/-- A publisher with a name of 1450 characters. -/
def longName : GoosePublisher :=
  { create ⟨4, 0, 0x1000, address, length_address⟩ ⟨address, length_address⟩ 0 with
    goCBRef := some (List.replicate 1450 0x41) }

/-- With its header the PDU has one octet too many. -/
theorem not_publishesInside_longName : ¬ longName.PublishesInside [] := by
  intro h
  have hcounted : (longName.goosePduLength32 []).toNat = 1489 := by decide +kernel
  have hlength : (longName.goosePdu32 []).length = 1493 := by decide +kernel
  have hroom := room_of_publishesInside h (by rw [hcounted]; decide)
  rw [hlength] at hroom
  exact absurd hroom (by decide)

end GoosePublisher

end Goose

end Iec61850
