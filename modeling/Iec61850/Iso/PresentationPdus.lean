import Iec61850.Asn1.BerSpans
import Iec61850.Iso.Presentation
import Iec61850.Lib.TlvSizes

/-! The PDUs that `iso_presentation.c` creates, and what is read from them. -/

namespace Iec61850

open Machine BerEncoder BerDecoder

namespace IsoPresentation

/-! ## Builders -/

def calledPresentationSelector : List UInt8 := [0x00, 0x00, 0x00, 0x01]

def berId : List UInt8 := [0x51, 0x01]

def encodeAcceptBer : List UInt8 :=
  encodeTL 0x30 7 ++ (encodeTL 0x80 1 ++ ([0] ++ (encodeTL 0x81 2 ++ [0x51, 0x01])))

def encodedDataSetLength (payloadLength : Nat) : Nat :=
  3 + (payloadLength + 1) + determineLengthSize payloadLength

def fullyEncodedDataLength (payloadLength : Nat) : Nat :=
  encodedDataSetLength payloadLength + (determineLengthSize (encodedDataSetLength payloadLength) + 1)

/-- `encodeUserData` with `encode` false. -/
def encodedUserDataLength (payloadLength : Nat) : Nat :=
  fullyEncodedDataLength payloadLength + 1 +
    determineLengthSize (fullyEncodedDataLength payloadLength)

/-- `encodeUserData` with `encode` true, and the payload that is chained behind it. -/
def encodeUserData (contextId : UInt8) (payload : List UInt8) : List UInt8 :=
  encodeTL 0x61 (fullyEncodedDataLength payload.length) ++
    (encodeTL 0x30 (encodedDataSetLength payload.length) ++
      (encodeTL 0x02 1 ++ ([contextId] ++ (encodeTL 0xa0 payload.length ++ payload))))

def modeSelector : List UInt8 := encodeTL 0xa0 3 ++ (encodeTL 0x80 1 ++ [1])

/-- The four octets of a selector. -/
def selectorOctets (selector : UInt32) : List UInt8 := Octets.ofNat 4 selector.toNat

/-- An entry of the list of contexts, which the source writes out twice. -/
def contextListItem (length contextId : Nat) (abstractSyntaxName : List UInt8) : List UInt8 :=
  encodeTL 0x30 length ++ (encodeTL 0x02 1 ++ ([UInt8.ofNat contextId] ++
    (encodeTL 0x06 abstractSyntaxName.length ++ (abstractSyntaxName ++
      (encodeTL 0x30 4 ++ (encodeTL 0x06 2 ++ berId))))))

/-- `IsoPresentation_createConnectPdu`, with the selectors of the connection parameters. -/
def createConnectPdu (self : IsoPresentation) (localPSelector remotePSelector : UInt32)
    (payload : List UInt8) : IsoPresentation × List UInt8 :=
  let self := { self with acseContextId := 1, mmsContextId := 3 }
  let normalModeLength := 12 + 35 + encodedUserDataLength payload.length + 2
  let contentLength := 5 + normalModeLength + (1 + determineLengthSize normalModeLength)
  (self, encodeTL 0x31 contentLength ++ (modeSelector ++ (encodeTL 0xa2 normalModeLength ++
    (encodeTL 0x81 4 ++ (selectorOctets localPSelector ++
      (encodeTL 0x82 4 ++ (selectorOctets remotePSelector ++
        (encodeTL 0xa4 35 ++ (contextListItem 15 1 asnIdAsAcse ++ (contextListItem 16 3 asnIdMms ++
          encodeUserData self.acseContextId payload))))))))))

def createCpaMessage (self : IsoPresentation) (payload : List UInt8) : List UInt8 :=
  let normalModeLength := 6 + 20 + encodedUserDataLength payload.length
  let contentLength := 5 + normalModeLength + (determineLengthSize normalModeLength + 1)
  encodeTL 0x31 contentLength ++ (modeSelector ++ (encodeTL 0xa2 normalModeLength ++
    (encodeTL 0x83 4 ++ (calledPresentationSelector ++
      (encodeTL 0xa5 18 ++ (encodeAcceptBer ++ (encodeAcceptBer ++
        encodeUserData self.acseContextId payload)))))))

/-- The body that `IsoPresentation_createUserData` and `IsoPresentation_createUserDataACSE` have in
common. -/
def userDataPdu (contextId : UInt8) (payload : List UInt8) : List UInt8 :=
  let pdvListLength := payload.length + (determineLengthSize payload.length + 4)
  let presentationLength := pdvListLength + (determineLengthSize pdvListLength + 1)
  encodeTL 0x61 presentationLength ++ (encodeTL 0x30 pdvListLength ++
    ([0x02, 0x01, contextId] ++ (encodeTL 0xa0 payload.length ++ payload)))

def createUserData (self : IsoPresentation) (payload : List UInt8) : List UInt8 :=
  userDataPdu self.mmsContextId payload

def createUserDataACSE (self : IsoPresentation) (payload : List UInt8) : List UInt8 :=
  userDataPdu self.acseContextId payload

/-- The length that is encoded counts its own header. -/
def createAbortUserMessage (self : IsoPresentation) (payload : List UInt8) : List UInt8 :=
  let contentLength := encodedUserDataLength payload.length
  encodeTL 0xa0 (contentLength + (determineLengthSize contentLength + 1)) ++
    encodeUserData self.acseContextId payload

/-! ## Lengths -/

section Sizes

variable {payload octets octets' content : List UInt8} {tag : UInt8} {n m : Nat}

/-- As many octets as have been counted, in elements around the payload. -/
structure Counted (payload : List UInt8) (n : Nat) (octets : List UInt8) : Prop where
  length_eq : octets.length = n
  sized : octets.length < 65536 → Tlv.AreSizedAround payload octets

theorem Counted.append (h : Counted payload n octets) (h' : Counted payload m octets') :
    Counted payload (n + m) (octets ++ octets') where
  length_eq := by rw [List.length_append, h.length_eq, h'.length_eq]
  sized := by
    intro hlt
    rw [List.length_append] at hlt
    exact (h.sized (by omega)).append (h'.sized (by omega))

theorem length_encodeTL (tag : UInt8) (n : Nat) :
    (encodeTL tag n).length = 1 + determineLengthSize n := by
  rw [encodeTL, List.length_cons, length_encodeLength, Nat.add_comm]

theorem Counted.length_element (h : Counted payload n octets) (tag : UInt8) :
    (encodeTL tag n ++ octets).length = n + (determineLengthSize n + 1) := by
  rw [List.length_append, length_encodeTL, h.length_eq]
  omega

theorem Counted.element (h : Counted payload n octets) (tag : UInt8) (ht : Tlv.IsShortTag tag)
    (hc : Tlv.IsConstructed tag) (hlt : n < 65536) :
    Tlv.SizedAround payload (encodeTL tag n ++ octets) := by
  have hl : Tlv.LengthOctets octets.length (encodeLength n) := by
    rw [h.length_eq]
    exact MmsServer.lengthOctets_encodeLength hlt
  have hn : octets.length < 65536 := by rwa [h.length_eq]
  exact (h.sized hn).constructed (Tlv.identifier_constructed ht hc) hl

theorem Counted.constructed (h : Counted payload n octets) (tag : UInt8) (ht : Tlv.IsShortTag tag)
    (hc : Tlv.IsConstructed tag) :
    Counted payload (n + (determineLengthSize n + 1)) (encodeTL tag n ++ octets) := by
  refine ⟨h.length_element tag, fun hlt => (h.element tag ht hc ?_).areSized⟩
  rw [h.length_element] at hlt
  omega

theorem counted_primitive (payload : List UInt8) (tag : UInt8) (ht : Tlv.IsShortTag tag)
    (hp : ¬ Tlv.IsConstructed tag) (content : List UInt8) :
    Counted payload (content.length + (determineLengthSize content.length + 1))
      (encodeTL tag content.length ++ content) := by
  refine ⟨?_, fun hlt => ?_⟩
  · rw [List.length_append, length_encodeTL]
    omega
  · rw [List.length_append] at hlt
    have hl := MmsServer.lengthOctets_encodeLength (n := content.length) (by omega)
    exact (Tlv.SizedAround.primitive (Tlv.identifier_primitive ht hp) hl).areSized

theorem counted_payload (payload : List UInt8) (tag : UInt8) (ht : Tlv.IsShortTag tag)
    (hc : Tlv.IsConstructed tag) :
    Counted payload (payload.length + (determineLengthSize payload.length + 1))
      (encodeTL tag payload.length ++ payload) := by
  refine ⟨?_, fun hlt => ?_⟩
  · rw [List.length_append, length_encodeTL]
    omega
  · rw [List.length_append] at hlt
    have hl := MmsServer.lengthOctets_encodeLength (n := payload.length) (by omega)
    exact (Tlv.SizedAround.payload (Tlv.identifier_constructed ht hc) hl).areSized

/-- An element states its length if and only if two octets are enough for it. -/
theorem Counted.element_iff (h : Counted payload n octets) (tag : UInt8) (ht : Tlv.IsShortTag tag)
    (hc : Tlv.IsConstructed tag) :
    Tlv.SizedAround payload (encodeTL tag n ++ octets) ↔ n < 65536 := by
  refine ⟨fun hs => ?_, h.element tag ht hc⟩
  rw [← h.length_eq, ← hs.stated ht (lengthOctets_mod n)]
  exact Nat.mod_lt _ (by decide)

theorem Counted.of_eq (h : Counted payload n octets) (hn : n = m) (ho : octets = octets') :
    Counted payload m octets' := ho ▸ hn ▸ h

theorem determineLengthSize_short {n : Nat} (h : n < 128) : determineLengthSize n = 1 := if_pos h

/-- The values behind the tag and the length of the user data. -/
def pdvValues (contextId : UInt8) (payload : List UInt8) : List UInt8 :=
  encodeTL 0x02 1 ++ ([contextId] ++ (encodeTL 0xa0 payload.length ++ payload))

theorem counted_pdvValues (contextId : UInt8) (payload : List UInt8) :
    Counted payload (encodedDataSetLength payload.length) (pdvValues contextId payload) := by
  have hid := counted_primitive payload 0x02 (by decide) (by decide) [contextId]
  refine (hid.append (counted_payload payload 0xa0 (by decide) (by decide))).of_eq ?_ ?_
  · rw [List.length_singleton, determineLengthSize_short (by decide), encodedDataSetLength]
    omega
  · rw [List.append_assoc]
    rfl

theorem counted_pdvList (contextId : UInt8) (payload : List UInt8) :
    Counted payload (fullyEncodedDataLength payload.length)
      (encodeTL 0x30 (encodedDataSetLength payload.length) ++ pdvValues contextId payload) :=
  (counted_pdvValues contextId payload).constructed 0x30 (by decide) (by decide)

theorem counted_encodeUserData (contextId : UInt8) (payload : List UInt8) :
    Counted payload (encodedUserDataLength payload.length) (encodeUserData contextId payload) := by
  refine ((counted_pdvList contextId payload).constructed 0x61 (by decide) (by decide)).of_eq ?_ rfl
  rw [encodedUserDataLength]
  omega

theorem counted_modeSelector (payload : List UInt8) : Counted payload 5 modeSelector :=
  (counted_primitive payload 0x80 (by decide) (by decide) [1]).constructed 0xa0 (by decide)
    (by decide)

/-- The list of contexts is the same in every message. -/
theorem counted_contextList (payload : List UInt8) : Counted payload 37
    (encodeTL 0xa4 35 ++ (contextListItem 15 1 asnIdAsAcse ++ contextListItem 16 3 asnIdMms)) := by
  have htransfer := (counted_primitive payload 0x06 (by decide) (by decide) berId).constructed
    0x30 (by decide) (by decide)
  have hitem : ∀ contextId name, Counted payload _ _ := fun contextId name =>
    ((counted_primitive payload 0x02 (by decide) (by decide) [contextId]).append
      ((counted_primitive payload 0x06 (by decide) (by decide) name).append htransfer)).constructed
      0x30 (by decide) (by decide)
  have hacse : Counted payload 17 (contextListItem 15 1 asnIdAsAcse) :=
    (hitem 1 asnIdAsAcse).of_eq rfl rfl
  have hmms : Counted payload 18 (contextListItem 16 3 asnIdMms) :=
    (hitem 3 asnIdMms).of_eq rfl rfl
  exact (hacse.append hmms).constructed 0xa4 (by decide) (by decide)

theorem counted_resultList (payload : List UInt8) :
    Counted payload 20 (encodeTL 0xa5 18 ++ (encodeAcceptBer ++ encodeAcceptBer)) := by
  have hresult : Counted payload 9 encodeAcceptBer :=
    (((counted_primitive payload 0x80 (by decide) (by decide) [0]).append
      (counted_primitive payload 0x81 (by decide) (by decide) [0x51, 0x01])).constructed 0x30
      (by decide) (by decide)).of_eq rfl rfl
  exact (hresult.append hresult).constructed 0xa5 (by decide) (by decide)

theorem counted_selector (payload : List UInt8) (tag : UInt8) (ht : Tlv.IsShortTag tag)
    (hp : ¬ Tlv.IsConstructed tag) (selector : List UInt8) (hlength : selector.length = 4) :
    Counted payload 6 (encodeTL tag 4 ++ selector) := by
  have h := counted_primitive payload tag ht hp selector
  rw [hlength] at h
  exact h

/-- The normal mode parameters of a connect PDU. -/
def connectParameters (localPSelector remotePSelector : UInt32) (payload : List UInt8) :
    List UInt8 :=
  encodeTL 0x81 4 ++ (selectorOctets localPSelector ++
    (encodeTL 0x82 4 ++ (selectorOctets remotePSelector ++
      (encodeTL 0xa4 35 ++ (contextListItem 15 1 asnIdAsAcse ++ contextListItem 16 3 asnIdMms ++
        encodeUserData 1 payload)))))

/-- The normal mode parameters of a CPA message. -/
def cpaParameters (contextId : UInt8) (payload : List UInt8) : List UInt8 :=
  encodeTL 0x83 4 ++ (calledPresentationSelector ++
    (encodeTL 0xa5 18 ++ (encodeAcceptBer ++ encodeAcceptBer ++ encodeUserData contextId payload)))

/-- What stands behind the tag and the length of a connect PDU and of a CPA message. -/
def modeAndParameters (parameters : List UInt8) : List UInt8 :=
  modeSelector ++ (encodeTL 0xa2 parameters.length ++ parameters)

theorem counted_connectParameters (localPSelector remotePSelector : UInt32)
    (payload : List UInt8) :
    Counted payload (12 + 35 + encodedUserDataLength payload.length + 2)
      (connectParameters localPSelector remotePSelector payload) := by
  have hselectors := (counted_selector payload 0x81 (by decide) (by decide)
    (selectorOctets localPSelector) (Octets.length_ofNat _ _)).append
    (counted_selector payload 0x82 (by decide) (by decide) (selectorOctets remotePSelector)
      (Octets.length_ofNat _ _))
  refine (hselectors.append ((counted_contextList payload).append
    (counted_encodeUserData 1 payload))).of_eq (by omega) ?_
  simp only [connectParameters, List.append_assoc]

theorem counted_cpaParameters (contextId : UInt8) (payload : List UInt8) :
    Counted payload (6 + 20 + encodedUserDataLength payload.length)
      (cpaParameters contextId payload) := by
  have hselector := counted_selector payload 0x83 (by decide) (by decide) calledPresentationSelector
    rfl
  refine (hselector.append ((counted_resultList payload).append
    (counted_encodeUserData contextId payload))).of_eq (by omega) ?_
  simp only [cpaParameters, List.append_assoc]

theorem Counted.modeAndParameters (h : Counted payload n octets) :
    Counted payload (5 + n + (determineLengthSize n + 1)) (modeAndParameters octets) := by
  refine ((counted_modeSelector payload).append
    (h.constructed 0xa2 (by decide) (by decide))).of_eq (by omega) ?_
  rw [IsoPresentation.modeAndParameters, h.length_eq]

/-- The length that a connect PDU states. -/
def connectLength (payloadLength : Nat) : Nat :=
  let normalModeLength := 12 + 35 + encodedUserDataLength payloadLength + 2
  5 + normalModeLength + (1 + determineLengthSize normalModeLength)

/-- The length that a CPA message states. -/
def cpaLength (payloadLength : Nat) : Nat :=
  let normalModeLength := 6 + 20 + encodedUserDataLength payloadLength
  5 + normalModeLength + (determineLengthSize normalModeLength + 1)

theorem createConnectPdu_eq (self : IsoPresentation) (localPSelector remotePSelector : UInt32)
    (payload : List UInt8) : (createConnectPdu self localPSelector remotePSelector payload).2 =
      encodeTL 0x31 (connectLength payload.length) ++
        modeAndParameters (connectParameters localPSelector remotePSelector payload) := by
  have hlength := (counted_connectParameters localPSelector remotePSelector payload).length_eq
  rw [modeAndParameters, hlength]
  simp only [createConnectPdu, connectLength, connectParameters, List.append_assoc]

theorem createCpaMessage_eq (self : IsoPresentation) (payload : List UInt8) :
    createCpaMessage self payload = encodeTL 0x31 (cpaLength payload.length) ++
      modeAndParameters (cpaParameters self.acseContextId payload) := by
  have hlength := (counted_cpaParameters self.acseContextId payload).length_eq
  rw [modeAndParameters, hlength]
  simp only [createCpaMessage, cpaLength, cpaParameters, List.append_assoc]

theorem counted_connectContent (localPSelector remotePSelector : UInt32) (payload : List UInt8) :
    Counted payload (connectLength payload.length)
      (modeAndParameters (connectParameters localPSelector remotePSelector payload)) :=
  (counted_connectParameters localPSelector remotePSelector payload).modeAndParameters.of_eq
    (by rw [connectLength]; omega) rfl

theorem counted_cpaContent (contextId : UInt8) (payload : List UInt8) :
    Counted payload (cpaLength payload.length)
      (modeAndParameters (cpaParameters contextId payload)) :=
  (counted_cpaParameters contextId payload).modeAndParameters

theorem createConnectPdu_sized_iff (self : IsoPresentation) (localPSelector remotePSelector : UInt32)
    (payload : List UInt8) :
    Tlv.SizedAround payload (createConnectPdu self localPSelector remotePSelector payload).2 ↔
      connectLength payload.length < 65536 := by
  rw [createConnectPdu_eq]
  exact (counted_connectContent localPSelector remotePSelector payload).element_iff 0x31
    (by decide) (by decide)

theorem createCpaMessage_sized_iff (self : IsoPresentation) (payload : List UInt8) :
    Tlv.SizedAround payload (createCpaMessage self payload) ↔ cpaLength payload.length < 65536 := by
  rw [createCpaMessage_eq]
  exact (counted_cpaContent self.acseContextId payload).element_iff 0x31 (by decide) (by decide)

/-- The two ways in which user data are encoded give the same octets. -/
theorem userDataPdu_eq (contextId : UInt8) (payload : List UInt8) :
    userDataPdu contextId payload = encodeUserData contextId payload := by
  have hset : payload.length + (determineLengthSize payload.length + 4) =
      encodedDataSetLength payload.length := by
    rw [encodedDataSetLength]
    omega
  rw [userDataPdu, encodeUserData, fullyEncodedDataLength, hset]
  rfl

theorem userDataPdu_sized_iff (contextId : UInt8) (payload : List UInt8) :
    Tlv.SizedAround payload (userDataPdu contextId payload) ↔
      fullyEncodedDataLength payload.length < 65536 := by
  rw [userDataPdu_eq, ← (counted_pdvList contextId payload).element_iff 0x61 (by decide) (by decide)]
  rfl

/-- The length of an abort is too large, whatever is aborted. -/
theorem createAbortUserMessage_not_sized (self : IsoPresentation) (payload : List UInt8) :
    ¬ Tlv.SizedAround payload (createAbortUserMessage self payload) := by
  intro h
  have hcounted := (counted_encodeUserData self.acseContextId payload).length_eq
  have hstated := h.stated (by decide) (lengthOctets_mod _)
  have hle := MmsServer.determineLengthSize_le (encodedUserDataLength payload.length)
  rw [hcounted] at hstated
  omega

end Sizes

/-! ## Reading -/

section Reading

variable {message payload rest : List UInt8} {pos endPos : Int} {contextId : UInt8}
  (uninitialised : Int) (self : IsoPresentation)

theorem uint32OfOctets_singleton (b : UInt8) : (uint32OfOctets [b]).toUInt8 = b := by
  apply UInt8.toNat_inj.mp
  rw [UInt32.toNat_toUInt8, uint32OfOctets_toNat, Octets.value_singleton]
  have := b.toNat_lt
  omega

/-- The context and the payload are read from the user data. -/
theorem parseFullyEncodedData_span
    (h : Memory.Span message (encodeTL 0x30 (encodedDataSetLength payload.length) ++
      pdvValues contextId payload) pos endPos)
    (hsmall : fullyEncodedDataLength payload.length < 65536) (hend : endPos < 2147483648)
    (fuel : Nat) :
    ∃ region, region.Holds (.ofList message) payload ∧
      parseFullyEncodedData (.ofList message) uninitialised (fuel + 3)
        (fullyEncodedDataLength payload.length) pos self =
          .ok (some endPos, { self with nextContextId := contextId, nextPayload := some region }) := by
  have hlength := (counted_pdvValues contextId payload).length_eq
  have hlist := (counted_pdvList contextId payload).length_eq
  have hset : (pdvValues contextId payload).length < 65536 := by
    rw [hlength]
    rw [fullyEncodedDataLength] at hsmall
    omega
  have hpayload : payload.length < 65536 := by
    rw [hlength, encodedDataSetLength] at hset
    omega
  have hi32 := h.i32_end hend
  have htag : (Memory.ofList message).read pos = .ok 0x30 := h.read
  rw [hlist] at hi32
  rw [← hlength] at h
  obtain ⟨p, hvalues, hdecode⟩ :=
    decodeLength_last (fullyEncodedDataLength payload.length) h hset (Int.le_refl endPos)
  have hfirst : Memory.Span message (encodeTL 0x02 [contextId].length ++ ([contextId] ++
      (encodeTL 0xa0 payload.length ++ payload))) p endPos := hvalues
  obtain ⟨p1, state, hrest, rfl, hid⟩ := parseElements_turn uninitialised true
    (fullyEncodedElement (.ofList message)) (false, self)
    (· = (false, { self with nextContextId := contextId }))
    hfirst (show 1 < 65536 by decide) fun p p' hc hle => by
      refine ⟨_, ?_, rfl⟩
      rw [fullyEncodedElement, decodeUint32_span hc, ok_bind, uint32OfOctets_singleton]
      exact skip_span hc (hle.trans_lt hend)
  obtain ⟨state, ⟨region, hregion, rfl⟩, hlast⟩ := parseElements_last uninitialised true
    (fullyEncodedElement (.ofList message)) (false, { self with nextContextId := contextId })
    (fun state => ∃ region, Region.Holds region (.ofList message) payload ∧
      state = (true, { self with nextContextId := contextId, nextPayload := some region }))
    hrest hpayload fun p hc => ⟨_, skip_span hc hend, _, holds_of_span hc, rfl⟩
  refine ⟨region, hregion, ?_⟩
  have hp := hvalues.pos_nonneg
  rw [parseFullyEncodedData, htag, ok_bind, if_neg (by decide)]
  dsimp only
  rw [hi32, hdecode, ok_bind]
  dsimp only
  rw [if_neg (not_lt.mpr hp), hvalues.i32_end hend, hid, hlast]
  rfl

/-- The entries of the two contexts. -/
inductive Names : List UInt8 → UInt8 → IsoPresentation → IsoPresentation → Prop
  | acse {contextId : UInt8} {self : IsoPresentation} :
    Names asnIdAsAcse contextId self { self with acseContextId := contextId }
  | mms {contextId : UInt8} {self : IsoPresentation} :
    Names asnIdMms contextId self { self with mmsContextId := contextId }

theorem i32_uint32OfOctets_singleton (b : UInt8) : i32 (uint32OfOctets [b]).toNat = b.toNat := by
  have := b.toNat_lt
  rw [uint32OfOctets_toNat, Octets.value_singleton, Nat.mod_eq_of_lt (by omega)]
  exact i32_of_range (by omega) (by omega)

theorem ofInt_toNat (b : UInt8) : UInt8.ofInt (b.toNat : Int) = b := by
  have hlt := b.toNat_lt
  apply UInt8.toNat_inj.mp
  simp only [UInt8.ofInt, UInt8.toNat_ofNat']
  omega

theorem parsePCDLEntry_span {name : List UInt8} {self' : IsoPresentation}
    (h : Memory.Span message (encodeTL 0x02 [contextId].length ++ ([contextId] ++
      (encodeTL 0x06 name.length ++ (name ++
        (encodeTL 0x30 4 ++ (encodeTL 0x06 2 ++ berId)))))) pos endPos)
    (hend : endPos < 2147483648) (hnames : Names name contextId self self') {totalLength : Int}
    (htotal : i32 (pos + totalLength) = endPos) (fuel : Nat) :
    parsePCDLEntry (.ofList message) uninitialised (fuel + 4) totalLength pos self =
      .ok (some endPos, self') := by
  have hname : name.length < 65536 := by cases hnames <;> decide
  obtain ⟨p1, entry, hrest, rfl, hid⟩ := parseElements_turn uninitialised false
    (pcdlEntryElement (.ofList message)) ⟨-1, false, false⟩
    (· = ⟨contextId.toNat, false, false⟩) h (show 1 < 65536 by decide) fun p p' hc hle => by
      refine ⟨_, ?_, rfl⟩
      rw [pcdlEntryElement, decodeUint32_span hc, ok_bind, i32_uint32OfOctets_singleton]
      exact skip_span hc (hle.trans_lt hend)
  obtain ⟨p2, entry, hrest', hentry, hsyntax⟩ := parseElements_turn uninitialised false
    (pcdlEntryElement (.ofList message)) ⟨contextId.toNat, false, false⟩
    (· = ⟨contextId.toNat, name = asnIdAsAcse, name = asnIdMms⟩) hrest hname
    fun p p' hc hle => by
      refine ⟨_, ?_, rfl⟩
      have hskip : ∀ entry : ContextEntry, skip name.length p entry = .ok (some p', entry) :=
        fun _ => skip_span hc (hle.trans_lt hend)
      have hread := hc.readOctets
      unfold pcdlEntryElement
      cases hnames with
      | acse =>
        have hlength : ((asnIdAsAcse.length : Nat) : Int) = 4 := rfl
        rw [hlength] at hskip ⊢
        change (Memory.ofList message).readOctets p 4 = _ at hread
        simp only
        rw [if_neg (by decide), if_pos trivial, hread, ok_bind]
        exact hskip _
      | mms =>
        have hlength : ((asnIdMms.length : Nat) : Int) = 5 := rfl
        rw [hlength] at hskip ⊢
        change (Memory.ofList message).readOctets p 5 = _ at hread
        simp only
        rw [if_pos trivial, hread, ok_bind]
        exact hskip _
  have hlast : Memory.Span message (encodeTL 0x30 (encodeTL 0x06 2 ++ berId).length ++
    (encodeTL 0x06 2 ++ berId)) p2 endPos := hrest'
  obtain ⟨entry', hentry', htransfer⟩ := parseElements_last uninitialised false
    (pcdlEntryElement (.ofList message)) entry (· = entry) hlast (by decide)
    fun p hc => ⟨entry, skip_span hc hend, rfl⟩
  have hid' : ¬ (contextId.toNat : Int) < 0 := not_lt.mpr (Int.natCast_nonneg _)
  rw [parsePCDLEntry, htotal, hid, hsyntax, htransfer, ok_bind]
  dsimp only
  rw [hentry', hentry]
  dsimp only
  rw [if_neg hid', ofInt_toNat]
  cases hnames with
  | acse => rfl
  | mms => rfl

/-- What an entry of the list of contexts contains. -/
def contextEntry (contextId : UInt8) (abstractSyntaxName : List UInt8) : List UInt8 :=
  encodeTL 0x02 [contextId].length ++ ([contextId] ++
    (encodeTL 0x06 abstractSyntaxName.length ++ (abstractSyntaxName ++
      (encodeTL 0x30 4 ++ (encodeTL 0x06 2 ++ berId)))))

theorem definitionListElement_span {name : List UInt8} {self' : IsoPresentation}
    (h : Memory.Span message (contextEntry contextId name) pos endPos)
    (hend : endPos < 2147483648) (hnames : Names name contextId self self') (fuel : Nat) :
    definitionListElement (.ofList message) uninitialised (fuel + 4) 0x30
      (contextEntry contextId name).length pos self = .ok (some endPos, self') := by
  have hpos := h.pos_nonneg
  have hle := h.endPos_eq
  have hentry := parsePCDLEntry_span uninitialised self h hend hnames (h.i32_end hend) fuel
  rw [definitionListElement, if_pos rfl, hentry, ok_bind, rejectNegative, Option.getD_some,
    if_neg (by omega)]
  rfl

theorem parsePresentationContextDefinitionList_span
    (h : Memory.Span message (contextListItem 15 1 asnIdAsAcse ++ contextListItem 16 3 asnIdMms) pos
      endPos) (hend : endPos < 2147483648) (fuel : Nat) :
    parsePresentationContextDefinitionList (.ofList message) uninitialised (fuel + 4) 35 pos self =
      .ok (some endPos, { self with acseContextId := 1, mmsContextId := 3 }) := by
  have hi32 : i32 (pos + 35) = endPos := h.i32_end hend
  have hfirst : Memory.Span message (encodeTL 0x30 (contextEntry 1 asnIdAsAcse).length ++
    (contextEntry 1 asnIdAsAcse ++ (encodeTL 0x30 (contextEntry 3 asnIdMms).length ++
      contextEntry 3 asnIdMms))) pos endPos := h
  obtain ⟨p1, state, hrest, rfl, hacse⟩ := parseElements_turn uninitialised false
    (definitionListElement (.ofList message) uninitialised (fuel + 4)) self
    (· = { self with acseContextId := 1 }) hfirst (by decide)
    fun p p' hc hle => ⟨_, definitionListElement_span _ _ hc (hle.trans_lt hend) .acse fuel, rfl⟩
  obtain ⟨state, rfl, hmms⟩ := parseElements_last uninitialised false
    (definitionListElement (.ofList message) uninitialised (fuel + 4))
    { self with acseContextId := 1 } (· = { self with acseContextId := 1, mmsContextId := 3 })
    hrest (by decide) fun p hc => ⟨_, definitionListElement_span _ _ hc hend .mms fuel, rfl⟩
  rw [parsePresentationContextDefinitionList, hi32, hacse, hmms]

/-- The user data are the last of the parameters. -/
theorem normalModeElement_userData
    (h : Memory.Span message (encodeTL 0x61 (fullyEncodedDataLength payload.length) ++
      (encodeTL 0x30 (encodedDataSetLength payload.length) ++ pdvValues contextId payload)) pos
      endPos)
    (hsmall : fullyEncodedDataLength payload.length < 65536) (hend : endPos < 2147483648)
    (fuel fuel' : Nat) :
    ∃ region, region.Holds (.ofList message) payload ∧
      parseElements (.ofList message) uninitialised endPos true
        (normalModeElement (.ofList message) uninitialised (fuel + 3)) (fuel' + 2) pos self =
          .ok (some endPos, { self with nextContextId := contextId, nextPayload := some region }) := by
  have hlength := (counted_pdvList contextId payload).length_eq
  rw [← hlength] at h
  obtain ⟨state, ⟨region, hregion, rfl⟩, hlast⟩ := parseElements_last uninitialised true
    (normalModeElement (.ofList message) uninitialised (fuel + 3)) self
    (fun state => ∃ region, region.Holds (.ofList message) payload ∧
      state = { self with nextContextId := contextId, nextPayload := some region })
    h (hlength ▸ hsmall) fun p hc => by
      have hpos := hc.pos_nonneg
      have hle := hc.endPos_eq
      obtain ⟨region, hregion, hparse⟩ :=
        parseFullyEncodedData_span uninitialised self hc hsmall hend fuel
      refine ⟨_, ?_, region, hregion, rfl⟩
      rw [hlength, normalModeElement, if_neg (by decide), if_pos rfl, hparse, ok_bind,
        rejectNegative, Option.getD_some, if_neg (by omega)]
      rfl
  exact ⟨region, hregion, hlast fuel'⟩

/-- What a selector or another parameter that is not looked at leaves. -/
theorem normalModeElement_skip {tag : UInt8} {len : Int} (h : tag ≠ 0xa4) (h' : tag ≠ 0x61)
    (fuel : Nat) (p : Int) : normalModeElement (.ofList message) uninitialised fuel tag len p self =
      skip len p self := by
  rw [normalModeElement, if_neg h, if_neg h']

theorem parseNormalModeParameters_connect {localPSelector remotePSelector : UInt32}
    (h : Memory.Span message (connectParameters localPSelector remotePSelector payload) pos endPos)
    (hsmall : fullyEncodedDataLength payload.length < 65536) (hend : endPos < 2147483648)
    {totalLength : Int} (htotal : i32 (pos + totalLength) = endPos) (fuel : Nat) :
    ∃ region, region.Holds (.ofList message) payload ∧
      parseNormalModeParameters (.ofList message) uninitialised (fuel + 5) totalLength pos self =
        .ok (some endPos, { self with
          acseContextId := 1
          mmsContextId := 3
          nextContextId := 1
          nextPayload := some region }) := by
  have hcalling : Memory.Span message (encodeTL 0x81 (selectorOctets localPSelector).length ++
      (selectorOctets localPSelector ++
        (encodeTL 0x82 (selectorOctets remotePSelector).length ++ (selectorOctets remotePSelector ++
          (encodeTL 0xa4 (contextListItem 15 1 asnIdAsAcse ++ contextListItem 16 3 asnIdMms).length ++
            (contextListItem 15 1 asnIdAsAcse ++ contextListItem 16 3 asnIdMms ++
              encodeUserData 1 payload)))))) pos endPos := h
  have hfour : ∀ selector, (selectorOctets selector).length < 65536 := by
    intro selector
    rw [selectorOctets, Octets.length_ofNat]
    decide
  obtain ⟨p1, hcalled, heq1⟩ := parseElements_skip uninitialised true
    (normalModeElement (.ofList message) uninitialised (fuel + 5)) self hcalling (hfour _) hend
    (normalModeElement_skip _ _ (by decide) (by decide) _)
  obtain ⟨p2, hlist, heq2⟩ := parseElements_skip uninitialised true
    (normalModeElement (.ofList message) uninitialised (fuel + 5)) self hcalled (hfour _) hend
    (normalModeElement_skip _ _ (by decide) (by decide) _)
  obtain ⟨p3, state, hdata, rfl, heq3⟩ := parseElements_turn uninitialised true
    (normalModeElement (.ofList message) uninitialised (fuel + 5)) self
    (· = { self with acseContextId := 1, mmsContextId := 3 }) hlist (by decide)
    fun p p' hc hle => by
      refine ⟨_, ?_, rfl⟩
      have hparse := parsePresentationContextDefinitionList_span uninitialised self hc
        (hle.trans_lt hend) (fuel + 1)
      have hlength : (((contextListItem 15 1 asnIdAsAcse ++
        contextListItem 16 3 asnIdMms).length : Nat) : Int) = 35 := rfl
      rw [normalModeElement, if_pos rfl, hlength, hparse]
      rfl
  obtain ⟨region, hregion, hlast⟩ := normalModeElement_userData uninitialised
    { self with acseContextId := 1, mmsContextId := 3 } hdata hsmall hend (fuel + 2) fuel
  refine ⟨region, hregion, ?_⟩
  rw [parseNormalModeParameters, htotal, heq1, heq2, heq3, hlast]

theorem fullyEncodedDataLength_lt_connectLength (n : Nat) :
    fullyEncodedDataLength n < connectLength n := by
  simp only [connectLength, encodedUserDataLength]
  omega

/-- The element of the mode. -/
theorem connectElement_mode (maxBufPos : Int) (fuel : Nat)
    (h : Memory.Span message (encodeTL 0x80 [(1 : UInt8)].length ++ [1]) pos endPos)
    (hle : endPos ≤ maxBufPos) (hend : endPos < 2147483648) :
    connectElement (.ofList message) uninitialised maxBufPos fuel 0xa0
      (encodeTL 0x80 [(1 : UInt8)].length ++ [1]).length pos self = .ok (some endPos, self) := by
  have htag : (Memory.ofList message).read pos = .ok 0x80 := h.read
  obtain ⟨p, hmode, hdecode⟩ := decodeLength_last
    (encodeTL 0x80 [(1 : UInt8)].length ++ [1]).length h (by decide) hle
  rw [connectElement, if_pos rfl, htag, ok_bind, if_neg (by decide), hdecode, ok_bind]
  dsimp only
  rw [decodeUint32_span hmode, ok_bind]
  exact skip_span hmode hend

theorem connectElement_normalMode {localPSelector remotePSelector : UInt32}
    (h : Memory.Span message (connectParameters localPSelector remotePSelector payload) pos endPos)
    (hsmall : fullyEncodedDataLength payload.length < 65536) (hend : endPos < 2147483648)
    (maxBufPos : Int) (fuel : Nat) :
    ∃ region, region.Holds (.ofList message) payload ∧
      connectElement (.ofList message) uninitialised maxBufPos (fuel + 5) 0xa2
        (connectParameters localPSelector remotePSelector payload).length pos self =
          .ok (some endPos, { self with
            acseContextId := 1
            mmsContextId := 3
            nextContextId := 1
            nextPayload := some region }) := by
  have hpos := h.pos_nonneg
  have hle := h.endPos_eq
  obtain ⟨region, hregion, hparse⟩ := parseNormalModeParameters_connect uninitialised self h hsmall
    hend (h.i32_end hend) fuel
  refine ⟨region, hregion, ?_⟩
  rw [connectElement, if_neg (by decide), if_pos rfl, hparse, ok_bind, rejectNegative,
    Option.getD_some, if_neg (by omega)]
  rfl

/-- The two elements behind the tag and the length. -/
theorem parseElements_modeAndParameters {parameters : List UInt8} {maxBufPos : Int}
    (field : ElementParser IsoPresentation) (Q : IsoPresentation → Prop)
    (h : Memory.Span message (modeAndParameters parameters) pos maxBufPos)
    (hn : parameters.length < 65536)
    (hmode : ∀ p p', Memory.Span message (encodeTL 0x80 [(1 : UInt8)].length ++ [1]) p p' →
      p' ≤ maxBufPos →
      field 0xa0 (encodeTL 0x80 [(1 : UInt8)].length ++ [1]).length p self = .ok (some p', self))
    (hparameters : ∀ p, Memory.Span message parameters p maxBufPos → ∃ self',
      field 0xa2 parameters.length p self = .ok (some maxBufPos, self') ∧ Q self') :
    ∃ self', Q self' ∧ ∀ fuel,
      parseElements (.ofList message) uninitialised maxBufPos true field (fuel + 3) pos self =
        .ok (some maxBufPos, self') := by
  have hfirst : Memory.Span message (encodeTL 0xa0 (encodeTL 0x80 [(1 : UInt8)].length ++ [1]).length
      ++ (encodeTL 0x80 [(1 : UInt8)].length ++ [1] ++
        (encodeTL 0xa2 parameters.length ++ parameters))) pos maxBufPos := h
  obtain ⟨p, state, hrest, rfl, hturn⟩ := parseElements_turn uninitialised true field self (· = self)
    hfirst (by decide) fun p p' hc hle => ⟨self, hmode p p' hc hle, rfl⟩
  obtain ⟨self', hq, hlast⟩ := parseElements_last uninitialised true field state Q hrest hn
    hparameters
  exact ⟨self', hq, fun fuel => (hturn (fuel + 2)).trans (hlast fuel)⟩

/-- The server reads what the client has put into a connect PDU. -/
theorem parseConnect_createConnectPdu (creator : IsoPresentation)
    (localPSelector remotePSelector : UInt32) (payload : List UInt8)
    (hfits : connectLength payload.length < 65536) :
    ∃ region,
      region.Holds (.ofList (createConnectPdu creator localPSelector remotePSelector payload).2)
        payload ∧
      parseConnect
        (.ofList (createConnectPdu creator localPSelector remotePSelector payload).2) uninitialised
        5 (createConnectPdu creator localPSelector remotePSelector payload).2.length self =
          .ok (true, { self with
            acseContextId := 1
            mmsContextId := 3
            nextContextId := 1
            nextPayload := some region }) := by
  have hsmall := (fullyEncodedDataLength_lt_connectLength payload.length).trans hfits
  have hcontent := (counted_connectContent localPSelector remotePSelector payload).length_eq
  have hparameters := (counted_connectParameters localPSelector remotePSelector payload).length_eq
  have hpdu := (counted_connectContent localPSelector remotePSelector payload).length_element 0x31
  have hsize := MmsServer.determineLengthSize_le (connectLength payload.length)
  have hn : (connectParameters localPSelector remotePSelector payload).length < 65536 := by
    rw [connectLength] at hfits
    omega
  rw [createConnectPdu_eq]
  have hlong : ((encodeTL 0x31 (connectLength payload.length) ++ modeAndParameters
      (connectParameters localPSelector remotePSelector payload)).length : Int) < 2147483648 := by
    omega
  rw [← hcontent] at hfits hlong ⊢
  obtain ⟨p, hspan, htag, hdecode⟩ := decodeLength_message uninitialised 0x31 hfits
  obtain ⟨self', ⟨region, hregion, rfl⟩, hloop⟩ := parseElements_modeAndParameters uninitialised
    self (connectElement (.ofList _) uninitialised _ 5)
    (fun self' => ∃ region, Region.Holds region (.ofList _) payload ∧ self' = { self with
      acseContextId := 1
      mmsContextId := 3
      nextContextId := 1
      nextPayload := some region }) hspan hn
    (fun p p' hc hle => connectElement_mode uninitialised self _ 5 hc hle (hle.trans_lt hlong))
    fun p hc => by
      obtain ⟨region, hregion, hparse⟩ :=
        connectElement_normalMode uninitialised self hc hsmall hlong _ 0
      exact ⟨_, hparse, region, hregion, rfl⟩
  refine ⟨region, hregion, ?_⟩
  rw [parseConnect, htag, ok_bind, if_neg (by decide), hdecode, ok_bind]
  dsimp only
  rw [hloop 2]
  rfl

/-- The normal mode parameters of a CPA message. -/
theorem parseNormalModeParameters_cpa
    (h : Memory.Span message (cpaParameters contextId payload) pos endPos)
    (hsmall : fullyEncodedDataLength payload.length < 65536) (hend : endPos < 2147483648)
    {totalLength : Int} (htotal : i32 (pos + totalLength) = endPos) (fuel : Nat) :
    ∃ region, region.Holds (.ofList message) payload ∧
      parseNormalModeParameters (.ofList message) uninitialised (fuel + 4) totalLength pos self =
        .ok (some endPos, { self with nextContextId := contextId, nextPayload := some region }) := by
  have hresponding : Memory.Span message (encodeTL 0x83 calledPresentationSelector.length ++
      (calledPresentationSelector ++ (encodeTL 0xa5 (encodeAcceptBer ++ encodeAcceptBer).length ++
        (encodeAcceptBer ++ encodeAcceptBer ++ encodeUserData contextId payload)))) pos endPos := h
  obtain ⟨p1, hresults, heq1⟩ := parseElements_skip uninitialised true
    (normalModeElement (.ofList message) uninitialised (fuel + 4)) self hresponding (by decide) hend
    (normalModeElement_skip _ _ (by decide) (by decide) _)
  obtain ⟨p2, hdata, heq2⟩ := parseElements_skip uninitialised true
    (normalModeElement (.ofList message) uninitialised (fuel + 4)) self hresults (by decide) hend
    (normalModeElement_skip _ _ (by decide) (by decide) _)
  obtain ⟨region, hregion, hlast⟩ := normalModeElement_userData uninitialised self hdata hsmall hend
    (fuel + 1) fuel
  refine ⟨region, hregion, ?_⟩
  rw [parseNormalModeParameters, htotal, heq1, heq2, hlast]

/-- The client reads what the server has put into a CPA message. -/
theorem parseAcceptMessage_createCpaMessage (creator : IsoPresentation) (payload : List UInt8)
    (hfits : cpaLength payload.length < 65536) :
    ∃ region, region.Holds (.ofList (createCpaMessage creator payload)) payload ∧
      parseAcceptMessage (.ofList (createCpaMessage creator payload)) uninitialised 5
        (createCpaMessage creator payload).length self =
          .ok (true, { self with
            nextContextId := creator.acseContextId
            nextPayload := some region }) := by
  have hcontent := (counted_cpaContent creator.acseContextId payload).length_eq
  have hparameters := (counted_cpaParameters creator.acseContextId payload).length_eq
  have hpdu := (counted_cpaContent creator.acseContextId payload).length_element 0x31
  have hsize := MmsServer.determineLengthSize_le (cpaLength payload.length)
  have hn : (cpaParameters creator.acseContextId payload).length < 65536 := by
    rw [cpaLength] at hfits
    omega
  have hsmall : fullyEncodedDataLength payload.length < 65536 := by
    rw [encodedUserDataLength] at hparameters
    omega
  rw [createCpaMessage_eq]
  have hlong : ((encodeTL 0x31 (cpaLength payload.length) ++ modeAndParameters
      (cpaParameters creator.acseContextId payload)).length : Int) < 2147483648 := by
    omega
  rw [← hcontent] at hfits hlong ⊢
  obtain ⟨p, hspan, htag, hdecode⟩ := decodeLength_message uninitialised 0x31 hfits
  obtain ⟨self', ⟨region, hregion, rfl⟩, hloop⟩ := parseElements_modeAndParameters uninitialised
    self (acceptElement (.ofList _) uninitialised 5)
    (fun self' => ∃ region, Region.Holds region (.ofList _) payload ∧ self' = { self with
      nextContextId := creator.acseContextId
      nextPayload := some region }) hspan hn
    (fun p p' hc hle => by
      rw [acceptElement, if_neg (by decide)]
      exact skip_span hc (hle.trans_lt hlong))
    fun p hc => by
      have hpos := hc.pos_nonneg
      have hle := hc.endPos_eq
      obtain ⟨region, hregion, hparse⟩ := parseNormalModeParameters_cpa uninitialised self hc hsmall
        hlong (hc.i32_end hlong) 1
      refine ⟨_, ?_, region, hregion, rfl⟩
      rw [acceptElement, if_pos rfl, hparse, ok_bind, rejectNegative, Option.getD_some,
        if_neg (by omega)]
      rfl
  refine ⟨region, hregion, ?_⟩
  rw [parseAcceptMessage, htag, ok_bind, if_neg (by decide), hdecode, ok_bind]
  dsimp only
  rw [hloop 2]
  rfl

/-- Either side reads what the other one has sent in a data message. -/
theorem parseUserData_userDataPdu (contextId : UInt8) (payload : List UInt8)
    (hfits : fullyEncodedDataLength payload.length < 65536) :
    ∃ region, region.Holds (.ofList (userDataPdu contextId payload)) payload ∧
      parseUserData (.ofList (userDataPdu contextId payload)) uninitialised
        (userDataPdu contextId payload).length self =
          .ok (true, { self with nextContextId := contextId, nextPayload := some region }) := by
  have hvalues := (counted_pdvValues contextId payload).length_eq
  have hlist := (counted_pdvList contextId payload).length_eq
  have hpdu := (counted_pdvList contextId payload).length_element 0x61
  have hset : (pdvValues contextId payload).length < 65536 := by
    rw [hvalues]
    rw [fullyEncodedDataLength] at hfits
    omega
  have hpayload : payload.length < 65536 := by
    rw [hvalues, encodedDataSetLength] at hset
    omega
  have heq : userDataPdu contextId payload = encodeTL 0x61 (fullyEncodedDataLength payload.length) ++
      (encodeTL 0x30 (encodedDataSetLength payload.length) ++ pdvValues contextId payload) :=
    userDataPdu_eq contextId payload
  have hnine : ¬ ((userDataPdu contextId payload).length : Int) < 9 := by
    have hone := MmsServer.determineLengthSize_pos
    have := hone payload.length
    have := hone (encodedDataSetLength payload.length)
    have := hone (fullyEncodedDataLength payload.length)
    rw [heq, hpdu, fullyEncodedDataLength]
    rw [fullyEncodedDataLength] at this
    simp only [encodedDataSetLength] at *
    omega
  rw [parseUserData, if_neg hnine, heq]
  rw [← hlist] at hfits ⊢
  rw [← hvalues] at hfits ⊢
  obtain ⟨p, hspan, htag, hdecode⟩ := decodeLength_message uninitialised 0x61 hfits
  have hpdv : (Memory.ofList _).read p = .ok 0x30 := hspan.read
  rw [htag, ok_bind, if_neg (by decide), hdecode, ok_bind]
  dsimp only
  rw [hpdv, ok_bind, if_neg (by decide)]
  obtain ⟨p', hset', hdecode'⟩ := decodeLength_last _ hspan hset (Int.le_refl _)
  have hid : Memory.Span _ (0x02 :: 0x01 :: contextId :: (encodeTL 0xa0 payload.length ++ payload))
    p' _ := hset'
  have hdata := hid.next.next.next
  obtain ⟨start, hpayload', hdecode''⟩ := decodeLength_last uninitialised hdata hpayload
    (Int.le_refl _)
  have hsecond : p' + 1 + 1 = p' + 2 := by omega
  have hposition : p' + 1 + 1 + 1 = p' + 3 := by omega
  have hposition' : p' + 3 + 1 = p' + 4 := by omega
  have hcontext := hid.next.next.read
  rw [hsecond] at hcontext
  rw [hposition] at hdata hdecode''
  have htag' : (Memory.ofList _).read (p' + 3) = .ok 0xa0 := hdata.read
  rw [hposition'] at hdecode''
  refine ⟨_, holds_of_span hpayload', ?_⟩
  rw [hdecode', ok_bind]
  dsimp only
  rw [hid.read, ok_bind, if_neg (by decide), hid.next.read, ok_bind, if_neg (by decide), hcontext,
    ok_bind, htag', ok_bind, if_neg (by decide), hdecode'', ok_bind]
  rfl

end Reading

end IsoPresentation

end Iec61850
