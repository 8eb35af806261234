import Iec61850.Iso.Acse
import Iec61850.Iso.PresentationPdus
import Iec61850.Mms.AccessResult

/-! The associate messages that `acse.c` creates, and what is read from them. -/

namespace Iec61850

open Machine BerEncoder BerDecoder

/-- An AP title, empty where none is set, and the AE qualifier that goes with it. -/
structure ApTitle where
  octets : List UInt8
  aeQualifier : UInt32
  /-- It is kept in ten octets. -/
  length_le : octets.length ≤ 10

/-- What an associate request says of the peers. -/
structure IsoConnectionParameters where
  remoteApTitle : ApTitle
  localApTitle : ApTitle

/-- The authentication parameter of a client that sets one. -/
inductive AuthParameter
  | none
  | password (octetString : List UInt8)

namespace AcseConnection

def appContextNameMms : List UInt8 := [0x28, 0xca, 0x22, 0x02, 0x03]

def requirementsAuthentication : UInt8 := 0x80

/-! ## Builders -/

def assocDataLength (nextRefLength payloadLength : Nat) : Nat :=
  payloadLength + 1 + determineLengthSize payloadLength + (nextRefLength + 2)

def userInfoLength (nextRefLength payloadLength : Nat) : Nat :=
  assocDataLength nextRefLength payloadLength +
    (determineLengthSize (assocDataLength nextRefLength payloadLength) + 1)

/-- The user information, which end both messages. -/
def userInformationOctets (reference payload : List UInt8) : List UInt8 :=
  encodeTL 0xbe (userInfoLength reference.length payload.length) ++
    (encodeTL 0x28 (assocDataLength reference.length payload.length) ++
      (encodeTL 0x02 reference.length ++ (reference ++
        (encodeTL 0xa0 payload.length ++ payload))))

def appContextName : List UInt8 := encodeTL 0xa1 7 ++ (encodeTL 0x06 5 ++ appContextNameMms)

/-- The length that an associate response states. -/
def responseLength (nextReference : UInt32) (payloadLength : Nat) : Nat :=
  let nextRefLength := uInt32determineEncodedSize nextReference
  let userInfoLength := userInfoLength nextRefLength payloadLength
  9 + 5 + 5 + (userInfoLength + (determineLengthSize userInfoLength + 1) + 2)

def createAssociateResponseMessage (self : AcseConnection) (acseResult : UInt8)
    (payload : List UInt8) : List UInt8 :=
  encodeTL 0x61 (responseLength self.nextReference payload.length) ++ (appContextName ++
    (encodeTL 0xa2 3 ++ (encodeTL 0x02 1 ++ ([acseResult] ++
      (encodeTL 0xa3 5 ++ (encodeTL 0xa1 3 ++ (encodeTL 0x02 1 ++ ([0] ++
        userInformationOctets (encodeUInt32 self.nextReference) payload))))))))

def apTitleLength (apTitle : ApTitle) : Nat :=
  if apTitle.octets.length > 0 then
    4 + apTitle.octets.length + (4 + uInt32determineEncodedSize apTitle.aeQualifier)
  else 0

/-- The called and the calling AP title differ in their tags. -/
def apTitleOctets (tag qualifierTag : UInt8) (apTitle : ApTitle) : List UInt8 :=
  if apTitle.octets.length > 0 then
    encodeTL tag (apTitle.octets.length + 2) ++ (encodeTL 0x06 apTitle.octets.length ++
      (apTitle.octets ++
        (encodeTL qualifierTag (uInt32determineEncodedSize apTitle.aeQualifier + 2) ++
          (encodeTL 0x02 (uInt32determineEncodedSize apTitle.aeQualifier) ++
            encodeUInt32 apTitle.aeQualifier))))
  else []

/-- A mechanism name and a value are counted, even where none are sent. -/
def authenticationLength : Option AuthParameter → Nat
  | none => 0
  | some (.password octetString) =>
    let authValueStringLength := determineLengthSize octetString.length
    4 + 5 + (2 + (octetString.length + authValueStringLength) +
      determineLengthSize (octetString.length + authValueStringLength + 1))
  | some .none => 4 + 5 + 2

def authenticationOctets : Option AuthParameter → List UInt8
  | none => []
  | some (.password octetString) =>
    encodeTL 0x8a 2 ++ ([0x04, requirementsAuthentication] ++
      (encodeTL 0x8b 3 ++ (authMechPasswordOid ++
        (encodeTL 0xac (determineLengthSize octetString.length + octetString.length + 1) ++
          (encodeTL 0x80 octetString.length ++ octetString)))))
  | some .none => encodeTL 0x8a 2 ++ [0x04, 0]

/-- The length that an associate request states. -/
def requestLength (isoParameters : IsoConnectionParameters) (payloadLength : Nat)
    (authParameter : Option AuthParameter) : Nat :=
  let userInfoLength := userInfoLength 1 payloadLength
  9 + apTitleLength isoParameters.remoteApTitle + apTitleLength isoParameters.localApTitle +
    authenticationLength authParameter + (userInfoLength + determineLengthSize userInfoLength + 1)

def createAssociateRequestMessage (isoParameters : IsoConnectionParameters)
    (payload : List UInt8) (authParameter : Option AuthParameter) : List UInt8 :=
  encodeTL 0x60 (requestLength isoParameters payload.length authParameter) ++ (appContextName ++
    (apTitleOctets 0xa2 0xa3 isoParameters.remoteApTitle ++
      (apTitleOctets 0xa6 0xa7 isoParameters.localApTitle ++
        (authenticationOctets authParameter ++ userInformationOctets [3] payload))))

/-! ## Reading -/

section Reading

variable {message reference payload rest : List UInt8} {pos endPos : Int}
  (uninitialised : Int) (self : AcseConnection)

/-- The reference and the payload are read from the user information. -/
theorem userInformation_span (valid : Bool)
    (h : Memory.Span message (encodeTL 0x28 (assocDataLength reference.length payload.length) ++
      (encodeTL 0x02 reference.length ++ (reference ++ (encodeTL 0xa0 payload.length ++ payload))))
      pos endPos)
    (hreference : reference.length < 128)
    (hfits : assocDataLength reference.length payload.length < 65536) (hend : endPos < 2147483648)
    (len : Int) (fuel : Nat) :
    ∃ region, region.Holds (.ofList message) payload ∧
      userInformation (.ofList message) uninitialised (fuel + 3) endPos len pos valid self =
        .ok (some endPos, true, { self with
          nextReference := uint32OfOctets reference
          userDataBuffer := some region }) := by
  have hpayload : payload.length < 65536 := by
    rw [assocDataLength] at hfits
    omega
  have hlength : (encodeTL 0x02 reference.length ++ (reference ++
      (encodeTL 0xa0 payload.length ++ payload))).length =
        assocDataLength reference.length payload.length := by
    simp only [List.length_append, IsoPresentation.length_encodeTL,
      IsoPresentation.determineLengthSize_short hreference, assocDataLength]
    omega
  have htag : (Memory.ofList message).read pos = .ok 0x28 := h.read
  rw [← hlength] at h hfits
  obtain ⟨p, hspan, hdecode⟩ := decodeLength_last len h hfits (Int.le_refl endPos)
  obtain ⟨p1, state, hrest, rfl, hturn⟩ := parseElements_turn uninitialised false
    (userInformationElement (.ofList message)) (⟨false, false⟩, self)
    (· = (⟨true, false⟩, { self with nextReference := uint32OfOctets reference })) hspan (hreference.trans (by decide))
    fun p p' hc hle => by
      refine ⟨_, ?_, rfl⟩
      rw [userInformationElement, decodeUint32_span hc, ok_bind]
      exact skip_span hc (hle.trans_lt hend)
  obtain ⟨state, ⟨region, hregion, rfl⟩, hlast⟩ := parseElements_last uninitialised false
    (userInformationElement (.ofList message))
    (⟨true, false⟩, { self with nextReference := uint32OfOctets reference })
    (fun state => ∃ region, Region.Holds region (.ofList message) payload ∧
      state = (⟨true, true⟩, { self with
        nextReference := uint32OfOctets reference
        userDataBuffer := some region })) hrest hpayload
    fun p hc => ⟨_, skip_span hc hend, _, holds_of_span hc, rfl⟩
  refine ⟨region, hregion, ?_⟩
  rw [userInformation, htag, ok_bind, if_neg (by decide), hdecode, ok_bind]
  dsimp only
  rw [hspan.i32_end hend, parseUserInformation, hturn, hlast]
  rfl

/-- The user information are the last element of either message. -/
theorem userInformationOctets_span {σ : Type} (checked : Bool) (field : ElementParser σ)
    (state : σ) (Q : σ → Prop)
    (h : Memory.Span message (userInformationOctets reference payload) pos endPos)
    (hfield : ∀ p, Memory.Span message
      (encodeTL 0x28 (assocDataLength reference.length payload.length) ++
        (encodeTL 0x02 reference.length ++ (reference ++
          (encodeTL 0xa0 payload.length ++ payload)))) p endPos →
      ∃ state', field 0xbe (userInfoLength reference.length payload.length % 65536 : Nat) p state =
        .ok (some endPos, state') ∧ Q state') :
    ∃ state', Q state' ∧ ∀ fuel,
      parseElements (.ofList message) uninitialised endPos checked field (fuel + 2) pos state =
        .ok (some endPos, state') := by
  obtain ⟨p', state', ⟨rfl, hq⟩, hturn⟩ := parseElements_header uninitialised checked field state
    (fun p' state' => p' = endPos ∧ Q state') h fun p hspan => by
      obtain ⟨state', heq, hq⟩ := hfield p hspan
      exact ⟨endPos, state', heq, rfl, hq⟩
  exact ⟨state', hq, fun fuel => (hturn (fuel + 1)).trans (parseElements_end (Int.le_refl _))⟩

theorem uint32OfOctets_singleton_eq_zero {b : UInt8} : uint32OfOctets [b] = 0 ↔ b = 0 := by
  refine ⟨fun h => ?_, fun h => ?_⟩
  · rw [← IsoPresentation.uint32OfOctets_singleton b, h]
    rfl
  · rw [h]
    rfl

/-- The connection after an associate response has been read. -/
theorem parseAarePdu_span {acseResult : UInt8}
    (h : Memory.Span message (appContextName ++
      (encodeTL 0xa2 3 ++ (encodeTL 0x02 1 ++ ([acseResult] ++
        (encodeTL 0xa3 5 ++ (encodeTL 0xa1 3 ++ (encodeTL 0x02 1 ++ ([0] ++
          userInformationOctets reference payload)))))))) pos endPos)
    (hreference : reference.length < 128)
    (hfits : assocDataLength reference.length payload.length < 65536)
    (hend : endPos < 2147483648) :
    ∃ region, region.Holds (.ofList message) payload ∧
      parseAarePdu (.ofList message) uninitialised 5 pos endPos self =
        .ok (if acseResult = 0 then .associate else .associateFailed, { self with
          nextReference := uint32OfOctets reference
          userDataBuffer := some region }) := by
  have hcontext : Memory.Span message (encodeTL 0xa1 (encodeTL 0x06 5 ++ appContextNameMms).length ++
      ((encodeTL 0x06 5 ++ appContextNameMms) ++
        (encodeTL 0xa2 (encodeTL 0x02 [acseResult].length ++ [acseResult]).length ++
          (encodeTL 0x02 [acseResult].length ++ [acseResult] ++
            (encodeTL 0xa3 (encodeTL 0xa1 3 ++ (encodeTL 0x02 1 ++ [0])).length ++
              ((encodeTL 0xa1 3 ++ (encodeTL 0x02 1 ++ [0])) ++
                userInformationOctets reference payload)))))) pos endPos := h
  obtain ⟨p1, hresult, hturn1⟩ := parseElements_skip uninitialised false
    (aareElement (.ofList message) uninitialised 5 endPos) ⟨99, false, self⟩ hcontext (by decide)
    hend fun p => by rw [aareElement, if_neg (by decide), if_neg (by decide)]
  obtain ⟨p2, state, hdiagnostic, rfl, hturn2⟩ := parseElements_turn uninitialised false
    (aareElement (.ofList message) uninitialised 5 endPos) ⟨99, false, self⟩
    (· = ⟨uint32OfOctets [acseResult], false, self⟩) hresult (by simp [encodeTL, encodeLength])
    fun p p' hc hle => by
      refine ⟨_, ?_, rfl⟩
      obtain ⟨q, hvalue, hdecode⟩ := decodeLength_last
        (encodeTL 0x02 [acseResult].length ++ [acseResult]).length hc (by simp) hle
      rw [aareElement, if_pos rfl, hdecode, ok_bind]
      dsimp only
      rw [decodeUint32_span hvalue, ok_bind]
      exact skip_span hvalue (hle.trans_lt hend)
  obtain ⟨p3, hinformation, hturn3⟩ := parseElements_skip uninitialised false
    (aareElement (.ofList message) uninitialised 5 endPos)
    ⟨uint32OfOctets [acseResult], false, self⟩ hdiagnostic (by decide)
    hend fun p => by rw [aareElement, if_neg (by decide), if_neg (by decide)]
  obtain ⟨state, ⟨region, hregion, rfl⟩, hlast⟩ := userInformationOctets_span uninitialised
    false (aareElement (.ofList message) uninitialised 5 endPos)
    ⟨uint32OfOctets [acseResult], false, self⟩
    (fun state : AareState => ∃ region, Region.Holds region (.ofList message) payload ∧
      state = ⟨uint32OfOctets [acseResult], true, { self with
        nextReference := uint32OfOctets reference
        userDataBuffer := some region }⟩) hinformation fun p hspan => by
      obtain ⟨region, hregion, hparse⟩ := userInformation_span uninitialised self false hspan
        hreference hfits hend
        (userInfoLength reference.length payload.length % 65536 : Nat) 2
      refine ⟨_, ?_, region, hregion, rfl⟩
      rw [aareElement, if_neg (by decide), if_pos rfl, hparse]
      rfl
  refine ⟨region, hregion, ?_⟩
  rw [parseAarePdu, hturn1, hturn2, hturn3, hlast, ok_bind]
  dsimp only
  rw [AareState.indication, if_neg (by simp)]
  by_cases hzero : acseResult = 0
  · rw [if_pos hzero, if_neg (not_not.mpr (uint32OfOctets_singleton_eq_zero.mpr hzero))]
    rfl
  · rw [if_neg hzero, if_pos (fun h => hzero (uint32OfOctets_singleton_eq_zero.mp h))]
    rfl

/-- The elements of an associate request that are not looked at. -/
def apTitleElements (tag qualifierTag : UInt8) (apTitle : ApTitle) : List (UInt8 × List UInt8) :=
  if apTitle.octets.length > 0 then
    [(tag, encodeTL 0x06 apTitle.octets.length ++ apTitle.octets),
      (qualifierTag, encodeTL 0x02 (uInt32determineEncodedSize apTitle.aeQualifier) ++
        encodeUInt32 apTitle.aeQualifier)]
  else []

theorem flatMap_apTitleElements (tag qualifierTag : UInt8) (apTitle : ApTitle) :
    (apTitleElements tag qualifierTag apTitle).flatMap encodeElement =
      apTitleOctets tag qualifierTag apTitle := by
  have hle := apTitle.length_le
  have hqualifier := MmsServer.uInt32determineEncodedSize_le apTitle.aeQualifier
  have htitle : (encodeTL 0x06 apTitle.octets.length ++ apTitle.octets).length =
      apTitle.octets.length + 2 := by
    rw [List.length_append, IsoPresentation.length_encodeTL,
      IsoPresentation.determineLengthSize_short (by omega), Nat.add_comm]
  have hsize : (encodeTL 0x02 (uInt32determineEncodedSize apTitle.aeQualifier) ++
      encodeUInt32 apTitle.aeQualifier).length =
        uInt32determineEncodedSize apTitle.aeQualifier + 2 := by
    rw [List.length_append, IsoPresentation.length_encodeTL, MmsServer.length_encodeUInt32,
      IsoPresentation.determineLengthSize_short (by omega), Nat.add_comm]
  rw [apTitleElements, apTitleOctets]
  split_ifs with hset
  · simp only [List.flatMap_cons, List.flatMap_nil, List.append_nil, encodeElement, htitle, hsize,
      List.append_assoc]
  · rfl

/-- The sender requirements, and what is sent behind them. -/
def requirementsElements : Option AuthParameter → List (UInt8 × List UInt8)
  | none => []
  | some (.password _) => [(0x8a, [0x04, requirementsAuthentication])]
  | some .none => [(0x8a, [0x04, 0])]

def mechanismOctets : Option AuthParameter → List UInt8
  | some (.password octetString) =>
    encodeTL 0x8b 3 ++ (authMechPasswordOid ++
      (encodeTL 0xac (determineLengthSize octetString.length + octetString.length + 1) ++
        (encodeTL 0x80 octetString.length ++ octetString)))
  | _ => []

theorem authenticationOctets_eq (authParameter : Option AuthParameter) :
    authenticationOctets authParameter =
      (requirementsElements authParameter).flatMap encodeElement ++
        mechanismOctets authParameter := by
  match authParameter with
  | none => rfl
  | some (.password _) => rfl
  | some .none => rfl

/-- The elements in front of the mechanism. -/
def skippedElements (isoParameters : IsoConnectionParameters)
    (authParameter : Option AuthParameter) : List (UInt8 × List UInt8) :=
  (0xa1, encodeTL 0x06 5 ++ appContextNameMms) ::
    (apTitleElements 0xa2 0xa3 isoParameters.remoteApTitle ++
      apTitleElements 0xa6 0xa7 isoParameters.localApTitle ++ requirementsElements authParameter)

/-- What an associate request is behind its tag and its length. -/
def requestContent (isoParameters : IsoConnectionParameters) (payload : List UInt8)
    (authParameter : Option AuthParameter) : List UInt8 :=
  (skippedElements isoParameters authParameter).flatMap encodeElement ++
    (mechanismOctets authParameter ++ userInformationOctets [3] payload)

theorem createAssociateRequestMessage_eq (isoParameters : IsoConnectionParameters)
    (payload : List UInt8) (authParameter : Option AuthParameter) :
    createAssociateRequestMessage isoParameters payload authParameter =
      encodeTL 0x60 (requestLength isoParameters payload.length authParameter) ++
        requestContent isoParameters payload authParameter := by
  rw [createAssociateRequestMessage, requestContent, skippedElements, List.flatMap_cons,
    List.flatMap_append, List.flatMap_append, flatMap_apTitleElements, flatMap_apTitleElements,
    authenticationOctets_eq]
  simp only [List.append_assoc]
  rfl

/-- The tags that the parser of associate requests knows. -/
def requestTags : List UInt8 := [0x8b, 0xac, 0xbe]

theorem notLookedAt_apTitleElements {tag qualifierTag : UInt8} (apTitle : ApTitle)
    (ht : tag ∉ requestTags) (hq : qualifierTag ∉ requestTags) :
    ∀ element ∈ apTitleElements tag qualifierTag apTitle,
      element.1 ∉ requestTags ∧ element.2.length < 65536 := by
  have hle := apTitle.length_le
  have htl := length_encodeTL_le 0x06 apTitle.octets.length
  have htl' := length_encodeTL_le 0x02 (uInt32determineEncodedSize apTitle.aeQualifier)
  have hqualifier := MmsServer.uInt32determineEncodedSize_le apTitle.aeQualifier
  intro element hmem
  rw [apTitleElements] at hmem
  split at hmem
  · rcases List.mem_cons.mp hmem with rfl | hmem
    · refine ⟨ht, ?_⟩
      rw [List.length_append]
      omega
    · cases List.mem_singleton.mp hmem
      refine ⟨hq, ?_⟩
      rw [List.length_append, MmsServer.length_encodeUInt32]
      omega
  · cases hmem

theorem notLookedAt_skippedElements (isoParameters : IsoConnectionParameters)
    (authParameter : Option AuthParameter) :
    ∀ element ∈ skippedElements isoParameters authParameter,
      element.1 ∉ requestTags ∧ element.2.length < 65536 := by
  intro element hmem
  rw [skippedElements, List.mem_cons, List.mem_append, List.mem_append] at hmem
  rcases hmem with rfl | (hmem | hmem) | hmem
  · exact ⟨by decide, by decide⟩
  · exact notLookedAt_apTitleElements _ (by decide) (by decide) element hmem
  · exact notLookedAt_apTitleElements _ (by decide) (by decide) element hmem
  · match authParameter with
    | none => cases hmem
    | some (.password _) =>
      cases List.mem_singleton.mp hmem
      exact ⟨by decide, by decide⟩
    | some .none =>
      cases List.mem_singleton.mp hmem
      exact ⟨by decide, by decide⟩

theorem aarqElement_skip {tag : UInt8} (h : tag ∉ requestTags) (fuel : Nat) (maxBufPos len p : Int)
    (state : AarqState) :
    aarqElement (.ofList message) uninitialised fuel maxBufPos tag len p state =
      skip len p state := by
  simp only [requestTags, List.mem_cons, List.not_mem_nil, or_false, not_or] at h
  rw [aarqElement, if_neg h.1, if_neg h.2.1, if_neg h.2.2]

/-- What the authenticator is told of the parameter that the client has set. -/
def Supplied (buffer : Memory) : Option AuthParameter → AcseAuthenticationParameter → Prop
  | some (.password octetString), parameter =>
    ∃ value, parameter = .password value ∧ value.Holds buffer octetString
  | _, parameter => parameter = .none

/-- The connection after an associate request has been read. -/
def associated (self : AcseConnection) (buffer : Memory) (parameter : AcseAuthenticationParameter)
    (region : Region) : AcseConnection where
  nextReference := 3
  userDataBuffer := some region
  authenticator := self.authenticator
  authenticated := self.authenticated || self.authenticator.any (· buffer parameter)

/-- The part of the state that the elements behind the mechanism do not change. -/
theorem parseElements_mechanism {authParameter : Option AuthParameter} (fuel : Nat)
    (h : Memory.Span message (mechanismOctets authParameter ++ rest) pos endPos)
    (hpassword : ∀ octetString, authParameter = some (.password octetString) →
      octetString.length < 65536) (hend : endPos < 2147483648) :
    ∃ p' turns state', turns ≤ 2 ∧ Memory.Span message rest p' endPos ∧
      state'.connection = self ∧ state'.userInfoValid = false ∧
      (∃ parameter, Supplied (.ofList message) authParameter parameter ∧ ∀ authenticator,
        authenticateClient (.ofList message) authenticator state'.authMechanism state'.authValue =
          .ok (authenticator (.ofList message) parameter)) ∧
      ∀ fuel', parseElements (.ofList message) uninitialised endPos true
          (aarqElement (.ofList message) uninitialised fuel endPos) (fuel' + turns) pos
          ⟨none, none, false, self⟩ =
        parseElements (.ofList message) uninitialised endPos true
          (aarqElement (.ofList message) uninitialised fuel endPos) fuel' p' state' := by
  have hnone : ∀ authenticator : AcseAuthenticator,
      authenticateClient (.ofList message) authenticator none none =
        .ok (authenticator (.ofList message) .none) := fun _ => rfl
  match authParameter with
  | none => exact ⟨pos, 0, _, by decide, h, rfl, rfl, ⟨_, rfl, hnone⟩, fun _ => rfl⟩
  | some .none => exact ⟨pos, 0, _, by decide, h, rfl, rfl, ⟨_, rfl, hnone⟩, fun _ => rfl⟩
  | some (.password octetString) =>
    have hlength := hpassword octetString rfl
    have hmechanism : Memory.Span message (encodeTL 0x8b authMechPasswordOid.length ++
        (authMechPasswordOid ++ (encodeTL 0xac
          (determineLengthSize octetString.length + octetString.length + 1) ++
            (encodeTL 0x80 octetString.length ++ (octetString ++ rest))))) pos endPos := by
      rw [mechanismOctets] at h
      simp only [List.append_assoc] at h
      exact h
    obtain ⟨p1, state, hvalue, ⟨start, hoid, rfl⟩, hturn1⟩ := parseElements_turn uninitialised true
      (aarqElement (.ofList message) uninitialised fuel endPos) ⟨none, none, false, self⟩
      (fun state => ∃ start,
        (Memory.ofList message).readOctets start 3 = .ok authMechPasswordOid ∧
        state = ⟨some ⟨start, 3⟩, none, false, self⟩) hmechanism (by decide) fun p p' hc hle =>
          ⟨_, skip_span hc (hle.trans_lt hend), p, hc.readOctets, rfl⟩
    obtain ⟨p2, state, ⟨hrest, value, hvalue', rfl⟩, hturn2⟩ := parseElements_header uninitialised
      true (aarqElement (.ofList message) uninitialised fuel endPos)
      ⟨some ⟨start, 3⟩, none, false, self⟩
      (fun p' state => Memory.Span message rest p' endPos ∧ ∃ value,
        Region.Holds value (.ofList message) octetString ∧
        state = ⟨some ⟨start, 3⟩, some value, false, self⟩) hvalue fun p hspan => by
        obtain ⟨q, q', hcontent, hrest, hdecode⟩ := decodeLength_span
          ((determineLengthSize octetString.length + octetString.length + 1) % 65536 : Nat) hspan
          hlength (Int.le_refl endPos)
        refine ⟨q', _, ?_, hrest, _, holds_of_span hcontent, rfl⟩
        rw [aarqElement, if_neg (by decide), if_pos rfl, hdecode, ok_bind]
        have hq := hrest.endPos_eq
        exact skip_span hcontent (by omega)
    refine ⟨p2, 2, _, by decide, hrest, rfl, rfl, ⟨_, ⟨value, rfl, hvalue'⟩, ?_⟩,
      fun fuel' => (hturn1 (fuel' + 1)).trans (hturn2 fuel')⟩
    intro authenticator
    rw [authenticateClient, isPasswordMechanism, hoid]
    rfl

theorem checkAuthentication_eq {buffer : Memory} {authMechanism authValue : Option Region}
    (parameter : AcseAuthenticationParameter) (region : Region)
    (hself : self.nextReference = 3 ∧ self.userDataBuffer = some region)
    (h : ∀ authenticator, authenticateClient buffer authenticator authMechanism authValue =
      .ok (authenticator buffer parameter)) :
    checkAuthentication buffer self authMechanism authValue =
      .ok (self.authenticator.all (· buffer parameter),
        associated self buffer parameter region) := by
  obtain ⟨nextReference, userDataBuffer, authenticator, authenticated⟩ := self
  obtain ⟨rfl, rfl⟩ := hself
  cases authenticator with
  | none => simp only [checkAuthentication, associated, Option.all_none, Option.any_none,
      Bool.or_false, pure, Except.pure]
  | some authenticator => simp only [checkAuthentication, associated, h, ok_bind, Option.all_some,
      Option.any_some, pure, Except.pure]

theorem parseAarqPdu_span {isoParameters : IsoConnectionParameters}
    {authParameter : Option AuthParameter}
    (h : Memory.Span message (requestContent isoParameters payload authParameter) pos endPos)
    (hpassword : ∀ octetString, authParameter = some (.password octetString) →
      octetString.length < 65536)
    (hfits : assocDataLength 1 payload.length < 65536) (hend : endPos < 2147483648) :
    ∃ fuel parameter region, Supplied (.ofList message) authParameter parameter ∧
      region.Holds (.ofList message) payload ∧
      parseAarqPdu (.ofList message) uninitialised fuel pos endPos self =
        .ok (if self.authenticator.all (· (.ofList message) parameter) then .associate
          else .associateFailed, associated self (.ofList message) parameter region) := by
  have hnot := notLookedAt_skippedElements isoParameters authParameter
  generalize hskipped : skippedElements isoParameters authParameter = skipped at hnot
  rw [requestContent, hskipped] at h
  obtain ⟨p1, hmechanism, hturns1⟩ := parseElements_skips uninitialised true
    (aarqElement (.ofList message) uninitialised (4 + skipped.length) endPos)
    ⟨none, none, false, self⟩ skipped h hend (fun element hmem => (hnot element hmem).2)
    fun element hmem len p => aarqElement_skip uninitialised (hnot element hmem).1 _ _ len p _
  obtain ⟨p2, turns, state, hturns, hinformation, hconnection, hvalid,
      ⟨parameter, hsupplied, hauthentication⟩, hturns2⟩ :=
    parseElements_mechanism uninitialised self (4 + skipped.length) hmechanism hpassword hend
  obtain ⟨state', ⟨region, hregion, rfl⟩, hlast⟩ := userInformationOctets_span uninitialised
    true (aarqElement (.ofList message) uninitialised (4 + skipped.length) endPos) state
    (fun state' : AarqState => ∃ region, Region.Holds region (.ofList message) payload ∧
      state' = { state with
        userInfoValid := true
        connection := { self with nextReference := 3, userDataBuffer := some region } })
    hinformation fun p hspan => by
      obtain ⟨region, hregion, hparse⟩ := userInformation_span uninitialised self
        state.userInfoValid hspan (by decide) hfits hend
        (userInfoLength 1 payload.length % 65536 : Nat) (skipped.length + 1)
      have hfield : userInformation (.ofList message) uninitialised (4 + skipped.length) endPos
          (userInfoLength 1 payload.length % 65536 : Nat) p state.userInfoValid self = _ :=
        (congrArg (userInformation _ _ · _ _ _ _ _) (by omega)).trans hparse
      refine ⟨_, ?_, region, hregion, rfl⟩
      rw [aarqElement, if_neg (by decide), if_neg (by decide), if_pos rfl, hconnection]
      dsimp only [List.length_singleton]
      rw [hfield]
      rfl
  refine ⟨4 + skipped.length, parameter, region, hsupplied, hregion, ?_⟩
  have hfour : 4 = 2 - turns + 2 + turns := by omega
  have hloop := (hturns2 (2 - turns + 2)).trans (hlast (2 - turns))
  rw [← hfour] at hloop
  have hchecked := checkAuthentication_eq
    { self with nextReference := 3, userDataBuffer := some region } parameter region ⟨rfl, rfl⟩
    hauthentication
  rw [parseAarqPdu, hturns1, hloop, ok_bind]
  dsimp only
  rw [if_neg (by simp), hchecked, ok_bind]
  dsimp only
  cases self.authenticator.all (· (.ofList message) parameter) with
  | true => rfl
  | false => rfl

end Reading

/-! ## Messages -/

section Messages

open IsoPresentation (length_encodeTL determineLengthSize_short)

theorem length_userInformationOctets {reference : List UInt8} (hreference : reference.length < 128)
    (payload : List UInt8) :
    (userInformationOctets reference payload).length =
      userInfoLength reference.length payload.length +
        (determineLengthSize (userInfoLength reference.length payload.length) + 1) := by
  simp only [userInformationOctets, List.length_append, length_encodeTL,
    determineLengthSize_short hreference]
  rw [userInfoLength]
  simp only [assocDataLength]
  omega

theorem length_apTitleOctets (tag qualifierTag : UInt8) (apTitle : ApTitle) :
    (apTitleOctets tag qualifierTag apTitle).length = apTitleLength apTitle := by
  have hle := apTitle.length_le
  have hqualifier := MmsServer.uInt32determineEncodedSize_le apTitle.aeQualifier
  rw [apTitleOctets, apTitleLength]
  split_ifs with hset
  · simp only [List.length_append, length_encodeTL, MmsServer.length_encodeUInt32]
    rw [determineLengthSize_short (by omega), determineLengthSize_short (by omega),
      determineLengthSize_short (by omega), determineLengthSize_short (by omega)]
    omega
  · rfl

theorem length_authenticationOctets_le (authParameter : Option AuthParameter) :
    (authenticationOctets authParameter).length ≤ authenticationLength authParameter := by
  match authParameter with
  | none => exact Nat.le_refl 0
  | some .none => exact show 4 ≤ 11 by decide
  | some (.password octetString) =>
    have hoid : authMechPasswordOid.length = 3 := rfl
    simp only [authenticationOctets, authenticationLength, List.length_append, length_encodeTL,
      List.length_cons, List.length_nil, hoid]
    rw [determineLengthSize_short (by decide), determineLengthSize_short (by decide),
      Nat.add_comm (determineLengthSize _) octetString.length]
    omega

/-- The length that an associate request states is at least the one that it has. -/
theorem length_createAssociateRequestMessage_le (isoParameters : IsoConnectionParameters)
    (payload : List UInt8) (authParameter : Option AuthParameter) :
    (createAssociateRequestMessage isoParameters payload authParameter).length ≤
      4 + requestLength isoParameters payload.length authParameter := by
  have htl := length_encodeTL_le 0x60 (requestLength isoParameters payload.length authParameter)
  have hauthentication := length_authenticationOctets_le authParameter
  have hname : appContextName.length = 9 := rfl
  rw [createAssociateRequestMessage]
  simp only [List.length_append, length_apTitleOctets, hname]
  rw [length_userInformationOctets (by decide), List.length_singleton]
  rw [requestLength] at htl ⊢
  omega

theorem userInfoLength_le (nextRefLength payloadLength : Nat) :
    userInfoLength nextRefLength payloadLength ≤ assocDataLength nextRefLength payloadLength + 4 := by
  have hle := MmsServer.determineLengthSize_le (assocDataLength nextRefLength payloadLength)
  rw [userInfoLength]
  omega

theorem length_createAssociateResponseMessage_lt (self : AcseConnection) (acseResult : UInt8)
    (payload : List UInt8)
    (hfits : assocDataLength (uInt32determineEncodedSize self.nextReference) payload.length <
      65536) :
    ((createAssociateResponseMessage self acseResult payload).length : Int) < 2147483648 := by
  have htl := length_encodeTL_le 0x61 (responseLength self.nextReference payload.length)
  have hqualifier := MmsServer.uInt32determineEncodedSize_le self.nextReference
  have hinfo := userInfoLength_le (uInt32determineEncodedSize self.nextReference) payload.length
  have hsize := MmsServer.determineLengthSize_le
    (userInfoLength (uInt32determineEncodedSize self.nextReference) payload.length)
  have hname : appContextName.length = 9 := rfl
  rw [createAssociateResponseMessage]
  simp only [List.length_append, List.length_singleton, length_encodeTL 0xa2, length_encodeTL 0xa3,
    length_encodeTL 0xa1, length_encodeTL 0x02, hname]
  rw [length_userInformationOctets (by rw [MmsServer.length_encodeUInt32]; omega),
    MmsServer.length_encodeUInt32, determineLengthSize_short (by decide),
    determineLengthSize_short (by decide), determineLengthSize_short (by decide)]
  omega

theorem apTitleLength_le (apTitle : ApTitle) : apTitleLength apTitle ≤ 23 := by
  have hle := apTitle.length_le
  have hqualifier := MmsServer.uInt32determineEncodedSize_le apTitle.aeQualifier
  rw [apTitleLength]
  split_ifs <;> omega

theorem authenticationLength_lt (authParameter : Option AuthParameter)
    (hpassword : ∀ octetString, authParameter = some (.password octetString) →
      octetString.length < 65536) : authenticationLength authParameter < 65560 := by
  rcases authParameter with _ | _ | octetString
  · simp [authenticationLength]
  · simp [authenticationLength]
  · have hlength := hpassword octetString rfl
    have hone := MmsServer.determineLengthSize_le octetString.length
    have htwo := MmsServer.determineLengthSize_le
      (octetString.length + determineLengthSize octetString.length + 1)
    simp only [authenticationLength]
    omega

theorem length_createAssociateRequestMessage_lt (isoParameters : IsoConnectionParameters)
    (payload : List UInt8) (authParameter : Option AuthParameter)
    (hpassword : ∀ octetString, authParameter = some (.password octetString) →
      octetString.length < 65536)
    (hfits : assocDataLength 1 payload.length < 65536) :
    ((createAssociateRequestMessage isoParameters payload authParameter).length : Int) <
      2147483648 := by
  have hle := length_createAssociateRequestMessage_le isoParameters payload authParameter
  have hremote := apTitleLength_le isoParameters.remoteApTitle
  have hlocal := apTitleLength_le isoParameters.localApTitle
  have hinfo := userInfoLength_le 1 payload.length
  have hsize := MmsServer.determineLengthSize_le
  have hauthentication := authenticationLength_lt authParameter hpassword
  have hthree := hsize (userInfoLength 1 payload.length)
  rw [requestLength] at hle
  omega

variable (uninitialised : Int) (self : AcseConnection)

/-- The client reads what the server has put into an associate response. -/
theorem parseMessage_associateResponse (creator : AcseConnection) (acseResult : UInt8)
    (payload : List UInt8)
    (hfits : assocDataLength (uInt32determineEncodedSize creator.nextReference) payload.length <
      65536) :
    ∃ fuel region,
      region.Holds (.ofList (createAssociateResponseMessage creator acseResult payload)) payload ∧
      parseMessage (.ofList (createAssociateResponseMessage creator acseResult payload))
        uninitialised fuel (createAssociateResponseMessage creator acseResult payload).length self =
          .ok (if acseResult = 0 then .associate else .associateFailed, { self with
            nextReference := creator.nextReference
            userDataBuffer := some region }) := by
  have hreference : (encodeUInt32 creator.nextReference).length < 128 :=
    (MmsServer.uInt32determineEncodedSize_le _).trans_lt (by decide)
  have hlong := length_createAssociateResponseMessage_lt creator acseResult payload hfits
  obtain ⟨p, hspan, htag, hdecode⟩ := @decodeLength_outermost (appContextName ++
    (encodeTL 0xa2 3 ++ (encodeTL 0x02 1 ++ ([acseResult] ++
      (encodeTL 0xa3 5 ++ (encodeTL 0xa1 3 ++ (encodeTL 0x02 1 ++ ([0] ++
        userInformationOctets (encodeUInt32 creator.nextReference) payload))))))))
    uninitialised 0x61 (responseLength creator.nextReference payload.length)
  obtain ⟨region, hregion, hparse⟩ := parseAarePdu_span uninitialised self hspan hreference hfits
    hlong
  refine ⟨5, region, hregion, ?_⟩
  have hp := hspan.pos_nonneg
  rw [parseMessage, createAssociateResponseMessage, htag, ok_bind, hdecode, ok_bind]
  dsimp only
  rw [if_neg (not_lt.mpr hp), if_neg (by decide), if_pos rfl, hparse, uint32OfOctets_encodeUInt32]

/-- The server reads what the client has put into an associate request. -/
theorem parseMessage_associateRequest (isoParameters : IsoConnectionParameters)
    (payload : List UInt8) (authParameter : Option AuthParameter)
    (hpassword : ∀ octetString, authParameter = some (.password octetString) →
      octetString.length < 65536)
    (hfits : assocDataLength 1 payload.length < 65536) :
    ∃ fuel parameter region,
      Supplied (.ofList (createAssociateRequestMessage isoParameters payload authParameter))
        authParameter parameter ∧
      region.Holds (.ofList (createAssociateRequestMessage isoParameters payload authParameter))
        payload ∧
      parseMessage (.ofList (createAssociateRequestMessage isoParameters payload authParameter))
        uninitialised fuel
        (createAssociateRequestMessage isoParameters payload authParameter).length self =
          .ok (if self.authenticator.all (· (.ofList
              (createAssociateRequestMessage isoParameters payload authParameter)) parameter)
            then .associate else .associateFailed, associated self
              (.ofList (createAssociateRequestMessage isoParameters payload authParameter))
              parameter region) := by
  have hlong := length_createAssociateRequestMessage_lt isoParameters payload authParameter
    hpassword hfits
  rw [createAssociateRequestMessage_eq] at hlong ⊢
  obtain ⟨p, hspan, htag, hdecode⟩ := @decodeLength_outermost
    (requestContent isoParameters payload authParameter) uninitialised 0x60
    (requestLength isoParameters payload.length authParameter)
  obtain ⟨fuel, parameter, region, hsupplied, hregion, hparse⟩ := parseAarqPdu_span uninitialised
    self hspan hpassword hfits hlong
  refine ⟨fuel, parameter, region, hsupplied, hregion, ?_⟩
  have hp := hspan.pos_nonneg
  rw [parseMessage, htag, ok_bind, hdecode, ok_bind]
  dsimp only
  rw [if_neg (not_lt.mpr hp), if_pos rfl, hparse]

/-- The response gives back the payload, the reference and the result. -/
def ResponseRoundTrips (creator : AcseConnection) (acseResult : UInt8) (payload : List UInt8) :
    Prop :=
  let message := createAssociateResponseMessage creator acseResult payload
  ∃ fuel region, region.Holds (.ofList message) payload ∧
    parseMessage (.ofList message) uninitialised fuel message.length self =
      .ok (if acseResult = 0 then .associate else .associateFailed, { self with
        nextReference := creator.nextReference
        userDataBuffer := some region })

/-- The request gives back the payload, and the authenticator gets the mechanism and the password
that the client has set. -/
def RequestRoundTrips (isoParameters : IsoConnectionParameters) (payload : List UInt8)
    (authParameter : Option AuthParameter) : Prop :=
  let message := createAssociateRequestMessage isoParameters payload authParameter
  ∃ fuel parameter region, Supplied (.ofList message) authParameter parameter ∧
    region.Holds (.ofList message) payload ∧
    parseMessage (.ofList message) uninitialised fuel message.length self =
      .ok (if self.authenticator.all (· (.ofList message) parameter) then .associate
        else .associateFailed, associated self (.ofList message) parameter region)

/-- The password that a client sends, if it sends one. -/
def passwordLength : Option AuthParameter → Nat
  | some (.password octetString) => octetString.length
  | _ => 0

theorem responseRoundTrips (creator : AcseConnection) (acseResult : UInt8) (payload : List UInt8)
    (hfits : assocDataLength (uInt32determineEncodedSize creator.nextReference) payload.length <
      65536) : ResponseRoundTrips uninitialised self creator acseResult payload :=
  parseMessage_associateResponse uninitialised self creator acseResult payload hfits

theorem requestRoundTrips (isoParameters : IsoConnectionParameters) (payload : List UInt8)
    (authParameter : Option AuthParameter) (hpassword : passwordLength authParameter < 65536)
    (hfits : assocDataLength 1 payload.length < 65536) :
    RequestRoundTrips uninitialised self isoParameters payload authParameter := by
  refine parseMessage_associateRequest uninitialised self isoParameters payload authParameter ?_
    hfits
  rintro octetString rfl
  exact hpassword

end Messages

end AcseConnection

namespace IsoPresentation

/-- The lengths of a message are exact, and it gives back its payload and context ids. -/
def RoundTrips (payload message : List UInt8)
    (parse : Memory → Nat → Int → IsoPresentation → Exec (Bool × IsoPresentation))
    (self : IsoPresentation) (contextId acseContextId mmsContextId : UInt8) : Prop :=
  Tlv.SizedAround payload message ∧
    ∃ fuel region, region.Holds (.ofList message) payload ∧
      parse (.ofList message) fuel message.length self =
        .ok (true, ⟨contextId, acseContextId, mmsContextId, some region⟩)

section RoundTrips

variable (uninitialised : Int) (creator self : IsoPresentation) (payload : List UInt8)

theorem createConnectPdu_roundTrips_iff (localPSelector remotePSelector : UInt32) :
    RoundTrips payload (createConnectPdu creator localPSelector remotePSelector payload).2
      (parseConnect · uninitialised) self
      (createConnectPdu creator localPSelector remotePSelector payload).1.acseContextId
      (createConnectPdu creator localPSelector remotePSelector payload).1.acseContextId
      (createConnectPdu creator localPSelector remotePSelector payload).1.mmsContextId ↔
        connectLength payload.length < 65536 := by
  refine ⟨fun h => (createConnectPdu_sized_iff _ _ _ _).mp h.1, fun hfits => ?_⟩
  obtain ⟨region, hregion, hparse⟩ := parseConnect_createConnectPdu uninitialised self creator
    localPSelector remotePSelector payload hfits
  exact ⟨(createConnectPdu_sized_iff _ _ _ _).mpr hfits, 5, region, hregion, hparse⟩

theorem createCpaMessage_roundTrips_iff :
    RoundTrips payload (createCpaMessage creator payload) (parseAcceptMessage · uninitialised) self
      creator.acseContextId self.acseContextId self.mmsContextId ↔
        cpaLength payload.length < 65536 := by
  refine ⟨fun h => (createCpaMessage_sized_iff _ _).mp h.1, fun hfits => ?_⟩
  obtain ⟨region, hregion, hparse⟩ := parseAcceptMessage_createCpaMessage uninitialised self creator
    payload hfits
  exact ⟨(createCpaMessage_sized_iff _ _).mpr hfits, 5, region, hregion, hparse⟩

theorem userDataPdu_roundTrips_iff (contextId : UInt8) :
    RoundTrips payload (userDataPdu contextId payload) (fun buffer _ => parseUserData buffer
      uninitialised) self contextId self.acseContextId self.mmsContextId ↔
        fullyEncodedDataLength payload.length < 65536 := by
  refine ⟨fun h => (userDataPdu_sized_iff _ _).mp h.1, fun hfits => ?_⟩
  obtain ⟨region, hregion, hparse⟩ := parseUserData_userDataPdu uninitialised self contextId payload
    hfits
  exact ⟨(userDataPdu_sized_iff _ _).mpr hfits, 0, region, hregion, hparse⟩

end RoundTrips

/-- Which messages of the two layers give back what they have been created from. -/
theorem pdus_roundTrip_iff (uninitialised : Int) (creator self : IsoPresentation)
    (acseCreator acseSelf : AcseConnection) (localPSelector remotePSelector : UInt32)
    (acseResult : UInt8) (isoParameters : IsoConnectionParameters)
    (authParameter : Option AuthParameter) (payload : List UInt8) :
    (RoundTrips payload (createConnectPdu creator localPSelector remotePSelector payload).2
      (parseConnect · uninitialised) self
      (createConnectPdu creator localPSelector remotePSelector payload).1.acseContextId
      (createConnectPdu creator localPSelector remotePSelector payload).1.acseContextId
      (createConnectPdu creator localPSelector remotePSelector payload).1.mmsContextId ↔
        connectLength payload.length < 65536) ∧
    (RoundTrips payload (createCpaMessage creator payload) (parseAcceptMessage · uninitialised) self
      creator.acseContextId self.acseContextId self.mmsContextId ↔
        cpaLength payload.length < 65536) ∧
    (RoundTrips payload (createUserData creator payload)
      (fun buffer _ => parseUserData buffer uninitialised) self
      creator.mmsContextId self.acseContextId self.mmsContextId ↔
        fullyEncodedDataLength payload.length < 65536) ∧
    (RoundTrips payload (createUserDataACSE creator payload)
      (fun buffer _ => parseUserData buffer uninitialised) self
      creator.acseContextId self.acseContextId self.mmsContextId ↔
        fullyEncodedDataLength payload.length < 65536) ∧
    ¬ Tlv.SizedAround payload (createAbortUserMessage creator payload) ∧
    (AcseConnection.assocDataLength (uInt32determineEncodedSize acseCreator.nextReference)
        payload.length < 65536 →
      AcseConnection.ResponseRoundTrips uninitialised acseSelf acseCreator acseResult payload) ∧
    (AcseConnection.passwordLength authParameter < 65536 →
      AcseConnection.assocDataLength 1 payload.length < 65536 →
        AcseConnection.RequestRoundTrips uninitialised acseSelf isoParameters payload
          authParameter) :=
  ⟨createConnectPdu_roundTrips_iff uninitialised creator self payload localPSelector
      remotePSelector,
    createCpaMessage_roundTrips_iff uninitialised creator self payload,
    userDataPdu_roundTrips_iff uninitialised self payload creator.mmsContextId,
    userDataPdu_roundTrips_iff uninitialised self payload creator.acseContextId,
    createAbortUserMessage_not_sized creator payload,
    AcseConnection.responseRoundTrips uninitialised acseSelf acseCreator acseResult payload,
    AcseConnection.requestRoundTrips uninitialised acseSelf isoParameters payload authParameter⟩

/-- The abort of a client: the length says sixteen octets, and there are fourteen. -/
theorem createAbortUserMessage_too_long :
    createAbortUserMessage { IsoPresentation.init with acseContextId := 1 }
        [0x64, 0x03, 0x80, 0x01, 0x00] =
      [0xa0, 0x10, 0x61, 0x0c, 0x30, 0x0a, 0x02, 0x01, 0x01, 0xa0, 0x05,
        0x64, 0x03, 0x80, 0x01, 0x00] ∧
    ¬ Tlv.SizedAround [0x64, 0x03, 0x80, 0x01, 0x00]
      (createAbortUserMessage { IsoPresentation.init with acseContextId := 1 }
        [0x64, 0x03, 0x80, 0x01, 0x00]) :=
  ⟨by decide, createAbortUserMessage_not_sized _ _⟩

end IsoPresentation

end Iec61850
