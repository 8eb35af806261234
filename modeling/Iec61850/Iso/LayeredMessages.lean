import Iec61850.Iso.AcsePdus
import Iec61850.Iso.ParserGrowth
import Iec61850.Iso.ServerConnection
import Iec61850.Iso.SessionSpdus

/-! What the server makes of the messages that a client of this library puts its payload into. -/

namespace Iec61850

open Machine BerDecoder

namespace Region.Holds

variable {region outer inner : Region} {buffer buffer' : Memory} {message payload : List UInt8}

theorem within (h : region.Holds buffer payload) (hw : buffer.Within buffer') :
    region.Holds buffer' payload := by
  refine ⟨h.1, ?_⟩
  have hmove : (region.memory buffer).Within (region.memory buffer') := fun pos b hb => hw _ b hb
  exact (hmove.readOctets 0 payload.length).eq_ok h.2

/-- The message is there when the buffer is seen from where it starts. -/
theorem memory_within (h : outer.Holds buffer message) :
    (Memory.ofList message).Within (outer.memory buffer) := by
  have hoctets := Memory.within_of_readOctets h.2
  intro pos b hb
  have hpos : outer.memory buffer (0 + pos) = some b := hoctets pos b hb
  rw [Int.zero_add] at hpos
  exact hpos

theorem move (h : inner.Holds (outer.memory buffer) payload) :
    Region.Holds ⟨inner.start + outer.start, inner.size⟩ buffer payload := by
  refine ⟨h.1, ?_⟩
  have hread := h.2
  have hinner : inner = ⟨inner.start, inner.size⟩ := rfl
  have houter : outer = ⟨outer.start, outer.size⟩ := rfl
  rw [hinner, readOctets_memory, houter, readOctets_memory] at hread
  rw [readOctets_memory, Int.add_comm inner.start, Int.add_assoc]
  exact hread

/-- A payload in a message, and the message in the buffer. -/
theorem inside (houter : outer.Holds buffer message) (h : inner.Holds (.ofList message) payload) :
    Region.Holds ⟨inner.start + outer.start, inner.size⟩ buffer payload :=
  (h.within houter.memory_within).move

end Region.Holds

namespace IsoEnvironment

/-- The receive buffer is the message with octets behind it. -/
theorem receiveBuffer_eq (env : IsoEnvironment) {message : List UInt8}
    (h : message.length ≤ isoBufferSize) :
    ∃ behind, env.receiveBuffer message = .ofList (message ++ behind) := by
  refine ⟨(List.range (isoBufferSize - message.length)).map fun i =>
    env.behind (message.length + i : Nat), ?_⟩
  funext pos
  rw [receiveBuffer, Memory.ofList]
  rcases Int.lt_or_le pos 0 with hneg | hpos
  · rw [if_pos (Or.inl hneg), if_neg (Int.not_le.mpr hneg)]
  · obtain ⟨n, rfl⟩ := Int.eq_ofNat_of_zero_le hpos
    rw [if_pos hpos, Int.toNat_natCast]
    rcases Nat.lt_or_ge n isoBufferSize with hn | hn
    · rw [if_neg (by omega)]
      rcases Nat.lt_or_ge n message.length with hm | hm
      · rw [List.getElem?_append_left hm, List.getD_eq_getElem?_getD, List.getElem?_eq_getElem hm]
        rfl
      · rw [List.getElem?_append_right hm, List.getElem?_map, List.getElem?_range (by omega),
          List.getD_eq_getElem?_getD, List.getElem?_eq_none hm, Option.map_some,
          Nat.add_sub_cancel' hm]
        rfl
    · rw [if_pos (Or.inr (Int.ofNat_le.mpr hn)), List.getElem?_eq_none]
      rw [List.length_append, List.length_map, List.length_range]
      omega

end IsoEnvironment

namespace IsoSession

variable {spdu payload : List UInt8} {indication : IsoSessionIndication} {session : IsoSession}

/-- An SPDU in the receive buffer. -/
theorem parseMessage_received (env : IsoEnvironment)
    (h : ∀ behind, RoundTrips spdu payload indication session behind)
    (hsize : spdu.length ≤ isoBufferSize) :
    ∃ session' userData, parseMessage (env.receiveBuffer spdu) spdu.length session =
      .ok (indication, session') ∧ session'.userData = some userData ∧
        userData.Holds (env.receiveBuffer spdu) payload := by
  obtain ⟨behind, hbuffer⟩ := env.receiveBuffer_eq hsize
  obtain ⟨session', hparse, userData, huser, hholds⟩ := (h behind).parsed
  rw [hbuffer]
  exact ⟨session', userData, hparse, huser, hholds⟩

end IsoSession

namespace IsoConnection

variable {env : IsoEnvironment} {fuel : Nat} {buffer : Memory} {session : IsoSession}
  {presentation presentation' : IsoPresentation} {pdu payload : List UInt8} {userData : Region}

/-- A PDU in the user data of the session. -/
theorem parseUserDataWith_ok
    (parse : Memory → Int → IsoPresentation → Exec (Bool × IsoPresentation))
    (huser : session.userData = some userData)
    (hholds : userData.Holds buffer pdu)
    (hcarried : ∀ buffer' self, (Memory.ofList pdu).Within buffer' →
      Carried Eq (parse (.ofList pdu) pdu.length self) (parse buffer' pdu.length self))
    (hparse : parse (.ofList pdu) pdu.length (movePayload (-userData.start) presentation) =
      .ok (true, presentation')) :
    parseUserDataWith parse buffer session presentation =
      .ok (true, movePayload userData.start presentation') := by
  have hmemory := (hcarried (userData.memory buffer) _ hholds.memory_within).eq_ok hparse
  rw [parseUserDataWith, huser]
  simp only [hholds.1, hmemory, ok_bind]
  rfl

theorem handleMessage_of_connect (self : IsoConnection) {message : List UInt8}
    (h : IsoSession.parseMessage (env.receiveBuffer message) message.length self.session =
      .ok (.connect, session)) : handleMessage env fuel self (.dataIndication message) =
        handleConnect env fuel (env.receiveBuffer message) { self with session := session } := by
  rw [handleMessage, h]
  rfl

end IsoConnection

/-! ## Association -/

namespace AcseConnection

/-- The password that a client sends, where it sends one. -/
def credentials : Option AuthParameter → Option (List UInt8)
  | some (.password octetString) => some octetString
  | _ => none

/-- The authenticator looks at the password, and at nothing else of the message. -/
structure Checks (authenticator : AcseAuthenticator) (check : Option (List UInt8) → Bool) :
    Prop where
  noPassword : ∀ buffer, authenticator buffer .none = check none
  password : ∀ (buffer : Memory) (value : Region) (octets : List UInt8), value.Holds buffer octets →
    authenticator buffer (.password value) = check (some octets)

variable {authenticator : AcseAuthenticator} {check : Option (List UInt8) → Bool}
  {buffer : Memory} {authParameter : Option AuthParameter}
  {parameter : AcseAuthenticationParameter} {message payload : List UInt8}

theorem Supplied.within {buffer' : Memory} (h : Supplied buffer authParameter parameter)
    (hw : buffer.Within buffer') : Supplied buffer' authParameter parameter := by
  cases authParameter with
  | none => exact h
  | some authParameter =>
    cases authParameter with
    | none => exact h
    | password octetString =>
      obtain ⟨value, rfl, hholds⟩ := h
      exact ⟨value, rfl, hholds.within hw⟩

theorem Checks.supplied (h : Checks authenticator check)
    (hsupplied : Supplied buffer authParameter parameter) :
    authenticator buffer parameter = check (credentials authParameter) := by
  cases authParameter with
  | none =>
    obtain rfl : parameter = .none := hsupplied
    exact h.noPassword buffer
  | some authParameter =>
    cases authParameter with
    | none =>
      obtain rfl : parameter = .none := hsupplied
      exact h.noPassword buffer
    | password octetString =>
      obtain ⟨value, rfl, hholds⟩ := hsupplied
      exact h.password buffer value octetString hholds

/-- What the authenticator would say of the larger buffer. -/
def askedOf (authenticator : AcseAuthenticator) (buffer : Memory) : AcseAuthenticator :=
  fun buffer' => authenticator (if (buffer' 0).isSome then buffer else buffer')

theorem saysSame_askedOf (h : ∃ b rest, message = b :: rest) :
    SaysSame (.ofList message) buffer (askedOf authenticator buffer) authenticator := by
  obtain ⟨b, rest, rfl⟩ := h
  exact ⟨fun parameter => rfl, fun parameter => rfl⟩

/-- The associate request, wherever it stands. -/
theorem parseMessage_request (uninitialised : Int) (isoParameters : IsoConnectionParameters)
    (hpassword : passwordLength authParameter < 65536)
    (hfits : assocDataLength 1 payload.length < 65536)
    (hchecks : Checks authenticator check)
    (hw : (Memory.ofList (createAssociateRequestMessage isoParameters payload
      authParameter)).Within buffer) (nextReference : UInt32) (userDataBuffer : Option Region)
    (authenticated : Bool) :
    ∃ fuel region indication self',
      parseMessage buffer uninitialised fuel
        (createAssociateRequestMessage isoParameters payload authParameter).length
        ⟨nextReference, userDataBuffer, some authenticator, authenticated⟩ =
          .ok (indication, self') ∧
      (indication = .associate ↔ check (credentials authParameter) = true) ∧
      self'.userDataBuffer = some region ∧ self'.nextReference = 3 ∧
      region.Holds (.ofList (createAssociateRequestMessage isoParameters payload authParameter))
        payload := by
  obtain ⟨fuel, parameter, region, hsupplied, hregion, hparse⟩ := requestRoundTrips uninitialised
    ⟨nextReference, userDataBuffer, some (askedOf authenticator buffer), authenticated⟩
    isoParameters payload authParameter hpassword hfits
  have hsame : SaysSame
      (.ofList (createAssociateRequestMessage isoParameters payload authParameter)) buffer
      (askedOf authenticator buffer) authenticator := saysSame_askedOf ⟨_, _, rfl⟩
  obtain ⟨r, hparse', hindication, -, hself⟩ :=
    parseMessage_carried hw (checksAlike_some hw hsame) ⟨rfl, rfl⟩ fuel _ _ hparse
  refine ⟨fuel, region, r.1, r.2, hparse', ?_, ?_, ?_, hregion⟩
  · rw [← hindication, Option.all_some, hsame.message, hchecks.supplied (hsupplied.within hw)]
    split
    · next h => exact iff_of_true rfl h
    · next h => exact iff_of_false (fun h => AcseIndication.noConfusion h) h
  · rw [hself]
    rfl
  · rw [hself]
    rfl

end AcseConnection

section Sizes

variable (creator : IsoPresentation) (localPSelector remotePSelector : UInt32)
  (isoParameters : IsoConnectionParameters) (authParameter : Option AuthParameter)
  (payload : List UInt8)

theorem IsoPresentation.connectLength_lt :
    connectLength payload.length <
      (createConnectPdu creator localPSelector remotePSelector payload).2.length := by
  rw [createConnectPdu_eq, (counted_connectContent localPSelector remotePSelector
    payload).length_element]
  omega

theorem IsoPresentation.length_lt_connectLength (n : Nat) : n < connectLength n := by
  have hdata := fullyEncodedDataLength_lt_connectLength n
  rw [fullyEncodedDataLength, encodedDataSetLength] at hdata
  omega

theorem AcseConnection.length_le_request : payload.length + passwordLength authParameter ≤
    (createAssociateRequestMessage isoParameters payload authParameter).length := by
  have hpassword : passwordLength authParameter ≤ (authenticationOctets authParameter).length := by
    cases authParameter with
    | none => exact Nat.zero_le _
    | some authParameter =>
      cases authParameter with
      | none => exact Nat.zero_le _
      | password octetString =>
        simp only [passwordLength, authenticationOctets, List.length_append]
        omega
  simp only [createAssociateRequestMessage, userInformationOctets, List.length_append]
  omega

theorem AcseConnection.length_le_response (self : AcseConnection) (acseResult : UInt8) :
    payload.length ≤ (createAssociateResponseMessage self acseResult payload).length := by
  simp only [createAssociateResponseMessage, userInformationOctets, List.length_append]
  omega

theorem IsoPresentation.cpaLength_lt :
    cpaLength payload.length < (createCpaMessage creator payload).length := by
  rw [createCpaMessage_eq, (counted_cpaContent creator.acseContextId payload).length_element]
  omega

theorem IsoPresentation.length_lt_cpaLength (n : Nat) : n < cpaLength n := by
  simp only [cpaLength, encodedUserDataLength, fullyEncodedDataLength, encodedDataSetLength]
  omega

theorem AcseConnection.assocDataLength_lt {n : Nat} (h : n < 1000) {m : Nat} (hm : m ≤ 5) :
    assocDataLength m n < 65536 := by
  have hsize := MmsServer.determineLengthSize_le n
  rw [assocDataLength]
  omega

end Sizes

namespace IsoConnection

open AcseConnection IsoPresentation

variable {env : IsoEnvironment} {authenticator : AcseAuthenticator}
  {check : Option (List UInt8) → Bool}

/-- What the server is after a connect message: the MMS layer has got the payload of the associate
request, or the connection is given up. -/
structure Connected (c c' : IsoConnection) (buffer : Memory) (payload : List UInt8)
    (called : Option Region) : Prop where
  running : c'.running = c.running
  acseContextId : c'.presentation.acseContextId = 1
  mmsContextId : c'.presentation.mmsContextId = 3
  nextReference : c'.acseConnection.nextReference = 3
  called : ∃ message region, c'.presentation.nextPayload = some message ∧
    called = some region ∧ region.Holds (message.memory buffer) payload

/-- A connect message of a client is taken if and only if the authenticator takes its password. -/
theorem handleMessage_connect (env : IsoEnvironment) (self : IsoConnection) (session : IsoSession)
    (creator : IsoPresentation) (localPSelector remotePSelector : UInt32)
    (isoParameters : IsoConnectionParameters) (authParameter : Option AuthParameter)
    (payload : List UInt8) (hauthenticator : self.acseConnection.authenticator = some authenticator)
    (hchecks : Checks authenticator check) {pdu spdu : List UInt8}
    (hpdu : pdu = (createConnectPdu creator localPSelector remotePSelector
      (createAssociateRequestMessage isoParameters payload authParameter)).2)
    (hspdu : spdu = (IsoSession.createConnectSpdu session remotePSelector localPSelector pdu).2)
    (hfits : pdu.length ≤ 233) :
    ∃ fuel self' called, handleMessage env fuel self (.dataIndication spdu) = .ok (self', called) ∧
      if check (credentials authParameter) = true then
        Connected self self' (env.receiveBuffer spdu) payload called
      else self'.running = false ∧ called = none := by
  have hconnect := connectLength_lt creator localPSelector remotePSelector
    (createAssociateRequestMessage isoParameters payload authParameter)
  have hrequest := length_le_request isoParameters authParameter payload
  have hlength := length_lt_connectLength
    (createAssociateRequestMessage isoParameters payload authParameter).length
  rw [← hpdu] at hconnect
  have hsize : spdu.length ≤ isoBufferSize := by
    rw [hspdu, IsoSession.createConnectSpdu, IsoSession.length_withParameters]
    change 22 + pdu.length + 2 ≤ 16100
    omega
  obtain ⟨session', userData, hsession, huser, hholds⟩ := IsoSession.parseMessage_received env
    (fun behind => (IsoSession.createConnectSpdu_roundTrips_iff session remotePSelector
      localPSelector pdu behind self.session).mpr hfits) (hspdu ▸ hsize)
  rw [← hspdu] at hsession hholds
  obtain ⟨outer, houter, hparse⟩ := parseConnect_createConnectPdu env.uninitialised
    (movePayload (-userData.start) self.presentation) creator localPSelector remotePSelector
    (createAssociateRequestMessage isoParameters payload authParameter) (by omega)
  rw [← hpdu] at houter hparse
  have hmessage := hholds.inside houter
  obtain ⟨fuel, region, indication, acse', hacse, hindication, hregion, hreference, hpayload⟩ :=
    parseMessage_request env.uninitialised isoParameters (by omega)
      (assocDataLength_lt (by omega) (by decide)) hchecks hmessage.memory_within
      self.acseConnection.nextReference self.acseConnection.userDataBuffer
      self.acseConnection.authenticated
  have hparse' := parseConnect_mono _ _ (Nat.le_max_left 5 fuel) hparse
  have hacse' := parseMessage_mono _ _ (Nat.le_max_right 5 fuel) hacse
  have hdata := parseUserDataWith_ok
    (fun buffer size => parseConnect buffer env.uninitialised (max 5 fuel) size) huser hholds
    (fun buffer' self h => parseConnect_carried h _ _ self) hparse'
  let presentation : IsoPresentation := { self.presentation with
    acseContextId := 1
    mmsContextId := 3
    nextContextId := 1
    nextPayload := some ⟨outer.start + userData.start, outer.size⟩ }
  have hself : self.acseConnection = ⟨self.acseConnection.nextReference,
      self.acseConnection.userDataBuffer, some authenticator,
      self.acseConnection.authenticated⟩ := by
    rw [← hauthenticator]
  have hacse : parseAcse env (max 5 fuel) (env.receiveBuffer spdu) presentation.nextPayload
      self.acseConnection = .ok (indication, acse') := by
    rw [hself]
    change AcseConnection.parseMessage _ _ _ outer.size _ = _
    rw [houter.1]
    exact hacse'
  have hconnected : handleConnect env (max 5 fuel) (env.receiveBuffer spdu)
      { self with session := session' } =
        if indication = .associate then
          .ok ({ self with session := session', presentation, acseConnection := acse' },
            acse'.userDataBuffer)
        else .ok (IsoConnection.stop
          { self with session := session', presentation, acseConnection := acse' }, none) := by
    rw [handleConnect, hdata, ok_bind]
    change (parseAcse env (max 5 fuel) (env.receiveBuffer spdu) presentation.nextPayload
      self.acseConnection >>= _) = _
    rw [hacse]
    rfl
  rw [← handleMessage_of_connect self hsession] at hconnected
  by_cases hcheck : check (credentials authParameter) = true
  · rw [if_pos (hindication.mpr hcheck)] at hconnected
    refine ⟨max 5 fuel, _, _, hconnected, ?_⟩
    rw [if_pos hcheck]
    exact ⟨rfl, rfl, rfl, hreference, _, region, rfl, hregion,
      hpayload.within hmessage.memory_within⟩
  · rw [if_neg fun h => hcheck (hindication.mp h)] at hconnected
    refine ⟨max 5 fuel, _, _, hconnected, ?_⟩
    rw [if_neg hcheck]
    exact ⟨rfl, rfl⟩

end IsoConnection

end Iec61850
