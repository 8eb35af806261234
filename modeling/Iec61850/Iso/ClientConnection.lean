import Iec61850.Iso.ClientAssociation
import Iec61850.Iso.LayeredMessages
import Iec61850.Iso.SentMessages

/-! `iso_client_connection.c`: what the client sends, and what it makes of the messages of a server
of this library. -/

namespace Iec61850

open Machine Transport BerEncoder

/-- What a client is to connect to. -/
structure ClientParameters extends IsoConnectionParameters where
  acseAuthParameter : Option AuthParameter
  remoteTSelector : UInt16
  localPSelector : UInt32
  remotePSelector : UInt32

namespace IsoClientConnection

/-- The layers of a connection. -/
structure State where
  cotp : CotpConnection
  session : IsoSession
  presentation : IsoPresentation
  acseConnection : AcseConnection

namespace State

/-- As it is when the transport is connected. -/
def start (cotp : CotpConnection) : State where
  cotp := cotp
  session := IsoSession.init
  presentation := IsoPresentation.init
  acseConnection := AcseConnection.init none

/-- The associate request with the messages of the layers below around it, from the outermost. -/
def createAssociateMessages (self : State) (params : ClientParameters) (payload : List UInt8) :
    State × List (List UInt8) :=
  let acse := AcseConnection.createAssociateRequestMessage params.toIsoConnectionParameters payload
    params.acseAuthParameter
  let (presentation, pdu) := self.presentation.createConnectPdu params.localPSelector
    params.remotePSelector acse
  let (session, spdu) := self.session.createConnectSpdu params.remotePSelector params.localPSelector
    pdu
  ({ self with presentation, session }, [spdu, pdu, acse, payload])

theorem layered_createAssociateMessages (self : State) (params : ClientParameters)
    (payload : List UInt8) : Layered (self.createAssociateMessages params payload).2 :=
  List.isChain_cons_cons.mpr ⟨encloses_withParameters _ _ _, List.isChain_cons_cons.mpr
    ⟨encloses_createConnectPdu _ _ _ _, List.isChain_cons_cons.mpr
      ⟨encloses_createAssociateRequestMessage _ _ _, List.isChain_singleton _⟩⟩⟩

/-- What the upper layers of `IsoClientConnection_associate` make of the answer: the user data, if
the association is a success. -/
def handleAnswer (env : IsoEnvironment) (fuel : Nat) (self : State)
    (message : List UInt8) : Exec (State × Option (Option Region)) := do
  let buffer := env.receiveBuffer message
  let (indication, session) ← IsoSession.parseMessage buffer message.length self.session
  let self := { self with session }
  if indication ≠ .connect then return (self, none)
  let userData ← getUserData session
  let (ok, presentation) ← IsoPresentation.parseAcceptMessage (userData.memory buffer)
    env.uninitialised fuel userData.size self.presentation
  let self := { self with presentation }
  if ok = false then return (self, none)
  let payload ← nextPayload presentation
  let (_, acseConnection) ← AcseConnection.parseMessage (payload.memory (userData.memory buffer))
    env.uninitialised fuel payload.size self.acseConnection
  return ({ self with acseConnection }, some acseConnection.userDataBuffer)

/-- One turn of the loop of `connectionHandlingThread`: what the callback gets, if the loop goes on.
The context is not looked at. -/
def handleMessage (env : IsoEnvironment) (self : State) (message : List UInt8) :
    Exec (State × Option Region) := do
  let buffer := env.receiveBuffer message
  let (indication, session) ← IsoSession.parseMessage buffer message.length self.session
  let self := { self with session }
  if indication ≠ .data then return (self, none)
  let (ok, presentation) ← IsoConnection.parseUserDataWith
    (fun buffer size => IsoPresentation.parseUserData buffer env.uninitialised size) buffer session
    self.presentation
  let self := { self with presentation }
  if ok = false then return (self, none)
  return (self, presentation.nextPayload)

def report : Option (Option Region) → Report
  | none => .associationFailed
  | some userData => .associationSuccess userData

/-- Without its transport a client is the one of which the association is checked. -/
theorem associateUpperLayers_eq (env : Environment) (fuel : Nat) (self : State)
    (hsession : self.session = IsoSession.init) (hpresentation : self.presentation = isoPresentation)
    (hacse : self.acseConnection = AcseConnection.init none) (message : List UInt8) :
    associateUpperLayers env fuel message =
      (handleAnswer env.toIsoEnvironment fuel self message).map fun r => report r.2 := by
  rw [associateUpperLayers, handleAnswer, hsession, hpresentation, hacse]
  cases IsoSession.parseMessage (env.receiveBuffer message) message.length IsoSession.init with
  | error e => rfl
  | ok r =>
    obtain ⟨indication, session⟩ := r
    cases indication with
    | connect =>
      simp only [ok_bind, ne_eq, not_true_eq_false, if_false]
      cases getUserData session with
      | error e => rfl
      | ok userData =>
        simp only [ok_bind]
        cases IsoPresentation.parseAcceptMessage (userData.memory (env.receiveBuffer message))
            env.uninitialised fuel userData.size isoPresentation with
        | error e => rfl
        | ok r =>
          obtain ⟨ok, presentation⟩ := r
          cases ok with
          | false => rfl
          | true =>
            simp only [ok_bind, Bool.true_eq_false, if_false]
            cases nextPayload presentation with
            | error e => rfl
            | ok payload =>
              simp only [ok_bind]
              cases AcseConnection.parseMessage
                  (payload.memory (userData.memory (env.receiveBuffer message)))
                  env.uninitialised fuel payload.size (AcseConnection.init none) with
              | error e => rfl
              | ok r => rfl
    | _ => rfl

section Messages

variable {env : IsoEnvironment} {fuel : Nat} {session : IsoSession}

theorem handleMessage_of_data (self : State) {message : List UInt8}
    (h : IsoSession.parseMessage (env.receiveBuffer message) message.length self.session =
      .ok (.data, session)) {presentation : IsoPresentation}
    (hdata : IsoConnection.parseUserDataWith
      (fun buffer size => IsoPresentation.parseUserData buffer env.uninitialised size)
      (env.receiveBuffer message) session self.presentation = .ok (true, presentation)) :
    handleMessage env self message =
      .ok ({ self with session, presentation }, presentation.nextPayload) := by
  rw [handleMessage, h, ok_bind]
  change (IsoConnection.parseUserDataWith _ (env.receiveBuffer message) session self.presentation >>=
    _) = _
  rw [hdata]
  rfl

/-- The client gets the payload of every data message. -/
theorem handleMessage_data (env : IsoEnvironment) (self : State) (contextId : UInt8)
    (payload : List UInt8) (hfits : IsoPresentation.fullyEncodedDataLength payload.length < 65536)
    (hsize : (IsoSession.createDataSpdu (IsoPresentation.userDataPdu contextId payload)).length ≤
      isoBufferSize) :
    ∃ session presentation region, handleMessage env self (IsoSession.createDataSpdu
        (IsoPresentation.userDataPdu contextId payload)) =
        .ok ({ self with session, presentation }, some region) ∧
      region.Holds (env.receiveBuffer (IsoSession.createDataSpdu
        (IsoPresentation.userDataPdu contextId payload))) payload ∧
      presentation.acseContextId = self.presentation.acseContextId ∧
      presentation.mmsContextId = self.presentation.mmsContextId := by
  obtain ⟨session, userData, hsession, huser, hholds⟩ := IsoSession.parseMessage_received env
    (fun behind => IsoSession.createDataSpdu_roundTrips
      (IsoPresentation.userDataPdu contextId payload) behind self.session) hsize
  obtain ⟨region, hregion, hparse⟩ := IsoPresentation.parseUserData_userDataPdu env.uninitialised
    (IsoConnection.movePayload (-userData.start) self.presentation) contextId payload hfits
  have hdata := IsoConnection.parseUserDataWith_ok
    (fun buffer size => IsoPresentation.parseUserData buffer env.uninitialised size) huser hholds
    (fun buffer' self h => IsoPresentation.parseUserData_carried h _ self) hparse
  exact ⟨session, _, _, handleMessage_of_data self hsession hdata, hholds.inside hregion, rfl, rfl⟩

/-- The accept message of a server makes the association a success. -/
theorem handleAnswer_accept (env : IsoEnvironment) (self : State)
    (hacse : self.acseConnection.authenticator = none) (session : IsoSession)
    (creator : IsoPresentation) (acse : AcseConnection) (payload : List UInt8)
    {cpa spdu : List UInt8} (hcpa : cpa = creator.createCpaMessage
      (acse.createAssociateResponseMessage 0 payload)) (hspdu : spdu = session.createAcceptSpdu cpa)
    (hfits : cpa.length ≤ 237) :
    ∃ fuel session' presentation' acse' userData message region,
      handleAnswer env fuel self spdu = .ok ({ self with
        session := session'
        presentation := presentation'
        acseConnection := acse' }, some (some region)) ∧
      session'.userData = some userData ∧ presentation'.nextPayload = some message ∧
      region.Holds (message.memory (userData.memory (env.receiveBuffer spdu))) payload ∧
      presentation'.acseContextId = self.presentation.acseContextId ∧
      presentation'.mmsContextId = self.presentation.mmsContextId := by
  have hcpaLength := IsoPresentation.cpaLength_lt creator
    (acse.createAssociateResponseMessage 0 payload)
  have hresponse := acse.length_le_response payload 0
  have hlength := IsoPresentation.length_lt_cpaLength
    (acse.createAssociateResponseMessage 0 payload).length
  rw [← hcpa] at hcpaLength
  have hsize : spdu.length ≤ isoBufferSize := by
    rw [hspdu, IsoSession.createAcceptSpdu, IsoSession.length_withParameters]
    change 18 + cpa.length + 2 ≤ 16100
    omega
  obtain ⟨session', userData, hsession, huser, hholds⟩ := IsoSession.parseMessage_received env
    (fun behind => (IsoSession.createAcceptSpdu_roundTrips_iff session cpa behind
      self.session).mpr hfits) (hspdu ▸ hsize)
  rw [← hspdu] at hsession hholds
  obtain ⟨message, hmessage, hparse⟩ := IsoPresentation.parseAcceptMessage_createCpaMessage
    env.uninitialised self.presentation creator (acse.createAssociateResponseMessage 0 payload)
    (by omega)
  rw [← hcpa] at hmessage hparse
  have hinner := hmessage.within hholds.memory_within
  have hreference : uInt32determineEncodedSize acse.nextReference ≤ 5 :=
    MmsServer.uInt32determineEncodedSize_le _
  obtain ⟨fuel, region, hregion, hparsed⟩ := AcseConnection.responseRoundTrips env.uninitialised
    self.acseConnection acse 0 payload (AcseConnection.assocDataLength_lt (by omega) hreference)
  let self' : AcseConnection := { self.acseConnection with
    nextReference := acse.nextReference
    userDataBuffer := some region }
  have hparsed' : AcseConnection.parseMessage
      (message.memory (userData.memory (env.receiveBuffer spdu))) env.uninitialised fuel
      message.size self.acseConnection = .ok (.associate, self') := by
    have hreplaces : AcseConnection.Replaces none none self.acseConnection self.acseConnection :=
      ⟨hacse, by rw [← hacse]⟩
    obtain ⟨⟨indication, result⟩, hr, hindication, -, hself⟩ := AcseConnection.parseMessage_carried
      hinner.memory_within (AcseConnection.checksAlike_none _ _) hreplaces fuel _ _ hparsed
    obtain rfl : indication = .associate := hindication.symm
    obtain rfl : result = self' := hself.trans (by rw [← hacse])
    rw [hmessage.1, hr]
  let presentation' : IsoPresentation := { self.presentation with
    nextContextId := creator.acseContextId
    nextPayload := some message }
  refine ⟨max 5 fuel, session', presentation', self', userData, message, region, ?_, huser, rfl,
    hregion.within hinner.memory_within, rfl, rfl⟩
  have hpresentation := (IsoPresentation.parseAcceptMessage_carried hholds.memory_within _ _ _).eq_ok
    (IsoPresentation.parseAcceptMessage_mono _ _ (Nat.le_max_left 5 fuel) hparse)
  have hresult := AcseConnection.parseMessage_mono _ _ (Nat.le_max_right 5 fuel) hparsed'
  dsimp only at hpresentation hresult
  rw [handleAnswer, hsession, ok_bind]
  simp only [ne_eq, not_true_eq_false, if_false, getUserData_ok.mpr huser, ok_bind, hholds.1,
    hpresentation, Bool.true_eq_false, nextPayload, hresult]
  rfl

end Messages

end State

end IsoClientConnection

end Iec61850
