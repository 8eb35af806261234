import Iec61850.Iso.ClientAssociation
import Iec61850.Iso.LayeredMessages
import Iec61850.Iso.SentMessages

/-! `iso_connection.c`: the thread that handles the connection of a client, with what it sends. -/

namespace Iec61850

open Machine Transport

def Region.octets (region : Region) (buffer : Memory) : Exec (List UInt8) :=
  (region.memory buffer).readOctets 0 region.size.toNat

theorem Region.Holds.octets {region : Region} {buffer : Memory} {payload : List UInt8}
    (h : region.Holds buffer payload) : region.octets buffer = .ok payload := by
  rw [Region.octets, h.1]
  exact h.2

namespace IsoConnection

open IsoClientConnection (Environment)

/-- The connection with its transport. -/
structure Thread where
  cotp : CotpConnection
  connection : IsoConnection

/-- One turn of the loop: what the handler is called with, if it is, and what is sent. -/
structure Turn where
  thread : Thread
  request : Option (List UInt8)
  sent : List UInt8

namespace Thread

def start (authenticator : AcseAuthenticator) : Thread where
  cotp := CotpConnection.init ⟨[], isoBufferSize, Nat.zero_le isoBufferSize⟩
  connection := IsoConnection.create authenticator

/-- An answer of the handler is sent, if it has one. -/
def answer (self : Thread) (response : List UInt8) (messages : List (List UInt8)) :
    Exec (List UInt8) :=
  if response = [] then .ok [] else self.cotp.send messages

/-- A session connect indication. The handler answers with the response. -/
def handleConnect (env : IsoEnvironment) (fuel : Nat) (buffer : Memory) (response : List UInt8)
    (self : Thread) : Exec Turn := do
  let (connection, called) ← IsoConnection.handleConnect env fuel buffer self.connection
  let self := { self with connection }
  match called, connection.presentation.nextPayload with
  | some region, some message => do
    let request ← region.octets (message.memory buffer)
    let sent ← self.answer response (acceptMessages connection.session connection.presentation
      connection.acseConnection response)
    return ⟨self, some request, sent⟩
  | _, _ => return ⟨self, none, []⟩

/-- A session data indication. -/
def handleData (env : IsoEnvironment) (buffer : Memory) (response : List UInt8) (self : Thread) :
    Exec Turn := do
  let (connection, called) ← IsoConnection.handleData env buffer self.connection
  let self := { self with connection }
  match called with
  | some region => do
    let request ← region.octets buffer
    let sent ← self.answer response (dataMessages connection.presentation response)
    return ⟨self, some request, sent⟩
  | none => return ⟨self, none, []⟩

/-- A session finish indication: it is answered when the presentation is in order. -/
def handleFinish (env : IsoEnvironment) (buffer : Memory) (self : Thread) : Exec Turn := do
  let (ok, presentation) ← parseUserDataWith
    (fun buffer size => IsoPresentation.parseUserData buffer env.uninitialised size) buffer
    self.connection.session self.connection.presentation
  let sent ← if ok = true then self.cotp.send (disconnectMessages presentation) else pure []
  return ⟨{ self with connection := { self.connection with presentation }.stop }, none, sent⟩

/-- What the session layer makes of a message. -/
def handleMessage (env : IsoEnvironment) (fuel : Nat) (response : List UInt8) (self : Thread) :
    Exec Turn := do
  let message := self.cotp.payload.octets
  let buffer := env.receiveBuffer message
  let (indication, session) ←
    IsoSession.parseMessage buffer message.length self.connection.session
  let self := { self with connection := { self.connection with session } }
  if indication = .connect then self.handleConnect env fuel buffer response
  else if indication = .data then self.handleData env buffer response
  else if indication = .finish then self.handleFinish env buffer
  else return ⟨{ self with connection := self.connection.stop }, none, []⟩

/-- One turn of the loop of `handleTcpConnection`. -/
def turn (env : Environment) (fuel : Nat) (response : List UInt8) (self : Thread) (s : Stream) :
    Exec (Turn × Stream) := do
  let (indication, cotp, s) ← self.cotp.parseIncomingMessage env.wideShift s
  let self := { self with cotp }
  match indication with
  | .connectIndication => do
    let (cotp, sent) ← cotp.sendConnectionResponseMessage
    return (⟨{ self with cotp }, none, sent⟩, s)
  | .dataIndication => return (← self.handleMessage env.toIsoEnvironment fuel response, s)
  | _ => return (⟨{ self with connection := self.connection.stop }, none, []⟩, s)

/-- `IsoConnection_sendMessage` -/
def sendMessage (self : Thread) (message : List UInt8) : Exec (List UInt8) :=
  if self.connection.running = false then .ok []
  else self.cotp.send (dataMessages self.connection.presentation message)

variable {env : IsoEnvironment} {fuel : Nat} {response message payload : List UInt8} {self : Thread}
  {session : IsoSession}

theorem handleMessage_of_session (self : Thread) {indication : IsoSessionIndication}
    (h : IsoSession.parseMessage (env.receiveBuffer self.cotp.payload.octets)
      self.cotp.payload.octets.length self.connection.session = .ok (indication, session)) :
    self.handleMessage env fuel response =
      if indication = .connect then
        Thread.handleConnect env fuel (env.receiveBuffer self.cotp.payload.octets) response
          { self with connection := { self.connection with session } }
      else if indication = .data then
        Thread.handleData env (env.receiveBuffer self.cotp.payload.octets) response
          { self with connection := { self.connection with session } }
      else if indication = .finish then
        Thread.handleFinish env (env.receiveBuffer self.cotp.payload.octets)
          { self with connection := { self.connection with session } }
      else .ok ⟨{ self with connection := stop { self.connection with session } }, none, []⟩ := by
  rw [handleMessage, h]
  rfl

theorem turn_of_data {env : Environment} {s rest : Stream} {cotp : CotpConnection}
    (h : self.cotp.parseIncomingMessage env.wideShift s = .ok (.dataIndication, cotp, rest))
    {turn : Turn} (hmessage : Thread.handleMessage env.toIsoEnvironment fuel response
      { self with cotp } = .ok turn) :
    self.turn env fuel response s = .ok (turn, rest) := by
  unfold Thread.turn
  simp only [h, ok_bind, hmessage]
  rfl

/-- The thread does with its connection what the connection is known to do. -/
def Does (cotp : CotpConnection) (turn : Turn) (r : Exec (IsoConnection × Option Region)) : Prop :=
  ∃ called, r = .ok (turn.thread.connection, called) ∧ turn.thread.cotp = cotp ∧
    (turn.request ≠ none → called ≠ none)

theorem does_handleConnect {buffer : Memory} {turn : Turn}
    (h : Thread.handleConnect env fuel buffer response self = .ok turn) :
    Does self.cotp turn (IsoConnection.handleConnect env fuel buffer self.connection) := by
  obtain ⟨⟨connection, called⟩, hhandle, h⟩ := bind_ok h
  dsimp only at h
  split at h
  · obtain ⟨request, -, h⟩ := bind_ok h
    obtain ⟨sent, -, h⟩ := bind_ok h
    cases h
    exact ⟨_, hhandle, rfl, fun _ h => nomatch h⟩
  · cases h
    exact ⟨_, hhandle, rfl, fun h => absurd rfl h⟩

theorem does_handleData {buffer : Memory} {turn : Turn}
    (h : Thread.handleData env buffer response self = .ok turn) :
    Does self.cotp turn (IsoConnection.handleData env buffer self.connection) := by
  obtain ⟨⟨connection, called⟩, hhandle, h⟩ := bind_ok h
  dsimp only at h
  split at h
  · obtain ⟨request, -, h⟩ := bind_ok h
    obtain ⟨sent, -, h⟩ := bind_ok h
    cases h
    exact ⟨_, hhandle, rfl, fun _ h => nomatch h⟩
  · cases h
    exact ⟨_, hhandle, rfl, fun h => absurd rfl h⟩

theorem does_handleFinish {buffer : Memory} {turn : Turn}
    (h : Thread.handleFinish env buffer self = .ok turn) :
    Does self.cotp turn (IsoConnection.handleFinish env buffer self.connection) := by
  obtain ⟨⟨ok, presentation⟩, hparse, h⟩ := bind_ok h
  rw [IsoConnection.handleFinish, hparse, ok_bind]
  dsimp only at h ⊢
  split at h
  · obtain ⟨sent, -, h⟩ := bind_ok h
    cases h
    exact ⟨_, rfl, rfl, fun h => absurd rfl h⟩
  · cases h
    exact ⟨_, rfl, rfl, fun h => absurd rfl h⟩

theorem does_handleMessage {turn : Turn} (h : self.handleMessage env fuel response = .ok turn) :
    Does self.cotp turn (IsoConnection.handleMessage env fuel self.connection
      (.dataIndication self.cotp.payload.octets)) := by
  obtain ⟨⟨indication, session⟩, hsession, h⟩ := bind_ok h
  rw [IsoConnection.handleMessage, hsession, ok_bind]
  dsimp only at h
  cases indication with
  | connect => exact does_handleConnect h
  | data => exact does_handleData h
  | finish => exact does_handleFinish h
  | _ =>
    cases h
    exact ⟨_, rfl, rfl, fun h => absurd rfl h⟩

/-! What a turn does is the same for as much fuel as it takes. -/

theorem parseUserDataWith_mono {buffer : Memory}
    {parse : Nat → Memory → Int → IsoPresentation → Exec (Bool × IsoPresentation)}
    (hparse : ∀ buffer size self, FuelMonotone fun fuel => parse fuel buffer size self)
    (session : IsoSession) (presentation : IsoPresentation) :
    FuelMonotone fun fuel => parseUserDataWith (parse fuel) buffer session presentation := by
  unfold parseUserDataWith
  cases session.userData with
  | none => exact FuelMonotone.const _
  | some userData => exact (hparse _ _ _).bind fun _ => FuelMonotone.const _

theorem handleConnect_mono (env : IsoEnvironment) (buffer : Memory) (response : List UInt8)
    (self : Thread) :
    FuelMonotone fun fuel => Thread.handleConnect env fuel buffer response self := by
  apply FuelMonotone.bind
  · apply FuelMonotone.bind (parseUserDataWith_mono
      (fun buffer size self => IsoPresentation.parseConnect_mono size self) _ _)
    rintro ⟨ok, presentation⟩
    apply FuelMonotone.ite (FuelMonotone.const _)
    apply FuelMonotone.bind
    · unfold parseAcse
      cases presentation.nextPayload with
      | none => exact FuelMonotone.const _
      | some payload => exact AcseConnection.parseMessage_mono _ _
    · exact fun _ => FuelMonotone.const _
  · exact fun _ => FuelMonotone.const _

theorem handleMessage_mono (env : IsoEnvironment) (response : List UInt8) (self : Thread) :
    FuelMonotone fun fuel => self.handleMessage env fuel response := by
  apply FuelMonotone.bind (FuelMonotone.const _)
  rintro ⟨indication, session⟩
  apply FuelMonotone.ite (handleConnect_mono env _ response _)
  exact FuelMonotone.const _

theorem turn_mono (env : Environment) (response : List UInt8) (self : Thread) (s : Stream) :
    FuelMonotone fun fuel => self.turn env fuel response s := by
  apply FuelMonotone.bind (FuelMonotone.const _)
  rintro ⟨indication, cotp, s⟩
  cases indication with
  | dataIndication =>
    apply FuelMonotone.bind (handleMessage_mono env.toIsoEnvironment response _)
    exact fun _ => FuelMonotone.const _
  | _ => exact FuelMonotone.const _

/-! ## The messages of a client -/

/-- The thread of a connection for which there is no association yet. -/
structure Connected (authenticator : AcseAuthenticator) (t : Thread) : Prop where
  ready : t.cotp.Ready
  maxSize : t.cotp.payload.maxSize = isoBufferSize
  running : t.connection.running = true
  authenticator : t.connection.acseConnection.authenticator = some authenticator

/-- The thread of an association. -/
structure Associated (t : Thread) : Prop where
  ready : t.cotp.Ready
  maxSize : t.cotp.payload.maxSize = isoBufferSize
  running : t.connection.running = true
  acseContextId : t.connection.presentation.acseContextId = 1
  mmsContextId : t.connection.presentation.mmsContextId = 3

/-- A message that can be sent and received as data. -/
structure Fits (payload : List UInt8) : Prop where
  ne_nil : payload ≠ []
  length_le : payload.length ≤ 16000

theorem Fits.fullyEncoded (h : Fits payload) :
    IsoPresentation.fullyEncodedDataLength payload.length < 65536 := by
  have hle := h.length_le
  have hsize := MmsServer.determineLengthSize_le payload.length
  have hsize' := MmsServer.determineLengthSize_le
    (IsoPresentation.encodedDataSetLength payload.length)
  rw [IsoPresentation.fullyEncodedDataLength, IsoPresentation.encodedDataSetLength] at *
  omega

theorem Fits.spdu (h : Fits payload) (contextId : UInt8) :
    (IsoSession.createDataSpdu (IsoPresentation.userDataPdu contextId payload)).length ≤
      isoBufferSize := by
  have hle := h.length_le
  have hlength := (IsoPresentation.counted_encodeUserData contextId payload).length_eq
  have hsize := MmsServer.determineLengthSize_le payload.length
  have hset := MmsServer.determineLengthSize_le
    (IsoPresentation.encodedDataSetLength payload.length)
  have hfully := MmsServer.determineLengthSize_le
    (IsoPresentation.fullyEncodedDataLength payload.length)
  rw [IsoPresentation.encodedUserDataLength, IsoPresentation.fullyEncodedDataLength] at hlength
  rw [IsoPresentation.fullyEncodedDataLength] at hfully
  rw [IsoPresentation.encodedDataSetLength] at hset hfully hlength
  rw [IsoSession.createDataSpdu, List.length_append, IsoPresentation.userDataPdu_eq, hlength,
    isoBufferSize]
  simp only [List.length_cons, List.length_nil]
  omega

/-- What is sent for an answer of the handler. -/
structure Answers (response outer octets : List UInt8) : Prop where
  nothing : response = [] → octets = []
  message : response ≠ [] → InTpdus outer octets

theorem answer_ok (self : Thread) (h : self.cotp.Ready) (response : List UInt8)
    {messages : List (List UInt8)}
    (hlayers : Layered (message :: messages))
    (hlast : ∀ payload ∈ (message :: messages).getLast?, payload = response) :
    ∃ sent, self.answer response (message :: messages) = .ok sent ∧
      Answers response message sent := by
  rw [answer]
  by_cases hnil : response = []
  · rw [if_pos hnil]
    exact ⟨[], rfl, fun _ => rfl, fun h => absurd hnil h⟩
  · obtain ⟨sent, hsend, hsent⟩ := h.send hlayers fun payload hp => hlast payload hp ▸ hnil
    rw [if_neg hnil]
    exact ⟨sent, hsend, fun h => absurd h hnil, fun _ => hsent⟩

/-- Data are handed to the MMS layer, and its answer is sent. -/
theorem handleMessage_data (env : IsoEnvironment) (fuel : Nat) (response : List UInt8)
    (h : self.Associated) (hfits : Fits payload)
    (hmessage : self.cotp.payload.octets =
      IsoSession.createDataSpdu (IsoPresentation.userDataPdu 3 payload)) :
    ∃ turn, self.handleMessage env fuel response = .ok turn ∧ turn.request = some payload ∧
      turn.thread.Associated ∧ Answers response
        (IsoSession.createDataSpdu (IsoPresentation.userDataPdu 3 response)) turn.sent := by
  obtain ⟨session, userData, hsession, huser, hholds⟩ := IsoSession.parseMessage_received
    env (fun behind => IsoSession.createDataSpdu_roundTrips
      (IsoPresentation.userDataPdu 3 payload) behind self.connection.session) (hfits.spdu 3)
  rw [← hmessage] at hsession hholds
  obtain ⟨region, hregion, hparse⟩ := IsoPresentation.parseUserData_userDataPdu env.uninitialised
    (movePayload (-userData.start) self.connection.presentation) 3 payload hfits.fullyEncoded
  have hdata := parseUserDataWith_ok
    (fun buffer size => IsoPresentation.parseUserData buffer env.uninitialised size) huser hholds
    (fun buffer' self h => IsoPresentation.parseUserData_carried h _ self) hparse
  let presentation : IsoPresentation := { self.connection.presentation with
    nextContextId := 3
    nextPayload := some ⟨region.start + userData.start, region.size⟩ }
  let self' : Thread := { self with connection := { self.connection with session, presentation } }
  have hself : self'.Associated := ⟨h.ready, h.maxSize, h.running, h.acseContextId, h.mmsContextId⟩
  have hcalled : IsoConnection.handleData env (env.receiveBuffer self.cotp.payload.octets)
      { self.connection with session } =
      .ok (self'.connection, some ⟨region.start + userData.start, region.size⟩) := by
    rw [IsoConnection.handleData, hdata, ok_bind]
    exact if_pos h.mmsContextId.symm
  have hrequest := (hholds.inside hregion).octets
  obtain ⟨sent, hanswer, hsent⟩ := answer_ok self' hself.ready response
    (layered_dataMessages presentation response) fun payload hp => (Option.some.inj hp).symm
  refine ⟨⟨self', some payload, sent⟩, ?_, rfl, hself, ?_⟩
  · rw [handleMessage_of_session self hsession]
    change Thread.handleData env _ response _ = _
    rw [Thread.handleData, hcalled, ok_bind]
    change (Region.octets _ (env.receiveBuffer self.cotp.payload.octets) >>= _) = _
    rw [hrequest, ok_bind]
    change (self'.answer response (dataMessages presentation response) >>= _) = _
    rw [dataMessages, hanswer]
    rfl
  · rw [← h.mmsContextId]
    exact hsent

/-- A finish message is answered, and the connection is over. -/
theorem handleMessage_finish (env : IsoEnvironment) (fuel : Nat) (response : List UInt8)
    (h : self.Associated)
    (hmessage : self.cotp.payload.octets = IsoSession.createFinishSpdu
      (IsoPresentation.userDataPdu 1 AcseConnection.createReleaseRequestMessage)) :
    ∃ turn, self.handleMessage env fuel response = .ok turn ∧ turn.request = none ∧
      turn.thread.connection.running = false ∧ InTpdus (IsoSession.createDisconnectSpdu
        (IsoPresentation.userDataPdu 1 AcseConnection.createReleaseResponseMessage))
        turn.sent := by
  obtain ⟨session, userData, hsession, huser, hholds⟩ := IsoSession.parseMessage_received
    env (fun behind => (IsoSession.createFinishSpdu_roundTrips_iff
      (IsoPresentation.userDataPdu 1 AcseConnection.createReleaseRequestMessage) behind
      self.connection.session).mpr (by decide)) (by decide)
  rw [← hmessage] at hsession hholds
  obtain ⟨region, -, hparse⟩ := IsoPresentation.parseUserData_userDataPdu env.uninitialised
    (movePayload (-userData.start) self.connection.presentation) 1
    AcseConnection.createReleaseRequestMessage (by decide)
  have hdata := parseUserDataWith_ok
    (fun buffer size => IsoPresentation.parseUserData buffer env.uninitialised size) huser hholds
    (fun buffer' self h => IsoPresentation.parseUserData_carried h _ self) hparse
  let presentation : IsoPresentation := { self.connection.presentation with
    nextContextId := 1
    nextPayload := some ⟨region.start + userData.start, region.size⟩ }
  let connection : IsoConnection := { self.connection with session, presentation }
  obtain ⟨sent, hsend, hsent⟩ := h.ready.send (layered_disconnectMessages presentation)
    fun payload hp => by cases hp; exact List.cons_ne_nil _ _
  refine ⟨⟨{ self with connection := connection.stop }, none, sent⟩, ?_, rfl, rfl, ?_⟩
  · rw [handleMessage_of_session self hsession]
    change Thread.handleFinish env _ _ = _
    rw [Thread.handleFinish]
    change (parseUserDataWith _ _ session self.connection.presentation >>= _) = _
    rw [hdata, ok_bind]
    change (self.cotp.send (disconnectMessages presentation) >>= _) = _
    rw [disconnectMessages, hsend]
    rfl
  · rw [← h.acseContextId]
    exact hsent

section Connect

open AcseConnection IsoPresentation

variable {authenticator : AcseAuthenticator} {check : Option (List UInt8) → Bool}

/-- The presentation message that an associate response is sent in. -/
def cpaOf (response : List UInt8) : List UInt8 :=
  createCpaMessage ⟨1, 1, 3, none⟩ (createAssociateResponseMessage ⟨3, none, none, true⟩ 0 response)

theorem handleConnect_called {buffer : Memory} {connection : IsoConnection}
    {region message : Region} {request sent : List UInt8}
    (h : IsoConnection.handleConnect env fuel buffer self.connection =
      .ok (connection, some region))
    (hmessage : connection.presentation.nextPayload = some message)
    (hrequest : region.octets (message.memory buffer) = .ok request)
    (hanswer : answer { self with connection } response (acceptMessages connection.session
      connection.presentation connection.acseConnection response) = .ok sent) :
    Thread.handleConnect env fuel buffer response self =
      .ok ⟨{ self with connection }, some request, sent⟩ := by
  unfold Thread.handleConnect
  simp only [h, ok_bind, hmessage, hrequest, hanswer]
  rfl

theorem handleConnect_refused {buffer : Memory} {connection : IsoConnection}
    (h : IsoConnection.handleConnect env fuel buffer self.connection = .ok (connection, none)) :
    Thread.handleConnect env fuel buffer response self =
      .ok ⟨{ self with connection }, none, []⟩ := by
  unfold Thread.handleConnect
  simp only [h, ok_bind]
  rfl

/-- A connect message is handed to the MMS layer, and its answer accepts the association; or the
authenticator does not take the password, and the connection is given up. -/
theorem handleMessage_connect (env : IsoEnvironment) (response : List UInt8)
    (h : self.Connected authenticator) (hchecks : Checks authenticator check)
    (session : IsoSession) (creator : IsoPresentation)
    (isoParameters : IsoConnectionParameters) (authParameter : Option AuthParameter)
    (localPSelector remotePSelector : UInt32) (payload : List UInt8) {pdu : List UInt8}
    (hpdu : pdu = (createConnectPdu creator localPSelector remotePSelector
      (createAssociateRequestMessage isoParameters payload authParameter)).2)
    (hmessage : self.cotp.payload.octets =
      (IsoSession.createConnectSpdu session remotePSelector localPSelector pdu).2)
    (hfits : pdu.length ≤ 233) :
    ∃ fuel turn, self.handleMessage env fuel response = .ok turn ∧
      if check (credentials authParameter) = true then
        turn.request = some payload ∧ turn.thread.Associated ∧ ∃ session : IsoSession,
          Answers response (session.createAcceptSpdu (cpaOf response)) turn.sent
      else turn.request = none ∧ turn.thread.connection.running = false ∧ turn.sent = [] := by
  obtain ⟨fuel, connection, called, hhandle, hresult⟩ := IsoConnection.handleMessage_connect env
    self.connection session creator localPSelector remotePSelector isoParameters authParameter
    payload h.authenticator hchecks hpdu hmessage hfits
  have hsize : (IsoSession.createConnectSpdu session remotePSelector localPSelector
      pdu).2.length ≤ isoBufferSize := by
    rw [IsoSession.createConnectSpdu, IsoSession.length_withParameters]
    change 22 + pdu.length + 2 ≤ 16100
    omega
  obtain ⟨session', userData, hsession, -, -⟩ := IsoSession.parseMessage_received env
    (fun behind => (IsoSession.createConnectSpdu_roundTrips_iff session remotePSelector
      localPSelector pdu behind self.connection.session).mpr hfits) hsize
  rw [← hmessage] at hsession
  rw [IsoConnection.handleMessage_of_connect self.connection hsession] at hhandle
  have hturn : self.handleMessage env fuel response =
      Thread.handleConnect env fuel (env.receiveBuffer self.cotp.payload.octets) response
        { self with connection := { self.connection with session := session' } } :=
    handleMessage_of_session self hsession
  refine ⟨fuel, ?_⟩
  by_cases hcheck : check (credentials authParameter) = true
  · rw [if_pos hcheck] at hresult
    obtain ⟨message, region, hmessage', rfl, hholds⟩ := hresult.called
    obtain ⟨sent, hanswer, hsent⟩ := answer_ok { self with connection } h.ready response
      (layered_acceptMessages connection.session connection.presentation connection.acseConnection
        response) fun payload hp => (Option.some.inj hp).symm
    refine ⟨⟨{ self with connection }, some payload, sent⟩, ?_, ?_⟩
    · rw [hturn]
      exact handleConnect_called hhandle hmessage' hholds.octets hanswer
    · rw [if_pos hcheck]
      refine ⟨rfl, ⟨h.ready, h.maxSize, hresult.running.trans h.running, hresult.acseContextId,
        hresult.mmsContextId⟩, connection.session, ?_⟩
      have hcpa : connection.presentation.createCpaMessage
          (connection.acseConnection.createAssociateResponseMessage 0 response) =
          cpaOf response := by
        rw [cpaOf, createCpaMessage, createCpaMessage, createAssociateResponseMessage,
          createAssociateResponseMessage, hresult.acseContextId, hresult.nextReference]
      rw [← hcpa]
      exact hsent
  · rw [if_neg hcheck] at hresult
    obtain ⟨hstopped, rfl⟩ := hresult
    refine ⟨⟨{ self with connection }, none, []⟩, ?_, ?_⟩
    · rw [hturn]
      exact handleConnect_refused hhandle
    · rw [if_neg hcheck]
      exact ⟨rfl, hstopped, rfl⟩

end Connect

/-! Turns, with what is behind the message. -/

variable {env : Environment} {octets : List UInt8} (rest : Stream)

theorem turn_connectionRequest (env : Environment) (fuel : Nat) (response : List UInt8)
    (authenticator : AcseAuthenticator) (destination source : UInt8 × UInt8) :
    ∃ turn destination' source', (start authenticator).turn env fuel response
        (CotpConnection.connectTpdu 0xe0 (0, 2) destination source) = .ok (turn, []) ∧
      turn.thread.Connected authenticator ∧ turn.request = none ∧
      turn.sent = CotpConnection.connectTpdu 0xd0 (2, 0) destination' source' := by
  have hparse := CotpConnection.parse_connectRequest env.wideShift (start authenticator).cotp
    destination source
  let cotp : CotpConnection :=
    { (start authenticator).cotp.told destination source with writeBuffer := some 8196 }
  obtain ⟨destination', source', hsend⟩ : ∃ destination' source',
      ((start authenticator).cotp.told destination source).sendConnectionResponseMessage =
        .ok (cotp, CotpConnection.connectTpdu 0xd0 (2, 0) destination' source') :=
    ⟨_, _, CotpConnection.sendConnectionResponseMessage_told rfl destination source⟩
  refine ⟨⟨⟨cotp, IsoConnection.create authenticator⟩, none, _⟩, destination', source', ?_,
    ⟨⟨rfl, rfl⟩, rfl, rfl, rfl⟩, rfl, rfl⟩
  unfold Thread.turn
  simp only [hparse, ok_bind, hsend]
  rfl

theorem Connected.read {authenticator : AcseAuthenticator} (h : self.Connected authenticator)
    (hoctets : InTpdus message octets) (hsize : message.length ≤ isoBufferSize)
    (wideShift : UInt8 → Int) :
    ∃ cotp, self.cotp.parseIncomingMessage wideShift (octets ++ rest) =
        .ok (.dataIndication, cotp, rest) ∧ cotp.payload.octets = message ∧
      Thread.Connected authenticator { self with cotp } := by
  obtain ⟨cotp, hparse, hcotp⟩ := CotpConnection.parseIncomingMessage_inTpdus wideShift hoctets
    self.cotp rest (h.maxSize ▸ hsize)
  exact ⟨cotp, hparse, hcotp.octets, h.ready.of_holding hcotp, hcotp.maxSize.trans h.maxSize,
    h.running, h.authenticator⟩

theorem Associated.read (h : self.Associated) (hoctets : InTpdus message octets)
    (hsize : message.length ≤ isoBufferSize) (wideShift : UInt8 → Int) :
    ∃ cotp, self.cotp.parseIncomingMessage wideShift (octets ++ rest) =
        .ok (.dataIndication, cotp, rest) ∧ cotp.payload.octets = message ∧
      Thread.Associated { self with cotp } := by
  obtain ⟨cotp, hparse, hcotp⟩ := CotpConnection.parseIncomingMessage_inTpdus wideShift hoctets
    self.cotp rest (h.maxSize ▸ hsize)
  exact ⟨cotp, hparse, hcotp.octets, h.ready.of_holding hcotp, hcotp.maxSize.trans h.maxSize,
    h.running, h.acseContextId, h.mmsContextId⟩

theorem turn_data (env : Environment) (fuel : Nat) (response : List UInt8) (h : self.Associated)
    (hfits : Fits payload) (hoctets : InTpdus
      (IsoSession.createDataSpdu (IsoPresentation.userDataPdu 3 payload)) octets) :
    ∃ turn, self.turn env fuel response (octets ++ rest) = .ok (turn, rest) ∧
      turn.request = some payload ∧ turn.thread.Associated ∧ Answers response
        (IsoSession.createDataSpdu (IsoPresentation.userDataPdu 3 response)) turn.sent := by
  obtain ⟨cotp, hparse, hpayload, hself⟩ := h.read rest hoctets (hfits.spdu 3) env.wideShift
  obtain ⟨turn, hmessage, hturn⟩ :=
    handleMessage_data env.toIsoEnvironment fuel response hself hfits hpayload
  exact ⟨turn, turn_of_data hparse hmessage, hturn⟩

theorem turn_finish (env : Environment) (fuel : Nat) (response : List UInt8) (h : self.Associated)
    (hoctets : InTpdus (IsoSession.createFinishSpdu
      (IsoPresentation.userDataPdu 1 AcseConnection.createReleaseRequestMessage)) octets) :
    ∃ turn, self.turn env fuel response (octets ++ rest) = .ok (turn, rest) ∧
      turn.request = none ∧ turn.thread.connection.running = false ∧
      InTpdus (IsoSession.createDisconnectSpdu
        (IsoPresentation.userDataPdu 1 AcseConnection.createReleaseResponseMessage))
        turn.sent := by
  obtain ⟨cotp, hparse, hpayload, hself⟩ := h.read rest hoctets (by decide) env.wideShift
  obtain ⟨turn, hmessage, hturn⟩ :=
    handleMessage_finish env.toIsoEnvironment fuel response hself hpayload
  exact ⟨turn, turn_of_data hparse hmessage, hturn⟩

theorem turn_connect {authenticator : AcseAuthenticator} {check : Option (List UInt8) → Bool}
    (env : Environment) (response : List UInt8) (h : self.Connected authenticator)
    (hchecks : AcseConnection.Checks authenticator check) (session : IsoSession)
    (creator : IsoPresentation) (isoParameters : IsoConnectionParameters)
    (authParameter : Option AuthParameter) (localPSelector remotePSelector : UInt32)
    (payload : List UInt8) {pdu : List UInt8}
    (hpdu : pdu = (creator.createConnectPdu localPSelector remotePSelector
      (AcseConnection.createAssociateRequestMessage isoParameters payload authParameter)).2)
    (hoctets : InTpdus
      (session.createConnectSpdu remotePSelector localPSelector pdu).2 octets)
    (hfits : pdu.length ≤ 233) :
    ∃ fuel turn, self.turn env fuel response (octets ++ rest) = .ok (turn, rest) ∧
      if check (AcseConnection.credentials authParameter) = true then
        turn.request = some payload ∧ turn.thread.Associated ∧ ∃ session : IsoSession,
          Answers response (session.createAcceptSpdu (cpaOf response)) turn.sent
      else turn.request = none ∧ turn.thread.connection.running = false ∧ turn.sent = [] := by
  have hsize : (session.createConnectSpdu remotePSelector localPSelector pdu).2.length ≤
      isoBufferSize := by
    rw [IsoSession.createConnectSpdu, IsoSession.length_withParameters]
    change 22 + pdu.length + 2 ≤ 16100
    omega
  obtain ⟨cotp, hparse, hpayload, hself⟩ := h.read rest hoctets hsize env.wideShift
  obtain ⟨fuel, turn, hmessage, hturn⟩ := handleMessage_connect env.toIsoEnvironment response hself
    hchecks session creator isoParameters authParameter localPSelector remotePSelector payload hpdu
    hpayload hfits
  exact ⟨fuel, turn, turn_of_data hparse hmessage, hturn⟩

/-- `IsoConnection_sendMessage` -/
theorem Associated.sendMessage_ok (h : self.Associated) (hfits : Fits message) :
    ∃ octets, self.sendMessage message = .ok octets ∧
      InTpdus (IsoSession.createDataSpdu (IsoPresentation.userDataPdu 3 message)) octets := by
  obtain ⟨octets, hsend, hoctets⟩ := h.ready.send
    (layered_dataMessages self.connection.presentation message)
    fun payload hp => by cases hp; exact hfits.ne_nil
  refine ⟨octets, ?_, ?_⟩
  · rw [sendMessage, h.running, if_neg (Bool.false_ne_true ·.symm), dataMessages, hsend]
  · rw [← h.mmsContextId]
    exact hoctets

end Thread

end IsoConnection

end Iec61850
