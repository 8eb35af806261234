import Iec61850.Iso.ClientConnection
import Iec61850.Iso.ServerThread

/-! `iso_client_connection.c`: the connection of a client from the connection request on, a turn for
each message that it waits for. -/

namespace Iec61850

open Machine Transport

namespace IsoClientConnection

/-- What the client waits for: the answers to its connection request and to its associate request,
then messages. It waits no more when the connection is closed or the association has failed. -/
inductive Phase
  | connecting
  | associating
  | associated
  | closed
  | failed
  deriving DecidableEq

structure Client where
  phase : Phase
  layers : State

/-- What the callback gets, if it gets any data, and what is sent. -/
structure Turn where
  client : Client
  received : Option (List UInt8)
  sent : List UInt8

namespace Client

/-- `IsoClientConnection_associate` sends a connection request first. -/
def start (params : ClientParameters) : Exec (Client × List UInt8) := do
  let (cotp, request) ← cotpConnection.sendConnectionRequestMessage params.remoteTSelector
  return (⟨.connecting, State.start cotp⟩, request)

/-- The answer to the connection request. The associate request follows. -/
def receiveConfirm (env : Environment) (params : ClientParameters) (payload : List UInt8)
    (self : Client) (s : Stream) : Exec (Turn × Stream) := do
  let (indication, cotp, s) ← self.layers.cotp.parseIncomingMessage env.wideShift s
  if indication ≠ .connectIndication then
    return (⟨⟨.failed, { self.layers with cotp }⟩, none, []⟩, s)
  let (layers, messages) :=
    State.createAssociateMessages { self.layers with cotp } params payload
  let sent ← cotp.send messages
  return (⟨⟨.associating, layers⟩, none, sent⟩, s)

/-- Where the user data of the answer are. -/
def userDataOctets (layers : State) (buffer : Memory) (userData : Option Region) :
    Exec (Option (List UInt8)) :=
  match layers.session.userData, layers.presentation.nextPayload, userData with
  | some outer, some message, some region => do
    return some (← region.octets (message.memory (outer.memory buffer)))
  | _, _, _ => return none

/-- The answer to the associate request. -/
def receiveAnswer (env : Environment) (fuel : Nat) (self : Client) (s : Stream) :
    Exec (Turn × Stream) := do
  let (indication, cotp, s) ← self.layers.cotp.parseIncomingMessage env.wideShift s
  if indication ≠ .dataIndication then
    return (⟨⟨.failed, { self.layers with cotp }⟩, none, []⟩, s)
  let message := cotp.payload.octets
  let (layers, answer) ←
    State.handleAnswer env.toIsoEnvironment fuel { self.layers with cotp } message
  match answer with
  | none => return (⟨⟨.failed, layers⟩, none, []⟩, s)
  | some userData => do
    let received ← userDataOctets layers (env.receiveBuffer message) userData
    return (⟨⟨.associated, layers⟩, received, []⟩, s)

/-- One turn of the loop of `connectionHandlingThread`. -/
def receiveData (env : Environment) (self : Client) (s : Stream) : Exec (Turn × Stream) := do
  let (indication, cotp, s) ← self.layers.cotp.parseIncomingMessage env.wideShift s
  if indication ≠ .dataIndication then
    return (⟨⟨.closed, { self.layers with cotp }⟩, none, []⟩, s)
  let message := cotp.payload.octets
  let (layers, payload) ← State.handleMessage env.toIsoEnvironment { self.layers with cotp } message
  match payload with
  | none => return (⟨⟨.closed, layers⟩, none, []⟩, s)
  | some region => do
    let received ← region.octets (env.receiveBuffer message)
    return (⟨⟨.associated, layers⟩, some received, []⟩, s)

def turn (env : Environment) (fuel : Nat) (params : ClientParameters) (payload : List UInt8)
    (self : Client) (s : Stream) : Exec (Turn × Stream) :=
  match self.phase with
  | .connecting => self.receiveConfirm env params payload s
  | .associating => self.receiveAnswer env fuel s
  | .associated => self.receiveData env s
  | .closed | .failed => .ok (⟨self, none, []⟩, s)

/-- `IsoClientConnection_sendMessage` -/
def sendMessage (self : Client) (payload : List UInt8) : Exec (List UInt8) :=
  self.layers.cotp.send (dataMessages self.layers.presentation payload)

/-- `IsoClientConnection_release` -/
def release (self : Client) : Exec (List UInt8) :=
  self.layers.cotp.send (finishMessages self.layers.presentation)

open IsoConnection.Thread (Fits cpaOf)

variable {env : Environment} {params : ClientParameters} {payload response octets : List UInt8}
  {self : Client} {rest : Stream}

/-- A client that waits for the answer to its connection request. -/
structure Connecting (c : Client) : Prop where
  phase : c.phase = .connecting
  writeBuffer : c.layers.cotp.writeBuffer = some 8196
  maxSize : c.layers.cotp.payload.maxSize = isoBufferSize
  authenticator : c.layers.acseConnection.authenticator = none

/-- A client that waits for the answer to its associate request. -/
structure Associating (c : Client) : Prop where
  phase : c.phase = .associating
  ready : c.layers.cotp.Ready
  maxSize : c.layers.cotp.payload.maxSize = isoBufferSize
  acseContextId : c.layers.presentation.acseContextId = 1
  mmsContextId : c.layers.presentation.mmsContextId = 3
  authenticator : c.layers.acseConnection.authenticator = none

/-- A client with an association. -/
structure Associated (c : Client) : Prop where
  phase : c.phase = .associated
  ready : c.layers.cotp.Ready
  maxSize : c.layers.cotp.payload.maxSize = isoBufferSize
  acseContextId : c.layers.presentation.acseContextId = 1
  mmsContextId : c.layers.presentation.mmsContextId = 3

theorem start_connecting (params : ClientParameters) :
    ∃ client destination source, start params =
        .ok (client, CotpConnection.connectTpdu 0xe0 (0, 2) destination source) ∧
      client.Connecting := by
  have hsend := CotpConnection.sendConnectionRequestMessage_eq
    ⟨[], isoBufferSize, Nat.zero_le isoBufferSize⟩ params.remoteTSelector
  let cotp : CotpConnection := { cotpConnection with
    writeBuffer := some 8196
    tsapIdDst := params.remoteTSelector.toNat
    tsapIdSrc := 0 }
  refine ⟨⟨.connecting, State.start cotp⟩, CotpConnection.selector params.remoteTSelector.toNat,
    CotpConnection.selector 0, ?_, rfl, rfl, rfl, rfl⟩
  rw [start, cotpConnection, hsend]
  rfl

/-- The connect message is sent when the transport is connected. -/
theorem turn_connecting (env : Environment) (fuel : Nat) (params : ClientParameters)
    (h : self.Connecting) (hpayload : payload ≠ []) (destination source : UInt8 × UInt8) :
    ∃ turn session presentation pdu, self.turn env fuel params payload
        (CotpConnection.connectTpdu 0xd0 (2, 0) destination source) = .ok (turn, []) ∧
      turn.client.Associating ∧ turn.received = none ∧
      pdu = (IsoPresentation.createConnectPdu presentation params.localPSelector
        params.remotePSelector (AcseConnection.createAssociateRequestMessage
          params.toIsoConnectionParameters payload params.acseAuthParameter)).2 ∧
      InTpdus (IsoSession.createConnectSpdu session params.remotePSelector params.localPSelector
        pdu).2 turn.sent := by
  have hparse := CotpConnection.parse_connectConfirm env.wideShift self.layers.cotp destination
    source
  generalize hcotp : { self.layers.cotp.told destination source with isLastDataUnit := true } = cotp
    at hparse
  have hready : cotp.Ready := by
    subst hcotp
    exact ⟨rfl, h.writeBuffer⟩
  have hmax : cotp.payload.maxSize = isoBufferSize := by
    subst hcotp
    exact h.maxSize
  obtain ⟨sent, hsend, hsent⟩ := hready.send
    (State.layered_createAssociateMessages { self.layers with cotp } params payload)
    fun payload' hp => by cases hp; exact hpayload
  refine ⟨⟨⟨.associating,
    (State.createAssociateMessages { self.layers with cotp } params payload).1⟩, none, sent⟩,
    self.layers.session, self.layers.presentation, _, ?_,
    ⟨rfl, hready, hmax, rfl, rfl, h.authenticator⟩, rfl, rfl, hsent⟩
  unfold Client.turn receiveConfirm
  simp only [h.phase, hparse, ok_bind]
  change (cotp.send
    (State.createAssociateMessages { self.layers with cotp } params payload).2 >>= _) = _
  exact (congrArg (· >>= _) hsend).trans rfl

theorem receiveAnswer_ok {fuel : Nat} {s : Stream} {cotp : CotpConnection} {layers : State}
    {userData : Option Region} {received : Option (List UInt8)}
    (hparse : self.layers.cotp.parseIncomingMessage env.wideShift s =
      .ok (.dataIndication, cotp, rest))
    (hanswer : State.handleAnswer env.toIsoEnvironment fuel { self.layers with cotp }
      cotp.payload.octets = .ok (layers, some userData))
    (hreceived : userDataOctets layers (env.receiveBuffer cotp.payload.octets) userData =
      .ok received) :
    self.receiveAnswer env fuel s = .ok (⟨⟨.associated, layers⟩, received, []⟩, rest) := by
  unfold receiveAnswer
  simp only [hparse, ok_bind, ne_eq, not_true_eq_false, if_false, hanswer, hreceived]
  rfl

theorem receiveData_ok {s : Stream} {cotp : CotpConnection} {layers : State} {region : Region}
    (hparse : self.layers.cotp.parseIncomingMessage env.wideShift s =
      .ok (.dataIndication, cotp, rest))
    (hmessage : State.handleMessage env.toIsoEnvironment { self.layers with cotp }
      cotp.payload.octets = .ok (layers, some region))
    (hreceived : region.octets (env.receiveBuffer cotp.payload.octets) = .ok octets) :
    self.receiveData env s = .ok (⟨⟨.associated, layers⟩, some octets, []⟩, rest) := by
  unfold receiveData
  simp only [hparse, ok_bind, ne_eq, not_true_eq_false, if_false, hmessage, hreceived]
  rfl

theorem receiveData_closed {s : Stream} {cotp : CotpConnection} {layers : State}
    (hparse : self.layers.cotp.parseIncomingMessage env.wideShift s =
      .ok (.dataIndication, cotp, rest))
    (hmessage : State.handleMessage env.toIsoEnvironment { self.layers with cotp }
      cotp.payload.octets = .ok (layers, none)) :
    self.receiveData env s = .ok (⟨⟨.closed, layers⟩, none, []⟩, rest) := by
  unfold receiveData
  simp only [hparse, ok_bind, ne_eq, not_true_eq_false, if_false, hmessage]
  rfl

/-- The accept message of the server makes the association a success. -/
theorem turn_associating (env : Environment) (params : ClientParameters) (payload : List UInt8)
    (h : self.Associating) (session : IsoSession) (hfits : (cpaOf response).length ≤ 237)
    (hoctets : InTpdus (session.createAcceptSpdu (cpaOf response)) octets) (rest : Stream) :
    ∃ fuel turn, self.turn env fuel params payload (octets ++ rest) = .ok (turn, rest) ∧
      turn.client.Associated ∧ turn.received = some response ∧ turn.sent = [] := by
  have hsize : (session.createAcceptSpdu (cpaOf response)).length ≤ isoBufferSize := by
    rw [IsoSession.createAcceptSpdu, IsoSession.length_withParameters]
    change 18 + (cpaOf response).length + 2 ≤ 16100
    omega
  obtain ⟨cotp, hparse, hcotp⟩ := CotpConnection.parseIncomingMessage_inTpdus env.wideShift hoctets
    self.layers.cotp rest (h.maxSize ▸ hsize)
  obtain ⟨fuel, session', presentation', acse', userData, message, region, hanswer, huser, hmessage,
    hholds, hacse, hmms⟩ := State.handleAnswer_accept env.toIsoEnvironment
      { self.layers with cotp } h.authenticator session ⟨1, 1, 3, none⟩ ⟨3, none, none, true⟩
      response rfl hcotp.octets hfits
  have hreceived : userDataOctets ⟨cotp, session', presentation', acse'⟩
      (env.receiveBuffer cotp.payload.octets) (some region) = .ok (some response) := by
    unfold userDataOctets
    simp only [huser, hmessage, hholds.octets, ok_bind]
    rfl
  refine ⟨fuel, ⟨⟨.associated, ⟨cotp, session', presentation', acse'⟩⟩, some response, []⟩, ?_,
    ⟨rfl, h.ready.of_holding hcotp, hcotp.maxSize.trans h.maxSize, hacse.trans h.acseContextId,
      hmms.trans h.mmsContextId⟩, rfl, rfl⟩
  rw [Client.turn, h.phase]
  exact receiveAnswer_ok hparse hanswer hreceived

/-- The callback gets every data message. -/
theorem turn_data (env : Environment) (fuel : Nat) (params : ClientParameters)
    (request : List UInt8) (h : self.Associated) (hfits : Fits payload)
    (hoctets : InTpdus (IsoSession.createDataSpdu (IsoPresentation.userDataPdu 3 payload)) octets)
    (rest : Stream) :
    ∃ turn, self.turn env fuel params request (octets ++ rest) = .ok (turn, rest) ∧
      turn.client.Associated ∧ turn.received = some payload ∧ turn.sent = [] := by
  obtain ⟨cotp, hparse, hcotp⟩ := CotpConnection.parseIncomingMessage_inTpdus env.wideShift hoctets
    self.layers.cotp rest (h.maxSize ▸ hfits.spdu 3)
  obtain ⟨session, presentation, region, hmessage, hholds, hacse, hmms⟩ := State.handleMessage_data
    env.toIsoEnvironment { self.layers with cotp } 3 payload hfits.fullyEncoded (hfits.spdu 3)
  rw [← hcotp.octets] at hmessage hholds
  refine ⟨⟨⟨.associated, ⟨cotp, session, presentation, self.layers.acseConnection⟩⟩, some payload,
    []⟩, ?_, ⟨rfl, h.ready.of_holding hcotp, hcotp.maxSize.trans h.maxSize,
      hacse.trans h.acseContextId, hmms.trans h.mmsContextId⟩, rfl, rfl⟩
  rw [Client.turn, h.phase]
  exact receiveData_ok hparse hmessage hholds.octets

/-- A disconnect message closes the connection. -/
theorem turn_disconnect (env : Environment) (fuel : Nat) (params : ClientParameters)
    (request : List UInt8) (h : self.Associated)
    (hoctets : InTpdus (IsoSession.createDisconnectSpdu (IsoPresentation.userDataPdu 1
      AcseConnection.createReleaseResponseMessage)) octets) (rest : Stream) :
    ∃ turn, self.turn env fuel params request (octets ++ rest) = .ok (turn, rest) ∧
      turn.client.phase = .closed ∧ turn.received = none ∧ turn.sent = [] := by
  obtain ⟨cotp, hparse, hcotp⟩ := CotpConnection.parseIncomingMessage_inTpdus env.wideShift hoctets
    self.layers.cotp rest (h.maxSize ▸ by decide)
  obtain ⟨session, userData, hsession, -, -⟩ := IsoSession.parseMessage_received
    env.toIsoEnvironment (fun behind => (IsoSession.createDisconnectSpdu_roundTrips_iff
      (IsoPresentation.userDataPdu 1 AcseConnection.createReleaseResponseMessage) behind
      self.layers.session).mpr (by decide)) (by decide)
  rw [← hcotp.octets] at hsession
  have hmessage : State.handleMessage env.toIsoEnvironment { self.layers with cotp }
      cotp.payload.octets = .ok ({ self.layers with cotp, session }, none) := by
    rw [State.handleMessage, hsession]
    rfl
  refine ⟨⟨⟨.closed, { self.layers with cotp, session }⟩, none, []⟩, ?_, rfl, rfl, rfl⟩
  rw [Client.turn, h.phase]
  exact receiveData_closed hparse hmessage

/-- Nothing comes when the server has given the connection up. -/
theorem turn_nil (env : Environment) (fuel : Nat) (params : ClientParameters)
    (request : List UInt8) (h : self.Associating) :
    ∃ turn, self.turn env fuel params request [] = .ok (turn, []) ∧
      turn.client.phase = .failed ∧ turn.received = none ∧ turn.sent = [] := by
  refine ⟨⟨⟨.failed, { self.layers with cotp := self.layers.cotp.emptied }⟩, none, []⟩, ?_, rfl, rfl,
    rfl⟩
  rw [Client.turn, h.phase]
  rfl

theorem Associated.sendMessage_ok (h : self.Associated) (hfits : Fits payload) :
    ∃ octets, self.sendMessage payload = .ok octets ∧
      InTpdus (IsoSession.createDataSpdu (IsoPresentation.userDataPdu 3 payload)) octets := by
  obtain ⟨octets, hsend, hoctets⟩ := h.ready.send
    (layered_dataMessages self.layers.presentation payload)
    fun payload hp => by cases hp; exact hfits.ne_nil
  refine ⟨octets, hsend, ?_⟩
  rw [← h.mmsContextId]
  exact hoctets

theorem Associated.release_ok (h : self.Associated) :
    ∃ octets, self.release = .ok octets ∧ InTpdus (IsoSession.createFinishSpdu
      (IsoPresentation.userDataPdu 1 AcseConnection.createReleaseRequestMessage)) octets := by
  obtain ⟨octets, hsend, hoctets⟩ := h.ready.send
    (layered_finishMessages self.layers.presentation)
    fun payload hp => by cases hp; exact List.cons_ne_nil _ _
  refine ⟨octets, hsend, ?_⟩
  rw [← h.acseContextId]
  exact hoctets

theorem turn_mono (env : Environment) (params : ClientParameters) (payload : List UInt8)
    (self : Client) (s : Stream) :
    FuelMonotone fun fuel => self.turn env fuel params payload s := by
  unfold Client.turn
  cases self.phase with
  | associating =>
    apply FuelMonotone.bind (FuelMonotone.const _)
    rintro ⟨indication, cotp, s⟩
    apply FuelMonotone.ite (FuelMonotone.const _)
    apply FuelMonotone.bind
    · apply FuelMonotone.bind (FuelMonotone.const _)
      rintro ⟨indication, session⟩
      apply FuelMonotone.ite (FuelMonotone.const _)
      apply FuelMonotone.bind (FuelMonotone.const _)
      intro userData
      apply FuelMonotone.bind (IsoPresentation.parseAcceptMessage_mono _ _)
      rintro ⟨ok, presentation⟩
      apply FuelMonotone.ite (FuelMonotone.const _)
      apply FuelMonotone.bind (FuelMonotone.const _)
      intro message
      exact (AcseConnection.parseMessage_mono _ _).bind fun _ => FuelMonotone.const _
    · exact fun _ => FuelMonotone.const _
  | _ => exact FuelMonotone.const _

end Client

end IsoClientConnection

end Iec61850
