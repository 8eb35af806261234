import Iec61850.Iso.AssociationProtocol
import Iec61850.Iso.ClientThread

/-! A client and a server of this library with each other: whatever the order in which their threads
run, they do what an association is for. -/

namespace Iec61850

open Machine Transport AcseConnection IsoConnection.Thread

/-- Both sides, with the octets that are on their way. The rest is what has been given to each side
to be sent, what it has got, and whether the client has asked for the release. -/
structure IsoSystem where
  client : IsoClientConnection.Client
  server : IsoConnection.Thread
  toServer : Stream
  toClient : Stream
  released : Bool
  clientSent : List (List UInt8)
  serverSent : List (List UInt8)
  clientGot : List (List UInt8)
  serverGot : List (List UInt8)

/-- The handler of the server has a response for each message, which is empty where it has none. -/
inductive IsoEvent
  | serverReads (env : IsoClientConnection.Environment) (response : List UInt8)
  | serverSends (message : List UInt8)
  | clientReads (env : IsoClientConnection.Environment)
  | clientSends (message : List UInt8)
  | clientReleases

namespace IsoSystem

variable (params : ClientParameters) (payload : List UInt8) (authenticator : AcseAuthenticator)

/-- The client has sent its connection request, and has the payload of its associate request. -/
def start : Exec IsoSystem := do
  let (client, request) ← IsoClientConnection.Client.start params
  return {
    client := client
    server := IsoConnection.Thread.start authenticator
    toServer := request
    toClient := []
    released := false
    clientSent := [payload]
    serverSent := []
    clientGot := []
    serverGot := [] }

/-- The server has read a message. -/
def served (s : IsoSystem) (response : List UInt8) (turn : IsoConnection.Turn) (rest : Stream) :
    IsoSystem :=
  { s with
    server := turn.thread
    toServer := rest
    toClient := s.toClient ++ turn.sent
    serverSent := s.serverSent ++ if turn.request ≠ none ∧ response ≠ [] then [response] else []
    serverGot := s.serverGot ++ turn.request.toList }

/-- The client has read a message. -/
def read (s : IsoSystem) (turn : IsoClientConnection.Turn) (rest : Stream) : IsoSystem :=
  { s with
    client := turn.client
    toServer := s.toServer ++ turn.sent
    toClient := rest
    clientGot := s.clientGot ++ turn.received.toList }

def next (fuel : Nat) (s : IsoSystem) : IsoEvent → Exec IsoSystem
  | .serverReads env response => do
    let (turn, rest) ← s.server.turn env fuel response s.toServer
    return s.served response turn rest
  | .serverSends message => do
    let sent ← s.server.sendMessage message
    return { s with toClient := s.toClient ++ sent, serverSent := s.serverSent ++ [message] }
  | .clientReads env => do
    let (turn, rest) ← s.client.turn env fuel params payload s.toClient
    return s.read turn rest
  | .clientSends message => do
    let sent ← s.client.sendMessage message
    return { s with toServer := s.toServer ++ sent, clientSent := s.clientSent ++ [message] }
  | .clientReleases => do
    let sent ← s.client.release
    return { s with toServer := s.toServer ++ sent, released := true }

def Step (s : IsoSystem) (e : IsoEvent) (t : IsoSystem) : Prop :=
  ∃ fuel, next params payload fuel s e = .ok t

/-- The presentation message with the associate request in it. -/
def connectPdu : List UInt8 :=
  (IsoPresentation.init.createConnectPdu params.localPSelector params.remotePSelector
    (createAssociateRequestMessage params.toIsoConnectionParameters payload
      params.acseAuthParameter)).2

/-- What a handler may answer: the first message is the associate request, and its answer has to fit
into an accept SPDU. -/
def Response (s : IsoSystem) (response : List UInt8) : Prop :=
  if s.serverGot = [] then response ≠ [] ∧ (cpaOf response).length ≤ 237
  else response.length ≤ 16000

/-- A side reads when there is something to read, or when the other side has given the connection up.
The server sends when it has an association, and the client until it asks for the release. -/
def Enabled (s : IsoSystem) : IsoEvent → Prop
  | .serverReads _ response =>
    s.server.connection.running = true ∧ s.toServer ≠ [] ∧ s.Response response
  | .serverSends message =>
    s.server.connection.running = true ∧ s.serverGot ≠ [] ∧ Fits message
  | .clientReads _ => s.client.phase ≠ .closed ∧ s.client.phase ≠ .failed ∧
    (s.toClient ≠ [] ∨ s.server.connection.running = false)
  | .clientSends message => s.client.phase = .associated ∧ s.released = false ∧ Fits message
  | .clientReleases => s.client.phase = .associated ∧ s.released = false

/-! ## The messages -/

open Association

/-- The octets of a message. -/
def Encodes : Message (List UInt8) → List UInt8 → Prop
  | .connectionRequest, octets => ∃ destination source,
    octets = CotpConnection.connectTpdu 0xe0 (0, 2) destination source
  | .connectionConfirm, octets => ∃ destination source,
    octets = CotpConnection.connectTpdu 0xd0 (2, 0) destination source
  | .connect payload, octets => ∃ (session : IsoSession) (creator : IsoPresentation) (pdu : _),
    pdu = (creator.createConnectPdu params.localPSelector params.remotePSelector
      (createAssociateRequestMessage params.toIsoConnectionParameters payload
        params.acseAuthParameter)).2 ∧
    InTpdus (session.createConnectSpdu params.remotePSelector params.localPSelector pdu).2 octets
  | .accept response, octets => (cpaOf response).length ≤ 237 ∧
    ∃ session : IsoSession, InTpdus (session.createAcceptSpdu (cpaOf response)) octets
  | .data payload, octets => Fits payload ∧
    InTpdus (IsoSession.createDataSpdu (IsoPresentation.userDataPdu 3 payload)) octets
  | .finish, octets => InTpdus (IsoSession.createFinishSpdu
    (IsoPresentation.userDataPdu 1 createReleaseRequestMessage)) octets
  | .disconnect, octets => InTpdus (IsoSession.createDisconnectSpdu
    (IsoPresentation.userDataPdu 1 createReleaseResponseMessage)) octets

theorem Encodes.ne_nil (m : Message (List UInt8)) (octets : List UInt8)
    (h : Encodes params m octets) : octets ≠ [] := by
  cases m with
  | connectionRequest | connectionConfirm =>
    obtain ⟨_, _, rfl⟩ := h
    exact List.cons_ne_nil _ _
  | connect =>
    obtain ⟨_, _, _, _, h⟩ := h
    exact h.ne_nil
  | accept =>
    obtain ⟨_, _, h⟩ := h
    exact h.ne_nil
  | data => exact h.2.ne_nil
  | finish | disconnect => exact InTpdus.ne_nil h

/-! ## What the parties are in each phase -/

def ServerIs (t : IsoConnection.Thread) : ServerPhase → Prop
  | .waiting => t = IsoConnection.Thread.start authenticator
  | .connected => t.Connected authenticator
  | .associated => t.Associated
  | .stopped => t.connection.running = false

def ClientIs (c : IsoClientConnection.Client) : ClientPhase → Prop
  | .connecting => c.Connecting
  | .associating => c.Associating
  | .associated | .releasing => c.Associated
  | .closed => c.phase = .closed
  | .failed => c.phase = .failed

/-- The parties are in these phases, and the octets are those of these messages. -/
structure Represents (s : IsoSystem) (a : State (List UInt8)) : Prop where
  client : ClientIs s.client a.client
  server : ServerIs authenticator s.server a.server
  toServer : Channel.Carries (Encodes params) s.toServer a.toServer
  toClient : Channel.Carries (Encodes params) s.toClient a.toClient
  released : s.released = true ↔ a.client = .releasing ∨ a.client = .closed
  clientSent : s.clientSent = a.clientSent
  serverSent : s.serverSent = a.serverSent
  clientGot : s.clientGot = a.clientGot
  serverGot : s.serverGot = a.serverGot

/-! ## Each step is one of the protocol -/

open IsoConnection (Thread.Answers)

variable {params payload authenticator} {check : Option (List UInt8) → Bool}
  {s t : IsoSystem} {a : State (List UInt8)} {env : IsoClientConnection.Environment}
  {response message : List UInt8}

/-- What the protocol takes for the answer of the handler. -/
def answerOf (response : List UInt8) : Option (List UInt8) :=
  if response = [] then none else some response

theorem length_le_cpaOf (response : List UInt8) : response.length ≤ (cpaOf response).length := by
  have hresponse := length_le_response response ⟨3, none, none, true⟩ 0
  have hlength := IsoPresentation.length_lt_cpaLength
    (createAssociateResponseMessage ⟨3, none, none, true⟩ 0 response).length
  have hcpa := IsoPresentation.cpaLength_lt ⟨1, 1, 3, none⟩
    (createAssociateResponseMessage ⟨3, none, none, true⟩ 0 response)
  rw [cpaOf]
  omega

theorem Response.fits (h : s.Response response) (hne : response ≠ []) : Fits response := by
  refine ⟨hne, ?_⟩
  unfold Response at h
  split at h
  · have hle := length_le_cpaOf response
    omega
  · exact h

theorem carries_answer {octets outer : List UInt8} {sent : Stream}
    {answer : List UInt8 → Message (List UInt8)} {ms : List (Message (List UInt8))}
    (h : Channel.Carries (Encodes params) sent ms) (hanswers : Answers response outer octets)
    (hencodes : response ≠ [] → InTpdus outer octets → Encodes params (answer response) octets) :
    Channel.Carries (Encodes params) (sent ++ octets)
      (ms ++ ((answerOf response).map answer).toList) := by
  rw [answerOf]
  split
  case isTrue hnil =>
    rw [hanswers.nothing hnil, List.append_nil]
    exact (List.append_nil ms).symm ▸ h
  case isFalse hne => exact h.snoc (hencodes hne (hanswers.message hne))

theorem answered_eq (response : List UInt8) {request : Option (List UInt8)} (h : request ≠ none) :
    (if request ≠ none ∧ response ≠ [] then [response] else []) = (answerOf response).toList := by
  rw [answerOf]
  by_cases hnil : response = []
  · rw [if_neg fun h => h.2 hnil, if_pos hnil]
    rfl
  · rw [if_pos ⟨h, hnil⟩, if_neg hnil]
    rfl

theorem unanswered_eq (response : List UInt8) {request : Option (List UInt8)} (h : request = none) :
    (if request ≠ none ∧ response ≠ [] then [response] else []) = [] := if_neg fun h' => h'.1 h

theorem next_serverReads {fuel : Nat} {turn : IsoConnection.Turn} {rest : Stream}
    (h : s.server.turn env fuel response s.toServer = .ok (turn, rest)) :
    next params payload fuel s (.serverReads env response) = .ok (s.served response turn rest) := by
  rw [next, h]
  rfl

theorem next_clientReads {fuel : Nat} {turn : IsoClientConnection.Turn} {rest : Stream}
    (h : s.client.turn env fuel params payload s.toClient = .ok (turn, rest)) :
    next params payload fuel s (.clientReads env) = .ok (s.read turn rest) := by
  rw [next, h]
  rfl

/-- A step of the system that is a step of the protocol. -/
def Matches (params : ClientParameters) (payload : List UInt8) (authenticator : AcseAuthenticator)
    (admits : Bool) (s : IsoSystem) (a : State (List UInt8)) (e : IsoEvent)
    (action : Action (List UInt8)) : Prop :=
  ∃ fuel t b, next params payload fuel s e = .ok t ∧ Represents params authenticator t b ∧
    a.Step admits payload action b

section Server

variable {request : List UInt8} {rest : List (Message (List UInt8))} {admits : Bool}
  (h : Represents params authenticator s a)
include h

/-- The server reads data. -/
theorem Represents.serve (hserver : a.server = .associated)
    (hread : a.toServer = .data request :: rest) (hresponse : s.Response response) :
    Matches params payload authenticator admits s a (.serverReads env response)
      (.serverReads (answerOf response)) := by
  have hthread : s.server.Associated := by
    have hserver' := h.server
    rwa [hserver] at hserver'
  obtain ⟨octets, behind, hstream, ⟨hfits, hoctets⟩, hbehind⟩ := (hread ▸ h.toServer).uncons
  obtain ⟨turn, hturn, hrequest, hassociated, hanswers⟩ :=
    IsoConnection.Thread.turn_data behind env 0 response hthread hfits hoctets
  rw [← hstream] at hturn
  refine ⟨0, _, _, next_serverReads hturn, ?_, .serve hserver hread⟩
  have hne : turn.request ≠ none := by
    rw [hrequest]
    exact Option.some_ne_none _
  refine ⟨h.client, ?_, hbehind, ?_, h.released, h.clientSent, ?_, h.clientGot, ?_⟩
  · rw [hserver]
    exact hassociated
  · exact carries_answer h.toClient hanswers fun hnil hsent => ⟨hresponse.fits hnil, hsent⟩
  · rw [← h.serverSent, ← answered_eq response hne]
    rfl
  · rw [← h.serverGot, served, hrequest]
    rfl

/-- The server reads a finish message. -/
theorem Represents.disconnect (hserver : a.server = .associated)
    (hread : a.toServer = .finish :: rest) :
    Matches params payload authenticator admits s a (.serverReads env response)
      (.serverReads (answerOf response)) := by
  have hthread : s.server.Associated := by
    have hserver' := h.server
    rwa [hserver] at hserver'
  obtain ⟨octets, behind, hstream, hoctets, hbehind⟩ := (hread ▸ h.toServer).uncons
  obtain ⟨turn, hturn, hrequest, hstopped, hsent⟩ :=
    IsoConnection.Thread.turn_finish behind env 0 response hthread hoctets
  rw [← hstream] at hturn
  refine ⟨0, _, _, next_serverReads hturn, ?_, .disconnect hserver hread⟩
  refine ⟨h.client, hstopped, hbehind, h.toClient.snoc hsent, h.released, h.clientSent, ?_,
    h.clientGot, ?_⟩
  · rw [← h.serverSent, served, unanswered_eq response hrequest, List.append_nil]
  · rw [← h.serverGot, served, hrequest, Option.toList_none, List.append_nil]

/-- The server reads the connection request. -/
theorem Represents.confirm (hserver : a.server = .waiting)
    (hread : a.toServer = [.connectionRequest]) :
    Matches params payload authenticator admits s a (.serverReads env response)
      (.serverReads (answerOf response)) := by
  have hthread : s.server = IsoConnection.Thread.start authenticator := by
    have hserver' := h.server
    rwa [hserver] at hserver'
  obtain ⟨octets, behind, hstream, ⟨destination, source, rfl⟩, hbehind⟩ :=
    (hread ▸ h.toServer).uncons
  obtain rfl := hbehind.eq_nil
  rw [List.append_nil] at hstream
  obtain ⟨turn, destination', source', hturn, hconnected, hrequest, hsent⟩ :=
    IsoConnection.Thread.turn_connectionRequest env 0 response authenticator destination source
  rw [← hstream, ← hthread] at hturn
  refine ⟨0, _, _, next_serverReads hturn, ?_, .confirm hserver hread⟩
  refine ⟨h.client, hconnected, .nil, h.toClient.snoc ⟨destination', source', hsent⟩, h.released,
    h.clientSent, ?_, h.clientGot, ?_⟩
  · rw [← h.serverSent, served, unanswered_eq response hrequest, List.append_nil]
  · rw [← h.serverGot, served, hrequest, Option.toList_none, List.append_nil]

/-- The server reads the associate request, and lets the client in. -/
theorem Represents.accept (hserver : a.server = .connected) (hread : a.toServer = [.connect request])
    (hgot : a.serverGot = []) (hresponse : s.Response response)
    (hchecks : Checks authenticator check) (hfits : (connectPdu params request).length ≤ 233)
    (hadmits : check (credentials params.acseAuthParameter) = true) :
    Matches params payload authenticator (check (credentials params.acseAuthParameter)) s a
      (.serverReads env response) (.serverReads (answerOf response)) := by
  have hthread : s.server.Connected authenticator := by
    have hserver' := h.server
    rwa [hserver] at hserver'
  obtain ⟨octets, behind, hstream, ⟨session, creator, pdu, hpdu, hoctets⟩, hbehind⟩ :=
    (hread ▸ h.toServer).uncons
  obtain ⟨fuel, turn, hturn, hresult⟩ := IsoConnection.Thread.turn_connect behind env response
    hthread hchecks session creator params.toIsoConnectionParameters params.acseAuthParameter
    params.localPSelector params.remotePSelector request hpdu hoctets (hpdu ▸ hfits)
  rw [← hstream] at hturn
  rw [if_pos hadmits] at hresult
  obtain ⟨hrequest, hassociated, session', hanswers⟩ := hresult
  rw [Response, h.serverGot, if_pos hgot] at hresponse
  obtain ⟨hnil, hcpa⟩ := hresponse
  rw [answerOf, if_neg hnil]
  refine ⟨fuel, _, _, next_serverReads hturn, ?_, .accept hadmits hserver hread⟩
  have hne : turn.request ≠ none := by
    rw [hrequest]
    exact Option.some_ne_none _
  refine ⟨h.client, hassociated, hbehind, ?_, h.released, h.clientSent, ?_, h.clientGot, ?_⟩
  · exact h.toClient.snoc ⟨hcpa, session', hanswers.message hnil⟩
  · rw [← h.serverSent, served, if_pos ⟨hne, hnil⟩]
  · rw [← h.serverGot, served, hrequest]
    rfl

/-- The server reads the associate request, and gives the connection up. -/
theorem Represents.refuse (hserver : a.server = .connected) (hread : a.toServer = [.connect request])
    (hchecks : Checks authenticator check) (hfits : (connectPdu params request).length ≤ 233)
    (hadmits : ¬ check (credentials params.acseAuthParameter) = true) :
    Matches params payload authenticator (check (credentials params.acseAuthParameter)) s a
      (.serverReads env response) (.serverReads (answerOf response)) := by
  have hthread : s.server.Connected authenticator := by
    have hserver' := h.server
    rwa [hserver] at hserver'
  obtain ⟨octets, behind, hstream, ⟨session, creator, pdu, hpdu, hoctets⟩, hbehind⟩ :=
    (hread ▸ h.toServer).uncons
  obtain ⟨fuel, turn, hturn, hresult⟩ := IsoConnection.Thread.turn_connect behind env response
    hthread hchecks session creator params.toIsoConnectionParameters params.acseAuthParameter
    params.localPSelector params.remotePSelector request hpdu hoctets (hpdu ▸ hfits)
  rw [← hstream] at hturn
  rw [if_neg hadmits] at hresult
  obtain ⟨hrequest, hstopped, hsent⟩ := hresult
  refine ⟨fuel, _, _, next_serverReads hturn, ?_,
    .refuse (Bool.not_eq_true _ ▸ hadmits) hserver hread⟩
  refine ⟨h.client, hstopped, hbehind, ?_, h.released, h.clientSent, ?_, h.clientGot, ?_⟩
  · rw [served, hsent, List.append_nil]
    exact h.toClient
  · rw [← h.serverSent, served, unanswered_eq response hrequest, List.append_nil]
  · rw [← h.serverGot, served, hrequest, Option.toList_none, List.append_nil]

/-- The server sends a message of its own. -/
theorem Represents.serverSend (hserver : a.server = .associated) (hfits : Fits message) :
    Matches params payload authenticator admits s a (.serverSends message)
      (.serverSends message) := by
  have hthread : s.server.Associated := by
    have hserver' := h.server
    rwa [hserver] at hserver'
  obtain ⟨octets, hsend, hoctets⟩ := hthread.sendMessage_ok hfits
  refine ⟨0, { s with toClient := s.toClient ++ octets, serverSent := s.serverSent ++ [message] },
    _, ?_, ?_, .serverSend hserver⟩
  · rw [next, hsend]
    rfl
  · exact ⟨h.client, h.server, h.toServer, h.toClient.snoc ⟨hfits, hoctets⟩, h.released,
      h.clientSent, congrArg (· ++ [message]) h.serverSent, h.clientGot, h.serverGot⟩

end Server

section Client

variable {request : List UInt8} {rest : List (Message (List UInt8))} {admits : Bool}
  (h : Represents params authenticator s a)
include h

theorem Represents.associated (hclient : a.client = .associated ∨ a.client = .releasing) :
    s.client.Associated := by
  have hclient' := h.client
  rcases hclient with hclient | hclient
  · rwa [hclient] at hclient'
  · rwa [hclient] at hclient'

theorem Represents.associating (hclient : a.client = .associating) : s.client.Associating := by
  have hclient' := h.client
  rwa [hclient] at hclient'

/-- The release goes on as it is. -/
theorem Represents.not_released (hclient : a.client ≠ .releasing ∧ a.client ≠ .closed) :
    s.released = false := by
  rw [← Bool.not_eq_true, h.released]
  exact not_or_intro hclient.1 hclient.2

/-- The client reads the answer to its connection request. -/
theorem Represents.connect (hclient : a.client = .connecting)
    (hread : a.toClient = [.connectionConfirm]) (hpayload : payload ≠ []) :
    Matches params payload authenticator admits s a (.clientReads env) .clientReads := by
  have hconnecting : s.client.Connecting := by
    have hclient' := h.client
    rwa [hclient] at hclient'
  obtain ⟨octets, behind, hstream, ⟨destination, source, rfl⟩, hbehind⟩ :=
    (hread ▸ h.toClient).uncons
  obtain rfl := hbehind.eq_nil
  rw [List.append_nil] at hstream
  obtain ⟨turn, session, creator, pdu, hturn, hassociating, hreceived, hpdu, hsent⟩ :=
    IsoClientConnection.Client.turn_connecting env 0 params hconnecting hpayload destination source
  rw [← hstream] at hturn
  refine ⟨0, _, _, next_clientReads hturn, ?_, .connect hclient hread⟩
  refine ⟨hassociating, h.server, h.toServer.snoc ⟨session, creator, pdu, hpdu, hsent⟩, .nil, ?_,
    h.clientSent, h.serverSent, ?_, h.serverGot⟩
  · have hreleased : s.released = false :=
      h.not_released (by rw [hclient]; exact ⟨(fun h => nomatch h), fun h => nomatch h⟩)
    exact iff_of_false (by rw [read, hreleased]; exact Bool.false_ne_true)
      (not_or_intro (fun h => nomatch h) fun h => nomatch h)
  · rw [← h.clientGot, read, hreceived, Option.toList_none, List.append_nil]

/-- The client reads the answer to its associate request. -/
theorem Represents.associate (hclient : a.client = .associating)
    (hread : a.toClient = .accept request :: rest) :
    Matches params payload authenticator admits s a (.clientReads env) .clientReads := by
  obtain ⟨octets, behind, hstream, ⟨hfits, session, hoctets⟩, hbehind⟩ :=
    (hread ▸ h.toClient).uncons
  obtain ⟨fuel, turn, hturn, hassociated, hreceived, hsent⟩ :=
    IsoClientConnection.Client.turn_associating env params payload (h.associating hclient) session
      hfits hoctets behind
  rw [← hstream] at hturn
  refine ⟨fuel, _, _, next_clientReads hturn, ?_, .associate hclient hread⟩
  refine ⟨hassociated, h.server, ?_, hbehind, ?_, h.clientSent, h.serverSent, ?_, h.serverGot⟩
  · rw [read, hsent, List.append_nil]
    exact h.toServer
  · have hreleased : s.released = false :=
      h.not_released (by rw [hclient]; exact ⟨(fun h => nomatch h), fun h => nomatch h⟩)
    exact iff_of_false (by rw [read, hreleased]; exact Bool.false_ne_true)
      (not_or_intro (fun h => nomatch h) fun h => nomatch h)
  · rw [← h.clientGot, read, hreceived]
    rfl

/-- The client sees that the server has given the connection up. -/
theorem Represents.fail (hclient : a.client = .associating) (hread : a.toClient = [])
    (hserver : a.server = .stopped) :
    Matches params payload authenticator admits s a (.clientReads env) .clientReads := by
  have hstream : s.toClient = [] := (hread ▸ h.toClient).eq_nil
  obtain ⟨turn, hturn, hphase, hreceived, hsent⟩ :=
    IsoClientConnection.Client.turn_nil env 0 params payload (h.associating hclient)
  rw [← hstream] at hturn
  refine ⟨0, _, _, next_clientReads hturn, ?_, .fail hclient hread hserver⟩
  refine ⟨hphase, h.server, ?_, h.toClient, ?_, h.clientSent, h.serverSent, ?_, h.serverGot⟩
  · rw [read, hsent, List.append_nil]
    exact h.toServer
  · have hreleased : s.released = false :=
      h.not_released (by rw [hclient]; exact ⟨(fun h => nomatch h), fun h => nomatch h⟩)
    exact iff_of_false (by rw [read, hreleased]; exact Bool.false_ne_true)
      (not_or_intro (fun h => nomatch h) fun h => nomatch h)
  · rw [← h.clientGot, read, hreceived, Option.toList_none, List.append_nil]

/-- The client reads data. -/
theorem Represents.receive (hclient : a.client = .associated ∨ a.client = .releasing)
    (hread : a.toClient = .data request :: rest) :
    Matches params payload authenticator admits s a (.clientReads env) .clientReads := by
  obtain ⟨octets, behind, hstream, ⟨hfits, hoctets⟩, hbehind⟩ := (hread ▸ h.toClient).uncons
  obtain ⟨turn, hturn, hassociated, hreceived, hsent⟩ :=
    IsoClientConnection.Client.turn_data env 0 params payload (h.associated hclient) hfits hoctets
      behind
  rw [← hstream] at hturn
  refine ⟨0, _, _, next_clientReads hturn, ?_, .receive hclient hread⟩
  refine ⟨?_, h.server, ?_, hbehind, h.released, h.clientSent, h.serverSent, ?_, h.serverGot⟩
  · rcases hclient with hclient | hclient
    · rw [hclient]
      exact hassociated
    · rw [hclient]
      exact hassociated
  · rw [read, hsent, List.append_nil]
    exact h.toServer
  · rw [← h.clientGot, read, hreceived]
    rfl

/-- The client reads a disconnect message. -/
theorem Represents.close (hclient : a.client = .releasing) (hread : a.toClient = [.disconnect]) :
    Matches params payload authenticator admits s a (.clientReads env) .clientReads := by
  obtain ⟨octets, behind, hstream, hoctets, hbehind⟩ := (hread ▸ h.toClient).uncons
  obtain ⟨turn, hturn, hphase, hreceived, hsent⟩ :=
    IsoClientConnection.Client.turn_disconnect env 0 params payload (h.associated (.inr hclient))
      hoctets behind
  rw [← hstream] at hturn
  refine ⟨0, _, _, next_clientReads hturn, ?_, .close hclient hread⟩
  refine ⟨hphase, h.server, ?_, hbehind, ?_, h.clientSent, h.serverSent, ?_, h.serverGot⟩
  · rw [read, hsent, List.append_nil]
    exact h.toServer
  · exact iff_of_true (h.released.mpr (.inl hclient)) (.inr rfl)
  · rw [← h.clientGot, read, hreceived, Option.toList_none, List.append_nil]

theorem Represents.clientSend (hclient : a.client = .associated) (hfits : Fits message) :
    Matches params payload authenticator admits s a (.clientSends message)
      (.clientSends message) := by
  obtain ⟨octets, hsend, hoctets⟩ := (h.associated (.inl hclient)).sendMessage_ok hfits
  refine ⟨0, { s with toServer := s.toServer ++ octets, clientSent := s.clientSent ++ [message] },
    _, ?_, ?_, .clientSend hclient⟩
  · rw [next, hsend]
    rfl
  · exact ⟨h.client, h.server, h.toServer.snoc ⟨hfits, hoctets⟩, h.toClient, h.released,
      congrArg (· ++ [message]) h.clientSent, h.serverSent, h.clientGot, h.serverGot⟩

theorem Represents.release (hclient : a.client = .associated) :
    Matches params payload authenticator admits s a .clientReleases .clientReleases := by
  obtain ⟨octets, hsend, hoctets⟩ := (h.associated (.inl hclient)).release_ok
  refine ⟨0, { s with toServer := s.toServer ++ octets, released := true }, _, ?_, ?_,
    .release hclient⟩
  · rw [next, hsend]
    rfl
  · exact ⟨h.associated (.inl hclient), h.server, h.toServer.snoc hoctets, h.toClient,
      iff_of_true rfl (.inl rfl), h.clientSent, h.serverSent, h.clientGot, h.serverGot⟩

end Client

/-! ## Runs -/

/-- The step of the protocol that an event is. -/
def actionOf : IsoEvent → Action (List UInt8)
  | .serverReads _ response => .serverReads (answerOf response)
  | .serverSends message => .serverSends message
  | .clientReads _ => .clientReads
  | .clientSends message => .clientSends message
  | .clientReleases => .clientReleases

theorem Represents.running_iff (h : Represents params authenticator s a) :
    s.server.connection.running = false ↔ a.server = .stopped := by
  have hserver := h.server
  cases hphase : a.server with
  | waiting =>
    rw [hphase] at hserver
    rw [show s.server = _ from hserver]
    exact iff_of_false Bool.true_eq_false.mp fun h => nomatch h
  | connected | associated =>
    rw [hphase] at hserver
    rw [hserver.running]
    exact iff_of_false (fun h => nomatch h) fun h => nomatch h
  | stopped =>
    rw [hphase] at hserver
    exact iff_of_true hserver rfl

/-- What the client itself knows of the phase. -/
def phaseOf : ClientPhase → IsoClientConnection.Phase
  | .connecting => .connecting
  | .associating => .associating
  | .associated | .releasing => .associated
  | .closed => .closed
  | .failed => .failed

theorem Represents.phase (h : Represents params authenticator s a) :
    s.client.phase = phaseOf a.client := by
  have hclient := h.client
  cases hphase : a.client with
  | connecting | associating | associated | releasing =>
    rw [hphase] at hclient
    exact hclient.phase
  | closed | failed =>
    rw [hphase] at hclient
    exact hclient

theorem phaseOf_associated_iff {phase : ClientPhase} :
    phaseOf phase = .associated ↔ phase = .associated ∨ phase = .releasing := by
  cases phase <;> simp [phaseOf]

theorem phaseOf_closed_iff {phase : ClientPhase} : phaseOf phase = .closed ↔ phase = .closed := by
  cases phase <;> simp [phaseOf]

theorem phaseOf_failed_iff {phase : ClientPhase} : phaseOf phase = .failed ↔ phase = .failed := by
  cases phase <;> simp [phaseOf]

theorem Represents.serverReads (h : Represents params authenticator s a)
    (ha : a.Reached (check (credentials params.acseAuthParameter)) payload)
    (hchecks : Checks authenticator check) (hfits : (connectPdu params payload).length ≤ 233)
    (hg : s.Enabled (.serverReads env response)) :
    Matches params payload authenticator (check (credentials params.acseAuthParameter)) s a
      (.serverReads env response) (.serverReads (answerOf response)) := by
  obtain ⟨hrunning, hread, hresponse⟩ := hg
  have hserver : a.server ≠ .stopped := by
    rw [Ne, ← h.running_iff, hrunning]
    exact Bool.true_eq_false.mp
  have hne : a.toServer ≠ [] := (h.toServer.ne_nil_iff (Encodes.ne_nil params)).mp hread
  obtain ⟨hserver, hread⟩ | ⟨hserver, hread, hgot⟩ | ⟨hserver, request, rest, hread⟩ |
    ⟨hserver, hread⟩ := ha.toServer_cases hserver hne
  · exact h.confirm hserver hread
  · by_cases hadmits : check (credentials params.acseAuthParameter) = true
    · exact h.accept hserver hread hgot hresponse hchecks hfits hadmits
    · exact h.refuse hserver hread hchecks hfits hadmits
  · exact h.serve hserver hread hresponse
  · exact h.disconnect hserver hread

theorem Represents.clientReads (h : Represents params authenticator s a)
    (ha : a.Reached (check (credentials params.acseAuthParameter)) payload)
    (hpayload : payload ≠ []) (hg : s.Enabled (.clientReads env)) :
    Matches params payload authenticator (check (credentials params.acseAuthParameter)) s a
      (.clientReads env) .clientReads := by
  obtain ⟨hclosed, hfailed, hread⟩ := hg
  rw [h.phase, Ne, phaseOf_closed_iff] at hclosed
  rw [h.phase, Ne, phaseOf_failed_iff] at hfailed
  have hne : a.toClient ≠ [] ∨ a.server = .stopped :=
    hread.imp (h.toClient.ne_nil_iff (Encodes.ne_nil params)).mp h.running_iff.mp
  obtain ⟨hclient, hread⟩ | ⟨hclient, request, rest, hread⟩ | ⟨hclient, hread, hserver⟩ |
    ⟨hclient, request, rest, hread⟩ | ⟨hclient, hread⟩ :=
      ha.toClient_cases ⟨hclosed, hfailed⟩ hne
  · exact h.connect hclient hread hpayload
  · exact h.associate hclient hread
  · exact h.fail hclient hread hserver
  · exact h.receive hclient hread
  · exact h.close hclient hread

theorem Represents.still_associated (h : Represents params authenticator s a)
    (hphase : s.client.phase = .associated) (hreleased : s.released = false) :
    a.client = .associated := by
  rw [h.phase, phaseOf_associated_iff] at hphase
  rcases hphase with hclient | hclient
  · exact hclient
  · have htrue := h.released.mpr (.inl hclient)
    rw [hreleased] at htrue
    cases htrue

theorem Represents.serverSends (h : Represents params authenticator s a)
    (ha : a.Reached (check (credentials params.acseAuthParameter)) payload)
    (hg : s.Enabled (.serverSends message)) :
    Matches params payload authenticator (check (credentials params.acseAuthParameter)) s a
      (.serverSends message) (.serverSends message) := by
  obtain ⟨hrunning, hgot, hmessage⟩ := hg
  rw [h.serverGot] at hgot
  have hserver : a.server ≠ .stopped := by
    rw [Ne, ← h.running_iff, hrunning]
    exact Bool.true_eq_false.mp
  exact h.serverSend (ha.associated_of_got hserver hgot) hmessage

/-- What happens does not depend on the fuel. -/
theorem next_mono (params : ClientParameters) (payload : List UInt8) (s : IsoSystem)
    (e : IsoEvent) : FuelMonotone fun fuel => next params payload fuel s e := by
  cases e with
  | serverReads env response =>
    apply FuelMonotone.bind (IsoConnection.Thread.turn_mono env response s.server s.toServer)
    exact fun _ => FuelMonotone.const _
  | clientReads env =>
    apply FuelMonotone.bind
      (IsoClientConnection.Client.turn_mono env params payload s.client s.toClient)
    exact fun _ => FuelMonotone.const _
  | _ => exact FuelMonotone.const _

/-- What an association needs: a payload whose associate request fits into a connect SPDU, and an
authenticator that looks at the password alone. -/
structure Associable (params : ClientParameters) (payload : List UInt8)
    (authenticator : AcseAuthenticator) (check : Option (List UInt8) → Bool) : Prop where
  ne_nil : payload ≠ []
  checks : Checks authenticator check
  fits : (connectPdu params payload).length ≤ 233

section Runs

/-- The parties are where the protocol can be. -/
def Simulates (params : ClientParameters) (payload : List UInt8)
    (authenticator : AcseAuthenticator) (check : Option (List UInt8) → Bool) (s : IsoSystem)
    (a : State (List UInt8)) : Prop :=
  Represents params authenticator s a ∧
    a.Reached (check (credentials params.acseAuthParameter)) payload

variable (hsound : Associable params payload authenticator check)
include hsound

/-- Every step that can be taken is one of the protocol. -/
theorem Represents.step (h : Represents params authenticator s a)
    (ha : a.Reached (check (credentials params.acseAuthParameter)) payload) {e : IsoEvent}
    (hg : s.Enabled e) :
    Matches params payload authenticator (check (credentials params.acseAuthParameter)) s a e
      (actionOf e) := by
  cases e with
  | serverReads env response => exact h.serverReads ha hsound.checks hsound.fits hg
  | serverSends message => exact h.serverSends ha hg
  | clientReads env => exact h.clientReads ha hsound.ne_nil hg
  | clientSends message =>
    obtain ⟨hphase, hreleased, hmessage⟩ := hg
    exact h.clientSend (h.still_associated hphase hreleased) hmessage
  | clientReleases =>
    obtain ⟨hphase, hreleased⟩ := hg
    exact h.release (h.still_associated hphase hreleased)

theorem Simulates.step (h : Simulates params payload authenticator check s a) {e : IsoEvent}
    (hg : s.Enabled e) (hs : s.Step params payload e t) :
    ∃ b, a.Step (check (credentials params.acseAuthParameter)) payload (actionOf e) b ∧
      Simulates params payload authenticator check t b := by
  obtain ⟨fuel, t', b, hnext, hb, hstep⟩ := h.1.step hsound h.2 hg
  obtain ⟨fuel', hs⟩ := hs
  obtain rfl := (next_mono params payload s e).unique hnext hs
  exact ⟨b, hstep, hb, h.2.step hstep⟩

theorem Simulates.enabled (h : Simulates params payload authenticator check s a) {e : IsoEvent}
    (hg : s.Enabled e) : ∃ t, s.Step params payload e t := by
  obtain ⟨fuel, t, b, hnext, -⟩ := h.1.step hsound h.2 hg
  exact ⟨t, fuel, hnext⟩

theorem Simulates.run {events : List IsoEvent} (h : Simulates params payload authenticator check s a)
    (hr : Transition.Run (Step params payload) Enabled s events t) :
    ∃ b, Simulates params payload authenticator check t b := by
  obtain ⟨-, b, -, hb⟩ := hr.simulated h fun s e t a h hg hs => by
    obtain ⟨b, hstep, hb⟩ := h.step hsound hg hs
    exact ⟨actionOf e, b, hstep, hb⟩
  exact ⟨b, hb⟩

end Runs

/-- `clientAuthenticator` of the example server, with its passwords. -/
def clientAuthenticator (passwords : List (List UInt8)) (buffer : Memory) :
    AcseAuthenticationParameter → Bool
  | .none => false
  | .password value => (value.octets buffer).toOption.any passwords.contains

theorem clientAuthenticator_checks (passwords : List (List UInt8)) :
    Checks (clientAuthenticator passwords) fun password => password.any passwords.contains where
  noPassword _ := rfl
  password buffer value octets h := by
    rw [clientAuthenticator, h.octets]
    rfl

/-- A client that has the second of two passwords. -/
def smallParams : ClientParameters where
  remoteApTitle := ⟨[0x29, 0x01], 12, by decide⟩
  localApTitle := ⟨[0x29, 0x02], 12, by decide⟩
  acseAuthParameter := some (.password [0x75, 0x73, 0x65, 0x72])
  remoteTSelector := 1
  localPSelector := 1
  remotePSelector := 1

def smallPasswords : List (List UInt8) := [[0x75, 0x31], [0x75, 0x73, 0x65, 0x72]]

theorem smallParams_associable : Associable smallParams [0xa8, 0x00]
    (clientAuthenticator smallPasswords) fun password => password.any smallPasswords.contains where
  ne_nil := List.cons_ne_nil _ _
  checks := clientAuthenticator_checks smallPasswords
  fits := by decide

/-- At the start a connection request is on its way. -/
theorem start_simulates (params : ClientParameters) (payload : List UInt8)
    (authenticator : AcseAuthenticator) (check : Option (List UInt8) → Bool) :
    ∃ s, start params payload authenticator = .ok s ∧
      Simulates params payload authenticator check s (.start payload) := by
  obtain ⟨client, destination, source, hstart, hconnecting⟩ :=
    IsoClientConnection.Client.start_connecting params
  refine ⟨⟨client, IsoConnection.Thread.start authenticator,
    CotpConnection.connectTpdu 0xe0 (0, 2) destination source, [], false, [payload], [], [], []⟩,
    ?_, ⟨hconnecting, rfl, .singleton ⟨destination, source, rfl⟩, .nil, ?_, rfl, rfl, rfl, rfl⟩,
    .requested⟩
  · rw [start, hstart]
    rfl
  · exact iff_of_false (fun h => nomatch h) fun h => by rcases h with h | h <;> cases h

/-! ## What the two sides can rely on -/

/-- One side reads the next message, whatever there is behind it in the buffers and whatever the
handler answers. -/
def Reads (params : ClientParameters) (payload : List UInt8) (s t : IsoSystem) : Prop :=
  ∃ e, (∃ env, e = .clientReads env ∨ ∃ response, e = .serverReads env response) ∧ s.Enabled e ∧
    s.Step params payload e t

theorem exists_response (s : IsoSystem) : ∃ response, s.Response response := by
  by_cases hgot : s.serverGot = []
  · refine ⟨[0], ?_⟩
    rw [Response, if_pos hgot]
    exact ⟨List.cons_ne_nil _ _, by decide⟩
  · refine ⟨[], ?_⟩
    rw [Response, if_neg hgot]
    exact Nat.zero_le _

theorem Simulates.reads (hsound : Associable params payload authenticator check)
    (h : Simulates params payload authenticator check s a) (hr : s.Reads params payload t) :
    ∃ b, State.Reads (check (credentials params.acseAuthParameter)) payload a b ∧
      Simulates params payload authenticator check t b := by
  obtain ⟨e, ⟨env, hread⟩, hg, hs⟩ := hr
  obtain ⟨b, hstep, hb⟩ := h.step hsound hg hs
  refine ⟨b, ?_, hb⟩
  rcases hread with rfl | ⟨response, rfl⟩
  · exact .inl hstep
  · exact .inr ⟨_, hstep⟩

/-- Where the protocol can go on reading, the parties can. -/
theorem Simulates.exists_reads (hsound : Associable params payload authenticator check)
    (h : Simulates params payload authenticator check s a) {b : State (List UInt8)}
    (hr : State.Reads (check (credentials params.acseAuthParameter)) payload a b) :
    ∃ t, s.Reads params payload t := by
  let env : IsoClientConnection.Environment := ⟨⟨0, fun _ => 0⟩, fun _ => 0⟩
  rcases hr with hr | ⟨answer, hr⟩
  · obtain ⟨⟨hclosed, hfailed⟩, hread⟩ := hr.clientReads_enabled
    have hg : s.Enabled (.clientReads env) := by
      refine ⟨?_, ?_, hread.imp (h.1.toClient.ne_nil_iff (Encodes.ne_nil params)).mpr
        h.1.running_iff.mpr⟩
      · rwa [h.1.phase, Ne, phaseOf_closed_iff]
      · rwa [h.1.phase, Ne, phaseOf_failed_iff]
    obtain ⟨t, ht⟩ := h.enabled hsound hg
    exact ⟨t, _, ⟨env, .inl rfl⟩, hg, ht⟩
  · obtain ⟨hserver, hread⟩ := hr.serverReads_enabled
    obtain ⟨response, hresponse⟩ := exists_response s
    have hg : s.Enabled (.serverReads env response) := by
      refine ⟨?_, (h.1.toServer.ne_nil_iff (Encodes.ne_nil params)).mpr hread, hresponse⟩
      rw [← Bool.not_eq_false, h.1.running_iff]
      exact hserver
    obtain ⟨t, ht⟩ := h.enabled hsound hg
    exact ⟨t, _, ⟨env, .inr ⟨response, rfl⟩⟩, hg, ht⟩

theorem Simulates.inevitable (hsound : Associable params payload authenticator check)
    (h : Simulates params payload authenticator check s a) {goal : IsoSystem → Prop}
    {goal' : State (List UInt8) → Prop}
    (hgoal : ∀ s a, Simulates params payload authenticator check s a → goal' a → goal s)
    (hi : Transition.Inevitable
      (State.Reads (check (credentials params.acseAuthParameter)) payload) goal' a) :
    Transition.Inevitable (Reads params payload) goal s :=
  hi.simulated h hgoal (fun _ _ _ h hr => h.exists_reads hsound hr) fun _ _ _ h hr =>
    h.reads hsound hr

/-- The client has an association if the authenticator takes its password, and none if not. -/
def Decided (params : ClientParameters) (check : Option (List UInt8) → Bool) (s : IsoSystem) :
    Prop :=
  s.client.phase =
    if check (credentials params.acseAuthParameter) = true then .associated else .failed

/-- From wherever a run comes to before a release: when both sides read on, in whatever order, it is
decided by the password alone whether there is an association. -/
theorem association_decided (h : Associable params payload authenticator check) :
    ∃ s₀, start params payload authenticator = .ok s₀ ∧ ∀ events s,
      Transition.Run (Step params payload) Enabled s₀ events s → s.released = false →
        Transition.Inevitable (Reads params payload) (Decided params check) s := by
  obtain ⟨s₀, hstart, hs₀⟩ := start_simulates params payload authenticator check
  refine ⟨s₀, hstart, fun events s hrun hreleased => ?_⟩
  obtain ⟨a, ha⟩ := hs₀.run h hrun
  have hunreleased : a.Unreleased := by
    have hnot : ¬ s.released = true := by rw [hreleased]; exact Bool.false_ne_true
    rw [ha.1.released, not_or] at hnot
    exact hnot
  refine ha.inevitable h (fun s a hs hd => ?_) (ha.2.decided hunreleased)
  rw [State.Decided] at hd
  rw [Decided, hs.1.phase]
  split at hd
  · next hadmits => rw [if_pos hadmits, hd]; rfl
  · next hadmits => rw [if_neg hadmits, hd]; rfl

/-- The second of the passwords is taken. -/
theorem smallAssociation_decided :
    ∃ s₀, start smallParams [0xa8, 0x00] (clientAuthenticator smallPasswords) = .ok s₀ ∧
      ∀ events s, Transition.Run (Step smallParams [0xa8, 0x00]) Enabled s₀ events s →
        s.released = false → Transition.Inevitable (Reads smallParams [0xa8, 0x00])
          (Decided smallParams fun password => password.any smallPasswords.contains) s :=
  association_decided smallParams_associable

end IsoSystem

end Iec61850
