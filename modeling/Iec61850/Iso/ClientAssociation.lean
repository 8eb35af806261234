import Iec61850.Transport.Cotp
import Iec61850.Iso.ReceiveBuffer
import Iec61850.Iso.Session
import Iec61850.Iso.Presentation
import Iec61850.Iso.Acse

/-! `iso_client_connection.c`: what the client makes of the peer's answers to its association. What
it sends itself has no part in that. -/

namespace Iec61850

open Machine Transport

namespace IsoClientConnection

/-- In addition what shifts by the width and more give. -/
structure Environment extends IsoEnvironment where
  wideShift : UInt8 → Int

/-- As the connection is before the answer to the COTP connection request. -/
def cotpConnection : CotpConnection :=
  CotpConnection.init ⟨[], isoBufferSize, Nat.zero_le _⟩

inductive Report
  | associationSuccess (userData : Option Region)
  | associationFailed
  deriving DecidableEq

/-- As the presentation is before the answer to the connect PDU. -/
def isoPresentation : IsoPresentation :=
  { IsoPresentation.init with acseContextId := 1, mmsContextId := 3 }

/-- The message that is at the null pointer when the presentation has found none. -/
def nextPayload (presentation : IsoPresentation) : Exec Region :=
  match presentation.nextPayload with
  | none => .error .nullPointer
  | some payload => .ok payload

def getUserData (session : IsoSession) : Exec Region :=
  match session.userData with
  | none => .error .nullPointer
  | some userData => .ok userData

/-- The part of `IsoClientConnection_associate` above the transport. -/
def associateUpperLayers (env : Environment) (fuel : Nat) (message : List UInt8) :
    Exec Report := do
  let buffer := env.receiveBuffer message
  let (sessionIndication, session) ←
    IsoSession.parseMessage buffer message.length IsoSession.init
  if sessionIndication ≠ .connect then return .associationFailed
  let userData ← getUserData session
  let (ok, presentation) ← IsoPresentation.parseAcceptMessage (userData.memory buffer)
    env.uninitialised fuel userData.size isoPresentation
  if ok = false then return .associationFailed
  let payload ← nextPayload presentation
  -- what is indicated is not looked at
  let (_, acseConnection) ← AcseConnection.parseMessage (payload.memory (userData.memory buffer))
    env.uninitialised fuel payload.size (AcseConnection.init none)
  return .associationSuccess acseConnection.userDataBuffer

/-- `IsoClientConnection_associate`, from the answer to the COTP connection request on. -/
def associate (env : Environment) (fuel : Nat) (peer : Stream) : Exec Report := do
  let (cotpIndication, cotp, peer) ← cotpConnection.parseIncomingMessage env.wideShift peer
  if cotpIndication ≠ .connectIndication then return .associationFailed
  let (cotpIndication, cotp, _) ← cotp.parseIncomingMessage env.wideShift peer
  if cotpIndication ≠ .dataIndication then return .associationFailed
  associateUpperLayers env fuel cotp.payload.octets

section Answers

variable (env : Environment) (peer : Stream)

/-- The peer connects, and this is the message that it sends then. -/
def Receives (message : List UInt8) : Prop :=
  ∃ cotp rest cotp' rest',
    cotpConnection.parseIncomingMessage env.wideShift peer =
      .ok (.connectIndication, cotp, rest) ∧
    cotp.parseIncomingMessage env.wideShift rest = .ok (.dataIndication, cotp', rest') ∧
    cotp'.payload.octets = message

/-- The session is connected by the message, which has these user data. -/
def SessionConnects (message : List UInt8) (userData : Region) : Prop :=
  ∃ session, IsoSession.parseMessage (env.receiveBuffer message) message.length IsoSession.init =
    .ok (.connect, session) ∧ session.userData = some userData

/-- The presentation takes the user data for accepted or not. -/
def PresentationAnswers (message : List UInt8) (userData : Region) (ok : Bool)
    (payload : Option Region) : Prop :=
  ∃ fuel presentation, IsoPresentation.parseAcceptMessage
    (userData.memory (env.receiveBuffer message)) env.uninitialised fuel userData.size
    isoPresentation = .ok (ok, presentation) ∧ presentation.nextPayload = payload

/-- The ACSE message is an associate response with these elements. -/
def IsAare (buffer : Memory) (size : Int) (state : AcseConnection.AareState) : Prop :=
  buffer 0 = some 0x61 ∧ ∃ bufPos len fuel next,
    BerDecoder.decodeLength buffer env.uninitialised 1 size = .ok (bufPos, len) ∧ 0 ≤ bufPos ∧
    BerDecoder.parseElements buffer env.uninitialised size false
      (AcseConnection.aareElement buffer env.uninitialised fuel size) fuel bufPos
      ⟨99, false, AcseConnection.init none⟩ = .ok (next, state)

/-- The type of the first TPDU says that it confirms the connection. -/
def IsConnectConfirm : Prop := peer[5]? = some 0xd0

/-- A session message that accepts. -/
def IsAcceptSpdu (message : List UInt8) : Prop := message[0]? = some 14

/-- All four answers are there and are what they should be, and the associate response says that
the association is accepted. -/
inductive Accepts : Prop
  | intro {message : List UInt8} {userData payload : Region} {state : AcseConnection.AareState}
    (transport : IsConnectConfirm peer) (received : Receives env peer message)
    (accept : IsAcceptSpdu message) (session : SessionConnects env message userData)
    (presentation : PresentationAnswers env message userData true (some payload))
    (aare : IsAare env (payload.memory (userData.memory (env.receiveBuffer message)))
      payload.size state)
    (valid : state.userInfoValid = true) (result : state.result = 0)

/-- One of the layers below ACSE is not content with what the peer has sent. -/
inductive Refuses : Prop
  | connection {indication : CotpIndication} {cotp : CotpConnection} {rest : Stream}
    (first : cotpConnection.parseIncomingMessage env.wideShift peer = .ok (indication, cotp, rest))
    (ne : indication ≠ .connectIndication)
  | transport {cotp cotp' : CotpConnection} {rest rest' : Stream} {indication : CotpIndication}
    (first : cotpConnection.parseIncomingMessage env.wideShift peer =
      .ok (.connectIndication, cotp, rest))
    (second : cotp.parseIncomingMessage env.wideShift rest = .ok (indication, cotp', rest'))
    (ne : indication ≠ .dataIndication)
  | session {message : List UInt8} {indication : IsoSessionIndication} {session : IsoSession}
    (received : Receives env peer message)
    (parsed : IsoSession.parseMessage (env.receiveBuffer message) message.length IsoSession.init =
      .ok (indication, session)) (ne : indication ≠ .connect)
  | presentation {message : List UInt8} {userData : Region} {payload : Option Region}
    (received : Receives env peer message) (session : SessionConnects env message userData)
    (parsed : PresentationAnswers env message userData false payload)

/-- Success is reported only when the association is accepted, failure otherwise. -/
def Sound : Prop :=
  ∃ fuel report, associate env fuel peer = .ok report ∧
    (report ≠ .associationFailed → Accepts env peer) ∧
    (¬ Accepts env peer → report = .associationFailed)

end Answers

variable {env : Environment} {peer : Stream} {fuel : Nat}

theorem getUserData_ok {session : IsoSession} {userData : Region} :
    getUserData session = .ok userData ↔ session.userData = some userData := by
  rw [getUserData]
  cases session.userData with
  | none => simp
  | some data => simp

theorem nextPayload_ok {presentation : IsoPresentation} {payload : Region} :
    nextPayload presentation = .ok payload ↔ presentation.nextPayload = some payload := by
  rw [nextPayload]
  cases presentation.nextPayload with
  | none => simp
  | some data => simp

/-- How the part above the transport can end. -/
theorem associateUpperLayers_ok {message : List UInt8} {report : Report}
    (hr : Receives env peer message) (h : associateUpperLayers env fuel message = .ok report) :
    report = .associationFailed → Refuses env peer := by
  rintro rfl
  obtain ⟨⟨indication, session⟩, hsession, h⟩ := bind_ok h
  dsimp only at h
  by_cases heq : indication = .connect
  · subst heq
    obtain ⟨userData, huser, h⟩ := bind_ok h
    obtain ⟨⟨ok, presentation⟩, hpresentation, h⟩ := bind_ok h
    cases ok with
    | false =>
      exact .presentation hr ⟨session, hsession, getUserData_ok.mp huser⟩
        ⟨fuel, presentation, hpresentation, rfl⟩
    | true =>
      obtain ⟨payload, _, h⟩ := bind_ok h
      obtain ⟨_, _, h⟩ := bind_ok h
      cases h
  · exact .session hr hsession heq

/-- Failure is reported when a layer below ACSE refuses. -/
theorem refuses_of_associate (h : associate env fuel peer = .ok .associationFailed) :
    Refuses env peer := by
  obtain ⟨⟨indication, cotp, rest⟩, hfirst, h⟩ := bind_ok h
  dsimp only at h
  by_cases heq : indication = .connectIndication
  · subst heq
    obtain ⟨⟨indication, cotp', rest'⟩, hsecond, h⟩ := bind_ok h
    dsimp only at h
    by_cases heq : indication = .dataIndication
    · subst heq
      exact associateUpperLayers_ok ⟨cotp, rest, cotp', rest', hfirst, hsecond, rfl⟩ h rfl
    · exact .transport hfirst hsecond heq
  · exact .connection hfirst heq

theorem associate_of_receives {message : List UInt8} (h : Receives env peer message) :
    associate env fuel peer = associateUpperLayers env fuel message := by
  obtain ⟨cotp, rest, cotp', rest', hfirst, hsecond, rfl⟩ := h
  rw [associate, hfirst, ok_bind]
  simp only [hsecond, ok_bind]
  rfl

/-- The parser of the associate response says what its elements say. -/
theorem parseMessage_aare {buffer : Memory} {size : Int} {state : AcseConnection.AareState}
    (h : IsAare env buffer size state) : ∃ fuel,
      AcseConnection.parseMessage buffer env.uninitialised fuel size (AcseConnection.init none) =
        .ok (state.indication, state.connection) := by
  obtain ⟨htag, bufPos, len, fuel, next, hlen, hpos, hparse⟩ := h
  refine ⟨fuel, ?_⟩
  have hread : buffer.read 0 = .ok 0x61 := by rw [Memory.read, htag]
  rw [AcseConnection.parseMessage, hread, ok_bind, hlen, ok_bind]
  simp only [if_neg (Int.not_lt.mpr hpos)]
  rw [AcseConnection.parseAarePdu, hparse]
  rfl

/-- Who refuses is reported as a failure. -/
theorem associate_of_refuses (h : Refuses env peer) :
    ∃ fuel, associate env fuel peer = .ok .associationFailed := by
  cases h with
  | connection hfirst hne =>
    refine ⟨0, ?_⟩
    rw [associate, hfirst, ok_bind]
    exact if_pos hne
  | transport hfirst hsecond hne =>
    refine ⟨0, ?_⟩
    rw [associate, hfirst, ok_bind]
    simp only [hsecond, ok_bind]
    exact if_pos hne
  | session hr hparsed hne =>
    refine ⟨0, ?_⟩
    rw [associate_of_receives hr, associateUpperLayers, hparsed, ok_bind]
    exact if_pos hne
  | presentation hr hsession hparsed =>
    obtain ⟨session, hsession, huser⟩ := hsession
    obtain ⟨fuel, presentation, hparsed, _⟩ := hparsed
    refine ⟨fuel, ?_⟩
    rw [associate_of_receives hr, associateUpperLayers, hsession, ok_bind]
    simp only [getUserData_ok.mpr huser, hparsed, ok_bind]
    rfl

/-- Success is reported as soon as there is an associate response, whatever it says. -/
theorem associate_of_aare {message : List UInt8} {userData payload : Region}
    {state : AcseConnection.AareState} (hr : Receives env peer message)
    (hs : SessionConnects env message userData)
    (hp : PresentationAnswers env message userData true (some payload))
    (ha : IsAare env (payload.memory (userData.memory (env.receiveBuffer message))) payload.size
      state) :
    ∃ fuel, associate env fuel peer =
      .ok (.associationSuccess state.connection.userDataBuffer) := by
  obtain ⟨session, hsession, huser⟩ := hs
  obtain ⟨fuel, presentation, hparsed, hpayload⟩ := hp
  obtain ⟨fuel', hacse⟩ := parseMessage_aare ha
  have hparsed' := IsoPresentation.parseAcceptMessage_mono _ _ (Nat.le_max_left fuel fuel') hparsed
  have hacse' := AcseConnection.parseMessage_mono _ _ (Nat.le_max_right fuel fuel') hacse
  dsimp only at hparsed' hacse'
  refine ⟨max fuel fuel', ?_⟩
  rw [associate_of_receives hr, associateUpperLayers, hsession, ok_bind]
  simp only [getUserData_ok.mpr huser, hparsed', nextPayload_ok.mpr hpayload, hacse', ok_bind]
  rfl

/-- Success is reported for those who accept only, when a layer below ACSE refuses all others. -/
theorem sound_iff (env : Environment) (peer : Stream) :
    Sound env peer ↔ Refuses env peer ∨ Accepts env peer := by
  constructor
  · rintro ⟨fuel, report, hrun, honly, _⟩
    by_cases hfailed : report = .associationFailed
    · subst hfailed
      exact Or.inl (refuses_of_associate hrun)
    · exact Or.inr (honly hfailed)
  · rintro (hrefuses | haccepts)
    · obtain ⟨fuel, hrun⟩ := associate_of_refuses hrefuses
      exact ⟨fuel, _, hrun, fun h => absurd rfl h, fun _ => rfl⟩
    · cases haccepts with
      | @intro message userData payload state transport received accept session presentation aare
          valid result =>
        have haccepts : Accepts env peer :=
          .intro transport received accept session presentation aare valid result
        obtain ⟨fuel, hrun⟩ := associate_of_aare received session presentation aare
        exact ⟨fuel, _, hrun, fun _ => haccepts, fun hnot => absurd haccepts hnot⟩

/-! The answers are determined by what the peer sends. -/

theorem Receives.unique {message message' : List UInt8} (h : Receives env peer message)
    (h' : Receives env peer message') : message = message' := by
  obtain ⟨cotp, rest, first, _, hfirst, hsecond, rfl⟩ := h
  obtain ⟨cotp', rest', first', _, hfirst', hsecond', rfl⟩ := h'
  rw [hfirst] at hfirst'
  cases hfirst'
  rw [hsecond] at hsecond'
  cases hsecond'
  rfl

theorem SessionConnects.unique {message : List UInt8} {userData userData' : Region}
    (h : SessionConnects env message userData) (h' : SessionConnects env message userData') :
    userData = userData' := by
  obtain ⟨session, hsession, huser⟩ := h
  obtain ⟨session', hsession', huser'⟩ := h'
  rw [hsession] at hsession'
  cases hsession'
  exact Option.some.inj (huser.symm.trans huser')

theorem PresentationAnswers.unique {message : List UInt8} {userData : Region} {ok ok' : Bool}
    {payload payload' : Option Region} (h : PresentationAnswers env message userData ok payload)
    (h' : PresentationAnswers env message userData ok' payload') : payload = payload' := by
  obtain ⟨fuel, presentation, hparsed, rfl⟩ := h
  obtain ⟨fuel', presentation', hparsed', rfl⟩ := h'
  cases (IsoPresentation.parseAcceptMessage_mono _ _).unique hparsed hparsed'
  rfl

theorem indication_unique {buffer : Memory} {size : Int} {state state' : AcseConnection.AareState}
    (h : IsAare env buffer size state) (h' : IsAare env buffer size state') :
    state.indication = state'.indication := by
  obtain ⟨fuel, hparse⟩ := parseMessage_aare h
  obtain ⟨fuel', hparse'⟩ := parseMessage_aare h'
  have heq := (AcseConnection.parseMessage_mono _ _).unique hparse hparse'
  exact congrArg Prod.fst heq

theorem associateUpperLayers_mono (env : Environment) (message : List UInt8) :
    FuelMonotone fun fuel => associateUpperLayers env fuel message := by
  apply FuelMonotone.bind (FuelMonotone.const _)
  intro answer
  apply FuelMonotone.ite (FuelMonotone.const _)
  apply FuelMonotone.bind (FuelMonotone.const _)
  intro userData
  apply FuelMonotone.bind (IsoPresentation.parseAcceptMessage_mono _ _)
  intro answer
  apply FuelMonotone.ite (FuelMonotone.const _)
  apply FuelMonotone.bind (FuelMonotone.const _)
  intro payload
  apply FuelMonotone.bind (AcseConnection.parseMessage_mono _ _)
  exact fun _ => FuelMonotone.const _

/-- What is reported does not depend on the fuel. -/
theorem associate_mono (env : Environment) (peer : Stream) :
    FuelMonotone fun fuel => associate env fuel peer := by
  apply FuelMonotone.bind (FuelMonotone.const _)
  intro first
  apply FuelMonotone.ite (FuelMonotone.const _)
  apply FuelMonotone.bind (FuelMonotone.const _)
  intro second
  apply FuelMonotone.ite (FuelMonotone.const _)
  exact associateUpperLayers_mono env _

/-- Whoever answers with an associate response that does not accept is taken for one who does. -/
theorem not_sound_of_aare {message : List UInt8} {userData payload : Region}
    {state : AcseConnection.AareState} (hr : Receives env peer message)
    (hs : SessionConnects env message userData)
    (hp : PresentationAnswers env message userData true (some payload))
    (ha : IsAare env (payload.memory (userData.memory (env.receiveBuffer message))) payload.size
      state) (hne : state.indication ≠ .associate) : ¬ Sound env peer := by
  rintro ⟨fuel, report, hrun, _, hother⟩
  obtain ⟨fuel', hrun'⟩ := associate_of_aare hr hs hp ha
  have hreport := (associate_mono env peer).unique hrun hrun'
  have haccepts : Accepts env peer := by
    by_contra hnot
    rw [hother hnot] at hreport
    cases hreport
  cases haccepts with
  | intro _ received _ session presentation aare valid result =>
    obtain rfl := hr.unique received
    obtain rfl := hs.unique session
    cases hp.unique presentation
    have heq := indication_unique ha aare
    rw [heq] at hne
    rw [AcseConnection.AareState.indication, valid, result] at hne
    exact hne rfl

/-- An associate response with the result 1. -/
def rejectingMessage : List UInt8 :=
  [0x0e, 0x29, 0x05, 0x06, 0x13, 0x01, 0x00, 0x16, 0x01, 0x02, 0xc1, 0x1f,
   0x31, 0x1d, 0xa2, 0x1b, 0x61, 0x19, 0x30, 0x17, 0x02, 0x01, 0x01, 0xa0, 0x12,
   0x61, 0x10, 0xa2, 0x03, 0x02, 0x01, 0x01,
   0xbe, 0x09, 0x28, 0x07, 0x02, 0x01, 0x03, 0xa0, 0x02, 0xa9, 0x00]

def rejectingPeer : Stream :=
  [0x03, 0x00, 0x00, 0x0b, 0x06, 0xd0, 0x00, 0x01, 0x00, 0x02, 0x00] ++
    ([0x03, 0x00, 0x00, 0x32, 0x02, 0xf0, 0x80] ++ rejectingMessage)

def sampleEnvironment : Environment where
  wideShift := fun _ => 0
  uninitialised := 0
  behind := fun _ => 0

set_option maxRecDepth 8000 in
theorem receives_rejecting : Receives sampleEnvironment rejectingPeer rejectingMessage :=
  ⟨_, _, _, _, rfl, rfl, rfl⟩

theorem session_rejecting : SessionConnects sampleEnvironment rejectingMessage ⟨12, 31⟩ :=
  ⟨⟨1, 1, 2, 0, some ⟨12, 31⟩⟩, by decide +kernel, rfl⟩

theorem presentation_rejecting :
    PresentationAnswers sampleEnvironment rejectingMessage ⟨12, 31⟩ true (some ⟨13, 18⟩) :=
  ⟨5, ⟨1, 1, 3, some ⟨13, 18⟩⟩, by decide +kernel, rfl⟩

def rejectingApdu : Memory :=
  Region.memory ⟨13, 18⟩ (Region.memory ⟨12, 31⟩ (sampleEnvironment.receiveBuffer rejectingMessage))

theorem indication_rejecting :
    (BerDecoder.parseElements rejectingApdu 0 18 false
      (AcseConnection.aareElement rejectingApdu 0 5 18) 5 2
      ⟨99, false, AcseConnection.init none⟩).map (fun r => r.2.indication) =
      .ok .associateFailed := by decide +kernel

/-- An association that is rejected is reported as a success. -/
theorem not_sound_rejecting : ¬ Sound sampleEnvironment rejectingPeer := by
  have hindication := indication_rejecting
  cases hparse : BerDecoder.parseElements rejectingApdu 0 18 false
      (AcseConnection.aareElement rejectingApdu 0 5 18) 5 2
      ⟨99, false, AcseConnection.init none⟩ with
  | error e =>
    rw [hparse] at hindication
    cases hindication
  | ok parsed =>
    rw [hparse] at hindication
    have hlen : BerDecoder.decodeLength rejectingApdu 0 1 18 = .ok (2, 16) := by decide +kernel
    have haare : IsAare sampleEnvironment rejectingApdu 18 parsed.2 :=
      ⟨by decide +kernel, 2, 16, 5, parsed.1, hlen, by decide, hparse⟩
    apply not_sound_of_aare receives_rejecting session_rejecting presentation_rejecting haare
    have hfailed : parsed.2.indication = .associateFailed := Except.ok.inj hindication
    rw [hfailed]
    decide

end IsoClientConnection

end Iec61850
