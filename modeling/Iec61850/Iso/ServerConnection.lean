import Iec61850.Lib.Transition
import Iec61850.Iso.ReceiveBuffer
import Iec61850.Iso.Session
import Iec61850.Iso.Presentation
import Iec61850.Iso.Acse

/-! `iso_connection.c`: the messages of one client and what of them is handed to the MMS layer. -/

namespace Iec61850

open Machine

/-- What the COTP connection makes of the next message. -/
inductive CotpMessage
  | connectIndication
  | dataIndication (payload : List UInt8)
  | error
  | other

/-- `running` is the state. The payload of the presentation is a part of the receive buffer here,
whatever message it is of. -/
structure IsoConnection where
  running : Bool
  session : IsoSession
  presentation : IsoPresentation
  acseConnection : AcseConnection

namespace IsoConnection

def create (authenticator : AcseAuthenticator) : IsoConnection where
  running := true
  session := IsoSession.init
  presentation := IsoPresentation.init
  acseConnection := AcseConnection.init (some authenticator)

/-- The payload as it is seen when the buffer starts elsewhere. -/
def movePayload (distance : Int) (presentation : IsoPresentation) : IsoPresentation :=
  { presentation with
    nextPayload := presentation.nextPayload.map fun r => ⟨r.start + distance, r.size⟩ }

/-- A parser of the presentation is applied to the user data of the session. -/
def parseUserDataWith (parse : Memory → Int → IsoPresentation → Exec (Bool × IsoPresentation))
    (buffer : Memory) (session : IsoSession) (presentation : IsoPresentation) :
    Exec (Bool × IsoPresentation) :=
  match session.userData with
  | none => .error .nullPointer
  | some userData => do
    let (ok, presentation) ← parse (userData.memory buffer) userData.size
      (movePayload (-userData.start) presentation)
    return (ok, movePayload userData.start presentation)

/-- The ACSE message is what the payload of the presentation is. -/
def parseAcse (env : IsoEnvironment) (fuel : Nat) (buffer : Memory) (payload : Option Region)
    (acseConnection : AcseConnection) : Exec (AcseIndication × AcseConnection) :=
  match payload with
  | none => .error .nullPointer
  | some payload =>
    AcseConnection.parseMessage (payload.memory buffer) env.uninitialised fuel payload.size
      acseConnection

def stop (self : IsoConnection) : IsoConnection := { self with running := false }

/-- A session connect indication. The result is what the handler is called with, if it is. -/
def handleConnect (env : IsoEnvironment) (fuel : Nat) (buffer : Memory) (self : IsoConnection) :
    Exec (IsoConnection × Option Region) := do
  let (ok, presentation) ← parseUserDataWith
    (fun buffer size => IsoPresentation.parseConnect buffer env.uninitialised fuel size) buffer
    self.session self.presentation
  let self := { self with presentation := presentation }
  if ok = false then return (self, none)
  let (indication, acseConnection) ←
    parseAcse env fuel buffer presentation.nextPayload self.acseConnection
  let self := { self with acseConnection := acseConnection }
  if indication = .associate then return (self, acseConnection.userDataBuffer)
  else return (self.stop, none)

/-- A session data indication. -/
def handleData (env : IsoEnvironment) (buffer : Memory) (self : IsoConnection) :
    Exec (IsoConnection × Option Region) := do
  let (ok, presentation) ← parseUserDataWith
    (fun buffer size => IsoPresentation.parseUserData buffer env.uninitialised size) buffer
    self.session self.presentation
  let self := { self with presentation := presentation }
  if ok = false then return (self.stop, none)
  if presentation.nextContextId = presentation.mmsContextId then
    return (self, presentation.nextPayload)
  else return (self, none)

/-- A session finish indication: it is answered when the presentation is in order. -/
def handleFinish (env : IsoEnvironment) (buffer : Memory) (self : IsoConnection) :
    Exec (IsoConnection × Option Region) := do
  let (_, presentation) ← parseUserDataWith
    (fun buffer size => IsoPresentation.parseUserData buffer env.uninitialised size) buffer
    self.session self.presentation
  return ({ self with presentation := presentation }.stop, none)

/-- One turn of the loop of `handleTcpConnection`. -/
def handleMessage (env : IsoEnvironment) (fuel : Nat) (self : IsoConnection) :
    CotpMessage → Exec (IsoConnection × Option Region)
  | .connectIndication => return (self, none)
  | .dataIndication payload => do
    let buffer := env.receiveBuffer payload
    let (indication, session) ← IsoSession.parseMessage buffer payload.length self.session
    let self := { self with session := session }
    if indication = .connect then handleConnect env fuel buffer self
    else if indication = .data then handleData env buffer self
    else if indication = .finish then handleFinish env buffer self
    else return (self.stop, none)
  | .error | .other => return (self.stop, none)

/-- A message of a running connection, with what the handler was called with. -/
def Step (env : IsoEnvironment) (self : IsoConnection) (turn : CotpMessage × Option Region)
    (self' : IsoConnection) : Prop :=
  self.running = true ∧ ∃ fuel, handleMessage env fuel self turn.1 = .ok (self', turn.2)

/-- User data in the context that is taken for the one of MMS. -/
def SendsMmsData (env : IsoEnvironment) (self : IsoConnection) (payload : List UInt8) : Prop :=
  ∃ session presentation,
    IsoSession.parseMessage (env.receiveBuffer payload) payload.length self.session =
      .ok (.data, session) ∧
    parseUserDataWith
      (fun buffer size => IsoPresentation.parseUserData buffer env.uninitialised size)
      (env.receiveBuffer payload) session self.presentation = .ok (true, presentation) ∧
    presentation.nextContextId = presentation.mmsContextId

/-- A connect message with an associate response that accepts. -/
def SendsAcceptingAare (env : IsoEnvironment) (self : IsoConnection) (payload : List UInt8) : Prop :=
  ∃ session presentation region fuel acseConnection,
    IsoSession.parseMessage (env.receiveBuffer payload) payload.length self.session =
      .ok (.connect, session) ∧
    parseUserDataWith
      (fun buffer size => IsoPresentation.parseConnect buffer env.uninitialised fuel size)
      (env.receiveBuffer payload) session self.presentation = .ok (true, presentation) ∧
    presentation.nextPayload = some region ∧
    region.memory (env.receiveBuffer payload) 0 = some 0x61 ∧
    parseAcse env fuel (env.receiveBuffer payload) presentation.nextPayload self.acseConnection =
      .ok (.associate, acseConnection)

/-- As long as the authenticator has not let the client in, it does not send what is handed to the
MMS layer all the same. -/
def WaitsForAssociation (env : IsoEnvironment) (self : IsoConnection)
    (turn : CotpMessage × Option Region) : Prop :=
  self.acseConnection.authenticated = true ∨ ∀ payload, turn.1 = .dataIndication payload →
    ¬ SendsMmsData env self payload ∧ ¬ SendsAcceptingAare env self payload

variable {env : IsoEnvironment} {fuel : Nat} {self self' : IsoConnection}
  {called : Option Region} {buffer : Memory}

/-- What a turn does to the authentication. -/
structure TurnKeeps (c c' : IsoConnection) (called : Option Region) (bypassed : Prop) : Prop where
  authenticator : c'.acseConnection.authenticator = c.acseConnection.authenticator
  authenticated : c.acseConnection.authenticated = true → c'.acseConnection.authenticated = true
  admits : called ≠ none → c.acseConnection.authenticator.isSome = true →
    c'.acseConnection.authenticated = true ∨ bypassed

theorem turnKeeps_of_same {bypassed : Prop} (h : self'.acseConnection = self.acseConnection)
    (hcalled : called ≠ none → bypassed) : TurnKeeps self self' called bypassed where
  authenticator := by rw [h]
  authenticated ha := by rwa [h]
  admits hne _ := Or.inr (hcalled hne)

theorem handleData_keeps (h : handleData env buffer self = .ok (self', called)) :
    TurnKeeps self self' called (∃ presentation, parseUserDataWith
      (fun buffer size => IsoPresentation.parseUserData buffer env.uninitialised size) buffer
      self.session self.presentation = .ok (true, presentation) ∧
      presentation.nextContextId = presentation.mmsContextId) := by
  obtain ⟨⟨ok, presentation⟩, hparse, h⟩ := bind_ok h
  dsimp only at h
  cases ok with
  | false =>
    cases h
    exact turnKeeps_of_same rfl (fun hne => absurd rfl hne)
  | true =>
    by_cases hcontext : presentation.nextContextId = presentation.mmsContextId
    · rw [if_neg (by decide), if_pos hcontext] at h
      cases h
      exact turnKeeps_of_same rfl (fun _ => ⟨presentation, hparse, hcontext⟩)
    · rw [if_neg (by decide), if_neg hcontext] at h
      cases h
      exact turnKeeps_of_same rfl (fun hne => absurd rfl hne)

theorem handleFinish_keeps {bypassed : Prop}
    (h : handleFinish env buffer self = .ok (self', called)) :
    TurnKeeps self self' called bypassed := by
  obtain ⟨answer, _, h⟩ := bind_ok h
  cases h
  exact turnKeeps_of_same rfl (fun hne => absurd rfl hne)

theorem handleConnect_keeps (h : handleConnect env fuel buffer self = .ok (self', called)) :
    TurnKeeps self self' called (∃ presentation region acseConnection, parseUserDataWith
      (fun buffer size => IsoPresentation.parseConnect buffer env.uninitialised fuel size) buffer
      self.session self.presentation = .ok (true, presentation) ∧
      presentation.nextPayload = some region ∧ region.memory buffer 0 = some 0x61 ∧
      parseAcse env fuel buffer presentation.nextPayload self.acseConnection =
        .ok (.associate, acseConnection)) := by
  obtain ⟨⟨ok, presentation⟩, hparse, h⟩ := bind_ok h
  dsimp only at h
  cases ok with
  | false =>
    cases h
    exact turnKeeps_of_same rfl (fun hne => absurd rfl hne)
  | true =>
    rw [if_neg (by decide)] at h
    obtain ⟨⟨indication, acseConnection⟩, hacse, h⟩ := bind_ok h
    cases hpayload : presentation.nextPayload with
    | none =>
      rw [hpayload] at hacse
      cases hacse
    | some region =>
      have hmessage := hacse
      rw [hpayload] at hmessage
      have hkeeps := AcseConnection.parseMessage_keeps hmessage
      dsimp only at h
      by_cases hassociate : indication = .associate
      · subst hassociate
        rw [if_pos rfl] at h
        cases h
        refine ⟨hkeeps.authenticator, hkeeps.authenticated, fun _ hsome => ?_⟩
        by_cases htag : region.memory buffer 0 = some 0x61
        · exact Or.inr ⟨presentation, region, acseConnection, hparse, hpayload, htag, hacse⟩
        · exact Or.inl (hkeeps.admits ⟨rfl, htag⟩ hsome)
      · rw [if_neg hassociate] at h
        cases h
        exact ⟨hkeeps.authenticator, hkeeps.authenticated, fun hne => absurd rfl hne⟩

/-- The session is parsed before. -/
theorem TurnKeeps.of_session {session : IsoSession} {bypassed bypassed' : Prop}
    (h : TurnKeeps { self with session := session } self' called bypassed)
    (himp : bypassed → bypassed') : TurnKeeps self self' called bypassed' :=
  ⟨h.authenticator, h.authenticated, fun hne hsome => (h.admits hne hsome).imp id himp⟩

/-- The handler is called for a client that has been let in, or the authentication is bypassed. -/
theorem handleMessage_keeps {message : CotpMessage}
    (h : handleMessage env fuel self message = .ok (self', called)) :
    TurnKeeps self self' called (∃ payload, message = .dataIndication payload ∧
      (SendsMmsData env self payload ∨ SendsAcceptingAare env self payload)) := by
  cases message with
  | connectIndication | error | other =>
    cases h
    exact turnKeeps_of_same rfl (fun hne => absurd rfl hne)
  | dataIndication payload =>
    obtain ⟨⟨indication, session⟩, hsession, h⟩ := bind_ok h
    dsimp only at h
    by_cases hconnect : indication = .connect
    · subst hconnect
      rw [if_pos rfl] at h
      apply (handleConnect_keeps h).of_session
      rintro ⟨presentation, region, acseConnection, hparse, hpayload, htag, hacse⟩
      exact ⟨payload, rfl, Or.inr ⟨session, presentation, region, fuel, acseConnection, hsession,
        hparse, hpayload, htag, hacse⟩⟩
    · rw [if_neg hconnect] at h
      by_cases hdata : indication = .data
      · subst hdata
        rw [if_pos rfl] at h
        apply (handleData_keeps h).of_session
        rintro ⟨presentation, hparse, hcontext⟩
        exact ⟨payload, rfl, Or.inl ⟨session, presentation, hsession, hparse, hcontext⟩⟩
      · rw [if_neg hdata] at h
        by_cases hfinish : indication = .finish
        · rw [if_pos hfinish] at h
          exact (handleFinish_keeps h).of_session id
        · rw [if_neg hfinish] at h
          cases h
          exact turnKeeps_of_same rfl (fun hne => absurd rfl hne)

/-- The authenticator is the one that the connection was created with. -/
theorem authenticator_of_run {guard : IsoConnection → CotpMessage × Option Region → Prop}
    {authenticator : AcseAuthenticator} {turns : List (CotpMessage × Option Region)}
    (hr : Transition.Run (Step env) guard (create authenticator) turns self) :
    self.acseConnection.authenticator = some authenticator := by
  refine @Transition.Run.invariant _ _ _ _ _ _ _
    (fun c => c.acseConnection.authenticator = some authenticator) hr rfl ?_
  rintro t turn u ht _ ⟨_, fuel, hstep⟩
  exact (handleMessage_keeps hstep).authenticator.trans ht

/-- In a run in which nothing is sent that bypasses the authentication, the handler is called for a
client only that the authenticator has let in, with the same message or before. -/
theorem authenticated_of_called {authenticator : AcseAuthenticator}
    {turns : List (CotpMessage × Option Region)} {message : CotpMessage} {request : Region}
    (hr : Transition.Run (Step env) (WaitsForAssociation env) (create authenticator)
      (turns ++ [(message, some request)]) self) :
    self.acseConnection.authenticated = true := by
  obtain ⟨before, hbefore, hguard, _, fuel, hstep⟩ := hr.last rfl
  have hkeeps := handleMessage_keeps hstep
  have hsome : before.acseConnection.authenticator.isSome = true := by
    rw [authenticator_of_run hbefore]
    rfl
  rcases hguard with hauth | hwaits
  · exact hkeeps.authenticated hauth
  · rcases hkeeps.admits (by simp) hsome with hauth | ⟨payload, hpayload, hsends⟩
    · exact hauth
    · have hnot := hwaits payload hpayload
      rcases hsends with hdata | haare
      · exact absurd hdata hnot.1
      · exact absurd haare hnot.2

/-- A connect message with an associate request. -/
def associateRequest : List UInt8 :=
  [0x0d, 0x24, 0x05, 0x06, 0x13, 0x01, 0x00, 0x16, 0x01, 0x02, 0xc1, 0x1a,
   0x31, 0x18, 0xa2, 0x16, 0x61, 0x14, 0x30, 0x12, 0x02, 0x01, 0x01, 0xa0, 0x0d,
   0x60, 0x0b, 0xbe, 0x09, 0x28, 0x07, 0x02, 0x01, 0x03, 0xa0, 0x02, 0xa8, 0x00]

/-- User data in the context 0. -/
def dataInContextZero : List UInt8 :=
  [0x01, 0x00, 0x01, 0x00, 0x61, 0x09, 0x30, 0x07, 0x02, 0x01, 0x00, 0xa0, 0x02, 0xa8, 0x00]

def sampleIsoEnvironment : IsoEnvironment := ⟨0, fun _ => 0⟩

theorem handles_associateRequest :
    (handleMessage sampleIsoEnvironment 5 (create fun _ _ => true)
      (.dataIndication associateRequest)).map (·.2) = .ok (some ⟨11, 2⟩) := by decide +kernel

theorem session_associateRequest :
    IsoSession.parseMessage (sampleIsoEnvironment.receiveBuffer associateRequest)
      associateRequest.length IsoSession.init = .ok (.connect, ⟨1, 1, 2, 0, some ⟨12, 26⟩⟩) := by
  decide +kernel

theorem presentation_associateRequest :
    IsoPresentation.parseConnect
      (Region.memory ⟨12, 26⟩ (sampleIsoEnvironment.receiveBuffer associateRequest)) 0 5 26
      (movePayload (-12) IsoPresentation.init) = .ok (true, ⟨1, 0, 0, some ⟨13, 13⟩⟩) := by
  decide +kernel

theorem waits_associateRequest (authenticator : AcseAuthenticator) (called : Option Region) :
    WaitsForAssociation sampleIsoEnvironment (create authenticator)
      (.dataIndication associateRequest, called) := by
  refine Or.inr fun payload hpayload => ?_
  cases hpayload
  constructor
  · rintro ⟨session, _, hsession, _⟩
    cases session_associateRequest.symm.trans hsession
  · rintro ⟨session, presentation, region, fuel, _, hsession, hparse, hregion, htag, _⟩
    cases session_associateRequest.symm.trans hsession
    obtain ⟨⟨ok, parsed⟩, hconnect, heq⟩ := bind_ok hparse
    cases heq
    cases (IsoPresentation.parseConnect_mono _ _).unique presentation_associateRequest hconnect
    cases hregion
    have hnot : Region.memory ⟨25, 13⟩ (sampleIsoEnvironment.receiveBuffer associateRequest) 0 ≠
        some 0x61 := by decide +kernel
    exact hnot htag

/-- The authenticator lets the client in that sends an associate request. -/
theorem authenticated_associateRequest : ∃ t,
    Transition.Run (Step sampleIsoEnvironment) (WaitsForAssociation sampleIsoEnvironment)
      (create fun _ _ => true) ([] ++ [(.dataIndication associateRequest, some ⟨11, 2⟩)]) t ∧
    t.acseConnection.authenticated = true := by
  have hhandles := handles_associateRequest
  cases hstep : handleMessage sampleIsoEnvironment 5 (create fun _ _ => true)
      (.dataIndication associateRequest) with
  | error e =>
    rw [hstep] at hhandles
    cases hhandles
  | ok r =>
    obtain ⟨t, called⟩ := r
    rw [hstep] at hhandles
    cases hhandles
    have hrun : Transition.Run (Step sampleIsoEnvironment)
        (WaitsForAssociation sampleIsoEnvironment) (create fun _ _ => true)
        ([] ++ [(.dataIndication associateRequest, some ⟨11, 2⟩)]) t :=
      .snoc .nil (waits_associateRequest _ _) ⟨rfl, 5, hstep⟩
    exact ⟨t, hrun, authenticated_of_called hrun⟩

theorem handles_dataInContextZero :
    (handleMessage sampleIsoEnvironment 5 (create fun _ _ => false)
      (.dataIndication dataInContextZero)).map (fun r => (r.2, r.1.acseConnection.authenticated)) =
      .ok (some ⟨13, 2⟩, false) := by decide +kernel

/-- Without any association the handler is called with user data in the context 0, although the
authenticator lets nobody in. -/
theorem not_authenticated_dataInContextZero :
    ¬ ∀ (env : IsoEnvironment) (authenticator : AcseAuthenticator)
      (turns : List (CotpMessage × Option Region)) (message : CotpMessage) (request : Region)
      (t : IsoConnection),
      Transition.Run (Step env) (fun _ _ => True) (create authenticator)
        (turns ++ [(message, some request)]) t → t.acseConnection.authenticated = true := by
  intro hall
  have hhandles := handles_dataInContextZero
  cases hstep : handleMessage sampleIsoEnvironment 5 (create fun _ _ => false)
      (.dataIndication dataInContextZero) with
  | error e =>
    rw [hstep] at hhandles
    cases hhandles
  | ok r =>
    obtain ⟨t, called⟩ := r
    rw [hstep] at hhandles
    have hparts := Prod.mk.inj (Except.ok.inj hhandles)
    obtain rfl : called = some ⟨13, 2⟩ := hparts.1
    have hauth := hall sampleIsoEnvironment (fun _ _ => false) [] (.dataIndication dataInContextZero)
      ⟨13, 2⟩ t (.snoc .nil trivial ⟨rfl, 5, hstep⟩)
    have hfalse : t.acseConnection.authenticated = false := hparts.2
    rw [hfalse] at hauth
    cases hauth

end IsoConnection

end Iec61850
