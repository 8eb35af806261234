import Iec61850.Asn1.BerElements

/-! `acse.c`: what is read from an ACSE message. -/

namespace Iec61850

open Machine BerDecoder

inductive AcseIndication
  | error | associate | associateFailed | ok | abort | releaseRequest | releaseResponse
  deriving DecidableEq

/-- The password is a part of the message. -/
inductive AcseAuthenticationParameter
  | none
  | password (octetString : Region)
  deriving DecidableEq

/-- The authenticator, where there is one, gets the parameter and the message. -/
abbrev AcseAuthenticator := Memory → AcseAuthenticationParameter → Bool

structure AcseConnection where
  nextReference : UInt32
  userDataBuffer : Option Region
  authenticator : Option AcseAuthenticator
  /-- Whether the authenticator has let the peer in; the program does not keep it. -/
  authenticated : Bool

namespace AcseConnection

def init (authenticator : Option AcseAuthenticator) : AcseConnection where
  nextReference := 0
  userDataBuffer := none
  authenticator := authenticator
  authenticated := false

def authMechPasswordOid : List UInt8 := [0x52, 0x03, 0x01]

variable (buffer : Memory) (uninitialised : Int)

def isPasswordMechanism (authMechanism : Option Region) : Exec Bool :=
  match authMechanism with
  | some ⟨start, 3⟩ => return (← buffer.readOctets start 3) = authMechPasswordOid
  | _ => return false

/-- What the authenticator says. The value is a part of the message, at the null pointer when there
is none. -/
def authenticateClient (authenticator : AcseAuthenticator)
    (authMechanism authValue : Option Region) : Exec Bool := do
  if ← isPasswordMechanism buffer authMechanism then
    match authValue with
    | none => return authenticator (fun _ => none) (.password ⟨0, 0⟩)
    | some value => return authenticator buffer (.password value)
  else return authenticator buffer .none

/-- Without an authenticator everybody is let in. -/
def checkAuthentication (self : AcseConnection) (authMechanism authValue : Option Region) :
    Exec (Bool × AcseConnection) :=
  match self.authenticator with
  | none => return (true, self)
  | some authenticator => do
    let ok ← authenticateClient buffer authenticator authMechanism authValue
    return (ok, { self with authenticated := self.authenticated || ok })

/-- Whether there were an indirect reference and an encoding. -/
structure UserInformation where
  hasIndirectReference : Bool
  isDataValid : Bool

def userInformationElement : ElementParser (UserInformation × AcseConnection) :=
  fun tag len bufPos (info, self) =>
    match tag with
    | 0x02 => do
      let nextReference ← decodeUint32 buffer len bufPos
      skip len bufPos ({ info with hasIndirectReference := true },
        { self with nextReference := nextReference })
    | 0xa0 =>
      skip len bufPos ({ info with isDataValid := true },
        { self with userDataBuffer := some ⟨bufPos, len⟩ })
    | _ => skip len bufPos (info, self)

/-- The position behind the user information, and whether they are valid. -/
def parseUserInformation (fuel : Nat) (bufPos maxBufPos : Int) (self : AcseConnection) :
    Exec (Option Int × Bool × AcseConnection) := do
  let (bufPos, info, self) ← parseElements buffer uninitialised maxBufPos false
    (userInformationElement buffer) fuel bufPos (⟨false, false⟩, self)
  return (bufPos, info.hasIndirectReference && info.isDataValid, self)

/-- The element that the user information stands in, in both associate messages. -/
def userInformation (fuel : Nat) (maxBufPos len bufPos : Int) (userInfoValid : Bool)
    (self : AcseConnection) : Exec (Option Int × Bool × AcseConnection) := do
  if (← buffer.read bufPos) ≠ 0x28 then skip len bufPos (userInfoValid, self)
  else
    let (bufPos, len) ← decodeLength buffer len (bufPos + 1) maxBufPos
    parseUserInformation buffer uninitialised fuel bufPos (i32 (bufPos + len)) self

/-- What is known of an associate response. -/
structure AareState where
  result : UInt32
  userInfoValid : Bool
  connection : AcseConnection

def aareElement (fuel : Nat) (maxBufPos : Int) : ElementParser AareState :=
  fun tag len bufPos state =>
    if tag = 0xa2 then do
      let (bufPos, len) ← decodeLength buffer len (bufPos + 1) maxBufPos
      let result ← decodeUint32 buffer len bufPos
      skip len bufPos { state with result := result }
    else if tag = 0xbe then do
      let (bufPos, userInfoValid, connection) ← userInformation buffer uninitialised fuel maxBufPos
        len bufPos state.userInfoValid state.connection
      return (bufPos, { state with userInfoValid := userInfoValid, connection := connection })
    else skip len bufPos state

def AareState.indication (state : AareState) : AcseIndication :=
  if !state.userInfoValid then .error
  else if state.result ≠ 0 then .associateFailed
  else .associate

def parseAarePdu (fuel : Nat) (bufPos maxBufPos : Int) (self : AcseConnection) :
    Exec (AcseIndication × AcseConnection) := do
  let (_, state) ← parseElements buffer uninitialised maxBufPos false
    (aareElement buffer uninitialised fuel maxBufPos) fuel bufPos ⟨99, false, self⟩
  return (state.indication, state.connection)

/-- What is known of an associate request. -/
structure AarqState where
  authMechanism : Option Region
  authValue : Option Region
  userInfoValid : Bool
  connection : AcseConnection

def aarqElement (fuel : Nat) (maxBufPos : Int) : ElementParser AarqState :=
  fun tag len bufPos state =>
    if tag = 0x8b then skip len bufPos { state with authMechanism := some ⟨bufPos, len⟩ }
    else if tag = 0xac then do
      let (bufPos, len) ← decodeLength buffer len (bufPos + 1) maxBufPos
      skip len bufPos { state with authValue := some ⟨bufPos, len⟩ }
    else if tag = 0xbe then do
      let (bufPos, userInfoValid, connection) ← userInformation buffer uninitialised fuel maxBufPos
        len bufPos state.userInfoValid state.connection
      return (bufPos, { state with userInfoValid := userInfoValid, connection := connection })
    else skip len bufPos state

def parseAarqPdu (fuel : Nat) (bufPos maxBufPos : Int) (self : AcseConnection) :
    Exec (AcseIndication × AcseConnection) := do
  let (bufPos, state) ← parseElements buffer uninitialised maxBufPos true
    (aarqElement buffer uninitialised fuel maxBufPos) fuel bufPos ⟨none, none, false, self⟩
  if bufPos.isNone then return (.associateFailed, state.connection)
  let (ok, self) ←
    state.connection.checkAuthentication buffer state.authMechanism state.authValue
  if ok = false then return (.associateFailed, self)
  return (if state.userInfoValid then .associate else .associateFailed, self)

def parseMessage (fuel : Nat) (messageSize : Int) (self : AcseConnection) :
    Exec (AcseIndication × AcseConnection) := do
  let messageType ← buffer.read 0
  let (bufPos, _) ← decodeLength buffer uninitialised 1 messageSize
  if bufPos < 0 then return (.error, self)
  if messageType = 0x60 then parseAarqPdu buffer uninitialised fuel bufPos messageSize self
  else if messageType = 0x61 then parseAarePdu buffer uninitialised fuel bufPos messageSize self
  else if messageType = 0x62 then return (.releaseRequest, self)
  else if messageType = 0x63 then return (.releaseResponse, self)
  else if messageType = 0x64 then return (.abort, self)
  else return (.error, self)

section Fuel

variable {buffer uninitialised}

theorem userInformation_mono (maxBufPos len bufPos : Int) (userInfoValid : Bool)
    (self : AcseConnection) : FuelMonotone fun fuel =>
      userInformation buffer uninitialised fuel maxBufPos len bufPos userInfoValid self := by
  apply FuelMonotone.bind (FuelMonotone.const _)
  intro tag
  apply FuelMonotone.ite (FuelMonotone.const _)
  apply FuelMonotone.bind (FuelMonotone.const _)
  intro pair
  apply FuelMonotone.bind (parseElements_mono_leaf _ _ _)
  exact fun _ => FuelMonotone.const _

theorem parseAarePdu_mono (bufPos maxBufPos : Int) (self : AcseConnection) :
    FuelMonotone fun fuel => parseAarePdu buffer uninitialised fuel bufPos maxBufPos self := by
  apply FuelMonotone.bind
  · apply parseElements_mono
    intro tag len bufPos state
    apply FuelMonotone.ite (FuelMonotone.const _)
    apply FuelMonotone.ite
    · apply (userInformation_mono maxBufPos len bufPos _ _).bind
      exact fun _ => FuelMonotone.const _
    · exact FuelMonotone.const _
  · exact fun _ => FuelMonotone.const _

theorem parseAarqPdu_mono (bufPos maxBufPos : Int) (self : AcseConnection) :
    FuelMonotone fun fuel => parseAarqPdu buffer uninitialised fuel bufPos maxBufPos self := by
  apply FuelMonotone.bind
  · apply parseElements_mono
    intro tag len bufPos state
    apply FuelMonotone.ite (FuelMonotone.const _)
    apply FuelMonotone.ite (FuelMonotone.const _)
    apply FuelMonotone.ite
    · apply (userInformation_mono maxBufPos len bufPos _ _).bind
      exact fun _ => FuelMonotone.const _
    · exact FuelMonotone.const _
  · exact fun _ => FuelMonotone.const _

/-- What a message says does not depend on the fuel. -/
theorem parseMessage_mono (messageSize : Int) (self : AcseConnection) :
    FuelMonotone fun fuel => parseMessage buffer uninitialised fuel messageSize self := by
  apply FuelMonotone.bind (FuelMonotone.const _)
  intro messageType
  apply FuelMonotone.bind (FuelMonotone.const _)
  intro pair
  apply FuelMonotone.ite (FuelMonotone.const _)
  apply FuelMonotone.ite (parseAarqPdu_mono _ _ _)
  apply FuelMonotone.ite (parseAarePdu_mono _ _ _)
  exact FuelMonotone.const _

end Fuel

/-! Nothing but an associate request changes what is known of the authentication. -/

/-- The authentication is the one of another connection. -/
def SameAuthentication (self other : AcseConnection) : Prop :=
  self.authenticator = other.authenticator ∧ self.authenticated = other.authenticated

theorem SameAuthentication.refl (self : AcseConnection) : SameAuthentication self self := ⟨rfl, rfl⟩

section Authentication

variable {buffer uninitialised} {fuel : Nat} {maxBufPos len bufPos : Int} {self other : AcseConnection}

theorem userInformationElement_same {tag : UInt8} {state : UserInformation × AcseConnection}
    {result : Option Int × UserInformation × AcseConnection} (hs : SameAuthentication state.2 other)
    (h : userInformationElement buffer tag len bufPos state = .ok result) :
    SameAuthentication result.2.2 other := by
  obtain ⟨info, self⟩ := state
  unfold userInformationElement at h
  dsimp only at h
  split at h
  · obtain ⟨reference, _, h⟩ := bind_ok h
    cases h
    exact hs
  · cases h
    exact hs
  · cases h
    exact hs

theorem userInformation_same {userInfoValid : Bool} {result : Option Int × Bool × AcseConnection}
    (hs : SameAuthentication self other)
    (h : userInformation buffer uninitialised fuel maxBufPos len bufPos userInfoValid self =
      .ok result) : SameAuthentication result.2.2 other := by
  obtain ⟨tag, _, h⟩ := bind_ok h
  dsimp only at h
  split at h
  · cases h
    exact hs
  · obtain ⟨pair, _, h⟩ := bind_ok h
    obtain ⟨⟨next, state⟩, hparse, h⟩ := bind_ok h
    cases h
    exact parseElements_invariant (I := fun state => SameAuthentication state.2 other)
      (fun _ _ _ _ _ hI h => userInformationElement_same hI h) hparse hs

theorem aareElement_same {tag : UInt8} {state : AareState} {result : Option Int × AareState}
    (hs : SameAuthentication state.connection other)
    (h : aareElement buffer uninitialised fuel maxBufPos tag len bufPos state = .ok result) :
    SameAuthentication result.2.connection other := by
  unfold aareElement at h
  split at h
  · obtain ⟨pair, _, h⟩ := bind_ok h
    obtain ⟨value, _, h⟩ := bind_ok h
    cases h
    exact hs
  · split at h
    · obtain ⟨pair, hinfo, h⟩ := bind_ok h
      cases h
      exact userInformation_same hs hinfo
    · cases h
      exact hs

theorem aarqElement_same {tag : UInt8} {state : AarqState} {result : Option Int × AarqState}
    (hs : SameAuthentication state.connection other)
    (h : aarqElement buffer uninitialised fuel maxBufPos tag len bufPos state = .ok result) :
    SameAuthentication result.2.connection other := by
  unfold aarqElement at h
  split at h
  · cases h
    exact hs
  · split at h
    · obtain ⟨pair, _, h⟩ := bind_ok h
      cases h
      exact hs
    · split at h
      · obtain ⟨pair, hinfo, h⟩ := bind_ok h
        cases h
        exact userInformation_same hs hinfo
      · cases h
        exact hs

theorem parseAarePdu_same {result : AcseIndication × AcseConnection}
    (h : parseAarePdu buffer uninitialised fuel bufPos maxBufPos self = .ok result) :
    SameAuthentication result.2 self := by
  obtain ⟨⟨next, state⟩, hparse, h⟩ := bind_ok h
  cases h
  exact parseElements_invariant (I := fun state => SameAuthentication state.connection self)
    (fun _ _ _ _ _ hI h => aareElement_same hI h) hparse (SameAuthentication.refl self)

/-- What a message can do to the authentication: `admitted` says that it has let the peer in. -/
structure KeepsAuthentication (c c' : AcseConnection) (admitted : Prop) : Prop where
  authenticator : c'.authenticator = c.authenticator
  authenticated : c.authenticated = true → c'.authenticated = true
  admits : admitted → c.authenticator.isSome = true → c'.authenticated = true

theorem SameAuthentication.keeps {self' : AcseConnection} {admitted : Prop}
    (h : SameAuthentication self' self) (hnot : ¬ admitted) :
    KeepsAuthentication self self' admitted where
  authenticator := h.1
  authenticated ha := h.2.trans ha
  admits hadmitted := absurd hadmitted hnot

theorem checkAuthentication_keeps {authMechanism authValue : Option Region} {ok : Bool}
    {self' : AcseConnection}
    (h : checkAuthentication buffer self authMechanism authValue = .ok (ok, self')) :
    KeepsAuthentication self self' (ok = true) := by
  unfold checkAuthentication at h
  cases ha : self.authenticator with
  | none =>
    rw [ha] at h
    cases h
    exact ⟨rfl, id, fun _ hsome => by simp [ha] at hsome⟩
  | some authenticator =>
    rw [ha] at h
    obtain ⟨answer, _, h⟩ := bind_ok h
    cases h
    exact ⟨ha.symm, fun hauth => by simp [hauth], fun hok _ => by simp [hok]⟩

theorem parseAarqPdu_keeps {indication : AcseIndication} {self' : AcseConnection}
    (h : parseAarqPdu buffer uninitialised fuel bufPos maxBufPos self = .ok (indication, self')) :
    KeepsAuthentication self self' (indication = .associate) := by
  obtain ⟨⟨next, state⟩, hparse, h⟩ := bind_ok h
  have hsame : SameAuthentication state.connection self :=
    parseElements_invariant (I := fun state => SameAuthentication state.connection self)
      (fun _ _ _ _ _ hI h => aarqElement_same hI h) hparse (SameAuthentication.refl self)
  dsimp only at h
  split at h
  · cases h
    exact hsame.keeps (fun h => by cases h)
  · obtain ⟨⟨ok, checked⟩, hcheck, h⟩ := bind_ok h
    have hkeeps := checkAuthentication_keeps hcheck
    dsimp only at h
    have hsome : self.authenticator.isSome = state.connection.authenticator.isSome := by
      rw [hsame.1]
    cases ok with
    | false =>
      cases h
      exact ⟨hkeeps.authenticator.trans hsame.1, fun ha => hkeeps.authenticated (hsame.2.trans ha),
        fun hassociate => by cases hassociate⟩
    | true =>
      cases h
      exact ⟨hkeeps.authenticator.trans hsame.1, fun ha => hkeeps.authenticated (hsame.2.trans ha),
        fun _ hs => hkeeps.admits rfl (hsome ▸ hs)⟩

/-- An association is indicated for a request that the authenticator has let in, or a response. -/
theorem parseMessage_keeps {messageSize : Int} {indication : AcseIndication}
    {self' : AcseConnection}
    (h : parseMessage buffer uninitialised fuel messageSize self = .ok (indication, self')) :
    KeepsAuthentication self self' (indication = .associate ∧ buffer 0 ≠ some 0x61) := by
  obtain ⟨messageType, hread, h⟩ := bind_ok h
  obtain ⟨pair, _, h⟩ := bind_ok h
  dsimp only at h
  have hsame := SameAuthentication.refl self
  split at h
  · cases h
    exact hsame.keeps (fun h => by cases h.1)
  · split at h
    · have hkeeps := parseAarqPdu_keeps h
      exact ⟨hkeeps.authenticator, hkeeps.authenticated, fun ha => hkeeps.admits ha.1⟩
    · split at h
      case isTrue htag =>
        have hzero : buffer 0 = some 0x61 := by
          rw [← htag]
          exact (Memory.read_ok_iff buffer 0 messageType).mp hread
        exact (parseAarePdu_same h).keeps (fun h => h.2 hzero)
      case isFalse =>
        have hend : self' = self ∧ indication ≠ .associate := by
          split_ifs at h <;> cases h <;> exact ⟨rfl, fun h => by cases h⟩
        obtain ⟨rfl, hne⟩ := hend
        exact hsame.keeps (fun h => hne h.1)

end Authentication

end AcseConnection

end Iec61850
