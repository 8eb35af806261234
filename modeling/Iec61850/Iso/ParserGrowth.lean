import Iec61850.Asn1.BerSpans
import Iec61850.Iso.Acse
import Iec61850.Iso.Presentation
import Iec61850.Lib.MemoryGrowth

/-! What the parsers of the upper layers make of a message alone they make of it in a buffer with
other octets before and behind it. -/

namespace Iec61850

open Machine

variable {buffer buffer' : Memory} {uninitialised : Int}

namespace BerDecoder

variable {σ τ : Type} {R : σ → τ → Prop}

theorem decodeLengthOctets_carried (h : buffer.Within buffer') (maxBufPos : Int) (n : Nat)
    (length bufPos : Int) :
    Carried Eq (decodeLengthOctets buffer maxBufPos n length bufPos)
      (decodeLengthOctets buffer' maxBufPos n length bufPos) := by
  induction n generalizing length bufPos with
  | zero => exact Carried.refl _
  | succ n ih =>
    exact Carried.ite (Carried.refl _) ((h.read bufPos).bind_eq fun b => ih _ _)

theorem decodeLength_carried (h : buffer.Within buffer') (length bufPos maxBufPos : Int) :
    Carried Eq (decodeLength buffer length bufPos maxBufPos)
      (decodeLength buffer' length bufPos maxBufPos) := by
  refine Carried.ite (Carried.refl _) ((h.read bufPos).bind_eq fun len1 => ?_)
  refine Carried.ite (Carried.refl _) (Carried.ite (Carried.refl _) ?_)
  exact decodeLengthOctets_carried h maxBufPos _ 0 (bufPos + 1)

theorem decodeUint32_carried (h : buffer.Within buffer') (intlen bufPos : Int) :
    Carried Eq (decodeUint32 buffer intlen bufPos) (decodeUint32 buffer' intlen bufPos) :=
  (h.readOctets bufPos intlen.toNat).bind_eq fun _ => Carried.refl _

/-- A position, with states that are related. -/
def Beside (R : σ → τ → Prop) (r : Option Int × σ) (r' : Option Int × τ) : Prop :=
  r.1 = r'.1 ∧ R r.2 r'.2

/-- Elements that are read alike are read alike by the loop. -/
theorem parseElements_carried (h : buffer.Within buffer') (uninitialised maxBufPos : Int)
    (checked : Bool) {element : ElementParser σ} {element' : ElementParser τ}
    (helement : ∀ tag len bufPos s t, R s t →
      Carried (Beside R) (element tag len bufPos s) (element' tag len bufPos t))
    (fuel : Nat) (bufPos : Int) {s : σ} {t : τ} (hst : R s t) :
    Carried (Beside R)
      (parseElements buffer uninitialised maxBufPos checked element fuel bufPos s)
      (parseElements buffer' uninitialised maxBufPos checked element' fuel bufPos t) := by
  induction fuel generalizing bufPos s t with
  | zero => exact Carried.error
  | succ fuel ih =>
    have hone : Carried (Beside R)
        (parseElement buffer uninitialised maxBufPos checked element bufPos s)
        (parseElement buffer' uninitialised maxBufPos checked element' bufPos t) := by
      refine (h.read bufPos).bind_eq fun tag => ?_
      refine (decodeLength_carried h uninitialised (bufPos + 1) maxBufPos).bind_eq fun pair => ?_
      exact Carried.ite (Carried.ok ⟨rfl, hst⟩) (helement tag pair.2 pair.1 s t hst)
    refine Carried.ite (Carried.ok ⟨rfl, hst⟩) (hone.bind ?_)
    rintro ⟨next, s'⟩ ⟨next', t'⟩ ⟨rfl, hst'⟩
    cases next with
    | none => exact Carried.ok ⟨rfl, hst'⟩
    | some bufPos' => exact ih bufPos' hst'

theorem beside_eq : (Beside (Eq : σ → σ → Prop)) = Eq := by
  funext r r'
  rw [Beside, ← Prod.ext_iff]

theorem parseElements_same (h : buffer.Within buffer') (uninitialised maxBufPos : Int)
    (checked : Bool) {element element' : ElementParser σ}
    (helement : ∀ tag len bufPos s,
      Carried Eq (element tag len bufPos s) (element' tag len bufPos s))
    (fuel : Nat) (bufPos : Int) (s : σ) :
    Carried Eq
      (parseElements buffer uninitialised maxBufPos checked element fuel bufPos s)
      (parseElements buffer' uninitialised maxBufPos checked element' fuel bufPos s) := by
  rw [← beside_eq]
  refine parseElements_carried h uninitialised maxBufPos checked ?_ fuel bufPos rfl
  rintro tag len bufPos s _ rfl
  rw [beside_eq]
  exact helement tag len bufPos s

end BerDecoder

open BerDecoder

namespace IsoPresentation

variable (h : buffer.Within buffer')
include h

theorem parseFullyEncodedData_carried (fuel : Nat) (len bufPos : Int) (self : IsoPresentation) :
    Carried Eq (parseFullyEncodedData buffer uninitialised fuel len bufPos self)
      (parseFullyEncodedData buffer' uninitialised fuel len bufPos self) := by
  refine (h.read bufPos).bind_eq fun tag => Carried.ite (Carried.refl _) ?_
  refine (decodeLength_carried h _ _ _).bind_eq fun pair => Carried.ite (Carried.refl _) ?_
  refine (parseElements_same h _ _ _ ?_ _ _ _).bind_eq fun r => Carried.refl _
  rintro tag length bufPos ⟨userDataPresent, self⟩
  unfold fullyEncodedElement
  dsimp only
  split
  · exact (decodeUint32_carried h _ _).bind_eq fun _ => Carried.refl _
  · exact Carried.refl _
  · exact Carried.refl _

theorem parsePCDLEntry_carried (fuel : Nat) (totalLength bufPos : Int) (self : IsoPresentation) :
    Carried Eq (parsePCDLEntry buffer uninitialised fuel totalLength bufPos self)
      (parsePCDLEntry buffer' uninitialised fuel totalLength bufPos self) := by
  refine (parseElements_same h _ _ _ ?_ _ _ _).bind_eq fun r => Carried.refl _
  intro tag len bufPos entry
  unfold pcdlEntryElement
  split
  · exact (decodeUint32_carried h _ _).bind_eq fun _ => Carried.refl _
  · refine Carried.ite ((h.readOctets _ _).bind_eq fun _ => Carried.refl _) ?_
    exact Carried.ite ((h.readOctets _ _).bind_eq fun _ => Carried.refl _) (Carried.refl _)
  · exact Carried.refl _

theorem parseNormalModeParameters_carried (fuel : Nat) (totalLength bufPos : Int)
    (self : IsoPresentation) :
    Carried Eq (parseNormalModeParameters buffer uninitialised fuel totalLength bufPos self)
      (parseNormalModeParameters buffer' uninitialised fuel totalLength bufPos self) := by
  refine parseElements_same h _ _ _ (fun tag len bufPos self => ?_) _ _ _
  refine Carried.ite ?_ (Carried.ite ?_ (Carried.refl _))
  · refine (parseElements_same h _ _ _ (fun tag len bufPos self => ?_) _ _ _).bind_eq
      fun r => Carried.refl _
    refine Carried.ite ?_ (Carried.refl _)
    exact (parsePCDLEntry_carried h _ _ _ _).bind_eq fun _ => Carried.refl _
  · exact (parseFullyEncodedData_carried h _ _ _ _).bind_eq fun _ => Carried.refl _

theorem parseAcceptMessage_carried (fuel : Nat) (maxBufPos : Int) (self : IsoPresentation) :
    Carried Eq (parseAcceptMessage buffer uninitialised fuel maxBufPos self)
      (parseAcceptMessage buffer' uninitialised fuel maxBufPos self) := by
  refine (h.read 0).bind_eq fun tag => Carried.ite (Carried.refl _) ?_
  refine (decodeLength_carried h _ _ _).bind_eq fun pair => ?_
  refine (parseElements_same h _ _ _ (fun tag len bufPos self => ?_) _ _ _).bind_eq
    fun r => Carried.refl _
  refine Carried.ite ?_ (Carried.refl _)
  exact (parseNormalModeParameters_carried h _ _ _ _).bind_eq fun _ => Carried.refl _

theorem parseConnect_carried (fuel : Nat) (maxBufPos : Int) (self : IsoPresentation) :
    Carried Eq (parseConnect buffer uninitialised fuel maxBufPos self)
      (parseConnect buffer' uninitialised fuel maxBufPos self) := by
  refine (h.read 0).bind_eq fun tag => Carried.ite (Carried.refl _) ?_
  refine (decodeLength_carried h _ _ _).bind_eq fun pair => ?_
  refine (parseElements_same h _ _ _ (fun tag len bufPos self => ?_) _ _ _).bind_eq
    fun r => Carried.refl _
  refine Carried.ite ?_ (Carried.ite ?_ (Carried.refl _))
  · refine (h.read bufPos).bind_eq fun tag => Carried.ite (Carried.refl _) ?_
    refine (decodeLength_carried h _ _ _).bind_eq fun pair => ?_
    exact (decodeUint32_carried h _ _).bind_eq fun _ => Carried.refl _
  · exact (parseNormalModeParameters_carried h _ _ _ _).bind_eq fun _ => Carried.refl _

theorem parseUserData_carried (length : Int) (self : IsoPresentation) :
    Carried Eq (parseUserData buffer uninitialised length self)
      (parseUserData buffer' uninitialised length self) := by
  refine Carried.ite (Carried.refl _) ((h.read 0).bind_eq fun tag => ?_)
  refine Carried.ite (Carried.refl _) ((decodeLength_carried h _ _ _).bind_eq fun pair => ?_)
  refine (h.read _).bind_eq fun tag => Carried.ite (Carried.refl _) ?_
  refine (decodeLength_carried h _ _ _).bind_eq fun pair => ?_
  refine (h.read _).bind_eq fun tag => Carried.ite (Carried.refl _) ?_
  refine (h.read _).bind_eq fun length => Carried.ite (Carried.refl _) ?_
  refine (h.read _).bind_eq fun contextId => ?_
  refine (h.read _).bind_eq fun tag => Carried.ite (Carried.refl _) ?_
  exact (decodeLength_carried h _ _ _).bind_eq fun _ => Carried.refl _

end IsoPresentation

namespace AcseConnection

/-- The connections differ in who asks for the password. -/
def Replaces (asked answers : Option AcseAuthenticator) (c c' : AcseConnection) : Prop :=
  c.authenticator = asked ∧ c' = { c with authenticator := answers }

variable {asked answers : Option AcseAuthenticator} {c c' : AcseConnection}

section

variable (h : buffer.Within buffer') (hreplaces : Replaces asked answers c c')
include h hreplaces

theorem userInformation_carried (fuel : Nat) (maxBufPos len bufPos : Int) (userInfoValid : Bool) :
    Carried (fun r r' => r.1 = r'.1 ∧ r.2.1 = r'.2.1 ∧ Replaces asked answers r.2.2 r'.2.2)
      (userInformation buffer uninitialised fuel maxBufPos len bufPos userInfoValid c)
      (userInformation buffer' uninitialised fuel maxBufPos len bufPos userInfoValid c') := by
  refine (h.read bufPos).bind_eq fun tag => Carried.ite (Carried.ok ⟨rfl, rfl, hreplaces⟩) ?_
  refine (decodeLength_carried h _ _ _).bind_eq fun pair => ?_
  refine (parseElements_carried (R := fun s t => s.1 = t.1 ∧ Replaces asked answers s.2 t.2) h
    uninitialised _ false ?_ fuel pair.1 ⟨rfl, hreplaces⟩).bind ?_
  · rintro tag len bufPos ⟨info, s⟩ ⟨_, _⟩ ⟨rfl, rfl, rfl⟩
    unfold userInformationElement
    dsimp only
    split
    · exact (decodeUint32_carried h _ _).bind_eq fun _ => Carried.ok ⟨rfl, rfl, rfl, rfl⟩
    · exact Carried.ok ⟨rfl, rfl, rfl, rfl⟩
    · exact Carried.ok ⟨rfl, rfl, rfl, rfl⟩
  · rintro ⟨next, info, s⟩ ⟨_, _, t⟩ ⟨rfl, rfl, hst⟩
    exact Carried.ok ⟨rfl, rfl, hst⟩

theorem parseAarePdu_carried (fuel : Nat) (bufPos maxBufPos : Int) :
    Carried (fun r r' => r.1 = r'.1 ∧ Replaces asked answers r.2 r'.2)
      (parseAarePdu buffer uninitialised fuel bufPos maxBufPos c)
      (parseAarePdu buffer' uninitialised fuel bufPos maxBufPos c') := by
  refine (parseElements_carried (R := fun s t : AareState => s.result = t.result ∧
    s.userInfoValid = t.userInfoValid ∧ Replaces asked answers s.connection t.connection) h
    uninitialised _ false ?_ fuel bufPos (s := ⟨99, false, c⟩) (t := ⟨99, false, c'⟩)
    ⟨rfl, rfl, hreplaces⟩).bind ?_
  · rintro tag len bufPos ⟨result, valid, s⟩ ⟨_, _, t⟩ ⟨rfl, rfl, hst⟩
    refine Carried.ite ?_ (Carried.ite ?_ (Carried.ok ⟨rfl, rfl, rfl, hst⟩))
    · refine (decodeLength_carried h _ _ _).bind_eq fun pair => ?_
      exact (decodeUint32_carried h _ _).bind_eq fun _ => Carried.ok ⟨rfl, rfl, rfl, hst⟩
    · refine (userInformation_carried h hst fuel maxBufPos len bufPos valid).bind ?_
      rintro ⟨next, valid, s'⟩ ⟨_, _, t'⟩ ⟨rfl, rfl, hst'⟩
      exact Carried.ok ⟨rfl, rfl, rfl, hst'⟩
  · rintro ⟨next, result, valid, s⟩ ⟨_, _, _, t⟩ ⟨rfl, rfl, rfl, hst⟩
    exact Carried.ok ⟨rfl, hst⟩

end

/-- One authenticator says of the smaller buffer what the other one says of the larger. -/
structure SaysSame (buffer buffer' : Memory) (asked answers : AcseAuthenticator) : Prop where
  message : ∀ parameter, asked buffer parameter = answers buffer' parameter
  nowhere : ∀ parameter, asked (fun _ => none) parameter = answers (fun _ => none) parameter

theorem authenticateClient_carried (h : buffer.Within buffer') {asked answers : AcseAuthenticator}
    (hsame : SaysSame buffer buffer' asked answers) (authMechanism authValue : Option Region) :
    Carried Eq (authenticateClient buffer asked authMechanism authValue)
      (authenticateClient buffer' answers authMechanism authValue) := by
  have hmechanism : Carried Eq (isPasswordMechanism buffer authMechanism)
      (isPasswordMechanism buffer' authMechanism) := by
    unfold isPasswordMechanism
    split
    · exact (h.readOctets _ _).bind_eq fun _ => Carried.refl _
    · exact Carried.refl _
  refine hmechanism.bind_eq fun isPassword => Carried.ite ?_ (Carried.ok (hsame.message _))
  cases authValue with
  | none => exact Carried.ok (hsame.nowhere _)
  | some value => exact Carried.ok (hsame.message _)

/-- What comes of the check of the authentication is the same in both buffers. -/
def ChecksAlike (buffer buffer' : Memory) (asked answers : Option AcseAuthenticator) : Prop :=
  ∀ c c' authMechanism authValue, Replaces asked answers c c' →
    Carried (fun r r' => r.1 = r'.1 ∧ Replaces asked answers r.2 r'.2)
      (c.checkAuthentication buffer authMechanism authValue)
      (c'.checkAuthentication buffer' authMechanism authValue)

theorem checksAlike_some (h : buffer.Within buffer') {asked answers : AcseAuthenticator}
    (hsame : SaysSame buffer buffer' asked answers) :
    ChecksAlike buffer buffer' (some asked) (some answers) := by
  rintro ⟨nextReference, userDataBuffer, authenticator, authenticated⟩ _ authMechanism authValue
    ⟨rfl, rfl⟩
  exact (authenticateClient_carried h hsame _ _).bind_eq fun ok => Carried.ok ⟨rfl, rfl, rfl⟩

theorem checksAlike_none (buffer buffer' : Memory) : ChecksAlike buffer buffer' none none := by
  rintro ⟨nextReference, userDataBuffer, authenticator, authenticated⟩ _ authMechanism authValue
    ⟨rfl, rfl⟩
  exact Carried.ok ⟨rfl, rfl, rfl⟩

theorem parseAarqPdu_carried (h : buffer.Within buffer')
    (hcheck : ChecksAlike buffer buffer' asked answers) (hreplaces : Replaces asked answers c c')
    (fuel : Nat) (bufPos maxBufPos : Int) :
    Carried (fun r r' => r.1 = r'.1 ∧ Replaces asked answers r.2 r'.2)
      (parseAarqPdu buffer uninitialised fuel bufPos maxBufPos c)
      (parseAarqPdu buffer' uninitialised fuel bufPos maxBufPos c') := by
  refine (parseElements_carried (R := fun s t : AarqState => s.authMechanism = t.authMechanism ∧
    s.authValue = t.authValue ∧ s.userInfoValid = t.userInfoValid ∧
      Replaces asked answers s.connection t.connection) h
    uninitialised _ true ?_ fuel bufPos (s := ⟨none, none, false, c⟩)
    (t := ⟨none, none, false, c'⟩) ⟨rfl, rfl, rfl, hreplaces⟩).bind ?_
  · rintro tag len bufPos ⟨mechanism, value, valid, s⟩ ⟨_, _, _, t⟩ ⟨rfl, rfl, rfl, hst⟩
    refine Carried.ite (Carried.ok ⟨rfl, rfl, rfl, rfl, hst⟩) (Carried.ite ?_
      (Carried.ite ?_ (Carried.ok ⟨rfl, rfl, rfl, rfl, hst⟩)))
    · exact (decodeLength_carried h _ _ _).bind_eq fun _ => Carried.ok ⟨rfl, rfl, rfl, rfl, hst⟩
    · refine (userInformation_carried h hst fuel maxBufPos len bufPos valid).bind ?_
      rintro ⟨next, valid, s'⟩ ⟨_, _, t'⟩ ⟨rfl, rfl, hst'⟩
      exact Carried.ok ⟨rfl, rfl, rfl, rfl, hst'⟩
  · rintro ⟨next, mechanism, value, valid, s⟩ ⟨_, _, _, _, t⟩ ⟨rfl, rfl, rfl, rfl, hst⟩
    refine Carried.ite (Carried.ok ⟨rfl, hst⟩) ((hcheck s t mechanism value hst).bind ?_)
    rintro ⟨ok, s'⟩ ⟨_, t'⟩ ⟨rfl, hst'⟩
    exact Carried.ite (Carried.ok ⟨rfl, hst'⟩) (Carried.ok ⟨rfl, hst'⟩)

theorem parseMessage_carried (h : buffer.Within buffer')
    (hcheck : ChecksAlike buffer buffer' asked answers) (hreplaces : Replaces asked answers c c')
    (fuel : Nat) (messageSize : Int) :
    Carried (fun r r' => r.1 = r'.1 ∧ Replaces asked answers r.2 r'.2)
      (parseMessage buffer uninitialised fuel messageSize c)
      (parseMessage buffer' uninitialised fuel messageSize c') := by
  refine (h.read 0).bind_eq fun messageType => ?_
  refine (decodeLength_carried h _ _ _).bind_eq fun pair => ?_
  have hsame : ∀ indication : AcseIndication,
      Carried (fun r r' => r.1 = r'.1 ∧ Replaces asked answers r.2 r'.2)
        (.ok (indication, c) : Exec (AcseIndication × AcseConnection)) (.ok (indication, c')) :=
    fun _ => Carried.ok ⟨rfl, hreplaces⟩
  refine Carried.ite (hsame _) ?_
  refine Carried.ite (parseAarqPdu_carried h hcheck hreplaces fuel pair.1 messageSize) ?_
  refine Carried.ite (parseAarePdu_carried h hreplaces fuel pair.1 messageSize) ?_
  exact Carried.ite (hsame _) (Carried.ite (hsame _) (Carried.ite (hsame _) (hsame _)))

end AcseConnection

end Iec61850
