import Iec61850.Iso.Session

/-! The SPDUs that `iso_session.c` creates, and what is read from them. -/

namespace Iec61850

open Machine

namespace IsoSession

/-! ## Builders -/

/-- A number of two octets, as the encoders write it. -/
def selectorOctets (selector : UInt16) : List UInt8 :=
  [(selector / 0x100).toUInt8, (selector &&& 0x00ff).toUInt8]

def encodeConnectAcceptItem (options : UInt8) : List UInt8 := [5, 6, 0x13, 1, options, 0x16, 1, 2]

def encodeSessionRequirement (self : IsoSession) : List UInt8 :=
  0x14 :: 2 :: selectorOctets self.sessionRequirement

def encodeCallingSessionSelector (self : IsoSession) : List UInt8 :=
  0x33 :: 2 :: selectorOctets self.callingSessionSelector

def encodeCalledSessionSelector (self : IsoSession) : List UInt8 :=
  0x34 :: 2 :: selectorOctets self.calledSessionSelector

/-- The length is cut off to an octet where this is called. -/
def encodeSessionUserData (payloadLength : Nat) : List UInt8 := [0xc1, UInt8.ofNat payloadLength]

/-- An SPDU whose length is filled in when all of its parameters are there. -/
def withParameters (si : UInt8) (parameters payload : List UInt8) : List UInt8 :=
  si :: UInt8.ofNat (parameters.length + payload.length) :: (parameters ++ payload)

def createConnectSpdu (self : IsoSession) (remotePSelector localPSelector : UInt32)
    (payload : List UInt8) : IsoSession × List UInt8 :=
  let self := { self with
    calledSessionSelector := remotePSelector.toUInt16
    callingSessionSelector := localPSelector.toUInt16 }
  (self, withParameters 13 (encodeConnectAcceptItem 0 ++ (encodeSessionRequirement self ++
    (encodeCallingSessionSelector self ++ (encodeCalledSessionSelector self ++
      encodeSessionUserData payload.length)))) payload)

def createAcceptSpdu (self : IsoSession) (payload : List UInt8) : List UInt8 :=
  withParameters 14 (encodeConnectAcceptItem self.protocolOptions ++
    (encodeSessionRequirement self ++ (encodeCalledSessionSelector self ++
      encodeSessionUserData payload.length))) payload

def createDataSpdu (payload : List UInt8) : List UInt8 := [0x01, 0x00, 0x01, 0x00] ++ payload

def createFinishSpdu (payload : List UInt8) : List UInt8 :=
  [9, UInt8.ofNat (5 + payload.length), 17, 1, 2, 193, UInt8.ofNat payload.length] ++ payload

def createDisconnectSpdu (payload : List UInt8) : List UInt8 :=
  [10, UInt8.ofNat (2 + payload.length), 193, UInt8.ofNat payload.length] ++ payload

def createAbortSpdu (payload : List UInt8) : List UInt8 :=
  [25, UInt8.ofNat (5 + payload.length), 17, 1, 11, 193, UInt8.ofNat payload.length] ++ payload

/-! ## Lengths -/

/-- Parameters with the lengths of what they are; those of a connect/accept item are parameters
again. -/
inductive Parameters : List UInt8 → Prop
  | nil : Parameters []
  | cons {pi : UInt8} {content rest : List UInt8} : content.length < 256 →
    (pi = 5 → Parameters content) → Parameters rest →
    Parameters (pi :: UInt8.ofNat content.length :: (content ++ rest))

/-- The length fields are the numbers of the octets that follow. The two SPDUs in front of data have
no parameters. -/
inductive WellSized : List UInt8 → Prop
  | parameters {si : UInt8} {content : List UInt8} : content.length < 256 → Parameters content →
    WellSized (si :: UInt8.ofNat content.length :: content)
  | data {payload : List UInt8} : WellSized ([0x01, 0x00, 0x01, 0x00] ++ payload)

/-! ## Reading -/

variable {message rest : List UInt8} {messageSize maxOffset offset : Int} {fuel : Nat}
  {session : IsoSession}

theorem parse_userData {parameterLength : UInt8}
    (h : Memory.Left message (193 :: parameterLength :: rest) offset) (hlt : offset < maxOffset) :
    parseSessionHeaderParameters (Memory.ofList message) messageSize maxOffset (fuel + 1) offset
        session =
      .ok (true, { session with userData := some ⟨offset + 2, messageSize - (offset + 2)⟩ }) := by
  rw [parseSessionHeaderParameters, if_neg (by omega), h.read, ok_bind, h.next.read, ok_bind]
  rfl

theorem parse_transportDisconnect {reason : UInt8}
    (h : Memory.Left message (17 :: 1 :: reason :: rest) offset) (hlt : offset < maxOffset) :
    parseSessionHeaderParameters (Memory.ofList message) messageSize maxOffset (fuel + 1) offset
        session =
      parseSessionHeaderParameters (Memory.ofList message) messageSize maxOffset fuel (offset + 3)
        session := by
  rw [parseSessionHeaderParameters, if_neg (by omega), h.read, ok_bind, h.next.read, ok_bind]
  have : offset + 2 + (1 : UInt8).toNat = offset + 3 := by
    rw [Int.add_assoc]
    rfl
  exact congrArg (fun offset => parseSessionHeaderParameters _ _ _ fuel offset session) this

theorem selectorOctets_value (selector : UInt16) :
    (selector / 0x100).toUInt8.toUInt16 * 0x100 + (selector &&& 0x00ff).toUInt8.toUInt16 =
      selector := by
  have hlt := selector.toNat_lt
  apply UInt16.toNat_inj.mp
  simp only [UInt16.toNat_add, UInt16.toNat_mul, UInt8.toNat_toUInt16, UInt16.toNat_toUInt8,
    UInt16.toNat_div, UInt16.toNat_and, UInt16.reduceToNat]
  rw [Nat.and_two_pow_sub_one_eq_mod selector.toNat 8]
  omega

theorem readSelector_selectorOctets {selector : UInt16}
    (h : Memory.Left message (selectorOctets selector ++ rest) offset) :
    readSelector (Memory.ofList message) 2 offset = .ok (some selector) := by
  have hhigh : Memory.Left message
    ((selector / 0x100).toUInt8 :: (selector &&& 0x00ff).toUInt8 :: rest) offset := h
  rw [readSelector, if_neg (by decide), hhigh.read, ok_bind, hhigh.next.read, ok_bind,
    selectorOctets_value]
  rfl

/-- The three parameters that are numbers of two octets. -/
theorem parse_selector {pgi : UInt8} {selector : UInt16} {session' : IsoSession}
    (h : Memory.Left message (pgi :: 2 :: (selectorOctets selector ++ rest)) offset)
    (hlt : offset < maxOffset)
    (hpgi : pgi = 20 ∧ session' = { session with sessionRequirement := selector } ∨
      pgi = 51 ∧ session' = { session with callingSessionSelector := selector } ∨
      pgi = 52 ∧ session' = { session with calledSessionSelector := selector }) :
    parseSessionHeaderParameters (Memory.ofList message) messageSize maxOffset (fuel + 1) offset
        session =
      parseSessionHeaderParameters (Memory.ofList message) messageSize maxOffset fuel (offset + 4)
        session' := by
  have hselector : Memory.Left message (selectorOctets selector ++ rest) (offset + 2) := by
    have := h.next.next
    rwa [Int.add_assoc] at this
  have hread := readSelector_selectorOctets hselector
  rw [parseSessionHeaderParameters, if_neg (by omega), h.read, ok_bind, h.next.read, ok_bind]
  have hnext : offset + 2 + 2 = offset + 4 := by rw [Int.add_assoc]; rfl
  rcases hpgi with ⟨rfl, rfl⟩ | ⟨rfl, rfl⟩ | ⟨rfl, rfl⟩
  all_goals
    simp only
    rw [hread, ok_bind]
    simp only [hnext]

/-- The two parameters of a connect/accept item. -/
theorem parseAcceptParameters_item (session : IsoSession) {options : UInt8}
    (h : Memory.Left message (0x13 :: 1 :: options :: 0x16 :: 1 :: 2 :: rest) offset) :
    parseAcceptParameters (Memory.ofList message) (offset + 6) 7 offset false false session =
      .ok (some (offset + 6), { session with protocolOptions := options }) := by
  have hversion : Memory.Left message (0x16 :: 1 :: 2 :: rest) (offset + 3) := by
    have := h.next.next.next
    rwa [Int.add_assoc, Int.add_assoc] at this
  have hoptions : Memory.Left message (options :: 0x16 :: 1 :: 2 :: rest) (offset + 2) := by
    have := h.next.next
    rwa [Int.add_assoc] at this
  have htwo : Memory.Left message (2 :: rest) (offset + 3 + 2) := by
    have := hversion.next.next
    rwa [Int.add_assoc (offset + 3)] at this
  have hend : offset + 3 + 3 = offset + 6 := by rw [Int.add_assoc]; rfl
  rw [parseAcceptParameters, if_neg (by omega), h.read, ok_bind, h.next.read, ok_bind]
  simp only [ne_eq, not_true_eq_false, if_false]
  rw [hoptions.read, ok_bind, parseAcceptParameters, if_neg (by omega), hversion.read, ok_bind,
    hversion.next.read, ok_bind]
  simp only
  rw [htwo.read, ok_bind]
  simp only [ne_eq, not_true_eq_false, if_false, hend]
  rw [parseAcceptParameters, if_pos (Int.le_refl _)]
  rfl

/-- The connect/accept item. -/
theorem parse_connectAcceptItem {options : UInt8}
    (h : Memory.Left message (encodeConnectAcceptItem options ++ rest) offset)
    (hlt : offset < maxOffset) :
    parseSessionHeaderParameters (Memory.ofList message) messageSize maxOffset (fuel + 1) offset
        session =
      parseSessionHeaderParameters (Memory.ofList message) messageSize maxOffset fuel (offset + 8)
        { session with protocolOptions := options } := by
  have h0 : Memory.Left message (5 :: 6 :: 0x13 :: 1 :: options :: 0x16 :: 1 :: 2 :: rest) offset :=
    h
  have hitem : Memory.Left message (0x13 :: 1 :: options :: 0x16 :: 1 :: 2 :: rest)
      (offset + 2) := by
    have := h0.next.next
    rwa [Int.add_assoc] at this
  have hparse := parseAcceptParameters_item session hitem
  have hend : offset + 2 + 6 = offset + 8 := by rw [Int.add_assoc]; rfl
  rw [hend] at hparse
  rw [parseSessionHeaderParameters, if_neg (by omega), h0.read, ok_bind, h0.next.read, ok_bind]
  have hmax : offset + 2 + ((6 : UInt8).toNat : Int) = offset + 8 := by rw [Int.add_assoc]; rfl
  have hfuel : (6 : UInt8).toNat + 1 = 7 := rfl
  simp only [hmax, hfuel]
  rw [hparse]
  rfl

/-! ## What is read from an SPDU that was created -/

/-- The user data of the session are these octets of the buffer. -/
def UserDataIs (buffer : Memory) (session : IsoSession) (payload : List UInt8) : Prop :=
  ∃ region, session.userData = some region ∧ region.size = payload.length ∧
    (region.memory buffer).readOctets 0 payload.length = .ok payload

/-- Everything that is claimed of an SPDU: its length fields, the indication, and the user data, for
a session that reads it from a buffer in which something may follow. -/
structure RoundTrips (spdu payload : List UInt8) (indication : IsoSessionIndication)
    (session : IsoSession) (behind : List UInt8) : Prop where
  wellSized : WellSized spdu
  parsed : ∃ session', parseMessage (Memory.ofList (spdu ++ behind)) spdu.length session =
    .ok (indication, session') ∧ UserDataIs (Memory.ofList (spdu ++ behind)) session' payload

theorem readOctets_memory (buffer : Memory) (start size offset : Int) (n : Nat) :
    (Region.memory ⟨start, size⟩ buffer).readOctets offset n =
      buffer.readOctets (start + offset) n := by
  induction n generalizing offset with
  | zero => rfl
  | succ n ih =>
    rw [Memory.readOctets, Memory.readOctets, ih, ← Int.add_assoc]
    rfl

theorem userDataIs_of_left {payload : List UInt8} {size : Int}
    (h : Memory.Left message (payload ++ rest) offset) (hsize : size = payload.length) :
    UserDataIs (Memory.ofList message) { session with userData := some ⟨offset, size⟩ }
      payload := by
  refine ⟨_, rfl, hsize, ?_⟩
  rw [readOctets_memory, Int.add_zero]
  exact h.readOctets

/-- The SPDUs with a length and parameters. -/
inductive HasParameters : UInt8 → IsoSessionIndication → Prop
  | connect : HasParameters 13 .connect
  | accept : HasParameters 14 .connect
  | finish : HasParameters 9 .finish
  | disconnect : HasParameters 10 .disconnect

variable {si : UInt8} {indication : IsoSessionIndication} {parameters payload behind : List UInt8}

theorem length_withParameters (si : UInt8) (parameters payload : List UInt8) :
    (withParameters si parameters payload).length = parameters.length + payload.length + 2 := by
  rw [withParameters, List.length_cons, List.length_cons, List.length_append]

theorem parseMessage_withParameters (hsi : HasParameters si indication) :
    parseMessage (Memory.ofList (withParameters si parameters payload ++ behind))
        (withParameters si parameters payload).length session =
      parseWithParameters (Memory.ofList (withParameters si parameters payload ++ behind))
        (withParameters si parameters payload).length
        (UInt8.ofNat (parameters.length + payload.length)) indication session := by
  have h0 : Memory.Left (withParameters si parameters payload ++ behind)
    (si :: UInt8.ofNat (parameters.length + payload.length) ::
      (parameters ++ payload ++ behind)) 0 := .start _
  have hsize := length_withParameters si parameters payload
  have h1 : (Memory.ofList (withParameters si parameters payload ++ behind)).read 1 =
    .ok (UInt8.ofNat (parameters.length + payload.length)) := h0.next.read
  rw [parseMessage, if_neg (by omega), h0.read, ok_bind, h1, ok_bind]
  cases hsi <;> rfl

/-- A length that does not fit into its octet is noticed. -/
theorem parseMessage_of_long (hsi : HasParameters si indication)
    (hlong : 256 ≤ parameters.length + payload.length) :
    parseMessage (Memory.ofList (withParameters si parameters payload ++ behind))
        (withParameters si parameters payload).length session = .ok (.error, session) := by
  have hlt := (UInt8.ofNat (parameters.length + payload.length)).toNat_lt
  rw [parseMessage_withParameters hsi, parseWithParameters, if_pos]
  · rfl
  · rw [length_withParameters]
    omega

/-- The parameters lead to the user data. -/
theorem parseMessage_of_short (hsi : HasParameters si indication) {session' : IsoSession}
    (hshort : parameters.length + payload.length < 256)
    (hloop : parseSessionHeaderParameters
      (Memory.ofList (withParameters si parameters payload ++ behind))
      (parameters.length + payload.length + 2 : Nat) (parameters.length + payload.length + 2 : Nat)
      (parameters.length + payload.length + 1) 2 session = .ok (true, session')) :
    parseMessage (Memory.ofList (withParameters si parameters payload ++ behind))
        (withParameters si parameters payload).length session = .ok (indication, session') := by
  have hoctet : (UInt8.ofNat (parameters.length + payload.length)).toNat =
      parameters.length + payload.length := UInt8.toNat_ofNat_of_lt' hshort
  rw [parseMessage_withParameters hsi, parseWithParameters, length_withParameters, hoctet,
    if_neg (by omega)]
  have hmax : ((parameters.length + payload.length : Nat) : Int) + 2 =
      (parameters.length + payload.length + 2 : Nat) := by omega
  rw [hmax, hloop]
  rfl

theorem Parameters.userData (h : payload.length < 256) :
    Parameters (encodeSessionUserData payload.length ++ payload) := by
  have hpi : (0xc1 : UInt8) = 5 → Parameters payload := fun h => absurd h (by decide)
  have := Parameters.cons h hpi .nil
  rwa [List.append_nil] at this

theorem wellSized_withParameters (h : parameters.length + payload.length < 256)
    (hp : Parameters (parameters ++ payload)) :
    WellSized (withParameters si parameters payload) := by
  rw [← List.length_append] at h
  rw [withParameters, ← List.length_append]
  exact .parameters h hp

/-- An SPDU is read back if and only if its length fits into the octet. -/
theorem withParameters_roundTrips_iff (hsi : HasParameters si indication)
    (hp : payload.length < 256 → Parameters (parameters ++ payload))
    (hloop : parameters.length + payload.length < 256 → ∃ session',
      parseSessionHeaderParameters (Memory.ofList (withParameters si parameters payload ++ behind))
        (parameters.length + payload.length + 2 : Nat)
        (parameters.length + payload.length + 2 : Nat)
        (parameters.length + payload.length + 1) 2 session = .ok (true, session') ∧
      UserDataIs (Memory.ofList (withParameters si parameters payload ++ behind)) session'
        payload) :
    RoundTrips (withParameters si parameters payload) payload indication session behind ↔
      parameters.length + payload.length < 256 := by
  constructor
  · rintro ⟨-, session', hparsed, -⟩
    by_contra hlong
    rw [parseMessage_of_long hsi (Nat.le_of_not_lt hlong)] at hparsed
    cases hsi <;> cases hparsed
  · intro hshort
    obtain ⟨session', hloop, hdata⟩ := hloop hshort
    exact ⟨wellSized_withParameters hshort (hp (by omega)), session',
      parseMessage_of_short hsi hshort hloop, hdata⟩

theorem left_parameters (si : UInt8) (parameters payload behind : List UInt8) :
    Memory.Left (withParameters si parameters payload ++ behind) (parameters ++ (payload ++ behind))
      2 := by
  have h : Memory.Left (withParameters si parameters payload ++ behind)
      (si :: UInt8.ofNat (parameters.length + payload.length) ::
        (parameters ++ payload ++ behind)) 0 := .start _
  rw [List.append_assoc] at h
  exact h.next.next

/-- The user data are the last of the parameters. -/
theorem parse_payload (h : Memory.Left message
      (encodeSessionUserData payload.length ++ (payload ++ rest)) offset)
    (hlt : offset < maxOffset) (hsize : messageSize = offset + 2 + payload.length) :
    ∃ session', parseSessionHeaderParameters (Memory.ofList message) messageSize maxOffset
        (fuel + 1) offset session = .ok (true, session') ∧
      UserDataIs (Memory.ofList message) session' payload := by
  have h0 : Memory.Left message (0xc1 :: UInt8.ofNat payload.length :: (payload ++ rest))
    offset := h
  have hdata := h0.next.next
  rw [Int.add_assoc] at hdata
  exact ⟨_, parse_userData h0 hlt, userDataIs_of_left hdata (by omega)⟩

theorem createDisconnectSpdu_roundTrips_iff (payload behind : List UInt8) (session : IsoSession) :
    RoundTrips (createDisconnectSpdu payload) payload .disconnect session behind ↔
      payload.length ≤ 253 := by
  have heq : createDisconnectSpdu payload =
      withParameters 10 (encodeSessionUserData payload.length) payload := rfl
  have hlength : (encodeSessionUserData payload.length).length = 2 := rfl
  have hstart := left_parameters 10 (encodeSessionUserData payload.length) payload behind
  rw [heq, withParameters_roundTrips_iff .disconnect Parameters.userData fun _ => ?_, hlength]
  · omega
  · exact parse_payload hstart (by omega) (by omega)

/-- A reason in front of the user data. -/
def disconnectParameters (reason : UInt8) (payload : List UInt8) : List UInt8 :=
  [17, 1, reason] ++ encodeSessionUserData payload.length

theorem Parameters.disconnect {reason : UInt8} (h : payload.length < 256) :
    Parameters (disconnectParameters reason payload ++ payload) := by
  have hpi : (17 : UInt8) = 5 → Parameters [reason] := fun h => absurd h (by decide)
  have hone : [reason].length < 256 := by
    rw [List.length_singleton]
    decide
  exact Parameters.cons hone hpi (Parameters.userData h)

theorem createFinishSpdu_roundTrips_iff (payload behind : List UInt8) (session : IsoSession) :
    RoundTrips (createFinishSpdu payload) payload .finish session behind ↔
      payload.length ≤ 250 := by
  have heq : createFinishSpdu payload =
      withParameters 9 (disconnectParameters 2 payload) payload := rfl
  have hlength : (disconnectParameters 2 payload).length = 5 := rfl
  have hstart : Memory.Left (withParameters 9 (disconnectParameters 2 payload) payload ++ behind)
      (17 :: 1 :: 2 :: (encodeSessionUserData payload.length ++ (payload ++ behind))) 2 :=
    left_parameters 9 (disconnectParameters 2 payload) payload behind
  rw [heq, withParameters_roundTrips_iff .finish Parameters.disconnect fun _ => ?_, hlength]
  · omega
  · have hdata := hstart.next.next.next
    rw [parse_transportDisconnect hstart (by omega)]
    rw [hlength]
    have hfuel : 5 + payload.length = 4 + payload.length + 1 := by omega
    rw [hfuel]
    exact parse_payload hdata (by omega) (by omega)

theorem Parameters.connectAcceptItem {options : UInt8} (h : Parameters rest) :
    Parameters (encodeConnectAcceptItem options ++ rest) := by
  have hsingle : ∀ octet : UInt8, [octet].length < 256 := fun octet => by
    rw [List.length_singleton]
    decide
  have hversion : Parameters [0x16, 1, 2] :=
    Parameters.cons (hsingle 2) (fun h => absurd h (by decide)) .nil
  have hitem : Parameters [0x13, 1, options, 0x16, 1, 2] :=
    Parameters.cons (hsingle options) (fun h => absurd h (by decide)) hversion
  have hlength : [0x13, 1, options, 0x16, 1, 2].length < 256 := by
    show 6 < 256
    decide
  exact Parameters.cons hlength (fun _ => hitem) h

theorem Parameters.selector {pi : UInt8} {selector : UInt16} (hpi : pi ≠ 5) (h : Parameters rest) :
    Parameters (pi :: 2 :: (selectorOctets selector ++ rest)) := by
  have hlength : (selectorOctets selector).length < 256 := by
    show 2 < 256
    decide
  exact Parameters.cons hlength (fun h => absurd h hpi) h

def acceptParameters (self : IsoSession) (payloadLength : Nat) : List UInt8 :=
  encodeConnectAcceptItem self.protocolOptions ++ (encodeSessionRequirement self ++
    (encodeCalledSessionSelector self ++ encodeSessionUserData payloadLength))

theorem createAcceptSpdu_roundTrips_iff (self : IsoSession) (payload behind : List UInt8)
    (session : IsoSession) :
    RoundTrips (createAcceptSpdu self payload) payload .connect session behind ↔
      payload.length ≤ 237 := by
  have heq : createAcceptSpdu self payload =
      withParameters 14 (acceptParameters self payload.length) payload := rfl
  have hlength : (acceptParameters self payload.length).length = 18 := rfl
  have hstart : Memory.Left
      (withParameters 14 (acceptParameters self payload.length) payload ++ behind)
      (encodeConnectAcceptItem self.protocolOptions ++ (encodeSessionRequirement self ++
        (encodeCalledSessionSelector self ++ (encodeSessionUserData payload.length ++
          (payload ++ behind))))) 2 :=
    left_parameters 14 (acceptParameters self payload.length) payload behind
  have hparameters : payload.length < 256 →
      Parameters (acceptParameters self payload.length ++ payload) := fun h =>
    .connectAcceptItem (.selector (by decide) (.selector (by decide) (.userData h)))
  rw [heq, withParameters_roundTrips_iff .accept hparameters fun _ => ?_, hlength]
  · omega
  · have hrequirement : Memory.Left _ (encodeSessionRequirement self ++
      (encodeCalledSessionSelector self ++ (encodeSessionUserData payload.length ++
        (payload ++ behind)))) (2 + 8) := hstart.advance
    have hcalled : Memory.Left _ (encodeCalledSessionSelector self ++
      (encodeSessionUserData payload.length ++ (payload ++ behind))) (2 + 8 + 4) :=
        hrequirement.advance
    have hdata : Memory.Left _ (encodeSessionUserData payload.length ++ (payload ++ behind))
      (2 + 8 + 4 + 4) := hcalled.advance
    have hfuel : 18 + payload.length + 1 = 15 + payload.length + 1 + 1 + 1 + 1 := by omega
    rw [hlength, hfuel, parse_connectAcceptItem hstart (by omega),
      parse_selector hrequirement (by omega) (.inl ⟨rfl, rfl⟩),
      parse_selector hcalled (by omega) (.inr (.inr ⟨rfl, rfl⟩))]
    exact parse_payload hdata (by omega) (by omega)

def connectParameters (self : IsoSession) (payloadLength : Nat) : List UInt8 :=
  encodeConnectAcceptItem 0 ++ (encodeSessionRequirement self ++
    (encodeCallingSessionSelector self ++ (encodeCalledSessionSelector self ++
      encodeSessionUserData payloadLength)))

theorem createConnectSpdu_roundTrips_iff (self : IsoSession)
    (remotePSelector localPSelector : UInt32) (payload behind : List UInt8)
    (session : IsoSession) :
    RoundTrips (createConnectSpdu self remotePSelector localPSelector payload).2 payload .connect
        session behind ↔
      payload.length ≤ 233 := by
  rw [createConnectSpdu]
  generalize { self with
    calledSessionSelector := remotePSelector.toUInt16
    callingSessionSelector := localPSelector.toUInt16 } = self
  have hlength : (connectParameters self payload.length).length = 22 := rfl
  have hstart : Memory.Left
      (withParameters 13 (connectParameters self payload.length) payload ++ behind)
      (encodeConnectAcceptItem 0 ++ (encodeSessionRequirement self ++
        (encodeCallingSessionSelector self ++ (encodeCalledSessionSelector self ++
          (encodeSessionUserData payload.length ++ (payload ++ behind)))))) 2 :=
    left_parameters 13 (connectParameters self payload.length) payload behind
  have hparameters : payload.length < 256 →
      Parameters (connectParameters self payload.length ++ payload) := fun h =>
    .connectAcceptItem (.selector (by decide) (.selector (by decide)
      (.selector (by decide) (.userData h))))
  show RoundTrips (withParameters 13 (connectParameters self payload.length) payload) payload
    .connect session behind ↔ _
  rw [withParameters_roundTrips_iff .connect hparameters fun _ => ?_, hlength]
  · omega
  · have hrequirement : Memory.Left _ (encodeSessionRequirement self ++
      (encodeCallingSessionSelector self ++ (encodeCalledSessionSelector self ++
        (encodeSessionUserData payload.length ++ (payload ++ behind))))) (2 + 8) := hstart.advance
    have hcalling : Memory.Left _ (encodeCallingSessionSelector self ++
      (encodeCalledSessionSelector self ++ (encodeSessionUserData payload.length ++
        (payload ++ behind)))) (2 + 8 + 4) := hrequirement.advance
    have hcalled : Memory.Left _ (encodeCalledSessionSelector self ++
      (encodeSessionUserData payload.length ++ (payload ++ behind))) (2 + 8 + 4 + 4) :=
        hcalling.advance
    have hdata : Memory.Left _ (encodeSessionUserData payload.length ++ (payload ++ behind))
      (2 + 8 + 4 + 4 + 4) := hcalled.advance
    have hfuel : 22 + payload.length + 1 = 18 + payload.length + 1 + 1 + 1 + 1 + 1 := by omega
    rw [hlength, hfuel, parse_connectAcceptItem hstart (by omega),
      parse_selector hrequirement (by omega) (.inl ⟨rfl, rfl⟩),
      parse_selector hcalling (by omega) (.inr (.inl ⟨rfl, rfl⟩)),
      parse_selector hcalled (by omega) (.inr (.inr ⟨rfl, rfl⟩))]
    exact parse_payload hdata (by omega) (by omega)

/-- The SPDU of data says nothing about the length of what follows. -/
theorem createDataSpdu_roundTrips (payload behind : List UInt8) (session : IsoSession) :
    RoundTrips (createDataSpdu payload) payload .data session behind := by
  have h0 : Memory.Left (createDataSpdu payload ++ behind)
    (0x01 :: 0x00 :: 0x01 :: 0x00 :: (payload ++ behind)) 0 := .start _
  have h1 : (Memory.ofList (createDataSpdu payload ++ behind)).read 1 = .ok 0x00 := h0.next.read
  have h2 : (Memory.ofList (createDataSpdu payload ++ behind)).read 2 = .ok 0x01 :=
    h0.next.next.read
  have h3 : (Memory.ofList (createDataSpdu payload ++ behind)).read 3 = .ok 0x00 :=
    h0.next.next.next.read
  have hdata : Memory.Left (createDataSpdu payload ++ behind) (payload ++ behind) 4 :=
    h0.next.next.next.next
  have hlength : (createDataSpdu payload).length = 4 + payload.length := by
    rw [createDataSpdu, List.length_append]
    rfl
  have hsize : ((createDataSpdu payload).length : Int) - 4 = payload.length := by omega
  refine ⟨.data, { session with userData := some ⟨4, payload.length⟩ }, ?_,
    userDataIs_of_left hdata rfl⟩
  rw [parseMessage, if_neg (by omega), h0.read, ok_bind, h1, ok_bind]
  simp only
  rw [if_neg (by omega), if_neg (by decide), h2, ok_bind, if_neg (by decide), h3, ok_bind,
    if_neg (by decide), hsize]
  rfl

/-- Nobody looks for the user data of an abort: those that the session had before stay. -/
theorem createAbortSpdu_roundTrips_iff (payload behind : List UInt8) (session : IsoSession) :
    RoundTrips (createAbortSpdu payload) payload .abort session behind ↔
      payload.length ≤ 250 ∧
        UserDataIs (Memory.ofList (createAbortSpdu payload ++ behind)) session payload := by
  have heq : createAbortSpdu payload =
      withParameters 25 (disconnectParameters 11 payload) payload := rfl
  have hlength : (disconnectParameters 11 payload).length = 5 := rfl
  have hparsed : parseMessage (Memory.ofList (createAbortSpdu payload ++ behind))
      (createAbortSpdu payload).length session = .ok (.abort, session) := by
    have h0 : Memory.Left (createAbortSpdu payload ++ behind)
      (25 :: UInt8.ofNat (5 + payload.length) :: (disconnectParameters 11 payload ++
        (payload ++ behind))) 0 := .start _
    have h1 : (Memory.ofList (createAbortSpdu payload ++ behind)).read 1 =
      .ok (UInt8.ofNat (5 + payload.length)) := h0.next.read
    have hsize := length_withParameters 25 (disconnectParameters 11 payload) payload
    rw [← heq] at hsize
    rw [parseMessage, if_neg (by omega), h0.read, ok_bind, h1, ok_bind]
    rfl
  constructor
  · rintro ⟨hsized, session', hread, hdata⟩
    obtain rfl : session = session' := by
      rw [hparsed] at hread
      exact congrArg Prod.snd (Except.ok.inj hread)
    refine ⟨?_, hdata⟩
    generalize hspdu : createAbortSpdu payload = spdu at hsized
    cases hsized with
    | @parameters si content hlt =>
      have htail : disconnectParameters 11 payload ++ payload = content :=
        (List.cons.inj (List.cons.inj hspdu).2).2
      rw [← htail, List.length_append, hlength] at hlt
      omega
    | data => cases hspdu
  · rintro ⟨hle, hdata⟩
    refine ⟨?_, session, hparsed, hdata⟩
    exact wellSized_withParameters (by rw [hlength]; omega) (Parameters.disconnect (by omega))

/-- Every SPDU is read back if and only if what is to be written into an octet fits into it, for an
abort only if the session has the payload as its user data already. -/
theorem spdus_roundTrip_iff (self session : IsoSession) (remotePSelector localPSelector : UInt32)
    (payload behind : List UInt8) :
    (RoundTrips (createConnectSpdu self remotePSelector localPSelector payload).2 payload .connect
        session behind ↔ payload.length ≤ 233) ∧
    (RoundTrips (createAcceptSpdu self payload) payload .connect session behind ↔
      payload.length ≤ 237) ∧
    (RoundTrips (createDataSpdu payload) payload .data session behind ↔ True) ∧
    (RoundTrips (createFinishSpdu payload) payload .finish session behind ↔
      payload.length ≤ 250) ∧
    (RoundTrips (createDisconnectSpdu payload) payload .disconnect session behind ↔
      payload.length ≤ 253) ∧
    (RoundTrips (createAbortSpdu payload) payload .abort session behind ↔
      payload.length ≤ 250 ∧
        UserDataIs (Memory.ofList (createAbortSpdu payload ++ behind)) session payload) :=
  ⟨createConnectSpdu_roundTrips_iff self remotePSelector localPSelector payload behind session,
    createAcceptSpdu_roundTrips_iff self payload behind session,
    iff_true_intro (createDataSpdu_roundTrips payload behind session),
    createFinishSpdu_roundTrips_iff payload behind session,
    createDisconnectSpdu_roundTrips_iff payload behind session,
    createAbortSpdu_roundTrips_iff payload behind session⟩

/-- A session that has just been set up does not get the user data of an abort. -/
theorem abort_not_read :
    ¬ RoundTrips (createAbortSpdu [0xa0]) [0xa0] .abort IsoSession.init [] := by
  rintro ⟨-, session', hparsed, region, hdata, -⟩
  have hsession : session' = IsoSession.init :=
    (congrArg Prod.snd (Except.ok.inj hparsed)).symm
  rw [hsession] at hdata
  cases hdata

end IsoSession

end Iec61850
