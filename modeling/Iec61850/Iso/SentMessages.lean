import Iec61850.Iso.AcsePdus
import Iec61850.Iso.SessionSpdus
import Iec61850.Transport.Exchange

/-! What a party sends: a payload with the messages of the layers below around it, in buffers that
are chained. -/

namespace Iec61850

open Machine Transport BerEncoder

/-- The TPDUs of a message, of a connection that has agreed on the longest ones. -/
def InTpdus (message octets : List UInt8) : Prop :=
  ∃ tpdus, Segments 8189 message tpdus ∧ octets = tpdus.flatten

namespace Transport.CotpConnection

/-- The messages are sent, from the outermost to the payload. The network takes and carries all that
is sent. -/
def send (self : CotpConnection) (messages : List (List UInt8)) : Exec (List UInt8) := do
  let (_, tpdus) ← self.sendDataMessage (fun _ => true) (BufferChain.of (chained messages))
  return tpdus.flatten

/-- One message with what is in it can be sent. -/
theorem Ready.send {self : CotpConnection} (h : self.Ready) {message : List UInt8}
    {messages : List (List UInt8)} (hlayers : Layered (message :: messages))
    (hlast : ∀ payload ∈ (message :: messages).getLast?, payload ≠ []) :
    ∃ octets, self.send (message :: messages) = .ok octets ∧ InTpdus message octets := by
  have hparts : chained (message :: messages) ≠ [] := by
    cases messages with
    | nil => exact List.cons_ne_nil _ _
    | cons inner messages => exact List.cons_ne_nil _ _
  obtain ⟨tpdus, hsend, hsegments⟩ :=
    h.sendDataMessage hparts (ne_nil_of_mem_chained hlayers hlast)
  rw [flatten_chained hlayers] at hsegments
  refine ⟨tpdus.flatten, ?_, tpdus, hsegments, rfl⟩
  rw [CotpConnection.send, hsend]
  rfl

/-- A message that has been sent is read, with the next ones behind it. -/
theorem parseIncomingMessage_inTpdus (wideShift : UInt8 → Int) {message octets : List UInt8}
    (h : InTpdus message octets) (self : CotpConnection) (rest : Stream)
    (hroom : message.length ≤ self.payload.maxSize) :
    ∃ self', self.parseIncomingMessage wideShift (octets ++ rest) =
        .ok (.dataIndication, self', rest) ∧ self.Holding message self' := by
  obtain ⟨tpdus, hsegments, rfl⟩ := h
  exact parseIncomingMessage_segments wideShift hsegments self rest hroom

end Transport.CotpConnection

theorem InTpdus.ne_nil {message octets : List UInt8} (h : InTpdus message octets) : octets ≠ [] := by
  obtain ⟨tpdus, hsegments, rfl⟩ := h
  cases hsegments with
  | last =>
    rw [List.flatten_singleton]
    exact List.cons_ne_nil _ _
  | more => exact List.cons_ne_nil _ _

/-! The messages there are. -/

/-- `AcseConnection_createReleaseRequestMessage` -/
def AcseConnection.createReleaseRequestMessage : List UInt8 := [0x62, 3, 0x80, 1, 0]

/-- `AcseConnection_createReleaseResponseMessage` -/
def AcseConnection.createReleaseResponseMessage : List UInt8 := [0x63, 0]

open AcseConnection

/-- `IsoConnection_sendMessage` and `IsoClientConnection_sendMessage` -/
def dataMessages (presentation : IsoPresentation) (payload : List UInt8) : List (List UInt8) :=
  let userData := presentation.createUserData payload
  [IsoSession.createDataSpdu userData, userData, payload]

/-- `IsoClientConnection_release` -/
def finishMessages (presentation : IsoPresentation) : List (List UInt8) :=
  let userData := presentation.createUserDataACSE createReleaseRequestMessage
  [IsoSession.createFinishSpdu userData, userData, createReleaseRequestMessage]

/-- The answer to a session finish indication. -/
def disconnectMessages (presentation : IsoPresentation) : List (List UInt8) :=
  let userData := presentation.createUserDataACSE createReleaseResponseMessage
  [IsoSession.createDisconnectSpdu userData, userData, createReleaseResponseMessage]

/-- The answer to a session connect indication, with the one of the MMS layer in it. -/
def acceptMessages (session : IsoSession) (presentation : IsoPresentation) (acse : AcseConnection)
    (response : List UInt8) : List (List UInt8) :=
  let associateResponse := acse.createAssociateResponseMessage 0 response
  let cpa := presentation.createCpaMessage associateResponse
  [session.createAcceptSpdu cpa, cpa, associateResponse, response]

section Layers

variable {octets inner rest payload : List UInt8} {messages : List (List UInt8)}

/-- What is at the end of the rest is at the end of it all. -/
theorem encloses_of_suffix (hne : octets ≠ []) (h : inner <:+ rest) :
    Encloses (octets ++ rest) inner := by
  obtain ⟨first, rfl⟩ := h
  exact ⟨octets ++ first, List.append_ne_nil_of_left_ne_nil hne _, (List.append_assoc _ _ _).symm⟩

theorem encodeTL_ne_nil (tag : UInt8) (length : Nat) : encodeTL tag length ≠ [] :=
  List.cons_ne_nil _ _

theorem Suffix.behind (octets : List UInt8) (h : inner <:+ rest) : inner <:+ octets ++ rest :=
  h.trans (List.suffix_append octets rest)

theorem encloses_userDataPdu (contextId : UInt8) (payload : List UInt8) :
    Encloses (IsoPresentation.userDataPdu contextId payload) payload :=
  encloses_of_suffix (encodeTL_ne_nil _ _)
    (Suffix.behind _ (Suffix.behind _ (List.suffix_append _ _)))

theorem suffix_encodeUserData (contextId : UInt8) (payload : List UInt8) :
    payload <:+ IsoPresentation.encodeUserData contextId payload :=
  Suffix.behind _ (Suffix.behind _ (Suffix.behind _ (Suffix.behind _ (List.suffix_append _ _))))

theorem encloses_createCpaMessage (presentation : IsoPresentation) (payload : List UInt8) :
    Encloses (presentation.createCpaMessage payload) payload := by
  refine encloses_of_suffix (encodeTL_ne_nil _ _) ?_
  iterate 7 apply Suffix.behind
  exact suffix_encodeUserData _ _

theorem encloses_createConnectPdu (presentation : IsoPresentation)
    (localPSelector remotePSelector : UInt32) (payload : List UInt8) :
    Encloses (presentation.createConnectPdu localPSelector remotePSelector payload).2 payload := by
  refine encloses_of_suffix (encodeTL_ne_nil _ _) ?_
  iterate 9 apply Suffix.behind
  exact suffix_encodeUserData _ _

theorem suffix_userInformationOctets (reference payload : List UInt8) :
    payload <:+ userInformationOctets reference payload := by
  iterate 4 apply Suffix.behind
  exact List.suffix_append _ _

theorem encloses_createAssociateResponseMessage (acse : AcseConnection) (acseResult : UInt8)
    (payload : List UInt8) :
    Encloses (acse.createAssociateResponseMessage acseResult payload) payload := by
  refine encloses_of_suffix (encodeTL_ne_nil _ _) ?_
  iterate 8 apply Suffix.behind
  exact suffix_userInformationOctets _ _

theorem encloses_createAssociateRequestMessage (isoParameters : IsoConnectionParameters)
    (payload : List UInt8) (authParameter : Option AuthParameter) :
    Encloses (createAssociateRequestMessage isoParameters payload authParameter) payload := by
  refine encloses_of_suffix (encodeTL_ne_nil _ _) ?_
  iterate 4 apply Suffix.behind
  exact suffix_userInformationOctets _ _

/-- A session SPDU ends with the user data. -/
theorem encloses_withParameters (si : UInt8) (parameters payload : List UInt8) :
    Encloses (IsoSession.withParameters si parameters payload) payload := by
  change Encloses ([si, UInt8.ofNat (parameters.length + payload.length)] ++ (parameters ++ payload))
    payload
  exact encloses_of_suffix (List.cons_ne_nil _ _) (List.suffix_append _ _)

theorem layered_dataMessages (presentation : IsoPresentation) (payload : List UInt8) :
    Layered (dataMessages presentation payload) :=
  List.isChain_cons_cons.mpr ⟨⟨_, List.cons_ne_nil _ _, rfl⟩, List.isChain_cons_cons.mpr
    ⟨encloses_userDataPdu _ _, List.isChain_singleton _⟩⟩

theorem layered_finishMessages (presentation : IsoPresentation) :
    Layered (finishMessages presentation) :=
  List.isChain_cons_cons.mpr ⟨⟨_, List.cons_ne_nil _ _, rfl⟩, List.isChain_cons_cons.mpr
    ⟨encloses_userDataPdu _ _, List.isChain_singleton _⟩⟩

theorem layered_disconnectMessages (presentation : IsoPresentation) :
    Layered (disconnectMessages presentation) :=
  List.isChain_cons_cons.mpr ⟨⟨_, List.cons_ne_nil _ _, rfl⟩, List.isChain_cons_cons.mpr
    ⟨encloses_userDataPdu _ _, List.isChain_singleton _⟩⟩

theorem layered_acceptMessages (session : IsoSession) (presentation : IsoPresentation)
    (acse : AcseConnection) (response : List UInt8) :
    Layered (acceptMessages session presentation acse response) :=
  List.isChain_cons_cons.mpr ⟨encloses_withParameters _ _ _, List.isChain_cons_cons.mpr
    ⟨encloses_createCpaMessage _ _, List.isChain_cons_cons.mpr
      ⟨encloses_createAssociateResponseMessage _ _ _, List.isChain_singleton _⟩⟩⟩

end Layers

end Iec61850
