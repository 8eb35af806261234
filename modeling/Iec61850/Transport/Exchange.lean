import Iec61850.Transport.WriteBuffer

/-! Two connections of this library with each other: the connection request and its answer, and the
messages that they send then, one behind the other. -/

namespace Iec61850.Transport

open Machine

/-- The octets that a layer puts before a message. -/
def before (outer inner : List UInt8) : List UInt8 := outer.take (outer.length - inner.length)

/-- The buffers of a message of several layers, from the outermost message to the payload. -/
def chained : List (List UInt8) → List (List UInt8)
  | outer :: inner :: rest => before outer inner :: chained (inner :: rest)
  | messages => messages

def BufferChain.of (parts : List (List UInt8)) : BufferChain :=
  ⟨parts.flatten.length, parts.headD [], parts.tail⟩

/-- A message with something before it. -/
def Encloses (outer inner : List UInt8) : Prop := ∃ header, header ≠ [] ∧ outer = header ++ inner

/-- Every layer puts something before the message of the layer above. -/
def Layered (messages : List (List UInt8)) : Prop := messages.IsChain Encloses

section Chains

variable {outer inner payload : List UInt8} {messages : List (List UInt8)}

theorem before_append (header inner : List UInt8) : before (header ++ inner) inner = header := by
  rw [before, List.length_append, Nat.add_sub_cancel, List.take_left']
  rfl

theorem flatten_chained (h : Layered (outer :: messages)) :
    (chained (outer :: messages)).flatten = outer := by
  induction messages generalizing outer with
  | nil => exact List.flatten_singleton
  | cons inner messages ih =>
    obtain ⟨⟨header, -, rfl⟩, hrest⟩ := List.isChain_cons_cons.mp h
    rw [chained, before_append, List.flatten_cons, ih hrest]

theorem ne_nil_of_mem_chained (h : Layered messages) (hlast : ∀ m ∈ messages.getLast?, m ≠ []) :
    ∀ part ∈ chained messages, part ≠ [] := by
  induction messages with
  | nil =>
    intro part hpart
    cases hpart
  | cons outer messages ih =>
    cases messages with
    | nil =>
      intro part hpart
      rw [List.mem_singleton.mp hpart]
      exact hlast outer rfl
    | cons inner messages =>
      obtain ⟨⟨header, hheader, rfl⟩, hrest⟩ := List.isChain_cons_cons.mp h
      rw [chained, before_append]
      intro part hpart
      rcases List.mem_cons.mp hpart with rfl | hpart
      · exact hheader
      · exact ih hrest hlast part hpart

end Chains

namespace CotpConnection

/-- `CotpConnection_sendConnectionRequestMessage`. Nothing is sent where the buffer is too small. -/
def sendConnectionRequestMessage (self : CotpConnection) (remoteTSelector : UInt16) :
    Exec (CotpConnection × List UInt8) :=
  let self := self.allocateWriteBuffer
  match self.writeBuffer with
  | none => .error .nullPointer
  | some maxSize =>
    if maxSize < 22 then .ok (self, [])
    else
      let self := { self with tsapIdDst := remoteTSelector.toNat, tsapIdSrc := 0 }
      .ok (self, rfc1006Header 22 ++ [17, 0xe0, 0, 0, 0, 2, 0] ++ self.writeOptions)

/-- TPDUs of 8192 octets, and a buffer for them. -/
structure Ready (c : CotpConnection) : Prop where
  tpduSize : c.tpduSize = 13
  writeBuffer : c.writeBuffer = some 8196

/-- A connection request or its answer, for TPDUs of 8192 octets. -/
def connectTpdu (tpduType : UInt8) (references destination source : UInt8 × UInt8) :
    List UInt8 :=
  [3, 0, 0, 22, 17, tpduType, 0, references.1, 0, references.2, 0, 0xc0, 1, 13, 0xc2, 2,
    destination.1, destination.2, 0xc1, 2, source.1, source.2]

/-- The octets of a selector. -/
def selector (value : Int) : UInt8 × UInt8 :=
  (UInt8.ofInt (value.tdiv 256), UInt8.ofInt (value % 256))

/-- What is kept of a message that has been read. -/
def emptied (self : CotpConnection) : CotpConnection :=
  { self with payload := emptyBuffer self.payload.maxSize }

/-- What a connection is told by a request or by its answer. -/
def told (self : CotpConnection) (destination source : UInt8 × UInt8) : CotpConnection :=
  { self.emptied with
    srcRef := 2
    dstRef := 0
    protocolClass := 0
    tpduSize := 13
    tsapIdDst := Octets.value [destination.1, destination.2]
    tsapIdSrc := Octets.value [source.1, source.2] }

variable {wideShift : UInt8 → Int} {self self' : CotpConnection} {octets : List UInt8}
  {parts tpdus : List (List UInt8)} {size : Nat}

theorem sendConnectionRequestMessage_eq (payloadBuffer : ByteBuffer) (remoteTSelector : UInt16) :
    (init payloadBuffer).sendConnectionRequestMessage remoteTSelector =
      .ok ({ (init payloadBuffer) with
          writeBuffer := some 8196
          tsapIdDst := remoteTSelector.toNat
          tsapIdSrc := 0 },
        connectTpdu 0xe0 (0, 2) (selector remoteTSelector.toNat) (selector 0)) := by
  rfl

theorem parse_connectRequest (wideShift : UInt8 → Int) (self : CotpConnection)
    (destination source : UInt8 × UInt8) :
    self.parseIncomingMessage wideShift (connectTpdu 0xe0 (0, 2) destination source) =
      .ok (.connectIndication, self.told destination source, []) := by
  rfl

theorem parse_connectConfirm (wideShift : UInt8 → Int) (self : CotpConnection)
    (destination source : UInt8 × UInt8) :
    self.parseIncomingMessage wideShift (connectTpdu 0xd0 (2, 0) destination source) =
      .ok (.connectIndication, { self.told destination source with isLastDataUnit := true },
        []) := by
  rfl

theorem sendConnectionResponseMessage_told (hbuffer : self.writeBuffer = none)
    (destination source : UInt8 × UInt8) :
    (self.told destination source).sendConnectionResponseMessage =
      .ok ({ self.told destination source with writeBuffer := some 8196 },
        connectTpdu 0xd0 (2, 0) (selector (Octets.value [destination.1, destination.2]))
          (selector (Octets.value [source.1, source.2]))) := by
  rw [told, emptied, hbuffer]
  generalize Octets.value [destination.1, destination.2] = destination
  generalize Octets.value [source.1, source.2] = source
  have hdestination : (destination : Int) ≠ -1 := by omega
  have hsource : (source : Int) ≠ -1 := by omega
  simp +decide [sendConnectionResponseMessage, allocateWriteBuffer, connectResponse,
    staticConnectResponseHeader, writeOptions, getOptionsLength, hdestination, hsource, reference,
    selector, rfc1006Header, connectTpdu, getTpduSize]

/-- A client and a server agree on the longest TPDUs. -/
theorem connect_ready (wideShift : UInt8 → Int) (clientBuffer serverBuffer : ByteBuffer)
    (remoteTSelector : UInt16) :
    ∃ client request server server' response client',
      (init clientBuffer).sendConnectionRequestMessage remoteTSelector = .ok (client, request) ∧
      (init serverBuffer).parseIncomingMessage wideShift request =
        .ok (.connectIndication, server, []) ∧
      server.sendConnectionResponseMessage = .ok (server', response) ∧
      client.parseIncomingMessage wideShift response = .ok (.connectIndication, client', []) ∧
      client'.Ready ∧ server'.Ready ∧ client'.payload.maxSize = clientBuffer.maxSize ∧
      server'.payload.maxSize = serverBuffer.maxSize := by
  exact ⟨_, _, _, _, _, _, sendConnectionRequestMessage_eq clientBuffer remoteTSelector,
    parse_connectRequest wideShift _ _ _, sendConnectionResponseMessage_told rfl _ _,
    parse_connectConfirm wideShift _ _ _, ⟨rfl, rfl⟩, ⟨rfl, rfl⟩, rfl, rfl⟩

/-! Messages. -/

/-- Whatever a chain of buffers has in it is sent, in pieces. -/
theorem Ready.sendDataMessage (h : self.Ready) (hparts : parts ≠ [])
    (hne : ∀ part ∈ parts, part ≠ []) :
    ∃ tpdus, self.sendDataMessage (fun _ => true) (BufferChain.of parts) = .ok (.ok, tpdus) ∧
      Segments 8189 parts.flatten tpdus := by
  obtain ⟨part, nextParts, rfl⟩ := List.exists_cons_of_ne_nil hparts
  have hw : ChainPos.Whole ⟨part, 0, nextParts⟩ := fun p hp => hne p (List.mem_cons_of_mem part hp)
  have hlength : 0 < (part :: nextParts).flatten.length := by
    rw [List.flatten_cons, List.length_append]
    exact Nat.add_pos_left (List.length_pos_of_ne_nil (hne part List.mem_cons_self)) _
  obtain ⟨n, hn, hlow, hhigh⟩ := fragments_spec hlength (show 0 < 8189 by decide)
  obtain ⟨tpdus, hsend, hsegments⟩ :=
    sendFragments_ok (show 8189 + 7 ≤ 8196 by decide) hw (Int.zero_add _).symm hlow hhigh
  refine ⟨tpdus, ?_, hsegments⟩
  rw [CotpConnection.sendDataMessage, getTpduSize, h.tpduSize, h.writeBuffer]
  change sendFragments _ (8189 : Nat) (part :: nextParts).flatten.length 8196
    (fragments (part :: nextParts).flatten.length (8189 : Nat)).toNat 0 _ = _
  rw [hn]
  exact hsend

/-- The connection behind a message, with the message in its buffer. -/
structure Holding (c : CotpConnection) (message : List UInt8) (d : CotpConnection) : Prop where
  octets : d.payload.octets = message
  maxSize : d.payload.maxSize = c.payload.maxSize
  tpduSize : d.tpduSize = c.tpduSize
  writeBuffer : d.writeBuffer = c.writeBuffer

/-- The TPDUs of one message are put together, whatever is behind them. -/
theorem parseTpdus_segments_append (wideShift : UInt8 → Int) (hsize : size + 7 < 65536)
    (hs : Segments size octets tpdus) (self : CotpConnection) (rest : Stream) {fuel : Nat}
    (hf : tpdus.length ≤ fuel)
    (hroom : self.payload.octets.length + octets.length ≤ self.payload.maxSize) :
    ∃ self', self.parseTpdus wideShift fuel (tpdus.flatten ++ rest) =
        .ok (.dataIndication, self', rest) ∧
      self.Holding (self.payload.octets ++ octets) self' := by
  induction hs generalizing self fuel with
  | @last octets hle =>
    obtain ⟨fuel, rfl⟩ := Nat.exists_eq_succ_of_ne_zero (Nat.ne_of_gt hf)
    have hlength : octets.length + 7 < 65536 := by omega
    rw [List.flatten_singleton, parseTpdus_wholeTpdu wideShift fuel self true hlength rest,
      dif_pos hroom]
    exact ⟨_, rfl, rfl, rfl, rfl, rfl⟩
  | @more octets next tpdus hlen hs ih =>
    obtain ⟨fuel, rfl⟩ := Nat.exists_eq_succ_of_ne_zero (Nat.ne_of_gt (Nat.zero_lt_of_lt hf))
    have hlength : octets.length + 7 < 65536 := by omega
    rw [List.length_append] at hroom
    have hfirst : self.payload.octets.length + octets.length ≤ self.payload.maxSize := by omega
    have hnext : (self.received false octets hfirst).payload.octets.length + next.length ≤
        self.payload.maxSize := by
      rw [received, List.length_append, Nat.add_assoc]
      exact hroom
    obtain ⟨self', hparse, hself⟩ := ih (self.received false octets hfirst)
      (Nat.le_of_succ_le_succ hf) hnext
    refine ⟨self', ?_, ?_, hself.maxSize, hself.tpduSize, hself.writeBuffer⟩
    · rw [List.flatten_cons, List.append_assoc,
        parseTpdus_wholeTpdu wideShift fuel self false hlength, dif_pos hfirst,
        if_neg Bool.false_ne_true, hparse]
      rfl
    · rw [hself.octets, received, List.append_assoc]

/-- One connection reads the next message that the other one has sent. -/
theorem parseIncomingMessage_segments (wideShift : UInt8 → Int) (hs : Segments 8189 octets tpdus)
    (self : CotpConnection) (rest : Stream) (hroom : octets.length ≤ self.payload.maxSize) :
    ∃ self', self.parseIncomingMessage wideShift (tpdus.flatten ++ rest) =
        .ok (.dataIndication, self', rest) ∧ self.Holding octets self' := by
  have hfuel : tpdus.length ≤ (tpdus.flatten ++ rest).length + 1 := by
    have hle := hs.length_le_flatten
    rw [List.length_append]
    omega
  obtain ⟨self', hparse, hself⟩ := parseTpdus_segments_append wideShift (by decide) hs
    self.emptied rest hfuel ((Nat.zero_add octets.length).trans_le hroom)
  exact ⟨self', hparse, hself.octets, hself.maxSize, hself.tpduSize, hself.writeBuffer⟩

theorem Ready.of_holding (h : self.Ready) (hself : self.Holding octets self') : self'.Ready :=
  ⟨hself.tpduSize.trans h.tpduSize, hself.writeBuffer.trans h.writeBuffer⟩

end CotpConnection
end Iec61850.Transport
