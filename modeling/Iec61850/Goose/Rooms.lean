import Iec61850.Asn1.BerSpans
import Iec61850.Goose.GooseSubscriber
import Iec61850.Lib.Transition
import Mathlib.Data.List.Infix

/-! Whatever octets arrive: what stays as it is in a subscriber, and what a frame must have in it to
be taken for one of the control block. -/

namespace Iec61850

open Machine

/-- What a value has room for: its type, and the sizes that are fixed when it is created. -/
inductive Room
  | null
  | array (elements : List Room)
  | structured (components : List Room)
  | boolean
  | bitString (size : Int) (octets : Nat)
  | integer (maxSize : Nat)
  | unsigned (maxSize : Nat)
  | float (formatWidth : Nat)
  | octetString (maxSize : Nat)
  | visibleString
  | binaryTime (size : Nat)
  | mmsString
  | utcTime
  | dataAccessError

mutual

def ParsedValue.room : ParsedValue → Room
  | .null => .null
  | .array elements => .array (rooms elements)
  | .structured components => .structured (rooms components)
  | .boolean _ => .boolean
  | .bitString size buf => .bitString size buf.length
  | .integer v => .integer v.maxSize
  | .unsigned v => .unsigned v.maxSize
  | .float _ formatWidth _ => .float formatWidth
  | .octetString _ buf => .octetString buf.length
  | .visibleString _ => .visibleString
  | .binaryTime octets => .binaryTime octets.length
  | .mmsString _ => .mmsString
  | .utcTime _ => .utcTime
  | .dataAccessError _ => .dataAccessError

def rooms : List ParsedValue → List Room
  | [] => []
  | value :: values => value.room :: rooms values

end

namespace Goose

open BerDecoder

/-! ## The values -/

theorem length_putOctets {buf octets result : List UInt8} (h : putOctets buf octets = .ok result) :
    result.length = buf.length := by
  rw [putOctets] at h
  split at h
  case isTrue hle =>
    cases h
    exact MmsValue.length_copyOver hle
  case isFalse => cases h

section

variable {casts : FloatCasts} {buffer : Memory} {elementLength bufPos : Int} {tag : UInt8}
  {value stored : ParsedValue}

theorem storeBitString_room {size : Int} {buf : List UInt8}
    (h : storeBitString buffer elementLength bufPos size buf = .ok stored) :
    stored.room = .bitString size buf.length := by
  obtain ⟨padding, -, h⟩ := bind_ok h
  split at h
  · obtain ⟨octets, -, h⟩ := bind_ok h
    obtain ⟨result, hput, h⟩ := bind_ok h
    cases h
    rw [ParsedValue.room, length_putOctets hput]
  · cases h
    rfl

theorem storeInteger_maxSize {v w : Asn1PrimitiveValue}
    (h : storeInteger buffer elementLength bufPos v = .ok w) : w.maxSize = v.maxSize := by
  rw [storeInteger] at h
  split at h
  · obtain ⟨octets, -, h⟩ := bind_ok h
    cases h
    split <;> rfl
  · cases h
    rfl

theorem storeFloat_room {exponentWidth : UInt8} {formatWidth : Nat} {buf : List UInt8}
    (h : storeFloat casts buffer elementLength bufPos exponentWidth formatWidth buf = .ok stored) :
    stored.room = .float formatWidth := by
  rw [storeFloat] at h
  split at h
  · obtain ⟨octets, -, h⟩ := bind_ok h
    cases h
    rfl
  · split at h
    · obtain ⟨octets, -, h⟩ := bind_ok h
      cases h
      rfl
    · cases h
      rfl

theorem storeOctetString_room {size : Nat} {buf : List UInt8}
    (h : storeOctetString buffer elementLength bufPos size buf = .ok stored) :
    stored.room = .octetString buf.length := by
  rw [storeOctetString] at h
  split at h
  · obtain ⟨octets, -, h⟩ := bind_ok h
    obtain ⟨result, hput, h⟩ := bind_ok h
    cases h
    rw [ParsedValue.room, length_putOctets hput]
  · cases h
    rfl

/-- What is stored has the room that was there. -/
theorem storePrimitive_room
    (h : storePrimitive casts buffer tag elementLength bufPos value = .ok stored) :
    stored.room = value.room := by
  cases value with
  | bitString size buf =>
    rw [storePrimitive] at h
    split at h
    · exact storeBitString_room h
    · cases h
      rfl
  | float =>
    rw [storePrimitive] at h
    split at h
    · exact storeFloat_room h
    · cases h
      rfl
  | octetString =>
    rw [storePrimitive] at h
    split at h
    · exact storeOctetString_room h
    · cases h
      rfl
  | integer v | unsigned v =>
    rw [storePrimitive] at h
    split at h
    · obtain ⟨w, hw, h⟩ := bind_ok h
      cases h
      rw [ParsedValue.room, storeInteger_maxSize hw]
      rfl
    · cases h
      rfl
  | boolean | visibleString | utcTime =>
    rw [storePrimitive] at h
    split at h
    · obtain ⟨_, -, h⟩ := bind_ok h
      cases h
      rfl
    · cases h
      rfl
  | binaryTime octets =>
    rw [storePrimitive] at h
    split at h
    · obtain ⟨new, -, h⟩ := bind_ok h
      cases h
      have hle : octets.length ≤ (MmsValue.copyOver octets new).length := by
        rw [MmsValue.copyOver, List.length_append, List.length_drop]
        omega
      rw [ParsedValue.room, ParsedValue.room, List.length_take_of_le hle]
    · cases h
      rfl
  | null =>
    rw [storePrimitive] at h
    split at h
    · cases h
    · cases h
      rfl
  | array | structured | mmsString | dataAccessError =>
    cases h
    rfl

theorem storeElement_room
    {parse : Memory → Int → List ParsedValue → Exec (Int × List ParsedValue)} {result : Int}
    (hparse : ∀ buffer length values result values',
      parse buffer length values = .ok (result, values') → rooms values' = rooms values)
    (h : storeElement casts parse buffer tag elementLength bufPos value = .ok (result, stored)) :
    stored.room = value.room := by
  cases value with
  | array elements =>
    rw [storeElement] at h
    split at h
    · obtain ⟨⟨_, elements'⟩, hmembers, h⟩ := bind_ok h
      cases h
      rw [ParsedValue.room, hparse _ _ _ _ _ hmembers]
      rfl
    · cases h
      rfl
  | structured components =>
    rw [storeElement] at h
    split at h
    · obtain ⟨⟨_, components'⟩, hmembers, h⟩ := bind_ok h
      cases h
      rw [ParsedValue.room, hparse _ _ _ _ _ hmembers]
      rfl
    · cases h
      rfl
  | _ =>
    obtain ⟨value', hstored, h⟩ := bind_ok h
    cases h
    exact storePrimitive_room hstored

/-- The values have the room they had, however far the parser gets. -/
theorem parseElementsFrom_rooms {fuel : Nat} {allDataLength result : Int}
    {values values' : List ParsedValue}
    (h : parseElementsFrom casts fuel buffer allDataLength elementLength bufPos values =
      .ok (result, values')) : rooms values' = rooms values := by
  induction fuel generalizing buffer allDataLength elementLength bufPos values values' result with
  | zero => cases h
  | succ fuel ih =>
    rw [parseElementsFrom] at h
    split at h
    · cases h
      rfl
    · obtain ⟨tag, -, h⟩ := bind_ok h
      cases values with
      | nil =>
        cases h
        rfl
      | cons value values =>
        obtain ⟨⟨bufPos', elementLength'⟩, -, h⟩ := bind_ok h
        dsimp only at h
        split at h
        · cases h
          rfl
        · obtain ⟨⟨one, stored⟩, hstored, h⟩ := bind_ok h
          have hroom := storeElement_room (fun _ _ _ _ _ hmembers => ih hmembers) hstored
          dsimp only at h
          split at h
          · cases h
            rw [rooms, rooms, hroom]
          · obtain ⟨⟨rest, others⟩, hothers, h⟩ := bind_ok h
            cases h
            rw [rooms, rooms, hroom, ih hothers]

end

/-! ## The subscriber -/

/-- What no frame changes. Values that are there keep their room. -/
structure Kept (s t : GooseSubscriber) : Prop where
  goCBRef : t.goCBRef = s.goCBRef
  appId : t.appId = s.appId
  listener : t.listener = s.listener
  rooms : ∀ values ∈ s.dataSetValues, ∃ values' ∈ t.dataSetValues, rooms values' = rooms values

/-- What the last message that was accepted has said. -/
def GooseSubscriber.numbers (s : GooseSubscriber) : List UInt32 × Bool × Bool :=
  ([s.stNum, s.sqNum, s.confRev, s.timeAllowedToLive], s.simulation, s.ndsCom)

variable {s t u : GooseSubscriber} {casts : FloatCasts} {buffer : Memory} {fuel : Nat}

theorem Kept.refl (s : GooseSubscriber) : Kept s s where
  goCBRef := rfl
  appId := rfl
  listener := rfl
  rooms := fun values h => ⟨values, h, rfl⟩

theorem Kept.trans (h : Kept s t) (h' : Kept t u) : Kept s u where
  goCBRef := h'.goCBRef.trans h.goCBRef
  appId := h'.appId.trans h.appId
  listener := h'.listener.trans h.listener
  rooms := by
    intro values hvalues
    obtain ⟨values', hvalues', heq⟩ := h.rooms values hvalues
    obtain ⟨values'', hvalues'', heq'⟩ := h'.rooms values' hvalues'
    exact ⟨values'', hvalues'', heq'.trans heq⟩

/-- Where the values are the same, only the rest is to be looked at. -/
theorem Kept.of_values (goCBRef : t.goCBRef = s.goCBRef) (appId : t.appId = s.appId)
    (listener : t.listener = s.listener) (hvalues : t.dataSetValues = s.dataSetValues) :
    Kept s t where
  goCBRef := goCBRef
  appId := appId
  listener := listener
  rooms := fun values h => ⟨values, hvalues ▸ h, rfl⟩

/-- The reference of the control block stands somewhere in the buffer. -/
def Mentions (buffer : Memory) (goCBRef : List UInt8) : Prop :=
  ∃ pos, buffer.readOctets pos goCBRef.length = .ok goCBRef

theorem parseValues_keeps {elementLength : Int}
    (h : s.parseValues casts fuel buffer elementLength = .ok t) :
    Kept s t ∧ t.numbers = s.numbers := by
  unfold GooseSubscriber.parseValues at h
  cases hvalues : s.dataSetValues with
  | none =>
    rw [hvalues] at h
    obtain ⟨⟨values, selfAllocated⟩, -, h⟩ := bind_ok h
    cases h
    refine ⟨⟨rfl, rfl, rfl, fun values hmem => ?_⟩, rfl⟩
    rw [hvalues] at hmem
    cases hmem
  | some values =>
    rw [hvalues] at h
    obtain ⟨⟨result, values'⟩, hparse, h⟩ := bind_ok h
    cases h
    refine ⟨⟨rfl, rfl, rfl, fun values hmem => ?_⟩, rfl⟩
    rw [hvalues] at hmem
    cases hmem
    exact ⟨values', rfl, parseElementsFrom_rooms hparse⟩

/-- What holds of the variables of `parseGoosePayload` at any point. -/
structure Underway (buffer : Memory) (s : GooseSubscriber) (state : PayloadState) : Prop where
  kept : Kept s state.self
  numbers : state.self.numbers = s.numbers
  matching : state.isMatching = true → Mentions buffer s.goCBRef
  result : state.result ≠ 1

theorem Underway.payloadField {state : PayloadState} {apduLength : Int} {tag : UInt8}
    {elementLength bufPos : Int} {result : Option Int × PayloadState}
    (h : Underway buffer s state)
    (hfield : payloadField casts fuel buffer apduLength tag elementLength bufPos state =
      .ok result) : Underway buffer s result.2 := by
  rw [Goose.payloadField] at hfield
  split at hfield
  · cases hfield
    exact ⟨h.kept, h.numbers, h.matching, (fun h => nomatch h)⟩
  · dsimp only at hfield
    split at hfield
    · split at hfield
      · obtain ⟨octets, hread, hfield⟩ := bind_ok hfield
        split at hfield
        case isTrue heq =>
          cases hfield
          refine ⟨h.kept, h.numbers, fun _ => ⟨bufPos, ?_⟩, h.result⟩
          rw [heq, h.kept.goCBRef] at hread
          exact hread
        case isFalse =>
          cases hfield
          exact ⟨h.kept, h.numbers, h.matching, (fun h => nomatch h)⟩
      · cases hfield
        exact ⟨h.kept, h.numbers, h.matching, (fun h => nomatch h)⟩
    case h_3 =>
      obtain ⟨octets, -, hfield⟩ := bind_ok hfield
      cases hfield
      have hkept : Kept state.self { state.self with timestamp := octets } :=
        .of_values rfl rfl rfl rfl
      exact ⟨h.kept.trans hkept, h.numbers, h.matching, h.result⟩
    case h_10 =>
      obtain ⟨self, hvalues, hfield⟩ := bind_ok hfield
      cases hfield
      obtain ⟨hkept, hnumbers⟩ := parseValues_keeps hvalues
      exact ⟨h.kept.trans hkept, hnumbers.trans h.numbers, h.matching, h.result⟩
    case h_11 =>
      cases hfield
      exact h
    all_goals
      obtain ⟨_, -, hfield⟩ := bind_ok hfield
      cases hfield
      exact ⟨h.kept, h.numbers, h.matching, h.result⟩

/-- A message that is not accepted leaves the numbers alone, and one that is accepted mentions the
control block. -/
structure Parsed (buffer : Memory) (s : GooseSubscriber) (result : Int) (t : GooseSubscriber) :
    Prop where
  kept : Kept s t
  numbers : result ≠ 1 → t.numbers = s.numbers
  accepted : result = 1 → Mentions buffer s.goCBRef

/-- A message of which nothing is read. -/
theorem Parsed.unread {result : Int} (hresult : result ≠ 1) : Parsed buffer s result s where
  kept := .refl s
  numbers := fun _ => rfl
  accepted := fun h => absurd h hresult

theorem parseGoosePayload_parsed {uninitialised : Uninitialised} {apduLength result : Int}
    (h : parseGoosePayload casts uninitialised fuel buffer apduLength s = .ok (result, t)) :
    Parsed buffer s result t := by
  obtain ⟨tag, -, h⟩ := bind_ok h
  split at h
  case isFalse =>
    cases h
    exact .unread (by decide)
  obtain ⟨⟨bufPos, gooseLength⟩, -, h⟩ := bind_ok h
  obtain ⟨⟨next, state⟩, hrun, h⟩ := bind_ok h
  have hstart : Underway buffer s
      ⟨s, 0, 0, 0, uninitialised.confRev, false, false, false, 0⟩ :=
    ⟨.refl s, rfl, fun h => absurd h Bool.false_ne_true, (fun h => nomatch h)⟩
  have hstate : Underway buffer s state :=
    parseFields_invariant (fun _ _ _ _ _ hI hfield => hI.payloadField hfield) hrun hstart
  dsimp only at h
  split at h
  · cases h
    exact ⟨hstate.kept, fun _ => hstate.numbers, fun h => absurd h hstate.result⟩
  · split at h
    case isTrue hmatching =>
      cases h
      refine ⟨?_, fun hne => absurd rfl hne, fun _ => hstate.matching hmatching⟩
      exact hstate.kept.trans (.of_values rfl rfl rfl rfl)
    case isFalse =>
      cases h
      exact ⟨hstate.kept, fun _ => hstate.numbers, (fun h => nomatch h)⟩

theorem readOctets_isInfix {bs octets : List UInt8} {pos : Int} {n : Nat}
    (h : (Memory.ofList bs).readOctets pos n = .ok octets) : octets <:+: bs := by
  have hdrop : octets = (bs.drop pos.toNat).take n := by
    induction n generalizing pos octets with
    | zero =>
      cases h
      rfl
    | succ n ih =>
      obtain ⟨b, hread, h⟩ := bind_ok h
      obtain ⟨rest, hrest, h⟩ := bind_ok h
      cases h
      have hb : Memory.ofList bs pos = some b := (Memory.read_ok_iff _ _ _).mp hread
      rw [Memory.ofList] at hb
      split at hb
      case isTrue hpos =>
        have hnext : (pos + 1).toNat = pos.toNat + 1 := Int.toNat_add hpos (by decide)
        obtain ⟨hlt, rfl⟩ := List.getElem?_eq_some_iff.mp hb
        rw [ih hrest, hnext, List.drop_eq_getElem_cons hlt, List.take_succ_cons]
      case isFalse => cases hb
  rw [hdrop]
  exact (List.take_prefix _ _).isInfix.trans (List.drop_suffix _ _).isInfix

theorem Mentions.of_region {region : Region} {goCBRef : List UInt8}
    (h : Mentions (region.memory buffer) goCBRef) : Mentions buffer goCBRef := by
  obtain ⟨pos, h⟩ := h
  have hregion : region = ⟨region.start, region.size⟩ := rfl
  rw [hregion, readOctets_memory] at h
  exact ⟨_, h⟩

theorem parseGooseMessage_parsed {uninitialised : Uninitialised} {numbytes result : Int}
    (h : parseGooseMessage casts uninitialised fuel buffer numbytes s = .ok (result, t)) :
    Parsed buffer s result t := by
  have hunread : ∀ r : Int, r ≠ 1 → (Except.ok (r, s) : Exec (Int × GooseSubscriber)) =
      .ok (result, t) → Parsed buffer s result t := by
    intro r hr heq
    cases heq
    exact .unread hr
  rw [parseGooseMessage] at h
  split at h
  · exact hunread _ (by decide) h
  obtain ⟨tag, -, h⟩ := bind_ok h
  dsimp only at h
  generalize (if tag = 0x8100 then (18 : Int) else 14) = headerLength at h
  obtain ⟨ethertype, -, h⟩ := bind_ok h
  split at h
  · exact hunread _ (by decide) h
  obtain ⟨appId, -, h⟩ := bind_ok h
  obtain ⟨length, -, h⟩ := bind_ok h
  split at h
  · exact hunread _ (by decide) h
  split at h
  · exact hunread _ (by decide) h
  have hpayload := parseGoosePayload_parsed h
  exact ⟨hpayload.kept, hpayload.numbers, fun hr => (hpayload.accepted hr).of_region⟩

/-- A frame without the reference of the control block in it is nothing to the listener. -/
theorem receive_keeps {uninitialised : Uninitialised} {packet : List UInt8} {called : Bool}
    (h : receive casts uninitialised fuel packet s = .ok (t, called)) :
    Kept s t ∧ (¬ s.goCBRef <:+: packet → called = false ∧ t.numbers = s.numbers) := by
  rw [receive] at h
  dsimp only at h
  split at h
  case isFalse =>
    cases h
    exact ⟨.refl s, fun _ => ⟨rfl, rfl⟩⟩
  case isTrue =>
    obtain ⟨⟨result, self⟩, hparse, h⟩ := bind_ok h
    cases h
    have hparsed := parseGooseMessage_parsed hparse
    refine ⟨hparsed.kept, fun hnot => ?_⟩
    have hresult : result ≠ 1 := by
      intro heq
      obtain ⟨pos, hread⟩ := hparsed.accepted heq
      exact hnot ((readOctets_isInfix hread).trans (List.take_prefix _ _).isInfix)
    exact ⟨decide_eq_false fun hboth => hresult hboth.1, hparsed.numbers hresult⟩

/-! ## Any number of frames -/

/-- A packet, and what the variables hold when it is parsed. -/
structure Arrival where
  packet : List UInt8
  uninitialised : Uninitialised

/-- The subscriber behind a packet, and how often its listener has been called. -/
def hearPacket (casts : FloatCasts) (fuel : Nat) (state : GooseSubscriber × Nat)
    (arrival : Arrival) : Exec (GooseSubscriber × Nat) := do
  let (self, called) ← receive casts arrival.uninitialised fuel arrival.packet state.1
  return (self, if called then state.2 + 1 else state.2)

/-- The packets that mention the control block. -/
def mentions (goCBRef : List UInt8) (arrivals : List Arrival) : List Arrival :=
  arrivals.filter fun arrival => decide (goCBRef <:+: arrival.packet)

theorem hearPacket_keeps {arrival : Arrival} {n m : Nat}
    (h : hearPacket casts fuel (s, n) arrival = .ok (t, m)) :
    Kept s t ∧ m ≤ n + (mentions s.goCBRef [arrival]).length ∧
      (mentions s.goCBRef [arrival] = [] → t.numbers = s.numbers) := by
  obtain ⟨⟨self, called⟩, hreceive, h⟩ := bind_ok h
  cases h
  obtain ⟨hkept, hnothing⟩ := receive_keeps hreceive
  by_cases hmentioned : s.goCBRef <:+: arrival.packet
  · have hone : mentions s.goCBRef [arrival] = [arrival] :=
      List.filter_eq_self.mpr fun a ha => by
        obtain rfl := List.mem_singleton.mp ha
        exact decide_eq_true hmentioned
    rw [hone]
    refine ⟨hkept, ?_, fun hnil => absurd hnil (List.cons_ne_nil _ _)⟩
    dsimp only
    split
    · exact le_rfl
    · exact Nat.le_succ n
  · obtain ⟨rfl, hnumbers⟩ := hnothing hmentioned
    exact ⟨hkept, Nat.le_add_right _ _, fun _ => hnumbers⟩

/-- Whatever arrives, however often: the subscriber keeps its control block, its APPID, its listener
and the types and the room of its values. The listener is not called more often than packets arrive
that have the reference of the control block in them, and without any the numbers stay. -/
theorem packets_keep {arrivals : List Arrival} {calls : Nat}
    (h : arrivals.foldlM (hearPacket casts fuel) (s, 0) = .ok (t, calls)) :
    Kept s t ∧ calls ≤ (mentions s.goCBRef arrivals).length ∧
      (mentions s.goCBRef arrivals = [] → t.numbers = s.numbers) := by
  induction arrivals using List.reverseRecOn generalizing t calls with
  | nil =>
    cases h
    exact ⟨.refl s, le_rfl, fun _ => rfl⟩
  | append_singleton arrivals arrival ih =>
    rw [Transition.foldlM_append_singleton] at h
    obtain ⟨⟨u, n⟩, hrun, hlast⟩ := bind_ok h
    obtain ⟨hkept, hcalls, hnumbers⟩ := ih hrun
    obtain ⟨hkept', hcalls', hnumbers'⟩ := hearPacket_keeps hlast
    have happend : mentions s.goCBRef (arrivals ++ [arrival]) =
        mentions s.goCBRef arrivals ++ mentions s.goCBRef [arrival] :=
      List.filter_append arrivals [arrival]
    rw [hkept.goCBRef] at hcalls' hnumbers'
    rw [happend, List.length_append]
    refine ⟨hkept.trans hkept', by omega, fun hnil => ?_⟩
    obtain ⟨hnil, hnil'⟩ := List.append_eq_nil_iff.mp hnil
    exact (hnumbers' hnil').trans (hnumbers hnil)

/-- A message with nothing but the reference of a control block in it. -/
def shortFrame : List UInt8 :=
  List.replicate 12 0 ++
    ([0x88, 0xb8, 0x10, 0x00, 0x00, 0x0f, 0x00, 0x00, 0x00, 0x00, 0x61, 0x05, 0x80, 0x03, 0x4c,
      0x2f, 0x63] : List UInt8)

/-- No value of the examples is a floating point number. -/
def zeroCasts : FloatCasts := ⟨fun _ => List.replicate 4 0, fun _ => List.replicate 8 0⟩

/-- The listener is called for one of two packets. -/
theorem packets_keep_two : ∃ t calls, calls = 1 ∧
    Kept (GooseSubscriber.create [0x4c, 0x2f, 0x63] none).setListener t := by
  have hf : (List.foldlM (hearPacket zeroCasts 1518)
      ((GooseSubscriber.create [0x4c, 0x2f, 0x63] none).setListener, 0)
      [⟨shortFrame, ⟨0, 0, 0⟩⟩, ⟨shortFrame.take 20, ⟨0, 0, 0⟩⟩]).toOption.map (·.2) = some 1 := by
    decide +kernel
  cases hrun : List.foldlM (hearPacket zeroCasts 1518)
      ((GooseSubscriber.create [0x4c, 0x2f, 0x63] none).setListener, 0)
      [⟨shortFrame, ⟨0, 0, 0⟩⟩, ⟨shortFrame.take 20, ⟨0, 0, 0⟩⟩] with
  | error =>
    rw [hrun] at hf
    cases hf
  | ok state =>
    rw [hrun] at hf
    exact ⟨state.1, state.2, Option.some.inj hf, (packets_keep hrun).1⟩

end Goose

end Iec61850
