import Iec61850.Asn1.BerFields

/-! One page of a name list: the response that the server encodes
(`mms_get_namelist_service.c`) and what the client reads from it
(`mms_client_get_namelist.c`). -/

namespace Iec61850

open Machine BerEncoder

namespace MmsServer

/-- The codes of the error class access that a list of names is refused with. -/
inductive AccessError
  | objectAccessUnsupported | objectNonExistent

def AccessError.code : AccessError → UInt8
  | .objectAccessUnsupported => 1
  | .objectNonExistent => 2

def createConfirmedErrorPdu (invokeId : UInt32) (errorType : AccessError) : List UInt8 :=
  encodeTL 0xa2 (2 + uInt32determineEncodedSize invokeId + 7) ++
    encodeTL 0x80 (uInt32determineEncodedSize invokeId) ++ encodeUInt32 invokeId ++
    [0xa2, 5, 0xa0, 3, 0x87, 1, errorType.code]

def identifierSize (name : List UInt8) : Nat := determineEncodedStringSize (some name)

/-- The number of identifiers to include, the estimate being what it is. -/
def nameCount (maxPduSize : Int) : Int → List (List UInt8) → Nat
  | _, [] => 0
  | estimated, name :: names =>
    if maxPduSize < estimated + identifierSize name then 0
    else nameCount maxPduSize (estimated + identifierSize name) names + 1

/-- "estimated overhead size of PDU encoding" -/
def overhead : Int := 27

def identifiers (names : List (List UInt8)) : List UInt8 :=
  names.flatMap fun name => encodeStringWithTag 0x1a (some name)

def identifierListSize (included : List (List UInt8)) : Nat := (included.map identifierSize).sum

def getNameListSize (included : List (List UInt8)) (moreFollows : Bool) : Nat :=
  1 + determineLengthSize (identifierListSize included) + identifierListSize included +
    if moreFollows then 0 else 3

def confirmedResponsePDUSize (invokeId : UInt32) (getNameListSize : Nat) : Nat :=
  1 + determineLengthSize getNameListSize + getNameListSize +
    (uInt32determineEncodedSize invokeId + 2)

/-- The sizes are those of the identifiers that are included, the identifiers are those that the
loop writes. -/
def encodeGetNameListResponse (invokeId : UInt32) (included written : List (List UInt8))
    (moreFollows : Bool) : List UInt8 :=
  encodeTL 0xa1 (confirmedResponsePDUSize invokeId (getNameListSize included moreFollows)) ++
    (encodeTL 0x02 (uInt32determineEncodedSize invokeId) ++ encodeUInt32 invokeId) ++
    encodeTL 0xa1 (getNameListSize included moreFollows) ++
    encodeTL 0xa0 (identifierListSize included) ++
    (identifiers written ++ if moreFollows then [] else encodeBoolean 0x81 false)

/-- The part of `createNameListResponse` behind the search for the first name: `names` are those
that are left. The loop that writes them compares the number behind a name, it does not see that
there are none to include. -/
def encodeNameListResponse (maxPduSize : Int) (invokeId : UInt32) (names : List (List UInt8)) :
    List UInt8 :=
  let count := nameCount maxPduSize overhead names
  encodeGetNameListResponse invokeId (names.take count)
    (if count = 0 then names else names.take count) (count < names.length)

theorem length_identifiers (names : List (List UInt8)) :
    (identifiers names).length = identifierListSize names := by
  rw [identifiers, List.length_flatMap, identifierListSize]
  congr 1
  apply List.map_congr_left
  intro n _
  exact length_encodeString 0x1a (some n)

variable {maxPduSize estimated : Int} {n : List UInt8} {names : List (List UInt8)}
  (invokeId : UInt32)

theorem nameCount_le : nameCount maxPduSize estimated names ≤ names.length := by
  induction names generalizing estimated with
  | nil => exact Nat.le_refl 0
  | cons n names ih =>
    rw [nameCount]
    split
    · exact Nat.zero_le _
    · exact Nat.succ_le_succ ih

theorem nameCount_pos_iff :
    0 < nameCount maxPduSize estimated (n :: names) ↔
      estimated + identifierSize n ≤ maxPduSize := by
  rw [nameCount]
  split
  · simp
    omega
  · simp
    omega

/-- The estimate counts what is included. -/
theorem estimated_le (h : 0 < nameCount maxPduSize estimated names) :
    estimated + identifierListSize (names.take (nameCount maxPduSize estimated names)) ≤
      maxPduSize := by
  induction names generalizing estimated with
  | nil => cases h
  | cons n names ih =>
    have hfirst := nameCount_pos_iff.mp h
    rw [nameCount, if_neg (by omega), List.take_succ_cons, identifierListSize, List.map_cons,
      List.sum_cons, ← identifierListSize]
    push_cast
    rcases Nat.eq_zero_or_pos (nameCount maxPduSize (estimated + identifierSize n) names) with
      hnone | hpos
    · rw [hnone, List.take_zero]
      simpa [identifierListSize] using hfirst
    · have hrest := ih hpos
      omega

theorem identifierSize_le {included : List (List UInt8)} (h : n ∈ included) :
    identifierSize n ≤ identifierListSize included :=
  List.le_sum_of_mem (List.mem_map_of_mem h)

theorem length_le_identifierSize (n : List UInt8) : n.length ≤ identifierSize n :=
  Nat.le_add_left _ _

theorem length_le_identifierListSize (included : List (List UInt8)) :
    included.length ≤ identifierListSize included := by
  have hle := List.length_le_sum_of_one_le (included.map identifierSize) (by
    intro size hsize
    obtain ⟨n, _, rfl⟩ := List.mem_map.mp hsize
    change 1 ≤ 1 + determineLengthSize n.length + n.length
    omega)
  rwa [List.length_map] at hle

theorem length_encodeGetNameListResponse (included : List (List UInt8)) (moreFollows : Bool) :
    (encodeGetNameListResponse invokeId included included moreFollows).length =
      1 + determineLengthSize (confirmedResponsePDUSize invokeId
        (getNameListSize included moreFollows)) +
        confirmedResponsePDUSize invokeId (getNameListSize included moreFollows) := by
  have hinvoke : determineLengthSize (uInt32determineEncodedSize invokeId) = 1 := by
    have hle := uInt32determineEncodedSize_le invokeId
    exact if_pos (by omega)
  simp only [encodeGetNameListResponse, encodeTL, List.length_append, List.length_cons,
    length_encodeLength, length_identifiers, length_encodeUInt32, hinvoke]
  cases moreFollows with
  | true =>
    simp [confirmedResponsePDUSize, getNameListSize]
    omega
  | false =>
    simp [confirmedResponsePDUSize, getNameListSize, encodeBoolean]
    omega

theorem getNameListSize_le (included : List (List UInt8)) (moreFollows : Bool) :
    getNameListSize included moreFollows ≤ identifierListSize included + 7 := by
  have := determineLengthSize_le (identifierListSize included)
  unfold getNameListSize
  cases moreFollows <;> simp <;> omega

theorem confirmedResponsePDUSize_le (n : Nat) :
    confirmedResponsePDUSize invokeId n ≤ n + 11 := by
  have := determineLengthSize_le n
  have := uInt32determineEncodedSize_le invokeId
  unfold confirmedResponsePDUSize
  omega

theorem length_encodeGetNameListResponse_le (included : List (List UInt8)) (moreFollows : Bool) :
    (encodeGetNameListResponse invokeId included included moreFollows).length ≤
      identifierListSize included + 22 := by
  have hlist := getNameListSize_le included moreFollows
  have hpdu := confirmedResponsePDUSize_le invokeId (getNameListSize included moreFollows)
  have hlength := determineLengthSize_le
    (confirmedResponsePDUSize invokeId (getNameListSize included moreFollows))
  rw [length_encodeGetNameListResponse]
  omega

/-- A page with identifiers is not larger than it may be. -/
theorem length_encodeNameListResponse_le (h : 0 < nameCount maxPduSize overhead names) :
    (encodeNameListResponse maxPduSize invokeId names).length ≤ maxPduSize := by
  have hsum := estimated_le h
  have hlength := length_encodeGetNameListResponse_le invokeId
    (names.take (nameCount maxPduSize overhead names))
    (nameCount maxPduSize overhead names < names.length)
  unfold overhead at hsum
  rw [encodeNameListResponse, if_neg h.ne']
  unfold overhead at hlength ⊢
  omega

theorem length_encodeNameListResponse_nil :
    (encodeNameListResponse maxPduSize invokeId []).length =
      11 + uInt32determineEncodedSize invokeId := by
  have hle := uInt32determineEncodedSize_le invokeId
  have hsize : confirmedResponsePDUSize invokeId (getNameListSize [] false) =
      9 + uInt32determineEncodedSize invokeId := by
    simp [confirmedResponsePDUSize, getNameListSize, identifierListSize, determineLengthSize]
    omega
  have hshort : determineLengthSize (9 + uInt32determineEncodedSize invokeId) = 1 :=
    if_pos (by omega)
  have hlength := length_encodeGetNameListResponse invokeId [] false
  rw [hsize, hshort] at hlength
  rw [show encodeNameListResponse maxPduSize invokeId [] =
    encodeGetNameListResponse invokeId [] [] false from rfl, hlength]
  omega

end MmsServer

namespace MmsClient

/-- A tag that has to be there, and the length behind it: nothing when the message is wrong. -/
def parseTL (buffer : Memory) (tag : UInt8) (bufPos maxBufPos : Int) :
    Exec (Option (Int × Int)) := do
  let tag' ← buffer.read bufPos
  if tag' ≠ tag then return none
  let (bufPos, length) ← BerDecoder.decodeLength buffer 0 (bufPos + 1) maxBufPos
  if bufPos < 0 then return none
  return some (bufPos, length)

/-- The loop over the identifiers, with the position behind them. -/
def parseIdentifiers (buffer : Memory) (listEndPos maxBufPos : Int) :
    Nat → Int → Exec (Option (Int × List (List UInt8)))
  | 0, _ => .error .outOfFuel
  | fuel + 1, bufPos => do
    if listEndPos ≤ bufPos then return some (bufPos, [])
    let some (bufPos, length) ← parseTL buffer 0x1a bufPos maxBufPos | return none
    if length < 0 then .error .outOfBounds
    let variableName ← buffer.readOctets bufPos length.toNat
    let some (bufPos, names) ← parseIdentifiers buffer listEndPos maxBufPos fuel (bufPos + length)
      | return none
    return some (bufPos, variableName :: names)

def parseMoreFollows (buffer : Memory) (bufPos maxBufPos : Int) : Exec (Option Bool) := do
  if maxBufPos ≤ bufPos then return some true
  let some (bufPos, length) ← parseTL buffer 0x81 bufPos maxBufPos | return none
  if length ≠ 1 then return none
  return some (0 < (← buffer.read bufPos))

/-- What is done behind the header. -/
def parseListOfIdentifier (buffer : Memory) (listEndPos maxBufPos : Int) (fuel : Nat)
    (bufPos : Int) : Exec (Option (List (List UInt8) × Bool)) := do
  if maxBufPos < listEndPos then return none
  let some (bufPos, names) ← parseIdentifiers buffer listEndPos maxBufPos fuel bufPos
    | return none
  let some moreFollows ← parseMoreFollows buffer bufPos maxBufPos | return none
  return some (names, moreFollows)

/-- The identifiers of the message and whether more follow. Where there is nothing, the list of
the caller has been destroyed. -/
def parseGetNameListResponse (message : List UInt8) : Exec (Option (List (List UInt8) × Bool)) := do
  let buffer := Memory.ofList message
  let maxBufPos : Int := message.length
  let some (bufPos, _) ← parseTL buffer 0xa1 0 maxBufPos | return none
  let some (bufPos, length) ← parseTL buffer 0x02 bufPos maxBufPos | return none
  let some (bufPos, _) ← parseTL buffer 0xa1 (bufPos + length) maxBufPos | return none
  let some (bufPos, length) ← parseTL buffer 0xa0 bufPos maxBufPos | return none
  parseListOfIdentifier buffer (bufPos + length) maxBufPos (message.length + 1) bufPos

variable {message rest : List UInt8} {pos : Int}

/-- A tag that is there. -/
theorem parseTL_left {tag : UInt8} {n : Nat} (hn : n < 65536)
    (h : Memory.Left message (encodeTL tag n ++ rest) pos) :
    parseTL (.ofList message) tag pos message.length =
      .ok (some (pos + (encodeTL tag n).length, n)) := by
  have hmax : pos + (encodeTL tag n).length ≤ message.length := by
    have htotal := h.length
    rw [List.length_append] at htotal
    omega
  have hpos := h.pos_nonneg
  rw [parseTL, BerDecoder.read_encodeTL h, ok_bind, if_neg (by simp),
    BerDecoder.decodeLength_encodeTL hn h hmax, ok_bind]
  exact if_neg (by omega)

/-- A tag that is another one. -/
theorem parseTL_left_ne {tag tag' : UInt8} (hne : tag' ≠ tag)
    (h : Memory.Left message (tag' :: rest) pos) :
    parseTL (.ofList message) tag pos message.length = .ok none := by
  rw [parseTL, h.read, ok_bind, if_pos hne]
  rfl

theorem parseIdentifiers_left {names : List (List UInt8)} (hn : ∀ n ∈ names, n.length < 65536)
    (h : Memory.Left message (MmsServer.identifiers names ++ rest) pos) {fuel : Nat}
    (hf : names.length < fuel) :
    parseIdentifiers (.ofList message) (pos + (MmsServer.identifiers names).length) message.length
      fuel pos = .ok (some (pos + (MmsServer.identifiers names).length, names)) := by
  induction names generalizing pos fuel with
  | nil =>
    cases fuel with
    | zero => cases hf
    | succ fuel =>
      rw [parseIdentifiers, if_pos (by simp [MmsServer.identifiers])]
      simp [MmsServer.identifiers, pure, Except.pure]
  | cons n names ih =>
    cases fuel with
    | zero => cases hf
    | succ fuel =>
      have hsplit : MmsServer.identifiers (n :: names) ++ rest =
          encodeTL 0x1a n.length ++ (n ++ (MmsServer.identifiers names ++ rest)) := by
        simp [MmsServer.identifiers, encodeStringWithTag, encodeTL]
      have hlength : (MmsServer.identifiers (n :: names)).length =
          (encodeTL 0x1a n.length).length + n.length + (MmsServer.identifiers names).length := by
        simp [MmsServer.identifiers, encodeStringWithTag, encodeTL]
        omega
      rw [hsplit] at h
      have htl := parseTL_left (hn n List.mem_cons_self) h
      have hname := h.advance.readOctets
      have htail := ih (fun m hm => hn m (List.mem_cons_of_mem n hm)) h.advance.advance
        (Nat.lt_of_succ_lt_succ hf)
      have hend : pos + (MmsServer.identifiers (n :: names)).length =
          pos + (encodeTL 0x1a n.length).length + n.length +
            (MmsServer.identifiers names).length := by
        rw [hlength]
        push_cast
        ring
      have hpos : ¬ pos + (MmsServer.identifiers (n :: names)).length ≤ pos := by
        have : 0 < (encodeTL 0x1a n.length).length := by simp [encodeTL]
        omega
      rw [parseIdentifiers, if_neg hpos, htl, ok_bind]
      simp only []
      rw [if_neg (by omega), Int.toNat_natCast, hname, ok_bind, hend, htail, ok_bind]
      rfl

theorem parseMoreFollows_end (h : Memory.Left message [] pos) :
    parseMoreFollows (.ofList message) pos message.length = .ok (some true) := by
  have hlength := h.length
  rw [parseMoreFollows, if_pos (by simp at hlength; omega)]
  rfl

theorem parseMoreFollows_false (h : Memory.Left message (encodeBoolean 0x81 false) pos) :
    parseMoreFollows (.ofList message) pos message.length = .ok (some false) := by
  have hlength := h.length
  have htl : Memory.Left message (encodeTL 0x81 1 ++ [0]) pos := h
  rw [parseMoreFollows, if_neg (by simp [encodeBoolean] at hlength; omega),
    parseTL_left (by omega) htl, ok_bind]
  simp only [ne_eq, not_true, if_false, Nat.cast_one]
  rw [htl.advance.read]
  rfl

/-- The header is passed. -/
theorem parseGetNameListResponse_header {n₁ n₂ n₃ : Nat} (invokeId : List UInt8)
    (h₁ : n₁ < 65536) (h₂ : n₂ < 65536) (h₃ : n₃ < 65536) (hi : invokeId.length < 65536)
    (hm : message = encodeTL 0xa1 n₁ ++ (encodeTL 0x02 invokeId.length ++ invokeId) ++
      encodeTL 0xa1 n₂ ++ encodeTL 0xa0 n₃ ++ rest) :
    ∃ pos, Memory.Left message rest pos ∧ parseGetNameListResponse message =
      parseListOfIdentifier (.ofList message) (pos + n₃) message.length (message.length + 1)
        pos := by
  have hleft := Memory.Left.start message
  nth_rewrite 2 [hm] at hleft
  simp only [List.append_assoc] at hleft
  have htl₁ := parseTL_left h₁ hleft
  have htl₂ := parseTL_left hi hleft.advance
  have htl₃ := parseTL_left h₂ hleft.advance.advance.advance
  have htl₄ := parseTL_left h₃ hleft.advance.advance.advance.advance
  refine ⟨_, hleft.advance.advance.advance.advance.advance, ?_⟩
  rw [parseGetNameListResponse]
  simp only [htl₁, htl₂, htl₃, htl₄, ok_bind]

open MmsServer

variable {maxPduSize : Int} {names : List (List UInt8)} (invokeId : UInt32)

theorem parseGetNameListResponse_encode {included : List (List UInt8)}
    (written : List (List UInt8)) (moreFollows : Bool)
    (h : identifierListSize included < 65500)
    (hm : message = encodeGetNameListResponse invokeId included written moreFollows) :
    ∃ pos, Memory.Left message
      (identifiers written ++ if moreFollows then [] else encodeBoolean 0x81 false) pos ∧
      parseGetNameListResponse message = parseListOfIdentifier (.ofList message)
        (pos + identifierListSize included) message.length (message.length + 1) pos := by
  have hlist := getNameListSize_le included moreFollows
  have hpdu := confirmedResponsePDUSize_le invokeId (getNameListSize included moreFollows)
  have hinvoke := uInt32determineEncodedSize_le invokeId
  exact parseGetNameListResponse_header (encodeUInt32 invokeId) (by omega) (by omega)
    (by omega) (by rw [length_encodeUInt32]; omega) hm

/-- The client reads what was included. -/
theorem parse_encodeGetNameListResponse {included : List (List UInt8)}
    (h : identifierListSize included < 65500) (moreFollows : Bool) :
    parseGetNameListResponse (encodeGetNameListResponse invokeId included included moreFollows) =
      .ok (some (included, moreFollows)) := by
  obtain ⟨pos, hleft, hparse⟩ := parseGetNameListResponse_encode invokeId included
    moreFollows h rfl
  have hnames : ∀ n ∈ included, n.length < 65536 := by
    intro n hn
    have := length_le_identifierSize n
    have := identifierSize_le hn
    omega
  have hfuel := length_le_identifierListSize included
  have hle := hleft.length_le
  rw [List.length_append, length_identifiers] at hle
  have hlist := parseIdentifiers_left hnames hleft (Nat.lt_succ_of_le
    (hfuel.trans (le_trans (Nat.le_add_right _ _) hle)))
  have hlength := hleft.length
  rw [List.length_append, length_identifiers] at hlength
  rw [length_identifiers] at hlist
  have hrest := hleft.advance
  rw [length_identifiers] at hrest
  rw [hparse, parseListOfIdentifier, if_neg (by omega), hlist, ok_bind]
  cases moreFollows with
  | true =>
    simp only [parseMoreFollows_end hrest, ok_bind]
    rfl
  | false =>
    simp only [parseMoreFollows_false hrest, ok_bind]
    rfl

/-- What the client reads from a page that is not stuck. -/
theorem parse_encodeNameListResponse (hmax : maxPduSize ≤ 16000)
    (h : names = [] ∨ 0 < nameCount maxPduSize overhead names) :
    parseGetNameListResponse (encodeNameListResponse maxPduSize invokeId names) =
      .ok (some (names.take (nameCount maxPduSize overhead names),
        nameCount maxPduSize overhead names < names.length)) := by
  rcases h with rfl | hpos
  · exact parse_encodeGetNameListResponse invokeId (by simp [identifierListSize]) false
  · have hsum := estimated_le hpos
    unfold overhead at hsum
    rw [encodeNameListResponse, if_neg hpos.ne']
    apply parse_encodeGetNameListResponse
    unfold overhead
    omega

/-- A page without identifiers is not understood when there are some left. -/
theorem parse_encodeNameListResponse_stuck (hne : names ≠ [])
    (h : nameCount maxPduSize overhead names = 0) :
    parseGetNameListResponse (encodeNameListResponse maxPduSize invokeId names) = .ok none := by
  cases names with
  | nil => exact absurd rfl hne
  | cons n names =>
    obtain ⟨pos, hleft, hparse⟩ := @parseGetNameListResponse_encode _ invokeId [] (n :: names) true
      (by simp [identifierListSize]) rfl
    have hencode : encodeNameListResponse maxPduSize invokeId (n :: names) =
        encodeGetNameListResponse invokeId [] (n :: names) true := by
      rw [encodeNameListResponse, if_pos h, h]
      rfl
    have hlength := hleft.length
    have hfirst : Memory.Left (encodeGetNameListResponse invokeId [] (n :: names) true)
        (0x1a :: (encodeLength n.length ++ n ++ identifiers names ++ [])) pos := by
      simpa [identifiers, encodeStringWithTag] using hleft
    have hmore : parseMoreFollows
        (.ofList (encodeGetNameListResponse invokeId [] (n :: names) true)) pos
        (encodeGetNameListResponse invokeId [] (n :: names) true).length = .ok none := by
      have hbound := hfirst.length
      rw [List.length_cons] at hbound
      rw [parseMoreFollows, if_neg (by omega), parseTL_left_ne (by decide) hfirst]
      rfl
    have hnone : parseIdentifiers
        (.ofList (encodeGetNameListResponse invokeId [] (n :: names) true)) pos
        (encodeGetNameListResponse invokeId [] (n :: names) true).length
        ((encodeGetNameListResponse invokeId [] (n :: names) true).length + 1) pos =
          .ok (some (pos, [])) := by
      rw [parseIdentifiers, if_pos (Int.le_refl pos)]
      rfl
    rw [hencode, hparse, show identifierListSize [] = 0 from rfl, Nat.cast_zero, add_zero,
      parseListOfIdentifier, if_neg (by omega), hnone, ok_bind]
    simp only [hmore, ok_bind]
    rfl

theorem parse_createConfirmedErrorPdu (errorType : AccessError) :
    parseGetNameListResponse (createConfirmedErrorPdu invokeId errorType) = .ok none := by
  have htl := @parseTL_left_ne _ _ _ 0xa1 _ (by decide)
    (Memory.Left.start (createConfirmedErrorPdu invokeId errorType))
  simp only [parseGetNameListResponse, htl, ok_bind]
  rfl

end MmsClient

end Iec61850
