import Iec61850.Asn1.BerFields
import Mathlib.Data.List.TakeWhile

/-! The answers of the file services: what the server encodes (`mms_file_service.c`) and what the
client reads from it (`mms_client_files.c`). -/

namespace Iec61850.FileService

open Machine BerEncoder BerDecoder

/-! ## Encoders -/

/-- The tag and the size of a confirmed PDU, and its invoke id. -/
def confirmedHeader (tag : UInt8) (pduSize : Nat) (invokeId : UInt32) : List UInt8 :=
  encodeTL tag pduSize ++ (encodeTL 0x02 (uInt32determineEncodedSize invokeId) ++
    encodeUInt32 invokeId)

def createNullResponseExtendedTag (invokeId : UInt32) (tag : UInt8) : List UInt8 :=
  confirmedHeader 0xa1 (uInt32determineEncodedSize invokeId + 2 + 3) invokeId ++
    0xbf :: encodeTL tag 0

def fileAttributesSize (fileSize : UInt32) (gtString : List UInt8) : Nat :=
  1 + determineLengthSize (uInt32determineEncodedSize fileSize) +
    uInt32determineEncodedSize fileSize + 2 + gtString.length

def encodeFileAttributes (tag : UInt8) (fileSize : UInt32) (gtString : List UInt8) : List UInt8 :=
  encodeTL tag (fileAttributesSize fileSize gtString) ++
    (encodeTL 0x80 (uInt32determineEncodedSize fileSize) ++ encodeUInt32 fileSize ++
      encodeOctetString 0x81 gtString)

def openFileResponseSize (frsmId fileSize : UInt32) (gtString : List UInt8) : Nat :=
  fileAttributesSize fileSize gtString + 2 + (uInt32determineEncodedSize frsmId + 2)

def createFileOpenResponse (invokeId frsmId fileSize : UInt32) (gtString : List UInt8) :
    List UInt8 :=
  let size := openFileResponseSize frsmId fileSize gtString
  confirmedHeader 0xa1
      (uInt32determineEncodedSize invokeId + 2 + 2 + determineLengthSize size + size) invokeId ++
    0xbf :: (encodeTL 0x48 size ++ (encodeTL 0x80 (uInt32determineEncodedSize frsmId) ++
      encodeUInt32 frsmId ++ encodeFileAttributes 0xa1 fileSize gtString))

def fileReadResponseSize (fileChunkSize : Nat) (moreFollows : Bool) : Nat :=
  1 + (if moreFollows then 0 else 3) + fileChunkSize + determineLengthSize fileChunkSize

/-- `createFileReadResponse` behind the reading: `fileChunk` are the octets that were read. -/
def encodeFileReadResponse (invokeId : UInt32) (fileChunk : List UInt8) (moreFollows : Bool) :
    List UInt8 :=
  let size := fileReadResponseSize fileChunk.length moreFollows
  confirmedHeader 0xa1
      (uInt32determineEncodedSize invokeId + 2 + 2 + determineLengthSize size + size) invokeId ++
    0xbf :: (encodeTL 0x49 size ++ (encodeTL 0x80 fileChunk.length ++ fileChunk ++
      if moreFollows then [] else encodeBoolean 0x81 false))

/-! ## Parsers -/

/-- Where `mmsIsoCallback` leaves a confirmed response: behind its invoke id. -/
def lastResponseBufPos (payload : List UInt8) : Exec Int := do
  let buffer := Memory.ofList payload
  let (bufPos, _) ← decodeLength buffer 0 1 payload.length
  let (bufPos, invokeIdLength) ← decodeLength buffer 0 (bufPos + 1) payload.length
  return i32 (bufPos + invokeIdLength)

/-- The second octet of the tag of a service and the length behind it, and whether the message is
long enough. -/
def parseServiceTag (buffer : Memory) (service : UInt8) (bufPos maxBufPos : Int) :
    Exec (Option (Int × Int)) := do
  if (← buffer.read bufPos) ≠ service then return none
  let (bufPos, length) ← decodeLength buffer 0 (bufPos + 1) maxBufPos
  if bufPos < 0 then return none
  if maxBufPos < i32 (bufPos + length) then return none
  return some (bufPos, length)

/-- What a handler gets is an address and an unsigned number of octets. -/
def readBuffer (buffer : Memory) (length bufPos : Int) : Exec (List UInt8) :=
  buffer.readOctets bufPos (length % 4294967296).toNat

/-- `memcpy` to an array of `capacity` octets, and a zero behind: the string that is there then. -/
def copyString (buffer : Memory) (capacity length bufPos : Int) : Exec (List UInt8) := do
  if length < 0 ∨ capacity ≤ length then .error .outOfBounds
  let octets ← buffer.readOctets bufPos length.toNat
  return octets.takeWhile (· ≠ 0)

def decodeBoolean (buffer : Memory) (bufPos : Int) : Exec Bool := do
  return (← buffer.read bufPos) ≠ 0

/-- The file attributes: the size, and the time of the last modification as it is written. -/
structure FileAttributes where
  fileSize : UInt32
  lastModified : Option (List UInt8)

/-- A caller that has no use for the time does not look at it. -/
def fileAttribute (buffer : Memory) (wantsTime : Bool) : ElementParser FileAttributes :=
  fun tag len bufPos state =>
    if tag = 0x80 then do
      let fileSize ← decodeUint32 buffer len bufPos
      skip len bufPos { state with fileSize := fileSize }
    else if tag = 0x81 then
      if wantsTime then do
        let gtString ← copyString buffer 40 len bufPos
        skip len bufPos { state with lastModified := some gtString }
      else skip len bufPos state
    else return (none, state)

def parseFileAttributes (buffer : Memory) (wantsTime : Bool) (fuel : Nat) (bufPos maxBufPos : Int)
    (state : FileAttributes) : Exec (Option Int × FileAttributes) :=
  parseElements buffer 0 maxBufPos true (fileAttribute buffer wantsTime) fuel bufPos state

structure FileOpenState where
  frsmId : UInt32
  attributes : FileAttributes

def fileOpenField (buffer : Memory) (wantsTime : Bool) (fuel : Nat) : ElementParser FileOpenState :=
  fun tag len bufPos state =>
    if tag = 0x80 then do
      let frsmId ← decodeUint32 buffer len bufPos
      skip len bufPos { state with frsmId := frsmId }
    else if tag = 0xa1 then do
      let (next, attributes) ← parseFileAttributes buffer wantsTime fuel bufPos
        (i32 (bufPos + len)) state.attributes
      match next with
      | none => return (none, { state with attributes := attributes })
      | some _ => skip len bufPos { state with attributes := attributes }
    else skip len bufPos state

/-- Whether the response is as it should be, and what has been read of it. -/
def parseFileOpenResponse (message : List UInt8) (wantsTime : Bool) (bufPos : Int)
    (state : FileOpenState) : Exec (Bool × FileOpenState) := do
  let buffer := Memory.ofList message
  let fuel := message.length + 1
  if (← buffer.read bufPos) ≠ 0xbf then return (false, state)
  match ← parseServiceTag buffer 0x48 (bufPos + 1) message.length with
  | none => return (false, state)
  | some (bufPos, length) =>
    let (next, state) ← parseFields buffer message.length (i32 (bufPos + length))
      (fileOpenField buffer wantsTime fuel) fuel length bufPos state
    return (next.isSome, state)

structure FileReadState (π : Type) where
  moreFollows : Bool
  handlerParameter : π

def fileReadField {π : Type} (buffer : Memory) (handler : π → List UInt8 → π) :
    ElementParser (FileReadState π) :=
  fun tag len bufPos state =>
    if tag = 0x80 then do
      let fileData ← readBuffer buffer len bufPos
      skip len bufPos
        { state with handlerParameter := handler state.handlerParameter fileData }
    else if tag = 0x81 then do
      let moreFollows ← decodeBoolean buffer bufPos
      skip len bufPos { state with moreFollows := moreFollows }
    else return (none, state)

/-- The handler gets what is in the message. -/
def parseFileReadResponse {π : Type} (handler : π → List UInt8 → π) (message : List UInt8)
    (bufPos : Int) (state : FileReadState π) : Exec (Bool × FileReadState π) := do
  let buffer := Memory.ofList message
  if (← buffer.read bufPos) ≠ 0xbf then return (false, state)
  let state := { state with moreFollows := true }
  match ← parseServiceTag buffer 0x49 (bufPos + 1) message.length with
  | none => return (false, state)
  | some (bufPos, length) =>
    let (next, state) ← parseFields buffer message.length (i32 (bufPos + length))
      (fileReadField buffer handler) (message.length + 1) length bufPos state
    return (next.isSome, state)

/-! ## Sizes -/

def confirmedContent (invokeId : UInt32) (service : List UInt8) : List UInt8 :=
  encodeTL 0x02 (encodeUInt32 invokeId).length ++ (encodeUInt32 invokeId ++ service)

/-- A confirmed PDU whose size is that of what follows. -/
def confirmedPdu (tag : UInt8) (invokeId : UInt32) (service : List UInt8) : List UInt8 :=
  encodeTL tag (confirmedContent invokeId service).length ++ confirmedContent invokeId service

/-- A service with a tag of two octets, and the size of its fields. -/
def extendedField (service : UInt8) (fields : List UInt8) : List UInt8 :=
  0xbf :: (encodeTL service fields.length ++ fields)

theorem uInt32determineEncodedSize_lt (n : UInt32) : uInt32determineEncodedSize n < 128 :=
  (MmsServer.uInt32determineEncodedSize_le n).trans_lt (by decide)

theorem confirmedHeader_append {tag : UInt8} {pduSize : Nat} {invokeId : UInt32}
    {service : List UInt8}
    (h : pduSize = uInt32determineEncodedSize invokeId + 2 + service.length) :
    confirmedHeader tag pduSize invokeId ++ service = confirmedPdu tag invokeId service := by
  have htl := MmsServer.length_encodeTL_short 0x02 (uInt32determineEncodedSize_lt invokeId)
  have hsize : pduSize = (confirmedContent invokeId service).length := by
    simp only [confirmedContent, List.length_append, MmsServer.length_encodeUInt32, htl]
    omega
  rw [confirmedHeader, confirmedPdu, ← hsize, confirmedContent, MmsServer.length_encodeUInt32,
    List.append_assoc, List.append_assoc]

theorem length_extendedField (service : UInt8) (fields : List UInt8) :
    (extendedField service fields).length =
      2 + determineLengthSize fields.length + fields.length := by
  simp [extendedField, encodeTL]
  omega

/-- The fields of a response to a read. -/
def fileReadFields (fileChunk : List UInt8) (moreFollows : Bool) : List UInt8 :=
  encodeTL 0x80 fileChunk.length ++ (fileChunk ++
    if moreFollows then [] else encodeBoolean 0x81 false)

theorem length_fileReadFields (fileChunk : List UInt8) (moreFollows : Bool) :
    (fileReadFields fileChunk moreFollows).length =
      fileReadResponseSize fileChunk.length moreFollows := by
  cases moreFollows
  all_goals
    simp [fileReadFields, fileReadResponseSize, encodeTL, encodeBoolean]
    omega

theorem encodeFileReadResponse_eq (invokeId : UInt32) (fileChunk : List UInt8)
    (moreFollows : Bool) : encodeFileReadResponse invokeId fileChunk moreFollows =
      confirmedPdu 0xa1 invokeId (extendedField 0x49 (fileReadFields fileChunk moreFollows)) := by
  have hsize := length_extendedField 0x49 (fileReadFields fileChunk moreFollows)
  rw [← confirmedHeader_append rfl, hsize, length_fileReadFields, extendedField,
    length_fileReadFields, encodeFileReadResponse, fileReadFields, List.append_assoc]
  simp only [add_assoc]

/-- The fields of file attributes. -/
def fileAttributeFields (fileSize : UInt32) (gtString : List UInt8) : List UInt8 :=
  encodeTL 0x80 (encodeUInt32 fileSize).length ++ (encodeUInt32 fileSize ++
    (encodeTL 0x81 gtString.length ++ gtString))

theorem length_fileAttributeFields (fileSize : UInt32) {gtString : List UInt8}
    (hshort : gtString.length < 128) :
    (fileAttributeFields fileSize gtString).length = fileAttributesSize fileSize gtString := by
  simp only [fileAttributeFields, fileAttributesSize, List.length_append,
    MmsServer.length_encodeTL_short _ hshort, MmsServer.length_encodeUInt32]
  rw [encodeTL, List.length_cons, length_encodeLength]
  omega

theorem encodeFileAttributes_eq (tag : UInt8) (fileSize : UInt32) {gtString : List UInt8}
    (hshort : gtString.length < 128) : encodeFileAttributes tag fileSize gtString =
      encodeTL tag (fileAttributeFields fileSize gtString).length ++
        fileAttributeFields fileSize gtString := by
  rw [length_fileAttributeFields fileSize hshort, encodeFileAttributes, fileAttributeFields,
    List.append_assoc]
  rfl

/-- The fields of a response to an open. -/
def fileOpenFields (frsmId fileSize : UInt32) (gtString : List UInt8) : List UInt8 :=
  encodeTL 0x80 (encodeUInt32 frsmId).length ++ (encodeUInt32 frsmId ++
    (encodeTL 0xa1 (fileAttributeFields fileSize gtString).length ++
      fileAttributeFields fileSize gtString))

theorem length_fileOpenFields (frsmId fileSize : UInt32) {gtString : List UInt8}
    (hshort : gtString.length < 100) :
    (fileOpenFields frsmId fileSize gtString).length =
      openFileResponseSize frsmId fileSize gtString := by
  have hattributes := length_fileAttributeFields fileSize (hshort.trans (by decide))
  have hsize := MmsServer.uInt32determineEncodedSize_le fileSize
  have hfrsm := MmsServer.uInt32determineEncodedSize_le frsmId
  have hone : determineLengthSize (uInt32determineEncodedSize fileSize) = 1 :=
    if_pos (uInt32determineEncodedSize_lt fileSize)
  have hlt : fileAttributesSize fileSize gtString < 128 := by
    rw [fileAttributesSize, hone]
    omega
  simp only [fileOpenFields, openFileResponseSize, List.length_append, hattributes,
    MmsServer.length_encodeTL_short _ hlt, MmsServer.length_encodeUInt32,
    MmsServer.length_encodeTL_short _ (uInt32determineEncodedSize_lt frsmId)]
  omega

theorem createFileOpenResponse_eq (invokeId frsmId fileSize : UInt32) {gtString : List UInt8}
    (hshort : gtString.length < 100) : createFileOpenResponse invokeId frsmId fileSize gtString =
      confirmedPdu 0xa1 invokeId
        (extendedField 0x48 (fileOpenFields frsmId fileSize gtString)) := by
  have hsize := length_extendedField 0x48 (fileOpenFields frsmId fileSize gtString)
  rw [← confirmedHeader_append rfl, hsize, length_fileOpenFields frsmId fileSize hshort,
    extendedField, length_fileOpenFields frsmId fileSize hshort, createFileOpenResponse,
    fileOpenFields, encodeFileAttributes_eq 0xa1 fileSize (hshort.trans (by decide)),
    List.append_assoc]
  simp only [add_assoc, MmsServer.length_encodeUInt32]

theorem length_confirmedPdu_le (tag : UInt8) (invokeId : UInt32) (service : List UInt8) :
    (confirmedPdu tag invokeId service).length ≤ 13 + service.length := by
  have htl := length_encodeTL_le tag (confirmedContent invokeId service).length
  have hinvoke := length_encodeTL_le 0x02 (encodeUInt32 invokeId).length
  have hid : (encodeUInt32 invokeId).length ≤ 5 := MmsServer.uInt32determineEncodedSize_le invokeId
  rw [confirmedPdu, List.length_append]
  have hcontent : (confirmedContent invokeId service).length ≤ 9 + service.length := by
    simp only [confirmedContent, List.length_append]
    omega
  omega

theorem length_fileOpenFields_le (frsmId fileSize : UInt32) (gtString : List UInt8) :
    (fileOpenFields frsmId fileSize gtString).length ≤ 26 + gtString.length := by
  have hid : (encodeUInt32 frsmId).length ≤ 5 := MmsServer.uInt32determineEncodedSize_le frsmId
  have hfile : (encodeUInt32 fileSize).length ≤ 5 :=
    MmsServer.uInt32determineEncodedSize_le fileSize
  have h1 := length_encodeTL_le 0x80 (encodeUInt32 frsmId).length
  have h2 := length_encodeTL_le 0xa1 (fileAttributeFields fileSize gtString).length
  have h3 := length_encodeTL_le 0x80 (encodeUInt32 fileSize).length
  have h4 := length_encodeTL_le 0x81 gtString.length
  have hattributes : (fileAttributeFields fileSize gtString).length ≤ 13 + gtString.length := by
    simp only [fileAttributeFields, List.length_append]
    omega
  simp only [fileOpenFields, List.length_append]
  omega

theorem length_createFileOpenResponse_lt (invokeId frsmId fileSize : UInt32)
    {gtString : List UInt8} (hshort : gtString.length < 40) :
    (createFileOpenResponse invokeId frsmId fileSize gtString).length < 65536 := by
  have hfields := length_fileOpenFields_le frsmId fileSize gtString
  have hpdu := length_confirmedPdu_le 0xa1 invokeId
    (extendedField 0x48 (fileOpenFields frsmId fileSize gtString))
  have htl := length_encodeTL_le 0x48 (fileOpenFields frsmId fileSize gtString).length
  rw [createFileOpenResponse_eq invokeId frsmId fileSize (hshort.trans (by decide))]
  rw [extendedField, List.length_cons, List.length_append] at hpdu
  exact lt_of_le_of_lt hpdu (by omega)

/-! ## What is read back -/

section ReadBack

variable {message rest : List UInt8} {pos : Int}

theorem skip_left {σ : Type} {content : List UInt8} (hsize : message.length < 2147483648)
    (hl : Memory.Left message (content ++ rest) pos) (state : σ) :
    skip content.length pos state = .ok (some (pos + content.length), state) := by
  have hpos := hl.pos_nonneg
  have hend := hl.end_le
  rw [skip, i32_of_range (by omega) (by omega)]
  rfl

/-- The client finds what stands behind the invoke id. -/
theorem lastResponseBufPos_confirmedPdu {invokeId : UInt32} {service : List UInt8}
    (hsize : (confirmedPdu 0xa1 invokeId service).length < 65536) :
    ∃ bufPos, lastResponseBufPos (confirmedPdu 0xa1 invokeId service) = .ok bufPos ∧
      Memory.Left (confirmedPdu 0xa1 invokeId service) service bufPos := by
  have h0 : Memory.Left (confirmedPdu 0xa1 invokeId service)
      (encodeTL 0xa1 (confirmedContent invokeId service).length ++
        confirmedContent invokeId service) 0 := .start _
  have h1 : Memory.Left (confirmedPdu 0xa1 invokeId service)
      (encodeTL 0x02 (encodeUInt32 invokeId).length ++ (encodeUInt32 invokeId ++ service)) _ :=
    h0.advance
  have h2 := h1.advance
  have hpdu : (confirmedContent invokeId service).length < 65536 :=
    h0.advance.length_le.trans_lt hsize
  have hinvoke : (encodeUInt32 invokeId).length < 65536 :=
    (uInt32determineEncodedSize_lt invokeId).trans (by decide)
  have hend := h2.end_le
  have hpos := h2.pos_nonneg
  refine ⟨_, ?_, h2.advance⟩
  change (decodeLength _ 0 (0 + 1) _ >>= _) = _
  rw [decodeLength_encodeTL hpdu h0 h0.end_le, ok_bind]
  dsimp only
  rw [decodeLength_encodeTL hinvoke h1 h1.end_le, ok_bind]
  dsimp only
  rw [i32_of_range (by omega) (by omega)]
  rfl

/-- The tag of the service, and the fields up to the end of the message. -/
theorem parseServiceTag_left {service : UInt8} {fields : List UInt8}
    (hsize : message.length < 2147483648) (hfields : fields.length < 65536)
    (hl : Memory.Left message (encodeTL service fields.length ++ fields) pos) :
    parseServiceTag (.ofList message) service pos message.length =
        .ok (some (pos + (encodeTL service fields.length).length, fields.length)) ∧
      pos + (encodeTL service fields.length).length + fields.length = message.length := by
  have hend := hl.advance.length
  have hpos := hl.advance.pos_nonneg
  refine ⟨?_, hend⟩
  rw [parseServiceTag, read_encodeTL hl, ok_bind, if_neg (not_not_intro rfl),
    decodeLength_encodeTL hfields hl hl.end_le, ok_bind]
  dsimp only
  rw [if_neg (by omega), hend, i32_of_range (by omega) (by omega), if_neg (lt_irrefl _)]
  rfl

theorem decodeUint32_encodeUInt32 {n : UInt32}
    (hl : Memory.Left message (encodeUInt32 n ++ rest) pos) :
    decodeUint32 (.ofList message) (encodeUInt32 n).length pos = .ok n := by
  rw [decodeUint32, Int.toNat_natCast, hl.readOctets, ok_bind, uint32OfOctets_encodeUInt32]
  rfl

theorem copyString_left {string : List UInt8} {capacity : Int} (hzero : 0 ∉ string)
    (hcapacity : string.length < capacity) (hl : Memory.Left message (string ++ rest) pos) :
    copyString (.ofList message) capacity string.length pos = .ok string := by
  have hwhole : string.takeWhile (· ≠ 0) = string := by
    rw [List.takeWhile_eq_self_iff]
    intro b hb
    refine decide_eq_true ?_
    rintro rfl
    exact hzero hb
  rw [copyString, if_neg (by omega), Int.toNat_natCast, hl.readOctets, ok_bind, hwhole]
  rfl

theorem readBuffer_left {content : List UInt8} (hsize : message.length < 2147483648)
    (hl : Memory.Left message (content ++ rest) pos) :
    readBuffer (.ofList message) content.length pos = .ok content := by
  have hend := hl.end_le
  have hpos := hl.pos_nonneg
  have hlength : ((content.length : Int) % 4294967296).toNat = content.length := by omega
  rw [readBuffer, hlength, hl.readOctets]

/-- What a parser finds of a response before it comes to the fields. -/
structure Found (message : List UInt8) (service : UInt8) (fields : List UInt8)
    (bufPos fieldPos : Int) : Prop where
  position : lastResponseBufPos message = .ok bufPos
  first : (Memory.ofList message).read bufPos = .ok 0xbf
  second : parseServiceTag (.ofList message) service (bufPos + 1) message.length =
    .ok (some (fieldPos, fields.length))
  endPos : i32 (fieldPos + fields.length) = message.length
  left : Memory.Left message fields fieldPos
  turns : 3 ≤ message.length + 1

theorem found_confirmedPdu {invokeId : UInt32} {service : UInt8} {fields : List UInt8}
    (hsize : (confirmedPdu 0xa1 invokeId (extendedField service fields)).length < 65536) :
    ∃ bufPos fieldPos,
      Found (confirmedPdu 0xa1 invokeId (extendedField service fields)) service fields bufPos
        fieldPos := by
  obtain ⟨bufPos, hpos, hl⟩ := lastResponseBufPos_confirmedPdu hsize
  have hone : Memory.Left (confirmedPdu 0xa1 invokeId (extendedField service fields))
      ([0xbf] ++ (encodeTL service fields.length ++ fields)) bufPos := hl
  have hservice := hone.advance
  have hfields := hservice.advance
  have hbig := hsize.trans (by decide : 65536 < 2147483648)
  obtain ⟨htag, hend⟩ := parseServiceTag_left hbig (hfields.length_le.trans_lt hsize) hservice
  have hstart := hl.length
  have hnonneg := hl.pos_nonneg
  have hfieldPos := hfields.pos_nonneg
  rw [length_extendedField] at hstart
  refine ⟨bufPos, _, hpos, hone.read, htag, ?_, hfields, by omega⟩
  rw [List.length_singleton, Nat.cast_one] at hfieldPos
  rw [hend, i32_of_range (by omega) (by omega)]

theorem parseFields_fileRead {π : Type} (handler : π → List UInt8 → π) {fileChunk : List UInt8}
    {moreFollows : Bool} (hsize : message.length < 65536)
    (hl : Memory.Left message (fileReadFields fileChunk moreFollows) pos) {fuel : Nat}
    (hfuel : 3 ≤ fuel) (length : Int) (param : π) :
    parseFields (.ofList message) message.length message.length
      (fileReadField (.ofList message) handler) fuel length pos ⟨true, param⟩ =
        .ok (some (message.length : Int), ⟨moreFollows, handler param fileChunk⟩) := by
  obtain ⟨fuel, rfl⟩ := Nat.exists_eq_add_of_le' hfuel
  have hbig : message.length < 2147483648 := hsize.trans (by decide)
  have hcontent := hl.advance
  have hnext := hcontent.advance
  have hchunk : fileChunk.length < 65536 := by
    have := hcontent.length_le
    rw [List.length_append] at this
    omega
  have htl : 0 < (encodeTL 0x80 fileChunk.length).length := Nat.succ_pos _
  have hend := hl.end_le
  rw [fileReadFields] at hl
  rw [parseFields_encodeTL hchunk hl (by omega) hl.end_le, fileReadField, if_pos rfl,
    readBuffer_left hbig hcontent, ok_bind, skip_left hbig hcontent, ok_bind]
  dsimp only
  cases moreFollows with
  | true =>
    have hlast := hnext.length
    rw [if_pos rfl, List.length_nil, Nat.cast_zero, add_zero] at hlast
    rw [hlast]
    exact parseFields_end le_rfl
  | false =>
    have hbool : Memory.Left message (encodeTL 0x81 1 ++ ([0] ++ []))
        (pos + (encodeTL 0x80 fileChunk.length).length + fileChunk.length) := hnext
    have hvalue := hbool.advance
    have hlast := hvalue.advance.length
    have hpos := hbool.end_le
    have htwo : ((encodeTL 0x81 1).length : Int) = 2 := rfl
    rw [parseFields_encodeTL (by decide) hbool (by omega) hpos, fileReadField,
      if_neg (by decide), if_pos rfl, decodeBoolean, hvalue.read, ok_bind]
    have hskip := skip_left hbig hvalue (FileReadState.mk false (handler param fileChunk))
    rw [List.length_nil, Nat.cast_zero, add_zero] at hlast
    rw [hlast] at hskip
    change (skip ([0] : List UInt8).length _ (FileReadState.mk false _) >>= _) = _
    rw [hskip, ok_bind]
    exact parseFields_end le_rfl

theorem parseFileAttributes_left {fileSize : UInt32} {gtString : List UInt8}
    (hsize : message.length < 65536) (hzero : 0 ∉ gtString) (hshort : gtString.length < 40)
    (hl : Memory.Left message (fileAttributeFields fileSize gtString ++ rest) pos)
    (wantsTime : Bool) {fuel : Nat} (hfuel : 3 ≤ fuel) (state : FileAttributes) :
    parseFileAttributes (.ofList message) wantsTime fuel pos
        (pos + (fileAttributeFields fileSize gtString).length) state =
      .ok (some (pos + (fileAttributeFields fileSize gtString).length),
        ⟨fileSize, if wantsTime then some gtString else state.lastModified⟩) := by
  obtain ⟨fuel, rfl⟩ := Nat.exists_eq_add_of_le' hfuel
  have hbig : message.length < 2147483648 := hsize.trans (by decide)
  have hfirst : Memory.Left message (encodeTL 0x80 (encodeUInt32 fileSize).length ++
      (encodeUInt32 fileSize ++ (encodeTL 0x81 gtString.length ++ (gtString ++ rest)))) pos := by
    rw [fileAttributeFields] at hl
    simpa only [List.append_assoc] using hl
  have hcontent := hfirst.advance
  have hsecond := hcontent.advance
  have hstring := hsecond.advance
  have hend : pos + (encodeTL 0x80 (encodeUInt32 fileSize).length).length +
      (encodeUInt32 fileSize).length + (encodeTL 0x81 gtString.length).length + gtString.length =
      pos + (fileAttributeFields fileSize gtString).length := by
    simp only [fileAttributeFields, List.length_append]
    push_cast
    ring
  have hsmall : (encodeUInt32 fileSize).length < 65536 :=
    (uInt32determineEncodedSize_lt fileSize).trans (by decide)
  rw [parseFileAttributes, parseElements_encodeTL hsmall hfirst (by omega), fileAttribute,
    if_pos rfl, decodeUint32_encodeUInt32 hcontent, ok_bind, skip_left hbig hcontent, ok_bind]
  dsimp only
  rw [parseElements_encodeTL (by omega) hsecond (by omega), fileAttribute, if_neg (by decide),
    if_pos rfl]
  cases wantsTime with
  | true =>
    rw [if_pos rfl, copyString_left hzero (by omega) hstring, ok_bind, skip_left hbig hstring,
      ok_bind]
    dsimp only
    rw [hend]
    exact parseElements_end le_rfl
  | false =>
    rw [if_neg Bool.false_ne_true, skip_left hbig hstring, ok_bind]
    dsimp only
    rw [hend]
    exact parseElements_end le_rfl

theorem parseFields_fileOpen {frsmId fileSize : UInt32} {gtString : List UInt8}
    (hsize : message.length < 65536) (hzero : 0 ∉ gtString) (hshort : gtString.length < 40)
    (hl : Memory.Left message (fileOpenFields frsmId fileSize gtString) pos) {wantsTime : Bool}
    {fuel : Nat} (hfuel : 3 ≤ fuel) (length : Int) (state : FileOpenState) :
    parseFields (.ofList message) message.length message.length
      (fileOpenField (.ofList message) wantsTime fuel) fuel length pos state =
        .ok (some (message.length : Int), ⟨frsmId, fileSize,
          if wantsTime then some gtString else state.attributes.lastModified⟩) := by
  obtain ⟨turns, hturns⟩ := Nat.exists_eq_add_of_le' hfuel
  have hbig : message.length < 2147483648 := hsize.trans (by decide)
  have hcontent := hl.advance
  have hsecond := hcontent.advance
  have hattributes := hsecond.advance
  have hsmall : (encodeUInt32 frsmId).length < 65536 :=
    (uInt32determineEncodedSize_lt frsmId).trans (by decide)
  have hfields : (fileAttributeFields fileSize gtString).length < 65536 :=
    hattributes.length_le.trans_lt hsize
  have hlast := hattributes.length
  have htl : 0 < (encodeTL 0x80 (encodeUInt32 frsmId).length).length := Nat.succ_pos _
  have htl' : 0 < (encodeTL 0xa1 (fileAttributeFields fileSize gtString).length).length :=
    Nat.succ_pos _
  have hpos := hl.pos_nonneg
  have hwhole : Memory.Left message (fileAttributeFields fileSize gtString ++ [])
      (pos + (encodeTL 0x80 (encodeUInt32 frsmId).length).length + (encodeUInt32 frsmId).length +
        (encodeTL 0xa1 (fileAttributeFields fileSize gtString).length).length) := by
    rw [List.append_nil]
    exact hattributes
  have hskip := skip_left hbig hwhole
    (FileOpenState.mk frsmId ⟨fileSize, if wantsTime then some gtString
      else state.attributes.lastModified⟩)
  have hattr := parseFileAttributes_left hsize hzero hshort hwhole wantsTime hfuel
    state.attributes
  rw [hlast] at hskip hattr
  rw [hturns] at hattr ⊢
  rw [parseFields_encodeTL hsmall hl (by omega) (by omega), fileOpenField, if_pos rfl,
    decodeUint32_encodeUInt32 hcontent, ok_bind, skip_left hbig hcontent, ok_bind]
  dsimp only
  rw [parseFields_encodeTL hfields hsecond (by omega) (by omega), fileOpenField,
    if_neg (by decide), if_pos rfl, i32_of_range (by omega) (by omega), hlast, hattr, ok_bind]
  dsimp only
  rw [hskip, ok_bind]
  exact parseFields_end le_rfl

/-- The client reads the id, the size and the time that the server has written. -/
theorem parseFileOpenResponse_create (invokeId frsmId fileSize : UInt32) {gtString : List UInt8}
    (hzero : 0 ∉ gtString) (hshort : gtString.length < 40) (wantsTime : Bool)
    (state : FileOpenState) : ∃ bufPos,
    lastResponseBufPos (createFileOpenResponse invokeId frsmId fileSize gtString) = .ok bufPos ∧
      parseFileOpenResponse (createFileOpenResponse invokeId frsmId fileSize gtString) wantsTime
        bufPos state = .ok (true, ⟨frsmId, fileSize,
          if wantsTime then some gtString else state.attributes.lastModified⟩) := by
  have hsize := length_createFileOpenResponse_lt invokeId frsmId fileSize hshort
  rw [createFileOpenResponse_eq invokeId frsmId fileSize (hshort.trans (by decide))] at hsize ⊢
  obtain ⟨bufPos, fieldPos, hf⟩ := found_confirmedPdu hsize
  refine ⟨bufPos, hf.position, ?_⟩
  rw [parseFileOpenResponse, hf.first, ok_bind, if_neg (not_not_intro rfl), hf.second, ok_bind]
  dsimp only
  rw [hf.endPos, parseFields_fileOpen hsize hzero hshort hf.left hf.turns]
  rfl

/-- What the server has read of the file is what the handler of the client gets. -/
theorem parseFileReadResponse_encode {π : Type} (handler : π → List UInt8 → π)
    (invokeId : UInt32) {fileChunk : List UInt8} {moreFollows : Bool}
    (hsize : (encodeFileReadResponse invokeId fileChunk moreFollows).length < 65536)
    (state : FileReadState π) : ∃ bufPos,
    lastResponseBufPos (encodeFileReadResponse invokeId fileChunk moreFollows) = .ok bufPos ∧
      parseFileReadResponse handler (encodeFileReadResponse invokeId fileChunk moreFollows) bufPos
        state = .ok (true, ⟨moreFollows, handler state.handlerParameter fileChunk⟩) := by
  rw [encodeFileReadResponse_eq] at hsize ⊢
  obtain ⟨bufPos, fieldPos, hf⟩ := found_confirmedPdu hsize
  refine ⟨bufPos, hf.position, ?_⟩
  rw [parseFileReadResponse, hf.first, ok_bind, if_neg (not_not_intro rfl), hf.second, ok_bind]
  dsimp only
  rw [hf.endPos, parseFields_fileRead handler hsize hf.left hf.turns]
  rfl

end ReadBack

end Iec61850.FileService
