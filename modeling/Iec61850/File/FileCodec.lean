import Iec61850.File.FileDirectory
import Iec61850.File.FileServer

/-! The codec of the file services: what one side reads of what the other side has written. -/

namespace Iec61850.FileService

open Machine BerEncoder BerDecoder

/-- What one response carries of a file. -/
structure FileChunk where
  octets : List UInt8
  length_le : octets.length ≤ maxFileChunkSize.toNat

/-- A positive answer of a file service. -/
inductive FileAnswer
  | opened (frsmId fileSize : UInt32) (gtString : CharArray 30)
  | data (fileChunk : FileChunk) (moreFollows : Bool)
  | closed
  | deleted
  | directory (continueAfter : Option (List UInt8)) (files : List DirectoryEntry)

namespace FileAnswer

def encode (invokeId : UInt32) : FileAnswer → List UInt8
  | .opened frsmId fileSize gtString =>
    createFileOpenResponse invokeId frsmId fileSize gtString.octets
  | .data fileChunk moreFollows => encodeFileReadResponse invokeId fileChunk.octets moreFollows
  | .closed => createNullResponseExtendedTag invokeId 0x4a
  | .deleted => createNullResponseExtendedTag invokeId 0x4c
  | .directory continueAfter files => createFileDirectoryResponse invokeId continueAfter files

def service : FileAnswer → UInt8
  | .opened _ _ _ => 0x48
  | .data _ _ => 0x49
  | .closed => 0x4a
  | .deleted => 0x4c
  | .directory _ _ => 0x4d

/-- The fields of an answer, each with the length of what follows. -/
def fields : FileAnswer → List UInt8
  | .opened frsmId fileSize gtString => fileOpenFields frsmId fileSize gtString.octets
  | .data fileChunk moreFollows => fileReadFields fileChunk.octets moreFollows
  | .closed => []
  | .deleted => []
  | .directory continueAfter files =>
    directoryFields (encodeEntries (directoryListing continueAfter files).1)
      (directoryListing continueAfter files).2

/-- What the parser of the client makes of a message; nothing is read of the answers to a close
and to a delete. -/
def ReadFrom (message : List UInt8) (bufPos : Int) : FileAnswer → Prop
  | .opened frsmId fileSize gtString => ∀ state,
    parseFileOpenResponse message true bufPos state =
      .ok (true, ⟨frsmId, fileSize, some gtString.octets⟩)
  | .data fileChunk moreFollows => ∀ (π : Type) (handler : π → List UInt8 → π) state,
    parseFileReadResponse handler message bufPos state =
      .ok (true, ⟨moreFollows, handler state.handlerParameter fileChunk.octets⟩)
  | .closed => True
  | .deleted => True
  | .directory continueAfter files => ∀ (π : Type) (handler : π → ListedFile → π) state,
    parseFileDirectoryResponse handler message bufPos state =
      .ok (true, ⟨(directoryListing continueAfter files).2,
        ((directoryListing continueAfter files).1.map DirectoryEntry.listed).foldl handler
          state.handlerParameter⟩)

end FileAnswer

/-- The invoke id that `mmsIsoCallback` reads of a confirmed response. -/
def responseInvokeId (payload : List UInt8) : Exec UInt32 := do
  let buffer := Memory.ofList payload
  let (bufPos, _) ← decodeLength buffer 0 1 payload.length
  let (bufPos, invokeIdLength) ← decodeLength buffer 0 (bufPos + 1) payload.length
  decodeUint32 buffer invokeIdLength bufPos

/-- The server reads the arguments of a request, and every length is that of what follows. -/
structure RequestRoundTrips (invokeId : UInt32) (request : FileRequest) : Prop where
  read : parseConfirmedRequest (request.encode invokeId) = .ok [(invokeId, request.arguments)]
  lengths : request.encode invokeId =
    confirmedRequestPdu invokeId request.tag request.service request.fields

/-- The client reads what the server has written, and every length is that of what follows. -/
structure AnswerRoundTrips (invokeId : UInt32) (answer : FileAnswer) : Prop where
  matched : responseInvokeId (answer.encode invokeId) = .ok invokeId
  read : ∃ bufPos, lastResponseBufPos (answer.encode invokeId) = .ok bufPos ∧
    answer.ReadFrom (answer.encode invokeId) bufPos
  lengths : answer.encode invokeId =
    confirmedPdu 0xa1 invokeId (extendedField answer.service answer.fields)

theorem createNullResponseExtendedTag_eq (invokeId : UInt32) (tag : UInt8) :
    createNullResponseExtendedTag invokeId tag =
      confirmedPdu 0xa1 invokeId (extendedField tag []) := confirmedHeader_append rfl

theorem encodeEntries_room (continueAfter : Option (List UInt8)) (files : List DirectoryEntry) :
    tempStartPos + (encodeEntries (directoryListing continueAfter files).1).length < 65536 :=
  (length_addFileEntries files (by decide)).trans_lt (by decide)

/-- Every answer is a PDU with its fields. -/
theorem FileAnswer.encode_eq (invokeId : UInt32) (answer : FileAnswer) :
    answer.encode invokeId =
      confirmedPdu 0xa1 invokeId (extendedField answer.service answer.fields) := by
  cases answer with
  | opened frsmId fileSize gtString =>
    exact createFileOpenResponse_eq invokeId frsmId fileSize
      (gtString.length_lt.trans (by decide))
  | data fileChunk moreFollows =>
    exact encodeFileReadResponse_eq invokeId fileChunk.octets moreFollows
  | closed => exact createNullResponseExtendedTag_eq invokeId 0x4a
  | deleted => exact createNullResponseExtendedTag_eq invokeId 0x4c
  | directory continueAfter files =>
    exact encodeFileDirectoryResponse_eq invokeId _ _

theorem length_encodeFileReadResponse_lt (invokeId : UInt32) (fileChunk : FileChunk)
    (moreFollows : Bool) :
    (encodeFileReadResponse invokeId fileChunk.octets moreFollows).length < 65536 := by
  have hchunk := fileChunk.length_le
  have hmax : maxFileChunkSize.toNat = 15985 := rfl
  have hpdu := length_confirmedPdu_le 0xa1 invokeId
    (extendedField 0x49 (fileReadFields fileChunk.octets moreFollows))
  have hservice := length_extendedField 0x49 (fileReadFields fileChunk.octets moreFollows)
  have hlength := MmsServer.determineLengthSize_le
    (fileReadFields fileChunk.octets moreFollows).length
  have houter := MmsServer.determineLengthSize_le fileChunk.octets.length
  have hfields : (fileReadFields fileChunk.octets moreFollows).length ≤
      fileChunk.octets.length + 7 := by
    rw [length_fileReadFields, fileReadResponseSize]
    cases moreFollows
    all_goals
      simp
      omega
  rw [encodeFileReadResponse_eq]
  omega

theorem FileAnswer.length_encode_lt (invokeId : UInt32) (answer : FileAnswer) :
    (answer.encode invokeId).length < 65536 := by
  cases answer with
  | opened frsmId fileSize gtString =>
    exact length_createFileOpenResponse_lt invokeId frsmId fileSize
      (gtString.length_lt.trans (by decide))
  | data fileChunk moreFollows =>
    exact length_encodeFileReadResponse_lt invokeId fileChunk moreFollows
  | closed =>
    have hpdu := length_confirmedPdu_le 0xa1 invokeId (extendedField 0x4a [])
    rw [encode, createNullResponseExtendedTag_eq]
    exact hpdu.trans_lt (by decide)
  | deleted =>
    have hpdu := length_confirmedPdu_le 0xa1 invokeId (extendedField 0x4c [])
    rw [encode, createNullResponseExtendedTag_eq]
    exact hpdu.trans_lt (by decide)
  | directory continueAfter files =>
    exact (length_encodeFileDirectoryResponse_le invokeId _ _).trans_lt
      (encodeEntries_room continueAfter files)

theorem responseInvokeId_confirmedPdu {invokeId : UInt32} {service : List UInt8}
    (hsize : (confirmedPdu 0xa1 invokeId service).length < 65536) :
    responseInvokeId (confirmedPdu 0xa1 invokeId service) = .ok invokeId := by
  have h0 : Memory.Left (confirmedPdu 0xa1 invokeId service)
      (encodeTL 0xa1 (confirmedContent invokeId service).length ++
        confirmedContent invokeId service) 0 := .start _
  have h1 : Memory.Left (confirmedPdu 0xa1 invokeId service)
      (encodeTL 0x02 (encodeUInt32 invokeId).length ++ (encodeUInt32 invokeId ++ service)) _ :=
    h0.advance
  have hpdu : (confirmedContent invokeId service).length < 65536 :=
    h0.advance.length_le.trans_lt hsize
  have hinvoke : (encodeUInt32 invokeId).length < 65536 :=
    (uInt32determineEncodedSize_lt invokeId).trans (by decide)
  change (decodeLength _ 0 (0 + 1) _ >>= _) = _
  rw [decodeLength_encodeTL hpdu h0 h0.end_le, ok_bind]
  dsimp only
  rw [decodeLength_encodeTL hinvoke h1 h1.end_le, ok_bind]
  exact decodeUint32_encodeUInt32 h1.advance

/-- Where the fields of an answer are looked for, they are read. -/
theorem FileAnswer.readFrom_encode {invokeId : UInt32} {answer : FileAnswer} {bufPos : Int}
    (hpos : lastResponseBufPos (answer.encode invokeId) = .ok bufPos) :
    answer.ReadFrom (answer.encode invokeId) bufPos := by
  cases answer with
  | opened frsmId fileSize gtString =>
    intro state
    obtain ⟨bufPos', hpos', hread⟩ := parseFileOpenResponse_create invokeId frsmId fileSize
      gtString.zero_not_mem (gtString.length_lt.trans (by decide)) true state
    obtain rfl := Except.ok.inj (hpos'.symm.trans hpos)
    exact hread
  | data fileChunk moreFollows =>
    intro π handler state
    obtain ⟨bufPos', hpos', hread⟩ := parseFileReadResponse_encode handler invokeId
      (length_encodeFileReadResponse_lt invokeId fileChunk moreFollows) state
    obtain rfl := Except.ok.inj (hpos'.symm.trans hpos)
    exact hread
  | closed => trivial
  | deleted => trivial
  | directory continueAfter files =>
    intro π handler state
    obtain ⟨bufPos', hpos', hread⟩ := parseFileDirectoryResponse_encode handler invokeId
      (encodeEntries_room continueAfter files) state
    obtain rfl := Except.ok.inj (hpos'.symm.trans hpos)
    exact hread

theorem answer_roundTrips (invokeId : UInt32) (answer : FileAnswer) :
    AnswerRoundTrips invokeId answer := by
  have hlengths := answer.encode_eq invokeId
  have hsize := answer.length_encode_lt invokeId
  rw [hlengths] at hsize
  obtain ⟨bufPos, hpos, -⟩ := lastResponseBufPos_confirmedPdu hsize
  have hmatched := responseInvokeId_confirmedPdu hsize
  rw [← hlengths] at hpos hmatched
  exact ⟨hmatched, ⟨bufPos, hpos, answer.readFrom_encode hpos⟩, hlengths⟩

/-- A request round trips exactly when its fields take less than 128 octets. -/
theorem request_roundTrips_iff (invokeId : UInt32) (request : FileRequest) :
    RequestRoundTrips invokeId request ↔ request.fields.length < 128 := by
  rw [← request.encode_eq_iff invokeId]
  constructor
  · exact RequestRoundTrips.lengths
  · intro hlengths
    refine ⟨?_, hlengths⟩
    have hfields := (request.encode_eq_iff invokeId).mp hlengths
    rw [hlengths]
    refine parseConfirmedRequest_pdu invokeId request ?_
    have hpdu := length_confirmedPdu_le 0xa0 invokeId
      (request.tag :: tlv request.service request.fields)
    have htlv := length_tlv request.service request.fields
    have hle := MmsServer.determineLengthSize_le request.fields.length
    rw [List.length_cons, htlv, fileNameSeqSize] at hpdu
    exact hpdu.trans_lt (by omega)

/-- The room that a name of a directory request takes, if its length has one octet. -/
def nameRoom (fileName : Option FileName) : Nat :=
  fileName.elim 0 fun name => name.octets.length + 4

/-- The length of the service of the request, and all the others in it, have one octet. -/
def FileRequest.Short : FileRequest → Prop
  | .fileOpen fileName initialPosition =>
    fileName.octets.length + uInt32determineEncodedSize initialPosition ≤ 121
  | .fileRead _ => True
  | .fileClose _ => True
  | .fileDelete fileName => fileName.octets.length ≤ 125
  | .fileDirectory fileSpecification continueAfter =>
    nameRoom fileSpecification + nameRoom continueAfter ≤ 127

theorem fileNameSeqSize_of_lt {n : Nat} (h : n < 128) : fileNameSeqSize n = n + 2 := by
  rw [fileNameSeqSize, determineLengthSize_eq_one.mpr h]
  omega

theorem le_fileNameSeqSize (n : Nat) : n + 2 ≤ fileNameSeqSize n := by
  have hone := MmsServer.determineLengthSize_pos n
  rw [fileNameSeqSize]
  omega

/-- A name takes at least this room, and no more if that is not too much. -/
theorem length_nameFields_cases (tag : UInt8) (fileName : Option FileName) :
    nameRoom fileName ≤ (FileRequest.nameFields tag fileName).length ∧
      (nameRoom fileName < 128 →
        (FileRequest.nameFields tag fileName).length = nameRoom fileName) := by
  cases fileName with
  | none => exact ⟨le_rfl, fun _ => rfl⟩
  | some name =>
    have hlength := length_tlv tag (tlv 0x19 name.octets)
    have hinner := length_tlv 0x19 name.octets
    have hle := le_fileNameSeqSize name.octets.length
    have hle' := le_fileNameSeqSize (tlv 0x19 name.octets).length
    change name.octets.length + 4 ≤ (tlv tag (tlv 0x19 name.octets)).length ∧
      (name.octets.length + 4 < 128 →
        (tlv tag (tlv 0x19 name.octets)).length = name.octets.length + 4)
    refine ⟨by omega, fun hshort => ?_⟩
    have hname : fileNameSeqSize name.octets.length = name.octets.length + 2 :=
      fileNameSeqSize_of_lt (by omega)
    rw [hlength, hinner, hname, fileNameSeqSize_of_lt (by omega)]

theorem FileRequest.short_iff (request : FileRequest) :
    request.Short ↔ request.fields.length < 128 := by
  cases request with
  | fileOpen fileName initialPosition =>
    have hlength := length_fileOpen fileName initialPosition
    have hle := le_fileNameSeqSize fileName.octets.length
    have hone := MmsServer.determineLengthSize_pos (fileNameSeqSize fileName.octets.length)
    rw [Short, hlength]
    constructor
    · intro hshort
      rw [fileNameSeqSize_of_lt (by omega), determineLengthSize_eq_one.mpr (by omega)]
      omega
    · intro hshort
      omega
  | fileRead frsmId => exact iff_of_true trivial (uInt32determineEncodedSize_lt frsmId)
  | fileClose frsmId => exact iff_of_true trivial (uInt32determineEncodedSize_lt frsmId)
  | fileDelete fileName =>
    have hle := le_fileNameSeqSize fileName.octets.length
    rw [Short, fields, length_tlv]
    constructor
    · intro hshort
      rw [fileNameSeqSize_of_lt (by omega)]
      omega
    · intro hshort
      omega
  | fileDirectory fileSpecification continueAfter =>
    obtain ⟨hname, hsame⟩ := length_nameFields_cases 0xa0 fileSpecification
    obtain ⟨hafter, hsame'⟩ := length_nameFields_cases 0xa1 continueAfter
    rw [Short, fields, List.length_append]
    constructor
    · intro hshort
      have hone := hsame (by omega)
      have htwo := hsame' (by omega)
      omega
    · intro hshort
      omega

/-- The requests that are short are read as they were meant, and no others have the right lengths;
the answers all are read as they were meant. -/
theorem fileServices_roundTrip_iff (invokeId : UInt32) (request : FileRequest)
    (answer : FileAnswer) :
    (RequestRoundTrips invokeId request ↔ request.Short) ∧ AnswerRoundTrips invokeId answer := by
  refine ⟨?_, answer_roundTrips invokeId answer⟩
  rw [request_roundTrips_iff, request.short_iff]

/-- A name of 253 octets. -/
def longName : FileName where
  octets := List.replicate 253 97
  zero_not_mem := fun h => absurd (List.eq_of_mem_replicate h) (by decide)
  length_lt := by
    rw [List.length_replicate]
    decide

theorem length_longName : longName.octets.length = 253 := List.length_replicate

/-- The request to open a file with this name from its start on. -/
def longRequest : List UInt8 :=
  encodeTL 0xa0 267 ++ (encodeTL 0x02 (encodeUInt32 1).length ++ (encodeUInt32 1 ++
    ([0xbf] ++ (encodeTL 0x48 261 ++ (tlv 0xa0 (tlv 0x19 longName.octets) ++ [0x81, 1, 0])))))

theorem createFileOpenRequest_longName :
    createFileOpenRequest 1 longName.octets 0 = longRequest := by
  have hsize : fileNameSeqSize 253 = (tlv 0x19 longName.octets).length := by
    rw [length_tlv, length_longName]
  have hseq : fileNameSeqSize 253 = 256 := rfl
  rw [createFileOpenRequest, createConfirmedRequest, confirmedHeader, length_longName, hseq,
    longRequest, tlv, ← hsize, hseq]
  simp only [List.append_assoc]
  rfl

theorem length_longRequest : longRequest.length = 275 := by
  rw [longRequest]
  simp only [List.length_append, length_tlv, length_longName]
  rfl

/-- The length of the service ends before the length of the position. -/
theorem handleFileOpenRequest_longRequest (fuel : Nat) :
    handleFileOpenRequest (.ofList longRequest) (fuel + 2) 12 273 =
      .ok (.rejected .invalidPdu) := by
  have hl : Memory.Left longRequest longRequest 0 := .start _
  have hname : Memory.Left longRequest
      (tlv 0xa0 (tlv 0x19 longName.octets) ++ [0x81, 1, 0]) 12 :=
    hl.advance.advance.advance.advance.advance
  have hlength : ((tlv 0xa0 (tlv 0x19 longName.octets)).length : Int) = 260 := by
    rw [length_tlv, length_tlv, length_longName]
    rfl
  have hposition := hname.advance
  have hsize : longRequest.length < 65536 := by
    rw [length_longRequest]
    decide
  rw [handleFileOpenRequest, parseElements_nameField
    (fun filename => { HandlerState.init with filename := some filename }) hsize
    (fun _ _ => if_pos rfl) hname (by rw [hlength]; decide), hlength]
  rw [hlength] at hposition
  rw [parseElements, if_neg (by decide), parseElement, hposition.read, ok_bind, decodeLength,
    if_pos (by decide)]
  rfl

/-- A request to open a file with a long name is rejected. -/
theorem longName_rejected : ¬ RequestRoundTrips 1 (.fileOpen longName 0) ∧
    parseConfirmedRequest (createFileOpenRequest 1 longName.octets 0) =
      .ok [(1, .rejected .invalidPdu)] := by
  have hparse : parseConfirmedRequest (createFileOpenRequest 1 longName.octets 0) =
      .ok [(1, .rejected .invalidPdu)] := by
    have h0 : Memory.Left longRequest longRequest 0 := .start _
    have h1 : Memory.Left longRequest (encodeTL 0x02 (encodeUInt32 1).length ++
      (encodeUInt32 1 ++ ([0xbf] ++ (encodeTL 0x48 261 ++
        (tlv 0xa0 (tlv 0x19 longName.octets) ++ [0x81, 1, 0]))))) 4 := h0.advance
    have htag : Memory.Left longRequest ([0xbf] ++ (encodeTL 0x48 261 ++
        (tlv 0xa0 (tlv 0x19 longName.octets) ++ [0x81, 1, 0]))) 7 := h1.advance.advance
    have hservice : Memory.Left longRequest (encodeTL 0x48 261 ++
        (tlv 0xa0 (tlv 0x19 longName.octets) ++ [0x81, 1, 0])) 8 := htag.advance
    have hsize : longRequest.length < 65536 := by
      rw [length_longRequest]
      decide
    rw [createFileOpenRequest_longName, parseConfirmedRequest,
      if_neg (by rw [length_longRequest]; decide), read_encodeTL h0, ok_bind,
      if_neg (not_not_intro rfl)]
    change (decodeLength _ 0 (0 + 1) _ >>= _) = _
    rw [decodeLength_encodeTL (by decide) h0 h0.end_le, ok_bind]
    have hpos : (0 : Int) + (encodeTL 0xa0 267).length = 4 := rfl
    dsimp only
    rw [hpos, if_neg (by decide), i32_of_range (by decide) (by decide), length_longRequest,
      handleConfirmedRequestPdu_invokeId hsize h1 (by decide)]
    change handleConfirmedRequestPdu _ 271 (274 + 1) 7 1 = _
    rw [handleConfirmedRequestPdu, if_neg (by decide), htag.read, ok_bind, if_pos (by decide)]
    change ((Memory.ofList longRequest).read 8 >>= _) = _
    rw [read_encodeTL hservice, ok_bind]
    change (decodeLength _ 0 (8 + 1) 271 >>= _) = _
    rw [decodeLength_encodeTL (by decide) hservice (by decide), ok_bind]
    have hpos' : (8 : Int) + (encodeTL 0x48 261).length = 12 := rfl
    dsimp only
    rw [hpos', if_neg (by decide), i32_of_range (by decide) (by decide)]
    change (handleFileOpenRequest _ (272 + 2) 12 273 >>= _) = _
    rw [handleFileOpenRequest_longRequest, ok_bind, if_neg (by decide)]
    change (handleConfirmedRequestPdu _ 271 (273 + 1) 273 1 >>= _) = _
    rw [handleConfirmedRequestPdu, if_pos (by decide)]
    rfl
  refine ⟨fun h => ?_, hparse⟩
  have hread := h.read
  change parseConfirmedRequest (createFileOpenRequest 1 longName.octets 0) = _ at hread
  rw [hparse] at hread
  cases hread

end Iec61850.FileService
