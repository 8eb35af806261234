import Iec61850.File.FileResponses

/-! The requests of the file services: what the client encodes (`mms_client_files.c`) and what the
server reads from it (`mms_server_connection.c`, `mms_file_service.c`). -/

namespace Iec61850.FileService

open Machine BerEncoder BerDecoder

/-- A string in an array of `capacity` octets, which has room for its zero. -/
structure CharArray (capacity : Nat) where
  octets : List UInt8
  zero_not_mem : 0 ∉ octets
  length_lt : octets.length < capacity

abbrev FileName := CharArray 256

/-- A request of a file service. No name of a directory is the same as an empty one. -/
inductive FileRequest
  | fileOpen (fileName : FileName) (initialPosition : UInt32)
  | fileRead (frsmId : UInt32)
  | fileClose (frsmId : UInt32)
  | fileDelete (fileName : FileName)
  | fileDirectory (fileSpecification continueAfter : Option FileName)

/-! ## Encoders -/

/-- What the encoders of requests have in common: the size of the PDU counts one octet for the
length of the service, whatever `size` is. -/
def createConfirmedRequest (invokeId : UInt32) (tag service : UInt8) (size : Nat)
    (fields : List UInt8) : List UInt8 :=
  confirmedHeader 0xa0 (1 + 2 + 2 + uInt32determineEncodedSize invokeId + size) invokeId ++
    tag :: (encodeTL service size ++ fields)

def fileNameSeqSize (fileNameStringSize : Nat) : Nat :=
  1 + determineLengthSize fileNameStringSize + fileNameStringSize

def createFileOpenRequest (invokeId : UInt32) (fileName : List UInt8) (initialPosition : UInt32) :
    List UInt8 :=
  createConfirmedRequest invokeId 0xbf 0x48
    (fileNameSeqSize fileName.length + 2 + uInt32determineEncodedSize initialPosition + 2)
    (encodeTL 0xa0 (fileNameSeqSize fileName.length) ++ encodeOctetString 0x19 fileName ++
      (encodeTL 0x81 (uInt32determineEncodedSize initialPosition) ++ encodeUInt32 initialPosition))

def createFileDeleteRequest (invokeId : UInt32) (fileName : List UInt8) : List UInt8 :=
  createConfirmedRequest invokeId 0xbf 0x4c (fileNameSeqSize fileName.length)
    (encodeOctetString 0x19 fileName)

def createFileReadRequest (invokeId frsmId : UInt32) : List UInt8 :=
  createConfirmedRequest invokeId 0x9f 0x49 (uInt32determineEncodedSize frsmId)
    (encodeUInt32 frsmId)

def createFileCloseRequest (invokeId frsmId : UInt32) : List UInt8 :=
  createConfirmedRequest invokeId 0x9f 0x4a (uInt32determineEncodedSize frsmId)
    (encodeUInt32 frsmId)

def encodeFileSpecification (tag : UInt8) (fileSpecification : List UInt8) : List UInt8 :=
  encodeTL tag (fileNameSeqSize fileSpecification.length) ++
    encodeOctetString 0x19 fileSpecification

/-- `encodeFileSpecification` without a buffer. -/
def fileSpecificationSize (fileNameStringSize : Nat) : Nat :=
  fileNameSeqSize fileNameStringSize + 1 + determineLengthSize (fileNameSeqSize fileNameStringSize)

def parameterSize (fileSpecification : Option (List UInt8)) : Nat :=
  fileSpecification.elim 0 fun name => fileSpecificationSize name.length

def createFileDirectoryRequest (invokeId : UInt32)
    (fileSpecification continueAfter : Option (List UInt8)) : List UInt8 :=
  createConfirmedRequest invokeId 0xbf 0x4d
    (parameterSize fileSpecification + parameterSize continueAfter)
    (fileSpecification.elim [] (encodeFileSpecification 0xa0) ++
      continueAfter.elim [] (encodeFileSpecification 0xa1))

def FileRequest.encode (invokeId : UInt32) : FileRequest → List UInt8
  | .fileOpen fileName initialPosition =>
    createFileOpenRequest invokeId fileName.octets initialPosition
  | .fileRead frsmId => createFileReadRequest invokeId frsmId
  | .fileClose frsmId => createFileCloseRequest invokeId frsmId
  | .fileDelete fileName => createFileDeleteRequest invokeId fileName.octets
  | .fileDirectory fileSpecification continueAfter =>
    createFileDirectoryRequest invokeId (fileSpecification.map CharArray.octets)
      (continueAfter.map CharArray.octets)

/-! ## Parsers -/

inductive RejectReason
  | invalidPdu | invalidArgument | unrecognizedService
  deriving DecidableEq

/-- What a handler has read of a request when it goes to the file system. -/
inductive Handled
  | fileOpen (filename : List UInt8) (filePosition : UInt32)
  | fileRead (frsmId : UInt32)
  | fileClose (frsmId : UInt32)
  | fileDelete (filename : List UInt8)
  | fileDirectory (filename : List UInt8) (continueAfter : Option (List UInt8))
  | rejected (reason : RejectReason)
  | otherService (tag : UInt8)
  deriving DecidableEq

/-- What a loop over fields has found, and why it has stopped if there is another reason than
that the PDU is invalid. -/
structure HandlerState where
  filename : Option (List UInt8)
  continueAfter : Option (List UInt8)
  filePosition : UInt32
  reason : RejectReason

def HandlerState.init : HandlerState := ⟨none, none, 0, .invalidPdu⟩

/-- The name and the position behind it, or the reason to reject the request. -/
def parseFileName (buffer : Memory) (bufPos maxBufPos : Int) :
    Exec (Except RejectReason (List UInt8 × Int)) := do
  if (← buffer.read bufPos) ≠ 0x19 then return .error .invalidPdu
  let (bufPos, length) ← decodeLength buffer 0 (bufPos + 1) maxBufPos
  if bufPos < 0 then return .error .invalidPdu
  if 255 < length then return .error .invalidArgument
  let filename ← copyString buffer 256 length bufPos
  return .ok (filename, i32 (bufPos + length))

/-- A field that is a name. -/
def nameField (buffer : Memory) (len bufPos : Int) (state : HandlerState)
    (put : List UInt8 → HandlerState) : Exec (Option Int × HandlerState) := do
  match ← parseFileName buffer bufPos (i32 (bufPos + len)) with
  | .ok (filename, bufPos) => return (some bufPos, put filename)
  | .error reason => return (none, { state with reason := reason })

def fileOpenRequestField (buffer : Memory) : ElementParser HandlerState :=
  fun tag len bufPos state =>
    if tag = 0xa0 then
      nameField buffer len bufPos state fun filename => { state with filename := some filename }
    else if tag = 0x81 then do
      let filePosition ← decodeUint32 buffer len bufPos
      skip len bufPos { state with filePosition := filePosition }
    else return (none, state)

def handleFileOpenRequest (buffer : Memory) (fuel : Nat) (bufPos maxBufPos : Int) :
    Exec Handled := do
  let (next, state) ← parseElements buffer 0 maxBufPos true (fileOpenRequestField buffer) fuel
    bufPos .init
  match next, state.filename with
  | none, _ => return .rejected state.reason
  | some _, some filename => return .fileOpen filename state.filePosition
  | some _, none => return .rejected .invalidArgument

def handleFileReadRequest (buffer : Memory) (bufPos maxBufPos : Int) : Exec Handled := do
  return .fileRead (← decodeUint32 buffer (maxBufPos - bufPos) bufPos)

def handleFileCloseRequest (buffer : Memory) (bufPos maxBufPos : Int) : Exec Handled := do
  return .fileClose (← decodeUint32 buffer (maxBufPos - bufPos) bufPos)

/-- Nobody looks at the length. -/
def handleFileDeleteRequest (buffer : Memory) (bufPos maxBufPos : Int) : Exec Handled := do
  if (← buffer.read bufPos) ≠ 0x19 then return .rejected .invalidPdu
  let (bufPos, length) ← decodeLength buffer 0 (bufPos + 1) maxBufPos
  return .fileDelete (← copyString buffer 256 length bufPos)

def fileDirectoryRequestField (buffer : Memory) : ElementParser HandlerState :=
  fun tag len bufPos state =>
    if tag = 0xa0 then
      nameField buffer len bufPos state fun filename => { state with filename := some filename }
    else if tag = 0xa1 then
      nameField buffer len bufPos state fun filename =>
        { state with continueAfter := some filename }
    else return (none, state)

def handleFileDirectoryRequest (buffer : Memory) (fuel : Nat) (bufPos maxBufPos : Int) :
    Exec Handled := do
  let (next, state) ← parseElements buffer 0 maxBufPos true (fileDirectoryRequestField buffer)
    fuel bufPos .init
  match next with
  | none => return .rejected state.reason
  | some _ => return .fileDirectory (state.filename.getD []) state.continueAfter

/-- The services with a tag of one octet. -/
def otherServices : List UInt8 := [0x80, 0xa1, 0x82, 0xa4, 0xa5, 0xa6, 0xab, 0xac, 0xad]

/-- The services with a tag of two octets. `fileRename` is like the directory service, and its
handler is not looked at here. -/
def handleExtendedService (buffer : Memory) (fuel : Nat) (tag : UInt8) (bufPos maxBufPos : Int) :
    Exec Handled :=
  if tag = 0x48 then handleFileOpenRequest buffer fuel bufPos maxBufPos
  else if tag = 0x49 then handleFileReadRequest buffer bufPos maxBufPos
  else if tag = 0x4a then handleFileCloseRequest buffer bufPos maxBufPos
  else if tag = 0x4b then return .otherService tag
  else if tag = 0x4c then handleFileDeleteRequest buffer bufPos maxBufPos
  else if tag = 0x4d then handleFileDirectoryRequest buffer fuel bufPos maxBufPos
  else return .rejected .unrecognizedService

/-- `handleConfirmedRequestPdu`: what is handled, each with the invoke id that has been read. -/
def handleConfirmedRequestPdu (buffer : Memory) (maxBufPos : Int) :
    Nat → Int → UInt32 → Exec (List (UInt32 × Handled))
  | 0, _, _ => .error .outOfFuel
  | fuel + 1, bufPos, invokeId =>
    if maxBufPos ≤ bufPos then return []
    else do
      let tag ← buffer.read bufPos
      if tag &&& 0x1f = 0x1f then
        let service ← buffer.read (bufPos + 1)
        let (bufPos, length) ← decodeLength buffer 0 (bufPos + 2) maxBufPos
        if bufPos < 0 then return [(invokeId, .rejected .unrecognizedService)]
        let handled ← handleExtendedService buffer fuel service bufPos (i32 (bufPos + length))
        if handled = .rejected .unrecognizedService then return [(invokeId, handled)]
        return (invokeId, handled) ::
          (← handleConfirmedRequestPdu buffer maxBufPos fuel (i32 (bufPos + length)) invokeId)
      else
        let (bufPos, length) ← decodeLength buffer 0 (bufPos + 1) maxBufPos
        if bufPos < 0 then return [(invokeId, .rejected .unrecognizedService)]
        if tag = 0x02 then
          let invokeId ← decodeUint32 buffer length bufPos
          handleConfirmedRequestPdu buffer maxBufPos fuel (i32 (bufPos + length)) invokeId
        else if tag ∈ otherServices then
          return (invokeId, .otherService tag) ::
            (← handleConfirmedRequestPdu buffer maxBufPos fuel (i32 (bufPos + length)) invokeId)
        else return [(invokeId, .rejected .unrecognizedService)]

/-- `MmsServerConnection_parseMessage`, for confirmed requests. -/
def parseConfirmedRequest (message : List UInt8) : Exec (List (UInt32 × Handled)) := do
  let buffer := Memory.ofList message
  if message.length < 2 then return []
  if (← buffer.read 0) ≠ 0xa0 then return []
  let (bufPos, pduLength) ← decodeLength buffer 0 1 message.length
  if bufPos < 0 then return []
  handleConfirmedRequestPdu buffer (i32 (bufPos + pduLength)) (message.length + 1) bufPos 0

/-- What the server has to read of a request. -/
def FileRequest.arguments : FileRequest → Handled
  | .fileOpen fileName initialPosition => .fileOpen fileName.octets initialPosition
  | .fileRead frsmId => .fileRead frsmId
  | .fileClose frsmId => .fileClose frsmId
  | .fileDelete fileName => .fileDelete fileName.octets
  | .fileDirectory fileSpecification continueAfter =>
    .fileDirectory ((fileSpecification.map CharArray.octets).getD [])
      (continueAfter.map CharArray.octets)

/-! ## Sizes -/

/-- A field whose length is that of what follows. -/
def tlv (tag : UInt8) (content : List UInt8) : List UInt8 :=
  encodeTL tag content.length ++ content

/-- A confirmed request all of whose lengths are those of what follows, if those of the fields
are. -/
def confirmedRequestPdu (invokeId : UInt32) (tag service : UInt8) (fields : List UInt8) :
    List UInt8 :=
  confirmedPdu 0xa0 invokeId (tag :: tlv service fields)

namespace FileRequest

def tag : FileRequest → UInt8
  | .fileRead _ => 0x9f
  | .fileClose _ => 0x9f
  | _ => 0xbf

def service : FileRequest → UInt8
  | .fileOpen _ _ => 0x48
  | .fileRead _ => 0x49
  | .fileClose _ => 0x4a
  | .fileDelete _ => 0x4c
  | .fileDirectory _ _ => 0x4d

/-- A name in a field of its own. -/
def nameFields (tag : UInt8) (fileName : Option FileName) : List UInt8 :=
  fileName.elim [] fun name => tlv tag (tlv 0x19 name.octets)

/-- The fields of a request, each with the length of what follows. -/
def fields : FileRequest → List UInt8
  | .fileOpen fileName initialPosition =>
    tlv 0xa0 (tlv 0x19 fileName.octets) ++ tlv 0x81 (encodeUInt32 initialPosition)
  | .fileRead frsmId => encodeUInt32 frsmId
  | .fileClose frsmId => encodeUInt32 frsmId
  | .fileDelete fileName => tlv 0x19 fileName.octets
  | .fileDirectory fileSpecification continueAfter =>
    nameFields 0xa0 fileSpecification ++ nameFields 0xa1 continueAfter

end FileRequest

theorem length_tlv (tag : UInt8) (content : List UInt8) :
    (tlv tag content).length = fileNameSeqSize content.length := by
  simp [tlv, encodeTL, fileNameSeqSize]
  omega

theorem tlv_octetString (tag : UInt8) (content : List UInt8) :
    encodeOctetString tag content = tlv tag content := rfl

theorem determineLengthSize_eq_one {n : Nat} : determineLengthSize n = 1 ↔ n < 128 := by
  unfold determineLengthSize
  split_ifs with h1 h2
  · simp [h1]
  · simp [h1]
  · simp [h1]

theorem encodeFileSpecification_eq (tag : UInt8) (name : List UInt8) :
    encodeFileSpecification tag name = tlv tag (tlv 0x19 name) := by
  rw [encodeFileSpecification, tlv_octetString, ← length_tlv 0x19 name]
  rfl

theorem length_fileSpecification (tag : UInt8) (name : List UInt8) :
    (tlv tag (tlv 0x19 name)).length = fileSpecificationSize name.length := by
  rw [length_tlv, length_tlv, fileNameSeqSize, fileSpecificationSize]
  omega

/-- A length that is read in front of the same octets is the same. -/
theorem eq_of_encodeTL_append {tag : UInt8} {m n : Nat} {bs cs : List UInt8} (hm : m < 65536)
    (hn : n < 65536) (h : encodeTL tag m ++ bs = encodeTL tag n ++ cs) : m = n := by
  have hleft : Memory.Left (encodeTL tag m ++ bs) (encodeTL tag m ++ bs) 0 := .start _
  have hright : Memory.Left (encodeTL tag m ++ bs) (encodeTL tag n ++ cs) 0 := by
    rw [← h]
    exact .start _
  have hone : decodeLength (.ofList (encodeTL tag m ++ bs)) 0 (0 + 1)
      (encodeTL tag m ++ bs).length = _ := decodeLength_encodeTL hm hleft hleft.end_le
  have htwo : decodeLength (.ofList (encodeTL tag m ++ bs)) 0 (0 + 1)
      (encodeTL tag m ++ bs).length = _ := decodeLength_encodeTL hn hright hright.end_le
  have hsame := Except.ok.inj (hone.symm.trans htwo)
  exact Int.ofNat_inj.mp (congrArg Prod.snd hsame)

/-- The lengths are right exactly when that of the service is, and has one octet. -/
theorem createConfirmedRequest_eq_iff {invokeId : UInt32} {tag service : UInt8} {size : Nat}
    {fields : List UInt8} (hsize : size ≤ fields.length) (hfields : fields.length < 65000) :
    createConfirmedRequest invokeId tag service size fields =
        confirmedRequestPdu invokeId tag service fields ↔
      size = fields.length ∧ fields.length < 128 := by
  have hid := MmsServer.uInt32determineEncodedSize_le invokeId
  have hservice : (tag :: tlv service fields).length =
      2 + determineLengthSize fields.length + fields.length := by
    rw [List.length_cons, length_tlv, fileNameSeqSize]
    omega
  constructor
  · intro h
    have htl := MmsServer.length_encodeTL_short 0x02 (uInt32determineEncodedSize_lt invokeId)
    have hcontent : (confirmedContent invokeId (tag :: tlv service fields)).length =
        2 + uInt32determineEncodedSize invokeId + (tag :: tlv service fields).length := by
      simp only [confirmedContent, List.length_append, MmsServer.length_encodeUInt32, htl]
      omega
    have hone := MmsServer.determineLengthSize_pos fields.length
    have hle := MmsServer.determineLengthSize_le fields.length
    rw [createConfirmedRequest, confirmedHeader, confirmedRequestPdu, confirmedPdu,
      List.append_assoc] at h
    have hsame := eq_of_encodeTL_append (by omega) (by omega) h
    rw [hcontent, hservice] at hsame
    exact ⟨by omega, determineLengthSize_eq_one.mp (by omega)⟩
  · rintro ⟨rfl, hshort⟩
    have hone := determineLengthSize_eq_one.mpr hshort
    rw [createConfirmedRequest, confirmedRequestPdu]
    refine confirmedHeader_append ?_
    change _ = _ + 2 + (tag :: tlv service fields).length
    rw [hservice]
    omega

namespace FileRequest

theorem length_nameFields (tag : UInt8) (fileName : Option FileName) :
    (nameFields tag fileName).length = parameterSize (fileName.map CharArray.octets) := by
  cases fileName with
  | none => rfl
  | some name => exact length_fileSpecification tag name.octets

theorem encode_nameFields (tag : UInt8) (fileName : Option FileName) :
    (fileName.map CharArray.octets).elim [] (encodeFileSpecification tag) =
      nameFields tag fileName := by
  cases fileName with
  | none => rfl
  | some name => exact encodeFileSpecification_eq tag name.octets

theorem fileNameSeqSize_lt {n : Nat} (h : n < 256) : fileNameSeqSize n < 260 := by
  rw [fileNameSeqSize]
  have hle := MmsServer.determineLengthSize_le n
  omega

theorem length_nameFields_lt (tag : UInt8) (fileName : Option FileName) :
    (nameFields tag fileName).length < 264 := by
  cases fileName with
  | none => exact Nat.zero_lt_succ _
  | some name =>
    have hsize := length_fileSpecification tag name.octets
    have hlt := fileNameSeqSize_lt name.length_lt
    have hle := MmsServer.determineLengthSize_le (fileNameSeqSize name.octets.length)
    rw [fileSpecificationSize] at hsize
    exact lt_of_eq_of_lt hsize (by omega)

theorem length_fileOpen (fileName : FileName) (initialPosition : UInt32) :
    (fields (.fileOpen fileName initialPosition)).length =
      fileNameSeqSize fileName.octets.length + uInt32determineEncodedSize initialPosition + 3 +
        determineLengthSize (fileNameSeqSize fileName.octets.length) := by
  have hone := determineLengthSize_eq_one.mpr (uInt32determineEncodedSize_lt initialPosition)
  rw [fields, List.length_append, length_fileSpecification, length_tlv,
    MmsServer.length_encodeUInt32, fileNameSeqSize, hone, fileSpecificationSize]
  omega

/-- Every request is a PDU with its fields, and a size that is right as long as it is short. -/
theorem encode_eq (invokeId : UInt32) (request : FileRequest) :
    ∃ size, request.encode invokeId =
        createConfirmedRequest invokeId request.tag request.service size request.fields ∧
      size ≤ request.fields.length ∧
      (request.fields.length < 128 → size = request.fields.length) := by
  cases request with
  | fileOpen fileName initialPosition =>
    have hlength := length_fileOpen fileName initialPosition
    have hone := MmsServer.determineLengthSize_pos (fileNameSeqSize fileName.octets.length)
    refine ⟨fileNameSeqSize fileName.octets.length + 2 +
      uInt32determineEncodedSize initialPosition + 2, ?_, by omega, ?_⟩
    · change createFileOpenRequest _ _ _ = _
      rw [createFileOpenRequest, ← length_tlv 0x19 fileName.octets]
      rfl
    · intro hshort
      have hname : fileNameSeqSize fileName.octets.length < 128 := by omega
      rw [determineLengthSize_eq_one.mpr hname] at hlength
      omega
  | fileRead frsmId => exact ⟨_, rfl, le_rfl, fun _ => rfl⟩
  | fileClose frsmId => exact ⟨_, rfl, le_rfl, fun _ => rfl⟩
  | fileDelete fileName =>
    have hsize := length_tlv 0x19 fileName.octets
    exact ⟨_, rfl, hsize.ge, fun _ => hsize.symm⟩
  | fileDirectory fileSpecification continueAfter =>
    have hsize : (fields (.fileDirectory fileSpecification continueAfter)).length =
        parameterSize (fileSpecification.map CharArray.octets) +
          parameterSize (continueAfter.map CharArray.octets) := by
      rw [fields, List.length_append, length_nameFields, length_nameFields]
    refine ⟨_, ?_, hsize.ge, fun _ => hsize.symm⟩
    rw [encode, createFileDirectoryRequest, encode_nameFields, encode_nameFields]
    rfl

theorem length_fields_lt (request : FileRequest) : request.fields.length < 65000 := by
  cases request with
  | fileOpen fileName initialPosition =>
    have hlt := fileNameSeqSize_lt fileName.length_lt
    have hle := MmsServer.determineLengthSize_le (fileNameSeqSize fileName.octets.length)
    have hposition := MmsServer.uInt32determineEncodedSize_le initialPosition
    rw [length_fileOpen]
    omega
  | fileRead frsmId => exact (uInt32determineEncodedSize_lt frsmId).trans (by decide)
  | fileClose frsmId => exact (uInt32determineEncodedSize_lt frsmId).trans (by decide)
  | fileDelete fileName =>
    rw [fields, length_tlv]
    exact (fileNameSeqSize_lt fileName.length_lt).trans (by decide)
  | fileDirectory fileSpecification continueAfter =>
    have hone := length_nameFields_lt 0xa0 fileSpecification
    have htwo := length_nameFields_lt 0xa1 continueAfter
    rw [fields, List.length_append]
    omega

/-- The lengths of a request are right exactly when its fields take less than 128 octets. -/
theorem encode_eq_iff (invokeId : UInt32) (request : FileRequest) :
    request.encode invokeId =
        confirmedRequestPdu invokeId request.tag request.service request.fields ↔
      request.fields.length < 128 := by
  obtain ⟨size, hencode, hle, hsame⟩ := encode_eq invokeId request
  rw [hencode, createConfirmedRequest_eq_iff hle request.length_fields_lt]
  constructor
  · exact And.right
  · exact fun h => ⟨hsame h, h⟩

end FileRequest

/-! ## What is read back -/

section ReadBack

variable {message rest : List UInt8} {pos : Int}

theorem length_tlv_append (tag : UInt8) (content : List UInt8) :
    ((tlv tag content).length : Int) =
      (encodeTL tag content.length).length + content.length := by
  rw [tlv, List.length_append, Nat.cast_add]

/-- A field that is a name is read to its end. -/
theorem nameField_left {name : FileName} (hsize : message.length < 65536)
    (hl : Memory.Left message (tlv 0x19 name.octets ++ rest) pos) (state : HandlerState)
    (put : List UInt8 → HandlerState) :
    nameField (.ofList message) (tlv 0x19 name.octets).length pos state put =
      .ok (some (pos + (tlv 0x19 name.octets).length), put name.octets) := by
  have hpos := hl.pos_nonneg
  have hend := hl.end_le
  have hlt := name.length_lt
  have hone : Memory.Left message
      (encodeTL 0x19 name.octets.length ++ (name.octets ++ rest)) pos := by
    rw [tlv, List.append_assoc] at hl
    exact hl
  have hcontent := hone.advance
  have hlength := length_tlv_append 0x19 name.octets
  have htl : 0 ≤ ((encodeTL 0x19 name.octets.length).length : Int) := Int.natCast_nonneg _
  rw [nameField, parseFileName, read_encodeTL hone, ok_bind, if_neg (not_not_intro rfl),
    i32_of_range (by omega) (by omega), decodeLength_encodeTL (by omega) hone (by omega), ok_bind]
  dsimp only
  rw [if_neg (by omega), if_neg (by omega),
    copyString_left name.zero_not_mem (by omega) hcontent, ok_bind,
    i32_of_range (by omega) (by omega), hlength, add_assoc]
  rfl

/-- One turn of a loop whose field is a name. -/
theorem parseElements_nameField {tag : UInt8} {name : FileName} {fuel : Nat} {maxBufPos : Int}
    {element : ElementParser HandlerState} {state : HandlerState}
    (put : List UInt8 → HandlerState) (hsize : message.length < 65536)
    (helement : ∀ len bufPos, element tag len bufPos state =
      nameField (.ofList message) len bufPos state put)
    (hl : Memory.Left message (tlv tag (tlv 0x19 name.octets) ++ rest) pos)
    (hmax : pos + (tlv tag (tlv 0x19 name.octets)).length ≤ maxBufPos) :
    parseElements (.ofList message) 0 maxBufPos true element (fuel + 1) pos state =
      parseElements (.ofList message) 0 maxBufPos true element fuel
        (pos + (tlv tag (tlv 0x19 name.octets)).length) (put name.octets) := by
  have hone : Memory.Left message (encodeTL tag (tlv 0x19 name.octets).length ++
      (tlv 0x19 name.octets ++ rest)) pos := by
    rw [tlv, List.append_assoc] at hl
    exact hl
  have hcontent := hone.advance
  have hlength := length_tlv_append tag (tlv 0x19 name.octets)
  have hlt : (tlv 0x19 name.octets).length < 65536 := by
    have hend := hcontent.end_le
    have hpos := hcontent.pos_nonneg
    omega
  rw [parseElements_encodeTL hlt hone (by omega), helement, nameField_left hsize hcontent,
    ok_bind, hlength, add_assoc]

theorem handleFileOpenRequest_left {fileName : FileName} {initialPosition : UInt32}
    (hsize : message.length < 65536)
    (hl : Memory.Left message (FileRequest.fields (.fileOpen fileName initialPosition)) pos)
    {fuel : Nat} (hfuel : 3 ≤ fuel) :
    handleFileOpenRequest (.ofList message) fuel pos message.length =
      .ok (.fileOpen fileName.octets initialPosition) := by
  obtain ⟨fuel, rfl⟩ := Nat.exists_eq_add_of_le' hfuel
  have hbig : message.length < 2147483648 := hsize.trans (by decide)
  have hname : Memory.Left message (tlv 0xa0 (tlv 0x19 fileName.octets) ++
      (encodeTL 0x81 (encodeUInt32 initialPosition).length ++
        (encodeUInt32 initialPosition ++ []))) pos := by
    rw [List.append_nil]
    exact hl
  have hposition := hname.advance
  have hcontent := hposition.advance
  have hsmall : (encodeUInt32 initialPosition).length < 65536 :=
    (uInt32determineEncodedSize_lt initialPosition).trans (by decide)
  have hlast := hcontent.advance.length
  rw [List.length_nil, Nat.cast_zero, add_zero] at hlast
  rw [handleFileOpenRequest, parseElements_nameField
    (fun filename => { HandlerState.init with filename := some filename }) hsize
    (fun _ _ => if_pos rfl) hname hname.end_le,
    parseElements_encodeTL hsmall hposition hposition.end_le, fileOpenRequestField,
    if_neg (by decide), if_pos rfl, decodeUint32_encodeUInt32 hcontent, ok_bind,
    skip_left hbig hcontent, ok_bind]
  dsimp only
  rw [hlast, parseElements_end le_rfl]
  rfl

/-- The last field of a directory request, if it is there. -/
theorem parseElements_continueAfter {continueAfter : Option FileName} {fuel : Nat}
    (state : HandlerState) (hnone : state.continueAfter = none) (hsize : message.length < 65536)
    (hl : Memory.Left message (FileRequest.nameFields 0xa1 continueAfter) pos) :
    parseElements (.ofList message) 0 message.length true
        (fileDirectoryRequestField (.ofList message)) (fuel + 2) pos state =
      .ok (some (message.length : Int),
        { state with continueAfter := continueAfter.map CharArray.octets }) := by
  have hend := hl.length
  cases continueAfter with
  | none =>
    have hlast : pos = message.length := by
      rwa [FileRequest.nameFields, Option.elim_none, List.length_nil, Nat.cast_zero,
        add_zero] at hend
    rw [hlast, parseElements_end le_rfl, Option.map_none, ← hnone]
  | some name =>
    have hname : Memory.Left message (tlv 0xa1 (tlv 0x19 name.octets) ++ []) pos := by
      rw [List.append_nil]
      exact hl
    rw [parseElements_nameField (fun filename => { state with continueAfter := some filename })
      hsize (fun _ _ => (if_neg (by decide)).trans (if_pos rfl)) hname hname.end_le]
    change pos + ((tlv 0xa1 (tlv 0x19 name.octets)).length : Int) = message.length at hend
    rw [hend, parseElements_end le_rfl]
    rfl

theorem handleFileDirectoryRequest_left {fileSpecification continueAfter : Option FileName}
    (hsize : message.length < 65536)
    (hl : Memory.Left message
      (FileRequest.fields (.fileDirectory fileSpecification continueAfter)) pos)
    {fuel : Nat} (hfuel : 3 ≤ fuel) :
    handleFileDirectoryRequest (.ofList message) fuel pos message.length =
      .ok (FileRequest.arguments (.fileDirectory fileSpecification continueAfter)) := by
  obtain ⟨fuel, rfl⟩ := Nat.exists_eq_add_of_le' hfuel
  rw [handleFileDirectoryRequest]
  cases fileSpecification with
  | none =>
    rw [parseElements_continueAfter .init rfl hsize hl]
    rfl
  | some name =>
    have hname : Memory.Left message (tlv 0xa0 (tlv 0x19 name.octets) ++
        FileRequest.nameFields 0xa1 continueAfter) pos := hl
    rw [parseElements_nameField
      (fun filename => { HandlerState.init with filename := some filename }) hsize
      (fun _ _ => if_pos rfl) hname hname.end_le,
      parseElements_continueAfter _ rfl hsize hname.advance]
    rfl

theorem handleFileDeleteRequest_left {fileName : FileName}
    (hl : Memory.Left message (FileRequest.fields (.fileDelete fileName)) pos) :
    handleFileDeleteRequest (.ofList message) pos message.length =
      .ok (.fileDelete fileName.octets) := by
  have hlt := fileName.length_lt
  have hcontent : Memory.Left message (fileName.octets ++ [])
      (pos + (encodeTL 0x19 fileName.octets.length).length) := by
    rw [List.append_nil]
    exact hl.advance
  rw [handleFileDeleteRequest, read_encodeTL hl, ok_bind, if_neg (not_not_intro rfl),
    decodeLength_encodeTL (by omega) hl hl.end_le, ok_bind]
  dsimp only
  rw [copyString_left fileName.zero_not_mem (by omega) hcontent, ok_bind]
  rfl

/-- What is left of a message is an unsigned integer. -/
theorem decodeUint32_rest {n : UInt32} (hl : Memory.Left message (encodeUInt32 n) pos) :
    decodeUint32 (.ofList message) (message.length - pos) pos = .ok n := by
  have hlength : (message.length : Int) - pos = (encodeUInt32 n).length := by
    rw [← hl.length]
    omega
  have hend : Memory.Left message (encodeUInt32 n ++ []) pos := by
    rw [List.append_nil]
    exact hl
  rw [hlength, decodeUint32_encodeUInt32 hend]

/-- The handler of a request that stands at the end of a message reads its arguments. -/
theorem handleExtendedService_left {request : FileRequest} (hsize : message.length < 65536)
    (hl : Memory.Left message request.fields pos) {fuel : Nat} (hfuel : 3 ≤ fuel) :
    handleExtendedService (.ofList message) fuel request.service pos message.length =
      .ok request.arguments := by
  cases request with
  | fileOpen fileName initialPosition => exact handleFileOpenRequest_left hsize hl hfuel
  | fileRead frsmId =>
    change handleFileReadRequest _ _ _ = _
    rw [handleFileReadRequest, decodeUint32_rest hl]
    rfl
  | fileClose frsmId =>
    change handleFileCloseRequest _ _ _ = _
    rw [handleFileCloseRequest, decodeUint32_rest hl]
    rfl
  | fileDelete fileName => exact handleFileDeleteRequest_left hl
  | fileDirectory fileSpecification continueAfter =>
    exact handleFileDirectoryRequest_left hsize hl hfuel

theorem tag_extended (request : FileRequest) : request.tag &&& 0x1f = 0x1f := by
  have hprimitive : (0x9f : UInt8) &&& 0x1f = 0x1f := by decide
  have hconstructed : (0xbf : UInt8) &&& 0x1f = 0x1f := by decide
  cases request with
  | fileRead => exact hprimitive
  | fileClose => exact hprimitive
  | _ => exact hconstructed

theorem arguments_ne (request : FileRequest) :
    request.arguments ≠ .rejected .unrecognizedService := by
  cases request <;> exact Handled.noConfusion

/-- The turn of the loop that reads the invoke id. -/
theorem handleConfirmedRequestPdu_invokeId {invokeId previous : UInt32} {fuel : Nat}
    {maxBufPos : Int} (hsize : message.length < 65536)
    (hl : Memory.Left message
      (encodeTL 0x02 (encodeUInt32 invokeId).length ++ (encodeUInt32 invokeId ++ rest)) pos)
    (hmax : pos + (encodeTL 0x02 (encodeUInt32 invokeId).length).length ≤ maxBufPos) :
    handleConfirmedRequestPdu (.ofList message) maxBufPos (fuel + 1) pos previous =
      handleConfirmedRequestPdu (.ofList message) maxBufPos fuel
        (pos + (encodeTL 0x02 (encodeUInt32 invokeId).length).length +
          (encodeUInt32 invokeId).length) invokeId := by
  have hcontent := hl.advance
  have hpos := hl.pos_nonneg
  have hend := hcontent.end_le
  have htl : 0 < (encodeTL 0x02 (encodeUInt32 invokeId).length).length := Nat.succ_pos _
  have hsmall : (encodeUInt32 invokeId).length < 65536 :=
    (uInt32determineEncodedSize_lt invokeId).trans (by decide)
  rw [handleConfirmedRequestPdu, if_neg (by omega), read_encodeTL hl, ok_bind,
    if_neg (by decide), decodeLength_encodeTL hsmall hl hmax, ok_bind]
  dsimp only
  rw [if_neg (by omega), if_pos rfl, decodeUint32_encodeUInt32 hcontent, ok_bind,
    i32_of_range (by omega) (by omega)]

/-- The turn of the loop that handles the service, the last one. -/
theorem handleConfirmedRequestPdu_service {request : FileRequest} {invokeId : UInt32} {fuel : Nat}
    (hsize : message.length < 65536) (hfuel : 4 ≤ fuel)
    (hl : Memory.Left message (request.tag :: tlv request.service request.fields) pos) :
    handleConfirmedRequestPdu (.ofList message) message.length fuel pos invokeId =
      .ok [(invokeId, request.arguments)] := by
  obtain ⟨fuel, rfl⟩ := Nat.exists_eq_add_of_le' hfuel
  have htag : Memory.Left message ([request.tag] ++ (encodeTL request.service
      request.fields.length ++ request.fields)) pos := hl
  have hservice := htag.advance
  rw [List.length_singleton, Nat.cast_one] at hservice
  have hfields := hservice.advance
  have hpos := hl.pos_nonneg
  have hend := hfields.length
  have hlt := request.length_fields_lt
  rw [handleConfirmedRequestPdu, if_neg (by omega), htag.read, ok_bind,
    if_pos (tag_extended request), read_encodeTL hservice, ok_bind,
    (by rw [add_assoc]; rfl : pos + 2 = pos + 1 + 1),
    decodeLength_encodeTL (by omega) hservice hservice.end_le, ok_bind]
  dsimp only
  rw [if_neg (by omega), hend, i32_of_range (by omega) (by omega),
    handleExtendedService_left hsize hfields (Nat.le_add_left 3 fuel), ok_bind,
    if_neg (arguments_ne request), handleConfirmedRequestPdu, if_pos le_rfl]
  rfl

theorem two_le_encodeTL (tag : UInt8) (n : Nat) : 2 ≤ (encodeTL tag n).length := by
  rw [encodeTL, List.length_cons, length_encodeLength]
  exact Nat.succ_le_succ (MmsServer.determineLengthSize_pos n)

/-- The server reads the invoke id and the arguments of a request whose lengths are right. -/
theorem parseConfirmedRequest_pdu (invokeId : UInt32) (request : FileRequest)
    (hsize : (confirmedRequestPdu invokeId request.tag request.service request.fields).length <
      65536) :
    parseConfirmedRequest
        (confirmedRequestPdu invokeId request.tag request.service request.fields) =
      .ok [(invokeId, request.arguments)] := by
  generalize hm : confirmedRequestPdu invokeId request.tag request.service request.fields = m
    at hsize
  have h0 : Memory.Left m (encodeTL 0xa0 (confirmedContent invokeId
      (request.tag :: tlv request.service request.fields)).length ++
        confirmedContent invokeId (request.tag :: tlv request.service request.fields)) 0 := by
    rw [← hm]
    exact .start _
  have h1 : Memory.Left m (encodeTL 0x02 (encodeUInt32 invokeId).length ++
      (encodeUInt32 invokeId ++ (request.tag :: tlv request.service request.fields))) _ :=
    h0.advance
  have hservice := h1.advance.advance
  have hpos := h1.pos_nonneg
  have hend := h0.advance.length
  have hcontent := h0.advance.length_le.trans_lt hsize
  have hleft := hservice.length
  have hturns : 4 ≤ m.length := by
    have hone := two_le_encodeTL 0xa0 (confirmedContent invokeId
      (request.tag :: tlv request.service request.fields)).length
    have htwo := two_le_encodeTL 0x02 (encodeUInt32 invokeId).length
    omega
  rw [parseConfirmedRequest, if_neg (by omega), read_encodeTL h0, ok_bind,
    if_neg (not_not_intro rfl)]
  change (decodeLength _ 0 (0 + 1) _ >>= _) = _
  rw [decodeLength_encodeTL hcontent h0 h0.end_le, ok_bind]
  dsimp only
  rw [if_neg (by omega), hend, i32_of_range (by omega) (by omega),
    handleConfirmedRequestPdu_invokeId hsize h1 h1.end_le,
    handleConfirmedRequestPdu_service hsize hturns hservice]

end ReadBack

end Iec61850.FileService
