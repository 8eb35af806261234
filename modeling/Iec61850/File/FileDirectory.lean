import Iec61850.File.FileRequests

/-! The answer to a directory request: the entries that the server finds room for, and what the
client hands to its handler. -/

namespace Iec61850.FileService

open Machine BerEncoder BerDecoder

/-- A file of a directory, with the slash behind its name if it is a directory itself, and what
the file system says of it. -/
structure DirectoryEntry where
  fileName : CharArray 300
  fileSize : UInt32
  gtString : CharArray 30

/-! ## Encoders -/

namespace DirectoryEntry

def dirEntrySize (entry : DirectoryEntry) : Nat :=
  2 + fileAttributesSize entry.fileSize entry.gtString.octets +
    fileSpecificationSize entry.fileName.octets.length

def overallEntrySize (entry : DirectoryEntry) : Nat :=
  1 + determineLengthSize entry.dirEntrySize + entry.dirEntrySize

def encode (entry : DirectoryEntry) : List UInt8 :=
  encodeTL 0x30 entry.dirEntrySize ++ (encodeFileSpecification 0xa0 entry.fileName.octets ++
    encodeFileAttributes 0xa1 entry.fileSize entry.gtString.octets)

end DirectoryEntry

/-- `tempStartPos` -/
def tempStartPos : Nat := 30

/-- The loop over a directory: the entries that are put into the buffer from `tempCurPos` on, and
whether one has no room. -/
def addFileEntries (maxSize : Nat) :
    Option (List UInt8) → Nat → List DirectoryEntry → List DirectoryEntry × Bool
  | _, _, [] => ([], false)
  | some continueAfter, tempCurPos, entry :: files =>
    addFileEntries maxSize
      (if continueAfter = entry.fileName.octets then none else some continueAfter) tempCurPos files
  | none, tempCurPos, entry :: files =>
    if maxSize < tempCurPos + entry.overallEntrySize then ([], true)
    else
      let (entries, moreFollows) :=
        addFileEntries maxSize none (tempCurPos + entry.encode.length) files
      (entry :: entries, moreFollows)

def encodeEntries (entries : List DirectoryEntry) : List UInt8 :=
  (entries.map DirectoryEntry.encode).flatten

def listOfDirectoryEntrySize (tempEncoded : Nat) : Nat :=
  1 + determineLengthSize tempEncoded + tempEncoded

def fileDirectoryResponseSize (tempEncoded : Nat) (moreFollows : Bool) : Nat :=
  1 + determineLengthSize (listOfDirectoryEntrySize tempEncoded) +
    listOfDirectoryEntrySize tempEncoded + if moreFollows then 3 else 0

/-- The end of `createFileDirectoryResponse`, where the entries go behind the header. -/
def encodeFileDirectoryResponse (invokeId : UInt32) (entries : List UInt8) (moreFollows : Bool) :
    List UInt8 :=
  let size := fileDirectoryResponseSize entries.length moreFollows
  confirmedHeader 0xa1
      (uInt32determineEncodedSize invokeId + 2 + 2 + determineLengthSize size + size) invokeId ++
    0xbf :: (encodeTL 0x4d size ++ (encodeTL 0xa0 (listOfDirectoryEntrySize entries.length) ++
      (encodeTL 0x30 entries.length ++ entries) ++
      if moreFollows then encodeBoolean 0x81 moreFollows else []))

/-- The size of the buffer that the server has for a response. -/
def responseMaxSize : Nat := 16000 + 100

/-- What goes into the response of a directory, and whether more follows. -/
def directoryListing (continueAfter : Option (List UInt8)) (files : List DirectoryEntry) :
    List DirectoryEntry × Bool :=
  addFileEntries (responseMaxSize - 3) continueAfter tempStartPos files

/-- `createFileDirectoryResponse` for a directory that can be opened. -/
def createFileDirectoryResponse (invokeId : UInt32) (continueAfter : Option (List UInt8))
    (files : List DirectoryEntry) : List UInt8 :=
  let (entries, moreFollows) := directoryListing continueAfter files
  encodeFileDirectoryResponse invokeId (encodeEntries entries) moreFollows

/-! ## Parsers -/

/-- What the handler of the client gets: the name and the attributes of a file. -/
structure ListedFile where
  filename : List UInt8
  attributes : FileAttributes

structure EntryState where
  filename : Option (List UInt8)
  attributes : FileAttributes

def directoryEntryField (buffer : Memory) (fuel : Nat) (maxBufPos : Int) :
    ElementParser EntryState :=
  fun tag len bufPos state =>
    if tag = 0xa0 then do
      let _ ← buffer.read bufPos
      let (bufPos, len) ← decodeLength buffer len (bufPos + 1) maxBufPos
      let filename ← copyString buffer 400 len bufPos
      skip len bufPos { state with filename := some filename }
    else if tag = 0xa1 then do
      let (next, attributes) ← parseFileAttributes buffer true fuel bufPos (i32 (bufPos + len))
        state.attributes
      match next with
      | none => return (none, { state with attributes := attributes })
      | some _ => skip len bufPos { state with attributes := attributes }
    else return (none, state)

/-- The file, if the entry is as it should be. -/
def parseDirectoryEntry (buffer : Memory) (fuel : Nat) (bufPos maxBufPos : Int) :
    Exec (Option ListedFile) := do
  let (next, state) ← parseElements buffer 0 maxBufPos false
    (directoryEntryField buffer fuel maxBufPos) fuel bufPos ⟨none, 0, none⟩
  match next, state.filename with
  | some _, some filename => return some ⟨filename, state.attributes⟩
  | _, _ => return none

/-- Nobody looks whether an entry is as it should be. -/
def directoryEntries {π : Type} (buffer : Memory) (handler : π → ListedFile → π) (fuel : Nat) :
    ElementParser π :=
  fun tag len bufPos param =>
    if tag = 0x30 then do
      let file ← parseDirectoryEntry buffer fuel bufPos (i32 (bufPos + len))
      skip len bufPos (file.elim param (handler param))
    else return (none, param)

/-- `parseListOfDirectoryEntries`; nobody looks whether it says that the list is wrong. -/
def parseListOfDirectoryEntries {π : Type} (buffer : Memory) (handler : π → ListedFile → π)
    (fuel : Nat) (bufPos maxBufPos : Int) (param : π) : Exec π := do
  if (← buffer.read bufPos) ≠ 0x30 then return param
  let (bufPos, length) ← decodeLength buffer 0 (bufPos + 1) maxBufPos
  if bufPos < 0 then return param
  if maxBufPos < i32 (bufPos + length) then return param
  let (_, param) ← parseFields buffer maxBufPos (i32 (bufPos + length))
    (directoryEntries buffer handler fuel) fuel length bufPos param
  return param

def fileDirectoryField {π : Type} (buffer : Memory) (handler : π → ListedFile → π) (fuel : Nat) :
    ElementParser (FileReadState π) :=
  fun tag len bufPos state =>
    if tag = 0xa0 then do
      let param ← parseListOfDirectoryEntries buffer handler fuel bufPos (i32 (bufPos + len))
        state.handlerParameter
      skip len bufPos { state with handlerParameter := param }
    else if tag = 0x81 then do
      let moreFollows ← decodeBoolean buffer bufPos
      skip len bufPos { state with moreFollows := moreFollows }
    else skip len bufPos state

def parseFileDirectoryResponse {π : Type} (handler : π → ListedFile → π) (message : List UInt8)
    (bufPos : Int) (state : FileReadState π) : Exec (Bool × FileReadState π) := do
  let buffer := Memory.ofList message
  let fuel := message.length + 1
  if (← buffer.read bufPos) ≠ 0xbf then return (false, state)
  match ← parseServiceTag buffer 0x4d (bufPos + 1) message.length with
  | none => return (false, state)
  | some (bufPos, length) =>
    let (next, state) ← parseFields buffer message.length (i32 (bufPos + length))
      (fileDirectoryField buffer handler fuel) fuel length bufPos
      { state with moreFollows := false }
    return (next.isSome, state)

/-! ## Sizes -/

/-- What an entry holds. -/
def DirectoryEntry.fields (entry : DirectoryEntry) : List UInt8 :=
  tlv 0xa0 (tlv 0x19 entry.fileName.octets) ++
    tlv 0xa1 (fileAttributeFields entry.fileSize entry.gtString.octets)

theorem length_attributes_lt (fileSize : UInt32) {gtString : List UInt8}
    (hshort : gtString.length < 100) : fileAttributesSize fileSize gtString < 128 := by
  have hsize := MmsServer.uInt32determineEncodedSize_le fileSize
  have hone := determineLengthSize_eq_one.mpr (uInt32determineEncodedSize_lt fileSize)
  rw [fileAttributesSize, hone]
  omega

theorem DirectoryEntry.length_fields (entry : DirectoryEntry) :
    entry.fields.length = entry.dirEntrySize := by
  have hshort := entry.gtString.length_lt
  have hattributes := length_fileAttributeFields entry.fileSize
    (hshort.trans (by decide : 30 < 128))
  have hone := determineLengthSize_eq_one.mpr
    (length_attributes_lt entry.fileSize (hshort.trans (by decide : 30 < 100)))
  rw [fields, List.length_append, length_fileSpecification, length_tlv, hattributes,
    fileNameSeqSize, hone, dirEntrySize]
  omega

theorem DirectoryEntry.encode_eq (entry : DirectoryEntry) : entry.encode = tlv 0x30 entry.fields := by
  have hshort := entry.gtString.length_lt
  rw [encode, ← entry.length_fields, encodeFileSpecification_eq,
    encodeFileAttributes_eq 0xa1 entry.fileSize (hshort.trans (by decide : 30 < 128))]
  rfl

theorem DirectoryEntry.length_encode (entry : DirectoryEntry) :
    entry.encode.length = entry.overallEntrySize := by
  rw [encode_eq, length_tlv, length_fields]
  rfl

/-- The entries do not go beyond the end of the buffer. -/
theorem length_addFileEntries {maxSize : Nat} {continueAfter : Option (List UInt8)}
    {tempCurPos : Nat} (files : List DirectoryEntry) (h : tempCurPos ≤ maxSize) :
    tempCurPos + (encodeEntries (addFileEntries maxSize continueAfter tempCurPos files).1).length ≤
      maxSize := by
  induction files generalizing continueAfter tempCurPos with
  | nil => simpa [addFileEntries, encodeEntries] using h
  | cons entry files ih =>
    cases continueAfter with
    | some after => exact ih h
    | none =>
      rw [addFileEntries]
      split
      case isTrue => simpa [encodeEntries] using h
      case isFalse hroom =>
        rw [← entry.length_encode, not_lt] at hroom
        have hrest : _ + (encodeEntries (addFileEntries maxSize none _ files).1).length ≤ maxSize :=
          ih hroom
        simp only [encodeEntries, List.map_cons, List.flatten_cons, List.length_append] at hrest ⊢
        omega

def directoryFields (entries : List UInt8) (moreFollows : Bool) : List UInt8 :=
  tlv 0xa0 (tlv 0x30 entries) ++ if moreFollows then encodeBoolean 0x81 moreFollows else []

theorem length_directoryFields (entries : List UInt8) (moreFollows : Bool) :
    (directoryFields entries moreFollows).length =
      fileDirectoryResponseSize entries.length moreFollows := by
  rw [directoryFields, List.length_append, length_tlv, length_tlv]
  cases moreFollows <;> rfl

theorem encodeFileDirectoryResponse_eq (invokeId : UInt32) (entries : List UInt8)
    (moreFollows : Bool) : encodeFileDirectoryResponse invokeId entries moreFollows =
      confirmedPdu 0xa1 invokeId
        (extendedField 0x4d (directoryFields entries moreFollows)) := by
  have hsize := length_extendedField 0x4d (directoryFields entries moreFollows)
  have hlist : listOfDirectoryEntrySize entries.length = (tlv 0x30 entries).length :=
    (length_tlv 0x30 entries).symm
  rw [← confirmedHeader_append rfl, hsize, length_directoryFields, extendedField,
    length_directoryFields, encodeFileDirectoryResponse, directoryFields, hlist]
  simp only [add_assoc, tlv, List.append_assoc]

/-- The header of the response is written where no entry has been put. -/
theorem length_encodeFileDirectoryResponse_le (invokeId : UInt32) (entries : List UInt8)
    (moreFollows : Bool) : (encodeFileDirectoryResponse invokeId entries moreFollows).length ≤
      tempStartPos + entries.length := by
  have hpdu := length_confirmedPdu_le 0xa1 invokeId
    (extendedField 0x4d (directoryFields entries moreFollows))
  have hservice := length_extendedField 0x4d (directoryFields entries moreFollows)
  have hlength := MmsServer.determineLengthSize_le (directoryFields entries moreFollows).length
  have hlist := MmsServer.determineLengthSize_le entries.length
  have houter := MmsServer.determineLengthSize_le (listOfDirectoryEntrySize entries.length)
  have hfields : (directoryFields entries moreFollows).length ≤ entries.length + 11 := by
    rw [length_directoryFields, fileDirectoryResponseSize]
    rw [listOfDirectoryEntrySize] at houter ⊢
    cases moreFollows
    all_goals
      simp
      omega
  rw [encodeFileDirectoryResponse_eq, tempStartPos]
  omega

/-! ## What is read back -/

section ReadBack

variable {message rest : List UInt8} {pos : Int}

theorem parseDirectoryEntry_left (entry : DirectoryEntry) (hsize : message.length < 65536)
    (hl : Memory.Left message (entry.fields ++ rest) pos) {fuel : Nat} (hfuel : 3 ≤ fuel) :
    parseDirectoryEntry (.ofList message) fuel pos (pos + entry.fields.length) =
      .ok (some ⟨entry.fileName.octets, ⟨entry.fileSize, some entry.gtString.octets⟩⟩) := by
  obtain ⟨turns, hturns⟩ := Nat.exists_eq_add_of_le' hfuel
  have hbig : message.length < 2147483648 := hsize.trans (by decide)
  have hname : Memory.Left message (encodeTL 0xa0 (tlv 0x19 entry.fileName.octets).length ++
      (encodeTL 0x19 entry.fileName.octets.length ++ (entry.fileName.octets ++
        (encodeTL 0xa1 (fileAttributeFields entry.fileSize entry.gtString.octets).length ++
          (fileAttributeFields entry.fileSize entry.gtString.octets ++ rest))))) pos := by
    simpa only [DirectoryEntry.fields, tlv, List.append_assoc] using hl
  have hspecification := hname.advance
  have hoctets := hspecification.advance
  have hattributes := hoctets.advance
  have hfields := hattributes.advance
  have hend := hfields.end_le
  have hpos := hl.pos_nonneg
  have hnameLength := entry.fileName.length_lt
  have htime := entry.gtString.length_lt
  have hlength : pos + (entry.fields.length : Int) =
      pos + (encodeTL 0xa0 (tlv 0x19 entry.fileName.octets).length).length +
        (encodeTL 0x19 entry.fileName.octets.length).length + entry.fileName.octets.length +
        (encodeTL 0xa1 (fileAttributeFields entry.fileSize entry.gtString.octets).length).length +
        (fileAttributeFields entry.fileSize entry.gtString.octets).length := by
    simp only [DirectoryEntry.fields, tlv, List.length_append]
    push_cast
    ring
  have hsmall : (tlv 0x19 entry.fileName.octets).length < 65536 := by
    rw [length_tlv, fileNameSeqSize]
    have hle := MmsServer.determineLengthSize_le entry.fileName.octets.length
    omega
  have hattributesLength : (fileAttributeFields entry.fileSize entry.gtString.octets).length <
      65536 := by
    have hle := hfields.length_le
    rw [List.length_append] at hle
    omega
  have hattr := parseFileAttributes_left hsize entry.gtString.zero_not_mem (by omega) hfields true
    hfuel ⟨0, none⟩
  rw [hturns] at hattr ⊢
  rw [parseDirectoryEntry, parseElements_encodeTL hsmall hname (by omega), directoryEntryField,
    if_pos rfl, read_encodeTL hspecification, ok_bind,
    decodeLength_encodeTL (by omega) hspecification (by omega), ok_bind]
  dsimp only
  rw [copyString_left entry.fileName.zero_not_mem (by omega) hoctets, ok_bind,
    skip_left hbig hoctets, ok_bind]
  dsimp only
  rw [parseElements_encodeTL hattributesLength hattributes (by omega), directoryEntryField,
    if_neg (by decide), if_pos rfl, i32_of_range (by omega) (by omega), hattr, ok_bind]
  dsimp only
  rw [skip_left hbig hfields, ok_bind]
  dsimp only
  rw [hlength, parseElements_end le_rfl]
  rfl

/-- What the handler of the client should get of an entry. -/
def DirectoryEntry.listed (entry : DirectoryEntry) : ListedFile :=
  ⟨entry.fileName.octets, ⟨entry.fileSize, some entry.gtString.octets⟩⟩

theorem encodeEntries_cons (entry : DirectoryEntry) (entries : List DirectoryEntry) :
    encodeEntries (entry :: entries) =
      encodeTL 0x30 entry.fields.length ++ (entry.fields ++ encodeEntries entries) := by
  rw [encodeEntries, List.map_cons, List.flatten_cons, entry.encode_eq, tlv, List.append_assoc]
  rfl

theorem length_le_encodeEntries (entries : List DirectoryEntry) :
    entries.length ≤ (encodeEntries entries).length := by
  induction entries with
  | nil => exact Nat.zero_le _
  | cons entry entries ih =>
    have htl := two_le_encodeTL 0x30 entry.fields.length
    rw [encodeEntries_cons, List.length_append, List.length_append, List.length_cons]
    omega

/-- The handler gets the entries one after the other. -/
theorem parseFields_entries {π : Type} (handler : π → ListedFile → π)
    (entries : List DirectoryEntry) (hsize : message.length < 65536)
    (hl : Memory.Left message (encodeEntries entries ++ rest) pos) {fuel turns : Nat}
    (hfuel : 3 ≤ fuel) (hturns : entries.length < turns) {maxBufPos : Int}
    (hmax : pos + (encodeEntries entries).length ≤ maxBufPos) (length : Int) (param : π) :
    parseFields (.ofList message) maxBufPos (pos + (encodeEntries entries).length)
        (directoryEntries (.ofList message) handler fuel) turns length pos param =
      .ok (some (pos + (encodeEntries entries).length),
        (entries.map DirectoryEntry.listed).foldl handler param) := by
  induction entries generalizing pos turns length param with
  | nil =>
    obtain ⟨turns, rfl⟩ := Nat.exists_eq_add_of_lt hturns
    have hzero : pos + ((encodeEntries []).length : Int) = pos := add_zero pos
    rw [hzero]
    exact parseFields_end le_rfl
  | cons entry entries ih =>
    obtain ⟨turns, rfl⟩ := Nat.exists_eq_add_of_le' (Nat.one_le_of_lt hturns)
    have hbig : message.length < 2147483648 := hsize.trans (by decide)
    have htl := two_le_encodeTL 0x30 entry.fields.length
    have hend := hl.end_le
    rw [encodeEntries_cons, List.append_assoc, List.append_assoc] at hl
    have hfields := hl.advance
    have hrest := hfields.advance
    have hpos := hl.pos_nonneg
    have hlength : pos + ((encodeEntries (entry :: entries)).length : Int) =
        pos + (encodeTL 0x30 entry.fields.length).length + entry.fields.length +
          (encodeEntries entries).length := by
      rw [encodeEntries_cons, List.length_append, List.length_append]
      push_cast
      ring
    have hsmall : entry.fields.length < 65536 := by omega
    rw [hlength] at hmax ⊢
    rw [parseFields_encodeTL hsmall hl (by omega) (by omega), directoryEntries, if_pos rfl,
      i32_of_range (by omega) (by omega), parseDirectoryEntry_left entry hsize hfields hfuel,
      ok_bind, skip_left hbig hfields, ok_bind]
    exact ih hrest (Nat.lt_of_succ_lt_succ hturns) hmax _ _

theorem parseListOfDirectoryEntries_left {π : Type} (handler : π → ListedFile → π)
    (entries : List DirectoryEntry) (hsize : message.length < 65536)
    (hl : Memory.Left message (tlv 0x30 (encodeEntries entries) ++ rest) pos) {fuel : Nat}
    (hfuel : 3 ≤ fuel) (hturns : entries.length < fuel) (param : π) :
    parseListOfDirectoryEntries (.ofList message) handler fuel pos
        (pos + (tlv 0x30 (encodeEntries entries)).length) param =
      .ok ((entries.map DirectoryEntry.listed).foldl handler param) := by
  have hone : Memory.Left message (encodeTL 0x30 (encodeEntries entries).length ++
      (encodeEntries entries ++ rest)) pos := by
    rw [tlv, List.append_assoc] at hl
    exact hl
  have hentries := hone.advance
  have hlength := length_tlv_append 0x30 (encodeEntries entries)
  have hpos := hl.pos_nonneg
  have hend := hl.end_le
  rw [parseListOfDirectoryEntries, read_encodeTL hone, ok_bind, if_neg (not_not_intro rfl),
    decodeLength_encodeTL (by omega) hone (by omega), ok_bind]
  dsimp only
  rw [if_neg (by omega), i32_of_range (by omega) (by omega), if_neg (by omega),
    parseFields_entries handler entries hsize hentries hfuel hturns (by omega), ok_bind]
  rfl

theorem parseFields_directory {π : Type} (handler : π → ListedFile → π)
    (entries : List DirectoryEntry) {moreFollows : Bool} (hsize : message.length < 65536)
    (hl : Memory.Left message (directoryFields (encodeEntries entries) moreFollows) pos)
    {fuel : Nat} (hfuel : 3 ≤ fuel) (hturns : entries.length < fuel) (length : Int) (param : π) :
    parseFields (.ofList message) message.length message.length
      (fileDirectoryField (.ofList message) handler fuel) fuel length pos ⟨false, param⟩ =
        .ok (some (message.length : Int),
          ⟨moreFollows, (entries.map DirectoryEntry.listed).foldl handler param⟩) := by
  obtain ⟨turns, hturn⟩ := Nat.exists_eq_add_of_le' hfuel
  have hbig : message.length < 2147483648 := hsize.trans (by decide)
  have hlist : Memory.Left message (encodeTL 0xa0 (tlv 0x30 (encodeEntries entries)).length ++
      (tlv 0x30 (encodeEntries entries) ++
        if moreFollows then encodeBoolean 0x81 moreFollows else [])) pos := by
    rw [directoryFields, tlv, List.append_assoc] at hl
    exact hl
  have hcontent := hlist.advance
  have hnext := hcontent.advance
  have hend := hcontent.end_le
  have hpos := hl.pos_nonneg
  have htl := two_le_encodeTL 0xa0 (tlv 0x30 (encodeEntries entries)).length
  have hloop := parseListOfDirectoryEntries_left handler entries hsize hcontent hfuel hturns param
  rw [hturn] at hloop ⊢
  rw [parseFields_encodeTL (by omega) hlist (by omega) hlist.end_le, fileDirectoryField,
    if_pos rfl, i32_of_range (by omega) (by omega), hloop, ok_bind, skip_left hbig hcontent,
    ok_bind]
  dsimp only
  cases moreFollows with
  | false =>
    have hlast := hnext.length
    rw [if_neg Bool.false_ne_true, List.length_nil, Nat.cast_zero, add_zero] at hlast
    rw [hlast]
    exact parseFields_end le_rfl
  | true =>
    have hbool : Memory.Left message (encodeTL 0x81 1 ++ ([0xff] ++ [])) _ := hnext
    have hvalue := hbool.advance
    have hlast := hvalue.advance.length
    have hle := hbool.end_le
    have htwo : ((encodeTL 0x81 1).length : Int) = 2 := rfl
    have hone : ((([0xff] : List UInt8).length : Nat) : Int) = 1 := rfl
    rw [parseFields_encodeTL (by decide) hbool (by omega) hle, fileDirectoryField,
      if_neg (by decide), if_pos rfl, decodeBoolean, hvalue.read, ok_bind]
    have hskip := skip_left hbig hvalue (FileReadState.mk true
      ((entries.map DirectoryEntry.listed).foldl handler param))
    rw [List.length_nil, Nat.cast_zero, add_zero] at hlast
    rw [hlast] at hskip
    change (skip ([0xff] : List UInt8).length _ (FileReadState.mk true _) >>= _) = _
    rw [hskip, ok_bind]
    exact parseFields_end le_rfl

/-- The handler of the client gets the entries that the server has put into the response. -/
theorem parseFileDirectoryResponse_encode {π : Type} (handler : π → ListedFile → π)
    (invokeId : UInt32) {entries : List DirectoryEntry} {moreFollows : Bool}
    (hroom : tempStartPos + (encodeEntries entries).length < 65536) (state : FileReadState π) :
    ∃ bufPos, lastResponseBufPos
        (encodeFileDirectoryResponse invokeId (encodeEntries entries) moreFollows) = .ok bufPos ∧
      parseFileDirectoryResponse handler
        (encodeFileDirectoryResponse invokeId (encodeEntries entries) moreFollows) bufPos state =
        .ok (true, ⟨moreFollows,
          (entries.map DirectoryEntry.listed).foldl handler state.handlerParameter⟩) := by
  have hsize := (length_encodeFileDirectoryResponse_le invokeId (encodeEntries entries)
    moreFollows).trans_lt hroom
  rw [encodeFileDirectoryResponse_eq] at hsize ⊢
  obtain ⟨bufPos, fieldPos, hf⟩ := found_confirmedPdu hsize
  refine ⟨bufPos, hf.position, ?_⟩
  have hturns : entries.length < (confirmedPdu 0xa1 invokeId (extendedField 0x4d
      (directoryFields (encodeEntries entries) moreFollows))).length + 1 := by
    have hcount := length_le_encodeEntries entries
    have hfields := hf.left.length_le
    have hlist : (encodeEntries entries).length ≤
        (directoryFields (encodeEntries entries) moreFollows).length := by
      rw [length_directoryFields, fileDirectoryResponseSize, listOfDirectoryEntrySize]
      omega
    exact Nat.lt_succ_of_le (hcount.trans (hlist.trans hfields))
  rw [parseFileDirectoryResponse, hf.first, ok_bind, if_neg (not_not_intro rfl), hf.second,
    ok_bind]
  dsimp only
  rw [hf.endPos, parseFields_directory handler entries hsize hf.left hf.turns hturns]
  rfl

end ReadBack

end Iec61850.FileService
