import Iec61850.Report.InformationReport
import Iec61850.File.FileServer
import Iec61850.File.FileDirectory

/-! The PDUs with values, with the outcomes of a write, with a piece of a file and with the files of
a directory, against the size of a PDU that has been negotiated. -/

namespace Iec61850

open Machine BerEncoder

namespace MmsServer

/-- `parseInitiateRequestPdu`: what the connection has as its `maxPduSize` behind the request, whose
local detail is the size that the client asks for. -/
def negotiatedPduSize (localDetail : Option UInt32) : Int :=
  match localDetail with
  | none => 16000
  | some localDetail => if 16000 < i32 localDetail.toNat then 16000 else i32 localDetail.toNat

theorem negotiatedPduSize_le (localDetail : Option UInt32) :
    negotiatedPduSize localDetail ≤ 16000 := by
  unfold negotiatedPduSize
  split
  · exact le_rfl
  · split
    · exact le_rfl
    · exact not_lt.mp ‹_›

/-! ## The response to a write -/

/-- The outcomes that a request to write has: there is room for no more. -/
structure WriteResults where
  results : List MmsDataAccessError
  length_le : results.length ≤ 100

/-- The octets that the encoder hands over for an outcome, in the order in which it does. -/
def writeResultPieces : MmsDataAccessError → List (List UInt8)
  | .success => [encodeTL 0x81 0]
  | failure => [encodeTL 0x80 1, [UInt8.ofInt failure.code]]

def writeResultSize : MmsDataAccessError → Nat
  | .success => 2
  | _ => 3

/-- The pieces of the whole PDU. -/
def writeResponsePieces (invokeId : UInt32) (results : List MmsDataAccessError) :
    List (List UInt8) :=
  let listSize := (results.map writeResultSize).sum
  let pduSize := uInt32determineEncodedSize invokeId + 2 + elementSize listSize
  encodeTL 0xa1 pduSize :: encodeTL 0x02 (uInt32determineEncodedSize invokeId) ::
    encodeUInt32 invokeId :: encodeTL 0xa5 listSize :: results.flatMap writeResultPieces

/-- `ByteBuffer_append` with one piece after the other, until there is no room for one. -/
def appendPieces (maxSize : Int) : List UInt8 → List (List UInt8) → List UInt8
  | buffer, [] => buffer
  | buffer, piece :: pieces =>
    if buffer.length + piece.length ≤ maxSize then appendPieces maxSize (buffer ++ piece) pieces
    else buffer

/-- `mmsServer_createMmsWriteResponse`, into an empty buffer. Nobody looks whether the encoder has
come to its end. -/
def encodeMmsWriteResponse (maxSize : Int) (invokeId : UInt32)
    (results : List MmsDataAccessError) : List UInt8 :=
  appendPieces maxSize [] (writeResponsePieces invokeId results)

/-- `MmsServerConnection_sendWriteResponse` -/
def sendWriteResponse (maxPduSize : Int) (invokeId : UInt32) (indication : MmsDataAccessError) :
    List UInt8 := encodeMmsWriteResponse maxPduSize invokeId [indication]

/-! ## The response to a read of a file -/

open FileService

/-- `createFileReadResponse`; `stale` is what the response held before. -/
def createFileReadResponse (invokeId : UInt32) (frsm : MmsFileReadStateMachine)
    (handle : FileHandle) (stale : Nat → UInt8) : List UInt8 :=
  let (fileChunkSize, moreFollows) := MmsServerConnection.fileChunk frsm
  encodeFileReadResponse invokeId (handle.readFile fileChunkSize.toNat stale).1 moreFollows

/-! ## Sizes -/

section

variable {maxPduSize : Int} {maxSize n : Nat} {pdu : List UInt8} {invokeId : UInt32}

/-- A PDU whose headers are right keeps to the size if and only if it is short enough. -/
theorem respects_iff_of_sized (hmax : maxPduSize ≤ 16000) (hcap : maxPduSize ≤ maxSize)
    (hlength : pdu.length = n) (hsized : pdu.length < 65536 → Tlv.Sized pdu) :
    Respects maxPduSize maxSize pdu ↔ (n : Int) ≤ maxPduSize := by
  constructor
  · intro h
    exact hlength ▸ h.limit
  · intro hle
    rw [← hlength] at hle
    exact ⟨by omega, hsized (by omega), hle⟩

/-- The size of a confirmed PDU with an invoke id and `n` octets of a service. -/
def confirmedSize (invokeId : UInt32) (n : Nat) : Nat :=
  elementSize (uInt32determineEncodedSize invokeId + 2 + n)

theorem counted_confirmedContent (invokeId : UInt32) {service : List UInt8} (h : Counted n service) :
    Counted (uInt32determineEncodedSize invokeId + 2 + n) (confirmedContent invokeId service) := by
  have hid := counted_primitive 0x02 (by decide) (by decide) (encodeUInt32 invokeId)
  have hsize : elementSize (encodeUInt32 invokeId).length =
      uInt32determineEncodedSize invokeId + 2 := by
    have hone : determineLengthSize (encodeUInt32 invokeId).length = 1 :=
      if_pos (uInt32determineEncodedSize_lt invokeId)
    rw [elementSize, hone, length_encodeUInt32]
    omega
  rw [hsize] at hid
  have := hid.append h
  rwa [List.append_assoc] at this

theorem confirmedPdu_respects_iff (hmax : maxPduSize ≤ 16000) (hcap : maxPduSize ≤ maxSize)
    {service : List UInt8} (h : Counted n service) :
    Respects maxPduSize maxSize (confirmedPdu 0xa1 invokeId service) ↔
      (confirmedSize invokeId n : Int) ≤ maxPduSize := by
  have hcontent := counted_confirmedContent invokeId h
  have hlength := hcontent.length_element 0xa1
  unfold confirmedPdu
  rw [hcontent.length_eq]
  refine respects_iff_of_sized hmax hcap hlength fun hlt => ?_
  exact hcontent.sized_element 0xa1 (by decide) (by decide) (hlength ▸ hlt)

/-- A service with a tag of two octets. -/
theorem counted_extendedField (service : UInt8) (hs : service.toNat < 128) {fields : List UInt8}
    (h : Counted n fields) : Counted (1 + elementSize n) (extendedField service fields) := by
  have hlength := length_extendedField service fields
  rw [h.length_eq] at hlength
  refine ⟨by rw [hlength, elementSize]; omega, fun hlt => ?_⟩
  rw [hlength] at hlt
  have hn : fields.length < 65536 := by
    rw [h.length_eq]
    omega
  have hi : Tlv.Identifier true [0xbf, service] :=
    Tlv.Identifier.long (by decide : ¬ Tlv.IsShortTag 0xbf) hs
  exact ((h.sized hn).constructed hi (lengthOctets_encodeLength hn)).areSized

theorem counted_encodeBoolean (b : Bool) : Counted 3 (encodeBoolean 0x81 b) := by
  cases b
  · exact counted_primitive 0x81 (by decide) (by decide) [0x00]
  · exact counted_primitive 0x81 (by decide) (by decide) [0xff]

/-- The response with a piece of a file, of which there are at most 15985 octets whatever has been
negotiated. -/
theorem createFileReadResponse_respects_iff (hmax : maxPduSize ≤ 16000)
    (hcap : maxPduSize ≤ maxSize) (frsm : MmsFileReadStateMachine) (handle : FileHandle)
    (stale : Nat → UInt8) :
    Respects maxPduSize maxSize (createFileReadResponse invokeId frsm handle stale) ↔
      (confirmedSize invokeId (1 + elementSize (fileReadResponseSize
        (MmsServerConnection.fileChunk frsm).1.toNat (MmsServerConnection.fileChunk frsm).2)) : Int) ≤
          maxPduSize := by
  have hlength : (handle.readFile (MmsServerConnection.fileChunk frsm).1.toNat stale).1.length =
      (MmsServerConnection.fileChunk frsm).1.toNat := by
    rw [FileHandle.readFile, List.length_map, List.length_range]
  have hfields : ∀ (fileChunk : List UInt8) (moreFollows : Bool),
      Counted (fileReadResponseSize fileChunk.length moreFollows)
        (fileReadFields fileChunk moreFollows) := by
    intro fileChunk moreFollows
    have hchunk := counted_primitive 0x80 (by decide) (by decide) fileChunk
    refine ⟨length_fileReadFields fileChunk moreFollows, ?_⟩
    rw [fileReadFields, ← List.append_assoc]
    cases moreFollows with
    | false => exact (hchunk.append (counted_encodeBoolean false)).sized
    | true =>
      rw [if_pos rfl, List.append_nil]
      exact hchunk.sized
  have heq : createFileReadResponse invokeId frsm handle stale = encodeFileReadResponse invokeId
      (handle.readFile (MmsServerConnection.fileChunk frsm).1.toNat stale).1
      (MmsServerConnection.fileChunk frsm).2 := rfl
  have hcounted := hfields (handle.readFile (MmsServerConnection.fileChunk frsm).1.toNat stale).1
    (MmsServerConnection.fileChunk frsm).2
  rw [hlength] at hcounted
  rw [heq, encodeFileReadResponse_eq]
  exact confirmedPdu_respects_iff hmax hcap (counted_extendedField 0x49 (by decide) hcounted)

theorem counted_tlv (tag : UInt8) {content : List UInt8} (ht : Tlv.IsShortTag tag)
    (hc : Tlv.IsConstructed tag) (h : Counted n content) :
    Counted (elementSize n) (tlv tag content) := by
  rw [tlv, h.length_eq]
  exact h.element tag ht hc

theorem counted_fileAttributeFields (fileSize : UInt32) (gtString : List UInt8) :
    Counted (fileAttributeFields fileSize gtString).length
      (fileAttributeFields fileSize gtString) := by
  have h := (counted_primitive 0x80 (by decide) (by decide) (encodeUInt32 fileSize)).append
    (counted_primitive 0x81 (by decide) (by decide) gtString)
  rw [List.append_assoc] at h
  exact ⟨rfl, h.sized⟩

theorem counted_encodeEntries (entries : List DirectoryEntry) :
    Counted ((entries.map (·.overallEntrySize)).sum) (encodeEntries entries) := by
  induction entries with
  | nil => exact ⟨rfl, fun _ => .nil⟩
  | cons entry entries ih =>
    have hname := counted_tlv 0xa0 (by decide) (by decide)
      (counted_primitive 0x19 (by decide) (by decide) entry.fileName.octets)
    have hattributes := counted_tlv 0xa1 (by decide) (by decide)
      (counted_fileAttributeFields entry.fileSize entry.gtString.octets)
    have hentry := counted_tlv 0x30 (by decide) (by decide) (hname.append hattributes)
    have hall : Counted entry.overallEntrySize entry.encode := by
      refine ⟨entry.length_encode, ?_⟩
      rw [entry.encode_eq]
      exact hentry.sized
    exact hall.append ih

/-- The size of the response with entries of `n` octets. -/
def directoryResponseSize (invokeId : UInt32) (n : Nat) (moreFollows : Bool) : Nat :=
  confirmedSize invokeId (1 + elementSize (fileDirectoryResponseSize n moreFollows))

/-- The response with the files of a directory, which fill the buffer whatever has been
negotiated. -/
theorem createFileDirectoryResponse_respects_iff (hmax : maxPduSize ≤ 16000)
    (hcap : maxPduSize ≤ maxSize) (continueAfter : Option (List UInt8))
    (files : List DirectoryEntry) :
    Respects maxPduSize maxSize (createFileDirectoryResponse invokeId continueAfter files) ↔
      (directoryResponseSize invokeId
        (((directoryListing continueAfter files).1.map (·.overallEntrySize)).sum)
        (directoryListing continueAfter files).2 : Int) ≤ maxPduSize := by
  have hfields : ∀ (entries : List DirectoryEntry) (moreFollows : Bool),
      Counted (fileDirectoryResponseSize ((entries.map (·.overallEntrySize)).sum) moreFollows)
        (directoryFields (encodeEntries entries) moreFollows) := by
    intro entries moreFollows
    have hentries := counted_encodeEntries entries
    have hlist := counted_tlv 0xa0 (by decide) (by decide)
      (counted_tlv 0x30 (by decide) (by decide) hentries)
    refine ⟨?_, ?_⟩
    · rw [length_directoryFields, hentries.length_eq]
    · rw [directoryFields]
      cases moreFollows with
      | false =>
        rw [if_neg Bool.false_ne_true, List.append_nil]
        exact hlist.sized
      | true => exact (hlist.append (counted_encodeBoolean true)).sized
  have heq : createFileDirectoryResponse invokeId continueAfter files =
      encodeFileDirectoryResponse invokeId
        (encodeEntries (directoryListing continueAfter files).1)
        (directoryListing continueAfter files).2 := rfl
  rw [heq, encodeFileDirectoryResponse_eq]
  exact confirmedPdu_respects_iff hmax hcap
    (counted_extendedField 0x4d (by decide) (hfields _ _))

/-! ## Appending -/

/-- The pieces are all there, or those that are fall short. -/
theorem appendPieces_cases (limit : Int) (pieces : List (List UInt8)) (buffer : List UInt8)
    (hb : (buffer.length : Int) ≤ limit) :
    ((buffer.length + pieces.flatten.length : Int) ≤ limit ∧
        appendPieces limit buffer pieces = buffer ++ pieces.flatten) ∨
      (limit < buffer.length + pieces.flatten.length ∧
        ∃ octets, appendPieces limit buffer pieces = buffer ++ octets ∧
          octets.length < pieces.flatten.length) := by
  induction pieces generalizing buffer with
  | nil =>
    rw [appendPieces, List.flatten_nil, List.append_nil, List.length_nil]
    exact .inl ⟨by omega, rfl⟩
  | cons piece pieces ih =>
    rw [appendPieces, List.flatten_cons, List.length_append]
    split
    case isTrue hroom =>
      have hlength : ((buffer ++ piece).length : Int) ≤ limit := by
        rw [List.length_append]
        omega
      rcases ih (buffer ++ piece) hlength with ⟨hle, heq⟩ | ⟨hlt, octets, heq, hshort⟩
      · rw [List.length_append] at hle
        exact .inl ⟨by omega, by rw [heq, List.append_assoc]⟩
      · rw [List.length_append] at hlt
        refine .inr ⟨by omega, piece ++ octets, by rw [heq, List.append_assoc], ?_⟩
        rw [List.length_append]
        omega
    case isFalse hroom =>
      refine .inr ⟨by omega, [], (List.append_nil buffer).symm, ?_⟩
      rw [List.length_nil]
      omega

theorem counted_writeResult (result : MmsDataAccessError) :
    Counted (writeResultSize result) (writeResultPieces result).flatten := by
  cases result with
  | success => exact counted_primitive 0x81 (by decide) (by decide) []
  | _ => exact counted_primitive 0x80 (by decide) (by decide) [_]

theorem counted_writeResults (results : List MmsDataAccessError) :
    Counted ((results.map writeResultSize).sum) (results.flatMap writeResultPieces).flatten := by
  induction results with
  | nil => exact ⟨rfl, fun _ => .nil⟩
  | cons result results ih =>
    rw [List.flatMap_cons, List.flatten_append]
    exact (counted_writeResult result).append ih

/-- What is encoded behind the header of the PDU. -/
def writeResponseContent (invokeId : UInt32) (results : List MmsDataAccessError) :
    List (List UInt8) :=
  encodeTL 0x02 (uInt32determineEncodedSize invokeId) :: encodeUInt32 invokeId ::
    encodeTL 0xa5 ((results.map writeResultSize).sum) :: results.flatMap writeResultPieces

theorem flatten_writeResponseContent (invokeId : UInt32) (results : List MmsDataAccessError) :
    (writeResponseContent invokeId results).flatten = confirmedContent invokeId
      (encodeTL 0xa5 ((results.map writeResultSize).sum) ++
        (results.flatMap writeResultPieces).flatten) := by
  simp only [writeResponseContent, confirmedContent, List.flatten_cons, length_encodeUInt32]

theorem counted_writeResponseContent (invokeId : UInt32) (results : List MmsDataAccessError) :
    Counted (uInt32determineEncodedSize invokeId + 2 +
        elementSize ((results.map writeResultSize).sum))
      (writeResponseContent invokeId results).flatten := by
  rw [flatten_writeResponseContent]
  exact counted_confirmedContent invokeId
    ((counted_writeResults results).element 0xa5 (by decide) (by decide))

theorem writeResponsePieces_eq (invokeId : UInt32) (results : List MmsDataAccessError) :
    writeResponsePieces invokeId results =
      encodeTL 0xa1 (writeResponseContent invokeId results).flatten.length ::
        writeResponseContent invokeId results := by
  rw [(counted_writeResponseContent invokeId results).length_eq]
  rfl

/-- The size of a response with these outcomes. -/
def writeResponseSize (invokeId : UInt32) (results : List MmsDataAccessError) : Nat :=
  confirmedSize invokeId (elementSize ((results.map writeResultSize).sum))

theorem sum_writeResultSize_le (results : List MmsDataAccessError) :
    (results.map writeResultSize).sum ≤ 3 * results.length := by
  induction results with
  | nil => exact le_rfl
  | cons result results ih =>
    have : writeResultSize result ≤ 3 := by cases result <;> decide
    simp only [List.map_cons, List.sum_cons, List.length_cons]
    omega

/-- A response that is cut off ends before its header says. -/
theorem not_sized_of_cut (limit : Int) (tag : UInt8) (ht : Tlv.IsShortTag tag)
    (pieces : List (List UInt8)) (hpieces : pieces.flatten.length < 65536)
    (hcut : limit < (encodeTL tag pieces.flatten.length).length + pieces.flatten.length) :
    ¬ Tlv.Sized (appendPieces limit [] (encodeTL tag pieces.flatten.length :: pieces)) := by
  intro h
  rw [appendPieces, List.nil_append] at h
  split at h
  case isTrue hroom =>
    rw [List.length_nil] at hroom
    rcases appendPieces_cases limit pieces (encodeTL tag pieces.flatten.length)
      (by omega) with ⟨hle, -⟩ | ⟨-, octets, heq, hshort⟩
    · omega
    · rw [heq] at h
      have hstated := (h.stated ht (lengthOctets_encodeLength hpieces)).1
      omega
  case isFalse => exact h.ne_nil rfl

/-- The response to a write, which is cut off where the buffer ends. -/
theorem encodeMmsWriteResponse_respects_iff (hmax : maxPduSize ≤ 16000) (limit : Int)
    (hlimit : maxPduSize ≤ limit) (hcap : limit ≤ maxSize) (results : WriteResults) :
    Respects maxPduSize maxSize (encodeMmsWriteResponse limit invokeId results.results) ↔
      (writeResponseSize invokeId results.results : Int) ≤ maxPduSize := by
  have hcounted := counted_writeResponseContent invokeId results.results
  have hlength := hcounted.length_element 0xa1
  rw [← hcounted.length_eq, List.length_append] at hlength
  have hsize : writeResponseSize invokeId results.results =
      elementSize (writeResponseContent invokeId results.results).flatten.length := by
    rw [hcounted.length_eq]
    rfl
  rw [encodeMmsWriteResponse, writeResponsePieces_eq, hsize]
  by_cases hroom :
      (elementSize (writeResponseContent invokeId results.results).flatten.length : Int) ≤ limit
  · rcases appendPieces_cases limit (encodeTL 0xa1
        (writeResponseContent invokeId results.results).flatten.length ::
          writeResponseContent invokeId results.results) []
        (by
          rw [List.length_nil]
          omega) with ⟨-, heq⟩ | ⟨hlt, -⟩
    · rw [heq, List.nil_append, List.flatten_cons]
      refine respects_iff_of_sized hmax (hlimit.trans hcap) ?_ fun hlt => ?_
      · rw [List.length_append, hlength]
      · rw [List.length_append, hlength, hcounted.length_eq] at hlt
        rw [hcounted.length_eq]
        exact hcounted.sized_element 0xa1 (by decide) (by decide) hlt
    · rw [List.flatten_cons, List.length_append, hlength, List.length_nil] at hlt
      omega
  · refine iff_of_false (fun h => ?_) fun hle => hroom (hle.trans hlimit)
    have hshort : (writeResponseContent invokeId results.results).flatten.length < 65536 := by
      have hsum := sum_writeResultSize_le results.results
      have hle := results.length_le
      have hid := uInt32determineEncodedSize_lt invokeId
      have hlist := determineLengthSize_le ((results.results.map writeResultSize).sum)
      rw [hcounted.length_eq, elementSize]
      omega
    refine not_sized_of_cut limit 0xa1 (by decide) _ hshort ?_ h.sized
    omega

/-- A full piece of a file does not fit into the greatest PDU that can be negotiated. -/
theorem full_chunk_exceeds :
    ¬ Respects (negotiatedPduSize none) responseMaxSize
      (createFileReadResponse 1 ⟨1, 0, 20000, none⟩ ⟨[], 0⟩ fun _ => 0) := by
  have hchunk : MmsServerConnection.fileChunk ⟨1, 0, 20000, none⟩ = (15985, true) := rfl
  have hcap : negotiatedPduSize none ≤ (responseMaxSize : Int) := by decide
  rw [createFileReadResponse_respects_iff (negotiatedPduSize_le none) hcap, hchunk]
  decide

/-- Nobody looks at the size: for every local detail that a client asks for, a report, the response
to a write and those with a piece of a file or with the files of a directory keep to what has been
negotiated exactly if what there is to be sent happens to be short enough. A report has to be one of
values that are counted as they are written, too, and one of several variables has to be one of a
single variable. -/
theorem pduBuilders_respect_iff (localDetail : Option UInt32) (invokeId : UInt32)
    (itemId : List UInt8) (value : MmsValue) (values : List MmsValue)
    (declarations : List VariableAccessSpecification) (results : WriteResults)
    (indication : MmsDataAccessError) (frsm : MmsFileReadStateMachine) (handle : FileHandle)
    (stale : Nat → UInt8) (continueAfter : Option (List UInt8)) (files : List DirectoryEntry) :
    (Respects (negotiatedPduSize localDetail) (negotiatedPduSize localDetail).toNat
        (informationReportSingleVariable itemId value) ↔
      (∀ l ∈ value.leaves, SizedExactly l) ∧
        (elementSize (elementSize (elementSize (elementSize (elementSize (elementSize
          itemId.length))) + elementSize (encodeAccessResultSize value))) : Int) ≤
            negotiatedPduSize localDetail) ∧
    (Respects (negotiatedPduSize localDetail) (negotiatedPduSize localDetail).toNat
        (informationReportVMDSpecific itemId values) ↔
      (∀ l ∈ MmsValue.leavesOf values, SizedExactly l) ∧
        (elementSize (elementSize (elementSize (elementSize itemId.length) +
          elementSize (elementsSize values))) : Int) ≤ negotiatedPduSize localDetail) ∧
    (Respects (negotiatedPduSize localDetail) (negotiatedPduSize localDetail).toNat
        (informationReportListOfVariables declarations values) ↔
      declarations.length = 1 ∧ (∀ l ∈ MmsValue.leavesOf values, SizedExactly l) ∧
        (elementSize (elementSize (listOfVariablesSize declarations +
          elementSize (elementsSize values))) : Int) ≤ negotiatedPduSize localDetail) ∧
    (Respects (negotiatedPduSize localDetail) responseMaxSize
        (encodeMmsWriteResponse responseMaxSize invokeId results.results) ↔
      (writeResponseSize invokeId results.results : Int) ≤ negotiatedPduSize localDetail) ∧
    (Respects (negotiatedPduSize localDetail) (negotiatedPduSize localDetail).toNat
        (sendWriteResponse (negotiatedPduSize localDetail) invokeId indication) ↔
      (writeResponseSize invokeId [indication] : Int) ≤ negotiatedPduSize localDetail) ∧
    (Respects (negotiatedPduSize localDetail) responseMaxSize
        (createFileReadResponse invokeId frsm handle stale) ↔
      (confirmedSize invokeId (1 + elementSize (fileReadResponseSize
        (MmsServerConnection.fileChunk frsm).1.toNat (MmsServerConnection.fileChunk frsm).2)) : Int) ≤
          negotiatedPduSize localDetail) ∧
    (Respects (negotiatedPduSize localDetail) responseMaxSize
        (createFileDirectoryResponse invokeId continueAfter files) ↔
      (directoryResponseSize invokeId
        (((directoryListing continueAfter files).1.map (·.overallEntrySize)).sum)
        (directoryListing continueAfter files).2 : Int) ≤ negotiatedPduSize localDetail) := by
  have hmax := negotiatedPduSize_le localDetail
  have hbuffer : negotiatedPduSize localDetail ≤ (responseMaxSize : Int) :=
    hmax.trans (by decide)
  refine ⟨informationReportSingleVariable_respects_iff hmax itemId value,
    informationReportVMDSpecific_respects_iff values hmax itemId,
    informationReportListOfVariables_respects_iff hmax declarations values,
    encodeMmsWriteResponse_respects_iff hmax responseMaxSize hbuffer le_rfl results,
    encodeMmsWriteResponse_respects_iff hmax (negotiatedPduSize localDetail) le_rfl
      (Int.self_le_toNat _) ⟨[indication], ?_⟩,
    createFileReadResponse_respects_iff hmax hbuffer frsm handle stale,
    createFileDirectoryResponse_respects_iff hmax hbuffer continueAfter files⟩
  rw [List.length_singleton]
  decide

end

end MmsServer

end Iec61850
