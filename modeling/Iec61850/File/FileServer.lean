import Iec61850.Lib.Memory
import Iec61850.Lib.Transition
import Mathlib.Data.List.Infix
import Mathlib.Logic.Function.Basic

/-! `mms_file_service.c`: the files that a connection has open, and what the server does with a
request to open, to read or to close one, once the request has been read. -/

namespace Iec61850.FileService

open Machine

/-- A file that is open for reading: what it holds, and where the next read starts. -/
structure FileHandle where
  content : List UInt8
  offset : Nat

/-- `FileSystem_readFile`. Nobody looks how much has been read: where the file has come to its end
the buffer keeps what it held before. -/
def FileHandle.readFile (handle : FileHandle) (maxSize : Nat) (stale : Nat → UInt8) :
    List UInt8 × FileHandle :=
  ((List.range maxSize).map fun k => handle.content[handle.offset + k]?.getD (stale k),
    { handle with offset := min (handle.offset + maxSize) handle.content.length })

structure MmsFileReadStateMachine where
  frsmId : UInt32
  readPosition : UInt32
  fileSize : UInt32
  fileHandle : Option FileHandle

/-- The part of a connection that the file services use. -/
structure MmsServerConnection where
  nextFrsmId : UInt32
  frsms : List MmsFileReadStateMachine

/-- Nothing is open yet in the five places that there are. -/
def MmsServerConnection.init : MmsServerConnection where
  nextFrsmId := 0
  frsms := List.replicate 5 ⟨0, 0, 0, none⟩

/-- What the file system has under a name. -/
abbrev FileSystem := List UInt8 → Option (List UInt8)

inductive FileError
  | fileOther | fileNonExistent | resourceOther
  deriving DecidableEq

inductive FileResponse
  | opened (frsmId fileSize : UInt32)
  | data (fileData : List UInt8) (moreFollows : Bool)
  | closed
  | error (error : FileError)
  deriving DecidableEq

/-- `CONFIG_MMS_MAXIMUM_PDU_SIZE - 15` -/
def maxFileChunkSize : UInt32 := 16000 - 15

namespace MmsServerConnection

def getFreeFrsm (connection : MmsServerConnection) : Option Nat :=
  connection.frsms.findIdx? fun frsm => frsm.fileHandle.isNone

/-- The first place with this id, and what is open there. -/
def getFrsm (connection : MmsServerConnection) (frsmId : UInt32) :
    Option (Nat × MmsFileReadStateMachine × FileHandle) :=
  connection.frsms.zipIdx.findSome? fun place => place.1.fileHandle.bind fun handle =>
    if place.1.frsmId = frsmId then some (place.2, place.1, handle) else none

def setFrsm (connection : MmsServerConnection) (i : Nat) (frsm : MmsFileReadStateMachine) :
    MmsServerConnection := { connection with frsms := connection.frsms.set i frsm }

/-- The position that the client asks for is noted, the file is read from its start. -/
def openFile (connection : MmsServerConnection) (fileSystem : FileSystem) (filename : List UInt8)
    (filePosition : UInt32) : FileResponse × MmsServerConnection :=
  match connection.getFreeFrsm with
  | none => (.error .resourceOther, connection)
  | some i =>
    match fileSystem filename with
    | none => (.error .fileNonExistent, connection)
    | some content =>
      let fileSize := UInt32.ofNat content.length
      (.opened connection.nextFrsmId fileSize,
        { connection.setFrsm i
            ⟨connection.nextFrsmId, filePosition, fileSize, some ⟨content, 0⟩⟩ with
          nextFrsmId := connection.nextFrsmId + 1 })

/-- How much is to be read, and whether more follows. -/
def fileChunk (frsm : MmsFileReadStateMachine) : UInt32 × Bool :=
  let bytesLeft := frsm.fileSize - frsm.readPosition
  if maxFileChunkSize < bytesLeft then (maxFileChunkSize, true) else (bytesLeft, false)

/-- `createFileReadResponse` with the file at hand; `stale` is what the response held before. -/
def readChunk (frsm : MmsFileReadStateMachine) (handle : FileHandle) (stale : Nat → UInt8) :
    FileResponse × MmsFileReadStateMachine :=
  let (fileChunkSize, moreFollows) := fileChunk frsm
  let (fileData, handle) := handle.readFile fileChunkSize.toNat stale
  (.data fileData moreFollows,
    { frsm with readPosition := frsm.readPosition + fileChunkSize, fileHandle := some handle })

def readFile (connection : MmsServerConnection) (frsmId : UInt32) (stale : Nat → UInt8) :
    FileResponse × MmsServerConnection :=
  match connection.getFrsm frsmId with
  | none => (.error .fileOther, connection)
  | some (i, frsm, handle) =>
    let (response, frsm) := readChunk frsm handle stale
    (response, connection.setFrsm i frsm)

/-- Nobody looks whether there is such a file. -/
def closeFile (connection : MmsServerConnection) (frsmId : UInt32) :
    Exec (FileResponse × MmsServerConnection) :=
  match connection.getFrsm frsmId with
  | none => .error .nullPointer
  | some (i, frsm, _) =>
    .ok (.closed, connection.setFrsm i { frsm with frsmId := 0, fileHandle := none })

end MmsServerConnection

/-- A request, with what there is in the file system or in the buffer of the response. -/
inductive FileEvent
  | fileOpen (fileSystem : FileSystem) (filename : List UInt8) (filePosition : UInt32)
  | fileRead (frsmId : UInt32) (stale : Nat → UInt8)
  | fileClose (frsmId : UInt32)

def MmsServerConnection.serve (connection : MmsServerConnection) :
    FileEvent → Exec (FileResponse × MmsServerConnection)
  | .fileOpen fileSystem filename filePosition =>
    .ok (connection.openFile fileSystem filename filePosition)
  | .fileRead frsmId stale => .ok (connection.readFile frsmId stale)
  | .fileClose frsmId => connection.closeFile frsmId

/-- What a client knows of a file that it has opened: what the file holds, where it wants to read
from, and the responses so far. -/
structure OpenFile where
  content : List UInt8
  initialPosition : Nat
  responses : List (List UInt8 × Bool)

def OpenFile.received (file : OpenFile) : List UInt8 := (file.responses.map Prod.fst).flatten

def OpenFile.wanted (file : OpenFile) : List UInt8 := file.content.drop file.initialPosition

/-- The file comes in order, and the response that says so is the last one. -/
structure OpenFile.Delivered (file : OpenFile) : Prop where
  inOrder : file.received <+: file.wanted
  last : ∀ k fileData moreFollows, file.responses[k]? = some (fileData, moreFollows) →
    (moreFollows = false ↔
      ((file.responses.take (k + 1)).map Prod.fst).flatten = file.wanted)
  progress : ∀ fileData, (fileData, true) ∈ file.responses → fileData ≠ []

/-- A connection with the files that its client has open, by their ids. -/
structure FileHistory where
  connection : MmsServerConnection
  files : UInt32 → Option OpenFile

namespace FileHistory

def record (files : UInt32 → Option OpenFile) : FileEvent → FileResponse → UInt32 → Option OpenFile
  | .fileOpen fileSystem filename filePosition, .opened frsmId _ =>
    Function.update files frsmId
      ((fileSystem filename).map fun content => ⟨content, filePosition.toNat, []⟩)
  | .fileRead frsmId _, .data fileData moreFollows =>
    Function.update files frsmId ((files frsmId).map fun file =>
      { file with responses := file.responses ++ [(fileData, moreFollows)] })
  | .fileClose frsmId, .closed => Function.update files frsmId none
  | _, _ => files

def Step (h : FileHistory) (e : FileEvent) (h' : FileHistory) : Prop :=
  ∃ response connection, h.connection.serve e = .ok (response, connection) ∧
    h' = ⟨connection, record h.files e response⟩

def start : FileHistory := ⟨.init, fun _ => none⟩

/-- The file at the place `i` is open under this id. -/
def OpenAt (connection : MmsServerConnection) (i : Nat) (frsm : MmsFileReadStateMachine)
    (handle : FileHandle) : Prop :=
  connection.frsms[i]? = some frsm ∧ frsm.fileHandle = some handle

def IsOpen (connection : MmsServerConnection) (frsmId : UInt32) : Prop :=
  ∃ i frsm handle, OpenAt connection i frsm handle ∧ frsm.frsmId = frsmId

/-- From the position on the file holds what it holds from its start on, and the id that it is
opened under is not in use. -/
structure OpensRight (connection : MmsServerConnection) (content : List UInt8)
    (filePosition : UInt32) : Prop where
  small : content.length < 4294967296
  within : filePosition.toNat ≤ content.length
  repeats : content.take (content.length - filePosition.toNat) =
    content.drop filePosition.toNat
  fresh : ¬ IsOpen connection connection.nextFrsmId

/-- What a client may do: it closes only what is open. -/
def Proper (h : FileHistory) : FileEvent → Prop
  | .fileOpen fileSystem filename filePosition => ∀ content, fileSystem filename = some content →
    h.connection.getFreeFrsm ≠ none → OpensRight h.connection content filePosition
  | .fileRead _ _ => True
  | .fileClose frsmId => IsOpen h.connection frsmId

/-- The request is about this id. -/
def Concerns : FileEvent → UInt32 → Prop
  | .fileOpen _ _ _, _ => False
  | .fileRead frsmId _, id => frsmId = id
  | .fileClose frsmId, id => frsmId = id

/-- What holds of the transfers at any time. -/
structure Transferred (h : FileHistory) : Prop where
  delivered : ∀ id file, h.files id = some file → file.Delivered
  known : ∀ id, (∃ file, h.files id = some file) ↔ IsOpen h.connection id
  distinct : ∀ i j frsm frsm' handle handle', OpenAt h.connection i frsm handle →
    OpenAt h.connection j frsm' handle' → frsm.frsmId = frsm'.frsmId → i = j
  others : ∀ e h', Step h e h' → ∀ i frsm handle, OpenAt h.connection i frsm handle →
    ¬ Concerns e frsm.frsmId → OpenAt h'.connection i frsm handle
  refuses : ∀ id, ¬ IsOpen h.connection id → ∀ stale,
    h.connection.serve (.fileRead id stale) = .ok (.error .fileOther, h.connection)
  answers : ∀ e, h.Proper e → ∃ h', Step h e h'

/-! ## Places -/

section Places

variable {connection : MmsServerConnection} {i j : Nat} {frsm frsm' : MmsFileReadStateMachine}
  {handle handle' : FileHandle} {frsmId : UInt32}

theorem getFrsm_eq_some (h : connection.getFrsm frsmId = some (i, frsm, handle)) :
    OpenAt connection i frsm handle ∧ frsm.frsmId = frsmId := by
  obtain ⟨⟨frsm', j⟩, hmem, h⟩ := List.exists_of_findSome?_eq_some h
  obtain ⟨handle', hhandle, h⟩ := Option.bind_eq_some_iff.mp h
  obtain ⟨hid, h⟩ := Option.ite_none_right_eq_some.mp h
  cases h
  exact ⟨⟨List.mem_zipIdx_iff_getElem?.mp hmem, hhandle⟩, hid⟩

theorem getFrsm_eq_none_iff : connection.getFrsm frsmId = none ↔ ¬ IsOpen connection frsmId := by
  rw [MmsServerConnection.getFrsm, List.findSome?_eq_none_iff]
  constructor
  · rintro h ⟨i, frsm, handle, ⟨hi, hhandle⟩, hid⟩
    have hnone := h (frsm, i) (List.mem_zipIdx_iff_getElem?.mpr hi)
    rw [hhandle, Option.bind_some, if_pos hid] at hnone
    cases hnone
  · rintro h ⟨frsm, i⟩ hmem
    cases hhandle : frsm.fileHandle with
    | none => rfl
    | some handle =>
      refine if_neg fun hid => h ⟨i, frsm, handle, ⟨?_, hhandle⟩, hid⟩
      exact List.mem_zipIdx_iff_getElem?.mp hmem

theorem getFreeFrsm_eq_some (h : connection.getFreeFrsm = some i) :
    ∃ frsm, connection.frsms[i]? = some frsm ∧ frsm.fileHandle = none := by
  obtain ⟨hlt, hfree, -⟩ := List.findIdx?_eq_some_iff_getElem.mp h
  exact ⟨_, List.getElem?_eq_getElem hlt, Option.isNone_iff_eq_none.mp hfree⟩

theorem OpenAt.unique (h : OpenAt connection i frsm handle)
    (h' : OpenAt connection i frsm' handle') : frsm = frsm' ∧ handle = handle' := by
  obtain rfl := Option.some.inj (h.1.symm.trans h'.1)
  exact ⟨rfl, Option.some.inj (h.2.symm.trans h'.2)⟩

/-- A place is what has been put there, the others are what they were. -/
theorem openAt_setFrsm (hi : i < connection.frsms.length) :
    OpenAt (connection.setFrsm i frsm) j frsm' handle' ↔
      j = i ∧ frsm' = frsm ∧ frsm.fileHandle = some handle' ∨
        j ≠ i ∧ OpenAt connection j frsm' handle' := by
  rw [OpenAt, OpenAt, MmsServerConnection.setFrsm, List.getElem?_set]
  by_cases hj : i = j
  · rw [if_pos hj, if_pos hi]
    constructor
    · rintro ⟨hsome, hhandle⟩
      obtain rfl := Option.some.inj hsome
      exact .inl ⟨hj.symm, rfl, hhandle⟩
    · rintro (⟨-, rfl, hhandle⟩ | ⟨hne, -⟩)
      · exact ⟨rfl, hhandle⟩
      · exact absurd hj.symm hne
  · rw [if_neg hj]
    constructor
    · exact fun h => .inr ⟨Ne.symm hj, h⟩
    · rintro (⟨heq, -⟩ | ⟨-, h⟩)
      · exact absurd heq.symm hj
      · exact h

theorem OpenAt.lt (h : OpenAt connection i frsm handle) : i < connection.frsms.length :=
  (List.getElem?_eq_some_iff.mp h.1).1

end Places

end FileHistory

end Iec61850.FileService
