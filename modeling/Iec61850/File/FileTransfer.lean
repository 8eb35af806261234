import Iec61850.File.FileServer

/-! What the reads of a file return, for every interleaving of the requests of a connection. -/

namespace Iec61850.FileService

/-- The place serves the file: so much of it has been returned as has been read. -/
structure Serves (frsm : MmsFileReadStateMachine) (handle : FileHandle) (file : OpenFile) :
    Prop where
  content : handle.content = file.content
  small : file.content.length < 4294967296
  repeats : file.wanted = file.content.take file.wanted.length
  size : frsm.fileSize.toNat = file.content.length
  within : file.initialPosition ≤ file.content.length
  position : frsm.readPosition.toNat = file.initialPosition + file.received.length
  offset : handle.offset = file.received.length
  bound : file.received.length ≤ file.wanted.length
  received : file.received = file.content.take file.received.length
  delivered : file.Delivered

namespace Serves

variable {frsm : MmsFileReadStateMachine} {handle : FileHandle} {file : OpenFile}

theorem length_wanted (file : OpenFile) :
    file.wanted.length = file.content.length - file.initialPosition := List.length_drop

theorem start {content : List UInt8} {filePosition frsmId : UInt32}
    {connection : MmsServerConnection}
    (h : FileHistory.OpensRight connection content filePosition) :
    Serves ⟨frsmId, filePosition, UInt32.ofNat content.length, some ⟨content, 0⟩⟩ ⟨content, 0⟩
      ⟨content, filePosition.toNat, []⟩ where
  content := rfl
  small := h.small
  repeats := by
    rw [length_wanted]
    exact h.repeats.symm
  size := UInt32.toNat_ofNat_of_lt' h.small
  within := h.within
  position := rfl
  offset := rfl
  bound := Nat.zero_le _
  received := rfl
  delivered := ⟨List.nil_prefix, fun k _ _ hk => (nomatch hk), fun _ hmem => (nomatch hmem)⟩

/-- What is left to be read. -/
theorem bytesLeft (h : Serves frsm handle file) :
    (frsm.fileSize - frsm.readPosition).toNat = file.wanted.length - file.received.length := by
  have hle : frsm.readPosition ≤ frsm.fileSize := by
    rw [UInt32.le_iff_toNat_le, h.size, h.position]
    have := h.bound
    have := h.within
    rw [length_wanted] at *
    omega
  rw [UInt32.toNat_sub_of_le _ _ hle, h.size, h.position, length_wanted]
  omega

theorem readFile_eq {size : Nat} (hsize : handle.offset + size ≤ handle.content.length)
    (stale : Nat → UInt8) : handle.readFile size stale =
      ((handle.content.drop handle.offset).take size,
        { handle with offset := handle.offset + size }) := by
  rw [FileHandle.readFile, min_eq_left hsize]
  congr 1
  apply List.ext_getElem
  · simp
    omega
  · intro k hk hk'
    simp only [List.length_map, List.length_range] at hk
    have hin : handle.offset + k < handle.content.length := by omega
    simp [List.getElem?_eq_getElem hin]

/-- What a read takes, and when it is the last one. -/
theorem fileChunk_spec (h : Serves frsm handle file) :
    ∃ size moreFollows, MmsServerConnection.fileChunk frsm = (size, moreFollows) ∧
      file.received.length + size.toNat ≤ file.wanted.length ∧
      (moreFollows = false ↔ file.received.length + size.toNat = file.wanted.length) ∧
      (moreFollows = true → 0 < size.toNat) := by
  have hleft := h.bytesLeft
  have hbound := h.bound
  have hmax : maxFileChunkSize.toNat = 15985 := rfl
  rw [MmsServerConnection.fileChunk]
  split
  case isTrue hlt =>
    rw [UInt32.lt_iff_toNat_lt, hleft, hmax] at hlt
    refine ⟨_, _, rfl, ?_, ?_, fun _ => ?_⟩
    · omega
    · exact iff_of_false (fun hf => Bool.noConfusion hf) (by omega)
    · rw [hmax]
      decide
  case isFalse =>
    refine ⟨_, _, rfl, ?_, ?_, fun hf => Bool.noConfusion hf⟩
    · omega
    · exact iff_of_true rfl (by omega)

theorem received_append (responses : List (List UInt8 × Bool)) (fileData : List UInt8)
    (moreFollows : Bool) :
    ((responses ++ [(fileData, moreFollows)]).map Prod.fst).flatten =
      (responses.map Prod.fst).flatten ++ fileData := by
  rw [List.map_append, List.flatten_append]
  simp

/-- One more response: the data that come next, and more to follow exactly where they are not the
last. -/
theorem delivered_append (h : file.Delivered) {fileData : List UInt8} {moreFollows : Bool}
    (hinit : file.received ++ fileData <+: file.wanted)
    (hlast : moreFollows = false ↔ file.received ++ fileData = file.wanted)
    (hsome : moreFollows = true → fileData ≠ []) :
    OpenFile.Delivered { file with responses := file.responses ++ [(fileData, moreFollows)] } where
  inOrder := by
    rw [OpenFile.received, received_append]
    exact hinit
  last := by
    intro k data more hk
    by_cases hlt : k < file.responses.length
    · rw [List.getElem?_append_left hlt] at hk
      rw [List.take_append_of_le_length hlt]
      exact h.last k data more hk
    · rw [List.getElem?_append_right (not_lt.mp hlt), List.getElem?_singleton] at hk
      split at hk
      case isTrue hzero =>
        cases hk
        rw [List.take_of_length_le (by simp; omega), received_append]
        exact hlast
      case isFalse => cases hk
  progress := by
    intro data hmem
    rcases List.mem_append.mp hmem with hold | hnew
    · exact h.progress data hold
    · cases List.mem_singleton.mp hnew
      exact hsome rfl

/-- A read returns what comes next, and the place serves on. -/
theorem readChunk (h : Serves frsm handle file) (stale : Nat → UInt8) :
    ∃ fileData moreFollows frsm' handle',
      MmsServerConnection.readChunk frsm handle stale = (.data fileData moreFollows, frsm') ∧
        frsm'.fileHandle = some handle' ∧ frsm'.frsmId = frsm.frsmId ∧
        Serves frsm' handle'
          { file with responses := file.responses ++ [(fileData, moreFollows)] } := by
  obtain ⟨size, moreFollows, hchunk, hle, hlast, hsome⟩ := h.fileChunk_spec
  have hwithin : handle.offset + size.toNat ≤ handle.content.length := by
    rw [h.offset, h.content]
    have := length_wanted file
    omega
  have hread := readFile_eq hwithin stale
  have hcontent : (file.received ++ (handle.content.drop handle.offset).take size.toNat) =
      file.content.take (file.received.length + size.toNat) := by
    rw [List.take_add, ← h.received, h.content, h.offset]
  have hlength : ((handle.content.drop handle.offset).take size.toNat).length = size.toNat := by
    rw [List.length_take, List.length_drop]
    omega
  have hchunked : MmsServerConnection.readChunk frsm handle stale =
      (.data ((handle.content.drop handle.offset).take size.toNat) moreFollows,
        { frsm with
          readPosition := frsm.readPosition + size
          fileHandle := some { handle with offset := handle.offset + size.toNat } }) := by
    rw [MmsServerConnection.readChunk, hchunk]
    dsimp only
    rw [hread]
  have hreceived : OpenFile.received { file with responses := file.responses ++
      [((handle.content.drop handle.offset).take size.toNat, moreFollows)] } =
      file.received ++ (handle.content.drop handle.offset).take size.toNat := received_append _ _ _
  have hsum : (file.received ++ (handle.content.drop handle.offset).take size.toNat).length =
      file.received.length + size.toNat := by
    rw [List.length_append, hlength]
  have hwanted : file.received ++ (handle.content.drop handle.offset).take size.toNat =
      file.wanted.take (file.received.length + size.toNat) := by
    rw [hcontent, h.repeats, List.take_take, min_eq_left hle]
  refine ⟨_, moreFollows, _, _, hchunked, rfl, rfl, ?_⟩
  constructor
  case content => exact h.content
  case small => exact h.small
  case repeats => exact h.repeats
  case size => exact h.size
  case within => exact h.within
  case position =>
    have hsmall := h.small
    have hwithin' := h.within
    have hlen := length_wanted file
    rw [hreceived, hsum]
    change (frsm.readPosition + size).toNat = file.initialPosition + _
    rw [UInt32.toNat_add, h.position, Nat.mod_eq_of_lt (by omega)]
    omega
  case offset =>
    rw [hreceived, hsum, ← h.offset]
  case bound =>
    rw [hreceived, hsum]
    exact hle
  case received =>
    rw [hreceived, hsum]
    exact hcontent
  case delivered =>
    refine delivered_append h.delivered ?_ ?_ ?_
    · rw [hwanted]
      exact List.take_prefix _ _
    · rw [hlast]
      constructor
      · intro heq
        rw [hwanted, heq, List.take_length]
      · intro heq
        rw [← hsum, heq]
    · intro hmore hnil
      rw [hnil] at hlength
      exact (hsome hmore).ne hlength

end Serves

namespace FileHistory

/-- Each place that is open serves the file that the client knows by its id, and the client knows no
others. -/
structure Consistent (h : FileHistory) : Prop where
  serves : ∀ i frsm handle, OpenAt h.connection i frsm handle →
    ∃ file, h.files frsm.frsmId = some file ∧ Serves frsm handle file
  known : ∀ id file, h.files id = some file → IsOpen h.connection id
  distinct : ∀ i j frsm frsm' handle handle', OpenAt h.connection i frsm handle →
    OpenAt h.connection j frsm' handle' → frsm.frsmId = frsm'.frsmId → i = j

variable {h h' : FileHistory} {e : FileEvent}

theorem not_openAt_init {i : Nat} {frsm : MmsFileReadStateMachine} {handle : FileHandle} :
    ¬ OpenAt .init i frsm handle := by
  rintro ⟨hi, hhandle⟩
  obtain rfl := List.eq_of_mem_replicate (List.mem_of_getElem? hi)
  cases hhandle

theorem Consistent.start : FileHistory.start.Consistent where
  serves := fun _ _ _ hopen => absurd hopen not_openAt_init
  known := fun _ _ hknown => nomatch hknown
  distinct := fun _ _ _ _ _ _ hopen => absurd hopen not_openAt_init

/-- A place serves a file under an id that no other place has. -/
theorem Consistent.put (hc : h.Consistent) {connection : MmsServerConnection} {i : Nat}
    {frsm : MmsFileReadStateMachine} {handle : FileHandle} {file : OpenFile}
    (hplaces : ∀ j frsm' handle', OpenAt connection j frsm' handle' ↔
      j = i ∧ frsm' = frsm ∧ frsm.fileHandle = some handle' ∨
        j ≠ i ∧ OpenAt h.connection j frsm' handle')
    (hhandle : frsm.fileHandle = some handle) (hserves : Serves frsm handle file)
    (hsame : ∀ frsm' handle', OpenAt h.connection i frsm' handle' → frsm'.frsmId = frsm.frsmId)
    (halone : ∀ j frsm' handle', j ≠ i → OpenAt h.connection j frsm' handle' →
      frsm'.frsmId ≠ frsm.frsmId) :
    Consistent ⟨connection, Function.update h.files frsm.frsmId (some file)⟩ where
  serves := by
    intro j frsm' handle' hopen
    rcases (hplaces j frsm' handle').mp hopen with ⟨-, rfl, hsome⟩ | ⟨hne, hold⟩
    · obtain rfl := Option.some.inj (hhandle.symm.trans hsome)
      exact ⟨file, Function.update_self .., hserves⟩
    · obtain ⟨file', hknown, hserves'⟩ := hc.serves j frsm' handle' hold
      refine ⟨file', ?_, hserves'⟩
      rw [← hknown]
      exact Function.update_of_ne (halone j frsm' handle' hne hold) ..
  known := by
    intro id file' hknown
    by_cases hid : id = frsm.frsmId
    · exact ⟨i, frsm, handle, (hplaces i frsm handle).mpr (.inl ⟨rfl, rfl, hhandle⟩), hid.symm⟩
    · have hold : h.files id = some file' := by
        rw [← hknown]
        exact (Function.update_of_ne hid ..).symm
      obtain ⟨j, frsm', handle', hopen, hid'⟩ := hc.known id file' hold
      have hne : j ≠ i := by
        rintro rfl
        exact hid (hid'.symm.trans (hsame frsm' handle' hopen))
      exact ⟨j, frsm', handle', (hplaces j frsm' handle').mpr (.inr ⟨hne, hopen⟩), hid'⟩
  distinct := by
    intro j k frsm1 frsm2 handle1 handle2 h1 h2 heq
    rcases (hplaces j frsm1 handle1).mp h1 with ⟨rfl, rfl, -⟩ | ⟨hj, hold1⟩
    · rcases (hplaces k frsm2 handle2).mp h2 with ⟨rfl, -, -⟩ | ⟨hk, hold2⟩
      · rfl
      · exact absurd heq.symm (halone k frsm2 handle2 hk hold2)
    · rcases (hplaces k frsm2 handle2).mp h2 with ⟨rfl, rfl, -⟩ | ⟨hk, hold2⟩
      · exact absurd heq (halone j frsm1 handle1 hj hold1)
      · exact hc.distinct j k frsm1 frsm2 handle1 handle2 hold1 hold2 heq

/-- A file is put into a free place, under an id that is not in use. -/
theorem Consistent.open (hc : h.Consistent) {i : Nat} {content : List UInt8}
    {filePosition : UInt32} (hfree : h.connection.getFreeFrsm = some i)
    (hright : OpensRight h.connection content filePosition) (next : UInt32) :
    Consistent ⟨{ h.connection.setFrsm i ⟨h.connection.nextFrsmId, filePosition,
        UInt32.ofNat content.length, some ⟨content, 0⟩⟩ with nextFrsmId := next },
      Function.update h.files h.connection.nextFrsmId
        (some ⟨content, filePosition.toNat, []⟩)⟩ := by
  obtain ⟨frsm0, hi, hnone⟩ := getFreeFrsm_eq_some hfree
  have hlt := (List.getElem?_eq_some_iff.mp hi).1
  let frsm : MmsFileReadStateMachine := ⟨h.connection.nextFrsmId, filePosition,
    UInt32.ofNat content.length, some ⟨content, 0⟩⟩
  have hplaces : ∀ j frsm' handle',
      OpenAt { h.connection.setFrsm i frsm with nextFrsmId := next } j frsm' handle' ↔
        j = i ∧ frsm' = frsm ∧ frsm.fileHandle = some handle' ∨
          j ≠ i ∧ OpenAt h.connection j frsm' handle' := fun _ _ _ => openAt_setFrsm hlt
  refine hc.put hplaces rfl (.start hright) ?_ ?_
  · rintro frsm' handle' ⟨hi', hsome⟩
    obtain rfl := Option.some.inj (hi.symm.trans hi')
    cases hnone.symm.trans hsome
  · intro j frsm' handle' _ hopen hid
    exact hright.fresh ⟨j, frsm', handle', hopen, hid⟩

/-- A place changes that keeps its id, and the file that is known by it. -/
theorem Consistent.read (hc : h.Consistent) {i : Nat} {frsm frsm' : MmsFileReadStateMachine}
    {handle handle' : FileHandle} {file : OpenFile} (hopen : OpenAt h.connection i frsm handle)
    (hid : frsm'.frsmId = frsm.frsmId) (hhandle : frsm'.fileHandle = some handle')
    (hserves : Serves frsm' handle' file) :
    Consistent ⟨h.connection.setFrsm i frsm',
      Function.update h.files frsm.frsmId (some file)⟩ := by
  rw [← hid]
  refine hc.put (fun j f hd => openAt_setFrsm hopen.lt) hhandle hserves ?_ ?_
  · intro f hd hi
    rw [(hi.unique hopen).1, hid]
  · intro j f hd hne hj heq
    exact hne (hc.distinct j i f frsm hd handle hj hopen (heq.trans hid))

/-- A place is given up. -/
theorem Consistent.close (hc : h.Consistent) {i : Nat} {frsm frsm' : MmsFileReadStateMachine}
    {handle : FileHandle} (hopen : OpenAt h.connection i frsm handle)
    (hhandle : frsm'.fileHandle = none) :
    Consistent ⟨h.connection.setFrsm i frsm', Function.update h.files frsm.frsmId none⟩ := by
  have hplaces (j : Nat) (f : MmsFileReadStateMachine) (hd : FileHandle) :
      OpenAt (h.connection.setFrsm i frsm') j f hd ↔ j ≠ i ∧ OpenAt h.connection j f hd := by
    rw [openAt_setFrsm hopen.lt, hhandle]
    simp
  have hother {j : Nat} {f : MmsFileReadStateMachine} {hd : FileHandle} (hne : j ≠ i)
      (hj : OpenAt h.connection j f hd) : f.frsmId ≠ frsm.frsmId :=
    fun heq => hne (hc.distinct j i f frsm hd handle hj hopen heq)
  refine ⟨fun j f hd hj => ?_, fun id file hknown => ?_, fun j k f g hd hd' hj hk heq => ?_⟩
  · obtain ⟨hne, hold⟩ := (hplaces j f hd).mp hj
    obtain ⟨file, hknown, hserves⟩ := hc.serves j f hd hold
    refine ⟨file, ?_, hserves⟩
    rw [← hknown]
    exact Function.update_of_ne (hother hne hold) ..
  · by_cases hid : id = frsm.frsmId
    · rw [hid] at hknown
      cases (Function.update_self ..).symm.trans hknown
    · have hold : h.files id = some file := by
        rw [← hknown]
        exact (Function.update_of_ne hid ..).symm
      obtain ⟨j, f, hd, hj, hid'⟩ := hc.known id file hold
      have hne : j ≠ i := by
        rintro rfl
        exact hid (hid'.symm.trans (congrArg _ (hj.unique hopen).1))
      exact ⟨j, f, hd, (hplaces j f hd).mpr ⟨hne, hj⟩, hid'⟩
  · obtain ⟨-, hj⟩ := (hplaces j f hd).mp hj
    obtain ⟨-, hk⟩ := (hplaces k g hd').mp hk
    exact hc.distinct j k f g hd hd' hj hk heq

/-! ## Runs -/

theorem openFile_cases (connection : MmsServerConnection) (fileSystem : FileSystem)
    (filename : List UInt8) (filePosition : UInt32) :
    (∃ error, connection.openFile fileSystem filename filePosition = (.error error, connection)) ∨
      ∃ i content, connection.getFreeFrsm = some i ∧ fileSystem filename = some content ∧
        connection.openFile fileSystem filename filePosition =
          (.opened connection.nextFrsmId (UInt32.ofNat content.length),
            { connection.setFrsm i ⟨connection.nextFrsmId, filePosition,
                UInt32.ofNat content.length, some ⟨content, 0⟩⟩ with
              nextFrsmId := connection.nextFrsmId + 1 }) := by
  rw [MmsServerConnection.openFile]
  cases hfree : connection.getFreeFrsm with
  | none => exact .inl ⟨_, rfl⟩
  | some i =>
    cases hcontent : fileSystem filename with
    | none => exact .inl ⟨_, rfl⟩
    | some content => exact .inr ⟨i, content, rfl, rfl, rfl⟩

section Places

variable {connection : MmsServerConnection} {frsmId : UInt32} {i : Nat}
  {frsm : MmsFileReadStateMachine} {handle : FileHandle}

theorem readFile_open (hfrsm : connection.getFrsm frsmId = some (i, frsm, handle))
    (stale : Nat → UInt8) : connection.readFile frsmId stale =
      ((MmsServerConnection.readChunk frsm handle stale).1,
        connection.setFrsm i (MmsServerConnection.readChunk frsm handle stale).2) := by
  rw [MmsServerConnection.readFile, hfrsm]

theorem closeFile_open (hfrsm : connection.getFrsm frsmId = some (i, frsm, handle)) :
    connection.closeFile frsmId =
      .ok (.closed, connection.setFrsm i { frsm with frsmId := 0, fileHandle := none }) := by
  rw [MmsServerConnection.closeFile, hfrsm]

end Places

theorem Consistent.step (hc : h.Consistent) (hg : h.Proper e) (hs : Step h e h') :
    h'.Consistent := by
  obtain ⟨response, connection, hserve, rfl⟩ := hs
  cases e with
  | fileOpen fileSystem filename filePosition =>
    have hopened := Except.ok.inj hserve
    rcases openFile_cases h.connection fileSystem filename filePosition with
      ⟨error, hrefused⟩ | ⟨i, content, hfree, hcontent, hok⟩
    · cases hrefused.symm.trans hopened
      exact hc
    · cases hok.symm.trans hopened
      have hright := hg content hcontent (by rw [hfree]; exact Option.some_ne_none i)
      have hnext := hc.open hfree hright (h.connection.nextFrsmId + 1)
      rw [record, hcontent]
      exact hnext
  | fileRead frsmId stale =>
    have hread := Except.ok.inj hserve
    cases hfrsm : h.connection.getFrsm frsmId with
    | none =>
      rw [MmsServerConnection.readFile, hfrsm] at hread
      cases hread
      exact hc
    | some place =>
      obtain ⟨i, frsm, handle⟩ := place
      obtain ⟨hopen, rfl⟩ := getFrsm_eq_some hfrsm
      obtain ⟨file, hknown, hserves⟩ := hc.serves i frsm handle hopen
      obtain ⟨fileData, moreFollows, frsm', handle', hchunk, hhandle, hid, hnext⟩ :=
        hserves.readChunk stale
      rw [readFile_open hfrsm, hchunk] at hread
      cases hread
      rw [record, hknown]
      exact hc.read hopen hid hhandle hnext
  | fileClose frsmId =>
    change h.connection.closeFile frsmId = _ at hserve
    cases hfrsm : h.connection.getFrsm frsmId with
    | none => exact absurd hg (getFrsm_eq_none_iff.mp hfrsm)
    | some place =>
      obtain ⟨i, frsm, handle⟩ := place
      obtain ⟨hopen, rfl⟩ := getFrsm_eq_some hfrsm
      rw [closeFile_open hfrsm] at hserve
      cases Except.ok.inj hserve
      exact hc.close hopen rfl

/-- A request leaves alone what it is not about. -/
theorem openAt_of_step (hs : Step h e h') {i : Nat} {frsm : MmsFileReadStateMachine}
    {handle : FileHandle} (hopen : OpenAt h.connection i frsm handle)
    (hother : ¬ Concerns e frsm.frsmId) : OpenAt h'.connection i frsm handle := by
  obtain ⟨response, connection, hserve, rfl⟩ := hs
  have hplace {j : Nat} {frsm0 frsm' : MmsFileReadStateMachine} {handle0 : FileHandle}
      {id : UInt32} (hj : h.connection.getFrsm id = some (j, frsm0, handle0))
      (hne : id ≠ frsm.frsmId) : OpenAt (h.connection.setFrsm j frsm') i frsm handle := by
    obtain ⟨hopen', rfl⟩ := getFrsm_eq_some hj
    refine (openAt_setFrsm hopen'.lt).mpr (.inr ⟨?_, hopen⟩)
    rintro rfl
    exact hne (congrArg _ (hopen'.unique hopen).1)
  cases e with
  | fileOpen fileSystem filename filePosition =>
    have hopened := Except.ok.inj hserve
    rcases openFile_cases h.connection fileSystem filename filePosition with
      ⟨error, hrefused⟩ | ⟨j, content, hfree, -, hok⟩
    · cases hrefused.symm.trans hopened
      exact hopen
    · cases hok.symm.trans hopened
      obtain ⟨frsm0, hj, hnone⟩ := getFreeFrsm_eq_some hfree
      refine (openAt_setFrsm (List.getElem?_eq_some_iff.mp hj).1).mpr (.inr ⟨?_, hopen⟩)
      rintro rfl
      obtain rfl := Option.some.inj (hj.symm.trans hopen.1)
      cases hnone.symm.trans hopen.2
  | fileRead frsmId stale =>
    have hread := Except.ok.inj hserve
    cases hfrsm : h.connection.getFrsm frsmId with
    | none =>
      rw [MmsServerConnection.readFile, hfrsm] at hread
      cases hread
      exact hopen
    | some place =>
      rw [readFile_open hfrsm] at hread
      cases hread
      exact hplace hfrsm hother
  | fileClose frsmId =>
    change h.connection.closeFile frsmId = _ at hserve
    cases hfrsm : h.connection.getFrsm frsmId with
    | none =>
      rw [MmsServerConnection.closeFile, hfrsm] at hserve
      cases hserve
    | some place =>
      rw [closeFile_open hfrsm] at hserve
      cases Except.ok.inj hserve
      exact hplace hfrsm hother

theorem Consistent.transferred (hc : h.Consistent) : h.Transferred where
  delivered := by
    intro id file hknown
    obtain ⟨i, frsm, handle, hopen, hid⟩ := hc.known id file hknown
    obtain ⟨file', hknown', hserves⟩ := hc.serves i frsm handle hopen
    rw [hid, hknown] at hknown'
    obtain rfl := Option.some.inj hknown'
    exact hserves.delivered
  known := by
    intro id
    constructor
    · rintro ⟨file, hknown⟩
      exact hc.known id file hknown
    · rintro ⟨i, frsm, handle, hopen, rfl⟩
      obtain ⟨file, hknown, -⟩ := hc.serves i frsm handle hopen
      exact ⟨file, hknown⟩
  distinct := hc.distinct
  others := fun _ _ hs _ _ _ hopen hother => openAt_of_step hs hopen hother
  refuses := by
    intro id hclosed stale
    rw [MmsServerConnection.serve, MmsServerConnection.readFile, getFrsm_eq_none_iff.mpr hclosed]
  answers := by
    intro e hg
    cases e with
    | fileOpen fileSystem filename filePosition => exact ⟨_, _, _, rfl, rfl⟩
    | fileRead frsmId stale => exact ⟨_, _, _, rfl, rfl⟩
    | fileClose frsmId =>
      cases hfrsm : h.connection.getFrsm frsmId with
      | none => exact absurd hg (getFrsm_eq_none_iff.mp hfrsm)
      | some place => exact ⟨_, _, _, closeFile_open hfrsm, rfl⟩

/-- In every run in which files are opened at positions from which on they hold what they hold from
the start on, under ids that are not in use, and in which only open files are closed, every file
comes as its client wants it. -/
theorem run_transferred {events : List FileEvent}
    (hr : Transition.Run Step Proper FileHistory.start events h) : h.Transferred := by
  have hinv : h.Consistent := by
    refine hr.invariant Consistent.start ?_
    intro t e u ht hg hs
    exact ht.step hg hs
  exact hinv.transferred

/-- The file system has the same file under every name. -/
def always (content : List UInt8) : FileSystem := fun _ => some content

theorem not_isOpen_init (frsmId : UInt32) : ¬ IsOpen .init frsmId := by
  rintro ⟨i, frsm, handle, hopen, -⟩
  exact not_openAt_init hopen

/-- A file of two octets is read at once. -/
theorem run_transferred_short : ∃ h : FileHistory,
    h.files 0 = some ⟨[1, 2], 0, [([1, 2], false)]⟩ ∧ h.Transferred := by
  obtain ⟨response1, connection1, h1, hfiles1⟩ : ∃ response connection,
      MmsServerConnection.init.serve (.fileOpen (always [1, 2]) [102] 0) =
          .ok (response, connection) ∧
        record (fun _ => none) (.fileOpen (always [1, 2]) [102] 0) response =
          Function.update (fun _ => none) 0 (some ⟨[1, 2], 0, []⟩) := ⟨_, _, rfl, rfl⟩
  obtain ⟨response2, connection2, h2, hresponse2⟩ : ∃ response connection,
      connection1.serve (.fileRead 0 fun _ => 0) = .ok (response, connection) ∧
        response = .data [1, 2] false := by
    cases h1
    exact ⟨_, _, rfl, rfl⟩
  have hnil : Transition.Run Step Proper FileHistory.start [] FileHistory.start := .nil
  have hproper : FileHistory.start.Proper (.fileOpen (always [1, 2]) [102] 0) := by
    intro content hcontent _
    cases hcontent
    exact ⟨by decide, by decide, rfl, not_isOpen_init 0⟩
  have hr1 := hnil.snoc hproper ⟨response1, connection1, h1, rfl⟩
  have hr2 := hr1.snoc (i := FileEvent.fileRead 0 fun _ => 0) trivial
    ⟨response2, connection2, h2, rfl⟩
  refine ⟨_, ?_, run_transferred hr2⟩
  change record (record (fun _ => none) _ response1) _ response2 0 = _
  rw [hfiles1, hresponse2, record, Function.update_self, Function.update_self]
  rfl

/-- A file of three octets that is opened behind its first octet is read from its start. -/
theorem read_from_start : ∃ h : FileHistory,
    Transition.Run Step (fun _ _ => True) FileHistory.start
        [.fileOpen (always [1, 2, 3]) [102] 1, .fileRead 0 fun _ => 0] h ∧
      h.files 0 = some ⟨[1, 2, 3], 1, [([1, 2], false)]⟩ ∧ ¬ h.Transferred := by
  obtain ⟨response1, connection1, h1, hfiles1⟩ : ∃ response connection,
      MmsServerConnection.init.serve (.fileOpen (always [1, 2, 3]) [102] 1) =
          .ok (response, connection) ∧
        record (fun _ => none) (.fileOpen (always [1, 2, 3]) [102] 1) response =
          Function.update (fun _ => none) 0 (some ⟨[1, 2, 3], 1, []⟩) := ⟨_, _, rfl, rfl⟩
  obtain ⟨response2, connection2, h2, hresponse2⟩ : ∃ response connection,
      connection1.serve (.fileRead 0 fun _ => 0) = .ok (response, connection) ∧
        response = .data [1, 2] false := by
    cases h1
    exact ⟨_, _, rfl, rfl⟩
  have hnil : Transition.Run Step (fun _ _ => True) FileHistory.start [] FileHistory.start := .nil
  have hr1 := hnil.snoc (i := FileEvent.fileOpen (always [1, 2, 3]) [102] 1) trivial
    ⟨response1, connection1, h1, rfl⟩
  have hr2 := hr1.snoc (i := FileEvent.fileRead 0 fun _ => 0) trivial
    ⟨response2, connection2, h2, rfl⟩
  have hfile : record (record (fun _ => none) (.fileOpen (always [1, 2, 3]) [102] 1) response1)
      (.fileRead 0 fun _ => 0) response2 0 = some ⟨[1, 2, 3], 1, [([1, 2], false)]⟩ := by
    rw [hfiles1, hresponse2, record, Function.update_self, Function.update_self]
    rfl
  refine ⟨_, hr2, hfile, fun ht => ?_⟩
  have hinit := (ht.delivered 0 _ hfile).inOrder
  exact absurd hinit (by decide)

end FileHistory

end Iec61850.FileService
