import Iec61850.File.FileResponses
import Iec61850.Client.MmsConnection

/-! A file is fetched from a server: `IedConnection_getFile` (`ied_connection.c`) and the file
services of the client connection that it calls. -/

namespace Iec61850

/-- The errors that the calls below can give. -/
inductive IedClientError
  | ok | connectionLost | accessDenied | objectDoesNotExist | objectAccessUnsupported
  | objectExists | timeout | unknown
  deriving DecidableEq

namespace IedConnection

open Machine FileService MmsConnection

/-- The error of a service: what the server or the time says, or what is found afterwards. -/
inductive CallError
  | response (error : MmsError)
  | parsingResponse
  | connectionLost

def mapMmsErrorToIedError : Option CallError → IedClientError
  | none => .ok
  | some .connectionLost => .connectionLost
  | some (.response .accessObjectAccessDenied) => .accessDenied
  | some (.response .accessObjectNonExistent) => .objectDoesNotExist
  | some (.response .accessObjectAccessUnsupported) => .objectAccessUnsupported
  | some (.response .definitionObjectExists) => .objectExists
  | some (.response .serviceTimeout) => .timeout
  | some (.response .fileFileNonExistent) => .objectDoesNotExist
  | some _ => .unknown

/-- What becomes of a request: what the connection hands over, and whether the association is
closed afterwards, which it is when nothing is handed over. -/
structure Answer where
  result : Result
  closed : Bool
  lost : result = .nothing → closed = true

def lastResponseError : ResponseError → MmsError
  | .timeout => .serviceTimeout
  | .service _ error => error

/-- The part that the services share behind `sendRequestAndWaitForResponse`. -/
def Answer.evaluate {α : Type} (answer : Answer) (parse : List UInt8 → Exec (Bool × α))
    (initial : α) : Exec (Option CallError × α) := do
  let (mmsError, a) ← match answer.result with
    | .error error => pure (some (CallError.response (lastResponseError error)), initial)
    | .response payload => do
      let (success, a) ← parse payload
      pure (if success then none else some CallError.parsingResponse, a)
    | .nothing => pure (none, initial)
  return (if answer.closed then some .connectionLost else mmsError, a)

/-- `MmsConnection_fileOpen`, with the id, which is -1 as long as there is none. -/
def fileOpen (answer : Answer) : Exec (Option CallError × UInt32) := do
  let (mmsError, state) ← answer.evaluate (fun payload => do
    parseFileOpenResponse payload false (← lastResponseBufPos payload) ⟨0xffffffff, ⟨0, none⟩⟩)
    ⟨0xffffffff, ⟨0, none⟩⟩
  return (mmsError, state.frsmId)

/-- `MmsConnection_fileRead` -/
def fileRead {π : Type} (handler : π → List UInt8 → π) (answer : Answer) (handlerParameter : π) :
    Exec (Option CallError × FileReadState π) :=
  answer.evaluate (fun payload => do
    parseFileReadResponse handler payload (← lastResponseBufPos payload) ⟨false, handlerParameter⟩)
    ⟨false, handlerParameter⟩

/-- `MmsConnection_fileClose`; the response contains nothing to evaluate. -/
def fileClose (answer : Answer) : Exec (Option CallError × Unit) :=
  answer.evaluate (fun _ => .ok (true, ())) ()

inductive FileRequest
  | fileOpen (fileName : List UInt8) (initialPosition : UInt32)
  | fileRead (frsmId : UInt32)
  | fileClose (frsmId : UInt32)
  deriving DecidableEq

/-- A handler says whether it wants more, by all that it has been handed. -/
abbrev GetFileHandler := List (List UInt8) → List UInt8 → Bool

structure ClientProvidedFileReadHandler where
  handed : List (List UInt8)
  retVal : Bool
  byteReceived : UInt32

def mmsFileReadHandler (handler : GetFileHandler) (s : ClientProvidedFileReadHandler)
    (buffer : List UInt8) : ClientProvidedFileReadHandler where
  handed := s.handed ++ [buffer]
  retVal := handler s.handed buffer
  byteReceived := s.byteReceived + UInt32.ofNat buffer.length

/-- How the loop ends, unless it is waiting for an answer. -/
inductive Reading
  | waiting
  | failed (mmsError : CallError)
  | left (error : IedClientError)

def readLoop (handler : GetFileHandler) (frsmId : UInt32) :
    List Answer → ClientProvidedFileReadHandler →
      Exec (List FileRequest × ClientProvidedFileReadHandler × Reading)
  | [], s => return ([.fileRead frsmId], s, .waiting)
  | answer :: answers, s => do
    let (mmsError, read) ← fileRead (mmsFileReadHandler handler) answer s
    match mmsError with
    | some mmsError => return ([.fileRead frsmId], read.handlerParameter, .failed mmsError)
    | none =>
      if read.handlerParameter.retVal = true then
        return ([.fileRead frsmId], read.handlerParameter, .left .unknown)
      else if read.moreFollows = false then
        return ([.fileRead frsmId], read.handlerParameter, .left .ok)
      else
        let (requests, s, reading) ← readLoop handler frsmId answers read.handlerParameter
        return (.fileRead frsmId :: requests, s, reading)

/-- What comes of a call: the requests that are sent, what the handler is handed, and unless the
call goes on, the error and the number of octets that it returns. -/
structure Download where
  requests : List FileRequest
  handed : List (List UInt8)
  returned : Option (IedClientError × UInt32)

/-- The error that the loop leaves behind is overwritten by that of the close. -/
def getFile (handler : GetFileHandler) (fileName : List UInt8) (opened : Answer)
    (reads : List Answer) (closed : Answer) : Exec Download := do
  let (mmsError, frsmId) ← fileOpen opened
  match mmsError with
  | some mmsError =>
    return ⟨[.fileOpen fileName 0], [], some (mapMmsErrorToIedError (some mmsError), 0)⟩
  | none =>
    let (requests, s, reading) ← readLoop handler frsmId reads ⟨[], true, 0⟩
    let requests := .fileOpen fileName 0 :: requests
    match reading with
    | .waiting => return ⟨requests, s.handed, none⟩
    | .failed mmsError =>
      return ⟨requests, s.handed, some (mapMmsErrorToIedError (some mmsError), 0)⟩
    | .left _ =>
      let (mmsError, _) ← fileClose closed
      return ⟨requests ++ [.fileClose frsmId], s.handed,
        some (mapMmsErrorToIedError mmsError, s.byteReceived)⟩

/-! ## What is promised -/

/-- What the server does with the read requests, one after the other. -/
inductive Reply
  | chunk (data : List UInt8) (moreFollows : Bool)
  | failure

def Reply.data : Reply → List UInt8
  | .chunk data _ => data
  | .failure => []

/-- A chunk comes as the server encodes it, and a failure is one for every handler. -/
def Answer.Gives (answer : Answer) : Reply → Prop
  | .chunk data moreFollows => ∃ invokeId,
    (encodeFileReadResponse invokeId data moreFollows).length < 65536 ∧
      answer.result = .response (encodeFileReadResponse invokeId data moreFollows) ∧
      answer.closed = false
  | .failure => ∀ (handler : GetFileHandler) (s : ClientProvidedFileReadHandler),
    ∃ mmsError read, fileRead (mmsFileReadHandler handler) answer s = .ok (some mmsError, read)

/-- A file in chunks, the last one without more to follow, unless a read fails before. -/
inductive Served : List Reply → Prop
  | last (data : List UInt8) : Served [.chunk data false]
  | failure : Served [.failure]
  | more (data : List UInt8) {replies : List Reply} (h : Served replies) :
    Served (.chunk data true :: replies)

/-- The replies that are to be asked for: up to the one that the handler refuses. -/
def wanted (handler : GetFileHandler) : List (List UInt8) → List Reply → List Reply
  | _, [] => []
  | _, .failure :: _ => [.failure]
  | handed, .chunk data moreFollows :: replies =>
    .chunk data moreFollows ::
      if handler handed data && moreFollows then wanted handler (handed ++ [data]) replies else []

/-- The handler takes the whole file. -/
def finishes (handler : GetFileHandler) : List (List UInt8) → List Reply → Bool
  | _, [] => false
  | _, .failure :: _ => false
  | handed, .chunk data moreFollows :: replies =>
    handler handed data && (!moreFollows || finishes handler (handed ++ [data]) replies)

def wantedOctets (handler : GetFileHandler) (handed : List (List UInt8)) (replies : List Reply) :
    List UInt8 := ((wanted handler handed replies).map Reply.data).flatten

/-- The close is not confirmed. -/
def Answer.Fails (answer : Answer) : Prop := answer.closed = true ∨ ∃ e, answer.result = .error e

/-- The file is fetched as it should be, once it is open. -/
structure Complete (handler : GetFileHandler) (replies : List Reply) (closed : Answer)
    (frsmId : UInt32) (d : Download) : Prop where
  octets : d.handed.flatten = wantedOctets handler [] replies
  count : finishes handler [] replies = true → ¬ closed.Fails → ∃ n : UInt32,
    d.returned = some (.ok, n) ∧ n.toNat = (wantedOctets handler [] replies).length
  reports : finishes handler [] replies = false → ∃ error n,
    d.returned = some (error, n) ∧ error ≠ .ok
  stops : d.requests.count (.fileRead frsmId) ≤ (wanted handler [] replies).length
  closes : d.requests.getLast? = some (.fileClose frsmId)

/-- The loop ends with the first chunk, and the close says what is to be said. -/
def EndsFirst (handler : GetFileHandler) (replies : List Reply) (closed : Answer) : Prop :=
  ∃ data moreFollows rest, replies = .chunk data moreFollows :: rest ∧
    (handler [] data = true ∧ (moreFollows = true → wantedOctets handler [data] rest = [] ∧
        (finishes handler [data] rest = true ∨ closed.Fails)) ∨
      handler [] data = false ∧ moreFollows = false ∧ closed.Fails)

/-! ## One reply after the other -/

variable {handler : GetFileHandler} {answer closed : Answer} {answers : List Answer}
  {replies : List Reply} {s : ClientProvidedFileReadHandler} {frsmId : UInt32} {data : List UInt8}
  {moreFollows : Bool}

theorem fileRead_chunk (h : answer.Gives (.chunk data moreFollows)) :
    fileRead (mmsFileReadHandler handler) answer s =
      .ok (none, ⟨moreFollows, mmsFileReadHandler handler s data⟩) := by
  obtain ⟨invokeId, hsize, hresult, hclosed⟩ := h
  obtain ⟨bufPos, hpos, hparse⟩ := parseFileReadResponse_encode (mmsFileReadHandler handler)
    invokeId hsize ⟨false, s⟩
  rw [fileRead, Answer.evaluate, hresult, hclosed]
  dsimp only
  rw [hpos, ok_bind, hparse]
  rfl

theorem mapMmsErrorToIedError_some (mmsError : CallError) :
    mapMmsErrorToIedError (some mmsError) ≠ .ok := by
  cases mmsError with
  | response error => cases error <;> decide
  | parsingResponse => decide
  | connectionLost => decide

theorem fileClose_ok (closed : Answer) : ∃ mmsError, fileClose closed = .ok (mmsError, ()) ∧
    (mapMmsErrorToIedError mmsError = .ok ↔ ¬ closed.Fails) := by
  rw [fileClose, Answer.evaluate]
  cases hclosed : closed.closed with
  | true =>
    cases hresult : closed.result with
    | error | response | nothing =>
      exact ⟨_, rfl, iff_of_false (mapMmsErrorToIedError_some _) (not_not_intro (.inl hclosed))⟩
  | false =>
    have hopen : ¬ closed.closed = true := by
      rw [hclosed]
      exact Bool.false_ne_true
    cases hresult : closed.result with
    | error e =>
      refine ⟨_, rfl, iff_of_false (mapMmsErrorToIedError_some _) ?_⟩
      exact not_not_intro (.inr ⟨e, hresult⟩)
    | response payload =>
      refine ⟨_, rfl, iff_of_true rfl ?_⟩
      rintro (hc | ⟨e, he⟩)
      · exact hopen hc
      · rw [hresult] at he
        cases he
    | nothing => exact absurd (closed.lost hresult) hopen

theorem readLoop_chunk (h : answer.Gives (.chunk data moreFollows)) :
    readLoop handler frsmId (answer :: answers) s =
      if handler s.handed data = true then
        .ok ([.fileRead frsmId], mmsFileReadHandler handler s data, .left .unknown)
      else if moreFollows = false then
        .ok ([.fileRead frsmId], mmsFileReadHandler handler s data, .left .ok)
      else do
        let (requests, s, reading) ← readLoop handler frsmId answers
          (mmsFileReadHandler handler s data)
        return (.fileRead frsmId :: requests, s, reading) := by
  rw [readLoop, fileRead_chunk h, ok_bind]
  rfl

theorem readLoop_failure (h : answer.Gives .failure) : ∃ s' mmsError,
    readLoop handler frsmId (answer :: answers) s =
      .ok ([.fileRead frsmId], s', .failed mmsError) := by
  obtain ⟨mmsError, read, hread⟩ := h handler s
  rw [readLoop, hread, ok_bind]
  exact ⟨_, _, rfl⟩

/-- The loop comes to an end, and it asks for one reply at least. -/
theorem readLoop_served (hserved : Served replies)
    (hanswers : List.Forall₂ Answer.Gives answers replies) :
    ∃ requests s' reading, readLoop handler frsmId answers s = .ok (requests, s', reading) ∧
      reading ≠ .waiting ∧ ∃ rest, requests = .fileRead frsmId :: rest := by
  induction hserved generalizing answers s with
  | last data =>
    obtain ⟨answer, answers, hg, hrest, rfl⟩ := List.forall₂_cons_right_iff.mp hanswers
    rw [readLoop_chunk hg]
    split
    · exact ⟨_, _, _, rfl, (fun hf => nomatch hf), [], rfl⟩
    · exact ⟨_, _, _, rfl, (fun hf => nomatch hf), [], rfl⟩
  | failure =>
    obtain ⟨answer, answers, hg, hrest, rfl⟩ := List.forall₂_cons_right_iff.mp hanswers
    obtain ⟨s', mmsError, hfailed⟩ := readLoop_failure hg
    exact ⟨_, _, _, hfailed, (fun hf => nomatch hf), [], rfl⟩
  | more data hserved ih =>
    obtain ⟨answer, answers, hg, hrest, rfl⟩ := List.forall₂_cons_right_iff.mp hanswers
    rw [readLoop_chunk hg]
    split
    · exact ⟨_, _, _, rfl, (fun hf => nomatch hf), [], rfl⟩
    · obtain ⟨requests, s', reading, hrun, hend, -⟩ := ih hrest
      rw [if_neg (by decide), hrun, ok_bind]
      exact ⟨_, _, _, rfl, hend, requests, rfl⟩

/-! ## The whole call -/

variable {fileName : List UInt8} {opened : Answer}

theorem getFile_open {reads : List Answer} (h : fileOpen opened = .ok (none, frsmId)) :
    getFile handler fileName opened reads closed = do
      let (requests, s, reading) ← readLoop handler frsmId reads ⟨[], true, 0⟩
      let requests := .fileOpen fileName 0 :: requests
      match reading with
      | .waiting => return ⟨requests, s.handed, none⟩
      | .failed mmsError =>
        return ⟨requests, s.handed, some (mapMmsErrorToIedError (some mmsError), 0)⟩
      | .left _ =>
        let (mmsError, _) ← fileClose closed
        return ⟨requests ++ [.fileClose frsmId], s.handed,
          some (mapMmsErrorToIedError mmsError, s.byteReceived)⟩ := by
  rw [getFile, h, ok_bind]

/-- One chunk is read, and the file is closed. -/
def once (fileName : List UInt8) (frsmId : UInt32) (data : List UInt8)
    (mmsError : Option CallError) : Download where
  requests := [.fileOpen fileName 0, .fileRead frsmId, .fileClose frsmId]
  handed := [data]
  returned := some (mapMmsErrorToIedError mmsError, 0 + UInt32.ofNat data.length)

theorem getFile_left {reads : List Answer} (h : fileOpen opened = .ok (none, frsmId))
    {error : IedClientError} (hread : readLoop handler frsmId reads ⟨[], true, 0⟩ =
      .ok ([.fileRead frsmId], mmsFileReadHandler handler ⟨[], true, 0⟩ data, .left error))
    {mmsError : Option CallError} (hclose : fileClose closed = .ok (mmsError, ())) :
    getFile handler fileName opened reads closed = .ok (once fileName frsmId data mmsError) := by
  rw [getFile_open h, hread, ok_bind]
  dsimp only
  rw [hclose, ok_bind]
  rfl

theorem wantedOctets_chunk (handed : List (List UInt8)) :
    wantedOctets handler handed (.chunk data moreFollows :: replies) =
      data ++ if handler handed data && moreFollows then
        wantedOctets handler (handed ++ [data]) replies else [] := by
  rw [wantedOctets, wanted, List.map_cons, List.flatten_cons, Reply.data]
  split <;> rfl

theorem requests_once {mmsError : Option CallError} :
    (once fileName frsmId data mmsError).requests.count (.fileRead frsmId) = 1 := by
  have hopen : FileRequest.fileOpen fileName 0 ≠ .fileRead frsmId := fun h => nomatch h
  have hclose : FileRequest.fileClose frsmId ≠ .fileRead frsmId := fun h => nomatch h
  rw [once, List.count_cons_of_ne hopen, List.count_cons_self, List.count_cons_of_ne hclose]
  rfl

/-- What is promised of the call that reads one chunk. -/
theorem complete_once_of {mmsError : Option CallError} (hlen : data.length < 65536)
    (hclose : mapMmsErrorToIedError mmsError = .ok ↔ ¬ closed.Fails)
    (hoctets : wantedOctets handler [] replies = data)
    (hreports : finishes handler [] replies = true ∨ closed.Fails)
    (hsome : 1 ≤ (wanted handler [] replies).length) :
    Complete handler replies closed frsmId (once fileName frsmId data mmsError) where
  octets := by
    rw [hoctets]
    exact List.append_nil data
  count := by
    intro _ hok
    refine ⟨_, congrArg some (Prod.ext (hclose.mpr hok) rfl), ?_⟩
    rw [hoctets, UInt32.zero_add]
    exact UInt32.toNat_ofNat_of_lt' (hlen.trans (by decide))
  reports := by
    intro hnot
    have hfails : closed.Fails := by
      refine hreports.resolve_left ?_
      rw [hnot]
      exact Bool.false_ne_true
    exact ⟨_, _, rfl, fun hok => hclose.mp hok hfails⟩
  stops := requests_once.le.trans hsome
  closes := rfl

/-- Closing after the first chunk is right where nothing was to come, or where the close reports
what is to be reported. -/
theorem complete_once_iff {mmsError : Option CallError} (hlen : data.length < 65536)
    (hclose : mapMmsErrorToIedError mmsError = .ok ↔ ¬ closed.Fails) :
    Complete handler (.chunk data moreFollows :: replies) closed frsmId
        (once fileName frsmId data mmsError) ↔
      (handler [] data = true ∧ (moreFollows = true → wantedOctets handler [data] replies = [] ∧
          (finishes handler [data] replies = true ∨ closed.Fails)) ∨
        handler [] data = false ∧ closed.Fails) := by
  have hoctets : wantedOctets handler [] (.chunk data moreFollows :: replies) = data ++
      if handler [] data && moreFollows then wantedOctets handler [data] replies else [] :=
    wantedOctets_chunk []
  have hfinishes : finishes handler [] (.chunk data moreFollows :: replies) =
      (handler [] data && (!moreFollows || finishes handler [data] replies)) := rfl
  have hsome : 1 ≤ (wanted handler [] (.chunk data moreFollows :: replies)).length :=
    Nat.le_add_left _ _
  constructor
  · intro hc
    have hdata : data = data ++
        if handler [] data && moreFollows then wantedOctets handler [data] replies else [] := by
      rw [← hoctets, ← hc.octets]
      exact (List.append_nil data).symm
    have hreports : finishes handler [] (.chunk data moreFollows :: replies) = false →
        closed.Fails := by
      intro hnot
      obtain ⟨error, n, hret, hne⟩ := hc.reports hnot
      cases hret
      by_contra hok
      exact hne (hclose.mpr hok)
    cases hh : handler [] data with
    | true =>
      refine .inl ⟨rfl, ?_⟩
      rintro rfl
      rw [hh, Bool.and_self, if_pos rfl] at hdata
      refine ⟨List.append_right_eq_self.mp hdata.symm, ?_⟩
      by_cases hf : finishes handler [data] replies = true
      · exact .inl hf
      · refine .inr (hreports ?_)
        rw [hfinishes, hh, eq_false_of_ne_true hf]
        rfl
    | false =>
      refine .inr ⟨rfl, hreports ?_⟩
      rw [hfinishes, hh]
      rfl
  · rintro (⟨hh, hrest⟩ | ⟨hh, hfails⟩)
    · cases moreFollows with
      | true =>
        obtain ⟨hnone, hend⟩ := hrest rfl
        refine complete_once_of hlen hclose ?_ ?_ hsome
        · rw [hoctets, hh, Bool.and_self, if_pos rfl, hnone, List.append_nil]
        · rw [hfinishes, hh]
          exact hend
      | false =>
        refine complete_once_of hlen hclose ?_ (.inl ?_) hsome
        · rw [hoctets, Bool.and_false, if_neg Bool.false_ne_true, List.append_nil]
        · rw [hfinishes, hh]
          rfl
    · refine complete_once_of hlen hclose ?_ (.inr hfails) hsome
      rw [hoctets, hh, Bool.false_and, if_neg Bool.false_ne_true, List.append_nil]

theorem endsFirst_chunk_iff : EndsFirst handler (.chunk data moreFollows :: replies) closed ↔
    (handler [] data = true ∧ (moreFollows = true → wantedOctets handler [data] replies = [] ∧
        (finishes handler [data] replies = true ∨ closed.Fails)) ∨
      handler [] data = false ∧ moreFollows = false ∧ closed.Fails) := by
  constructor
  · rintro ⟨data', moreFollows', rest, heq, h⟩
    obtain ⟨hchunk, rfl⟩ := List.cons.inj heq
    obtain ⟨rfl, rfl⟩ := Reply.chunk.inj hchunk
    exact h
  · intro h
    exact ⟨data, moreFollows, replies, rfl, h⟩

theorem length_of_gives (h : answer.Gives (.chunk data moreFollows)) : data.length < 65536 := by
  obtain ⟨invokeId, hsize, -⟩ := h
  refine lt_of_le_of_lt ?_ hsize
  simp only [encodeFileReadResponse, List.length_append, List.length_cons]
  omega

/-- The call ends with the first chunk, if the handler takes it or if it is the last one. -/
theorem getFile_first {reads : List Answer} (h : fileOpen opened = .ok (none, frsmId))
    (hg : answer.Gives (.chunk data moreFollows))
    (hends : handler [] data = true ∨ moreFollows = false) :
    ∃ d, getFile handler fileName opened (answer :: reads) closed = .ok d ∧
      (Complete handler (.chunk data moreFollows :: replies) closed frsmId d ↔
        EndsFirst handler (.chunk data moreFollows :: replies) closed) := by
  obtain ⟨mmsError, hclose, hok⟩ := fileClose_ok closed
  have hleft : ∃ error, readLoop handler frsmId (answer :: reads) ⟨[], true, 0⟩ =
      .ok ([.fileRead frsmId], mmsFileReadHandler handler ⟨[], true, 0⟩ data, .left error) := by
    rw [readLoop_chunk hg]
    split
    · exact ⟨_, rfl⟩
    case isFalse hno =>
      rw [if_pos (hends.resolve_left hno)]
      exact ⟨_, rfl⟩
  obtain ⟨error, hleft⟩ := hleft
  refine ⟨_, getFile_left h hleft hclose, ?_⟩
  rw [complete_once_iff (length_of_gives hg) hok, endsFirst_chunk_iff]
  refine or_congr_right (and_congr_right fun hno => ?_)
  rw [hno] at hends
  rw [hends.resolve_left Bool.false_ne_true]
  exact (and_iff_right rfl).symm

/-- A handler that refuses the first chunk is given the next one. -/
theorem getFile_refused {reads : List Answer} (h : fileOpen opened = .ok (none, frsmId))
    (hg : answer.Gives (.chunk data true)) (hno : handler [] data = false)
    (hserved : Served replies) (hreads : List.Forall₂ Answer.Gives reads replies) :
    ∃ d, getFile handler fileName opened (answer :: reads) closed = .ok d ∧
      2 ≤ d.requests.count (.fileRead frsmId) := by
  obtain ⟨requests, s', reading, hrun, hend, rest, rfl⟩ : ∃ requests s' reading,
      readLoop handler frsmId reads (mmsFileReadHandler handler ⟨[], true, 0⟩ data) =
        .ok (requests, s', reading) ∧ reading ≠ .waiting ∧
          ∃ rest, requests = .fileRead frsmId :: rest := readLoop_served hserved hreads
  have hopen : FileRequest.fileOpen fileName 0 ≠ .fileRead frsmId := fun h => nomatch h
  have hloop : readLoop handler frsmId (answer :: reads) ⟨[], true, 0⟩ =
      .ok (.fileRead frsmId :: .fileRead frsmId :: rest, s', reading) := by
    rw [readLoop_chunk hg, if_neg (by rw [hno]; exact Bool.false_ne_true), if_neg (by decide),
      hrun]
    rfl
  have htwo (last : List FileRequest) : 2 ≤ (FileRequest.fileOpen fileName 0 ::
      .fileRead frsmId :: .fileRead frsmId :: (rest ++ last)).count (.fileRead frsmId) := by
    rw [List.count_cons_of_ne hopen, List.count_cons_self, List.count_cons_self]
    exact Nat.le_add_left _ _
  rw [getFile_open h, hloop, ok_bind]
  cases reading with
  | waiting => exact absurd rfl hend
  | failed mmsError =>
    refine ⟨_, rfl, ?_⟩
    have hcount := htwo []
    rwa [List.append_nil] at hcount
  | left error =>
    obtain ⟨mmsError, hclose, -⟩ := fileClose_ok closed
    dsimp only
    rw [hclose, ok_bind]
    exact ⟨_, rfl, htwo [.fileClose frsmId]⟩

/-- A file that is open is fetched as it should be exactly where nothing is to come behind the
first chunk, or where the error of the close is the error to be reported. -/
theorem getFile_complete_iff (handler : GetFileHandler) (fileName : List UInt8)
    (closed : Answer) {opened : Answer} {reads : List Answer} {replies : List Reply}
    {openError : Option CallError} {frsmId : UInt32}
    (hopen : fileOpen opened = .ok (openError, frsmId))
    (hreads : List.Forall₂ Answer.Gives reads replies) (hserved : Served replies) :
    ∃ d, getFile handler fileName opened reads closed = .ok d ∧
      ((openError = none → Complete handler replies closed frsmId d) ↔
        (openError = none → EndsFirst handler replies closed)) := by
  cases openError with
  | some mmsError =>
    refine ⟨⟨[.fileOpen fileName 0], [], some (mapMmsErrorToIedError (some mmsError), 0)⟩, ?_,
      iff_of_true (fun h => nomatch h) fun h => nomatch h⟩
    rw [getFile, hopen, ok_bind]
    rfl
  | none =>
    simp only [forall_const]
    cases hserved with
    | last data =>
      obtain ⟨answer, answers, hg, -, rfl⟩ := List.forall₂_cons_right_iff.mp hreads
      exact getFile_first hopen hg (.inr rfl)
    | failure =>
      obtain ⟨answer, answers, hg, -, rfl⟩ := List.forall₂_cons_right_iff.mp hreads
      obtain ⟨s', mmsError, hfailed⟩ := readLoop_failure hg
      refine ⟨_, by rw [getFile_open hopen, hfailed]; rfl, ?_⟩
      refine iff_of_false (fun hc => nomatch hc.closes) ?_
      rintro ⟨data, moreFollows, rest, heq, -⟩
      cases heq
    | @more data rest hserved =>
      obtain ⟨answer, answers, hg, hrest, rfl⟩ := List.forall₂_cons_right_iff.mp hreads
      cases hno : handler [] data with
      | true => exact getFile_first hopen hg (.inl hno)
      | false =>
        obtain ⟨d, hd, htwo⟩ := getFile_refused hopen hg hno hserved hrest
        refine ⟨d, hd, iff_of_false (fun hc => ?_) fun he => ?_⟩
        · have hstops := hc.stops
          rw [wanted, hno, Bool.false_and, if_neg Bool.false_ne_true] at hstops
          exact absurd (htwo.trans hstops) (Nat.not_succ_le_self 1)
        · rcases endsFirst_chunk_iff.mp he with ⟨hyes, -⟩ | ⟨-, hlast, -⟩
          · exact Bool.false_ne_true (hno.symm.trans hyes)
          · exact Bool.noConfusion hlast

/-! ## Two short files -/

def answered (payload : List UInt8) : Answer := ⟨.response payload, false, fun h => nomatch h⟩

theorem fileOpen_create (invokeId frsmId fileSize : UInt32) {gtString : List UInt8}
    (hzero : 0 ∉ gtString) (hshort : gtString.length < 40) :
    fileOpen (answered (createFileOpenResponse invokeId frsmId fileSize gtString)) =
      .ok (none, frsmId) := by
  obtain ⟨bufPos, hpos, hparse⟩ := parseFileOpenResponse_create invokeId frsmId fileSize hzero
    hshort false ⟨0xffffffff, ⟨0, none⟩⟩
  rw [fileOpen, Answer.evaluate, answered]
  dsimp only
  rw [hpos, ok_bind, hparse]
  rfl

def takesAll : GetFileHandler := fun _ _ => true

/-- The server has opened the file as number 1. -/
def openedFirst (fileSize : UInt32) : Answer := answered (createFileOpenResponse 1 1 fileSize [50])

def chunkOf (data : List UInt8) (moreFollows : Bool) : Answer :=
  answered (encodeFileReadResponse 2 data moreFollows)

theorem gives_chunkOf {data : List UInt8}
    (hsize : (encodeFileReadResponse 2 data moreFollows).length < 65536) :
    (chunkOf data moreFollows).Gives (.chunk data moreFollows) := ⟨2, hsize, rfl, rfl⟩

def confirmed : Answer := answered (createNullResponseExtendedTag 3 0x4a)

/-- A file of one chunk is fetched. -/
theorem getFile_complete_chunk : ∃ d,
    getFile takesAll [102] (openedFirst 3) [chunkOf [1, 2, 3] false] confirmed = .ok d ∧
      Complete takesAll [.chunk [1, 2, 3] false] confirmed 1 d := by
  have hopen : fileOpen (openedFirst 3) = .ok (none, 1) :=
    fileOpen_create 1 1 3 (by decide) (by decide)
  have hreads : List.Forall₂ Answer.Gives [chunkOf [1, 2, 3] false] [.chunk [1, 2, 3] false] :=
    .cons (gives_chunkOf (by decide)) .nil
  obtain ⟨d, hd, hiff⟩ := getFile_complete_iff takesAll [102] confirmed hopen hreads
    (.last [1, 2, 3])
  have hends : EndsFirst takesAll [.chunk [1, 2, 3] false] confirmed :=
    ⟨_, _, _, rfl, .inl ⟨rfl, fun h => Bool.noConfusion h⟩⟩
  exact ⟨d, hd, hiff.mpr (fun _ => hends) rfl⟩

/-- Of a file of two chunks the second one is not read. -/
theorem second_chunk_missing : ∃ d,
    getFile takesAll [102] (openedFirst 2) [chunkOf [1] true, chunkOf [2] false] confirmed =
        .ok d ∧ d.returned = some (.ok, 1) ∧
      ¬ Complete takesAll [.chunk [1] true, .chunk [2] false] confirmed 1 d := by
  have hopen : fileOpen (openedFirst 2) = .ok (none, 1) :=
    fileOpen_create 1 1 2 (by decide) (by decide)
  have hg : (chunkOf [1] true).Gives (.chunk [1] true) := gives_chunkOf (by decide)
  have hleft : readLoop takesAll 1 [chunkOf [1] true, chunkOf [2] false] ⟨[], true, 0⟩ =
      .ok ([.fileRead 1], mmsFileReadHandler takesAll ⟨[], true, 0⟩ [1], .left .unknown) := by
    rw [readLoop_chunk hg]
    rfl
  have hclose : fileClose confirmed = .ok (none, ()) := rfl
  refine ⟨_, getFile_left hopen hleft hclose, rfl, fun hc => ?_⟩
  have hoctets := hc.octets
  rw [wantedOctets_chunk, wantedOctets_chunk] at hoctets
  exact absurd hoctets (by decide)

end IedConnection

end Iec61850
