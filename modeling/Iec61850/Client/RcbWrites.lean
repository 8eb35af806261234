import Iec61850.Client.RcbUpdates
import Iec61850.File.Download

/-! `IedConnection_setRCBValues`: the attributes of a report control block are written, in one
request or in one request for each, and what the client gets to know of the results. -/

namespace Iec61850

open Machine

namespace RcbAttribute

/-- `RCB_ELEMENT_RPT_ID` and so on -/
def parameterMask : RcbAttribute → UInt32
  | rptId => 1
  | rptEna => 2
  | resv => 4
  | datSet => 8
  | confRev => 16
  | optFlds => 32
  | bufTm => 64
  | sqNum => 128
  | trgOps => 256
  | intgPd => 512
  | gi => 1024
  | purgeBuf => 2048
  | entryId => 4096
  | timeOfEntry => 8192
  | resvTms => 16384
  | owner => 32768

/-- The last part of the name, with its separator. -/
def suffix : RcbAttribute → List UInt8
  | rptId => ascii "$RptID"
  | rptEna => ascii "$RptEna"
  | resv => ascii "$Resv"
  | datSet => ascii "$DatSet"
  | confRev => ascii "$ConfRev"
  | optFlds => ascii "$OptFlds"
  | bufTm => ascii "$BufTm"
  | sqNum => ascii "$SqNum"
  | trgOps => ascii "$TrgOps"
  | intgPd => ascii "$IntgPd"
  | gi => ascii "$GI"
  | purgeBuf => ascii "$PurgeBuf"
  | entryId => ascii "$EntryID"
  | timeOfEntry => ascii "$TimeOfEntry"
  | resvTms => ascii "$ResvTms"
  | owner => ascii "$Owner"

end RcbAttribute

structure RcbWrite where
  domainId : List UInt8
  itemId : List UInt8
  value : MmsValue

/-- What becomes of a write request: an error of the request, or a result for each item, nothing
for those that are accepted. -/
inductive RcbWriteAnswer
  | failed (error : IedConnection.CallError)
  | results (result : RcbWrite → Option MmsDataAccessError)

/-- A server answers according to the requests it has had before. -/
abbrev RcbWriteServer := List (List RcbWrite) → List RcbWrite → RcbWriteAnswer

/-- `mapDataAccessErrorToMmsError`, and what becomes of its result for the application. -/
def mapDataAccessErrorToIedError : MmsDataAccessError → IedClientError
  | .objectAccessDenied => .accessDenied
  | .objectAccessUnsupported => .objectAccessUnsupported
  | .objectNoneExistent => .objectDoesNotExist
  | _ => .unknown

inductive SetRcbError
  | userProvidedInvalidArgument
  | service (error : IedClientError)

/-- The requests that are sent and the error that is returned. -/
structure SetRcbOutcome where
  requests : List (List RcbWrite)
  error : SetRcbError

namespace ClientReportControlBlock

def domainId (self : ClientReportControlBlock) : List UInt8 :=
  self.objectReference.takeWhile (· ≠ 47)

def itemId (self : ClientReportControlBlock) : List UInt8 :=
  StringUtils.replace 46 36 (self.objectReference.drop (self.domainId.length + 1))

/-- The order in which the mask is looked at. -/
def writeOrder : List RcbAttribute :=
  [.resv, .resvTms, .rptId, .datSet, .entryId, .optFlds, .bufTm, .trgOps, .intgPd, .gi, .purgeBuf,
    .timeOfEntry, .rptEna]

def isMasked (parametersMask : UInt32) (a : RcbAttribute) : Bool :=
  parametersMask &&& a.parameterMask ≠ 0

/-- The attributes that are refused for a block of the other kind. -/
def isInvalid (isBuffered : Bool) : RcbAttribute → Bool
  | .resv => isBuffered
  | .resvTms | .purgeBuf | .timeOfEntry => !isBuffered
  | _ => false

/-- The names are put together in a buffer of 129 octets. Nothing stands for the error. -/
def requestedItems (self : ClientReportControlBlock) :
    List RcbAttribute → Exec (Option (List (List UInt8 × Option MmsValue)))
  | [] => .ok (some [])
  | a :: as =>
    if isInvalid self.isBuffered a then .ok none
    else if 128 < self.itemId.length + a.suffix.length then .error .outOfBounds
    else do
      match ← self.requestedItems as with
      | none => return none
      | some items => return some ((self.itemId ++ a.suffix, self.value a) :: items)

/-- The encoder reads the type of the value. -/
def encodeItem (self : ClientReportControlBlock) (item : List UInt8 × Option MmsValue) :
    Exec RcbWrite :=
  match item.2 with
  | none => .error .nullPointer
  | some v => .ok ⟨self.domainId, item.1, v⟩

/-- All items in one request. The results in the answer are released unread. -/
def writeMultipleVariables (self : ClientReportControlBlock) (server : RcbWriteServer)
    (items : List (List UInt8 × Option MmsValue)) : Exec SetRcbOutcome := do
  let request ← items.mapM self.encodeItem
  match server [] request with
  | .failed error =>
    return ⟨[request], .service (IedConnection.mapMmsErrorToIedError (some error))⟩
  | .results _ => return ⟨[request], .service (IedConnection.mapMmsErrorToIedError none)⟩

/-- The loop with a request for each item, which ends with the first error. -/
def writeVariables (self : ClientReportControlBlock) (server : RcbWriteServer) :
    List (List RcbWrite) → List (List UInt8 × Option MmsValue) → Exec SetRcbOutcome
  | _, [] => .ok ⟨[], .service (IedConnection.mapMmsErrorToIedError none)⟩
  | history, item :: items => do
    let w ← self.encodeItem item
    match server history [w] with
    | .failed error =>
      return ⟨[[w]], .service (IedConnection.mapMmsErrorToIedError (some error))⟩
    | .results result =>
      match result w with
      | some error => return ⟨[[w]], .service (mapDataAccessErrorToIedError error)⟩
      | none =>
        let outcome ← self.writeVariables server (history ++ [[w]]) items
        return ⟨[w] :: outcome.requests, outcome.error⟩

/-- `IedConnection_setRCBValues`. Without a slash in the reference the name of the domain is not
set; it is copied into a buffer of 65 octets. -/
def setRCBValues (self : ClientReportControlBlock) (parametersMask : UInt32) (singleRequest : Bool)
    (server : RcbWriteServer) : Exec SetRcbOutcome :=
  if 47 ∉ self.objectReference then .error .notThere
  else if 64 < self.domainId.length ∨ 128 < self.itemId.length then .error .outOfBounds
  else do
    match ← self.requestedItems (writeOrder.filter (isMasked parametersMask)) with
    | none => return ⟨[], .userProvidedInvalidArgument⟩
    | some items =>
      if singleRequest then self.writeMultipleVariables server items
      else self.writeVariables server [] items

end ClientReportControlBlock

/-! ## What the application is promised -/

namespace RcbAttribute

/-- The reservation comes first and the report enable flag last. -/
def inOrder : List RcbAttribute :=
  [resv, resvTms, rptId, datSet, entryId, optFlds, bufTm, trgOps, intgPd, gi, purgeBuf, timeOfEntry,
    confRev, sqNum, owner, rptEna]

/-- The attributes that only one kind of block has. -/
def isAvailable (isBuffered : Bool) : RcbAttribute → Bool
  | resv => !isBuffered
  | resvTms | purgeBuf | entryId | timeOfEntry => isBuffered
  | _ => true

end RcbAttribute

namespace ClientReportControlBlock

def masked (parametersMask : UInt32) : List RcbAttribute :=
  RcbAttribute.inOrder.filter (isMasked parametersMask)

/-- The write of an attribute with the value that the block has of it. -/
def IsWrite (self : ClientReportControlBlock) (a : RcbAttribute) (w : RcbWrite) : Prop :=
  w.domainId = self.domainId ∧ w.itemId = self.itemId ++ a.suffix ∧ self.value a = some w.value

/-- The server has accepted all items of a request. -/
def Accepted (server : RcbWriteServer) (history : List (List RcbWrite)) (request : List RcbWrite) :
    Prop :=
  ∃ result, server history request = .results result ∧ ∀ w ∈ request, result w = none

/-- Attributes that are written one by one, until one is refused, and whether none was. -/
inductive WrittenEach (self : ClientReportControlBlock) (server : RcbWriteServer) :
    List (List RcbWrite) → List RcbAttribute → List (List RcbWrite) → Bool → Prop
  | done (history : List (List RcbWrite)) : WrittenEach self server history [] [] true
  | refused {history : List (List RcbWrite)} {a : RcbAttribute} {as : List RcbAttribute}
    {w : RcbWrite} : self.IsWrite a w → ¬ Accepted server history [w] →
    WrittenEach self server history (a :: as) [[w]] false
  | accepted {history requests : List (List RcbWrite)} {a : RcbAttribute} {as : List RcbAttribute}
    {w : RcbWrite} {success : Bool} : self.IsWrite a w → Accepted server history [w] →
    WrittenEach self server (history ++ [[w]]) as requests success →
    WrittenEach self server history (a :: as) ([w] :: requests) success

/-- The masked attributes are written in order, and success means that all were accepted. -/
def Written (self : ClientReportControlBlock) (as : List RcbAttribute) (singleRequest : Bool)
    (server : RcbWriteServer) (outcome : SetRcbOutcome) : Prop :=
  if singleRequest then
    ∃ request, outcome.requests = [request] ∧ List.Forall₂ self.IsWrite as request ∧
      (outcome.error = .service .ok ↔ Accepted server [] request)
  else
    ∃ success, self.WrittenEach server [] as outcome.requests success ∧
      (outcome.error = .service .ok ↔ success = true)

/-- For a mask with an attribute that the block has not nothing is written. -/
def WritesMasked (self : ClientReportControlBlock) (parametersMask : UInt32) (singleRequest : Bool)
    (server : RcbWriteServer) : Prop :=
  ∃ outcome, self.setRCBValues parametersMask singleRequest server = .ok outcome ∧
    if (masked parametersMask).all (RcbAttribute.isAvailable self.isBuffered) then
      self.Written (masked parametersMask) singleRequest server outcome
    else outcome.requests = [] ∧ outcome.error ≠ .service .ok

/-! ## When the promise is kept -/

/-- The reference has a domain, and the buffers have room for the names. -/
structure NamesFit (rcb : ClientReportControlBlock) (parametersMask : UInt32) : Prop where
  slash : 47 ∈ rcb.objectReference
  domain : rcb.domainId.length ≤ 64
  item : rcb.itemId.length ≤ 128
  suffixes : ∀ a ∈ ((masked parametersMask).filter (· ∈ writeOrder)).takeWhile
    (!isInvalid rcb.isBuffered ·), rcb.itemId.length + a.suffix.length ≤ 128

/-- Up to the first attribute that is refused all are among those that the function writes, and
have a value. -/
def Present (self : ClientReportControlBlock) (server : RcbWriteServer) :
    List (List RcbWrite) → List RcbAttribute → Prop
  | _, [] => True
  | history, a :: as =>
    a ∈ writeOrder ∧ ∃ w, self.IsWrite a w ∧
      (Accepted server history [w] → self.Present server (history ++ [[w]]) as)

/-- The results of a single request are not looked at. -/
def NoneRefused (self : ClientReportControlBlock) (server : RcbWriteServer)
    (as : List RcbAttribute) : Prop :=
  (∀ a ∈ as, a ∈ writeOrder) ∧ ∃ request, List.Forall₂ self.IsWrite as request ∧
    ∀ result, server [] request = .results result → Accepted server [] request

def Writable (self : ClientReportControlBlock) (parametersMask : UInt32) (singleRequest : Bool)
    (server : RcbWriteServer) : Prop :=
  self.NamesFit parametersMask ∧
    if (masked parametersMask).all (RcbAttribute.isAvailable self.isBuffered) then
      if singleRequest then self.NoneRefused server (masked parametersMask)
      else self.Present server [] (masked parametersMask)
    else (masked parametersMask).any (isInvalid self.isBuffered)

variable {self : ClientReportControlBlock} {server : RcbWriteServer}
  {history : List (List RcbWrite)} {a b : RcbAttribute} {as bs : List RcbAttribute} {w : RcbWrite}
  {outcome : SetRcbOutcome} {parametersMask : UInt32}

/-! ## The items of a request -/

section Items

/-- An attribute as an item of a request. -/
def item (self : ClientReportControlBlock) (a : RcbAttribute) : List UInt8 × Option MmsValue :=
  (self.itemId ++ a.suffix, self.value a)

theorem filter_writeOrder :
    writeOrder.filter (isMasked parametersMask) =
      (masked parametersMask).filter (· ∈ writeOrder) := by
  have horder : writeOrder = RcbAttribute.inOrder.filter (· ∈ writeOrder) := by decide
  rw [horder, masked, List.filter_filter, List.filter_filter, ← horder]
  simp only [Bool.and_comm]

theorem mem_writeOrder_of_isInvalid {isBuffered : Bool} (h : isInvalid isBuffered a = true) :
    a ∈ writeOrder := by
  cases a <;> first | decide | cases h

theorem isInvalid_of_isAvailable {isBuffered : Bool} (h : a.isAvailable isBuffered = true) :
    isInvalid isBuffered a = false := by
  cases isBuffered <;> cases a <;> first | rfl | cases h

/-- Only the entry id of an unbuffered block is not available and not invalid. -/
theorem mem_writeOrder_of_not_isAvailable {isBuffered : Bool}
    (h : a.isAvailable isBuffered = false) : a ∈ writeOrder := by
  cases a <;> first | decide | cases h

theorem suffix_ne (ha : a ∉ writeOrder) (hb : b ∈ writeOrder) : a.suffix ≠ b.suffix := by
  have hall : ∀ a ∈ [RcbAttribute.confRev, .sqNum, .owner], ∀ b ∈ writeOrder,
      a.suffix ≠ b.suffix := by decide
  refine hall a ?_ b hb
  cases a <;> first | decide | exact absurd (by decide) ha

theorem requestedItems_of_fits
    (h : ∀ a ∈ as.takeWhile (!isInvalid self.isBuffered ·),
      self.itemId.length + a.suffix.length ≤ 128) :
    self.requestedItems as = .ok (if as.any (isInvalid self.isBuffered) then none
      else some (as.map self.item)) := by
  induction as with
  | nil => rfl
  | cons a as ih =>
    rw [requestedItems]
    cases hinvalid : isInvalid self.isBuffered a with
    | true => simp [hinvalid]
    | false =>
      rw [List.takeWhile_cons, hinvalid, Bool.not_false, if_pos rfl] at h
      have hfits := h a List.mem_cons_self
      rw [if_neg Bool.false_ne_true, if_neg (Nat.not_lt.mpr hfits),
        ih fun b hb => h b (List.mem_cons_of_mem a hb), ok_bind, List.any_cons, hinvalid,
        Bool.false_or]
      cases as.any (isInvalid self.isBuffered) with
      | true => rfl
      | false => rfl

theorem fits_of_requestedItems {r : Option (List (List UInt8 × Option MmsValue))}
    (h : self.requestedItems as = .ok r) :
    ∀ a ∈ as.takeWhile (!isInvalid self.isBuffered ·),
      self.itemId.length + a.suffix.length ≤ 128 := by
  induction as generalizing r with
  | nil => exact nofun
  | cons a as ih =>
    rw [requestedItems] at h
    intro b hb
    rw [List.takeWhile_cons] at hb
    cases hinvalid : isInvalid self.isBuffered a with
    | true => simp [hinvalid] at hb
    | false =>
      rw [hinvalid, if_neg Bool.false_ne_true] at h
      rw [hinvalid, Bool.not_false, if_pos rfl] at hb
      by_cases hlong : 128 < self.itemId.length + a.suffix.length
      · rw [if_pos hlong] at h
        cases h
      · rw [if_neg hlong] at h
        obtain ⟨rest, hrest, -⟩ := bind_ok h
        rcases List.mem_cons.mp hb with rfl | hb
        · exact Nat.not_lt.mp hlong
        · exact ih hrest b hb

theorem encodeItem_ok_iff : self.encodeItem (self.item a) = .ok w ↔ self.IsWrite a w := by
  rw [encodeItem, item, IsWrite]
  cases hvalue : self.value a with
  | none => simp
  | some v =>
    constructor
    · intro h
      cases h
      exact ⟨rfl, rfl, rfl⟩
    · rintro ⟨hdomain, hitem, hv⟩
      cases w
      simp_all

end Items

/-! ## One request for each attribute -/

section Each

theorem mapDataAccessErrorToIedError_ne_ok (error : MmsDataAccessError) :
    SetRcbError.service (mapDataAccessErrorToIedError error) ≠ .service .ok := by
  cases error <;> simp [mapDataAccessErrorToIedError]

theorem mapMmsErrorToIedError_ne_ok (error : IedConnection.CallError) :
    SetRcbError.service (IedConnection.mapMmsErrorToIedError (some error)) ≠ .service .ok := by
  intro h
  exact IedConnection.mapMmsErrorToIedError_some error (SetRcbError.service.inj h)

theorem accepted_singleton {result : RcbWrite → Option MmsDataAccessError}
    (h : server history [w] = .results result) : Accepted server history [w] ↔ result w = none := by
  simp [Accepted, h]

theorem not_accepted_of_failed {error : IedConnection.CallError} {request : List RcbWrite}
    (h : server history request = .failed error) : ¬ Accepted server history request := by
  simp [Accepted, h]

/-- The first item is sent, and the others when it was accepted. -/
theorem writeVariables_cons (hw : self.IsWrite a w) (items : List (List UInt8 × Option MmsValue)) :
    (Accepted server history [w] ∧ self.writeVariables server history (self.item a :: items) =
        (do
          let outcome ← self.writeVariables server (history ++ [[w]]) items
          return ⟨[w] :: outcome.requests, outcome.error⟩)) ∨
      ¬ Accepted server history [w] ∧ ∃ error, error ≠ .service .ok ∧
        self.writeVariables server history (self.item a :: items) = .ok ⟨[[w]], error⟩ := by
  rw [writeVariables, encodeItem_ok_iff.mpr hw]
  simp only [ok_bind]
  cases hanswer : server history [w] with
  | failed error =>
    exact Or.inr ⟨not_accepted_of_failed hanswer, _, mapMmsErrorToIedError_ne_ok error, rfl⟩
  | results result =>
    cases hresult : result w with
    | none =>
      refine Or.inl ⟨(accepted_singleton hanswer).mpr hresult, ?_⟩
      simp only [hresult]
    | some error =>
      refine Or.inr ⟨?_, _, mapDataAccessErrorToIedError_ne_ok error, by simp only [hresult]; rfl⟩
      rw [accepted_singleton hanswer, hresult]
      exact Option.some_ne_none error

/-- The first request is about the first attribute. -/
theorem head_writeVariables
    (h : self.writeVariables server history ((a :: as).map self.item) = .ok outcome) :
    ∃ w rest, self.IsWrite a w ∧ outcome.requests = [w] :: rest := by
  rw [List.map_cons] at h
  have hencode := h
  rw [writeVariables] at hencode
  obtain ⟨w, hw, -⟩ := bind_ok hencode
  have hwrite := encodeItem_ok_iff.mp hw
  rcases writeVariables_cons hwrite (as.map self.item) with ⟨-, heq⟩ | ⟨-, error, -, heq⟩
  · obtain ⟨rest, -, hrest⟩ := bind_ok (heq.symm.trans h)
    cases hrest
    exact ⟨w, rest.requests, hwrite, rfl⟩
  · cases heq.symm.trans h
    exact ⟨w, [], hwrite, rfl⟩

theorem writtenEach_accepted_iff {requests : List (List RcbWrite)} {success : Bool}
    (hw : self.IsWrite a w) (haccepted : Accepted server history [w]) :
    self.WrittenEach server history (a :: as) ([w] :: requests) success ↔
      self.WrittenEach server (history ++ [[w]]) as requests success := by
  constructor
  · intro h
    cases h with
    | refused _ hrefused => exact absurd haccepted hrefused
    | accepted _ _ hrest => exact hrest
  · exact .accepted hw haccepted

/-- An attribute that the function does not know is not written. -/
theorem not_writtenEach {success : Bool} (ha : a ∉ writeOrder) (hbs : ∀ b ∈ bs, b ∈ writeOrder)
    (h : self.writeVariables server history (bs.map self.item) = .ok outcome) :
    ¬ self.WrittenEach server history (a :: as) outcome.requests success := by
  intro hwritten
  obtain ⟨w, rest, hw, hrequests⟩ :
      ∃ w rest, self.IsWrite a w ∧ outcome.requests = [w] :: rest := by
    generalize outcome.requests = requests at hwritten
    cases hwritten with
    | refused hw _ => exact ⟨_, _, hw, rfl⟩
    | accepted hw _ _ => exact ⟨_, _, hw, rfl⟩
  cases bs with
  | nil =>
    cases h
    cases hrequests
  | cons b bs =>
    obtain ⟨w', rest', hw', hrequests'⟩ := head_writeVariables h
    cases hrequests.symm.trans hrequests'
    refine suffix_ne ha (hbs b List.mem_cons_self) ?_
    exact List.append_cancel_left (hw.2.1.symm.trans hw'.2.1)

/-- What the function writes in a loop over the attributes it knows is what is promised for all
masked ones. -/
theorem writeVariables_iff :
    (∃ outcome, self.writeVariables server history
        ((as.filter (· ∈ writeOrder)).map self.item) = .ok outcome ∧
      ∃ success, self.WrittenEach server history as outcome.requests success ∧
        (outcome.error = .service .ok ↔ success = true)) ↔
      self.Present server history as := by
  induction as generalizing history with
  | nil => exact iff_of_true ⟨_, rfl, true, .done history, iff_of_true rfl rfl⟩ trivial
  | cons a as ih =>
    by_cases ha : a ∈ writeOrder
    case neg =>
      refine iff_of_false ?_ fun h => ha h.1
      rintro ⟨outcome, hok, success, hwritten, -⟩
      refine not_writtenEach ha (fun b hb => ?_) hok hwritten
      exact of_decide_eq_true (List.mem_filter.mp hb).2
    case pos =>
      have hfilter : (a :: as).filter (· ∈ writeOrder) = a :: as.filter (· ∈ writeOrder) := by
        simp [ha]
      rw [hfilter, List.map_cons, Present, and_iff_right ha]
      by_cases hvalue : ∃ w, self.IsWrite a w
      · obtain ⟨w, hw⟩ := hvalue
        have hunique : ∀ w', self.IsWrite a w' → w' = w := by
          intro w' hw'
          rw [← encodeItem_ok_iff] at hw hw'
          exact Except.ok.inj (hw'.symm.trans hw)
        rcases writeVariables_cons hw ((as.filter (· ∈ writeOrder)).map self.item) with
          ⟨haccepted, heq⟩ | ⟨hrefused, error, herror, heq⟩
        · rw [heq]
          constructor
          · rintro ⟨outcome, hok, success, hwritten, herror⟩
            obtain ⟨rest, hrest, hreturn⟩ := bind_ok hok
            cases hreturn
            refine ⟨w, hw, fun _ => ih.mp ⟨rest, hrest, success, ?_, herror⟩⟩
            exact (writtenEach_accepted_iff hw haccepted).mp hwritten
          · rintro ⟨w', hw', hpresent⟩
            cases hunique w' hw'
            obtain ⟨rest, hrest, success, hwritten, herror⟩ := ih.mpr (hpresent haccepted)
            refine ⟨⟨[w] :: rest.requests, rest.error⟩, ?_, success, ?_, herror⟩
            · rw [hrest]
              rfl
            · exact (writtenEach_accepted_iff hw haccepted).mpr hwritten
        · rw [heq]
          refine iff_of_true ⟨_, rfl, false, .refused hw hrefused, ?_⟩ ⟨w, hw, fun h => ?_⟩
          · exact iff_of_false herror Bool.false_ne_true
          · exact absurd h hrefused
      · constructor
        · rintro ⟨outcome, hok, -⟩
          rw [← List.map_cons] at hok
          obtain ⟨w, rest, hw, -⟩ := head_writeVariables hok
          exact absurd ⟨w, hw⟩ hvalue
        · rintro ⟨w, hw, -⟩
          exact absurd ⟨w, hw⟩ hvalue

end Each

/-! ## One request -/

section Single

variable {request : List RcbWrite}

theorem mapM_encodeItem_iff :
    (as.map self.item).mapM self.encodeItem = .ok request ↔
      List.Forall₂ self.IsWrite as request := by
  induction as generalizing request with
  | nil =>
    constructor
    · intro h
      cases h
      exact .nil
    · intro h
      cases h
      rfl
  | cons a as ih =>
    rw [List.map_cons, List.mapM_cons]
    constructor
    · intro h
      obtain ⟨w, hw, h⟩ := bind_ok h
      obtain ⟨ws, hws, h⟩ := bind_ok h
      cases h
      exact .cons (encodeItem_ok_iff.mp hw) (ih.mp hws)
    · intro h
      cases h with
      | cons hw hws =>
        rw [encodeItem_ok_iff.mpr hw, ih.mpr hws]
        rfl

/-- The function gives success for every answer with results. -/
theorem writeMultipleVariables_of_mapM (server : RcbWriteServer)
    {items : List (List UInt8 × Option MmsValue)}
    (h : items.mapM self.encodeItem = .ok request) :
    ∃ outcome, self.writeMultipleVariables server items = .ok outcome ∧
      outcome.requests = [request] ∧
      (outcome.error = .service .ok ↔ ∃ result, server [] request = .results result) := by
  rw [writeMultipleVariables, h, ok_bind]
  cases hanswer : server [] request with
  | failed error =>
    exact ⟨_, rfl, rfl, iff_of_false (mapMmsErrorToIedError_ne_ok error) nofun⟩
  | results result => exact ⟨_, rfl, rfl, iff_of_true rfl ⟨result, rfl⟩⟩

theorem writeMultipleVariables_iff :
    (∃ outcome, self.writeMultipleVariables server
        ((as.filter (· ∈ writeOrder)).map self.item) = .ok outcome ∧
      ∃ request, outcome.requests = [request] ∧ List.Forall₂ self.IsWrite as request ∧
        (outcome.error = .service .ok ↔ Accepted server [] request)) ↔
      self.NoneRefused server as := by
  constructor
  · rintro ⟨outcome, hok, request, hrequests, hwrites, herror⟩
    have hencode := hok
    rw [writeMultipleVariables] at hencode
    obtain ⟨request', hrequest', -⟩ := bind_ok hencode
    obtain ⟨outcome', hok', hrequests', herror'⟩ :=
      writeMultipleVariables_of_mapM server hrequest'
    cases hok.symm.trans hok'
    cases hrequests.symm.trans hrequests'
    have hlength : (as.filter (· ∈ writeOrder)).length = as.length :=
      (mapM_encodeItem_iff.mp hrequest').length_eq.trans hwrites.length_eq.symm
    refine ⟨fun a ha => ?_, request, hwrites, fun result hresult => ?_⟩
    · exact of_decide_eq_true (List.length_filter_eq_length_iff.mp hlength a ha)
    · exact herror.mp (herror'.mpr ⟨result, hresult⟩)
  · rintro ⟨hmem, request, hwrites, haccepted⟩
    have hfilter : as.filter (· ∈ writeOrder) = as :=
      List.filter_eq_self.mpr fun a ha => decide_eq_true (hmem a ha)
    rw [hfilter]
    obtain ⟨outcome, hok, hrequests, herror⟩ :=
      writeMultipleVariables_of_mapM server (mapM_encodeItem_iff.mpr hwrites)
    refine ⟨outcome, hok, request, hrequests, hwrites, herror.trans ⟨?_, ?_⟩⟩
    · rintro ⟨result, hresult⟩
      exact haccepted result hresult
    · rintro ⟨result, hresult, -⟩
      exact ⟨result, hresult⟩

end Single

/-! ## Both modes -/

section Modes

variable {singleRequest : Bool}

theorem any_isInvalid_filter :
    (as.filter (· ∈ writeOrder)).any (isInvalid self.isBuffered) =
      as.any (isInvalid self.isBuffered) := by
  rw [Bool.eq_iff_iff, List.any_eq_true, List.any_eq_true]
  constructor
  · rintro ⟨a, ha, hinvalid⟩
    exact ⟨a, (List.mem_filter.mp ha).1, hinvalid⟩
  · rintro ⟨a, ha, hinvalid⟩
    exact ⟨a, List.mem_filter.mpr ⟨ha, decide_eq_true (mem_writeOrder_of_isInvalid hinvalid)⟩,
      hinvalid⟩

/-- What the function does when the names fit. -/
theorem setRCBValues_of_fits (h : self.NamesFit parametersMask) :
    self.setRCBValues parametersMask singleRequest server =
      if (masked parametersMask).any (isInvalid self.isBuffered) then
        .ok ⟨[], .userProvidedInvalidArgument⟩
      else if singleRequest then self.writeMultipleVariables server
        (((masked parametersMask).filter (· ∈ writeOrder)).map self.item)
      else self.writeVariables server []
        (((masked parametersMask).filter (· ∈ writeOrder)).map self.item) := by
  have hlengths : ¬ (64 < self.domainId.length ∨ 128 < self.itemId.length) :=
    not_or.mpr ⟨Nat.not_lt.mpr h.domain, Nat.not_lt.mpr h.item⟩
  rw [setRCBValues, if_neg (not_not_intro h.slash), if_neg hlengths, filter_writeOrder,
    requestedItems_of_fits h.suffixes, any_isInvalid_filter, ok_bind]
  cases (masked parametersMask).any (isInvalid self.isBuffered) with
  | true => rfl
  | false => rfl

theorem fits_of_setRCBValues
    (h : self.setRCBValues parametersMask singleRequest server = .ok outcome) :
    self.NamesFit parametersMask := by
  rw [setRCBValues] at h
  by_cases hslash : 47 ∈ self.objectReference
  case neg =>
    rw [if_pos hslash] at h
    cases h
  rw [if_neg (not_not_intro hslash)] at h
  by_cases hlengths : 64 < self.domainId.length ∨ 128 < self.itemId.length
  case pos =>
    rw [if_pos hlengths] at h
    cases h
  rw [if_neg hlengths, filter_writeOrder] at h
  obtain ⟨hdomain, hitem⟩ := not_or.mp hlengths
  obtain ⟨r, hr, -⟩ := bind_ok h
  exact ⟨hslash, Nat.not_lt.mp hdomain, Nat.not_lt.mp hitem, fits_of_requestedItems hr⟩

theorem requests_ne_nil (has : as ≠ [])
    (h : (if singleRequest then self.writeMultipleVariables server (as.map self.item)
      else self.writeVariables server [] (as.map self.item)) = .ok outcome) :
    outcome.requests ≠ [] := by
  cases singleRequest with
  | true =>
    have hencode := h
    rw [if_pos rfl, writeMultipleVariables] at hencode
    obtain ⟨request, hrequest, -⟩ := bind_ok hencode
    obtain ⟨outcome', hok, hrequests, -⟩ :=
      writeMultipleVariables_of_mapM server hrequest
    cases h.symm.trans hok
    rw [hrequests]
    exact List.cons_ne_nil _ _
  | false =>
    cases as with
    | nil => exact absurd rfl has
    | cons a as =>
      obtain ⟨w, rest, -, hrequests⟩ := head_writeVariables h
      rw [hrequests]
      exact List.cons_ne_nil _ _

theorem writesMasked_iff :
    self.WritesMasked parametersMask singleRequest server ↔
      self.Writable parametersMask singleRequest server := by
  rw [WritesMasked, Writable]
  by_cases hfits : self.NamesFit parametersMask
  case neg =>
    refine iff_of_false ?_ fun h => hfits h.1
    rintro ⟨outcome, hok, -⟩
    exact hfits (fits_of_setRCBValues hok)
  rw [and_iff_right hfits, setRCBValues_of_fits hfits]
  cases havailable : (masked parametersMask).all (RcbAttribute.isAvailable self.isBuffered) with
  | true =>
    have hvalid : (masked parametersMask).any (isInvalid self.isBuffered) = false := by
      rw [List.any_eq_false]
      intro a ha
      rw [isInvalid_of_isAvailable (List.all_eq_true.mp havailable a ha)]
      exact Bool.false_ne_true
    rw [hvalid]
    cases singleRequest with
    | true => exact writeMultipleVariables_iff
    | false => exact writeVariables_iff
  | false =>
    cases hvalid : (masked parametersMask).any (isInvalid self.isBuffered) with
    | true => exact iff_of_true ⟨_, rfl, rfl, nofun⟩ rfl
    | false =>
      refine iff_of_false ?_ Bool.false_ne_true
      rintro ⟨outcome, hok, hnil, -⟩
      obtain ⟨a, ha, hnot⟩ := List.all_eq_false.mp havailable
      have hmem : a ∈ (masked parametersMask).filter (· ∈ writeOrder) :=
        List.mem_filter.mpr ⟨ha, decide_eq_true
          (mem_writeOrder_of_not_isAvailable (Bool.eq_false_of_not_eq_true hnot))⟩
      exact requests_ne_nil (List.ne_nil_of_mem hmem) hok hnil

end Modes

end ClientReportControlBlock

/-! ## The access to a report control block -/

/-- What an application does with the copy of a report control block. -/
inductive RcbUse
  | set (s : RcbSetting)
  | update (values : List MmsValue)
  | write (parametersMask : UInt32) (singleRequest : Bool) (server : RcbWriteServer)

namespace RcbUse

open ClientReportControlBlock

variable {self : ClientReportControlBlock}

def Right (self : ClientReportControlBlock) : RcbUse → Prop
  | set s => s.ReadBack self
  | update values => IsStructure self.isBuffered values → self.ShowsStructure values
  | write parametersMask singleRequest server =>
    self.WritesMasked parametersMask singleRequest server

def Met (self : ClientReportControlBlock) : RcbUse → Prop
  | set s => s.Fits self
  | update values => IsStructure self.isBuffered values → self.Complete values
  | write parametersMask singleRequest server => self.Writable parametersMask singleRequest server

theorem right_iff (h : Made self) (use : RcbUse) : use.Right self ↔ use.Met self := by
  cases use with
  | set s => exact (s.readBack_iff h.typed).2
  | update values => exact imp_congr_right fun hvalues => showsStructure_iff h.typed hvalues
  | write => exact writesMasked_iff

/-- The trigger options of a new block. -/
theorem right_trgOps : (set (.trgOps 17)).Right (create (ascii "LD/LLN0.BR.rcb01")) :=
  (right_iff (.create _) (set (.trgOps 17))).mpr ⟨by decide, by decide⟩

/-- Reports with sequence numbers are asked for, and the getter says that they have time stamps. -/
theorem not_right_optFlds : ¬ (set (.optFlds 1)).Right (create (ascii "LD/LLN0.BR.rcb01")) := by
  rintro ⟨self', hset, hget⟩
  cases hset
  have hnumber : (Except.ok (.number 2) : Exec RcbReading) = .ok (.number 1) := hget
  cases hnumber

end RcbUse

end Iec61850
