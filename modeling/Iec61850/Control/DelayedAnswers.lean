import Iec61850.Control.Revocation

/-! The requests that are not answered at once: the thread of an operation answers them when it
knows what the dynamic tests say. -/

namespace Iec61850.Control

open Machine

/-- What the thread answers. -/
def resultOfTests (ok : Bool) : MmsDataAccessError := if ok then .success else .objectAccessDenied

namespace Worker

/-- The thread has yet to answer a request; inside is what the tests have said, if they have. A
time activated operation has been answered before there was a thread. -/
def outstanding (state : ControlState) : Worker → Option (Option Bool)
  | .start => if state = .waitForActivationTime then none else some none
  | .readState _ => if state = .waitForActivationTime then none else some none
  | .enter _ isTimeActivatedControl => if isTimeActivatedControl then none else some none
  | .waitForExecution _ isTimeActivatedControl =>
    if isTimeActivatedControl then none else some none
  | .reject _ isTimeActivatedControl =>
    if isTimeActivatedControl then none else some (some false)
  | .respond _ isTimeActivatedControl =>
    if isTimeActivatedControl then none else some (some true)
  | _ => none

/-- What the tests say at this step, where the request is not answered yet. -/
def decides (ok : Bool) : Worker → List Bool
  | .waitForExecution _ isTimeActivatedControl => if isTimeActivatedControl then [] else [ok]
  | _ => []

end Worker

namespace Server

def outstanding (s : Server) : List (Option Bool) :=
  (s.workers.filter Worker.isActive).filterMap (Worker.outstanding s.object.state)

/-- No thread has anything left to do but to count itself out. -/
def Settled (s : Server) : Prop := s.workers.filter Worker.isActive = []

end Server

/-- A request that is answered by a thread. -/
structure Asked where
  connection : Connection
  invokeId : UInt32
  deriving DecidableEq

structure Answer extends Asked where
  result : MmsDataAccessError
  deriving DecidableEq

/-- The answer that is sent to a client, if it is one. -/
def Observation.answer : Observation → Option Answer
  | .sent connection (.writeResponse invokeId result) => some ⟨⟨connection, invokeId⟩, result⟩
  | _ => none

/-- A control object with the requests that its threads are to answer, what the tests said for
them, and the answers. -/
structure AnswerHistory where
  server : Server
  asked : List Asked
  decided : List Bool
  answered : List Answer

namespace AnswerHistory

def start (object : ControlObject) : AnswerHistory := ⟨.create object, [], [], []⟩

/-- The request that an event leaves to a thread. -/
def asks (s : Server) : Event → List Asked
  | .writeOper w currentTime result invokeId =>
    match s.object.writeOper w currentTime result invokeId with
    | .ok r => if r.startsThread then [⟨w.connection, invokeId⟩] else []
    | .error _ => []
  | _ => []

/-- What the tests say for a request that is not answered yet. -/
def decides (s : Server) : Event → List Bool
  | .work index ok _ => s.workers[index]?.toList.flatMap (·.decides ok)
  | _ => []

def perform (h : AnswerHistory) (e : Event) : Exec AnswerHistory := do
  let (server, observations) ← h.server.step e
  return {
    server := server
    asked := h.asked ++ asks h.server e
    decided := h.decided ++ decides h.server e
    answered := h.answered ++ observations.filterMap Observation.answer }

def Step (h : AnswerHistory) (e : Event) (h' : AnswerHistory) : Prop := h.perform e = .ok h'

/-- No operation in progress is cancelled or cleared up, and its thread finds the client. -/
def Steady (h : AnswerHistory) (e : Event) : Prop :=
  h.server.Undisturbed e ∧ h.server.ThreadsFindClient e

/-- The threads answer what they have been asked, in this order, each once and with what the tests
have said. Nothing is left over when they have settled. -/
structure Answers (h : AnswerHistory) : Prop where
  inOrder : h.answered.map (·.toAsked) <+: h.asked
  results : h.answered.map (·.result) <+: h.decided.map resultOfTests
  complete : h.server.Settled → h.answered.map (·.toAsked) = h.asked ∧
    h.answered.map (·.result) = h.decided.map resultOfTests

end AnswerHistory

/-! ## What a request does -/

/-- Nothing of this is an answer. -/
def Silent (observations : List Observation) : Prop :=
  observations.filterMap Observation.answer = []

theorem Silent.append {observations more : List Observation} (h : Silent observations)
    (h' : Silent more) : Silent (observations ++ more) := by
  rw [Silent, List.filterMap_append, show _ = _ from h, show _ = _ from h']
  rfl

/-- What `Oper` makes of an object that is not busy. -/
inductive Begins (before after : ControlObject) (connection : Connection) (invokeId : UInt32) :
    Bool → Prop
  | rests : after.timeActivatedOperate = before.timeActivatedOperate →
    Begins before after connection invokeId false
  | activated : after.state = .waitForActivationTime →
    Begins before after connection invokeId false
  | started : after.state = .performTest → after.timeActivatedOperate = false →
    after.clientConnection = some connection → after.operateInvokeId = invokeId →
    Begins before after connection invokeId true

namespace ControlObject

variable {self : ControlObject} {w : ControlWrite} {currentTime : UInt64} {result : CheckResult}

theorem checkSelectTimeout_of_busy (h : self.state.isBusy = true) (currentTime : UInt64) :
    self.checkSelectTimeout currentTime = (self, []) := by
  have hready : decide (self.state = .ready) = false :=
    decide_eq_false (ControlState.not_ready h)
  rw [checkSelectTimeout, hready]
  simp

theorem readSBO_of_busy (h : self.state.isBusy = true) (connection : Connection)
    (currentTime : UInt64) (result : CheckResult) :
    (self.readSBO connection currentTime result).1 = self := by
  rw [readSBO, checkSelectTimeout_of_busy h]
  dsimp only
  rw [decide_eq_false (ControlState.not_unselected h), Bool.false_and]
  split <;> rfl

theorem writeSBOw_of_busy (h : self.state.isBusy = true) {r : Handled}
    (hr : self.writeSBOw w currentTime result = .ok r) : r.object = self := by
  rw [writeSBOw] at hr
  split at hr
  · cases hr
    rfl
  · split at hr
    · cases hr
      rfl
    · split at hr
      · cases hr
        rfl
      · rw [checkSelectTimeout_of_busy h] at hr
        dsimp only at hr
        rw [if_pos (ControlState.not_unselected h)] at hr
        cases hr
        rfl
    · cases hr

theorem writeOper_of_busy (h : self.state.isBusy = true) {invokeId : UInt32} {r : Handled}
    (hr : self.writeOper w currentTime result invokeId = .ok r) :
    r.object = self ∧ r.startsThread = false := by
  rw [writeOper] at hr
  split at hr
  · split at hr
    · cases hr
      exact ⟨rfl, rfl⟩
    · rw [checkSelectTimeout_of_busy h] at hr
      dsimp only at hr
      split at hr
      · cases hr
        exact ⟨rfl, rfl⟩
      · cases hr
        exact ⟨rfl, rfl⟩
      · rename_i hready
        exact absurd hready (ControlState.not_ready h)
      · cases hr
        exact ⟨rfl, rfl⟩
  · cases hr
    exact ⟨rfl, rfl⟩

theorem performTest_begins (before : ControlObject) (connection : Connection)
    (invokeId : UInt32) (observations : List Observation)
    (ht : self.timeActivatedOperate = false) (hbefore : before.timeActivatedOperate = false) :
    Begins before (self.performTest connection result invokeId observations).object connection
      invokeId (self.performTest connection result invokeId observations).startsThread := by
  rw [performTest]
  dsimp only
  split
  · exact .started rfl ht rfl rfl
  · exact .rests (ht.trans hbefore.symm)

/-- The time of a time activated operation is set together with its flag. -/
theorem setOperateTime_cases (self : ControlObject) (w : ControlWrite) (check : MmsValue) :
    ((setOperateTime self w check).state = .waitForActivationTime ∧
        (setOperateTime self w check).timeActivatedOperate = true) ∨
      (setOperateTime self w check).timeActivatedOperate = self.timeActivatedOperate := by
  rw [setOperateTime]
  split
  · exact .inr rfl
  · dsimp only
    split
    · exact .inl ⟨rfl, rfl⟩
    · exact .inr rfl

theorem acceptOper_begins {before : ControlObject} (parameters : ControlParameters)
    (check : MmsValue) (invokeId : UInt32) (observations : List Observation)
    (ht : self.timeActivatedOperate = before.timeActivatedOperate) :
    Begins before
      (self.acceptOper w parameters check currentTime result invokeId observations).object
      w.connection invokeId
      (self.acceptOper w parameters check currentTime result invokeId observations).startsThread := by
  have hcases := setOperateTime_cases { self with parameters := some parameters } w check
  rw [acceptOper]
  dsimp only
  split
  case isTrue htime =>
    rcases hcases with ⟨hwait, -⟩ | htimed
    · split
      · exact .activated hwait
      · exact .activated hwait
    · split
      · exact .rests (htimed.trans ht)
      · exact .rests (htimed.trans ht)
  case isFalse htime =>
    rcases hcases with ⟨-, htimed⟩ | htimed
    · exact absurd htimed htime
    · have hno := Bool.eq_false_of_not_eq_true htime
      exact performTest_begins before w.connection invokeId _ hno
        (ht.symm.trans (htimed.symm.trans hno))

theorem writeOper_begins {invokeId : UInt32} {r : Handled}
    (hr : self.writeOper w currentTime result invokeId = .ok r) :
    Begins self r.object w.connection invokeId r.startsThread := by
  have ht := self.checkSelectTimeout_timeActivated currentTime
  unfold writeOper at hr
  split at hr
  · split at hr
    · cases hr
      exact .rests rfl
    dsimp only at hr
    split at hr
    · cases hr
      exact .rests ht
    · cases hr
      exact .rests ht
    · split at hr
      · split at hr
        · cases hr
          exact .rests ht
        · split at hr
          · split at hr
            · cases hr
            · split at hr
              · cases hr
                exact acceptOper_begins _ _ _ _ ht
              · cases hr
                exact .rests ht
          · cases hr
            exact acceptOper_begins _ _ _ _ ht
      · cases hr
        exact acceptOper_begins _ _ _ _ ht
    · cases hr
      exact .rests ht
  · cases hr
    exact .rests rfl

theorem checkSelectTimeout_silent (self : ControlObject) (currentTime : UInt64) :
    Silent (self.checkSelectTimeout currentTime).2 := by
  rw [checkSelectTimeout]
  split <;> rfl

theorem readSBO_silent (self : ControlObject) (connection : Connection) (currentTime : UInt64)
    (result : CheckResult) : Silent (self.readSBO connection currentTime result).2.2 := by
  have hchecked := self.checkSelectTimeout_silent currentTime
  rw [readSBO]
  split
  · dsimp only
    split
    · exact hchecked.append rfl
    · exact hchecked
  · rfl

theorem writeSBOw_silent {r : Handled} (hr : self.writeSBOw w currentTime result = .ok r) :
    Silent r.observations := by
  have hchecked := self.checkSelectTimeout_silent currentTime
  rw [writeSBOw] at hr
  split at hr
  · cases hr
    rfl
  · split at hr
    · cases hr
      rfl
    · split at hr
      · cases hr
        rfl
      · dsimp only at hr
        split at hr
        · cases hr
          exact hchecked
        · split at hr
          · cases hr
            exact hchecked.append rfl
          · cases hr
            exact hchecked
    · cases hr

theorem performTest_silent (connection : Connection) (invokeId : UInt32)
    {observations : List Observation} (h : Silent observations) :
    Silent (self.performTest connection result invokeId observations).observations := by
  have hasked : Silent (asked result (some connection)) := by
    rw [asked]
    split <;> rfl
  rw [performTest]
  dsimp only
  split
  · exact h.append hasked
  · exact (h.append hasked).append rfl

theorem acceptOper_silent (parameters : ControlParameters) (check : MmsValue)
    (invokeId : UInt32) {observations : List Observation} (h : Silent observations) :
    Silent (self.acceptOper w parameters check currentTime result invokeId
      observations).observations := by
  rw [acceptOper]
  dsimp only
  split
  · split
    · exact h
    · exact h.append rfl
  · exact performTest_silent w.connection invokeId (h.append rfl)

theorem writeOper_silent {invokeId : UInt32} {r : Handled}
    (hr : self.writeOper w currentTime result invokeId = .ok r) : Silent r.observations := by
  have hchecked := self.checkSelectTimeout_silent currentTime
  unfold writeOper at hr
  split at hr
  · split at hr
    · cases hr
      rfl
    dsimp only at hr
    split at hr
    · cases hr
      exact hchecked
    · cases hr
      exact hchecked
    · split at hr
      · split at hr
        · cases hr
          exact hchecked
        · split at hr
          · split at hr
            · cases hr
            · split at hr
              · cases hr
                exact acceptOper_silent _ _ _ hchecked
              · cases hr
                exact hchecked
          · cases hr
            exact acceptOper_silent _ _ _ hchecked
      · cases hr
        exact acceptOper_silent _ _ _ hchecked
    · cases hr
      exact hchecked
  · cases hr
    rfl

theorem writeCancel_silent (self : ControlObject) (w : ControlWrite) :
    Silent (self.writeCancel w).observations := by
  have hgiveUp (indication : MmsDataAccessError) (lastApplError : Option LastApplError) :
      Silent (self.cancelTimeActivated indication lastApplError).observations := by
    rw [cancelTimeActivated]
    split <;> rfl
  unfold writeCancel
  split
  · split
    · split
      · rfl
      · exact hgiveUp _ _
    · exact hgiveUp _ _
  · rfl

theorem cancelTimeActivated_eq (self : ControlObject) (indication : MmsDataAccessError)
    (lastApplError : Option LastApplError) :
    (self.cancelTimeActivated indication lastApplError).object =
      if self.timeActivatedOperate then
        { self with timeActivatedOperate := false }.abortControlOperation
      else self := by
  rw [cancelTimeActivated]
  split <;> rfl

/-- `Cancel` changes nothing, or its client has selected the object, or something has waited for
its time. -/
theorem writeCancel_object (self : ControlObject) (w : ControlWrite) :
    (self.writeCancel w).object = self ∨
      (self.isSelectBeforeOperate = true ∧ self.state ≠ .unselected ∧
        self.clientConnection = some w.connection ∧
        (getCancelParameterCtlNum w.value).isSome ∧ (getCancelParameterOrigin w.value).isSome ∧
        (self.writeCancel w).object = { self with state := .unselected }) ∨
      (self.timeActivatedOperate = true ∧ (self.writeCancel w).object =
        { self with timeActivatedOperate := false }.abortControlOperation) := by
  have hgiveUp (indication : MmsDataAccessError) (lastApplError : Option LastApplError) :
      (self.cancelTimeActivated indication lastApplError).object = self ∨
        (self.timeActivatedOperate = true ∧
          (self.cancelTimeActivated indication lastApplError).object =
            { self with timeActivatedOperate := false }.abortControlOperation) := by
    rw [cancelTimeActivated_eq]
    split
    case isTrue ht => exact .inr ⟨ht, rfl⟩
    case isFalse => exact .inl rfl
  unfold writeCancel
  split
  · rename_i hnum horigin
    split
    · rename_i hsbo
      rw [Bool.and_eq_true, decide_eq_true_eq] at hsbo
      split
      · rename_i hc
        refine .inr (.inl ⟨hsbo.1, hsbo.2, hc, ?_, ?_, rfl⟩)
        · rw [hnum]
          rfl
        · rw [horigin]
          rfl
      · exact (hgiveUp _ _).imp_right .inr
    · exact (hgiveUp _ _).imp_right .inr
  · exact .inl rfl

end ControlObject

/-! ## What a thread does -/

namespace Observation

/-- The request that is answered, as the object knows it. -/
def answered (observations : List Observation) : List (Option Connection × UInt32) :=
  (observations.filterMap answer).map fun a => (some a.connection, a.invokeId)

def results (observations : List Observation) : List MmsDataAccessError :=
  (observations.filterMap answer).map (·.result)

end Observation

namespace ControlObject

/-- The requests that are not answered yet. -/
def waiting (self : ControlObject) (outstanding : List (Option Bool)) :
    List (Option Connection × UInt32) :=
  outstanding.map fun _ => (self.clientConnection, self.operateInvokeId)

end ControlObject

/-- What will be answered, as far as it is decided. -/
def resultsOf (outstanding : List (Option Bool)) : List MmsDataAccessError :=
  (outstanding.filterMap id).map resultOfTests

namespace Worker

variable {self object : ControlObject} {closed : List Connection} {ok : Bool}
  {currentTime : UInt64} {worker : Worker} {next : Option Worker}
  {observations : List Observation}

/-- What the thread has to answer is answered by the step or left to what is next, and so is what
has been decided. -/
structure Conserves (before after : ControlObject) (worker : Worker) (ok : Bool)
    (next : Option Worker) (observations : List Observation) : Prop where
  asked : before.waiting (worker.outstanding before.state).toList =
    Observation.answered observations ++
      after.waiting (next.bind (outstanding after.state)).toList
  decided : resultsOf (worker.outstanding before.state).toList ++
      (worker.decides ok).map resultOfTests =
    Observation.results observations ++ resultsOf (next.bind (outstanding after.state)).toList

theorem send_eq {message : Message} {sent : List Observation}
    (h : self.send message = .ok sent) :
    ∃ connection, self.clientConnection = some connection ∧ sent = [.sent connection message] := by
  rw [ControlObject.send] at h
  split at h
  · cases h
  · rename_i connection hc
    cases h
    exact ⟨connection, hc, rfl⟩

/-- The answer is sent. -/
theorem conserves_answer (ok : Bool) {next : Option Worker} {sent : List Observation}
    (hsend : self.send (.writeResponse self.operateInvokeId (resultOfTests ok)) = .ok sent)
    (hworker : worker.outstanding self.state = some (some ok)) (htests : ∀ b, worker.decides b = [])
    (hnext : next.bind (outstanding object.state) = none) (b : Bool) :
    Conserves self object worker b next sent := by
  obtain ⟨connection, hc, rfl⟩ := send_eq hsend
  constructor
  · rw [hworker, hnext, Option.toList_some, ControlObject.waiting, hc]
    rfl
  · rw [hworker, hnext, htests]
    rfl

/-- Nothing is answered, and as much is left to answer as before. -/
theorem conserves_silent {b : Bool} (hsilent : Silent observations)
    (htests : worker.decides b = [])
    (hnext : next.bind (outstanding object.state) = worker.outstanding self.state)
    (hclient : object.clientConnection = self.clientConnection)
    (hinvoke : object.operateInvokeId = self.operateInvokeId) :
    Conserves self object worker b next observations := by
  constructor
  · rw [Observation.answered, show _ = _ from hsilent, hnext, ControlObject.waiting,
      ControlObject.waiting, hclient, hinvoke]
    rfl
  · rw [Observation.results, show _ = _ from hsilent, hnext, htests]
    exact List.append_nil _

theorem silent_of_send {message : Message} {sent : List Observation}
    (hmessage : ∀ connection, (Observation.sent connection message).answer = none)
    (h : self.send message = .ok sent) : Silent sent := by
  obtain ⟨connection, -, rfl⟩ := send_eq h
  rw [Silent, List.filterMap_cons_none (hmessage connection)]
  rfl

theorem sendLastApplError_silent {addCause : Int32}
    {sent : List Observation} (h : self.sendLastApplError addCause = .ok sent) : Silent sent := by
  rw [ControlObject.sendLastApplError] at h
  split at h
  · cases h
  · exact silent_of_send (fun _ => rfl) h

theorem clearOperTime_eq (h : self.clearOperTime = .ok object) :
    object.state = self.state ∧ object.clientConnection = self.clientConnection ∧
      object.operateInvokeId = self.operateInvokeId := by
  rw [ControlObject.clearOperTime] at h
  split at h
  · split at h
    · cases h
      exact ⟨rfl, rfl, rfl⟩
    · cases h
  · cases h

theorem step_conserves
    (hs : worker.step self closed ok currentTime = .ok (object, next, observations))
    (hstart : worker = .start → ∃ connection, self.clientConnection = some connection ∧
      connection ∉ closed) : Conserves self object worker ok next observations := by
  cases worker with
  | start =>
    obtain ⟨connection, hc, hmem⟩ := hstart rfl
    simp only [step, hc, if_neg hmem] at hs
    cases hs
    exact conserves_silent rfl rfl rfl rfl rfl
  | readState task =>
    cases hs
    refine conserves_silent rfl rfl ?_ rfl rfl
    simp [outstanding]
  | enter task timed =>
    cases hs
    exact conserves_silent rfl rfl rfl rfl rfl
  | waitForExecution task timed =>
    cases hs
    cases timed with
    | true =>
      refine conserves_silent rfl rfl ?_ rfl rfl
      cases ok <;> rfl
    | false => cases ok <;> exact ⟨rfl, rfl⟩
  | reject task timed =>
    cases timed with
    | true =>
      obtain ⟨sent, hsent, hs⟩ := bind_ok hs
      cases hs
      exact conserves_silent (sendLastApplError_silent hsent) rfl rfl rfl rfl
    | false =>
      obtain ⟨sent, hsent, hs⟩ := bind_ok hs
      cases hs
      exact conserves_answer false hsent rfl (fun _ => rfl) rfl ok
  | respond task timed =>
    cases timed with
    | true =>
      obtain ⟨sent, hsent, hs⟩ := bind_ok hs
      obtain ⟨cleared, hcleared, hs⟩ := bind_ok hs
      cases hs
      obtain ⟨-, hc, hi⟩ := clearOperTime_eq hcleared
      exact conserves_silent (silent_of_send (fun _ => rfl) hsent) rfl rfl hc hi
    | false =>
      obtain ⟨sent, hsent, hs⟩ := bind_ok hs
      cases hs
      exact conserves_answer true hsent rfl (fun _ => rfl) rfl ok
  | setOperate task =>
    cases hs
    exact conserves_silent rfl rfl rfl rfl rfl
  | operate task time =>
    cases hs
    exact conserves_silent rfl rfl rfl rfl rfl
  | terminate task =>
    rw [step] at hs
    split at hs
    · obtain ⟨sent, hsent, hs⟩ := bind_ok hs
      cases hs
      exact conserves_silent (silent_of_send (fun _ => rfl) hsent) rfl rfl rfl rfl
    · cases hs
      exact conserves_silent rfl rfl rfl rfl rfl
  | abort task =>
    cases hs
    exact conserves_silent rfl rfl rfl rfl rfl
  | decreaseTasksCount task =>
    cases hs
    exact conserves_silent rfl rfl rfl rfl rfl

/-- A thread that leaves its object at rest has nothing more to do with it. -/
theorem step_rests
    (hs : worker.step self closed ok currentTime = .ok (object, next, observations))
    (hbusy : self.state.isBusy = true) (hrests : object.state.isBusy = false) :
    next.toList.filter isActive = [] := by
  have hcontra : object.state = self.state → next.toList.filter isActive = [] := by
    intro heq
    rw [heq, hbusy] at hrests
    cases hrests
  cases worker with
  | start =>
    rw [step] at hs
    split at hs
    · cases hs
      rfl
    · split at hs
      · cases hs
        rfl
      · cases hs
        exact hcontra rfl
  | readState task =>
    cases hs
    exact hcontra rfl
  | enter task timed =>
    cases hs
    cases hrests
  | waitForExecution task timed =>
    cases hs
    exact hcontra rfl
  | reject task timed =>
    cases timed with
    | true =>
      obtain ⟨sent, _, hs⟩ := bind_ok hs
      cases hs
      exact hcontra rfl
    | false =>
      obtain ⟨sent, _, hs⟩ := bind_ok hs
      cases hs
      exact hcontra rfl
  | respond task timed =>
    cases timed with
    | true =>
      obtain ⟨sent, _, hs⟩ := bind_ok hs
      obtain ⟨cleared, hcleared, hs⟩ := bind_ok hs
      cases hs
      exact hcontra (clearOperTime_eq hcleared).1
    | false =>
      obtain ⟨sent, _, hs⟩ := bind_ok hs
      cases hs
      exact hcontra rfl
  | setOperate task =>
    cases hs
    cases hrests
  | operate task time =>
    cases hs
    exact hcontra rfl
  | terminate task =>
    rw [step] at hs
    split at hs
    · obtain ⟨sent, _, hs⟩ := bind_ok hs
      cases hs
      exact hcontra rfl
    · cases hs
      exact hcontra rfl
  | abort task =>
    cases hs
    rfl
  | decreaseTasksCount task =>
    cases hs
    rfl

end Worker

/-! ## The answers of a run -/

namespace Server

variable {s s' : Server} {observations : List Observation}

/-- Where an object that is not busy has no operation, one that has a thread is busy, and one that
waits for its time says so. -/
structure Orders (s : Server) : Prop where
  quiet : s.object.state.isBusy = false → s.operations = 0
  exclusive : s.operations ≤ 1
  timed : s.object.timeActivatedOperate = true ∨ s.starting = true →
    s.object.state = .waitForActivationTime

/-- The requests that are not answered yet, as the object knows them. -/
def waiting (s : Server) : List (Option Connection × UInt32) := s.object.waiting s.outstanding

theorem outstanding_of_operations (h : s.operations = 0) : s.outstanding = [] := by
  rw [outstanding, (operations_eq_zero h).2.2]
  rfl

theorem Orders.of_idle (hz : s.operations = 0) : s.Orders where
  quiet _ := hz
  exclusive := by
    rw [hz]
    exact Nat.zero_le 1
  timed ht := by
    obtain ⟨htime, hstart, -⟩ := operations_eq_zero hz
    rcases ht with ht | ht
    · rw [htime] at ht
      cases ht
    · rw [hstart] at ht
      cases ht

/-- The operation that is in progress has a thread. -/
theorem Orders.only (h : s.Orders) {index : Nat} {worker : Worker}
    (hget : s.workers[index]? = some worker) (hactive : worker.isActive = true) :
    s.object.timeActivatedOperate = false ∧ s.starting = false ∧
      s.workers.filter Worker.isActive = [worker] := by
  have hmem : worker ∈ s.workers.filter Worker.isActive :=
    List.mem_filter.mpr ⟨List.mem_of_getElem? hget, hactive⟩
  have hpos := List.length_pos_of_mem hmem
  have hle := h.exclusive
  rw [operations] at hle
  have hone : (s.workers.filter Worker.isActive).length = 1 := by omega
  obtain ⟨only, honly⟩ := List.length_eq_one_iff.mp hone
  rw [hone] at hle
  rw [honly, List.mem_singleton] at hmem
  refine ⟨?_, ?_, hmem ▸ honly⟩
  · by_contra hne
    rw [if_pos (eq_true_of_ne_false hne)] at hle
    omega
  · by_contra hne
    rw [if_pos (eq_true_of_ne_false hne)] at hle
    omega

/-- The operation that is in progress waits for its time. -/
theorem Orders.waits (h : s.Orders) (ht : s.object.timeActivatedOperate = true) :
    s.starting = false ∧ s.workers.filter Worker.isActive = [] := by
  have hle := h.exclusive
  rw [operations, if_pos ht] at hle
  constructor
  · by_contra hne
    rw [if_pos (eq_true_of_ne_false hne)] at hle
    omega
  · apply List.eq_nil_of_length_eq_zero
    omega

/-- The operation that is in progress is about to be started. -/
theorem Orders.starting (h : s.Orders) (hs : s.starting = true) :
    s.object.timeActivatedOperate = false ∧ s.workers.filter Worker.isActive = [] := by
  have hle := h.exclusive
  rw [operations, if_pos hs] at hle
  constructor
  · by_contra hne
    rw [if_pos (eq_true_of_ne_false hne)] at hle
    omega
  · apply List.eq_nil_of_length_eq_zero
    omega

/-- A request that begins nothing, whether the object is busy or not. -/
theorem Orders.request (h : s.Orders) {object : ControlObject}
    (hbusy : s.object.state.isBusy = true → object = s.object)
    (htime : object.timeActivatedOperate = s.object.timeActivatedOperate) :
    Orders { s with object := object } := by
  cases hb : s.object.state.isBusy with
  | true =>
    rw [hbusy hb]
    exact h
  | false =>
    obtain ⟨hno, hstart, hw⟩ := operations_eq_zero (h.quiet hb)
    apply of_idle
    rw [operations]
    dsimp only
    rw [htime, hno, hstart, hw]
    rfl

/-- `Oper` begins an operation that waits for its time. -/
theorem Orders.activated {object : ControlObject} (hz : s.operations = 0)
    (hstate : object.state = .waitForActivationTime) : Orders { s with object := object } := by
  obtain ⟨-, hstart, hw⟩ := operations_eq_zero hz
  refine ⟨fun hb => ?_, ?_, fun _ => hstate⟩
  · rw [show _ = _ from hstate] at hb
    cases hb
  · rw [operations]
    dsimp only
    rw [hstart, hw]
    split <;> decide

/-- `Oper` begins an operation with a thread. -/
theorem Orders.started {object : ControlObject} (hz : s.operations = 0)
    (hstate : object.state = .performTest) (htime : object.timeActivatedOperate = false) :
    Orders { s with object := object, workers := s.workers ++ [.start] } := by
  obtain ⟨-, hstart, hw⟩ := operations_eq_zero hz
  refine ⟨fun hb => ?_, ?_, fun hor => ?_⟩
  · rw [show _ = _ from hstate] at hb
    cases hb
  · rw [operations, List.filter_append, hw]
    dsimp only
    rw [htime, hstart]
    exact le_rfl
  · rw [htime, hstart] at hor
    rcases hor with hor | hor <;> cases hor

theorem Orders.writeOper (h : s.Orders) {w : ControlWrite} {currentTime : UInt64}
    {result : CheckResult} {invokeId : UInt32} {r : Handled}
    (hr : s.object.writeOper w currentTime result invokeId = .ok r) :
    Orders (s.handled r).1 := by
  cases hb : s.object.state.isBusy with
  | true =>
    obtain ⟨hsame, hthread⟩ := ControlObject.writeOper_of_busy hb hr
    rw [handled, hsame, hthread, if_neg Bool.false_ne_true]
    exact h
  | false =>
    have hz := h.quiet hb
    have hbegins := ControlObject.writeOper_begins hr
    rw [handled]
    generalize r.startsThread = startsThread at hbegins
    cases hbegins with
    | rests htime =>
      rw [if_neg Bool.false_ne_true]
      refine h.request (fun hbusy => ?_) htime
      rw [hb] at hbusy
      cases hbusy
    | activated hstate =>
      rw [if_neg Bool.false_ne_true]
      exact Orders.activated hz hstate
    | started hstate htime =>
      rw [if_pos rfl]
      exact Orders.started hz hstate htime

/-- An operation that waits for its time is given up. -/
theorem Orders.gaveUp (h : s.Orders) (htime : s.object.timeActivatedOperate = true) :
    operations { s with object :=
      { s.object with timeActivatedOperate := false }.abortControlOperation } = 0 := by
  obtain ⟨hstart, hw⟩ := h.waits htime
  rw [operations]
  dsimp only
  rw [hstart, hw]
  rfl

theorem Orders.writeCancel (h : s.Orders) {w : ControlWrite}
    (hg : s.OwnerCancels w → s.operations = 0) :
    Orders (s.handled (s.object.writeCancel w)).1 := by
  have hthread := (s.object.writeCancel_cases w).2.1
  rw [handled, hthread, if_neg Bool.false_ne_true]
  rcases s.object.writeCancel_object w with hsame | ⟨-, hstate, hc, hnum, horigin, hobject⟩ |
    ⟨htime, hobject⟩
  · rw [hsame]
    exact h
  · rw [hobject]
    exact .of_idle (hg ⟨hstate, hc, hnum, horigin⟩)
  · rw [hobject]
    exact .of_idle (h.gaveUp htime)

theorem Orders.processControlActions (h : s.Orders) (currentTime : UInt64) :
    Orders (s.processControlActions currentTime) := by
  rw [Server.processControlActions]
  split
  case isFalse => exact h
  case isTrue hcond =>
    simp only [Bool.and_eq_true, Bool.not_eq_true'] at hcond
    obtain ⟨⟨hstart, htime⟩, -⟩ := hcond
    have hstate := h.timed (.inl htime)
    have hle := h.exclusive
    refine ⟨fun hb => ?_, ?_, fun _ => hstate⟩
    · rw [show _ = _ from hstate] at hb
      cases hb
    · rw [operations, htime, hstart] at hle
      exact hle

theorem Orders.startActivated (h : s.Orders) {result : CheckResult}
    (hs : s.startActivated result = .ok (s', observations)) : s'.Orders := by
  rw [Server.startActivated] at hs
  split at hs
  case isFalse =>
    cases hs
    exact h
  case isTrue hstart =>
    have hstate := h.timed (.inr hstart)
    obtain ⟨htime, hw⟩ := h.starting hstart
    dsimp only at hs
    split at hs
    case isTrue =>
      cases hs
      refine ⟨fun hb => ?_, ?_, fun _ => hstate⟩
      · rw [show _ = _ from hstate] at hb
        cases hb
      · rw [operations, List.filter_append, hw]
        dsimp only
        rw [htime]
        exact le_rfl
    case isFalse =>
      obtain ⟨sent, -, hs⟩ := bind_ok hs
      cases hs
      apply of_idle
      simp only [operations, hw, ControlObject.abortControlOperation, htime]
      rfl

/-- The thread of the operation that is in progress takes a step. -/
theorem Orders.workActive (h : s.Orders) {index : Nat} {ok : Bool} {currentTime : UInt64}
    {worker : Worker} {object : ControlObject} {next : Option Worker}
    (hget : s.workers[index]? = some worker) (hactive : worker.isActive = true)
    (hs : worker.step s.object s.closed ok currentTime = .ok (object, next, observations)) :
    Orders { s with object := object, workers := moved s.workers index next } := by
  obtain ⟨htime, hstart, honly⟩ := h.only hget hactive
  have hmoved := (filter_moved_active hget hactive honly next).2
  have hframe := (Worker.step_frame hs).1.trans htime
  have hbusy : s.object.state.isBusy = true := by
    by_contra hb
    have hz := h.quiet (Bool.eq_false_of_not_eq_true hb)
    rw [(operations_eq_zero hz).2.2] at honly
    cases honly
  refine ⟨fun hrests => ?_, ?_, fun hor => ?_⟩
  · have hnone := Worker.step_rests hs hbusy hrests
    rw [operations]
    dsimp only
    rw [hframe, hstart, hmoved, hnone]
    rfl
  · rw [operations]
    dsimp only
    rw [hframe, hstart, hmoved, if_neg Bool.false_ne_true, Nat.zero_add]
    refine (List.length_filter_le Worker.isActive next.toList).trans ?_
    cases next with
    | none => exact Nat.zero_le 1
    | some worker => exact le_rfl
  · dsimp only at hor
    rw [hframe, hstart] at hor
    rcases hor with hor | hor <;> cases hor

/-- A thread that has only to count itself out. -/
theorem filter_ended {workers : List Worker} {index : Nat} {task : Connection}
    (hget : workers[index]? = some (.decreaseTasksCount task)) :
    (moved workers index none).filter Worker.isActive = workers.filter Worker.isActive := by
  obtain ⟨hall, hmoved⟩ := filter_moved hget none
  rw [hall, hmoved]
  rfl

theorem Orders.workEnded (h : s.Orders) {index : Nat} {task : Connection}
    (hget : s.workers[index]? = some (.decreaseTasksCount task)) :
    Orders { s with workers := moved s.workers index none } := by
  have hops : operations { s with workers := moved s.workers index none } = s.operations := by
    rw [operations, operations, filter_ended hget]
  refine ⟨?_, ?_, h.timed⟩
  · rw [hops]
    exact h.quiet
  · rw [hops]
    exact h.exclusive

theorem Orders.work (h : s.Orders) {index : Nat} {ok : Bool} {currentTime : UInt64}
    (hs : s.work index ok currentTime = .ok (s', observations)) : s'.Orders := by
  rw [Server.work] at hs
  cases hget : s.workers[index]? with
  | none =>
    rw [hget] at hs
    cases hs
    exact h
  | some worker =>
    rw [hget] at hs
    obtain ⟨⟨object, next, sent⟩, hstep, hs⟩ := bind_ok hs
    cases hs
    cases hactive : worker.isActive with
    | true => exact h.workActive hget hactive hstep
    | false =>
      cases worker with
      | decreaseTasksCount task =>
        cases hstep
        exact h.workEnded hget
      | _ => cases hactive

/-- No operation in progress is cancelled or cleared up: then the object stays in order. -/
theorem Orders.step (h : s.Orders) {e : Event} (hg : s.Undisturbed e)
    (hs : s.step e = .ok (s', observations)) : s'.Orders := by
  cases e with
  | readSBO connection currentTime result =>
    cases hs
    exact h.request (fun hb => ControlObject.readSBO_of_busy hb _ _ _)
      (ControlObject.readSBO_timeActivated _ _ _ _)
  | writeSBOw w currentTime result =>
    obtain ⟨r, hr, hs⟩ := bind_ok hs
    obtain ⟨htime, hthread⟩ := ControlObject.writeSBOw_timeActivated hr
    cases hs
    rw [hthread, if_neg Bool.false_ne_true]
    exact h.request (fun hb => ControlObject.writeSBOw_of_busy hb hr) htime
  | writeOper w currentTime result invokeId =>
    obtain ⟨r, hr, hs⟩ := bind_ok hs
    cases hs
    exact h.writeOper hr
  | writeCancel w =>
    cases hs
    exact h.writeCancel hg.2
  | processControlActions currentTime =>
    cases hs
    exact h.processControlActions currentTime
  | startActivated result => exact h.startActivated hs
  | work index ok currentTime => exact h.work hs
  | connectionClosed connection =>
    cases hs
    exact ⟨h.quiet, h.exclusive, h.timed⟩
  | unselect connection =>
    cases hs
    rw [ControlObject.unselect]
    split
    case isTrue hc => exact .of_idle (hg.2 hc)
    case isFalse => exact h
  | configure sboClass sboTimeout =>
    cases hs
    exact ⟨h.quiet, h.exclusive, h.timed⟩

end Server

namespace AnswerHistory

open Server

variable {h h' : AnswerHistory}

/-- What has been asked is answered or waits for its thread, and the same holds for what has been
decided. -/
structure Tracks (h : AnswerHistory) : Prop where
  orders : h.server.Orders
  asked : h.asked.map (fun a => (some a.connection, a.invokeId)) =
    h.answered.map (fun a => (some a.connection, a.invokeId)) ++ h.server.waiting
  decided : h.decided.map resultOfTests = h.answered.map (·.result) ++
    resultsOf h.server.outstanding

/-- A step that asks, decides and answers nothing. -/
theorem Tracks.of_server (ht : h.Tracks) (s : Server) (ho : s.Orders)
    (hout : s.outstanding = h.server.outstanding) (hwait : s.waiting = h.server.waiting) :
    Tracks { h with server := s } where
  orders := ho
  asked := by rw [hwait, ht.asked]
  decided := by rw [hout, ht.decided]

/-- A step to a server that has nothing in progress. -/
theorem Tracks.of_idle (ht : h.Tracks) (s : Server) (hout : h.server.outstanding = [])
    (hz : s.operations = 0) : Tracks { h with server := s } := by
  refine ht.of_server s (.of_idle hz) ?_ ?_
  · rw [hout, outstanding_of_operations hz]
  · rw [waiting, waiting, hout, outstanding_of_operations hz]
    rfl

/-- A request of which nothing is left to a thread. -/
theorem Tracks.rests (ht : h.Tracks) {object : ControlObject}
    (hz : h.server.operations = 0)
    (htime : object.timeActivatedOperate = h.server.object.timeActivatedOperate) :
    Tracks { h with server := { h.server with object := object } } := by
  obtain ⟨hno, hstart, hw⟩ := operations_eq_zero hz
  refine ht.of_idle _ (outstanding_of_operations hz) ?_
  rw [operations]
  dsimp only
  rw [htime, hno, hstart, hw]
  rfl

/-- A request that leaves nothing to a thread, whether the object is busy or not. -/
theorem Tracks.request (ht : h.Tracks) {object : ControlObject}
    (hbusy : h.server.object.state.isBusy = true → object = h.server.object)
    (htime : object.timeActivatedOperate = h.server.object.timeActivatedOperate) :
    Tracks { h with server := { h.server with object := object } } := by
  cases hb : h.server.object.state.isBusy with
  | true =>
    rw [hbusy hb]
    exact ht
  | false => exact ht.rests (ht.orders.quiet hb) htime

/-- `Oper` begins an operation that waits for its time. -/
theorem Tracks.activated (ht : h.Tracks) {object : ControlObject} (hz : h.server.operations = 0)
    (hstate : object.state = .waitForActivationTime) :
    Tracks { h with server := { h.server with object := object } } := by
  have hw := (operations_eq_zero hz).2.2
  have hout : outstanding { h.server with object := object } = [] := by
    rw [outstanding, hw]
    rfl
  refine ht.of_server _ (Orders.activated hz hstate) ?_ ?_
  · rw [hout, outstanding_of_operations hz]
  · rw [waiting, waiting, hout, outstanding_of_operations hz]
    rfl

/-- `Oper` begins an operation with a thread, and leaves the request to it. -/
theorem Tracks.started (ht : h.Tracks) {object : ControlObject} {connection : Connection}
    {invokeId : UInt32} (hz : h.server.operations = 0) (hstate : object.state = .performTest)
    (htime : object.timeActivatedOperate = false)
    (hclient : object.clientConnection = some connection)
    (hinvoke : object.operateInvokeId = invokeId) :
    Tracks { h with
      server := { h.server with object := object, workers := h.server.workers ++ [.start] }
      asked := h.asked ++ [⟨connection, invokeId⟩] } := by
  have hw := (operations_eq_zero hz).2.2
  have hactive : (h.server.workers ++ [Worker.start]).filter Worker.isActive = [.start] := by
    rw [List.filter_append, hw]
    rfl
  have hout : outstanding { h.server with
      object := object, workers := h.server.workers ++ [.start] } = [none] := by
    rw [outstanding, hactive]
    dsimp only
    rw [hstate]
    rfl
  have hasked := ht.asked
  have hdecided := ht.decided
  rw [waiting, outstanding_of_operations hz, ControlObject.waiting, List.map_nil,
    List.append_nil] at hasked
  rw [outstanding_of_operations hz, resultsOf, List.filterMap_nil, List.map_nil,
    List.append_nil] at hdecided
  refine ⟨Orders.started hz hstate htime, ?_, ?_⟩
  · dsimp only
    rw [waiting, hout, List.map_append, hasked, ControlObject.waiting, hclient, hinvoke]
    rfl
  · dsimp only
    rw [hout, hdecided]
    exact (List.append_nil _).symm

theorem Tracks.writeOper (ht : h.Tracks) {w : ControlWrite} {currentTime : UInt64}
    {result : CheckResult} {invokeId : UInt32} {r : Handled}
    (hr : h.server.object.writeOper w currentTime result invokeId = .ok r) :
    Tracks { h with
      server := (h.server.handled r).1
      asked := h.asked ++ if r.startsThread then [⟨w.connection, invokeId⟩] else [] } := by
  cases hb : h.server.object.state.isBusy with
  | true =>
    obtain ⟨hsame, hstart⟩ := ControlObject.writeOper_of_busy hb hr
    rw [handled, hsame, hstart, if_neg Bool.false_ne_true, if_neg Bool.false_ne_true,
      List.append_nil]
    exact ht
  | false =>
    have hz := ht.orders.quiet hb
    have hbegins := ControlObject.writeOper_begins hr
    rw [handled]
    generalize r.startsThread = startsThread at hbegins
    cases hbegins with
    | rests htime =>
      rw [if_neg Bool.false_ne_true, if_neg Bool.false_ne_true, List.append_nil]
      exact ht.rests hz htime
    | activated hstate =>
      rw [if_neg Bool.false_ne_true, if_neg Bool.false_ne_true, List.append_nil]
      exact ht.activated hz hstate
    | started hstate htime hclient hinvoke =>
      rw [if_pos rfl, if_pos rfl]
      exact ht.started hz hstate htime hclient hinvoke

/-- An operation that waits for its time is given up. -/
theorem Tracks.gaveUp (ht : h.Tracks) (htime : h.server.object.timeActivatedOperate = true) :
    Tracks { h with server := { h.server with object :=
      { h.server.object with timeActivatedOperate := false }.abortControlOperation } } := by
  refine ht.of_idle _ ?_ (ht.orders.gaveUp htime)
  rw [outstanding, (ht.orders.waits htime).2]
  rfl

theorem Tracks.writeCancel (ht : h.Tracks) {w : ControlWrite}
    (hg : h.server.OwnerCancels w → h.server.operations = 0) :
    Tracks { h with server := (h.server.handled (h.server.object.writeCancel w)).1 } := by
  have hstart := (h.server.object.writeCancel_cases w).2.1
  rw [handled, hstart, if_neg Bool.false_ne_true]
  rcases h.server.object.writeCancel_object w with hsame | ⟨-, hstate, hc, hnum, horigin, hobject⟩ |
    ⟨htime, hobject⟩
  · rw [hsame]
    exact ht
  · rw [hobject]
    exact ht.rests (hg ⟨hstate, hc, hnum, horigin⟩) rfl
  · rw [hobject]
    exact ht.gaveUp htime

theorem Tracks.processControlActions (ht : h.Tracks) (currentTime : UInt64) :
    Tracks { h with server := h.server.processControlActions currentTime } := by
  have ho := ht.orders.processControlActions currentTime
  rw [Server.processControlActions] at ho ⊢
  split at ho
  case isFalse hcond =>
    rw [if_neg hcond]
    exact ht
  case isTrue hcond =>
    rw [if_pos hcond]
    exact ht.of_server _ ho rfl rfl

theorem Tracks.startActivated (ht : h.Tracks) {result : CheckResult} {server : Server}
    {observations : List Observation}
    (hs : h.server.startActivated result = .ok (server, observations)) :
    Tracks { h with server := server } ∧ Silent observations := by
  have hasked : Silent (Control.asked result h.server.object.clientConnection) := by
    rw [Control.asked]
    split <;> rfl
  have ho := ht.orders.startActivated hs
  rw [Server.startActivated] at hs
  split at hs
  case isFalse =>
    cases hs
    exact ⟨ht, rfl⟩
  case isTrue hstart =>
    have hstate := ht.orders.timed (.inr hstart)
    obtain ⟨htime, hw⟩ := ht.orders.starting hstart
    have hout : h.server.outstanding = [] := by
      rw [outstanding, hw]
      rfl
    dsimp only at hs
    split at hs
    case isTrue =>
      cases hs
      have hactive : (h.server.workers ++ [Worker.start]).filter Worker.isActive = [.start] := by
        rw [List.filter_append, hw]
        rfl
      -- the thread finds the object waiting for its time
      have hout' : outstanding { h.server with
          starting := false, workers := h.server.workers ++ [.start] } = [] := by
        rw [outstanding, hactive]
        dsimp only
        rw [hstate]
        rfl
      refine ⟨ht.of_server _ ho (hout'.trans hout.symm) ?_, hasked⟩
      rw [waiting, waiting, hout, hout']
    case isFalse =>
      obtain ⟨sent, hsent, hs⟩ := bind_ok hs
      cases hs
      refine ⟨ht.of_idle _ hout ?_, (hasked.append (Worker.sendLastApplError_silent hsent)).append rfl⟩
      rw [operations]
      dsimp only
      rw [ControlObject.abortControlOperation]
      dsimp only
      rw [htime, hw]
      rfl

theorem filterMap_only {α β : Type} (f : α → Option β) (a : α) :
    [a].filterMap f = (f a).toList := by
  rw [List.filterMap_cons]
  cases f a <;> rfl

/-- A thread that is not active any more has nothing to answer. -/
theorem outstanding_next (state : ControlState) (next : Option Worker) :
    (next.toList.filter Worker.isActive).filterMap (Worker.outstanding state) =
      (next.bind (Worker.outstanding state)).toList := by
  cases next with
  | none => rfl
  | some worker =>
    cases hactive : worker.isActive with
    | true =>
      rw [Option.toList_some, List.filter_cons_of_pos hactive]
      exact filterMap_only _ worker
    | false =>
      cases worker with
      | decreaseTasksCount task => rfl
      | _ => cases hactive

/-- The thread of the operation that is in progress takes a step. -/
theorem Tracks.workActive (ht : h.Tracks) {index : Nat} {ok : Bool} {currentTime : UInt64}
    {worker : Worker} {object : ControlObject} {next : Option Worker}
    {observations : List Observation} (hget : h.server.workers[index]? = some worker)
    (hactive : worker.isActive = true) (hfinds : h.server.FindsClient index)
    (hs : worker.step h.server.object h.server.closed ok currentTime =
      .ok (object, next, observations)) :
    Tracks {
      server := { h.server with
        object := object, workers := moved h.server.workers index next }
      asked := h.asked
      decided := h.decided ++ worker.decides ok
      answered := h.answered ++ observations.filterMap Observation.answer } := by
  obtain ⟨-, -, honly⟩ := ht.orders.only hget hactive
  have hmoved := (filter_moved_active hget hactive honly next).2
  have hconserves := Worker.step_conserves hs fun heq => hfinds (heq ▸ hget)
  have hout : h.server.outstanding = (worker.outstanding h.server.object.state).toList := by
    rw [outstanding, honly]
    exact filterMap_only _ worker
  have hout' : outstanding { h.server with
      object := object, workers := moved h.server.workers index next } =
        (next.bind (Worker.outstanding object.state)).toList := by
    rw [outstanding, hmoved]
    exact outstanding_next object.state next
  have hasked := ht.asked
  have hdecided := ht.decided
  rw [waiting, hout, hconserves.asked] at hasked
  rw [hout] at hdecided
  refine ⟨ht.orders.workActive hget hactive hs, ?_, ?_⟩
  · dsimp only
    rw [waiting, hout', hasked, List.map_append, List.append_assoc]
    rfl
  · dsimp only
    rw [hout', List.map_append, hdecided, List.append_assoc, hconserves.decided,
      List.map_append, List.append_assoc]
    rfl

theorem Tracks.work (ht : h.Tracks) {index : Nat} {ok : Bool} {currentTime : UInt64}
    {server : Server} {observations : List Observation} (hfinds : h.server.FindsClient index)
    (hs : h.server.work index ok currentTime = .ok (server, observations)) :
    Tracks {
      server := server
      asked := h.asked
      decided := h.decided ++ decides h.server (.work index ok currentTime)
      answered := h.answered ++ observations.filterMap Observation.answer } := by
  rw [Server.work] at hs
  rw [decides]
  cases hget : h.server.workers[index]? with
  | none =>
    rw [hget] at hs
    cases hs
    simpa using ht
  | some worker =>
    rw [hget] at hs
    obtain ⟨⟨object, next, sent⟩, hstep, hs⟩ := bind_ok hs
    cases hs
    rw [Option.toList_some, List.flatMap_singleton]
    cases hactive : worker.isActive with
    | true => exact ht.workActive hget hactive hfinds hstep
    | false =>
      cases worker with
      | decreaseTasksCount task =>
        cases hstep
        have hout : outstanding { h.server with workers := moved h.server.workers index none } =
            h.server.outstanding := by
          rw [outstanding, outstanding, filter_ended hget]
        have hmovedOn : Tracks { h with
            server := { h.server with workers := moved h.server.workers index none } } := by
          refine ht.of_server _ (ht.orders.workEnded hget) hout ?_
          rw [waiting, waiting, hout]
        have hdecides : Worker.decides ok (.decreaseTasksCount task) = [] := rfl
        rw [hdecides, List.filterMap_nil, List.append_nil, List.append_nil]
        exact hmovedOn
      | _ => cases hactive

/-- A step that leaves no request to a thread and is none of a thread. -/
theorem Tracks.of_silent {e : Event} {server : Server} {observations : List Observation}
    (ht : Tracks { h with server := server }) (hasks : asks h.server e = [])
    (hdecides : decides h.server e = []) (hsilent : Silent observations) :
    Tracks {
      server := server
      asked := h.asked ++ asks h.server e
      decided := h.decided ++ decides h.server e
      answered := h.answered ++ observations.filterMap Observation.answer } := by
  rw [hasks, hdecides, show _ = _ from hsilent, List.append_nil, List.append_nil, List.append_nil]
  exact ht

theorem Tracks.step (ht : h.Tracks) {e : Event} (hg : h.Steady e) (hs : h.Step e h') :
    h'.Tracks := by
  obtain ⟨⟨server, observations⟩, hstep, hs⟩ := bind_ok hs
  cases hs
  cases e with
  | readSBO connection currentTime result =>
    cases hstep
    refine Tracks.of_silent ?_ rfl rfl (ControlObject.readSBO_silent _ connection _ result)
    exact ht.request (fun hb => ControlObject.readSBO_of_busy hb _ _ _)
      (ControlObject.readSBO_timeActivated _ _ _ _)
  | writeSBOw w currentTime result =>
    obtain ⟨r, hr, hstep⟩ := bind_ok hstep
    obtain ⟨htime, hstart⟩ := ControlObject.writeSBOw_timeActivated hr
    cases hstep
    refine Tracks.of_silent ?_ rfl rfl (ControlObject.writeSBOw_silent hr)
    rw [hstart, if_neg Bool.false_ne_true]
    exact ht.request (fun hb => ControlObject.writeSBOw_of_busy hb hr) htime
  | writeOper w currentTime result invokeId =>
    obtain ⟨r, hr, hstep⟩ := bind_ok hstep
    cases hstep
    have hasks : asks h.server (.writeOper w currentTime result invokeId) =
        if r.startsThread then [⟨w.connection, invokeId⟩] else [] := by
      rw [asks, hr]
    have hdecides : decides h.server (.writeOper w currentTime result invokeId) = [] := rfl
    rw [hasks, hdecides, show _ = _ from ControlObject.writeOper_silent hr, List.append_nil,
      List.append_nil]
    exact ht.writeOper hr
  | writeCancel w =>
    cases hstep
    exact (ht.writeCancel hg.1.2).of_silent rfl rfl (ControlObject.writeCancel_silent _ w)
  | processControlActions currentTime =>
    cases hstep
    exact (ht.processControlActions currentTime).of_silent rfl rfl rfl
  | startActivated result =>
    obtain ⟨hserver, hsilent⟩ := ht.startActivated hstep
    exact hserver.of_silent rfl rfl hsilent
  | work index ok currentTime =>
    have hasks : asks h.server (.work index ok currentTime) = [] := rfl
    rw [hasks, List.append_nil]
    exact ht.work hg.2 hstep
  | connectionClosed connection =>
    cases hstep
    exact Tracks.of_silent ⟨⟨ht.orders.quiet, ht.orders.exclusive, ht.orders.timed⟩, ht.asked,
      ht.decided⟩ rfl rfl rfl
  | unselect connection =>
    cases hstep
    refine Tracks.of_silent ?_ rfl rfl rfl
    rw [ControlObject.unselect]
    split
    case isTrue hc => exact ht.rests (hg.1.2 hc) rfl
    case isFalse => exact ht
  | configure sboClass sboTimeout =>
    cases hstep
    exact Tracks.of_silent ⟨⟨ht.orders.quiet, ht.orders.exclusive, ht.orders.timed⟩, ht.asked,
      ht.decided⟩ rfl rfl rfl

theorem Tracks.start {object : ControlObject} (ht : object.timeActivatedOperate = false) :
    (start object).Tracks := by
  have hz : (Server.create object).operations = 0 := by
    rw [operations]
    exact congrArg (fun b => (if b = true then 1 else 0) + 0 + 0) ht
  exact ⟨.of_idle hz, rfl, rfl⟩

theorem toAsked_of_map {asked : List Asked} {answered : List Answer}
    {waiting : List (Option Connection × UInt32)}
    (h : asked.map (fun a => (some a.connection, a.invokeId)) =
      answered.map (fun a => (some a.connection, a.invokeId)) ++ waiting) :
    answered.map (·.toAsked) <+: asked ∧ (waiting = [] → answered.map (·.toAsked) = asked) := by
  have hinj : Function.Injective fun a : Asked => (some a.connection, a.invokeId) := by
    rintro ⟨c, i⟩ ⟨c', i'⟩ heq
    cases heq
    rfl
  have hmap : answered.map (fun a => (some a.connection, a.invokeId)) =
      (answered.map (·.toAsked)).map (fun a => (some a.connection, a.invokeId)) := by
    rw [List.map_map]
    rfl
  rw [hmap] at h
  constructor
  · obtain ⟨first, rest, rfl, hfirst, -⟩ := List.map_eq_append_iff.mp h
    rw [← (List.map_injective_iff.mpr hinj) hfirst]
    exact List.prefix_append first rest
  · rintro rfl
    rw [List.append_nil] at h
    exact ((List.map_injective_iff.mpr hinj) h).symm

theorem Tracks.answers (ht : h.Tracks) : h.Answers := by
  obtain ⟨hbegins, hall⟩ := toAsked_of_map ht.asked
  refine ⟨hbegins, ?_, fun hsettled => ?_⟩
  · rw [ht.decided]
    exact List.prefix_append _ _
  · have hout : h.server.outstanding = [] := by
      rw [outstanding, show _ = _ from hsettled]
      rfl
    refine ⟨hall (by rw [waiting, hout]; rfl), ?_⟩
    rw [ht.decided, hout]
    exact (List.append_nil _).symm

/-- In every run without disturbance the threads answer what they have been asked. -/
theorem run_answers {ctlModel : UInt32} {sbo : MmsValue.CString} {sboClass : Option Int32}
    {sboTimeout : Option UInt32} {oper : MmsValue} {events : List Event}
    (hr : Transition.Run Step Steady
      (start (.create ctlModel sbo sboClass sboTimeout oper)) events h) : h.Answers := by
  apply Tracks.answers
  exact hr.invariant (Tracks.start rfl) fun _ _ _ ht hg hs => ht.step hg hs

end AnswerHistory

end Iec61850.Control
