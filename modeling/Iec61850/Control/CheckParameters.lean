import Iec61850.Control.DelayedAnswers
import Iec61850.Control.ParameterChecks

/-! What the check handler and the handler for the dynamic tests are told of an operation, beside
what its `Oper` has asked for. -/

namespace Iec61850.Control

open Machine

/-- What an `Oper` asks for. -/
structure OperRequest where
  ctlVal : MmsValue
  test : Bool
  synchroCheck : Bool
  interlockCheck : Bool

def ControlWrite.request (w : ControlWrite) : Option OperRequest := do
  let ctlVal ← getCtlVal w.value
  let test ← getOperParameterTest w.value
  let check ← getOperParameterCheck w.value
  return ⟨ctlVal, w.test test, w.checkBit 0 check, w.checkBit 1 check⟩

/-- The operation is to begin at a time of its own. -/
def ControlWrite.isTimeActivated (w : ControlWrite) : Bool :=
  (getOperParameterOperTime w.value).any fun operTm => w.operTm operTm ≠ 0

/-- A call of a handler, with the request of the operation it is about. -/
inductive HandlerCall
  | check (ctlVal : Option MmsValue) (test interlockCheck : Bool) (request : Option OperRequest)
  | waitForExecution (ctlVal : Option MmsValue) (test synchroCheck : Bool)
    (request : Option OperRequest)

/-- The handler gets what the operation was asked for. -/
inductive HandlerCall.IsFaithful : HandlerCall → Prop
  | check (r : OperRequest) : IsFaithful (.check (some r.ctlVal) r.test r.interlockCheck (some r))
  | waitForExecution (r : OperRequest) :
    IsFaithful (.waitForExecution (some r.ctlVal) r.test r.synchroCheck (some r))

def Observation.isAsked : Observation → Bool
  | .asked _ => true
  | _ => false

/-- The handler for the dynamic tests has not been called yet. -/
def Worker.beforeTests : Worker → Bool
  | .start => true
  | .readState _ => true
  | .enter _ _ => true
  | .waitForExecution _ _ => true
  | _ => false

/-- A control object with the requests of the operation that waits for its time, of the one that
is about to be started, and of those that have a thread, and with the calls of the handlers. -/
structure CheckHistory where
  server : Server
  waiting : Option OperRequest
  starting : Option OperRequest
  requests : List (Option OperRequest)
  calls : List HandlerCall

namespace CheckHistory

def start (object : ControlObject) : CheckHistory := ⟨.create object, none, none, [], []⟩

abbrev object (h : CheckHistory) : ControlObject := h.server.object

/-- An `Oper` that is handled. Its own check handler gets what has just been read. -/
def afterOper (h : CheckHistory) (w : ControlWrite) (r : Handled) : CheckHistory where
  server := h.server
  waiting := if r.indication = .success then w.request else h.waiting
  starting := h.starting
  requests := if r.startsThread then h.requests ++ [w.request] else h.requests
  calls := h.calls ++ if r.observations.any Observation.isAsked then
      w.request.toList.map fun q => .check (some q.ctlVal) q.test q.interlockCheck (some q)
    else []

/-- The event thread takes the parameters from the object. -/
def afterStart (h : CheckHistory) (result : CheckResult) : CheckHistory where
  server := h.server
  waiting := h.waiting
  starting := h.starting
  requests := if h.server.starting && checkOk result then h.requests ++ [h.starting]
    else h.requests
  calls := h.calls ++ if h.server.starting && result.isSome then
      [.check (h.object.parameters.map (·.ctlVal)) h.object.testMode h.object.interlockCheck
        h.starting]
    else []

def waitForExecutionCall (h : CheckHistory) (index : Nat) : Worker → List HandlerCall
  | .waitForExecution _ _ =>
    [.waitForExecution (h.object.parameters.map (·.ctlVal)) h.object.testMode
      h.object.synchroCheck (h.requests[index]?.getD none)]
  | _ => []

/-- So does a thread. `ended` tells that it was its last step. -/
def afterWork (h : CheckHistory) (index : Nat) (ended : Bool) : CheckHistory where
  server := h.server
  waiting := h.waiting
  starting := h.starting
  requests := if ended then h.requests.eraseIdx index else h.requests
  calls := h.calls ++ h.server.workers[index]?.toList.flatMap (h.waitForExecutionCall index)

/-- What an event leaves behind, apart from what the server does. -/
def after (h : CheckHistory) (server : Server) : Event → CheckHistory
  | .writeOper w currentTime result invokeId =>
    match h.object.writeOper w currentTime result invokeId with
    | .ok r => h.afterOper w r
    | .error _ => h
  | .processControlActions _ =>
    { h with starting := if h.server.starting then h.starting else h.waiting }
  | .startActivated result => h.afterStart result
  | .work index _ _ => h.afterWork index (server.workers.length < h.server.workers.length)
  | _ => h

def perform (h : CheckHistory) (e : Event) : Exec CheckHistory := do
  let (server, _) ← h.server.step e
  return { h.after server e with server := server }

def Step (h : CheckHistory) (e : Event) (h' : CheckHistory) : Prop := h.perform e = .ok h'

/-- An operation that begins at once asks for the synchrocheck that the object remembers. -/
def KeepsSynchroCheck (object : ControlObject) : Event → Prop
  | .writeOper w _ _ _ => object.state = .ready → w.isTimeActivated = false →
    ∀ q ∈ w.request, q.synchroCheck = object.synchroCheck
  | _ => True

def Guarded (h : CheckHistory) (e : Event) : Prop :=
  h.server.Undisturbed e ∧ KeepsSynchroCheck h.object e

/-- The handlers have got what the operations were asked for. -/
def CallsFaithful (h : CheckHistory) : Prop := ∀ call ∈ h.calls, call.IsFaithful

end CheckHistory

/-- What the object keeps of the request. -/
structure Holds (object : ControlObject) (q : OperRequest) : Prop where
  ctlVal : object.parameters.map (·.ctlVal) = some q.ctlVal
  test : object.testMode = q.test
  synchroCheck : object.synchroCheck = q.synchroCheck

/-- What is not touched by steps that do not begin an operation. -/
structure SameChecks (object object' : ControlObject) : Prop where
  parameters : object'.parameters = object.parameters
  testMode : object'.testMode = object.testMode
  synchroCheck : object'.synchroCheck = object.synchroCheck
  interlockCheck : object'.interlockCheck = object.interlockCheck

theorem SameChecks.refl (object : ControlObject) : SameChecks object object :=
  ⟨rfl, rfl, rfl, rfl⟩

theorem Holds.of_same {object object' : ControlObject} {q : OperRequest} (h : Holds object q)
    (hs : SameChecks object object') : Holds object' q where
  ctlVal := by rw [hs.parameters, h.ctlVal]
  test := by rw [hs.testMode, h.test]
  synchroCheck := by rw [hs.synchroCheck, h.synchroCheck]

/-- What `Oper` begins. -/
inductive Accepts (before : ControlObject) (w : ControlWrite) (r : Handled) : Prop
  | rests : r.indication ≠ .success → r.startsThread = false →
    r.object.timeActivatedOperate = before.timeActivatedOperate → Accepts before w r
  | activated (q : OperRequest) : before.state = .ready → w.request = some q →
    Holds r.object q → r.object.interlockCheck = q.interlockCheck → r.indication = .success →
    r.startsThread = false → Accepts before w r
  | started (q : OperRequest) : before.state = .ready → w.isTimeActivated = false →
    w.request = some q → r.object.parameters.map (·.ctlVal) = some q.ctlVal →
    r.object.testMode = q.test → r.object.synchroCheck = before.synchroCheck →
    r.indication ≠ .success → r.startsThread = true →
    r.object.timeActivatedOperate = false → Accepts before w r

namespace ControlObject

variable {self : ControlObject} {w : ControlWrite} {currentTime : UInt64} {result : CheckResult}
  {invokeId : UInt32}

theorem indicationOfCheck_ne_success (code : Int) : indicationOfCheck code ≠ .success := by
  unfold indicationOfCheck
  split_ifs <;> simp

theorem setOperateTime_of_timeActivated (self : ControlObject) (check : MmsValue) (h : w.isTimeActivated = true) :
    ∃ operateTime, setOperateTime self w check =
      { self with
        operateTime := operateTime
        timeActivatedOperate := true
        synchroCheck := w.checkBit 0 check
        interlockCheck := w.checkBit 1 check
        clientConnection := some w.connection
        state := .waitForActivationTime } := by
  rw [ControlWrite.isTimeActivated, Option.any_eq_true] at h
  obtain ⟨operTm, hoperTm, hne⟩ := h
  rw [setOperateTime, hoperTm]
  dsimp only
  rw [if_pos (of_decide_eq_true hne)]
  exact ⟨_, rfl⟩

theorem setOperateTime_of_not_timeActivated (self : ControlObject) (check : MmsValue)
    (h : w.isTimeActivated = false) :
    SameChecks self (setOperateTime self w check) ∧
      (setOperateTime self w check).timeActivatedOperate = self.timeActivatedOperate ∧
      (setOperateTime self w check).state = self.state := by
  rw [setOperateTime]
  cases hoperTm : getOperParameterOperTime w.value with
  | none => exact ⟨.refl self, rfl, rfl⟩
  | some operTm =>
    rw [ControlWrite.isTimeActivated, hoperTm, Option.any_some, decide_eq_false_iff_not] at h
    dsimp only
    rw [if_neg h]
    exact ⟨⟨rfl, rfl, rfl, rfl⟩, rfl, rfl⟩

section

variable {before : ControlObject} {q : OperRequest} {observations : List Observation}

theorem performTest_accepts (hready : before.state = .ready) (hw : w.isTimeActivated = false)
    (hq : w.request = some q) (hctlVal : self.parameters.map (·.ctlVal) = some q.ctlVal)
    (htest : self.testMode = q.test) (hsynchro : self.synchroCheck = before.synchroCheck)
    (ht : self.timeActivatedOperate = false)
    (hbefore : before.timeActivatedOperate = false) :
    Accepts before w (self.performTest w.connection result invokeId observations) := by
  rw [performTest]
  dsimp only
  split
  · exact .started q hready hw hq hctlVal htest hsynchro (by simp) rfl ht
  · exact .rests (indicationOfCheck_ne_success _) rfl (ht.trans hbefore.symm)

theorem acceptOper_accepts {check : MmsValue} (parameters : ControlParameters)
    (hready : before.state = .ready) (hq : w.request = some q)
    (hctlVal : parameters.ctlVal = q.ctlVal)
    (hsynchro : w.checkBit 0 check = q.synchroCheck)
    (hinterlock : w.checkBit 1 check = q.interlockCheck) :
    Accepts before w ({ before with testMode := q.test }.acceptOper w parameters check currentTime
      result invokeId observations) := by
  rw [acceptOper]
  dsimp only
  cases hw : w.isTimeActivated with
  | true =>
    obtain ⟨operateTime, hset⟩ := setOperateTime_of_timeActivated
      { before with testMode := q.test, parameters := some parameters } check hw
    rw [hset]
    simp only [if_true, ne_eq, not_true_eq_false, decide_false, Bool.and_false,
      Bool.false_eq_true, if_false]
    refine .activated q hready hq ⟨?_, rfl, hsynchro⟩ hinterlock rfl rfl
    rw [← hctlVal]
    rfl
  | false =>
    obtain ⟨hsame, htime, hstate⟩ := setOperateTime_of_not_timeActivated
      { before with testMode := q.test, parameters := some parameters } check hw
    generalize setOperateTime _ w check = set at hsame htime hstate ⊢
    dsimp only at htime hstate
    rw [hready] at hstate
    split
    case isTrue hset =>
      rw [htime] at hset
      rw [hset, hstate]
      exact .rests (by simp [refuse]) rfl htime
    case isFalse hset =>
      have hno := Bool.eq_false_of_not_eq_true hset
      refine performTest_accepts hready hw hq ?_ hsame.testMode hsame.synchroCheck hno
        (htime.symm.trans hno)
      rw [hsame.parameters, ← hctlVal]
      rfl

end

theorem request_of_elements {p : OperElements} (hp : operElements w.value = some p) :
    w.request = some ⟨p.parameters.ctlVal, w.test p.test, w.checkBit 0 p.check,
      w.checkBit 1 p.check⟩ := by
  obtain ⟨hctlVal, htest, -, -, hcheck, -, -⟩ := operElements_some hp
  rw [ControlWrite.request, hctlVal, htest, hcheck]
  rfl

theorem writeOper_accepts {r : Handled}
    (hr : self.writeOper w currentTime result invokeId = .ok r) : Accepts self w r := by
  cases hp : operElements w.value with
  | none =>
    rw [writeOper_refused w hp] at hr
    cases hr
    exact .rests (by simp [refuse]) rfl rfl
  | some p =>
    have ht := self.checkSelectTimeout_timeActivated currentTime
    have hrefuse {indication : MmsDataAccessError} {lastApplError : Option LastApplError}
        {observations : List Observation} (hne : indication ≠ .success) :
        Accepts self w
          ((self.checkSelectTimeout currentTime).1.refuse indication observations lastApplError) :=
      .rests hne rfl ht
    rw [writeOper_checked w hp] at hr
    dsimp only at hr
    cases hstate : (self.checkSelectTimeout currentTime).1.state with
    | ready =>
      have hself := checkSelectTimeout_ready hstate
      rw [hself] at hstate
      have haccepts (observations : List Observation) :
          Accepts self w ({ self with testMode := w.test p.test }.acceptOper w p.parameters p.check
            currentTime result invokeId observations) :=
        acceptOper_accepts p.parameters hstate (request_of_elements hp) rfl rfl rfl
      have hrests {indication : MmsDataAccessError} {lastApplError : Option LastApplError}
          {observations : List Observation} (hne : indication ≠ .success) :
          Accepts self w ({ self with testMode := w.test p.test }.refuse indication observations
            lastApplError) := .rests hne rfl rfl
      rw [hself] at hr
      rw [hstate] at hr haccepts hrests
      dsimp only at hr
      split at hr
      · split at hr
        · cases hr
          exact hrests (by simp)
        · split at hr
          · split at hr
            · cases hr
            · split at hr
              · cases hr
                exact haccepts _
              · cases hr
                exact hrests (by simp)
          · cases hr
            exact haccepts _
      · cases hr
        exact haccepts _
    | _ =>
      rw [hstate] at hr
      cases hr
      exact hrefuse (by simp)

end ControlObject

namespace Worker

variable {self object : ControlObject} {closed : List Connection} {ok : Bool}
  {currentTime : UInt64} {worker : Worker} {next : Option Worker}
  {observations : List Observation}

theorem clearOperTime_sameChecks (h : self.clearOperTime = .ok object) :
    SameChecks self object := by
  rw [ControlObject.clearOperTime] at h
  split at h
  · split at h
    · cases h
      exact ⟨rfl, rfl, rfl, rfl⟩
    · cases h
  · cases h

/-- A thread does not touch what the handlers get, and calls its handler at the end of its first
steps. -/
theorem step_sameChecks
    (hs : worker.step self closed ok currentTime = .ok (object, next, observations)) :
    SameChecks self object ∧ ∀ v ∈ next, v.beforeTests = true → worker.beforeTests = true := by
  cases worker with
  | start =>
    rw [step] at hs
    split at hs
    · cases hs
      exact ⟨.refl self, fun _ _ _ => rfl⟩
    · split at hs <;> cases hs <;> exact ⟨.refl self, fun _ _ _ => rfl⟩
  | readState task =>
    cases hs
    exact ⟨.refl self, fun _ _ _ => rfl⟩
  | enter task timed =>
    cases hs
    exact ⟨⟨rfl, rfl, rfl, rfl⟩, fun _ _ _ => rfl⟩
  | waitForExecution task timed =>
    cases hs
    exact ⟨.refl self, fun _ _ _ => rfl⟩
  | reject task timed =>
    have hobject : object = self ∧ next = some (.abort task) := by
      rw [step] at hs
      split at hs <;> obtain ⟨sent, -, hs⟩ := bind_ok hs <;> cases hs <;> exact ⟨rfl, rfl⟩
    obtain ⟨rfl, rfl⟩ := hobject
    refine ⟨.refl object, fun v hv hb => ?_⟩
    cases hv
    cases hb
  | respond task timed =>
    rw [step] at hs
    split at hs
    · obtain ⟨sent, -, hs⟩ := bind_ok hs
      obtain ⟨cleared, hcleared, hs⟩ := bind_ok hs
      cases hs
      refine ⟨clearOperTime_sameChecks hcleared, fun v hv hb => ?_⟩
      cases hv
      cases hb
    · obtain ⟨sent, -, hs⟩ := bind_ok hs
      cases hs
      refine ⟨.refl self, fun v hv hb => ?_⟩
      cases hv
      cases hb
  | setOperate task =>
    cases hs
    refine ⟨⟨rfl, rfl, rfl, rfl⟩, fun v hv hb => ?_⟩
    cases hv
    cases hb
  | operate task time =>
    cases hs
    refine ⟨⟨rfl, rfl, rfl, rfl⟩, fun v hv hb => ?_⟩
    cases hv
    cases hb
  | terminate task =>
    rw [step] at hs
    split at hs
    · obtain ⟨sent, -, hs⟩ := bind_ok hs
      cases hs
      refine ⟨.refl self, fun v hv hb => ?_⟩
      cases hv
      cases hb
    · cases hs
      refine ⟨.refl self, fun v hv hb => ?_⟩
      cases hv
      cases hb
  | abort task =>
    cases hs
    refine ⟨⟨rfl, rfl, rfl, rfl⟩, fun v hv hb => ?_⟩
    cases hv
    cases hb
  | decreaseTasksCount task =>
    cases hs
    exact ⟨.refl self, fun v hv _ => by cases hv⟩

theorem isActive_of_beforeTests (h : worker.beforeTests = true) : worker.isActive = true := by
  cases worker with
  | decreaseTasksCount task => cases h
  | _ => rfl

end Worker

/-- Every operation whose handlers are still to be called has its request in the object. -/
structure Carries (s : Server) (waiting starting : Option OperRequest)
    (requests : List (Option OperRequest)) : Prop where
  length_eq : requests.length = s.workers.length
  waits : s.object.timeActivatedOperate = true →
    ∃ q, waiting = some q ∧ Holds s.object q ∧ s.object.interlockCheck = q.interlockCheck
  starts : s.starting = true →
    ∃ q, starting = some q ∧ Holds s.object q ∧ s.object.interlockCheck = q.interlockCheck
  works : ∀ (index : Nat) (worker : Worker), s.workers[index]? = some worker →
    worker.beforeTests = true → ∃ q, requests[index]? = some (some q) ∧ Holds s.object q

namespace Carries

variable {s : Server} {waiting starting : Option OperRequest} {requests : List (Option OperRequest)}

/-- Nothing is in progress. -/
theorem of_idle (hz : s.operations = 0) (hlen : requests.length = s.workers.length) :
    Carries s waiting starting requests := by
  obtain ⟨hno, hstart, hactive⟩ := operations_eq_zero hz
  refine ⟨hlen, fun ht => ?_, fun hs => ?_, fun index worker hget hbefore => ?_⟩
  · rw [hno] at ht
    cases ht
  · rw [hstart] at hs
    cases hs
  · have hmem : worker ∈ s.workers.filter Worker.isActive :=
      List.mem_filter.mpr ⟨List.mem_of_getElem? hget, Worker.isActive_of_beforeTests hbefore⟩
    rw [hactive] at hmem
    cases hmem

theorem of_same (h : Carries s waiting starting requests) {object : ControlObject}
    (hsame : SameChecks s.object object)
    (ht : object.timeActivatedOperate = s.object.timeActivatedOperate) :
    Carries { s with object := object } waiting starting requests where
  length_eq := h.length_eq
  waits htime := by
    obtain ⟨q, hq, hholds, hinterlock⟩ := h.waits (ht.symm.trans htime)
    exact ⟨q, hq, hholds.of_same hsame, hsame.interlockCheck.trans hinterlock⟩
  starts hstart := by
    obtain ⟨q, hq, hholds, hinterlock⟩ := h.starts hstart
    exact ⟨q, hq, hholds.of_same hsame, hsame.interlockCheck.trans hinterlock⟩
  works index worker hget hbefore := by
    obtain ⟨q, hq, hholds⟩ := h.works index worker hget hbefore
    exact ⟨q, hq, hholds.of_same hsame⟩

/-- A request that begins nothing. -/
theorem request (h : Carries s waiting starting requests) (ho : s.Orders) {object : ControlObject}
    (hbusy : s.object.state.isBusy = true → object = s.object)
    (ht : object.timeActivatedOperate = s.object.timeActivatedOperate) :
    Carries { s with object := object } waiting starting requests := by
  cases hb : s.object.state.isBusy with
  | true =>
    rw [hbusy hb]
    exact h
  | false =>
    refine of_idle ?_ h.length_eq
    have hz := ho.quiet hb
    rw [Server.operations] at hz ⊢
    dsimp only
    rw [ht, hz]

/-- An operation that waits for its time is about to be started. -/
theorem processControlActions (h : Carries s waiting starting requests) (currentTime : UInt64) :
    Carries (s.processControlActions currentTime) waiting
      (if s.starting then starting else waiting) requests := by
  rw [Server.processControlActions]
  split
  case isTrue hcond =>
    simp only [Bool.and_eq_true, Bool.not_eq_true'] at hcond
    obtain ⟨⟨hstart, htime⟩, -⟩ := hcond
    obtain ⟨q, hq, hholds, hinterlock⟩ := h.waits htime
    rw [hstart, if_neg Bool.false_ne_true]
    have hsame : SameChecks s.object { s.object with timeActivatedOperate := false } :=
      ⟨rfl, rfl, rfl, rfl⟩
    refine ⟨h.length_eq, fun hno => ?_, fun _ => ⟨q, hq, hholds.of_same hsame, hinterlock⟩, ?_⟩
    · cases hno
    intro index worker hget hbefore
    obtain ⟨q', hq', hholds'⟩ := h.works index worker hget hbefore
    exact ⟨q', hq', hholds'.of_same hsame⟩
  case isFalse =>
    refine ⟨h.length_eq, h.waits, fun hstart => ?_, h.works⟩
    rw [hstart, if_pos rfl]
    exact h.starts hstart

/-- A thread begins for an operation. -/
theorem started (h : Carries s waiting starting requests) {q : OperRequest}
    (hq : Holds s.object q) :
    Carries { s with workers := s.workers ++ [.start] } waiting starting
      (requests ++ [some q]) where
  length_eq := by rw [List.length_append, h.length_eq, List.length_append]; rfl
  waits := h.waits
  starts := h.starts
  works index worker hget hbefore := by
    by_cases hlt : index < s.workers.length
    · rw [List.getElem?_append_left hlt] at hget
      rw [List.getElem?_append_left (h.length_eq ▸ hlt)]
      exact h.works index worker hget hbefore
    · have hindex : index = s.workers.length := by
        have hle := (List.getElem?_eq_some_iff.mp hget).1
        rw [List.length_append, List.length_singleton] at hle
        omega
      refine ⟨q, ?_, hq⟩
      rw [hindex, ← h.length_eq, List.getElem?_concat_length]

/-- A thread takes a step. -/
theorem work (h : Carries s waiting starting requests) {index : Nat} {worker : Worker}
    (hget : s.workers[index]? = some worker) {object : ControlObject} {next : Option Worker}
    (hsame : SameChecks s.object object)
    (ht : object.timeActivatedOperate = s.object.timeActivatedOperate)
    (hnext : ∀ v ∈ next, v.beforeTests = true → worker.beforeTests = true) :
    Carries { s with object := object, workers := moved s.workers index next } waiting starting
      (if (moved s.workers index next).length < s.workers.length then requests.eraseIdx index
        else requests) := by
  have hlt : index < s.workers.length := (List.getElem?_eq_some_iff.mp hget).1
  have hobject := h.of_same hsame ht
  cases next with
  | some v =>
    have hmoved : moved s.workers index (some v) = s.workers.set index v := by
      rw [moved, List.set_eq_take_append_cons_drop, if_pos hlt, List.append_assoc]
      rfl
    rw [hmoved, List.length_set, if_neg (lt_irrefl _)]
    refine ⟨?_, hobject.waits, hobject.starts, fun j worker' hget' hbefore => ?_⟩
    · rw [List.length_set]
      exact h.length_eq
    · rw [List.getElem?_set] at hget'
      split at hget'
      case isTrue heq =>
        subst heq
        cases hget'
        exact hobject.works index worker hget (hnext v rfl hbefore)
      case isFalse => exact hobject.works j worker' hget' hbefore
  | none =>
    have hmoved : moved s.workers index none = s.workers.eraseIdx index := by
      rw [moved, List.eraseIdx_eq_take_drop_succ, Option.toList_none, List.append_nil]
    have hlen : (s.workers.eraseIdx index).length < s.workers.length := by
      rw [List.length_eraseIdx_of_lt hlt]
      omega
    rw [hmoved, if_pos hlen]
    refine ⟨?_, hobject.waits, hobject.starts, fun j worker' hget' hbefore => ?_⟩
    · rw [List.length_eraseIdx_of_lt hlt, List.length_eraseIdx_of_lt (h.length_eq ▸ hlt),
        h.length_eq]
    · rw [List.getElem?_eraseIdx] at hget' ⊢
      split at hget'
      case isTrue hj =>
        rw [if_pos hj]
        exact hobject.works j worker' hget' hbefore
      case isFalse hj =>
        rw [if_neg hj]
        exact hobject.works (j + 1) worker' hget' hbefore

/-- `Oper` begins an operation, or leaves things as they are. -/
theorem writeOper (h : Carries s waiting starting requests) (ho : s.Orders) {w : ControlWrite}
    {currentTime : UInt64} {result : CheckResult} {invokeId : UInt32} {r : Handled}
    (hkeeps : CheckHistory.KeepsSynchroCheck s.object (.writeOper w currentTime result invokeId))
    (hr : s.object.writeOper w currentTime result invokeId = .ok r) :
    Carries (s.handled r).1 (if r.indication = .success then w.request else waiting) starting
      (if r.startsThread then requests ++ [w.request] else requests) := by
  have hready (hready : s.object.state = .ready) : s.operations = 0 := by
    apply ho.quiet
    rw [hready]
    rfl
  rw [Server.handled]
  cases ControlObject.writeOper_accepts hr with
  | rests hne hthread htime =>
    rw [hthread, if_neg hne]
    exact h.request ho (fun hbusy => (ControlObject.writeOper_of_busy hbusy hr).1) htime
  | activated q hstate hq hholds hinterlock hsuccess hthread =>
    have hidle : Carries s waiting starting requests := of_idle (hready hstate) h.length_eq
    obtain ⟨-, hstart, hactive⟩ := operations_eq_zero (hready hstate)
    rw [hthread, if_pos hsuccess]
    refine ⟨h.length_eq, fun _ => ⟨q, hq, hholds, hinterlock⟩, fun hs => ?_, ?_⟩
    · rw [show _ = _ from hstart] at hs
      cases hs
    · intro index worker hget hbefore
      have hmem : worker ∈ s.workers.filter Worker.isActive :=
        List.mem_filter.mpr ⟨List.mem_of_getElem? hget, Worker.isActive_of_beforeTests hbefore⟩
      rw [hactive] at hmem
      cases hmem
  | started q hstate hw hq hctlVal htest hsynchro hne hthread htime =>
    obtain ⟨-, hstart, hactive⟩ := operations_eq_zero (hready hstate)
    have hidle : Carries { s with object := r.object } waiting starting requests := by
      refine of_idle ?_ h.length_eq
      rw [Server.operations, htime, hstart, hactive]
      rfl
    rw [hthread, if_neg hne, if_pos rfl, if_pos rfl, hq]
    exact hidle.started ⟨hctlVal, htest, hsynchro.trans (hkeeps hstate hw q hq).symm⟩

theorem startActivated (h : Carries s waiting starting requests) (ho : s.Orders)
    {result : CheckResult} {s' : Server} {observations : List Observation}
    (hs : s.startActivated result = .ok (s', observations)) :
    Carries s' waiting starting
      (if s.starting && checkOk result then requests ++ [starting] else requests) := by
  rw [Server.startActivated] at hs
  split at hs
  case isTrue hstart =>
    obtain ⟨htime, hactive⟩ := ho.starting hstart
    obtain ⟨q, hq, hholds, -⟩ := h.starts hstart
    split at hs
    case isTrue hcheck =>
      cases hs
      have hstopped : Carries { s with starting := false } waiting starting requests :=
        ⟨h.length_eq, h.waits, fun hno => (Bool.false_ne_true hno).elim, h.works⟩
      rw [hstart, hcheck, Bool.and_self, if_pos rfl, hq]
      exact hq ▸ hstopped.started hholds
    case isFalse hcheck =>
      obtain ⟨sent, -, hs⟩ := bind_ok hs
      cases hs
      rw [Bool.eq_false_of_not_eq_true hcheck, Bool.and_false, if_neg Bool.false_ne_true]
      refine of_idle ?_ h.length_eq
      simp only [Server.operations, hactive, ControlObject.abortControlOperation, htime]
      rfl
  case isFalse hstart =>
    cases hs
    rw [Bool.eq_false_of_not_eq_true hstart, Bool.false_and, if_neg Bool.false_ne_true]
    exact h

theorem writeCancel (h : Carries s waiting starting requests) (ho : s.Orders) {w : ControlWrite}
    (hg : s.OwnerCancels w → s.operations = 0) :
    Carries (s.handled (s.object.writeCancel w)).1 waiting starting requests := by
  have hthread := (s.object.writeCancel_cases w).2.1
  rw [Server.handled, hthread, if_neg Bool.false_ne_true]
  rcases s.object.writeCancel_object w with hsame | ⟨-, hstate, hc, hnum, horigin, hobject⟩ |
    ⟨htime, hobject⟩
  · rw [hsame]
    exact h
  · rw [hobject]
    exact of_idle (hg ⟨hstate, hc, hnum, horigin⟩) h.length_eq
  · rw [hobject]
    obtain ⟨hstart, hactive⟩ := ho.waits htime
    refine of_idle ?_ h.length_eq
    rw [Server.operations, hstart, hactive]
    rfl

theorem unselect (h : Carries s waiting starting requests) {connection : Connection}
    (hg : s.object.clientConnection = some connection → s.operations = 0) :
    Carries { s with object := s.object.unselect connection } waiting starting requests := by
  rw [ControlObject.unselect]
  split
  case isTrue hc => exact of_idle (hg hc) h.length_eq
  case isFalse => exact h

end Carries

namespace CheckHistory

variable {h h' : CheckHistory}

/-- What every state of a run under the guard has. -/
structure Inv (h : CheckHistory) : Prop where
  orders : h.server.Orders
  carries : Carries h.server h.waiting h.starting h.requests
  calls : h.CallsFaithful

theorem Inv.start {object : ControlObject} (ht : object.timeActivatedOperate = false) :
    (start object).Inv := by
  have hz : (Server.create object).operations = 0 := by
    rw [Server.operations]
    exact congrArg (fun b => (if b = true then 1 else 0) + 0 + 0) ht
  refine ⟨.of_idle hz, .of_idle hz rfl, fun call hcall => ?_⟩
  cases hcall

theorem CallsFaithful.append (hc : h.CallsFaithful) {calls : List HandlerCall}
    (hcalls : ∀ call ∈ calls, call.IsFaithful) :
    ∀ call ∈ h.calls ++ calls, call.IsFaithful := by
  intro call hcall
  rcases List.mem_append.mp hcall with hcall | hcall
  · exact hc call hcall
  · exact hcalls call hcall

/-- The event thread tells its check handler what the operation was asked for. -/
theorem Inv.checkCall (hi : h.Inv) (hstart : h.server.starting = true) :
    (HandlerCall.check (h.object.parameters.map (·.ctlVal)) h.object.testMode
      h.object.interlockCheck h.starting).IsFaithful := by
  obtain ⟨q, hq, hholds, hinterlock⟩ := hi.carries.starts hstart
  rw [hq, hholds.ctlVal, hholds.test, hinterlock]
  exact .check q

/-- So does a thread. -/
theorem Inv.waitForExecutionCall (hi : h.Inv) {index : Nat} {worker : Worker}
    (hget : h.server.workers[index]? = some worker) :
    ∀ call ∈ h.waitForExecutionCall index worker, call.IsFaithful := by
  intro call hcall
  cases worker with
  | waitForExecution task timed =>
    obtain ⟨q, hq, hholds⟩ := hi.carries.works index _ hget rfl
    rw [CheckHistory.waitForExecutionCall, List.mem_singleton] at hcall
    rw [hcall, hq, Option.getD_some, hholds.ctlVal, hholds.test, hholds.synchroCheck]
    exact .waitForExecution q
  | _ => cases hcall

/-- Where an event calls no handler and begins nothing, what is carried is all there is to show. -/
theorem Inv.quiet (hi : h.Inv) {server : Server} (ho : server.Orders)
    (hc : Carries server h.waiting h.starting h.requests) :
    Inv { h with server := server } := ⟨ho, hc, hi.calls⟩

theorem Inv.step (hi : h.Inv) {e : Event} (hg : h.Guarded e) (hs : h.Step e h') : h'.Inv := by
  obtain ⟨⟨server, observations⟩, hstep, hs⟩ := bind_ok hs
  cases hs
  have ho : server.Orders := hi.orders.step hg.1 hstep
  cases e with
  | readSBO connection currentTime result =>
    cases hstep
    refine hi.quiet ho (hi.carries.request hi.orders (fun hb => ?_) ?_)
    · exact ControlObject.readSBO_of_busy hb connection currentTime result
    · exact ControlObject.readSBO_timeActivated _ connection currentTime result
  | writeSBOw w currentTime result =>
    obtain ⟨r, hr, hstep⟩ := bind_ok hstep
    obtain ⟨htime, hthread⟩ := ControlObject.writeSBOw_timeActivated hr
    cases hstep
    refine hi.quiet ho ?_
    rw [hthread, if_neg Bool.false_ne_true]
    exact hi.carries.request hi.orders (fun hb => ControlObject.writeSBOw_of_busy hb hr) htime
  | writeOper w currentTime result invokeId =>
    obtain ⟨r, hr, hstep⟩ := bind_ok hstep
    cases hstep
    have hcarries := hi.carries.writeOper hi.orders hg.2 hr
    rw [after, object, hr]
    refine ⟨ho, hcarries, hi.calls.append fun call hcall => ?_⟩
    split at hcall
    · obtain ⟨q, -, rfl⟩ := List.mem_map.mp hcall
      exact .check q
    · cases hcall
  | writeCancel w =>
    cases hstep
    exact hi.quiet ho (hi.carries.writeCancel hi.orders hg.1.2)
  | processControlActions currentTime =>
    cases hstep
    exact ⟨ho, hi.carries.processControlActions currentTime, hi.calls⟩
  | startActivated result =>
    refine ⟨ho, hi.carries.startActivated hi.orders hstep, hi.calls.append fun call hcall => ?_⟩
    split at hcall
    case isTrue hcond =>
      rw [List.mem_singleton.mp hcall]
      exact hi.checkCall (Bool.and_eq_true _ _ ▸ hcond).1
    case isFalse => cases hcall
  | work index ok currentTime =>
    have hwork : Carries server h.waiting h.starting
        (if server.workers.length < h.server.workers.length then h.requests.eraseIdx index
          else h.requests) := by
      change h.server.work index ok currentTime = _ at hstep
      rw [Server.work] at hstep
      cases hget : h.server.workers[index]? with
      | none =>
        rw [hget] at hstep
        cases hstep
        rw [if_neg (lt_irrefl _)]
        exact hi.carries
      | some worker =>
        rw [hget] at hstep
        obtain ⟨⟨object, next, sent⟩, hworker, hstep⟩ := bind_ok hstep
        cases hstep
        obtain ⟨hsame, hnext⟩ := Worker.step_sameChecks hworker
        exact hi.carries.work hget hsame (Worker.step_frame hworker).1 hnext
    refine ⟨ho, ?_, hi.calls.append fun call hcall => ?_⟩
    · change Carries server h.waiting h.starting
        (if decide (server.workers.length < h.server.workers.length) = true then _ else _)
      simpa only [decide_eq_true_eq] using hwork
    · obtain ⟨worker, hworker, hcall⟩ := List.mem_flatMap.mp hcall
      exact hi.waitForExecutionCall (Option.mem_toList.mp hworker) call hcall
  | connectionClosed connection =>
    cases hstep
    exact hi.quiet ho
      ⟨hi.carries.length_eq, hi.carries.waits, hi.carries.starts, hi.carries.works⟩
  | unselect connection =>
    cases hstep
    exact hi.quiet ho (hi.carries.unselect hg.1.2)
  | configure sboClass sboTimeout =>
    cases hstep
    exact hi.quiet ho (hi.carries.of_same ⟨rfl, rfl, rfl, rfl⟩ rfl)

end CheckHistory

instance (s : Server) : (e : Event) → Decidable (s.Undisturbed e)
  | .writeCancel w => inferInstanceAs (Decidable (s.Permits (.writeCancel w) ∧
      (s.OwnerCancels w → s.operations = 0)))
  | .unselect connection => inferInstanceAs (Decidable (s.Permits (.unselect connection) ∧
      (s.object.clientConnection = some connection → s.operations = 0)))
  | .readSBO connection currentTime result =>
    inferInstanceAs (Decidable (s.Permits (.readSBO connection currentTime result) ∧ True))
  | .writeSBOw w currentTime result =>
    inferInstanceAs (Decidable (s.Permits (.writeSBOw w currentTime result) ∧ True))
  | .writeOper w currentTime result invokeId =>
    inferInstanceAs (Decidable (s.Permits (.writeOper w currentTime result invokeId) ∧ True))
  | .processControlActions _ | .startActivated _ | .work _ _ _ | .connectionClosed _
  | .configure _ _ => isTrue ⟨trivial, trivial⟩

namespace CheckHistory

instance (object : ControlObject) : (e : Event) → Decidable (KeepsSynchroCheck object e)
  | .writeOper w _ _ _ => inferInstanceAs (Decidable (object.state = .ready →
      w.isTimeActivated = false → ∀ q ∈ w.request, q.synchroCheck = object.synchroCheck))
  | .readSBO _ _ _ | .writeSBOw _ _ _ | .writeCancel _ | .processControlActions _
  | .startActivated _ | .work _ _ _ | .connectionClosed _ | .unselect _ | .configure _ _ =>
    isTrue trivial

instance (h : CheckHistory) (e : Event) : Decidable (h.Guarded e) :=
  inferInstanceAs (Decidable (h.server.Undisturbed e ∧ KeepsSynchroCheck h.object e))

end CheckHistory

end Iec61850.Control
