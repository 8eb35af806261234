import Iec61850.Client.MmsConnection
import Iec61850.Lib.Transition

/-! The answers of the server reach the threads that have asked for them, in the runs where no
thread gives up while an answer is on its way to another one. -/

namespace Iec61850.MmsConnection

variable {Thread : Type}

/-! ## What the callers see -/

namespace Caller

/-- The invoke id of the request that has not come to its end. -/
@[simp, grind] def invokeId : Caller → Option UInt32
  | idle => none
  | starting id => some id
  | added id => some id
  | waiting id => some id
  | leaving id _ => some id
  | removed id _ => some id
  | evaluated id _ _ => some id
  | cleared => none

/-- The request is among the outstanding calls. -/
@[simp, grind] def listed : Caller → Option UInt32
  | added id => some id
  | waiting id => some id
  | leaving id _ => some id
  | _ => none

/-- A response would be taken. -/
@[simp, grind] def pending : Caller → Option UInt32
  | added id => some id
  | waiting id => some id
  | _ => none

/-- The response is there, and has not been released. -/
@[simp, grind] def holds : Caller → Option UInt32
  | leaving id true => some id
  | removed id true => some id
  | evaluated id true _ => some id
  | _ => none

/-- The request has been given up, and the caller is about to release what it has not got. -/
@[simp, grind] def givingUp : Caller → Bool
  | leaving _ false => true
  | removed _ false => true
  | evaluated _ false _ => true
  | _ => false

variable {c : Caller} {id : UInt32}

theorem listed_invokeId (h : c.listed = some id) : c.invokeId = some id := by
  cases c <;> simp_all

theorem pending_listed (h : c.pending = some id) : c.listed = some id := by
  cases c <;> simp_all

theorem pending_of_listed (h : c.listed = some id) (hh : c.holds = none)
    (hg : c.givingUp = false) : c.pending = some id := by
  cases c with
  | leaving i success => cases success <;> simp_all
  | _ => simp_all

theorem holds_invokeId (h : c.holds = some id) : c.invokeId = some id := by
  unfold holds at h
  split at h <;> simp_all

end Caller

/-- The message in the hands of the connection thread. -/
@[simp, grind] def Receiver.message : Receiver → Option Indication
  | .checking message => some message
  | .storing message => some message
  | _ => none

/-- The connection thread has the receive buffer, or is gone with it. -/
@[simp, grind] def Receiver.hasBuffer : Receiver → Bool
  | .waitingForBuffer => false
  | _ => true

/-- The error an answer brings. -/
@[simp, grind] def Indication.responseError : Indication → Option ResponseError
  | .error id mmsError => some (.service id mmsError)
  | _ => none

namespace Client

/-- The receive buffer holds the answer with this invoke id, and the error is that of the
answer. -/
def Delivers (s : Client Thread) (id : UInt32) : Prop :=
  ∃ message, indication s.nextPayload = .ok message ∧ message.invokeId = some id ∧
    s.lastResponseError = message.responseError

/-- A caller with this request has been given what belongs to it: the answer or the error with its
invoke id, or without any answer at most a timeout. -/
def Own (id : UInt32) (success : Bool) (result : Result) : Prop :=
  if success then
    (∃ payload, result = .response payload ∧ indication payload = .ok (.response id)) ∨
      ∃ payload error, result = .error (.service id error) ∧
        indication payload = .ok (.error id error)
  else result = .nothing ∨ result = .error .timeout

/-- The answer is on its way to its caller. -/
def OnItsWay (s : Client Thread) (id : UInt32) : Prop :=
  (∃ message, s.receiver.message = some message ∧ message.invokeId = some id) ∨
    s.responseInvokeId = id

/-- Somebody will take or release the response that is there. -/
def HasConsumer (s : Client Thread) : Prop :=
  ∃ u, (s.callers u).pending = some s.responseInvokeId ∨
    (s.callers u).holds = some s.responseInvokeId

end Client

/-- The connection with what has been seen of it: the answers received since their request was
added, the requests given up behind their answer, and whether any request was given up. -/
structure ClientHistory (Thread : Type) where
  client : Client Thread
  arrived : List UInt32
  missed : List UInt32
  gaveUp : Bool

namespace ClientHistory

def start (Thread : Type) : ClientHistory Thread := ⟨.create Thread, [], [], false⟩

def arrives (h : ClientHistory Thread) : Indication → List UInt32
  | .response id => id :: h.arrived
  | .error id _ => id :: h.arrived
  | _ => h.arrived

def giveUp (h : ClientHistory Thread) (thread : Thread) (client : Client Thread) :
    ClientHistory Thread where
  client := client
  arrived := h.arrived
  missed := h.missed ++ h.arrived.filter fun id => (h.client.callers thread).invokeId = some id
  gaveUp := true

def after (h : ClientHistory Thread) (e : Event Thread) (client : Client Thread) :
    ClientHistory Thread :=
  match e with
  | .addToOutstandingCalls thread =>
    { h with
      client
      arrived := h.arrived.filter fun id => (h.client.callers thread).invokeId ≠ some id }
  | .timeout thread => h.giveUp thread client
  | .connectionLost thread => h.giveUp thread client
  | .receive payload =>
    match indication payload with
    | .ok message => { h with client, arrived := h.arrives message }
    | .error _ => { h with client }
  | _ => { h with client }

/-- Each caller gets its own answer, no answer that comes before its caller gives up is lost, the
invoke ids differ, and the connection thread never waits for a caller that is gone. -/
structure Matches (h : ClientHistory Thread) : Prop where
  own : ∀ t id success result, h.client.callers t = .evaluated id success result →
    Client.Own id success result
  held : ∀ t id, (h.client.callers t).holds = some id → h.client.Delivers id
  kept : ∀ t id, (h.client.callers t).pending = some id → id ∈ h.arrived → h.client.OnItsWay id
  missed : h.missed = []
  distinct : ∀ t u id, (h.client.callers t).invokeId = some id →
    (h.client.callers u).invokeId = some id → t = u
  storing : ∀ message, h.client.receiver = .storing message →
    h.client.responseInvokeId = 0 ∨ h.client.HasConsumer
  waiting : h.client.receiver = .waitingForBuffer →
    0 < h.client.receiveBufferMutex ∨ (h.client.responseInvokeId ≠ 0 ∧ h.client.HasConsumer) ∨
      ∃ u, h.client.callers u = .cleared

/-- The next invoke id is new, there is a place for the call, no request is given up while its own
answer is with the connection thread or any answer with its caller, every message received is
dealt with and no response is there to be overwritten, no answer is looked up while its own request
is being given up, and none is stored while any request is. -/
def Undisturbed (h : ClientHistory Thread) : Event Thread → Prop
  | .getNextInvokeId _ =>
    h.client.lastInvokeId + 1 ≠ 0 ∧
      ∀ u, (h.client.callers u).invokeId ≠ some (h.client.lastInvokeId + 1)
  | .addToOutstandingCalls _ => 0 ∈ h.client.outstandingCalls
  | .timeout thread | .connectionLost thread =>
    h.client.responseInvokeId = 0 ∧ ∀ message, h.client.receiver.message = some message →
      message.invokeId ≠ (h.client.callers thread).invokeId
  | .receive payload =>
    (h.gaveUp = true → h.client.responseInvokeId = 0) ∧
      ∀ message, indication payload = .ok message →
        message ≠ .ignored ∧ message.invokeId ≠ some 0
  | .checkForOutstandingCall =>
    ∀ u message, h.client.receiver.message = some message →
      message.invokeId = (h.client.callers u).invokeId → (h.client.callers u).givingUp = false
  | .storeResponse => ∀ u, (h.client.callers u).givingUp = false
  | _ => True

variable [DecidableEq Thread]

def step (h : ClientHistory Thread) (e : Event Thread) : Option (ClientHistory Thread) :=
  (h.client.step e).map (h.after e)

abbrev Step (h : ClientHistory Thread) (e : Event Thread) (h' : ClientHistory Thread) : Prop :=
  h.step e = some h'

end ClientHistory

/-! ## What one step can do -/

namespace Client

variable [DecidableEq Thread] {s s' : Client Thread} {t : Thread}

theorem step_getNextInvokeId (h : s.step (.getNextInvokeId t) = some s') :
    s.callers t = .idle ∧ s' = { s with
      lastInvokeId := s.lastInvokeId + 1
      callers := Function.update s.callers t (.starting (s.lastInvokeId + 1)) } := by
  cases hc : s.callers t <;> simp only [step, hc, reduceCtorEq, Option.some.injEq] at h
  exact ⟨rfl, h.symm⟩

theorem step_addToOutstandingCalls (h : s.step (.addToOutstandingCalls t) = some s') :
    ∃ id, s.callers t = .starting id ∧ s' = { s with
      outstandingCalls := MmsConnection.addToOutstandingCalls id s.outstandingCalls
      callers := Function.update s.callers t (.added id) } := by
  cases hc : s.callers t <;> simp only [step, hc, reduceCtorEq, Option.some.injEq] at h
  exact ⟨_, rfl, h.symm⟩

theorem step_sendMessage (h : s.step (.sendMessage t) = some s') :
    ∃ id, s.callers t = .added id ∧
      s' = { s with callers := Function.update s.callers t (.waiting id) } := by
  cases hc : s.callers t <;> simp only [step, hc, reduceCtorEq, Option.some.injEq] at h
  exact ⟨_, rfl, h.symm⟩

theorem step_takeResponse (h : s.step (.takeResponse t) = some s') :
    ∃ id, s.callers t = .waiting id ∧ s.responseInvokeId = id ∧
      s' = { s with callers := Function.update s.callers t (.leaving id true) } := by
  cases hc : s.callers t <;> simp only [step, hc, reduceCtorEq] at h
  obtain ⟨hid, h⟩ := Option.ite_none_right_eq_some.mp h
  exact ⟨_, rfl, hid, (Option.some.inj h).symm⟩

theorem step_timeout (h : s.step (.timeout t) = some s') :
    ∃ id, s.callers t = .waiting id ∧ s' = { s with
      lastResponseError := some .timeout
      callers := Function.update s.callers t (.leaving id false) } := by
  cases hc : s.callers t <;> simp only [step, hc, reduceCtorEq, Option.some.injEq] at h
  exact ⟨_, rfl, h.symm⟩

theorem step_connectionLost (h : s.step (.connectionLost t) = some s') :
    ∃ id, s.callers t = .waiting id ∧
      s' = { s with callers := Function.update s.callers t (.leaving id false) } := by
  cases hc : s.callers t <;> simp only [step, hc, reduceCtorEq] at h
  obtain ⟨_, h⟩ := Option.ite_none_right_eq_some.mp h
  exact ⟨_, rfl, (Option.some.inj h).symm⟩

theorem step_removeFromOutstandingCalls (h : s.step (.removeFromOutstandingCalls t) = some s') :
    ∃ id success, s.callers t = .leaving id success ∧ s' = { s with
      outstandingCalls := MmsConnection.removeFromOutstandingCalls id s.outstandingCalls
      callers := Function.update s.callers t (.removed id success) } := by
  cases hc : s.callers t <;> simp only [step, hc, reduceCtorEq, Option.some.injEq] at h
  exact ⟨_, _, rfl, h.symm⟩

theorem step_evaluate (h : s.step (.evaluate t) = some s') :
    ∃ id success, s.callers t = .removed id success ∧ s' = { s with
      callers := Function.update s.callers t (.evaluated id success (s.result success)) } := by
  cases hc : s.callers t <;> simp only [step, hc, reduceCtorEq, Option.some.injEq] at h
  exact ⟨_, _, rfl, h.symm⟩

theorem step_clearResponse (h : s.step (.clearResponse t) = some s') :
    ∃ id success result, s.callers t = .evaluated id success result ∧ s' = { s with
      responseInvokeId := 0
      lastResponseError := none
      callers := Function.update s.callers t .cleared } := by
  cases hc : s.callers t <;> simp only [step, hc, reduceCtorEq, Option.some.injEq] at h
  exact ⟨_, _, _, rfl, h.symm⟩

theorem step_releaseReceiveBuffer (h : s.step (.releaseReceiveBuffer t) = some s') :
    s.callers t = .cleared ∧ s' = { s with
      receiveBufferMutex := s.receiveBufferMutex + 1
      callers := Function.update s.callers t .idle } := by
  cases hc : s.callers t <;> simp only [step, hc, reduceCtorEq, Option.some.injEq] at h
  exact ⟨rfl, h.symm⟩

theorem step_receive {payload : List UInt8} (h : s.step (.receive payload) = some s') :
    ∃ message, s.receiver = .reading ∧ indication payload = .ok message ∧
      s' = s.receive payload message := by
  cases hr : s.receiver <;> cases hm : indication payload <;>
    simp only [step, hr, hm, reduceCtorEq, Option.some.injEq] at h
  exact ⟨_, rfl, rfl, h.symm⟩

theorem step_checkForOutstandingCall (h : s.step .checkForOutstandingCall = some s') :
    ∃ message id, s.receiver = .checking message ∧ message.invokeId = some id ∧
      s' = s.checkForOutstandingCall message id := by
  cases hr : s.receiver <;> simp only [step, hr, reduceCtorEq, Option.map_eq_some_iff] at h
  obtain ⟨id, hid, h⟩ := h
  exact ⟨_, id, rfl, hid, h.symm⟩

theorem step_storeResponse (h : s.step .storeResponse = some s') :
    ∃ message, s.receiver = .storing message ∧ s.responseInvokeId = 0 ∧
      s' = s.storeResponse message := by
  cases hr : s.receiver <;> simp only [step, hr, reduceCtorEq] at h
  obtain ⟨hid, h⟩ := Option.ite_none_right_eq_some.mp h
  exact ⟨_, rfl, hid, (Option.some.inj h).symm⟩

theorem step_waitForBuffer (h : s.step .waitForBuffer = some s') :
    s.receiver = .waitingForBuffer ∧ 0 < s.receiveBufferMutex ∧
      s' = { s with receiver := .reading, receiveBufferMutex := s.receiveBufferMutex - 1 } := by
  cases hr : s.receiver <;> simp only [step, hr, reduceCtorEq] at h
  obtain ⟨hb, h⟩ := Option.ite_none_right_eq_some.mp h
  exact ⟨rfl, hb, (Option.some.inj h).symm⟩

theorem step_close (h : s.step .close = some s') :
    s.receiver = .reading ∧ s' = { s with receiver := .closed } := by
  cases hr : s.receiver <;> simp only [step, hr, reduceCtorEq, Option.some.injEq] at h
  exact ⟨rfl, h.symm⟩

end Client

/-! ## Invoke ids and outstanding calls -/

section Update

variable [DecidableEq Thread] {callers : Thread → Caller} {t u : Thread} {c : Caller}
  {id : UInt32} {calls : List UInt32}

/-- What does not see the difference at one thread sees none. -/
theorem view_update {β : Type} (f : Caller → β) (h : f c = f (callers t)) (u : Thread) :
    f (Function.update callers t c u) = f (callers u) := by
  by_cases hu : u = t
  · rw [hu, Function.update_self, h]
  · rw [Function.update_of_ne hu]

theorem view_update_self {β : Type} (f : Caller → β) :
    f (Function.update callers t c t) = f c := by rw [Function.update_self]

theorem view_update_of_ne {β : Type} (f : Caller → β) (h : u ≠ t) :
    f (Function.update callers t c u) = f (callers u) := by rw [Function.update_of_ne h]

/-- What one thread does not have afterwards, another one has had before. -/
theorem view_update_none {β : Type} (f : Caller → Option β) {b : β} (h : f c = none)
    (hu : f (Function.update callers t c u) = some b) : u ≠ t ∧ f (callers u) = some b := by
  by_cases hut : u = t
  · rw [hut, Function.update_self, h] at hu
    cases hu
  · rw [Function.update_of_ne hut] at hu
    exact ⟨hut, hu⟩

structure Ids (callers : Thread → Caller) : Prop where
  nonzero : ∀ t id, (callers t).invokeId = some id → id ≠ 0
  distinct : ∀ t u id, (callers t).invokeId = some id → (callers u).invokeId = some id → t = u

theorem Ids.same (hi : Ids callers) (h : c.invokeId = (callers t).invokeId) :
    Ids (Function.update callers t c) := by
  constructor
  · intro u id hu
    rw [view_update Caller.invokeId h] at hu
    exact hi.nonzero u id hu
  · intro u v id hu hv
    rw [view_update Caller.invokeId h] at hu hv
    exact hi.distinct u v id hu hv

theorem Ids.leave (hi : Ids callers) (h : c.invokeId = none) :
    Ids (Function.update callers t c) := by
  constructor
  · intro u id hu
    exact hi.nonzero u id (view_update_none Caller.invokeId h hu).2
  · intro u v id hu hv
    exact hi.distinct u v id (view_update_none Caller.invokeId h hu).2
      (view_update_none Caller.invokeId h hv).2

theorem Ids.enter (hi : Ids callers) (hid : id ≠ 0) (hnew : ∀ u, (callers u).invokeId ≠ some id) :
    Ids (Function.update callers t (.starting id)) := by
  have hview (u : Thread) (i : UInt32)
      (hu : (Function.update callers t (.starting id) u).invokeId = some i) :
      u = t ∧ i = id ∨ u ≠ t ∧ (callers u).invokeId = some i := by
    by_cases hut : u = t
    · rw [hut, Function.update_self] at hu
      exact .inl ⟨hut, (Option.some.inj hu).symm⟩
    · rw [Function.update_of_ne hut] at hu
      exact .inr ⟨hut, hu⟩
  constructor
  · intro u i hu
    obtain ⟨_, rfl⟩ | ⟨_, hu⟩ := hview u i hu
    · exact hid
    · exact hi.nonzero u i hu
  · intro u v i hu hv
    obtain ⟨hut, hi'⟩ | ⟨_, hu⟩ := hview u i hu <;> obtain ⟨hvt, hi''⟩ | ⟨_, hv⟩ := hview v i hv
    · rw [hut, hvt]
    · exact absurd (hi' ▸ hv) (hnew v)
    · exact absurd (hi'' ▸ hu) (hnew u)
    · exact hi.distinct u v i hu hv

/-- The table holds the calls of the callers, each of them once. -/
structure Table (callers : Thread → Caller) (calls : List UInt32) : Prop where
  listed : ∀ id, id ≠ 0 → (id ∈ calls ↔ ∃ t, (callers t).listed = some id)
  once : ∀ id, id ≠ 0 → calls.count id ≤ 1

theorem count_addToOutstandingCalls (h : 0 ∈ calls) (i : UInt32) (hi : i ≠ 0) :
    (addToOutstandingCalls id calls).count i = calls.count i + if id = i then 1 else 0 := by
  induction calls with
  | nil => cases h
  | cons call calls ih =>
    rw [addToOutstandingCalls]
    by_cases hc : call = 0
    · rw [if_pos hc, List.count_cons, List.count_cons_of_ne (by rw [hc]; exact hi.symm)]
      simp only [beq_iff_eq]
    · rw [if_neg hc, List.count_cons, List.count_cons, ih (by simpa [Ne.symm hc] using h)]
      exact Nat.add_right_comm _ _ _

theorem count_removeFromOutstandingCalls (h : id ∈ calls) (i : UInt32) (hi : i ≠ 0) :
    (removeFromOutstandingCalls id calls).count i + (if id = i then 1 else 0) =
      calls.count i := by
  induction calls with
  | nil => cases h
  | cons call calls ih =>
    rw [removeFromOutstandingCalls]
    by_cases hc : call = id
    · rw [if_pos hc, List.count_cons_of_ne hi.symm, List.count_cons, hc]
      simp only [beq_iff_eq]
    · rw [if_neg hc, List.count_cons, List.count_cons, ← ih (by simpa [Ne.symm hc] using h)]
      exact Nat.add_right_comm _ _ _

theorem Table.same (ht : Table callers calls) (h : c.listed = (callers t).listed) :
    Table (Function.update callers t c) calls := by
  constructor
  · intro id hid
    simp only [view_update Caller.listed h]
    exact ht.listed id hid
  · exact ht.once

/-- The table follows the caller whose call is added. -/
theorem Table.add (ht : Table callers calls) (hi : Ids callers) (hc : callers t = .starting id)
    (h : 0 ∈ calls) :
    Table (Function.update callers t (.added id)) (addToOutstandingCalls id calls) := by
  have hid : (callers t).invokeId = some id := by rw [hc]; rfl
  have hmem (i : UInt32) (hi : i ≠ 0) :
      i ∈ addToOutstandingCalls id calls ↔ id = i ∨ i ∈ calls := by
    rw [← List.count_pos_iff, ← List.count_pos_iff (l := calls),
      count_addToOutstandingCalls h i hi]
    split <;> simp_all
  have hnew : ∀ u, (callers u).listed ≠ some id := by
    intro u hu
    obtain rfl := hi.distinct u t id (Caller.listed_invokeId hu) hid
    rw [hc] at hu
    cases hu
  constructor
  · intro i hi'
    rw [hmem i hi']
    constructor
    · rintro (rfl | hi')
      · exact ⟨t, by rw [Function.update_self]; rfl⟩
      · obtain ⟨u, hu⟩ := (ht.listed i ‹_›).mp hi'
        refine ⟨u, ?_⟩
        rw [Function.update_of_ne, hu]
        rintro rfl
        rw [hc] at hu
        cases hu
    · rintro ⟨u, hu⟩
      by_cases hut : u = t
      · rw [hut, Function.update_self] at hu
        exact .inl (Option.some.inj hu)
      · rw [Function.update_of_ne hut] at hu
        exact .inr ((ht.listed i hi').mpr ⟨u, hu⟩)
  · intro i hi'
    rw [count_addToOutstandingCalls h i hi']
    split
    · rename_i hii
      rw [List.count_eq_zero_of_not_mem]
      rw [ht.listed i hi']
      rintro ⟨u, hu⟩
      exact hnew u (hii ▸ hu)
    · exact ht.once i hi'

theorem Table.remove (ht : Table callers calls) (hi : Ids callers) (success : Bool)
    (hc : callers t = .leaving id success) :
    Table (Function.update callers t (.removed id success))
      (removeFromOutstandingCalls id calls) := by
  have hlisted : (callers t).listed = some id := by rw [hc]; rfl
  have hid : (callers t).invokeId = some id := Caller.listed_invokeId hlisted
  have hmem : id ∈ calls := (ht.listed id (hi.nonzero t id hid)).mpr ⟨t, hlisted⟩
  constructor
  · intro i hi'
    have hcount := count_removeFromOutstandingCalls hmem i hi'
    constructor
    · intro h
      have hpos : 0 < (removeFromOutstandingCalls id calls).count i := List.count_pos_iff.mpr h
      have honce := ht.once i hi'
      obtain ⟨u, hu⟩ := (ht.listed i hi').mp (List.count_pos_iff.mp (by omega))
      refine ⟨u, ?_⟩
      rw [Function.update_of_ne, hu]
      rintro rfl
      rw [if_pos (Option.some.inj (hlisted.symm.trans hu))] at hcount
      omega
    · rintro ⟨u, hu⟩
      obtain ⟨hut, hu⟩ := view_update_none Caller.listed rfl hu
      have hne : id ≠ i := by
        rintro rfl
        exact hut (hi.distinct u t id (Caller.listed_invokeId hu) hid)
      rw [if_neg hne, Nat.add_zero] at hcount
      rw [← List.count_pos_iff, hcount, List.count_pos_iff]
      exact (ht.listed i hi').mpr ⟨u, hu⟩
  · intro i hi'
    have hcount := count_removeFromOutstandingCalls hmem i hi'
    have honce := ht.once i hi'
    omega

end Update

/-! ## The response that is handed over -/

namespace Client

variable {s s' : Client Thread} {t u : Thread} {c : Caller} {id : UInt32}

/-- There is no response, and a message the connection thread has is meant for somebody. -/
structure Empty (s : Client Thread) : Prop where
  response : s.responseInvokeId = 0
  holds : ∀ u, (s.callers u).holds = none
  error : s.lastResponseError = none ∨
    s.lastResponseError = some .timeout ∧ ∃ u, (s.callers u).givingUp = true
  message : ∀ message, s.receiver.message = some message →
    indication s.nextPayload = .ok message ∧ ∃ id, id ≠ 0 ∧ message.invokeId = some id
  storing : ∀ message, s.receiver = .storing message →
    ∃ u, (s.callers u).pending = message.invokeId

/-- There is a response, for this thread and nobody else. -/
structure Full (s : Client Thread) (t : Thread) (id : UInt32) : Prop where
  response : s.responseInvokeId = id
  consumer : (s.callers t).pending = some id ∨ (s.callers t).holds = some id
  others : ∀ u, u ≠ t → (s.callers u).holds = none
  givingUp : ∀ u, (s.callers u).givingUp = false
  delivers : s.Delivers id
  message : s.receiver.message = none

def Slot (s : Client Thread) : Prop := s.Empty ∨ ∃ t id, s.Full t id

theorem Full.invokeId (hf : s.Full t id) : (s.callers t).invokeId = some id := by
  rcases hf.consumer with h | h
  · exact Caller.listed_invokeId (Caller.pending_listed h)
  · exact Caller.holds_invokeId h

theorem Full.nonzero (hf : s.Full t id) (hi : Ids s.callers) : id ≠ 0 :=
  hi.nonzero t id hf.invokeId

theorem Slot.empty (hs : s.Slot) (hi : Ids s.callers) (h : s.responseInvokeId = 0) : s.Empty := by
  rcases hs with he | ⟨t, id, hf⟩
  · exact he
  · exact absurd (hf.response.symm.trans h) (hf.nonzero hi)

theorem Slot.empty_of_message (hs : s.Slot) (message : Indication)
    (h : s.receiver.message = some message) : s.Empty := by
  rcases hs with he | ⟨t, id, hf⟩
  · exact he
  · rw [hf.message] at h
    cases h

theorem Slot.empty_of_givingUp (hs : s.Slot) (h : (s.callers t).givingUp = true) : s.Empty := by
  rcases hs with he | ⟨u, id, hf⟩
  · exact he
  · rw [hf.givingUp] at h
    cases h

/-- The caller that holds the response is the one it is for. -/
theorem Slot.full_of_holds (hs : s.Slot) (t : Thread) (id : UInt32)
    (h : (s.callers t).holds = some id) : s.Full t id := by
  rcases hs with he | ⟨u, i, hf⟩
  · rw [he.holds] at h
    cases h
  · have hut : t = u := by
      by_contra hut
      rw [hf.others t hut] at h
      cases h
    subst hut
    rcases hf.consumer with hp | hh
    · cases hc : s.callers t <;> simp_all
    · rw [hh] at h
      cases h
      exact hf

theorem Empty.receive (he : s.Empty) {payload : List UInt8} {message : Indication}
    (hm : indication payload = .ok message) (h : message.invokeId ≠ some 0) :
    (s.receive payload message).Empty := by
  have hanswer (i : UInt32) (hi : message.invokeId = some i) :
      Empty { s with nextPayload := payload, receiver := .checking message } := by
    refine ⟨he.response, he.holds, he.error, fun m h' => ?_, fun m h' => (nomatch h')⟩
    obtain rfl := Option.some.inj h'
    exact ⟨hm, i, fun h0 => h (h0 ▸ hi), hi⟩
  cases message with
  | response i => exact hanswer i rfl
  | error i e => exact hanswer i rfl
  | released =>
    exact ⟨he.response, he.holds, he.error, fun m h' => (nomatch h'), fun m h' => (nomatch h')⟩
  | ignored =>
    exact ⟨he.response, he.holds, he.error, fun m h' => (nomatch h'), fun m h' => (nomatch h')⟩

/-- A call is looked up that nobody is about to give up: somebody waits for it. -/
theorem Empty.check (he : s.Empty) (ht : Table s.callers s.outstandingCalls)
    {message : Indication} (hr : s.receiver = .checking message)
    (hid : message.invokeId = some id)
    (hg : ∀ u, message.invokeId = (s.callers u).invokeId → (s.callers u).givingUp = false) :
    (s.checkForOutstandingCall message id).Empty := by
  obtain ⟨hm, i, hi, hmi⟩ := he.message message (by rw [hr]; rfl)
  obtain rfl : id = i := Option.some.inj (hid.symm.trans hmi)
  rw [checkForOutstandingCall]
  by_cases h : id ∈ s.outstandingCalls
  · rw [if_pos h]
    refine ⟨he.response, he.holds, he.error, fun m h' => ?_, fun m h' => ?_⟩
    · obtain rfl := Option.some.inj h'
      exact ⟨hm, id, hi, hmi⟩
    · obtain rfl := Receiver.storing.inj h'
      obtain ⟨u, hu⟩ := (ht.listed id hi).mp h
      have hgu := hg u (hid.trans (Caller.listed_invokeId hu).symm)
      exact ⟨u, (Caller.pending_of_listed hu (he.holds u) hgu).trans hid.symm⟩
  · rw [if_neg h]
    exact ⟨he.response, he.holds, he.error, fun m h' => (nomatch h'), fun m h' => (nomatch h')⟩

theorem Empty.store (he : s.Empty) {message : Indication} (hr : s.receiver = .storing message)
    (hg : ∀ u, (s.callers u).givingUp = false) :
    ∃ t id, message.invokeId = some id ∧ (s.storeResponse message).Full t id := by
  obtain ⟨hm, id, _, hid⟩ := he.message message (by rw [hr]; rfl)
  obtain ⟨t, ht⟩ := he.storing message hr
  have hnone : s.lastResponseError = none := by
    rcases he.error with h | ⟨_, u, hu⟩
    · exact h
    · rw [hg u] at hu
      cases hu
  refine ⟨t, id, hid, ?_⟩
  cases message with
  | response i =>
    obtain rfl := Option.some.inj hid
    exact ⟨rfl, .inl ht, fun u _ => he.holds u, hg, ⟨_, hm, rfl, hnone⟩, rfl⟩
  | error i e =>
    obtain rfl := Option.some.inj hid
    exact ⟨rfl, .inl ht, fun u _ => he.holds u, hg, ⟨_, hm, rfl, rfl⟩, rfl⟩
  | released => cases hid
  | ignored => cases hid

/-- The connection thread goes on without a message. -/
theorem Slot.turn (hs : s.Slot) {receiver : Receiver} (hm : receiver.message = none)
    (mutex : Nat) : Slot { s with receiver := receiver, receiveBufferMutex := mutex } := by
  rcases hs with he | ⟨t, id, hf⟩
  · left
    refine ⟨he.response, he.holds, he.error, fun m h => ?_, fun m h => ?_⟩
    · exact absurd (hm.symm.trans h) (Option.some_ne_none _).symm
    · rw [show receiver = _ from h] at hm
      cases hm
  · exact .inr ⟨t, id, hf.response, hf.consumer, hf.others, hf.givingUp, hf.delivers, hm⟩

/-- What a caller gets out of the response. -/
theorem Slot.own (hs : s.Slot) {success : Bool} (hc : s.callers t = .removed id success) :
    Own id success (s.result success) := by
  cases success with
  | true =>
    obtain ⟨message, hm, hid, herror⟩ :=
      (hs.full_of_holds t id (by rw [hc]; rfl)).delivers
    cases message with
    | response i =>
      obtain rfl := Option.some.inj hid
      exact .inl ⟨s.nextPayload, by rw [result, herror]; rfl, hm⟩
    | error i e =>
      obtain rfl := Option.some.inj hid
      exact .inr ⟨s.nextPayload, e, by rw [result, herror]; rfl, hm⟩
    | released => cases hid
    | ignored => cases hid
  | false =>
    rcases (hs.empty_of_givingUp (t := t) (by rw [hc]; rfl)).error with h | ⟨h, _⟩
    · exact .inl (by rw [result, h]; rfl)
    · exact .inr (by rw [result, h])

variable [DecidableEq Thread]

/-- A caller moves on, without taking a response or giving up. -/
theorem Slot.moveOn (hs : s.Slot) (hh : c.holds = (s.callers t).holds)
    (hg : c.givingUp = (s.callers t).givingUp)
    (hp : c.pending = (s.callers t).pending ∨ (s.callers t).pending = none) :
    Slot { s with callers := Function.update s.callers t c } := by
  have hpending {u : Thread} {id : UInt32} (hu : (s.callers u).pending = some id) :
      (Function.update s.callers t c u).pending = some id := by
    by_cases hut : u = t
    · rw [hut] at hu ⊢
      rw [Function.update_self]
      rcases hp with hp | hp
      · rw [hp, hu]
      · rw [hp] at hu
        cases hu
    · rw [Function.update_of_ne hut, hu]
  rcases hs with he | ⟨v, id, hf⟩
  · left
    refine ⟨he.response, fun u => ?_, ?_, he.message, fun message hm => ?_⟩
    · exact (view_update Caller.holds hh u).trans (he.holds u)
    · rcases he.error with h | ⟨h, u, hu⟩
      · exact .inl h
      · exact .inr ⟨h, u, (view_update Caller.givingUp hg u).trans hu⟩
    · obtain ⟨u, hu⟩ := he.storing message hm
      obtain ⟨_, id, _, hid⟩ := he.message message (by rw [show s.receiver = _ from hm]; rfl)
      exact ⟨u, (hpending (hu.trans hid)).trans hid.symm⟩
  · right
    refine ⟨v, id, hf.response, ?_, fun u hu => ?_, fun u => ?_, hf.delivers, hf.message⟩
    · rcases hf.consumer with h | h
      · exact .inl (hpending h)
      · exact .inr ((view_update Caller.holds hh v).trans h)
    · exact (view_update Caller.holds hh u).trans (hf.others u hu)
    · exact (view_update Caller.givingUp hg u).trans (hf.givingUp u)

theorem Slot.takeResponse (hs : s.Slot) (hi : Ids s.callers) (hc : s.callers t = .waiting id)
    (hid : s.responseInvokeId = id) :
    Slot { s with callers := Function.update s.callers t (.leaving id true) } := by
  have hinv : (s.callers t).invokeId = some id := by rw [hc]; rfl
  rcases hs with he | ⟨u, i, hf⟩
  · exact absurd (hid.symm.trans he.response) (hi.nonzero t id hinv)
  · obtain rfl : i = id := hf.response.symm.trans hid
    obtain rfl : u = t := hi.distinct u t i hf.invokeId hinv
    right
    refine ⟨u, i, hf.response, .inr ?_, fun v hv => ?_, fun v => ?_, hf.delivers, hf.message⟩
    · exact view_update_self Caller.holds
    · exact (view_update_of_ne Caller.holds hv).trans (hf.others v hv)
    · exact (view_update Caller.givingUp (by rw [hc]; rfl) v).trans (hf.givingUp v)

/-- A caller gives up when nothing is there for it. -/
theorem Empty.giveUp (he : s.Empty) (hc : s.callers t = .waiting id)
    (hm : ∀ message, s.receiver.message = some message →
      message.invokeId ≠ (s.callers t).invokeId) (error : Option ResponseError)
    (herror : error = some .timeout ∨ error = s.lastResponseError) :
    Empty { s with
      lastResponseError := error
      callers := Function.update s.callers t (.leaving id false) } := by
  have hup : (Function.update s.callers t (Caller.leaving id false) t).givingUp = true := by
    rw [Function.update_self]
    rfl
  refine ⟨he.response, fun u => ?_, ?_, he.message, fun message h => ?_⟩
  · exact (view_update Caller.holds (by rw [hc]; rfl) u).trans (he.holds u)
  · rcases herror with rfl | rfl
    · exact .inr ⟨rfl, t, hup⟩
    · exact he.error.imp_right fun h => ⟨h.1, t, hup⟩
  · obtain ⟨u, hu⟩ := he.storing message h
    have hut : u ≠ t := by
      rintro rfl
      refine hm message (by rw [show s.receiver = _ from h]; rfl) ?_
      rw [← hu, hc]
      rfl
    exact ⟨u, (view_update_of_ne Caller.pending hut).trans hu⟩

theorem Slot.clear (hs : s.Slot) {success : Bool} {result : Result}
    (hc : s.callers t = .evaluated id success result) :
    Empty { s with
      responseInvokeId := 0
      lastResponseError := none
      callers := Function.update s.callers t .cleared } := by
  have hp : Caller.cleared.pending = (s.callers t).pending := by rw [hc]; rfl
  cases success with
  | false =>
    have he := hs.empty_of_givingUp (t := t) (by rw [hc]; rfl)
    refine ⟨rfl, fun u => ?_, .inl rfl, he.message, fun message h => ?_⟩
    · exact (view_update Caller.holds (by rw [hc]; rfl) u).trans (he.holds u)
    · obtain ⟨u, hu⟩ := he.storing message h
      exact ⟨u, (view_update Caller.pending hp u).trans hu⟩
  | true =>
    have hf := hs.full_of_holds t id (by rw [hc]; rfl)
    refine ⟨rfl, fun u => ?_, .inl rfl, fun message h => ?_, fun message h => ?_⟩
    · by_cases hu : u = t
      · rw [hu]
        exact view_update_self Caller.holds
      · exact (view_update_of_ne Caller.holds hu).trans (hf.others u hu)
    · exact absurd (hf.message.symm.trans h) (Option.some_ne_none _).symm
    · have hm := hf.message
      rw [show s.receiver = _ from h] at hm
      cases hm

end Client

/-! ## The receive buffer -/

/-- Who may have the receive buffer: the connection thread, a permit of the semaphore, the response
that is there, or a caller that has cleared it. -/
inductive Holder (Thread : Type)
  | receiver
  | permit (n : Nat)
  | response
  | caller (thread : Thread)

namespace Client

variable {s s' : Client Thread} {t : Thread} {c : Caller} {gaveUp : Bool}

def Has (s : Client Thread) : Holder Thread → Prop
  | .receiver => s.receiver.hasBuffer = true
  | .permit n => n < s.receiveBufferMutex
  | .response => s.responseInvokeId ≠ 0
  | .caller thread => s.callers thread = .cleared

/-- Somebody has the buffer; until a request is given up nobody else has it. -/
structure Buffer (gaveUp : Bool) (s : Client Thread) : Prop where
  live : ∃ x, s.Has x
  alone : gaveUp = false → ∀ x y, s.Has x → s.Has y → x = y

theorem Buffer.same (hb : Buffer gaveUp s) (h : ∀ x, s'.Has x ↔ s.Has x) : Buffer gaveUp s' := by
  constructor
  · exact hb.live.imp fun x => (h x).mpr
  · intro hg x y hx hy
    exact hb.alone hg x y ((h x).mp hx) ((h y).mp hy)

/-- The buffer is handed over. -/
theorem Buffer.move (hb : Buffer gaveUp s) (x x' : Holder Thread) (hx : s.Has x)
    (hx' : s'.Has x') (h : ∀ y, s'.Has y → y = x' ∨ (s.Has y ∧ y ≠ x)) : Buffer gaveUp s' := by
  constructor
  · exact ⟨x', hx'⟩
  · intro hg
    have hnew (y : Holder Thread) (hy : s'.Has y) : y = x' := by
      rcases h y hy with hy | ⟨hy, hne⟩
      · exact hy
      · exact absurd (hb.alone hg y x hy hx) hne
    intro y z hy hz
    rw [hnew y hy, hnew z hz]

/-- Once a request has been given up, it is enough that somebody has the buffer. -/
theorem Buffer.of_has (x : Holder Thread) (hx : s.Has x) : Buffer true s :=
  ⟨⟨x, hx⟩, fun h => (nomatch h)⟩

/-- The connection thread releases the buffer. -/
theorem Buffer.receiverReleases (hb : Buffer gaveUp s) (hr : s.receiver.hasBuffer = true)
    (payload : List UInt8) :
    Buffer gaveUp { s with
      nextPayload := payload
      receiver := .waitingForBuffer
      receiveBufferMutex := s.receiveBufferMutex + 1 } := by
  refine hb.move .receiver (.permit s.receiveBufferMutex) hr (Nat.lt_succ_self _) fun y hy => ?_
  cases y with
  | receiver => cases hy
  | permit n =>
    rcases Nat.lt_succ_iff_lt_or_eq.mp hy with hn | rfl
    · exact .inr ⟨hn, nofun⟩
    · exact .inl rfl
  | response => exact .inr ⟨hy, nofun⟩
  | caller u => exact .inr ⟨hy, nofun⟩

/-- The response takes the buffer with it. -/
theorem Buffer.store (hb : Buffer gaveUp s) (hr : s.receiver.hasBuffer = true)
    (hresponse : s'.responseInvokeId ≠ 0) (hwaits : s'.receiver = .waitingForBuffer)
    (hmutex : s'.receiveBufferMutex = s.receiveBufferMutex) (hcallers : s'.callers = s.callers) :
    Buffer gaveUp s' := by
  refine hb.move .receiver .response hr hresponse fun y hy => ?_
  cases y with
  | receiver =>
    rw [Has, hwaits] at hy
    cases hy
  | permit n =>
    rw [Has, hmutex] at hy
    exact .inr ⟨hy, nofun⟩
  | response => exact .inl rfl
  | caller u =>
    rw [Has, hcallers] at hy
    exact .inr ⟨hy, nofun⟩

theorem Buffer.waitForBuffer (hb : Buffer gaveUp s) (hm : 0 < s.receiveBufferMutex) :
    Buffer gaveUp { s with
      receiver := .reading, receiveBufferMutex := s.receiveBufferMutex - 1 } := by
  refine hb.move (.permit (s.receiveBufferMutex - 1)) .receiver (Nat.sub_one_lt hm.ne') rfl
    fun y hy => ?_
  cases y with
  | receiver => exact .inl rfl
  | permit n =>
    right
    refine ⟨Nat.lt_of_lt_pred hy, fun h => ?_⟩
    exact absurd (Holder.permit.inj h) (Nat.ne_of_lt hy)
  | response => exact .inr ⟨hy, nofun⟩
  | caller u => exact .inr ⟨hy, nofun⟩

variable [DecidableEq Thread]

theorem Buffer.moveOn (hb : Buffer gaveUp s) (ht : s.callers t ≠ .cleared) (hc : c ≠ .cleared)
    (hcallers : s'.callers = Function.update s.callers t c) (hreceiver : s'.receiver = s.receiver)
    (hmutex : s'.receiveBufferMutex = s.receiveBufferMutex)
    (hresponse : s'.responseInvokeId = s.responseInvokeId) : Buffer gaveUp s' := by
  apply hb.same
  intro x
  cases x with
  | receiver => rw [Has, Has, hreceiver]
  | permit n => rw [Has, Has, hmutex]
  | response => rw [Has, Has, hresponse]
  | caller u =>
    rw [Has, Has, hcallers]
    by_cases hu : u = t
    · rw [hu, Function.update_self]
      exact ⟨fun h => absurd h hc, fun h => absurd h ht⟩
    · rw [Function.update_of_ne hu]

/-- The response goes to the caller that clears it. -/
theorem Buffer.clear (hb : Buffer gaveUp s) (h : gaveUp = false → s.responseInvokeId ≠ 0) :
    Buffer gaveUp { s with
      responseInvokeId := 0
      lastResponseError := none
      callers := Function.update s.callers t .cleared } := by
  cases gaveUp with
  | true => exact Buffer.of_has (.caller t) (Function.update_self t _ _)
  | false =>
    refine hb.move .response (.caller t) (h rfl) (Function.update_self t _ _) fun y hy => ?_
    cases y with
    | receiver => exact .inr ⟨hy, nofun⟩
    | permit n => exact .inr ⟨hy, nofun⟩
    | response => exact absurd rfl hy
    | caller u =>
      by_cases hu : u = t
      · exact .inl (congrArg Holder.caller hu)
      · exact .inr ⟨(Function.update_of_ne hu _ _).symm.trans hy, nofun⟩

theorem Buffer.callerReleases (hb : Buffer gaveUp s) (hc : s.callers t = .cleared) :
    Buffer gaveUp { s with
      receiveBufferMutex := s.receiveBufferMutex + 1
      callers := Function.update s.callers t .idle } := by
  refine hb.move (.caller t) (.permit s.receiveBufferMutex) hc (Nat.lt_succ_self _) fun y hy => ?_
  cases y with
  | receiver => exact .inr ⟨hy, nofun⟩
  | permit n =>
    rcases Nat.lt_succ_iff_lt_or_eq.mp hy with hn | rfl
    · exact .inr ⟨hn, nofun⟩
    · exact .inl rfl
  | response => exact .inr ⟨hy, nofun⟩
  | caller u =>
    right
    by_cases hu : u = t
    · rw [hu] at hy
      cases (Function.update_self t _ _).symm.trans hy
    · exact ⟨(Function.update_of_ne hu _ _).symm.trans hy, fun h => hu (Holder.caller.inj h)⟩

end Client

/-! ## What every step keeps -/

namespace ClientHistory

open Client

/-- What holds between the callers, the table, the response and the receive buffer. -/
structure Inv (h : ClientHistory Thread) : Prop where
  ids : Ids h.client.callers
  table : Table h.client.callers h.client.outstandingCalls
  results : ∀ t id success result, h.client.callers t = .evaluated id success result →
    Own id success result
  slot : h.client.Slot
  buffer : Buffer h.gaveUp h.client
  gaveUp : ∀ t, (h.client.callers t).givingUp = true → h.gaveUp = true
  kept : ∀ t id, (h.client.callers t).pending = some id → id ∈ h.arrived → h.client.OnItsWay id
  missed : h.missed = []

theorem Inv.start : Inv (start Thread) where
  ids := ⟨fun _ _ h => (nomatch h), fun _ _ _ h => (nomatch h)⟩
  table := by
    refine ⟨fun id hid => ⟨fun h => ?_, fun ⟨_, h⟩ => (nomatch h)⟩, fun id hid => ?_⟩
    · exact absurd (List.eq_of_mem_replicate h) hid
    · exact (List.count_replicate.trans (if_neg (by simpa using hid.symm))).le.trans (Nat.zero_le 1)
  results := fun _ _ _ _ h => (nomatch h)
  slot := .inl ⟨rfl, fun _ => rfl, .inl rfl, fun _ h => (nomatch h), fun _ h => (nomatch h)⟩
  buffer := by
    refine ⟨⟨.permit 0, Nat.zero_lt_one⟩, fun _ => ?_⟩
    have hfirst (x : Holder Thread) (hx : (Client.create Thread).Has x) : x = .permit 0 := by
      cases x with
      | receiver => cases hx
      | permit n => exact congrArg Holder.permit (Nat.lt_one_iff.mp hx)
      | response => exact absurd rfl hx
      | caller u => cases hx
    intro x y hx hy
    rw [hfirst x hx, hfirst y hy]
  gaveUp := fun _ h => (nomatch h)
  kept := fun _ _ h => (nomatch h)
  missed := rfl

variable {h : ClientHistory Thread}

/-- What an invariant state shows to its callers. -/
theorem Inv.matches (hi : Inv h) : h.Matches where
  own := hi.results
  held := fun t id ht => (hi.slot.full_of_holds t id ht).delivers
  kept := hi.kept
  missed := hi.missed
  distinct := hi.ids.distinct
  storing := by
    intro message hm
    exact .inl (hi.slot.empty_of_message message (by rw [hm]; rfl)).response
  waiting := by
    intro hw
    obtain ⟨x, hx⟩ := hi.buffer.live
    cases x with
    | receiver =>
      rw [Has, hw] at hx
      cases hx
    | permit n => exact .inl (Nat.zero_lt_of_lt hx)
    | response =>
      rcases hi.slot with he | ⟨t, id, hf⟩
      · exact absurd he.response hx
      · refine .inr (.inl ⟨hx, t, ?_⟩)
        rw [hf.response]
        exact hf.consumer
    | caller t => exact .inr (.inr ⟨t, hx⟩)

/-- The connection thread can only have the buffer while there is no response. -/
theorem Inv.empty_of_reading (hi : Inv h) (hr : h.client.receiver = .reading)
    (hg : h.gaveUp = true → h.client.responseInvokeId = 0) : h.client.Empty := by
  apply hi.slot.empty hi.ids
  cases hgave : h.gaveUp with
  | true => exact hg hgave
  | false =>
    by_contra hne
    have hx : h.client.Has .receiver := by rw [Has, hr]; rfl
    cases hi.buffer.alone hgave .receiver .response hx hne

theorem Inv.receive (hi : Inv h) {payload : List UInt8} {message : Indication}
    (hr : h.client.receiver = .reading) (hm : indication payload = .ok message)
    (hg : h.gaveUp = true → h.client.responseInvokeId = 0)
    (hmessage : message ≠ .ignored ∧ message.invokeId ≠ some 0) :
    Inv { h with client := h.client.receive payload message, arrived := h.arrives message } := by
  have he := hi.empty_of_reading hr hg
  have hreceive := he.receive hm hmessage.2
  have hbuffer : h.client.receiver.hasBuffer = true := by rw [hr]; rfl
  have hway {id : UInt32} (hid : h.client.OnItsWay id) : h.client.responseInvokeId = id := by
    rcases hid with ⟨m, hm, _⟩ | hid
    · rw [hr] at hm
      cases hm
    · exact hid
  have hanswer (i : UInt32) (hid : message.invokeId = some i)
      (hclient : h.client.receive payload message =
        { h.client with nextPayload := payload, receiver := .checking message })
      (harrives : h.arrives message = i :: h.arrived) :
      Inv { h with client := h.client.receive payload message, arrived := h.arrives message } := by
    rw [hclient] at hreceive ⊢
    rw [harrives]
    refine ⟨hi.ids, hi.table, hi.results, .inl hreceive, hi.buffer.same fun x => ?_, hi.gaveUp,
      fun t id ht hid' => ?_, hi.missed⟩
    · cases x with
      | receiver =>
        rw [Has, Has, hbuffer]
        rfl
      | permit n => exact Iff.rfl
      | response => exact Iff.rfl
      | caller u => exact Iff.rfl
    · rcases List.mem_cons.mp hid' with rfl | hid'
      · exact .inl ⟨message, rfl, hid⟩
      · exact .inr (hway (hi.kept t id ht hid'))
  cases message with
  | response i => exact hanswer i rfl rfl rfl
  | error i e => exact hanswer i rfl rfl rfl
  | released =>
    exact ⟨hi.ids, hi.table, hi.results, .inl hreceive, hi.buffer.receiverReleases hbuffer payload,
      hi.gaveUp, fun t id ht hid => .inr (hway (hi.kept t id ht hid)), hi.missed⟩
  | ignored => exact absurd rfl hmessage.1

theorem Inv.checkForOutstandingCall (hi : Inv h) {message : Indication} {id : UInt32}
    (hr : h.client.receiver = .checking message) (hid : message.invokeId = some id)
    (hg : ∀ u, message.invokeId = (h.client.callers u).invokeId →
      (h.client.callers u).givingUp = false) :
    Inv { h with client := h.client.checkForOutstandingCall message id } := by
  have he := hi.slot.empty_of_message message (by rw [hr]; rfl)
  have hcheck := he.check hi.table hr hid hg
  have hbuffer : h.client.receiver.hasBuffer = true := by rw [hr]; rfl
  rw [Client.checkForOutstandingCall] at hcheck ⊢
  by_cases hmem : id ∈ h.client.outstandingCalls
  · rw [if_pos hmem] at hcheck ⊢
    refine ⟨hi.ids, hi.table, hi.results, .inl hcheck, hi.buffer.same fun x => ?_, hi.gaveUp,
      fun t i ht hi' => ?_, hi.missed⟩
    · cases x with
      | receiver =>
        rw [Has, Has, hbuffer]
        rfl
      | permit n => exact Iff.rfl
      | response => exact Iff.rfl
      | caller u => exact Iff.rfl
    · rcases hi.kept t i ht hi' with ⟨m, hm, hmi⟩ | hway
      · rw [hr] at hm
        exact .inl ⟨m, hm, hmi⟩
      · exact .inr hway
  · rw [if_neg hmem] at hcheck ⊢
    refine ⟨hi.ids, hi.table, hi.results, .inl hcheck,
      hi.buffer.receiverReleases hbuffer h.client.nextPayload, hi.gaveUp,
      fun t i ht hi' => ?_, hi.missed⟩
    -- an answer that nobody has asked for is not the one a caller waits for
    rcases hi.kept t i ht hi' with ⟨m, hm, hmi⟩ | hway
    · rw [hr] at hm
      obtain rfl := Option.some.inj hm
      obtain rfl := Option.some.inj (hid.symm.trans hmi)
      have hlisted := Caller.pending_listed ht
      have hnonzero := hi.ids.nonzero t id (Caller.listed_invokeId hlisted)
      exact absurd ((hi.table.listed id hnonzero).mpr ⟨t, hlisted⟩) hmem
    · exact .inr hway

theorem Inv.storeResponse (hi : Inv h) {message : Indication}
    (hr : h.client.receiver = .storing message)
    (hg : ∀ u, (h.client.callers u).givingUp = false) :
    Inv { h with client := h.client.storeResponse message } := by
  have he := hi.slot.empty_of_message message (by rw [hr]; rfl)
  obtain ⟨t, id, hid, hfull⟩ := he.store hr hg
  have hbuffer : h.client.receiver.hasBuffer = true := by rw [hr]; rfl
  have hnonzero : id ≠ 0 := by
    obtain ⟨_, i, hi', hmi⟩ := he.message message (by rw [hr]; rfl)
    rwa [Option.some.inj (hid.symm.trans hmi)]
  have hkept (u : Thread) (i : UInt32) (hu : (h.client.callers u).pending = some i)
      (harrived : i ∈ h.arrived) : i = id := by
    rcases hi.kept u i hu harrived with ⟨m, hm, hmi⟩ | hway
    · rw [hr] at hm
      obtain rfl := Option.some.inj hm
      exact Option.some.inj (hmi.symm.trans hid)
    · have hinv := Caller.listed_invokeId (Caller.pending_listed hu)
      exact absurd (hway.symm.trans he.response) (hi.ids.nonzero u i hinv)
  have hstored (hresponse : (h.client.storeResponse message).responseInvokeId = id)
      (hcallers : (h.client.storeResponse message).callers = h.client.callers)
      (hcalls : (h.client.storeResponse message).outstandingCalls = h.client.outstandingCalls)
      (hwaits : (h.client.storeResponse message).receiver = .waitingForBuffer)
      (hmutex : (h.client.storeResponse message).receiveBufferMutex =
        h.client.receiveBufferMutex) :
      Inv { h with client := h.client.storeResponse message } := by
    refine ⟨?_, ?_, ?_, .inr ⟨t, id, hfull⟩,
      hi.buffer.store hbuffer (hresponse ▸ hnonzero) hwaits hmutex hcallers, ?_,
      fun u i hu harrived => ?_, hi.missed⟩
    · rw [hcallers]
      exact hi.ids
    · rw [hcallers, hcalls]
      exact hi.table
    · rw [hcallers]
      exact hi.results
    · rw [hcallers]
      exact hi.gaveUp
    · rw [hcallers] at hu
      exact .inr (hresponse.trans (hkept u i hu harrived).symm)
  cases message with
  | response i => exact hstored (Option.some.inj hid) rfl rfl rfl rfl
  | error i e => exact hstored (Option.some.inj hid) rfl rfl rfl rfl
  | released => cases hid
  | ignored => cases hid

/-- The connection thread goes on without a message. -/
theorem Inv.turn (hi : Inv h) {receiver : Receiver} {mutex : Nat}
    (hold : h.client.receiver.message = none) (hnew : receiver.message = none)
    (hb : Buffer h.gaveUp { h.client with receiver := receiver, receiveBufferMutex := mutex }) :
    Inv { h with client := { h.client with receiver := receiver, receiveBufferMutex := mutex } } :=
    by
  refine ⟨hi.ids, hi.table, hi.results, hi.slot.turn hnew mutex, hb, hi.gaveUp,
    fun t id ht hid => ?_, hi.missed⟩
  rcases hi.kept t id ht hid with ⟨m, hm, _⟩ | hway
  · rw [hold] at hm
    cases hm
  · exact .inr hway

end ClientHistory

/-! ## The callers -/

namespace ClientHistory

open Client

variable [DecidableEq Thread] {h : ClientHistory Thread} {t : Thread} {c : Caller} {id : UInt32}

theorem onItsWay_update {callers : Thread → Caller} {arrived arrived' : List UInt32}
    (way : UInt32 → Prop)
    (hk : ∀ u id, (callers u).pending = some id → id ∈ arrived → way id)
    (hsub : ∀ id ∈ arrived', id ∈ arrived)
    (hc : ∀ id, c.pending = some id → id ∈ arrived' → (callers t).pending = some id) (u : Thread)
    (id : UInt32) (hu : (Function.update callers t c u).pending = some id) (hid : id ∈ arrived') :
    way id := by
  by_cases hut : u = t
  · rw [hut, Function.update_self] at hu
    exact hk t id (hc id hu hid) (hsub id hid)
  · rw [Function.update_of_ne hut] at hu
    exact hk u id hu (hsub id hid)

theorem results_update {callers : Thread → Caller}
    (hr : ∀ t id success result, callers t = .evaluated id success result → Own id success result)
    (hc : ∀ id success result, c = .evaluated id success result → Own id success result)
    (u : Thread) (id : UInt32) (success : Bool) (result : Result)
    (hu : Function.update callers t c u = .evaluated id success result) :
    Own id success result := by
  by_cases hut : u = t
  · rw [hut, Function.update_self] at hu
    exact hc id success result hu
  · rw [Function.update_of_ne hut] at hu
    exact hr u id success result hu

/-- A caller moves on, without taking a response or giving up. -/
theorem Inv.moveOn (hi : Inv h) {lastInvokeId : UInt32} {calls arrived : List UInt32}
    (hids : Ids (Function.update h.client.callers t c))
    (htable : Table (Function.update h.client.callers t c) calls)
    (hresult : ∀ id success result, c = .evaluated id success result → Own id success result)
    (hh : c.holds = (h.client.callers t).holds)
    (hg : c.givingUp = (h.client.callers t).givingUp)
    (hp : c.pending = (h.client.callers t).pending ∨ (h.client.callers t).pending = none)
    (ht : h.client.callers t ≠ .cleared) (hc : c ≠ .cleared)
    (hsub : ∀ id ∈ arrived, id ∈ h.arrived)
    (hnew : ∀ id, c.pending = some id → id ∈ arrived →
      (h.client.callers t).pending = some id) :
    Inv { h with
      client := { h.client with
        lastInvokeId := lastInvokeId
        outstandingCalls := calls
        callers := Function.update h.client.callers t c }
      arrived := arrived } where
  ids := hids
  table := htable
  results := results_update hi.results hresult
  slot := by
    rcases hi.slot.moveOn hh hg hp with he | ⟨u, id, hf⟩
    · exact .inl ⟨he.response, he.holds, he.error, he.message, he.storing⟩
    · exact .inr ⟨u, id, hf.response, hf.consumer, hf.others, hf.givingUp, hf.delivers,
        hf.message⟩
  buffer := hi.buffer.moveOn ht hc rfl rfl rfl rfl
  gaveUp := fun u hu => hi.gaveUp u ((view_update Caller.givingUp hg u).symm.trans hu)
  kept := onItsWay_update h.client.OnItsWay hi.kept hsub hnew
  missed := hi.missed

theorem Inv.takeResponse (hi : Inv h) (hc : h.client.callers t = .waiting id)
    (hid : h.client.responseInvokeId = id) :
    Inv { h with client := { h.client with
      callers := Function.update h.client.callers t (.leaving id true) } } where
  ids := hi.ids.same (by rw [hc]; rfl)
  table := hi.table.same (by rw [hc]; rfl)
  results := results_update hi.results fun _ _ _ h => (nomatch h)
  slot := hi.slot.takeResponse hi.ids hc hid
  buffer := hi.buffer.moveOn (t := t) (c := .leaving id true) (by rw [hc]; nofun) nofun
    rfl rfl rfl rfl
  gaveUp := fun u hu =>
    hi.gaveUp u ((view_update Caller.givingUp (by rw [hc]; rfl) u).symm.trans hu)
  kept := onItsWay_update h.client.OnItsWay hi.kept (fun _ h => h) fun _ h => (nomatch h)
  missed := hi.missed

/-- A caller gives up while neither its own answer nor any response is there. -/
theorem Inv.giveUp (hi : Inv h) (hc : h.client.callers t = .waiting id)
    (hresponse : h.client.responseInvokeId = 0)
    (hm : ∀ message, h.client.receiver.message = some message →
      message.invokeId ≠ (h.client.callers t).invokeId) {error : Option ResponseError}
    (herror : error = some .timeout ∨ error = h.client.lastResponseError) :
    Inv (h.giveUp t { h.client with
      lastResponseError := error
      callers := Function.update h.client.callers t (.leaving id false) }) where
  ids := hi.ids.same (by rw [hc]; rfl)
  table := hi.table.same (by rw [hc]; rfl)
  results := results_update hi.results fun _ _ _ h => (nomatch h)
  slot := .inl ((hi.slot.empty hi.ids hresponse).giveUp hc hm error herror)
  buffer := by
    have hb : Buffer h.gaveUp { h.client with
        lastResponseError := error
        callers := Function.update h.client.callers t (.leaving id false) } :=
      hi.buffer.moveOn (t := t) (c := .leaving id false) (by rw [hc]; nofun) nofun rfl rfl rfl rfl
    obtain ⟨x, hx⟩ := hb.live
    exact Buffer.of_has x hx
  gaveUp := fun _ _ => rfl
  kept := onItsWay_update h.client.OnItsWay hi.kept (fun _ h => h) fun _ h => (nomatch h)
  missed := by
    have hown : (h.client.callers t).pending = some id := by rw [hc]; rfl
    have hinv := Caller.listed_invokeId (Caller.pending_listed hown)
    change h.missed ++ _ = []
    rw [hi.missed, List.nil_append, List.filter_eq_nil_iff]
    intro i hi' heq
    obtain rfl : id = i := Option.some.inj (hinv.symm.trans (of_decide_eq_true heq))
    rcases hi.kept t id hown hi' with ⟨m, hr, hmi⟩ | hway
    · exact hm m hr (hmi.trans hinv.symm)
    · exact hi.ids.nonzero t id hinv (hway.symm.trans hresponse)

theorem Inv.clearResponse (hi : Inv h) {success : Bool} {result : Result}
    (hc : h.client.callers t = .evaluated id success result) :
    Inv { h with client := { h.client with
      responseInvokeId := 0
      lastResponseError := none
      callers := Function.update h.client.callers t .cleared } } where
  ids := hi.ids.leave rfl
  table := hi.table.same (by rw [hc]; rfl)
  results := results_update hi.results fun _ _ _ h => (nomatch h)
  slot := .inl (hi.slot.clear hc)
  buffer := by
    refine hi.buffer.clear fun hg => ?_
    cases success with
    | false =>
      have := hi.gaveUp t (by rw [hc]; rfl)
      rw [hg] at this
      cases this
    | true =>
      have hf := hi.slot.full_of_holds t id (by rw [hc]; rfl)
      rw [hf.response]
      exact hf.nonzero hi.ids
  gaveUp := fun u hu => by
    by_cases hut : u = t
    · rw [hut] at hu
      cases (view_update_self Caller.givingUp).symm.trans hu
    · exact hi.gaveUp u ((view_update_of_ne Caller.givingUp hut).symm.trans hu)
  kept := fun u i hu hi' => by
    obtain ⟨hut, hu⟩ := view_update_none Caller.pending rfl hu
    have hinv := Caller.listed_invokeId (Caller.pending_listed hu)
    rcases hi.kept u i hu hi' with hway | hway
    · exact .inl hway
    · have hnonzero : h.client.responseInvokeId ≠ 0 := by
        rw [hway]
        exact hi.ids.nonzero u i hinv
      -- the response that is cleared is the one of the caller that clears it
      cases success with
      | false =>
        have he := hi.slot.empty_of_givingUp (t := t) (by rw [hc]; rfl)
        exact absurd he.response hnonzero
      | true =>
        have hf := hi.slot.full_of_holds t id (by rw [hc]; rfl)
        obtain rfl : id = i := hf.response.symm.trans hway
        exact absurd (hi.ids.distinct u t id hinv hf.invokeId) hut
  missed := hi.missed

theorem Inv.releaseReceiveBuffer (hi : Inv h) (hc : h.client.callers t = .cleared) :
    Inv { h with client := { h.client with
      receiveBufferMutex := h.client.receiveBufferMutex + 1
      callers := Function.update h.client.callers t .idle } } where
  ids := hi.ids.same (by rw [hc]; rfl)
  table := hi.table.same (by rw [hc]; rfl)
  results := results_update hi.results fun _ _ _ h => (nomatch h)
  slot := by
    rcases hi.slot.moveOn (t := t) (c := .idle) (by rw [hc]; rfl) (by rw [hc]; rfl)
      (.inl (by rw [hc]; rfl)) with he | ⟨u, id, hf⟩
    · exact .inl ⟨he.response, he.holds, he.error, he.message, he.storing⟩
    · exact .inr ⟨u, id, hf.response, hf.consumer, hf.others, hf.givingUp, hf.delivers,
        hf.message⟩
  buffer := hi.buffer.callerReleases hc
  gaveUp := fun u hu =>
    hi.gaveUp u ((view_update Caller.givingUp (by rw [hc]; rfl) u).symm.trans hu)
  kept := onItsWay_update h.client.OnItsWay hi.kept (fun _ h => h) fun _ h => (nomatch h)
  missed := hi.missed

/-! ## Runs -/

variable {h' : ClientHistory Thread} {e : Event Thread}

/-- What an undisturbed step keeps. -/
theorem Inv.step (hi : Inv h) (hg : h.Undisturbed e) (hs : h.Step e h') : Inv h' := by
  obtain ⟨client, hclient, rfl⟩ := Option.map_eq_some_iff.mp hs
  cases e with
  | getNextInvokeId t =>
    obtain ⟨hc, rfl⟩ := step_getNextInvokeId hclient
    exact hi.moveOn (hi.ids.enter hg.1 hg.2) (hi.table.same (by rw [hc]; rfl))
      (fun _ _ _ h => (nomatch h)) (by rw [hc]; rfl) (by rw [hc]; rfl) (.inl (by rw [hc]; rfl))
      (by rw [hc]; nofun) nofun (fun _ => id) fun _ h => (nomatch h)
  | addToOutstandingCalls t =>
    obtain ⟨id, hc, rfl⟩ := step_addToOutstandingCalls hclient
    refine hi.moveOn (hi.ids.same (by rw [hc]; rfl)) (hi.table.add hi.ids hc hg)
      (fun _ _ _ h => (nomatch h)) (by rw [hc]; rfl) (by rw [hc]; rfl) (.inr (by rw [hc]; rfl))
      (by rw [hc]; nofun) nofun (fun _ h => (List.mem_filter.mp h).1) fun i hp harrived => ?_
    -- what has come before the call was added is not its answer
    refine absurd (of_decide_eq_true (List.mem_filter.mp harrived).2) (not_not_intro ?_)
    rw [hc]
    exact hp
  | sendMessage t =>
    obtain ⟨id, hc, rfl⟩ := step_sendMessage hclient
    exact hi.moveOn (hi.ids.same (by rw [hc]; rfl)) (hi.table.same (by rw [hc]; rfl))
      (fun _ _ _ h => (nomatch h)) (by rw [hc]; rfl) (by rw [hc]; rfl) (.inl (by rw [hc]; rfl))
      (by rw [hc]; nofun) nofun (fun _ h => h) fun i hp _ => by rw [hc]; exact hp
  | takeResponse t =>
    obtain ⟨id, hc, hid, rfl⟩ := step_takeResponse hclient
    exact hi.takeResponse hc hid
  | timeout t =>
    obtain ⟨id, hc, rfl⟩ := step_timeout hclient
    exact hi.giveUp hc hg.1 hg.2 (.inl rfl)
  | connectionLost t =>
    obtain ⟨id, hc, rfl⟩ := step_connectionLost hclient
    exact hi.giveUp hc hg.1 hg.2 (.inr rfl)
  | removeFromOutstandingCalls t =>
    obtain ⟨id, success, hc, rfl⟩ := step_removeFromOutstandingCalls hclient
    exact hi.moveOn (hi.ids.same (by rw [hc]; rfl)) (hi.table.remove hi.ids success hc)
      (fun _ _ _ h => (nomatch h)) (by rw [hc]; cases success <;> rfl)
      (by rw [hc]; cases success <;> rfl) (.inl (by rw [hc]; rfl))
      (by rw [hc]; nofun) nofun (fun _ h => h) fun _ h => (nomatch h)
  | evaluate t =>
    obtain ⟨id, success, hc, rfl⟩ := step_evaluate hclient
    refine hi.moveOn (hi.ids.same (by rw [hc]; rfl)) (hi.table.same (by rw [hc]; rfl))
      (fun i b r h => ?_) (by rw [hc]; cases success <;> rfl)
      (by rw [hc]; cases success <;> rfl) (.inl (by rw [hc]; rfl))
      (by rw [hc]; nofun) nofun (fun _ h => h) fun _ h => (nomatch h)
    obtain ⟨rfl, rfl, rfl⟩ := Caller.evaluated.inj h
    exact hi.slot.own hc
  | clearResponse t =>
    obtain ⟨id, success, result, hc, rfl⟩ := step_clearResponse hclient
    exact hi.clearResponse hc
  | releaseReceiveBuffer t =>
    obtain ⟨hc, rfl⟩ := step_releaseReceiveBuffer hclient
    exact hi.releaseReceiveBuffer hc
  | receive payload =>
    obtain ⟨message, hr, hm, rfl⟩ := step_receive hclient
    rw [after, hm]
    exact hi.receive hr hm hg.1 (hg.2 message hm)
  | checkForOutstandingCall =>
    obtain ⟨message, id, hr, hid, rfl⟩ := step_checkForOutstandingCall hclient
    exact hi.checkForOutstandingCall hr hid fun u => hg u message (by rw [hr]; rfl)
  | storeResponse =>
    obtain ⟨message, hr, _, rfl⟩ := step_storeResponse hclient
    exact hi.storeResponse hr hg
  | waitForBuffer =>
    obtain ⟨hr, hm, rfl⟩ := step_waitForBuffer hclient
    exact hi.turn (by rw [hr]; rfl) rfl (hi.buffer.waitForBuffer hm)
  | close =>
    obtain ⟨hr, rfl⟩ := step_close hclient
    refine hi.turn (by rw [hr]; rfl) rfl (hi.buffer.same fun x => ?_)
    cases x with
    | receiver =>
      rw [Has, Has, hr]
      exact Iff.rfl
    | permit n => exact Iff.rfl
    | response => exact Iff.rfl
    | caller u => exact Iff.rfl

/-- In undisturbed runs of any number of threads every answer finds its caller. -/
theorem run_matches {events : List (Event Thread)}
    (hr : Transition.Run Step Undisturbed (start Thread) events h) : h.Matches :=
  (hr.invariant Inv.start fun _ _ _ hi hg hs => hi.step hg hs).matches

/-- A request that has been sent, and its answer. -/
theorem run_matches_answered : ∃ h : ClientHistory Bool,
    h.client.callers false = .waiting 1 ∧ h.client.receiver = .checking (.response 1) ∧
      h.arrived = [1] ∧ h.Matches := by
  have hpayload : indication [0xa1, 3, 2, 1, 1] = .ok (.response 1) := by decide +kernel
  have hstart : Transition.Run Step Undisturbed (start Bool) [] (start Bool) := .nil
  have hstarting := hstart.snoc (i := Event.getNextInvokeId false) ⟨by decide, fun _ => nofun⟩ rfl
  have hadded := hstarting.snoc (i := Event.addToOutstandingCalls false) List.mem_cons_self rfl
  have hsent := hadded.snoc (i := Event.sendMessage false) trivial rfl
  have hreading := hsent.snoc (i := Event.waitForBuffer) trivial rfl
  have hanswered := hreading.snoc (i := Event.receive [0xa1, 3, 2, 1, 1])
    ⟨nofun, fun message hm => by
      rw [hpayload] at hm
      cases hm
      decide⟩ rfl
  exact ⟨_, rfl, rfl, rfl, run_matches hanswered⟩

/-- Two requests, and the answer of the server to the second one. -/
def secondAnswer : List (Event Bool) :=
  [.getNextInvokeId false, .addToOutstandingCalls false, .sendMessage false,
    .getNextInvokeId true, .addToOutstandingCalls true, .sendMessage true,
    .waitForBuffer, .receive [0xa1, 3, 2, 1, 2], .checkForOutstandingCall, .storeResponse]

/-- The first caller gives up and clears the answer to the second one. -/
def clearedAnswer : List (Event Bool) :=
  secondAnswer ++ [.timeout false, .removeFromOutstandingCalls false, .evaluate false,
    .clearResponse false]

def runEvents (h : ClientHistory Thread) : List (Event Thread) → Option (ClientHistory Thread)
  | [] => some h
  | e :: es => (h.step e).bind fun h' => runEvents h' es

theorem run_of_runEvents {P : ClientHistory Thread → Event Thread → Prop} (es : List (Event Thread))
    (hP : ∀ h e, P h e) (hr : runEvents h es = some h') : Transition.Run Step P h es h' := by
  induction es generalizing h with
  | nil =>
    cases hr
    exact .nil
  | cons e es ih =>
    obtain ⟨g, hg, hr⟩ := Option.bind_eq_some_iff.mp hr
    exact Transition.Run.append (.snoc .nil (hP h e) hg) (ih hr)

theorem not_matches_clearedAnswer : ¬ ∀ (events : List (Event Bool)) (h : ClientHistory Bool),
    Transition.Run Step (fun _ _ => True) (start Bool) events h → h.Matches := by
  intro hall
  have hrun : (runEvents (start Bool) clearedAnswer).map (fun h => (h.client.callers true,
      h.arrived, h.client.receiver, h.client.responseInvokeId)) =
        some (.waiting 2, [2], .waitingForBuffer, 0) := by decide +kernel
  obtain ⟨h, hr, heq⟩ := Option.map_eq_some_iff.mp hrun
  obtain ⟨hcaller, heq⟩ := Prod.mk.inj heq
  obtain ⟨harrived, heq⟩ := Prod.mk.inj heq
  obtain ⟨hreceiver, hresponse⟩ := Prod.mk.inj heq
  have hkept := (hall clearedAnswer h (run_of_runEvents _ (fun _ _ => trivial) hr)).kept true 2
    (by rw [hcaller]; rfl) (by rw [harrived]; exact List.mem_singleton_self 2)
  rcases hkept with ⟨m, hm, _⟩ | hway
  · rw [hreceiver] at hm
    cases hm
  · rw [hresponse] at hway
    cases hway

end ClientHistory

end Iec61850.MmsConnection
