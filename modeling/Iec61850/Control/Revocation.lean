import Iec61850.Control.Resting

/-! Operations that wait for their time and are revoked before it, by a `Cancel` of their client
or by its end, are not performed, as long as a `Cancel` clears them and nobody takes over the
object before they are gone. -/

namespace Iec61850.Control

open Machine

/-- The control object with what is known of its time activated operations: whether the one that
waits is revoked, the one about to be started, and the one of each thread. -/
structure Revocations where
  server : Server
  waiting : Bool
  starting : Bool
  workers : List Bool
  performed : Bool

namespace Worker

def isOperate : Worker → Bool
  | .operate _ _ => true
  | _ => false

end Worker

namespace Revocations

def start (object : ControlObject) : Revocations := ⟨.create object, false, false, [], false⟩

/-- An operation is accepted that waits for its time. -/
def Activated (h : Revocations) (server : Server) : Prop :=
  h.server.object.state ≠ .waitForActivationTime ∧ server.object.state = .waitForActivationTime

/-- The connection that owns the object cancels, and is told that it has done so. -/
def OwnerCancelled (h : Revocations) (w : ControlWrite) : Prop :=
  h.server.object.clientConnection = some w.connection ∧
    (h.server.object.writeCancel w).indication = .success

instance (h : Revocations) (server : Server) : Decidable (h.Activated server) :=
  inferInstanceAs (Decidable (_ ∧ _))

instance (h : Revocations) (w : ControlWrite) : Decidable (h.OwnerCancelled w) :=
  inferInstanceAs (Decidable (_ ∧ _))

/-- The operation of a thread goes with the thread. -/
def afterWork (h : Revocations) (index : Nat) (server : Server) : Revocations where
  server := server
  waiting := h.waiting
  starting := h.starting
  workers :=
    if server.workers.length = h.server.workers.length then h.workers else h.workers.eraseIdx index
  performed := h.performed ||
    (h.workers[index]?.getD false && (h.server.workers[index]?.any Worker.isOperate))

def after (h : Revocations) (e : Event) (server : Server) : Revocations :=
  match e with
  | .writeOper _ _ _ _ =>
    { h with
      server
      waiting := h.waiting && !decide (h.Activated server)
      workers := if server.workers.length = h.server.workers.length then h.workers
        else h.workers ++ [false] }
  | .writeCancel w =>
    if h.OwnerCancelled w then
      if h.server.object.timeActivatedOperate then { h with server, waiting := true }
      else { h with server, starting := true }
    else { h with server }
  | .processControlActions _ =>
    if server.starting = h.server.starting then { h with server }
    else { h with server, waiting := false, starting := h.waiting }
  | .startActivated _ =>
    if server.workers.length = h.server.workers.length then { h with server }
    else { h with server, starting := false, workers := h.workers ++ [h.starting] }
  | .work index _ _ => h.afterWork index server
  | .connectionClosed connection =>
    if h.server.object.clientConnection = some connection then
      { h with server, waiting := true, starting := true }
    else { h with server }
  | _ => { h with server }

def Step (h : Revocations) (e : Event) (h' : Revocations) : Prop :=
  ∃ server, h.server.Step e server ∧ h' = h.after e server

end Revocations

namespace Server

/-- The last client of the object is gone. -/
def Abandoned (s : Server) : Prop :=
  ∃ connection ∈ s.closed, s.object.clientConnection = some connection

/-- An operation waits for its time, or is about to be started, or has a thread that has not
begun. -/
def Pending (s : Server) : Prop :=
  s.object.timeActivatedOperate = true ∨ s.starting = true ∨ .start ∈ s.workers

/-- A client only cancels what does not wait for its time if the object is one that is selected
before, and only asks for an object whose last client is gone when nothing of it is pending. -/
def Orderly (s : Server) : Event → Prop
  | .readSBO _ _ _ | .writeSBOw _ _ _ | .writeOper _ _ _ _ => s.Abandoned → ¬ s.Pending
  | .writeCancel w =>
    s.object.isSelectBeforeOperate = true → s.OwnerCancels w →
      s.object.timeActivatedOperate = false ∧ s.starting = false
  | _ => True

end Server

/-! ## What a step does to the operations -/

namespace ControlObject

variable {self : ControlObject} {w : ControlWrite} {currentTime : UInt64} {result : CheckResult}

theorem readSBO_timeActivated (self : ControlObject) (connection : Connection)
    (currentTime : UInt64) (result : CheckResult) :
    (self.readSBO connection currentTime result).1.timeActivatedOperate =
      self.timeActivatedOperate := by
  rw [readSBO]
  split
  · dsimp only
    split
    · exact self.checkSelectTimeout_timeActivated currentTime
    · exact self.checkSelectTimeout_timeActivated currentTime
  · rfl

theorem writeSBOw_timeActivated {r : Handled} (h : self.writeSBOw w currentTime result = .ok r) :
    r.object.timeActivatedOperate = self.timeActivatedOperate ∧ r.startsThread = false := by
  have hcheck := self.checkSelectTimeout_timeActivated currentTime
  unfold writeSBOw at h
  split at h
  · cases h
    exact ⟨rfl, rfl⟩
  split at h
  · cases h
    exact ⟨rfl, rfl⟩
  · split at h
    · cases h
      exact ⟨rfl, rfl⟩
    dsimp only at h
    split at h
    · cases h
      exact ⟨hcheck, rfl⟩
    · split at h
      · cases h
        exact ⟨hcheck, rfl⟩
      · cases h
        exact ⟨hcheck, rfl⟩
  · cases h

theorem setOperateTime_timeActivated (self : ControlObject) (w : ControlWrite)
    (check : MmsValue) :
    (self.setOperateTime w check).timeActivatedOperate = self.timeActivatedOperate ∨
      (self.setOperateTime w check).state = .waitForActivationTime := by
  rw [setOperateTime]
  split
  · exact .inl rfl
  · dsimp only
    split
    · exact .inr rfl
    · exact .inl rfl

/-- Whoever waits for its time has done so before, or has just begun to. -/
theorem acceptOper_timeActivated (self : ControlObject) (w : ControlWrite)
    (parameters : ControlParameters) (check : MmsValue) (currentTime : UInt64)
    (result : CheckResult) (invokeId : UInt32) (observations : List Observation)
    (h : (self.acceptOper w parameters check currentTime result invokeId
      observations).object.timeActivatedOperate = true) :
    self.timeActivatedOperate = true ∨
      (self.acceptOper w parameters check currentTime result invokeId observations).object.state =
        .waitForActivationTime := by
  have hset := setOperateTime_timeActivated { self with parameters := some parameters } w check
  rw [acceptOper] at h ⊢
  dsimp only at h ⊢
  split at h
  · rename_i htime
    rw [if_pos htime]
    rcases hset with hsame | hwait
    · exact .inl (hsame.symm.trans htime)
    · split <;> exact .inr hwait
  · rename_i htime
    refine absurd ?_ htime
    rw [performTest] at h
    dsimp only at h
    split at h <;> exact h

theorem writeOper_timeActivated {invokeId : UInt32} {r : Handled}
    (h : self.writeOper w currentTime result invokeId = .ok r)
    (ht : r.object.timeActivatedOperate = true) :
    self.timeActivatedOperate = true ∨
      (self.state ≠ .waitForActivationTime ∧ r.object.state = .waitForActivationTime) := by
  have hcheck := self.checkSelectTimeout_timeActivated currentTime
  unfold writeOper at h
  split at h
  · split at h
    · cases h
      exact .inl ht
    dsimp only at h
    split at h
    · cases h
      exact .inl (hcheck.symm.trans ht)
    · cases h
      exact .inl (hcheck.symm.trans ht)
    · rename_i hready
      have hnot : self.state ≠ .waitForActivationTime := by
        intro hwait
        rcases self.checkSelectTimeout_state currentTime with hs | hs
        · cases (hready.symm.trans hs).trans hwait
        · cases hready.symm.trans hs
      have haccept {object : ControlObject} {p : ControlParameters} {check : MmsValue}
          {observations : List Observation}
          (hr : r = object.acceptOper w p check currentTime result invokeId observations)
          (hobject : object.timeActivatedOperate = self.timeActivatedOperate) :
          self.timeActivatedOperate = true ∨
            (self.state ≠ .waitForActivationTime ∧ r.object.state = .waitForActivationTime) := by
        subst hr
        rcases acceptOper_timeActivated object w p check currentTime result invokeId observations
          ht with hflag | hwait
        · exact .inl (hobject.symm.trans hflag)
        · exact .inr ⟨hnot, hwait⟩
      split at h
      · split at h
        · cases h
          exact .inl (hcheck.symm.trans ht)
        · split at h
          · split at h
            · cases h
            · split at h
              · exact haccept (Except.ok.inj h).symm hcheck
              · cases h
                exact .inl (hcheck.symm.trans ht)
          · exact haccept (Except.ok.inj h).symm hcheck
      · exact haccept (Except.ok.inj h).symm hcheck
    · cases h
      exact .inl (hcheck.symm.trans ht)
  · cases h
    exact .inl ht

theorem cancelTimeActivated_cleared (self : ControlObject) (indication : MmsDataAccessError)
    (lastApplError : Option LastApplError) :
    (self.cancelTimeActivated indication lastApplError).object.timeActivatedOperate = false := by
  rw [cancelTimeActivated]
  split
  · rfl
  · rename_i h
    exact Bool.eq_false_of_not_eq_true h

theorem cancelTimeActivated_frame (self : ControlObject) (indication : MmsDataAccessError)
    (lastApplError : Option LastApplError) :
    (self.cancelTimeActivated indication lastApplError).object.clientConnection =
        self.clientConnection ∧
      (self.cancelTimeActivated indication lastApplError).startsThread = false := by
  rw [cancelTimeActivated]
  split <;> exact ⟨rfl, rfl⟩

theorem cancelTimeActivated_success {indication : MmsDataAccessError}
    {lastApplError : Option LastApplError} (hne : indication ≠ .success)
    (h : (self.cancelTimeActivated indication lastApplError).indication = .success) :
    self.timeActivatedOperate = true := by
  rw [cancelTimeActivated] at h
  split at h
  · assumption
  · exact absurd h hne

/-- `Cancel` keeps the client, and clears what waits for its time unless the object is one that
is selected before and the client the one that has done so. -/
theorem writeCancel_cases (self : ControlObject) (w : ControlWrite) :
    (self.writeCancel w).object.clientConnection = self.clientConnection ∧
      (self.writeCancel w).startsThread = false ∧
      ((self.writeCancel w).object.timeActivatedOperate = true →
        self.timeActivatedOperate = true) ∧
      ((self.writeCancel w).indication = .success →
        (self.isSelectBeforeOperate = true ∧ self.state ≠ .unselected ∧
          self.clientConnection = some w.connection ∧
          (getCancelParameterCtlNum w.value).isSome ∧ (getCancelParameterOrigin w.value).isSome) ∨
        (self.timeActivatedOperate = true ∧
          (self.writeCancel w).object.timeActivatedOperate = false)) := by
  unfold writeCancel
  split
  · rename_i hnum horigin
    have hgiveUp (indication : MmsDataAccessError) (hne : indication ≠ .success)
        (lastApplError : Option LastApplError) :
        (self.cancelTimeActivated indication lastApplError).object.clientConnection =
          self.clientConnection ∧
        (self.cancelTimeActivated indication lastApplError).startsThread = false ∧
        ((self.cancelTimeActivated indication lastApplError).object.timeActivatedOperate = true →
          self.timeActivatedOperate = true) ∧
        ((self.cancelTimeActivated indication lastApplError).indication = .success →
          self.timeActivatedOperate = true ∧
            (self.cancelTimeActivated indication lastApplError).object.timeActivatedOperate =
              false) := by
      have hclear := self.cancelTimeActivated_cleared indication lastApplError
      obtain ⟨hc, hs⟩ := self.cancelTimeActivated_frame indication lastApplError
      refine ⟨hc, hs, fun ht => ?_, fun hsuccess => ?_⟩
      · rw [hclear] at ht
        cases ht
      · exact ⟨cancelTimeActivated_success hne hsuccess, hclear⟩
    split
    · rename_i hsbo
      rw [Bool.and_eq_true, decide_eq_true_eq] at hsbo
      split
      · rename_i hc
        refine ⟨rfl, rfl, fun ht => ht, fun _ => .inl ⟨hsbo.1, hsbo.2, hc, ?_, ?_⟩⟩
        · rw [hnum]
          rfl
        · rw [horigin]
          rfl
      · obtain ⟨h1, h2, h3, h4⟩ := hgiveUp .temporarilyUnavailable nofun _
        exact ⟨h1, h2, h3, fun h => .inr (h4 h)⟩
    · obtain ⟨h1, h2, h3, h4⟩ := hgiveUp .objectAccessDenied nofun none
      exact ⟨h1, h2, h3, fun h => .inr (h4 h)⟩
  · exact ⟨rfl, rfl, fun ht => ht, nofun⟩

end ControlObject

namespace Worker

variable {self object : ControlObject} {closed : List Connection} {ok : Bool}
  {currentTime : UInt64} {worker : Worker} {next : Option Worker}
  {observations : List Observation}

/-- A thread does not touch the client of the object or what waits for its time. -/
theorem step_frame
    (hs : worker.step self closed ok currentTime = .ok (object, next, observations)) :
    object.timeActivatedOperate = self.timeActivatedOperate ∧
      object.clientConnection = self.clientConnection := by
  cases worker with
  | start =>
    rw [step] at hs
    split at hs
    · cases hs
      exact ⟨rfl, rfl⟩
    · split at hs <;> cases hs <;> exact ⟨rfl, rfl⟩
  | readState task =>
    cases hs
    exact ⟨rfl, rfl⟩
  | enter task timed =>
    cases hs
    exact ⟨rfl, rfl⟩
  | waitForExecution task timed =>
    cases hs
    exact ⟨rfl, rfl⟩
  | reject task timed =>
    rw [step] at hs
    split at hs
    · obtain ⟨sent, _, hs⟩ := bind_ok hs
      cases hs
      exact ⟨rfl, rfl⟩
    · obtain ⟨sent, _, hs⟩ := bind_ok hs
      cases hs
      exact ⟨rfl, rfl⟩
  | respond task timed =>
    rw [step] at hs
    split at hs
    · obtain ⟨sent, _, hs⟩ := bind_ok hs
      obtain ⟨cleared, hcleared, hs⟩ := bind_ok hs
      cases hs
      rw [ControlObject.clearOperTime] at hcleared
      split at hcleared
      · split at hcleared
        · cases hcleared
          exact ⟨rfl, rfl⟩
        · cases hcleared
      · cases hcleared
    · obtain ⟨sent, _, hs⟩ := bind_ok hs
      cases hs
      exact ⟨rfl, rfl⟩
  | setOperate task =>
    cases hs
    exact ⟨rfl, rfl⟩
  | operate task time =>
    cases hs
    exact ⟨rfl, rfl⟩
  | terminate task =>
    rw [step] at hs
    split at hs
    · obtain ⟨sent, _, hs⟩ := bind_ok hs
      cases hs
      exact ⟨rfl, rfl⟩
    · cases hs
      exact ⟨rfl, rfl⟩
  | abort task =>
    cases hs
    exact ⟨rfl, rfl⟩
  | decreaseTasksCount task =>
    cases hs
    exact ⟨rfl, rfl⟩

/-- A thread that does not find its client ends. -/
theorem start_closed {connection : Connection}
    (hs : Worker.start.step self closed ok currentTime = .ok (object, next, observations))
    (hmem : connection ∈ closed) (hc : self.clientConnection = some connection) : next = none := by
  rw [step, hc] at hs
  dsimp only at hs
  rw [if_pos hmem] at hs
  cases hs
  rfl

end Worker

namespace Revocations

variable {h h' : Revocations} {server : Server}

theorem abandoned_of_same {s s' : Server} (h : s.Abandoned)
    (hclosed : ∀ connection ∈ s.closed, connection ∈ s'.closed)
    (hclient : s'.object.clientConnection = s.object.clientConnection) : s'.Abandoned := by
  obtain ⟨connection, hmem, hc⟩ := h
  exact ⟨connection, hclosed connection hmem, hclient.trans hc⟩

/-- A revoked operation has no thread that has begun, and there is no client for it. -/
structure Inv (h : Revocations) : Prop where
  length : h.workers.length = h.server.workers.length
  waiting : h.server.object.timeActivatedOperate = true → h.waiting = true → h.server.Abandoned
  starting : h.server.starting = true → h.starting = true → h.server.Abandoned
  threads : ∀ i : Nat, h.workers[i]? = some true →
    h.server.workers[i]? = some Worker.start ∧ h.server.Abandoned
  performed : h.performed = false

theorem Inv.start (object : ControlObject) (ht : object.timeActivatedOperate = false) :
    Inv (start object) where
  length := rfl
  waiting := fun h => by
    rw [show object.timeActivatedOperate = true from h] at ht
    cases ht
  starting := nofun
  threads := fun _ h => (nomatch h)
  performed := rfl

/-- Nothing that is pending is revoked. -/
structure Unrevoked (h : Revocations) : Prop where
  length : h.workers.length = h.server.workers.length
  waiting : h.server.object.timeActivatedOperate = true → h.waiting = false
  starting : h.server.starting = true → h.starting = false
  threads : true ∉ h.workers
  performed : h.performed = false

theorem Inv.unrevoked (hi : Inv h) (hg : h.server.Abandoned → ¬ h.server.Pending) :
    h.Unrevoked where
  length := hi.length
  waiting := fun ht => by
    by_contra hw
    exact hg (hi.waiting ht (Bool.eq_true_of_not_eq_false hw)) (.inl ht)
  starting := fun hs => by
    by_contra hr
    exact hg (hi.starting hs (Bool.eq_true_of_not_eq_false hr)) (.inr (.inl hs))
  threads := fun hmem => by
    obtain ⟨i, hw⟩ := List.mem_iff_getElem?.mp hmem
    obtain ⟨hstart, habandoned⟩ := hi.threads i hw
    exact hg habandoned (.inr (.inr (List.mem_iff_getElem?.mpr ⟨i, hstart⟩)))
  performed := hi.performed

theorem Unrevoked.inv (hu : h.Unrevoked) : Inv h where
  length := hu.length
  waiting := fun ht hw => by
    rw [hu.waiting ht] at hw
    cases hw
  starting := fun hs hr => by
    rw [hu.starting hs] at hr
    cases hr
  threads := fun i hw => absurd (List.mem_iff_getElem?.mpr ⟨i, hw⟩) hu.threads
  performed := hu.performed

/-- A request that neither activates an operation nor starts a thread. -/
theorem Unrevoked.request (hu : h.Unrevoked) (server : Server)
    (ht : server.object.timeActivatedOperate = h.server.object.timeActivatedOperate)
    (hs : server.starting = h.server.starting) (hw : server.workers = h.server.workers) :
    Unrevoked { h with server } where
  length := hu.length.trans (congrArg List.length hw).symm
  waiting := fun h' => hu.waiting (ht.symm.trans h')
  starting := fun h' => hu.starting (hs.symm.trans h')
  threads := hu.threads
  performed := hu.performed

/-- A step that leaves alone what waits for its time, and the threads. -/
theorem Inv.frame (hi : Inv h) (server : Server)
    (ht : server.object.timeActivatedOperate = true →
      h.server.object.timeActivatedOperate = true)
    (hs : server.starting = true → h.server.starting = true)
    (hw : server.workers = h.server.workers)
    (ha : h.server.Abandoned → server.Abandoned) : Inv { h with server } where
  length := hi.length.trans (congrArg List.length hw).symm
  waiting := fun h' hwait => ha (hi.waiting (ht h') hwait)
  starting := fun h' hstart => ha (hi.starting (hs h') hstart)
  threads := fun i h' => by
    obtain ⟨hstart, habandoned⟩ := hi.threads i h'
    refine ⟨?_, ha habandoned⟩
    rw [hw]
    exact hstart
  performed := hi.performed

theorem Unrevoked.writeOper (hu : h.Unrevoked) {w : ControlWrite} {currentTime : UInt64}
    {result : CheckResult} {invokeId : UInt32} {r : Handled}
    (hr : h.server.object.writeOper w currentTime result invokeId = .ok r) :
    Unrevoked (h.after (.writeOper w currentTime result invokeId) (h.server.handled r).1) := by
  have hlength : (if (h.server.handled r).1.workers.length = h.server.workers.length then h.workers
      else h.workers ++ [false]).length = (h.server.handled r).1.workers.length := by
    cases hstarts : r.startsThread <;> simp [Server.handled, hstarts, hu.length]
  refine ⟨hlength, fun ht => ?_, hu.starting, ?_, hu.performed⟩
  · change (h.waiting && !decide (h.Activated _)) = false
    rcases ControlObject.writeOper_timeActivated hr ht with hbefore | hactivated
    · rw [hu.waiting hbefore]
      rfl
    · have hact : h.Activated (h.server.handled r).1 := hactivated
      rw [decide_eq_true hact]
      exact Bool.and_false _
  · change true ∉ if _ then h.workers else h.workers ++ [false]
    split
    · exact hu.threads
    · rw [List.mem_append, not_or]
      exact ⟨hu.threads, by simp⟩

theorem Inv.writeCancel (hi : Inv h) {w : ControlWrite} (hg : h.server.Orderly (.writeCancel w)) :
    Inv (h.after (.writeCancel w) (h.server.handled (h.server.object.writeCancel w)).1) := by
  obtain ⟨hclient, hthread, ht, hsuccess⟩ := h.server.object.writeCancel_cases w
  have hworkers : (h.server.handled (h.server.object.writeCancel w)).1.workers =
      h.server.workers := by
    rw [Server.handled]
    dsimp only
    rw [if_neg (by rw [hthread]; nofun)]
  have hsame := hi.frame (h.server.handled (h.server.object.writeCancel w)).1 ht (fun h' => h')
    hworkers fun ha => abandoned_of_same ha (fun _ hmem => hmem) hclient
  rw [after]
  split
  · rename_i howner
    -- a cancel of the owner clears what waits, or nothing waits
    have hcancel : h.server.object.timeActivatedOperate = true ∧
        (h.server.object.writeCancel w).object.timeActivatedOperate = false ∨
        h.server.object.timeActivatedOperate = false ∧ h.server.starting = false := by
      rcases hsuccess howner.2 with ⟨hsbo, hcancels⟩ | hcleared
      · exact .inr (hg hsbo hcancels)
      · exact .inl hcleared
    split
    · rename_i htime
      rcases hcancel with ⟨_, hcleared⟩ | ⟨hfalse, _⟩
      · refine ⟨hsame.length, fun h' => ?_, hsame.starting, hsame.threads, hsame.performed⟩
        rw [show (h.server.object.writeCancel w).object.timeActivatedOperate = true from h']
          at hcleared
        cases hcleared
      · rw [hfalse] at htime
        cases htime
    · rename_i htime
      rcases hcancel with ⟨htrue, _⟩ | ⟨_, hstarting⟩
      · exact absurd htrue htime
      · refine ⟨hsame.length, hsame.waiting, fun h' => ?_, hsame.threads, hsame.performed⟩
        rw [show h.server.starting = true from h'] at hstarting
        cases hstarting
  · exact hsame

theorem Inv.processControlActions (hi : Inv h) (currentTime : UInt64) :
    Inv (h.after (.processControlActions currentTime)
      (h.server.processControlActions currentTime)) := by
  rw [after, Server.processControlActions]
  by_cases htake : (!h.server.starting && h.server.object.timeActivatedOperate &&
      decide (h.server.object.operateTime ≤ currentTime)) = true
  · rw [if_pos htake]
    simp only [Bool.and_eq_true, Bool.not_eq_true', decide_eq_true_eq] at htake
    rw [if_neg (by simp [htake.1.1])]
    exact ⟨hi.length, fun h' => absurd h' Bool.false_ne_true,
      fun _ hw => hi.waiting htake.1.2 hw, hi.threads, hi.performed⟩
  · rw [if_neg htake, if_pos rfl]
    exact hi

theorem Inv.startActivated (hi : Inv h) {result : CheckResult} {observations : List Observation}
    (hs : h.server.startActivated result = .ok (server, observations)) :
    Inv (h.after (.startActivated result) server) := by
  rw [Server.startActivated] at hs
  rw [after]
  by_cases hstarting : h.server.starting = true
  · rw [if_pos hstarting] at hs
    dsimp only at hs
    split at hs
    · cases hs
      rw [if_neg (by simp)]
      refine ⟨?_, hi.waiting, fun h' => absurd h' Bool.false_ne_true, fun i hw => ?_,
        hi.performed⟩
      · simp [hi.length]
      · rcases Nat.lt_or_ge i h.workers.length with hlt | hge
        · rw [List.getElem?_append_left hlt] at hw
          obtain ⟨hstart, habandoned⟩ := hi.threads i hw
          refine ⟨?_, habandoned⟩
          rwa [List.getElem?_append_left (hi.length ▸ hlt)]
        · rw [List.getElem?_append_right hge] at hw
          have hzero : i - h.workers.length = 0 := by
            by_contra hne
            rw [List.getElem?_eq_none (Nat.one_le_iff_ne_zero.mpr hne)] at hw
            cases hw
          rw [hzero] at hw
          refine ⟨?_, hi.starting hstarting (Option.some.inj hw)⟩
          rw [List.getElem?_append_right (hi.length ▸ hge), ← hi.length, hzero]
          rfl
    · obtain ⟨sent, _, hs⟩ := bind_ok hs
      cases hs
      rw [if_pos rfl]
      exact hi.frame _ (fun h' => h') (fun h' => absurd h' Bool.false_ne_true) rfl fun ha => ha
  · rw [if_neg hstarting] at hs
    cases hs
    rw [if_pos rfl]
    exact hi

theorem Inv.work (hi : Inv h) {index : Nat} {ok : Bool} {currentTime : UInt64}
    {observations : List Observation}
    (hs : h.server.work index ok currentTime = .ok (server, observations)) :
    Inv (h.afterWork index server) := by
  rw [Server.work] at hs
  cases hw : h.server.workers[index]? with
  | none =>
    rw [hw] at hs
    cases hs
    refine ⟨?_, hi.waiting, hi.starting, ?_, ?_⟩
    · rw [afterWork, if_pos rfl]
      exact hi.length
    · rw [afterWork, if_pos rfl]
      exact hi.threads
    · rw [afterWork, hw, hi.performed]
      exact Bool.and_false _
  | some worker =>
    rw [hw] at hs
    obtain ⟨⟨object, next, _⟩, hstep, hs⟩ := bind_ok hs
    cases hs
    obtain ⟨ht, hc⟩ := Worker.step_frame hstep
    have hlt : index < h.server.workers.length := by
      by_contra hge
      rw [List.getElem?_eq_none (Nat.le_of_not_lt hge)] at hw
      cases hw
    have habandoned (ha : h.server.Abandoned) : Server.Abandoned { h.server with
        object := object
        workers := h.server.workers.take index ++ next.toList ++
          h.server.workers.drop (index + 1) } := by
      exact abandoned_of_same ha (fun _ hmem => hmem) hc
    have hperformed : (h.performed || (h.workers[index]?.getD false &&
        h.server.workers[index]?.any Worker.isOperate)) = false := by
      rw [hi.performed, Bool.false_or]
      cases htag : h.workers[index]? with
      | none => rfl
      | some tag =>
        cases tag with
        | false => rfl
        | true =>
          rw [(hi.threads index htag).1]
          rfl
    cases next with
    | none =>
      have hlist : h.server.workers.take index ++ Option.toList none ++
          h.server.workers.drop (index + 1) = h.server.workers.eraseIdx index := by
        rw [Option.toList_none, List.append_nil, List.eraseIdx_eq_take_drop_succ]
      rw [hlist] at habandoned ⊢
      have hne : ¬ (h.server.workers.eraseIdx index).length = h.server.workers.length := by
        rw [List.length_eraseIdx_of_lt hlt]
        omega
      rw [afterWork, if_neg hne]
      refine ⟨?_, fun h' hwait => habandoned (hi.waiting (ht.symm.trans h') hwait),
        fun h' hstart => habandoned (hi.starting h' hstart), fun i htag => ?_, hperformed⟩
      · rw [List.length_eraseIdx_of_lt hlt, List.length_eraseIdx_of_lt (hi.length ▸ hlt),
          hi.length]
      · rw [List.getElem?_eraseIdx] at htag ⊢
        split at htag
        · rename_i hi'
          rw [if_pos hi']
          obtain ⟨hstart, ha⟩ := hi.threads i htag
          exact ⟨hstart, habandoned ha⟩
        · rename_i hi'
          rw [if_neg hi']
          obtain ⟨hstart, ha⟩ := hi.threads (i + 1) htag
          exact ⟨hstart, habandoned ha⟩
    | some v =>
      have hlist : h.server.workers.take index ++ Option.toList (some v) ++
          h.server.workers.drop (index + 1) = h.server.workers.set index v := by
        rw [Option.toList_some, List.append_assoc, List.singleton_append,
          List.set_eq_take_append_cons_drop, if_pos hlt]
      rw [hlist] at habandoned ⊢
      rw [afterWork, if_pos (List.length_set ..)]
      refine ⟨?_, fun h' hwait => habandoned (hi.waiting (ht.symm.trans h') hwait),
        fun h' hstart => habandoned (hi.starting h' hstart), fun i htag => ?_, hperformed⟩
      · rw [List.length_set]
        exact hi.length
      · obtain ⟨hstart, ha⟩ := hi.threads i htag
        refine ⟨?_, habandoned ha⟩
        -- the thread of a revoked operation would have ended
        have hne : index ≠ i := by
          rintro rfl
          obtain rfl := Option.some.inj (hw.symm.trans hstart)
          obtain ⟨connection, hmem, hclient⟩ := ha
          cases Worker.start_closed hstep hmem hclient
        rw [List.getElem?_set_ne hne]
        exact hstart

theorem Inv.connectionClosed (hi : Inv h) (connection : Connection) :
    Inv (h.after (.connectionClosed connection)
      { h.server with closed := connection :: h.server.closed }) := by
  have hsame := hi.frame { h.server with closed := connection :: h.server.closed }
    (fun h' => h') (fun h' => h') rfl fun ha => abandoned_of_same ha
      (fun _ hmem => List.mem_cons_of_mem _ hmem) rfl
  rw [after]
  split
  · rename_i hc
    have ha : Server.Abandoned { h.server with closed := connection :: h.server.closed } :=
      ⟨connection, List.mem_cons_self, hc⟩
    exact ⟨hsame.length, fun _ _ => ha, fun _ _ => ha, hsame.threads, hsame.performed⟩
  · exact hsame

theorem Inv.step (hi : Inv h) {e : Event} (hg : h.server.Orderly e) (hs : h.Step e h') :
    Inv h' := by
  obtain ⟨server, ⟨observations, hs⟩, rfl⟩ := hs
  cases e with
  | readSBO connection currentTime result =>
    cases hs
    exact ((hi.unrevoked hg).request
      { h.server with object := (h.server.object.readSBO connection currentTime result).1 }
      (h.server.object.readSBO_timeActivated connection currentTime result) rfl rfl).inv
  | writeSBOw w currentTime result =>
    obtain ⟨r, hr, hs⟩ := bind_ok hs
    obtain rfl : (h.server.handled r).1 = server := congrArg Prod.fst (Except.ok.inj hs)
    obtain ⟨ht, hstarts⟩ := ControlObject.writeSBOw_timeActivated hr
    refine ((hi.unrevoked hg).request (h.server.handled r).1 ht rfl ?_).inv
    rw [Server.handled, hstarts]
    rfl
  | writeOper w currentTime result invokeId =>
    obtain ⟨r, hr, hs⟩ := bind_ok hs
    obtain rfl : (h.server.handled r).1 = server := congrArg Prod.fst (Except.ok.inj hs)
    exact ((hi.unrevoked hg).writeOper hr).inv
  | writeCancel w =>
    obtain rfl : (h.server.handled (h.server.object.writeCancel w)).1 = server :=
      congrArg Prod.fst (Except.ok.inj hs)
    exact hi.writeCancel hg
  | processControlActions currentTime =>
    cases hs
    exact hi.processControlActions currentTime
  | startActivated result => exact hi.startActivated hs
  | work index ok currentTime => exact hi.work hs
  | connectionClosed connection =>
    cases hs
    exact hi.connectionClosed connection
  | unselect connection =>
    cases hs
    have hobject : (h.server.object.unselect connection).timeActivatedOperate =
        h.server.object.timeActivatedOperate ∧
        (h.server.object.unselect connection).clientConnection =
          h.server.object.clientConnection := by
      rw [ControlObject.unselect]
      split <;> exact ⟨rfl, rfl⟩
    exact hi.frame _ (fun h' => hobject.1.symm.trans h') (fun h' => h') rfl
      fun ha => abandoned_of_same ha (fun _ hmem => hmem) hobject.2
  | configure sboClass sboTimeout =>
    cases hs
    exact hi.frame _ (fun h' => h') (fun h' => h') rfl fun ha => ha

/-- In orderly runs no operation is performed that was revoked while it was pending. -/
theorem run_notPerformed {ctlModel : UInt32} {sbo : MmsValue.CString} {sboClass : Option Int32}
    {sboTimeout : Option UInt32} {oper : MmsValue} {events : List Event}
    (hr : Transition.Run Step (fun h e => h.server.Orderly e)
      (start (.create ctlModel sbo sboClass sboTimeout oper)) events h) : h.performed = false :=
  (hr.invariant (Inv.start _ rfl) fun _ _ _ hi hg hs => hi.step hg hs).performed

instance (s : Server) : Decidable s.Abandoned :=
  inferInstanceAs (Decidable (∃ connection ∈ s.closed, s.object.clientConnection = some connection))

instance (s : Server) : Decidable s.Pending :=
  inferInstanceAs (Decidable (_ ∨ _ ∨ _))

instance (s : Server) (w : ControlWrite) : Decidable (s.OwnerCancels w) :=
  inferInstanceAs (Decidable (_ ∧ _))

instance (s : Server) : (e : Event) → Decidable (s.Orderly e)
  | .readSBO _ _ _ | .writeSBOw _ _ _ | .writeOper _ _ _ _ =>
    inferInstanceAs (Decidable (s.Abandoned → ¬ s.Pending))
  | .writeCancel w => inferInstanceAs (Decidable (s.object.isSelectBeforeOperate = true →
      s.OwnerCancels w → s.object.timeActivatedOperate = false ∧ s.starting = false))
  | .processControlActions _ | .startActivated _ | .work _ _ _ | .connectionClosed _
  | .unselect _ | .configure _ _ => isTrue trivial

/-- What the steps of a run make of the operations. -/
def follow (guard : Server → Event → Prop) [∀ s e, Decidable (guard s e)] (h : Revocations) :
    List Event → Option Revocations
  | [] => some h
  | e :: es =>
    if guard h.server e then
      match h.server.step e with
      | .ok (server, _) => follow guard (h.after e server) es
      | .error _ => none
    else none

theorem run_of_follow {guard : Server → Event → Prop} [∀ s e, Decidable (guard s e)]
    {events : List Event} (hs : h.follow guard events = some h') :
    Transition.Run Step (fun h e => guard h.server e) h events h' := by
  induction events generalizing h with
  | nil =>
    cases hs
    exact .nil
  | cons e es ih =>
    obtain ⟨hg, hs⟩ := Option.ite_none_right_eq_some.mp hs
    cases hstep : h.server.step e with
    | error fault =>
      rw [hstep] at hs
      cases hs
    | ok next =>
      rw [hstep] at hs
      have hnil : Transition.Run Step (fun h e => guard h.server e) h [] h := .nil
      exact (hnil.snoc hg ⟨next.1, ⟨next.2, hstep⟩, rfl⟩).append (ih hs)

/-- A client selects the object and has it operated a second later. -/
def activated : List Event :=
  [.readSBO 1 0 none, .writeOper (plainWrite timeActivatedValue) 0 none 7]

/-- The time has come, and the thread does its work. -/
def elapsed : List Event :=
  [.processControlActions 1000, .startActivated none] ++ List.replicate 7 (.work 0 true 0)

/-- The client goes before the time of its operation. -/
theorem run_notPerformed_disconnected : ∃ h,
    (start plainObject).follow Server.Orderly (activated ++ [.connectionClosed 1] ++ elapsed) =
      some h ∧ h.performed = false := by
  have hrun : ((start plainObject).follow Server.Orderly
      (activated ++ [.connectionClosed 1] ++ elapsed)).isSome = true := by decide +kernel
  obtain ⟨h, hs⟩ := Option.isSome_iff_exists.mp hrun
  exact ⟨h, hs, run_notPerformed (run_of_follow hs)⟩

/-- The client cancels with success, and its operation is performed all the same. -/
theorem performed_cancelled : ¬ ∀ (events : List Event) (h : Revocations),
    Transition.Run Step (fun h e => h.server.Permits e) (start plainObject) events h →
      h.performed = false := by
  intro hall
  have hrun : ((start plainObject).follow Server.Permits
      (activated ++ [.writeCancel (plainWrite cancelValue)] ++ elapsed)).map (·.performed) =
        some true := by decide +kernel
  obtain ⟨h, hs, hperformed⟩ := Option.map_eq_some_iff.mp hrun
  rw [hall _ h (run_of_follow hs)] at hperformed
  cases hperformed

end Revocations

end Iec61850.Control
