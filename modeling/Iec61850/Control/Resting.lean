import Iec61850.Control.SelectBeforeOperate

/-! A control object comes to rest when nothing goes on any more, as long as every operate thread
finds the client of its operation. -/

namespace Iec61850.Control

open Machine

namespace ControlObject

variable {self : ControlObject} {w : ControlWrite} {currentTime : UInt64} {result : CheckResult}

theorem abortControlOperation_resting (self : ControlObject) :
    self.abortControlOperation.state.isBusy = false := by
  rw [abortControlOperation]
  dsimp only
  split <;> rfl

theorem checkSelectTimeout_state (self : ControlObject) (currentTime : UInt64) :
    (self.checkSelectTimeout currentTime).1.state = self.state ∨
      (self.checkSelectTimeout currentTime).1.state = .unselected := by
  rw [checkSelectTimeout]
  split
  · exact .inr rfl
  · exact .inl rfl

theorem checkSelectTimeout_busy
    (h : (self.checkSelectTimeout currentTime).1.state.isBusy = true) :
    self.state.isBusy = true := by
  rcases self.checkSelectTimeout_state currentTime with hs | hs <;> rw [hs] at h
  · exact h
  · cases h

@[simp] theorem checkSelectTimeout_timeActivated (self : ControlObject) (currentTime : UInt64) :
    (self.checkSelectTimeout currentTime).1.timeActivatedOperate = self.timeActivatedOperate := by
  rw [checkSelectTimeout]
  split <;> rfl

end ControlObject

/-- What an object leaves behind: if it is busy, its own operation is the reason. -/
def KeepsGoing (before after : ControlObject) (startsThread : Bool) : Prop :=
  after.state.isBusy = true → startsThread = true ∨ after.timeActivatedOperate = true ∨
    (before.state.isBusy = true ∧ after.timeActivatedOperate = before.timeActivatedOperate)

theorem KeepsGoing.of_resting {before after : ControlObject} {startsThread : Bool}
    (h : after.state.isBusy = false) : KeepsGoing before after startsThread := by
  intro hb
  rw [h] at hb
  cases hb

theorem KeepsGoing.refl (object : ControlObject) (startsThread : Bool) :
    KeepsGoing object object startsThread := fun hb => .inr (.inr ⟨hb, rfl⟩)

namespace ControlObject

variable {self : ControlObject} {w : ControlWrite} {currentTime : UInt64} {result : CheckResult}

theorem checkSelectTimeout_keepsGoing (self : ControlObject) (currentTime : UInt64)
    (startsThread : Bool) :
    KeepsGoing self (self.checkSelectTimeout currentTime).1 startsThread := fun hb =>
  .inr (.inr ⟨checkSelectTimeout_busy hb, checkSelectTimeout_timeActivated self currentTime⟩)

theorem readSBO_keepsGoing (self : ControlObject) (connection : Connection) (currentTime : UInt64)
    (result : CheckResult) :
    KeepsGoing self (self.readSBO connection currentTime result).1 false := by
  rw [readSBO]
  split
  · dsimp only
    split
    · exact .of_resting rfl
    · exact self.checkSelectTimeout_keepsGoing currentTime false
  · exact .refl self false

theorem writeSBOw_keepsGoing {r : Handled} (h : self.writeSBOw w currentTime result = .ok r) :
    KeepsGoing self r.object r.startsThread := by
  unfold writeSBOw at h
  split at h
  · cases h
    exact .refl self false
  split at h
  · cases h
    exact .refl self false
  · split at h
    · cases h
      exact .refl self false
    dsimp only at h
    split at h
    · cases h
      exact self.checkSelectTimeout_keepsGoing currentTime false
    · split at h
      · cases h
        exact .of_resting rfl
      · cases h
        exact self.checkSelectTimeout_keepsGoing currentTime false
  · cases h

theorem performTest_keepsGoing (self before : ControlObject) (connection : Connection)
    (result : CheckResult) (invokeId : UInt32) (observations : List Observation) :
    KeepsGoing before (self.performTest connection result invokeId observations).object
      (self.performTest connection result invokeId observations).startsThread := by
  rw [performTest]
  dsimp only
  split
  · exact fun _ => .inl rfl
  · exact .of_resting (abortControlOperation_resting _)

/-- An operation is accepted by an object that is ready: it has a thread, or waits for its time,
or is given up. -/
theorem acceptOper_keepsGoing (self before : ControlObject) (parameters : ControlParameters)
    (check : MmsValue) (invokeId : UInt32) (observations : List Observation) :
    KeepsGoing before
      (self.acceptOper w parameters check currentTime result invokeId observations).object
      (self.acceptOper w parameters check currentTime result invokeId observations).startsThread :=
    by
  rw [acceptOper]
  dsimp only
  split
  · rename_i htime
    split
    · exact fun _ => .inr (.inl htime)
    · exact fun _ => .inr (.inl htime)
  · exact performTest_keepsGoing _ before _ _ _ _

theorem writeOper_keepsGoing {invokeId : UInt32} {r : Handled}
    (h : self.writeOper w currentTime result invokeId = .ok r) :
    KeepsGoing self r.object r.startsThread := by
  have hcheck := self.checkSelectTimeout_keepsGoing currentTime false
  unfold writeOper at h
  split at h
  · split at h
    · cases h
      exact .refl self false
    dsimp only at h
    split at h
    · cases h
      exact hcheck
    · cases h
      exact hcheck
    · rename_i hready
      split at h
      · split at h
        · cases h
          exact .of_resting (by rw [show _ = _ from hready]; rfl)
        · split at h
          · split at h
            · cases h
            · split at h
              · cases h
                exact acceptOper_keepsGoing _ self _ _ _ _
              · cases h
                exact .of_resting (by rw [show _ = _ from hready]; rfl)
          · cases h
            exact acceptOper_keepsGoing _ self _ _ _ _
      · cases h
        exact acceptOper_keepsGoing _ self _ _ _ _
    · cases h
      exact hcheck
  · cases h
    exact .refl self false

theorem cancelTimeActivated_keepsGoing (self : ControlObject) (indication : MmsDataAccessError)
    (lastApplError : Option LastApplError) :
    KeepsGoing self (self.cancelTimeActivated indication lastApplError).object
      (self.cancelTimeActivated indication lastApplError).startsThread := by
  rw [cancelTimeActivated]
  split
  · exact .of_resting (abortControlOperation_resting _)
  · exact .refl self false

theorem writeCancel_keepsGoing (self : ControlObject) (w : ControlWrite) :
    KeepsGoing self (self.writeCancel w).object (self.writeCancel w).startsThread := by
  unfold writeCancel
  split
  · split
    · split
      · exact .of_resting rfl
      · exact self.cancelTimeActivated_keepsGoing _ _
    · exact self.cancelTimeActivated_keepsGoing _ _
  · exact .refl self false

end ControlObject

namespace Server

variable {s s' : Server} {observations : List Observation}

/-- Nothing is going on: no thread, nothing that waits for its time or is about to be started. -/
structure Quiet (s : Server) : Prop where
  timeActivatedOperate : s.object.timeActivatedOperate = false
  starting : s.starting = false
  workers : s.workers = []

/-- A busy object has a reason to be busy. -/
def GoesOn (s : Server) : Prop :=
  s.object.state.isBusy = true → s.object.timeActivatedOperate = true ∨ s.starting = true ∨
    ∃ worker ∈ s.workers, worker.isActive = true

theorem GoesOn.of_keepsGoing (h : s.GoesOn) {object : ControlObject} {workers : List Worker}
    {b : Bool} (hk : KeepsGoing s.object object b)
    (hstarts : b = true → ∃ worker ∈ workers, worker.isActive = true)
    (hworkers : ∀ worker ∈ s.workers, worker ∈ workers) :
    GoesOn { s with object := object, workers := workers } := by
  intro hb
  rcases hk hb with hstart | ht | ⟨hbefore, ht⟩
  · exact .inr (.inr (hstarts hstart))
  · exact .inl ht
  · rcases h hbefore with htime | hstarting | ⟨worker, hw, hactive⟩
    · exact .inl (ht.trans htime)
    · exact .inr (.inl hstarting)
    · exact .inr (.inr ⟨worker, hworkers worker hw, hactive⟩)

theorem GoesOn.handled (h : s.GoesOn) {r : Handled}
    (hk : KeepsGoing s.object r.object r.startsThread) : (s.handled r).1.GoesOn := by
  refine h.of_keepsGoing hk (fun hstart => ?_) fun worker hw => ?_
  · rw [if_pos hstart]
    exact ⟨.start, List.mem_append_right _ (List.mem_singleton_self _), rfl⟩
  · split
    · exact List.mem_append_left _ hw
    · exact hw

theorem GoesOn.of_resting (h : s.object.state.isBusy = false) : s.GoesOn := by
  intro hb
  rw [h] at hb
  cases hb

theorem GoesOn.processControlActions (h : s.GoesOn) (currentTime : UInt64) :
    (s.processControlActions currentTime).GoesOn := by
  rw [Server.processControlActions]
  split
  · exact fun _ => .inr (.inl rfl)
  · exact h

theorem GoesOn.startActivated {result : CheckResult} (h : s.GoesOn)
    (hs : s.startActivated result = .ok (s', observations)) : s'.GoesOn := by
  rw [Server.startActivated] at hs
  split at hs
  · dsimp only at hs
    split at hs
    · cases hs
      exact fun _ => .inr (.inr ⟨.start, List.mem_append_right _ (List.mem_singleton_self _), rfl⟩)
    · obtain ⟨sent, _, hs⟩ := bind_ok hs
      cases hs
      exact .of_resting (ControlObject.abortControlOperation_resting _)
  · cases hs
    exact h

/-- The thread finds the client of the object. -/
def FindsClient (s : Server) (index : Nat) : Prop :=
  s.workers[index]? = some .start →
    ∃ connection, s.object.clientConnection = some connection ∧ connection ∉ s.closed

end Server

namespace Worker

variable {self object : ControlObject} {closed : List Connection} {ok : Bool}
  {currentTime : UInt64} {worker : Worker} {next : Option Worker}
  {observations : List Observation}

/-- A thread goes on until it has brought the object to rest. -/
theorem step_goesOn (hs : worker.step self closed ok currentTime = .ok (object, next, observations))
    (hstart : worker = .start → ∃ connection, self.clientConnection = some connection ∧
      connection ∉ closed) :
    object.state.isBusy = false ∨ (∃ v, next = some v ∧ v.isActive = true) ∨
      (object = self ∧ worker.isActive = false) := by
  cases worker with
  | start =>
    obtain ⟨connection, hc, hmem⟩ := hstart rfl
    simp only [step, hc, if_neg hmem] at hs
    cases hs
    exact .inr (.inl ⟨_, rfl, rfl⟩)
  | readState task =>
    cases hs
    exact .inr (.inl ⟨_, rfl, rfl⟩)
  | enter task timed =>
    cases hs
    exact .inr (.inl ⟨_, rfl, rfl⟩)
  | waitForExecution task timed =>
    cases hs
    refine .inr (.inl ⟨_, rfl, ?_⟩)
    split <;> rfl
  | reject task timed =>
    rw [step] at hs
    split at hs
    · obtain ⟨sent, _, hs⟩ := bind_ok hs
      cases hs
      exact .inr (.inl ⟨_, rfl, rfl⟩)
    · obtain ⟨sent, _, hs⟩ := bind_ok hs
      cases hs
      exact .inr (.inl ⟨_, rfl, rfl⟩)
  | respond task timed =>
    rw [step] at hs
    split at hs
    · obtain ⟨sent, _, hs⟩ := bind_ok hs
      obtain ⟨cleared, _, hs⟩ := bind_ok hs
      cases hs
      exact .inr (.inl ⟨_, rfl, rfl⟩)
    · obtain ⟨sent, _, hs⟩ := bind_ok hs
      cases hs
      exact .inr (.inl ⟨_, rfl, rfl⟩)
  | setOperate task =>
    cases hs
    exact .inr (.inl ⟨_, rfl, rfl⟩)
  | operate task time =>
    cases hs
    exact .inr (.inl ⟨_, rfl, rfl⟩)
  | terminate task =>
    rw [step] at hs
    split at hs
    · obtain ⟨sent, _, hs⟩ := bind_ok hs
      cases hs
      exact .inr (.inl ⟨_, rfl, rfl⟩)
    · cases hs
      exact .inr (.inl ⟨_, rfl, rfl⟩)
  | abort task =>
    cases hs
    exact .inl (self.abortControlOperation_resting)
  | decreaseTasksCount task =>
    cases hs
    exact .inr (.inr ⟨rfl, rfl⟩)

end Worker

namespace Server

variable {s s' : Server} {observations : List Observation}

theorem GoesOn.work (h : s.GoesOn) {index : Nat} {ok : Bool} {currentTime : UInt64}
    (hfinds : s.FindsClient index)
    (hs : s.work index ok currentTime = .ok (s', observations)) : s'.GoesOn := by
  rw [Server.work] at hs
  cases hw : s.workers[index]? with
  | none =>
    rw [hw] at hs
    cases hs
    exact h
  | some worker =>
    rw [hw] at hs
    obtain ⟨⟨object, next, _⟩, hstep, hs⟩ := bind_ok hs
    cases hs
    rcases Worker.step_goesOn hstep fun hstart => hfinds (by rw [hw, hstart]) with
      hrest | ⟨v, rfl, hv⟩ | ⟨rfl, hinactive⟩
    · exact .of_resting hrest
    · exact fun _ => .inr (.inr ⟨v, by simp, hv⟩)
    · intro hb
      rcases h hb with ht | hstarting | ⟨u, hu, hactive⟩
      · exact .inl ht
      · exact .inr (.inl hstarting)
      · -- the thread that ends is not the one that is active
        obtain ⟨i, hi⟩ := List.mem_iff_getElem?.mp hu
        have hne : i ≠ index := by
          rintro rfl
          rw [Option.some.inj (hw.symm.trans hi), hactive] at hinactive
          cases hinactive
        refine .inr (.inr ⟨u, ?_, hactive⟩)
        rcases Nat.lt_or_gt_of_ne hne with hlt | hgt
        · refine List.mem_append_left _ (List.mem_append_left _ ?_)
          exact List.mem_iff_getElem?.mpr ⟨i, by rw [List.getElem?_take_of_lt hlt, hi]⟩
        · refine List.mem_append_right _ (List.mem_iff_getElem?.mpr ⟨i - (index + 1), ?_⟩)
          rw [List.getElem?_drop, Nat.add_sub_cancel' hgt, hi]

/-- A step, whatever can be seen of it. -/
def Step (s : Server) (e : Event) (s' : Server) : Prop :=
  ∃ observations, s.step e = .ok (s', observations)

/-- Every operate thread that begins finds the client of the object. -/
def ThreadsFindClient (s : Server) : Event → Prop
  | .work index _ _ => s.FindsClient index
  | _ => True

theorem GoesOn.step (h : s.GoesOn) {e : Event} (hg : s.ThreadsFindClient e) (hs : s.Step e s') :
    s'.GoesOn := by
  obtain ⟨observations, hs⟩ := hs
  cases e with
  | readSBO connection currentTime result =>
    cases hs
    exact h.of_keepsGoing (s.object.readSBO_keepsGoing connection currentTime result) nofun
      fun _ hw => hw
  | writeSBOw w currentTime result =>
    obtain ⟨r, hr, hs⟩ := bind_ok hs
    obtain rfl : (s.handled r).1 = s' := congrArg Prod.fst (Except.ok.inj hs)
    exact h.handled (ControlObject.writeSBOw_keepsGoing hr)
  | writeOper w currentTime result invokeId =>
    obtain ⟨r, hr, hs⟩ := bind_ok hs
    obtain rfl : (s.handled r).1 = s' := congrArg Prod.fst (Except.ok.inj hs)
    exact h.handled (ControlObject.writeOper_keepsGoing hr)
  | writeCancel w =>
    obtain rfl : (s.handled (s.object.writeCancel w)).1 = s' :=
      congrArg Prod.fst (Except.ok.inj hs)
    exact h.handled (s.object.writeCancel_keepsGoing w)
  | processControlActions currentTime =>
    cases hs
    exact h.processControlActions currentTime
  | startActivated result => exact h.startActivated hs
  | work index ok currentTime => exact h.work hg hs
  | connectionClosed connection =>
    cases hs
    exact h
  | unselect connection =>
    cases hs
    refine h.of_keepsGoing (b := false) ?_ nofun fun _ hw => hw
    rw [ControlObject.unselect]
    split
    · exact .of_resting (ControlObject.abortControlOperation_resting _)
    · exact .refl s.object false
  | configure sboClass sboTimeout =>
    cases hs
    exact h

deriving instance DecidableEq for Worker

instance (s : Server) (index : Nat) : Decidable (s.FindsClient index) :=
  if h : s.workers[index]? = some .start then
    match hc : s.object.clientConnection with
    | none => isFalse fun hf => by
      obtain ⟨connection, h', _⟩ := hf h
      rw [hc] at h'
      cases h'
    | some connection =>
      if hm : connection ∈ s.closed then
        isFalse fun hf => by
          obtain ⟨connection', h', hm'⟩ := hf h
          rw [hc] at h'
          exact hm' (Option.some.inj h' ▸ hm)
      else isTrue fun _ => ⟨connection, hc, hm⟩
  else isTrue fun h' => absurd h' h

instance (s : Server) : (e : Event) → Decidable (s.ThreadsFindClient e)
  | .work index _ _ => inferInstanceAs (Decidable (s.FindsClient index))
  | .readSBO _ _ _ | .writeSBOw _ _ _ | .writeOper _ _ _ _ | .writeCancel _
  | .processControlActions _ | .startActivated _ | .connectionClosed _ | .unselect _
  | .configure _ _ => isTrue trivial

instance (s : Server) : (e : Event) → Decidable (s.Permits e)
  | .readSBO connection _ _ => inferInstanceAs (Decidable (connection ∉ s.closed))
  | .writeSBOw w _ _ => inferInstanceAs (Decidable (w.connection ∉ s.closed))
  | .writeOper w _ _ _ => inferInstanceAs (Decidable (w.connection ∉ s.closed))
  | .writeCancel w => inferInstanceAs (Decidable (w.connection ∉ s.closed))
  | .unselect connection => inferInstanceAs (Decidable (connection ∈ s.closed ∧
      ∀ worker ∈ s.workers, worker.task ≠ some connection))
  | .processControlActions _ | .startActivated _ | .work _ _ _ | .connectionClosed _
  | .configure _ _ => isTrue trivial

/-- The value of `Oper` without an activation time. -/
def immediateValue : MmsValue :=
  .structured [.boolean true, someOrigin, .unsigned (.create ⟨1, one_lt_size⟩), noTime,
    .boolean false, .newBitString 2]

end Server

end Iec61850.Control
