import Iec61850.Goose.GoosePublisher
import Iec61850.Lib.Transition

/-! `mms_goose.c`: when the frames of a control block are sent while it is enabled. The application
reports events, and the thread for events compares the time and publishes some time later. -/

namespace Iec61850

namespace Goose

/-- `CONFIG_GOOSE_STABLE_STATE_TRANSMISSION_INTERVAL` -/
def stableStateInterval : Nat := 5000

/-- `CONFIG_GOOSE_EVENT_RETRANSMISSION_INTERVAL` -/
def eventRetransmissionInterval : Nat := 500

/-- `CONFIG_GOOSE_EVENT_RETRANSMISSION_COUNT` -/
def eventRetransmissionCount : Nat := 2

/-- What `MmsGooseControlBlock_enable` takes from the control block and its values. -/
structure GooseSettings where
  commParameters : CommParameters
  goCBRef : List UInt8
  goId : Option (List UInt8)
  dataSetRef : List UInt8
  confRev : UInt32
  needsCom : Bool

/-- The publisher that `MmsGooseControlBlock_enable` creates. -/
def GooseSettings.enable (settings : GooseSettings)
    (srcAddr : { octets : List UInt8 // octets.length = 6 }) (currentTime : UInt64) :
    GoosePublisher :=
  let publisher := GoosePublisher.create settings.commParameters srcAddr currentTime
  { publisher.setTimeAllowedToLive (UInt32.ofNat (stableStateInterval * 3)) with
    dataSetRef := some settings.dataSetRef
    goCBRef := some settings.goCBRef
    confRev := settings.confRev
    needsCommission := settings.needsCom
    goID := settings.goId }

/-- What has happened since the control block was enabled: an event, with the state number that was
in use, and a frame with the time it was sent at and the time the next one was scheduled for. -/
inductive Occurrence
  | event (stNum : UInt32)
  | frame (frame : Frame) (currentTime nextPublishTime : UInt64)

/-- A control block that is enabled. The thread that found the time to have come at `pending` is
about to publish. -/
structure MmsGooseControlBlock where
  publisher : GoosePublisher
  nextPublishTime : UInt64
  retransmissionsLeft : Int
  pending : Option UInt64
  history : List Occurrence

namespace MmsGooseControlBlock

/-- What is sent enters the history. -/
def recorded (frame : Option Frame) (currentTime nextPublishTime : UInt64) : List Occurrence :=
  match frame with
  | some frame => [.frame frame currentTime nextPublishTime]
  | none => []

/-- `MmsGooseControlBlock_observedObjectChanged` -/
def observedObjectChanged (self : MmsGooseControlBlock) (currentTime : UInt64)
    (dataSetValues : List MmsValue) : Option MmsGooseControlBlock := do
  let publisher := self.publisher.increaseStNum currentTime
  let interval :=
    if 0 < eventRetransmissionCount then eventRetransmissionInterval else stableStateInterval
  let nextPublishTime := currentTime + UInt64.ofNat interval
  let (publisher, frame) ←
    (publisher.setTimeAllowedToLive (UInt32.ofNat (interval * 3))).publish dataSetValues
  some { self with
    publisher
    nextPublishTime
    retransmissionsLeft := eventRetransmissionCount
    history := self.history ++
      (.event self.publisher.stNum :: recorded frame currentTime nextPublishTime) }

/-- The comparison in `MmsGooseControlBlock_checkAndPublish`. -/
def check (self : MmsGooseControlBlock) (currentTime : UInt64) : MmsGooseControlBlock :=
  if self.nextPublishTime ≤ currentTime then { self with pending := some currentTime } else self

/-- The rest of `MmsGooseControlBlock_checkAndPublish`. -/
def publish (self : MmsGooseControlBlock) (currentTime : UInt64)
    (dataSetValues : List MmsValue) : Option MmsGooseControlBlock := do
  let (publisher, frame) ← self.publisher.publish dataSetValues
  let interval :=
    if 0 < self.retransmissionsLeft then eventRetransmissionInterval else stableStateInterval
  let timeAllowedToLive :=
    if 1 < self.retransmissionsLeft then eventRetransmissionInterval * 3
    else stableStateInterval * 3
  let nextPublishTime := currentTime + UInt64.ofNat interval
  some { self with
    publisher := publisher.setTimeAllowedToLive (UInt32.ofNat timeAllowedToLive)
    nextPublishTime
    retransmissionsLeft :=
      if 0 < self.retransmissionsLeft then self.retransmissionsLeft - 1
      else self.retransmissionsLeft
    pending := none
    history := self.history ++ recorded frame currentTime nextPublishTime }

inductive Input
  | observedObjectChanged (currentTime : UInt64) (dataSetValues : List MmsValue)
  | check (currentTime : UInt64)
  | publish (dataSetValues : List MmsValue)

def next (self : MmsGooseControlBlock) : Input → Option MmsGooseControlBlock
  | .observedObjectChanged currentTime dataSetValues =>
    self.observedObjectChanged currentTime dataSetValues
  | .check currentTime => if self.pending.isNone then some (self.check currentTime) else none
  | .publish dataSetValues => self.pending.bind (self.publish · dataSetValues)

def Step (s : MmsGooseControlBlock) (i : Input) (t : MmsGooseControlBlock) : Prop :=
  s.next i = some t

/-- What is left of an earlier time at which the control block was enabled does no harm. -/
def enabled (publisher : GoosePublisher) (nextPublishTime : UInt64) (retransmissionsLeft : Int)
    (pending : Option UInt64) : MmsGooseControlBlock :=
  { publisher, nextPublishTime, retransmissionsLeft, pending, history := [] }

end MmsGooseControlBlock

/-! ## The law -/

namespace Occurrence

/-- An event is followed by its frame, and a frame by an event or by a frame that repeats it. -/
def Follows : Occurrence → Occurrence → Prop
  | .event stNum, .frame f _ _ => f.publisher.stNum = stNum + 1 ∧ f.publisher.sqNum = 0
  | .frame f _ _, .frame g _ _ =>
    g.publisher.stNum = f.publisher.stNum ∧ g.publisher.sqNum = f.publisher.sqNum + 1
  | .frame f _ _, .event stNum => stNum = f.publisher.stNum
  | .event _, .event _ => False

instance : DecidableRel Follows
  | .event _, .frame _ _ _ => inferInstanceAs (Decidable (_ ∧ _))
  | .frame _ _ _, .frame _ _ _ => inferInstanceAs (Decidable (_ ∧ _))
  | .frame _ _ _, .event _ => inferInstanceAs (Decidable (_ = _))
  | .event _, .event _ => inferInstanceAs (Decidable False)

/-- Behind it a counter starts again at zero. -/
def Wraps : Occurrence → Prop
  | .event stNum => stNum + 1 = 0
  | .frame f _ _ => f.publisher.sqNum + 1 = 0

/-- A frame is valid until the next one is due. -/
def Outlives : Occurrence → Prop
  | .event _ => True
  | .frame f currentTime nextPublishTime =>
    (nextPublishTime - currentTime).toNat ≤ f.publisher.timeAllowedToLive.toNat

/-- What the two numbers count up. -/
def rank : Occurrence → Nat
  | .event stNum => stNum.toNat * 2 ^ 33 + 2 ^ 32
  | .frame f _ _ => f.publisher.stNum.toNat * 2 ^ 33 + f.publisher.sqNum.toNat

end Occurrence

/-- The law of retransmission, for all that has happened since the control block was enabled. Two
frames do not carry the same numbers, with other values or not, before a counter wraps. -/
structure Lawful (history : List Occurrence) : Prop where
  outlives : ∀ o ∈ history, o.Outlives
  follows : history.IsChain Occurrence.Follows
  distinct : ∀ (before between after : List Occurrence) (f g : Frame) (t n t' n' : UInt64),
    history = before ++ (.frame f t n :: (between ++ (.frame g t' n' :: after))) →
    (∀ o ∈ .frame f t n :: between, ¬ o.Wraps) →
    (f.publisher.stNum, f.publisher.sqNum) ≠ (g.publisher.stNum, g.publisher.sqNum)

namespace Occurrence

variable {a b : Occurrence}

theorem rank_lt_of_follows (hw : ¬ a.Wraps) (h : a.Follows b) : a.rank < b.rank := by
  have hsucc : ∀ n : UInt32, n + 1 ≠ 0 → (n + 1).toNat = n.toNat + 1 := by
    intro n hn
    have hlt : n.toNat + 1 < 2 ^ 32 := by
      by_contra hle
      have hn' : n.toNat = 2 ^ 32 - 1 := by
        have := n.toNat_lt
        omega
      refine hn (UInt32.toNat_inj.mp ?_)
      rw [UInt32.toNat_add, hn']
      rfl
    rw [UInt32.toNat_add, UInt32.toNat_one, Nat.mod_eq_of_lt hlt]
  cases a with
  | event stNum =>
    cases b with
    | event => exact h.elim
    | frame g =>
      obtain ⟨hst, hsq⟩ := h
      rw [rank, rank, hst, hsq, hsucc stNum hw]
      omega
  | frame f =>
    cases b with
    | event stNum =>
      obtain rfl : stNum = f.publisher.stNum := h
      have := f.publisher.sqNum.toNat_lt
      rw [rank, rank]
      omega
    | frame g =>
      obtain ⟨hst, hsq⟩ := h
      rw [rank, rank, hst, hsq, hsucc _ hw]
      omega

end Occurrence

/-- What follows in a chain has numbers of its own. -/
theorem distinct_of_follows {before between after : List Occurrence} {f g : Frame}
    {t n t' n' : UInt64} (h : List.IsChain Occurrence.Follows
      (before ++ (.frame f t n :: (between ++ (.frame g t' n' :: after)))))
    (hw : ∀ o ∈ .frame f t n :: between, ¬ o.Wraps) :
    (f.publisher.stNum, f.publisher.sqNum) ≠ (g.publisher.stNum, g.publisher.sqNum) := by
  intro heq
  obtain ⟨hst, hsq⟩ := Prod.mk.inj heq
  have hchain := h.right_of_append
  rw [← List.singleton_append (l := after), ← List.append_assoc, ← List.cons_append] at hchain
  have hlt := Transition.rank_lt_of_isChain Occurrence.rank
    (fun a b => Occurrence.rank_lt_of_follows) hchain.left_of_append hw
  rw [Occurrence.rank, Occurrence.rank, hst, hsq] at hlt
  exact Nat.lt_irrefl _ hlt

namespace MmsGooseControlBlock

variable {s t : MmsGooseControlBlock}

/-- The frame that an input sends has room for its values. -/
def Fits (s : MmsGooseControlBlock) : Input → Prop
  | .observedObjectChanged currentTime dataSetValues =>
    ((s.publisher.increaseStNum currentTime).setTimeAllowedToLive
      (UInt32.ofNat (eventRetransmissionInterval * 3))).Fits dataSetValues
  | .check _ => True
  | .publish dataSetValues => s.publisher.Fits dataSetValues

instance (s : MmsGooseControlBlock) : (i : Input) → Decidable (s.Fits i)
  | .observedObjectChanged _ _ => inferInstanceAs (Decidable (GoosePublisher.Fits _ _))
  | .check _ => inferInstanceAs (Decidable True)
  | .publish _ => inferInstanceAs (Decidable (GoosePublisher.Fits _ _))

/-- What is kept while all frames are sent: the publisher has the numbers of the next frame, and the
time it allows is that of the interval that comes next. -/
structure Orderly (s : MmsGooseControlBlock) : Prop where
  outlives : ∀ o ∈ s.history, o.Outlives
  follows : s.history.IsChain Occurrence.Follows
  last : ∀ o ∈ s.history.getLast?, ∃ f t n, o = .frame f t n ∧
    s.publisher.stNum = f.publisher.stNum ∧ s.publisher.sqNum = f.publisher.sqNum + 1
  stable : s.retransmissionsLeft ≤ 0 → s.publisher.timeAllowedToLive = 15000
  live : 1500 ≤ s.publisher.timeAllowedToLive.toNat

theorem orderly_enabled (settings : GooseSettings)
    (srcAddr : { octets : List UInt8 // octets.length = 6 }) (currentTime nextPublishTime : UInt64)
    (retransmissionsLeft : Int) (pending : Option UInt64) :
    (enabled (settings.enable srcAddr currentTime) nextPublishTime retransmissionsLeft
      pending).Orderly where
  outlives := fun _ h => absurd h List.not_mem_nil
  follows := .nil
  last := by
    intro o ho
    cases ho
  stable := fun _ => rfl
  live := by
    change 1500 ≤ (15000 : UInt32).toNat
    decide

theorem sub_le_of_interval (currentTime : UInt64) {interval n : Nat} (h : interval ≤ n) :
    (currentTime + UInt64.ofNat interval - currentTime).toNat ≤ n := by
  rw [UInt64.add_comm, UInt64.add_sub_cancel, UInt64.toNat_ofNat']
  exact (Nat.mod_le _ _).trans h

/-- Frames enter the history one by one. -/
theorem Orderly.snoc (h : s.Orderly) {f : Frame} {currentTime nextPublishTime : UInt64}
    (hf : f.publisher = s.publisher)
    (ho : (Occurrence.frame f currentTime nextPublishTime).Outlives) :
    (∀ o ∈ s.history ++ [Occurrence.frame f currentTime nextPublishTime], o.Outlives) ∧
      (s.history ++ [Occurrence.frame f currentTime nextPublishTime]).IsChain Occurrence.Follows := by
  refine ⟨List.forall_mem_append.mpr ⟨h.outlives, List.forall_mem_singleton.mpr ho⟩, ?_⟩
  refine Transition.isChain_snoc h.follows fun o hlast => ?_
  obtain ⟨g, _, _, rfl, hnumbers⟩ := h.last o hlast
  rw [← hf] at hnumbers
  exact hnumbers

theorem Orderly.publish (h : s.Orderly) {currentTime : UInt64} {dataSetValues : List MmsValue}
    (hfits : s.publisher.Fits dataSetValues)
    (ht : s.publish currentTime dataSetValues = some t) : t.Orderly := by
  rw [MmsGooseControlBlock.publish, hfits.publish, Option.bind_eq_bind, Option.bind_some] at ht
  have hlive := h.live
  have hinterval : (if 0 < s.retransmissionsLeft then eventRetransmissionInterval
      else stableStateInterval) ≤ s.publisher.timeAllowedToLive.toNat := by
    split
    · exact Nat.le_trans (by decide) hlive
    case isFalse hleft =>
      rw [h.stable (Int.not_lt.mp hleft)]
      decide
  obtain ⟨houtlives, hfollows⟩ := h.snoc (f := ⟨s.publisher, dataSetValues,
    s.publisher.packet (s.publisher.goosePdu dataSetValues)⟩) rfl
    (sub_le_of_interval currentTime hinterval)
  cases ht
  refine ⟨houtlives, hfollows, fun o ho => ?_, fun hleft => ?_, ?_⟩
  · obtain rfl := Option.some.inj (List.getLast?_concat.symm.trans ho)
    exact ⟨_, _, _, rfl, rfl, rfl⟩
  · dsimp only at hleft ⊢
    rw [if_neg (by split at hleft <;> omega)]
    rfl
  · dsimp only [GoosePublisher.setTimeAllowedToLive]
    split <;> decide

theorem Orderly.observedObjectChanged (h : s.Orderly) {currentTime : UInt64}
    {dataSetValues : List MmsValue}
    (hfits : s.Fits (.observedObjectChanged currentTime dataSetValues))
    (ht : s.observedObjectChanged currentTime dataSetValues = some t) : t.Orderly := by
  have hfits' : ((s.publisher.increaseStNum currentTime).setTimeAllowedToLive (UInt32.ofNat
      (eventRetransmissionInterval * 3))).Fits dataSetValues := hfits
  rw [MmsGooseControlBlock.observedObjectChanged, if_pos (by decide), hfits'.publish,
    Option.bind_eq_bind, Option.bind_some] at ht
  cases ht
  have hlive : (UInt32.ofNat (eventRetransmissionInterval * 3)).toNat = 1500 := by decide
  have hevent : (s.history ++ [Occurrence.event s.publisher.stNum]).IsChain Occurrence.Follows := by
    refine Transition.isChain_snoc h.follows fun o hlast => ?_
    obtain ⟨f, t, n, rfl, hst, -⟩ := h.last o hlast
    exact hst
  refine ⟨?_, ?_, fun o ho => ?_, fun hleft => ?_, ?_⟩
  · refine List.forall_mem_append.mpr ⟨h.outlives, List.forall_mem_cons.mpr ⟨trivial, ?_⟩⟩
    refine List.forall_mem_singleton.mpr (sub_le_of_interval currentTime ?_)
    exact Nat.le_trans (by decide) hlive.ge
  · rw [← List.singleton_append, ← List.append_assoc]
    refine Transition.isChain_snoc hevent fun o hlast => ?_
    obtain rfl := Option.some.inj (List.getLast?_concat.symm.trans hlast)
    exact ⟨rfl, rfl⟩
  · rw [recorded, List.getLast?_append_of_ne_nil _ (List.cons_ne_nil _ _)] at ho
    obtain rfl := Option.some.inj ho
    exact ⟨_, _, _, rfl, rfl, rfl⟩
  · exact absurd hleft (Int.not_le.mpr (by decide : (0 : Int) < eventRetransmissionCount))
  · exact hlive.ge

/-- Every step whose frame has room keeps the order. -/
theorem Orderly.step (h : s.Orderly) {i : Input} (hg : s.Fits i) (ht : s.Step i t) :
    t.Orderly := by
  cases i with
  | observedObjectChanged currentTime dataSetValues => exact h.observedObjectChanged hg ht
  | check currentTime =>
    obtain ⟨-, ht⟩ := Option.ite_none_right_eq_some.mp ht
    cases ht
    unfold MmsGooseControlBlock.check
    split
    · exact ⟨h.outlives, h.follows, h.last, h.stable, h.live⟩
    · exact h
  | publish dataSetValues =>
    obtain ⟨currentTime, -, ht⟩ := Option.bind_eq_some_iff.mp ht
    exact h.publish hg ht

/-- However events and the thread for events take turns after a control block has been enabled, its
frames follow the law as long as their values have room in them. -/
theorem lawful_of_fits (settings : GooseSettings)
    (srcAddr : { octets : List UInt8 // octets.length = 6 }) (currentTime nextPublishTime : UInt64)
    (retransmissionsLeft : Int) (pending : Option UInt64) {inputs : List Input}
    (hr : Transition.Run Step Fits (enabled (settings.enable srcAddr currentTime) nextPublishTime
      retransmissionsLeft pending) inputs s) : Lawful s.history := by
  have h : s.Orderly := hr.invariant (orderly_enabled settings srcAddr currentTime nextPublishTime
    retransmissionsLeft pending) fun _ _ _ h hg ht => h.step hg ht
  exact ⟨h.outlives, h.follows, fun _ _ _ _ _ _ _ _ _ heq hw =>
    distinct_of_follows (heq ▸ h.follows) hw⟩

def exampleSettings : GooseSettings where
  commParameters := ⟨4, 0, 0x1000, [0x01, 0x0c, 0xcd, 0x01, 0x00, 0x01], rfl⟩
  goCBRef := [0x4c, 0x2f, 0x63]
  goId := none
  dataSetRef := [0x4c, 0x2f, 0x64]
  confRev := 1
  needsCom := false

/-- The control block has been enabled at the time 1000 for the first time. -/
def exampleEnabled : MmsGooseControlBlock :=
  enabled (exampleSettings.enable ⟨[0, 0, 0, 0, 0, 1], rfl⟩ 1000) 0 0 none

/-- A description of `n` letters. -/
def description (n : Nat) : MmsValue :=
  .visibleString (some ⟨List.replicate n 0x61, fun h => by cases List.eq_of_mem_replicate h⟩)

/-- A tick, an event and another tick, which send a frame each. -/
theorem lawful_of_fits_three : ∃ inputs s, Transition.Run Step Fits exampleEnabled inputs s ∧
    s.history.length = 4 ∧ Lawful s.history := by
  have hf : (Transition.follow next Fits exampleEnabled [.check 1000, .publish [.boolean false],
      .observedObjectChanged 2000 [.boolean true], .check 2600, .publish [.boolean true]]).map
      (·.history.length) = some 4 := by decide +kernel
  obtain ⟨s, hf, hlength⟩ := Option.map_eq_some_iff.mp hf
  have hr : Transition.Run Step Fits exampleEnabled _ s :=
    Transition.run_of_follow (fun _ _ _ h => h) hf
  exact ⟨_, s, hr, hlength, lawful_of_fits exampleSettings _ 1000 0 0 none hr⟩

/-- The frame of an event is too long to be sent, and the next frame, with a shorter value, carries
the sequence number that a repetition has. -/
theorem event_frame_left_out : ∃ inputs s,
    Transition.Run Step (fun _ _ => True) exampleEnabled inputs s ∧ ¬ Lawful s.history := by
  have hf : (Transition.follow next (fun _ _ => True) exampleEnabled
      [.observedObjectChanged 2000 (List.replicate 6 (description 255)), .check 2600,
        .publish (description 0 :: List.replicate 5 (description 255))]).map
      (fun s => decide (s.history.IsChain Occurrence.Follows)) = some false := by decide +kernel
  obtain ⟨s, hf, hchain⟩ := Option.map_eq_some_iff.mp hf
  exact ⟨_, s, Transition.run_of_follow (fun _ _ _ h => h) hf,
    fun h => of_decide_eq_false hchain h.follows⟩

end MmsGooseControlBlock

end Goose

end Iec61850
