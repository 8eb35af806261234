import Iec61850.File.Download
import Iec61850.Lib.Transition

/-! `ied_connection.c`: how a connection to a server comes and goes. The calls are those of one
thread; the thread that handles the association ends when it will, between two calls or in one. -/

namespace Iec61850.Lifecycle

open Machine

inductive IedConnectionState
  | idle | connected | closed
  deriving DecidableEq

inductive ConnectionState
  | idle | waiting | associationFailed | associated
  deriving DecidableEq

inductive AssociationState
  | closed | connected
  deriving DecidableEq

structure MmsConnection where
  connectionState : ConnectionState
  associationState : AssociationState
  connectionLostHandler : Bool
  /-- The `connectionHandlingThread` of its `isoClient` runs: an association is up. -/
  handled : Bool

structure IedConnection where
  connection : Option MmsConnection
  state : IedConnectionState

/-- What the calls report. -/
inductive CallError
  | service (error : IedClientError)
  | connectionRejected | alreadyConnected | notConnected

/-- What the peer makes of a request to associate. The upper layers accept one that is rejected,
but with a message that is no initiate response. -/
inductive Attempt
  | refused | rejected | accepted
  deriving DecidableEq

/-- Where `MmsConnection_connect` is when the association is lost: before it looks at
`connectionState`, between that and the new `associationState`, before it looks at that, and when
it has. -/
inductive Moment
  | waiting | deciding | decided | answered
  deriving DecidableEq

def MmsConnection.create : MmsConnection where
  connectionState := .idle
  associationState := .closed
  connectionLostHandler := false
  handled := false

/-- `IsoClientConnection_associate`, with what it indicates. -/
def MmsConnection.associate (attempt : Attempt) (self : MmsConnection) : MmsConnection :=
  match attempt with
  | .refused => { self with connectionState := .associationFailed, associationState := .closed }
  | .rejected => { self with handled := true }
  | .accepted => { self with connectionState := .associated, handled := true }

namespace IedConnection

def create : IedConnection where
  connection := some MmsConnection.create
  state := .idle

def update (f : MmsConnection → MmsConnection) (self : IedConnection) : IedConnection :=
  { self with connection := self.connection.map f }

/-- The thread indicates its end: `mmsIsoCallback`, and with it `connectionLostHandler`. -/
def connectionLost (self : IedConnection) : IedConnection :=
  match self.connection with
  | none => self
  | some connection =>
    if connection.handled then
      { connection := some { connection with
          connectionState := .idle, associationState := .closed, handled := false }
        state := if connection.connectionLostHandler then .closed else self.state }
    else self

/-- `MmsConnection_destroy` waits for the thread. -/
def destroyConnection (self : IedConnection) : IedConnection :=
  { self.connectionLost with connection := none }

def lostAt (lost : Option Moment) (moment : Moment) (self : IedConnection) : IedConnection :=
  if lost = some moment then self.connectionLost else self

/-- The end of `MmsConnection_connect`, when the response is there or the time is over. -/
def decide (lost : Option Moment) (self : IedConnection) : IedConnection :=
  if self.connection.any (·.connectionState = .associated) then
    (self.lostAt lost .deciding).update ({ · with associationState := .connected })
  else self.update ({ · with associationState := .closed })

/-- `MmsConnection_connect`, with what it returns. -/
def mmsConnect (attempt : Attempt) (lost : Option Moment) (self : IedConnection) :
    Bool × IedConnection :=
  let self := self.update fun connection =>
    { connection with connectionState := .waiting }.associate attempt
  let self := (self.lostAt lost .waiting).decide lost
  let self := (self.update ({ · with connectionState := .idle })).lostAt lost .decided
  (self.connection.any (·.associationState = .connected), self.lostAt lost .answered)

def connect (attempt : Attempt) (lost : Option Moment) (self : IedConnection) :
    Exec (CallError × IedConnection) :=
  if self.state ≠ .connected then
    match self.connection with
    | none => .error .nullPointer
    | some connection =>
      let self := { self with connection := some { connection with connectionLostHandler := true } }
      match self.mmsConnect attempt lost with
      | (true, self) => .ok (.service .ok, { self with state := .connected })
      | (false, self) => .ok (.connectionRejected, self.destroyConnection)
  else .ok (.alreadyConnected, self)

def abort (self : IedConnection) : Exec (CallError × IedConnection) :=
  if self.state = .connected then
    let self := { self with state := .closed }
    match self.connection with
    | none => .error .nullPointer
    | some _ => .ok (.service .ok, self.destroyConnection)
  else .ok (.notConnected, self)

/-- The error is that of `MmsConnection_conclude`, which leaves the rest to the peer. -/
def release (error : IedClientError) (self : IedConnection) : Exec (CallError × IedConnection) :=
  if self.state = .connected then
    match self.connection with
    | none => .error .nullPointer
    | some _ => .ok (.service error, self)
  else .ok (.notConnected, self)

def close (self : IedConnection) : IedConnection :=
  let self := if self.state = .connected then { self with state := .closed } else self
  match self.connection with
  | none => self
  | some _ => self.destroyConnection

end IedConnection

inductive Event
  | connect (attempt : Attempt) (lost : Option Moment)
  | release (error : IedClientError)
  | abort
  | close
  | connectionLost

def step (self : IedConnection) : Event → Exec IedConnection
  | .connect attempt lost => do return (← self.connect attempt lost).2
  | .release error => do return (← self.release error).2
  | .abort => do return (← self.abort).2
  | .close => .ok self.close
  | .connectionLost => .ok self.connectionLost

/-- An association is up. -/
def IedConnection.Associated (self : IedConnection) : Prop :=
  ∃ connection, self.connection = some connection ∧ connection.handled = true

/-- No call fails, and the state says whether there is an association. -/
def Consistent (events : List Event) : Prop :=
  Transition.Always step .create (fun self => self.state = .connected ↔ self.Associated) events

/-- An attempt to connect finds a connection object, and an association that comes of it is not
lost between a look at how it stands and what is noted about it. -/
def Event.Safe (self : IedConnection) : Event → Prop
  | .connect attempt lost => self.state ≠ .connected → self.connection ≠ none ∧
      (attempt = .accepted → lost ≠ some .deciding ∧ lost ≠ some .answered)
  | _ => True

/-! ## What one event does -/

/-- The state says whether there is an association, whose end will be told. -/
structure IedConnection.Good (c : IedConnection) : Prop where
  state : c.state = .connected ↔ c.Associated
  told : ∀ connection, c.connection = some connection → connection.handled = true →
    connection.connectionLostHandler = true

namespace IedConnection

variable {self self' : IedConnection} {connection : MmsConnection} {attempt : Attempt}
  {lost : Option Moment}

theorem not_associated_of_none (h : self.connection = none) : ¬ self.Associated := by
  rintro ⟨connection, hconnection, -⟩
  rw [h] at hconnection
  cases hconnection

theorem good_of_none (hconnection : self.connection = none) (hstate : self.state ≠ .connected) :
    self.Good where
  state := iff_of_false hstate (not_associated_of_none hconnection)
  told := by
    intro connection h
    rw [hconnection] at h
    cases h

theorem destroyConnection_connection : self.destroyConnection.connection = none := rfl

/-- The end of an association is told when it is not the calls that come first. -/
theorem state_connectionLost (h : self.state ≠ .connected) :
    self.connectionLost.state ≠ .connected := by
  unfold connectionLost
  split
  · exact h
  · split
    · dsimp only
      split
      · decide
      · exact h
    · exact h

theorem good_destroyConnection (h : self.state ≠ .connected) : self.destroyConnection.Good :=
  good_of_none destroyConnection_connection (state_connectionLost h)

theorem Good.connectionLost (h : self.Good) : self.connectionLost.Good := by
  cases hconnection : self.connection with
  | none =>
    have heq : self.connectionLost = self := by
      unfold IedConnection.connectionLost
      rw [hconnection]
    rwa [heq]
  | some connection =>
    cases hhandled : connection.handled with
    | false =>
      have heq : self.connectionLost = self := by
        simp only [IedConnection.connectionLost, hconnection, hhandled]
        rfl
      rwa [heq]
    | true =>
      have hhandler := h.told connection hconnection hhandled
      simp only [IedConnection.connectionLost, hconnection, hhandled, hhandler, if_true]
      refine ⟨iff_of_false nofun ?_, ?_⟩
      · rintro ⟨connection', h', hhandled'⟩
        cases h'
        cases hhandled'
      · intro connection' h' hhandled'
        cases h'
        cases hhandled'

/-- A connection that is not connected has no association. -/
theorem Good.handled_eq_false (h : self.Good) (hstate : self.state ≠ .connected)
    (hconnection : self.connection = some connection) : connection.handled = false :=
  Bool.eq_false_iff.mpr fun hhandled =>
    hstate (h.state.mpr ⟨connection, hconnection, hhandled⟩)

theorem Good.connection_ne_none (h : self.Good) (hstate : self.state = .connected) :
    ∃ connection, self.connection = some connection :=
  (h.state.mp hstate).imp fun _ h => h.1

/-- An attempt that succeeds, unless the association is lost in the meantime. -/
theorem connect_accepted (hstate : self.state ≠ .connected)
    (hconnection : self.connection = some connection) (hwaiting : lost ≠ some .waiting)
    (hdecided : lost ≠ some .decided) :
    ∃ connection', self.connect .accepted lost =
        .ok (.service .ok, { connection := some connection', state := .connected }) ∧
      connection'.connectionLostHandler = true ∧
      (connection'.handled = true ↔ lost ≠ some .deciding ∧ lost ≠ some .answered) := by
  unfold connect
  rw [if_pos hstate, hconnection]
  match lost with
  | none => exact ⟨_, rfl, rfl, iff_of_true rfl (by decide)⟩
  | some .waiting => exact absurd rfl hwaiting
  | some .deciding => exact ⟨_, rfl, rfl, iff_of_false Bool.false_ne_true (by decide)⟩
  | some .decided => exact absurd rfl hdecided
  | some .answered => exact ⟨_, rfl, rfl, iff_of_false Bool.false_ne_true (by decide)⟩

/-- Any other attempt fails, and then there is no connection object. -/
theorem connect_fails (hstate : self.state ≠ .connected)
    (hconnection : self.connection = some connection) (hhandled : connection.handled = false)
    (hfails : attempt = .accepted → lost = some .waiting ∨ lost = some .decided) :
    ∃ state, self.connect attempt lost =
        .ok (.connectionRejected, { connection := none, state := state }) ∧
      state ≠ .connected := by
  obtain ⟨connectionState, associationState, handler, handled⟩ := connection
  obtain ⟨connection, state⟩ := self
  cases hconnection
  cases hhandled
  unfold connect
  rw [if_pos hstate]
  cases attempt with
  | refused => rcases lost with _ | _ | _ | _ | _ <;> exact ⟨state, rfl, hstate⟩
  | rejected =>
    -- the thread has run, and its end has been told
    rcases lost with _ | _ | _ | _ | _ <;> exact ⟨.closed, rfl, by decide⟩
  | accepted =>
    obtain rfl | rfl := hfails rfl
    · exact ⟨.closed, rfl, by decide⟩
    · exact ⟨.closed, rfl, by decide⟩

theorem Good.connect (h : self.Good) (hsafe : (Event.connect attempt lost).Safe self) :
    ∃ error self', self.connect attempt lost = .ok (error, self') ∧ self'.Good := by
  by_cases hstate : self.state = .connected
  · refine ⟨.alreadyConnected, self, ?_, h⟩
    unfold IedConnection.connect
    rw [if_neg (not_not.mpr hstate)]
  · obtain ⟨hpresent, htimes⟩ := hsafe hstate
    obtain ⟨connection, hconnection⟩ := Option.ne_none_iff_exists'.mp hpresent
    by_cases hfails : attempt = .accepted → lost = some .waiting ∨ lost = some .decided
    · obtain ⟨state, hconnect, hstate'⟩ :=
        connect_fails hstate hconnection (h.handled_eq_false hstate hconnection) hfails
      exact ⟨_, _, hconnect, good_of_none rfl hstate'⟩
    · obtain ⟨rfl, hlost⟩ := Classical.not_imp.mp hfails
      obtain ⟨hwaiting, hdecided⟩ := not_or.mp hlost
      obtain ⟨connection', hconnect, htold, hhandled⟩ :=
        connect_accepted hstate hconnection hwaiting hdecided
      refine ⟨_, _, hconnect, ?_, ?_⟩
      · exact iff_of_true rfl ⟨connection', rfl, hhandled.mpr (htimes rfl)⟩
      · intro other hother _
        cases hother
        exact htold

theorem Good.abort (h : self.Good) :
    ∃ error self', self.abort = .ok (error, self') ∧ self'.Good := by
  by_cases hstate : self.state = .connected
  · obtain ⟨connection, hconnection⟩ := h.connection_ne_none hstate
    have hclosed : ({ self with state := .closed } : IedConnection).destroyConnection.Good :=
      good_destroyConnection IedConnectionState.noConfusion
    refine ⟨.service .ok, _, ?_, hclosed⟩
    unfold IedConnection.abort
    rw [if_pos hstate]
    simp only [hconnection]
  · refine ⟨.notConnected, self, ?_, h⟩
    unfold IedConnection.abort
    rw [if_neg hstate]

theorem Good.release (h : self.Good) (error : IedClientError) :
    ∃ error', self.release error = .ok (error', self) := by
  unfold IedConnection.release
  by_cases hstate : self.state = .connected
  · obtain ⟨connection, hconnection⟩ := h.connection_ne_none hstate
    rw [if_pos hstate, hconnection]
    exact ⟨_, rfl⟩
  · rw [if_neg hstate]
    exact ⟨_, rfl⟩

theorem Good.close (h : self.Good) : self.close.Good := by
  by_cases hstate : self.state = .connected
  · obtain ⟨connection, hconnection⟩ := h.connection_ne_none hstate
    have hclosed : ({ self with state := .closed } : IedConnection).destroyConnection.Good :=
      good_destroyConnection IedConnectionState.noConfusion
    unfold IedConnection.close
    rw [if_pos hstate]
    simp only [hconnection]
    rwa [hconnection] at hclosed
  · unfold IedConnection.close
    rw [if_neg hstate]
    cases hconnection : self.connection with
    | none => simp only [hconnection, h]
    | some connection =>
      simp only [hconnection]
      exact good_destroyConnection hstate

end IedConnection

variable {self self' : IedConnection} {e : Event}

theorem IedConnection.Good.step (h : self.Good) (hsafe : e.Safe self) :
    ∃ self', step self e = .ok self' ∧ self'.Good := by
  cases e with
  | connect attempt lost =>
    obtain ⟨error, self', hconnect, hself'⟩ := h.connect hsafe
    exact ⟨self', by rw [Lifecycle.step, hconnect]; rfl, hself'⟩
  | release error =>
    obtain ⟨error', hrelease⟩ := h.release error
    exact ⟨self, by rw [Lifecycle.step, hrelease]; rfl, h⟩
  | abort =>
    obtain ⟨error, self', habort, hself'⟩ := h.abort
    exact ⟨self', by rw [Lifecycle.step, habort]; rfl, hself'⟩
  | close => exact ⟨_, rfl, h.close⟩
  | connectionLost => exact ⟨_, rfl, h.connectionLost⟩

end Iec61850.Lifecycle
