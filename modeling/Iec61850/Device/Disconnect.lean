import Iec61850.Control.Revocation
import Iec61850.Report.Ownership

/-! `mmsConnectionHandler`: what a client that has gone leaves behind in the control objects and
the report control blocks of a device. -/

namespace Iec61850

open Machine Control Reporting

namespace Control.ControlObject

/-- The connection has selected the object, operates it, or has an operation that waits for its
time. -/
def HeldBy (object : ControlObject) (connection : Control.Connection) : Prop :=
  object.clientConnection = some connection ∧
    (object.timeActivatedOperate = true ∨
      if object.isSelectBeforeOperate then object.state ≠ .unselected else object.state ≠ .ready)

/-- `abortControlOperation` gives up all that a client may have: nothing waits for its time, and an
object that is selected before is operated once for each selection. -/
def Abortable (object : ControlObject) : Prop :=
  object.timeActivatedOperate = false ∧
    (object.isSelectBeforeOperate = true → object.isSboClassOperateOnce = true)

end Control.ControlObject

/-- The control objects and the report control blocks, and the connections that are gone. -/
structure MmsMapping where
  controlObjects : List Control.Server
  reportControls : List OwnedBlock
  closed : List Control.Connection

namespace MmsMapping

abbrev Connection := Nat

inductive Event
  | control (index : Nat) (e : Control.Event)
  | report (index : Nat) (e : Reporting.Event)
  | removeClientConnection (connection : Connection)
  | release (connection : Connection)

/-- The walk ends behind the first object of the connection. -/
def unselectControlsForConnection (connection : Connection) :
    List Control.Server → List Control.Server
  | [] => []
  | server :: servers =>
    if server.object.clientConnection = some connection then
      { server with object := server.object.unselect connection } :: servers
    else server :: unselectControlsForConnection connection servers

def deactivateReportsForConnection (connection : Connection) (blocks : List OwnedBlock) :
    List OwnedBlock :=
  blocks.map fun block =>
    { block with rc := block.rc.deactivateReportsForConnection connection }

/-- The end of a connection up to the wait for its control threads. -/
def removeClientConnection (s : MmsMapping) (connection : Connection) : MmsMapping :=
  { s with
    controlObjects := s.controlObjects.map fun server =>
      { server with closed := connection :: server.closed }
    closed := connection :: s.closed }

/-- The rest of it. -/
def release (s : MmsMapping) (connection : Connection) : MmsMapping :=
  { s with
    reportControls := deactivateReportsForConnection connection s.reportControls
    controlObjects := unselectControlsForConnection connection s.controlObjects }

def step (s : MmsMapping) : Event → Exec MmsMapping
  | .control index e =>
    match s.controlObjects[index]? with
    | none => .ok s
    | some server => do
      let (server, _) ← server.step e
      return { s with controlObjects := s.controlObjects.set index server }
  | .report index e =>
    match s.reportControls[index]? with
    | none => .ok s
    | some block => do
      let (block, _) ← block.handle e
      return { s with reportControls := s.reportControls.set index block }
  | .removeClientConnection connection => .ok (s.removeClientConnection connection)
  | .release connection => .ok (s.release connection)

abbrev Step (s : MmsMapping) (e : Event) (s' : MmsMapping) : Prop := s.step e = .ok s'

/-- Clean-up comes from the handler alone. -/
def IsRequest : Control.Event → Prop
  | .connectionClosed _ => False
  | .unselect _ => False
  | _ => True

/-- The threads of the connection have finished. -/
def TasksFinished (s : MmsMapping) (connection : Connection) : Prop :=
  ∀ server ∈ s.controlObjects, ∀ worker ∈ server.workers, worker.task ≠ some connection

/-- What can happen: requests of connections that are there, and the ends of connections. -/
def Permits (s : MmsMapping) : Event → Prop
  | .control index e =>
    IsRequest e ∧ ∀ server, s.controlObjects[index]? = some server → server.Permits e
  | .report index e =>
    (∀ block, s.reportControls[index]? = some block → block.rc.Receives e) ∧
      match e with
      | .writeAccessHandler _ w => w.connection ∉ s.closed
      | .deactivateReportsForConnection _ => False
      | _ => True
  | .removeClientConnection connection => connection ∉ s.closed
  | .release connection => connection ∈ s.closed ∧ s.TasksFinished connection

/-- The report control blocks are written with respect for who has reserved them. -/
def Respects (s : MmsMapping) (e : Event) : Prop :=
  s.Permits e ∧
    match e with
    | .report index e => ∀ block, s.reportControls[index]? = some block → block.Respects e
    | _ => True

/-- Nothing is left of the connection, and what belongs to others is as it was. -/
structure Releases (s : MmsMapping) (connection : Connection) (s' : MmsMapping) : Prop where
  controls : ∀ server ∈ s'.controlObjects, ¬ server.object.HeldBy connection
  blocks : ∀ block ∈ s'.reportControls, ¬ block.Holder connection
  otherControls : ∀ (index : Nat) (server : Control.Server) (other : Connection),
    s.controlObjects[index]? = some server → server.object.clientConnection = some other →
      other ≠ connection → s'.controlObjects[index]? = some server
  otherBlocks : ∀ (index : Nat) (block : OwnedBlock) (other : Connection),
    s.reportControls[index]? = some block → block.Holder other → other ≠ connection →
      s'.reportControls[index]? = some block

/-- The first object of the connection can be aborted, and the other ones are not held by it. -/
def Releasable (connection : Connection) : List Control.Server → Prop
  | [] => True
  | server :: servers =>
    if server.object.clientConnection = some connection then
      server.object.Abortable ∧ ∀ other ∈ servers, ¬ other.object.HeldBy connection
    else Releasable connection servers

/-- What is configured of a control object. -/
structure ControlConfiguration where
  ctlModel : UInt32
  sbo : MmsValue.CString
  sboClass : Option Int32
  sboTimeout : Option UInt32
  oper : MmsValue

/-- What is configured of a report control block. -/
structure ReportConfiguration where
  dataSets : DataSets
  buffered : Bool
  rcb : ReportControlBlock
  memoryBlockSize : Nat
  reportTime : UInt64

def start (controls : List ControlConfiguration) (reports : List ReportConfiguration) :
    MmsMapping where
  controlObjects := controls.map fun c =>
    .create (.create c.ctlModel c.sbo c.sboClass c.sboTimeout c.oper)
  reportControls := reports.map fun r =>
    .start r.dataSets r.buffered r.rcb r.memoryBlockSize r.reportTime
  closed := []

/-! ## Control objects -/

variable {connection : Connection} {servers : List Control.Server}

theorem not_heldBy_unselect {object : ControlObject}
    (h : object.clientConnection = some connection) :
    ¬ (object.unselect connection).HeldBy connection ↔ object.Abortable := by
  rw [ControlObject.unselect, if_pos h]
  unfold ControlObject.HeldBy ControlObject.Abortable
  change ¬ (object.clientConnection = _ ∧ (object.timeActivatedOperate = true ∨
    if object.isSelectBeforeOperate = true then _ else _)) ↔ _
  rw [ControlObject.abortControlOperation]
  dsimp only
  cases object.isSelectBeforeOperate <;> cases object.isSboClassOperateOnce <;> simp [h]

/-- The walk leaves nothing to the connection exactly if one step is enough. -/
theorem unselect_releases_iff :
    (∀ server ∈ unselectControlsForConnection connection servers,
      ¬ server.object.HeldBy connection) ↔ Releasable connection servers := by
  induction servers with
  | nil => exact ⟨fun _ => trivial, fun _ _ h => (nomatch h)⟩
  | cons server servers ih =>
    rw [unselectControlsForConnection, Releasable]
    by_cases hc : server.object.clientConnection = some connection
    · rw [if_pos hc, if_pos hc, List.forall_mem_cons]
      exact and_congr_left' (not_heldBy_unselect hc)
    · rw [if_neg hc, if_neg hc, List.forall_mem_cons, ih]
      exact and_iff_right fun h => hc h.1

theorem getElem?_unselectControlsForConnection {index : Nat} {server : Control.Server}
    (h : servers[index]? = some server) (hc : server.object.clientConnection ≠ some connection) :
    (unselectControlsForConnection connection servers)[index]? = some server := by
  induction servers generalizing index with
  | nil => cases h
  | cons first rest ih =>
    rw [unselectControlsForConnection]
    cases index with
    | zero =>
      obtain rfl := Option.some.inj h
      rw [if_neg hc]
      rfl
    | succ index =>
      split
      · exact h
      · exact ih h

/-! ## Report control blocks -/

variable {block : OwnedBlock}

theorem clientConnection_of_holder (h : block.Owned) (hh : block.Holder connection) :
    block.rc.clientConnection = some connection := by
  rcases hh with ⟨he, hby⟩ | ⟨hr, hby⟩
  · obtain ⟨a, ha, hclient⟩ := h.enabled he
    rw [hclient, Option.some.inj (ha.symm.trans hby)]
  · obtain ⟨a, ha, hclient⟩ := h.reserved hr
    rw [hclient, Option.some.inj (ha.symm.trans hby)]

theorem not_holder_deactivated (h : block.Owned) :
    ¬ OwnedBlock.Holder
      { block with rc := block.rc.deactivateReportsForConnection connection } connection := by
  rw [ReportControl.deactivateReportsForConnection]
  by_cases hc : block.rc.clientConnection = some connection
  · rw [if_pos hc]
    rintro (⟨he, -⟩ | ⟨hr, -⟩)
    · dsimp only at he
      split at he <;> cases he
    · dsimp only at hr
      split at hr
      · rename_i hbuffered
        cases (h.buffered hbuffered).symm.trans hr
      · cases hr
  · rw [if_neg hc]
    exact fun hh => hc (clientConnection_of_holder h hh)

theorem deactivate_of_other (h : block.Owned) {other : Connection} (hh : block.Holder other)
    (hne : other ≠ connection) :
    block.rc.deactivateReportsForConnection connection = block.rc := by
  rw [ReportControl.deactivateReportsForConnection, if_neg]
  rw [clientConnection_of_holder h hh]
  exact fun heq => hne (Option.some.inj heq)

/-! ## Runs -/

variable {s s' : MmsMapping}

def AllOwned (s : MmsMapping) : Prop := ∀ block ∈ s.reportControls, block.Owned

theorem AllOwned.start (controls : List ControlConfiguration) (reports : List ReportConfiguration) :
    (start controls reports).AllOwned := by
  intro block hb
  obtain ⟨r, -, rfl⟩ := List.mem_map.mp hb
  exact OwnedBlock.Owned.start r.dataSets r.buffered r.rcb r.memoryBlockSize r.reportTime

theorem AllOwned.step (h : s.AllOwned) {e : Event} (hg : s.Respects e) (hs : s.Step e s') :
    s'.AllOwned := by
  cases e with
  | control index e =>
    rw [Step, MmsMapping.step] at hs
    split at hs
    · cases hs
      exact h
    · obtain ⟨_, _, hs⟩ := bind_ok hs
      cases hs
      exact h
  | report index e =>
    rw [Step, MmsMapping.step] at hs
    cases hb : s.reportControls[index]? with
    | none =>
      rw [hb] at hs
      cases hs
      exact h
    | some block =>
      rw [hb] at hs
      obtain ⟨⟨block', outputs⟩, hhandle, hs⟩ := bind_ok hs
      cases hs
      have howned := (h block (List.mem_iff_getElem?.mpr ⟨index, hb⟩)).handle hhandle
      intro other hother
      rcases List.mem_or_eq_of_mem_set hother with hmem | rfl
      · exact h other hmem
      · exact howned.1 (hg.2 block hb)
  | removeClientConnection connection =>
    cases hs
    exact h
  | release connection =>
    cases hs
    intro block hb
    obtain ⟨before, hmem, rfl⟩ := List.mem_map.mp hb
    exact (h before hmem).deactivate connection

/-- In every state of a run that respects reservations, the end of a connection leaves nothing of
it exactly if the walk over the control objects needs one step. -/
theorem run_releases_iff {controls : List ControlConfiguration}
    {reports : List ReportConfiguration} {events : List Event}
    (hr : Transition.Run Step Respects (start controls reports) events s)
    (connection : Connection) :
    s.Releases connection (s.release connection) ↔ Releasable connection s.controlObjects := by
  have howned : s.AllOwned :=
    hr.invariant (AllOwned.start controls reports) fun _ _ _ h hg hs => h.step hg hs
  constructor
  · intro h
    exact unselect_releases_iff.mp h.controls
  · intro h
    refine ⟨unselect_releases_iff.mpr h, ?_, ?_, ?_⟩
    · intro block hb
      obtain ⟨before, hmem, rfl⟩ := List.mem_map.mp hb
      exact not_holder_deactivated (howned before hmem)
    · intro index server other hserver hclient hne
      refine getElem?_unselectControlsForConnection hserver fun heq => hne ?_
      exact Option.some.inj (hclient.symm.trans heq)
    · intro index block other hblock hholder hne
      have hsame := deactivate_of_other (howned block (List.mem_iff_getElem?.mpr ⟨index, hblock⟩))
        hholder hne
      change (List.map _ s.reportControls)[index]? = some block
      rw [List.getElem?_map, hblock, Option.map_some, hsame]

def selectable : ControlConfiguration := ⟨2, ⟨[], noZero_nil⟩, none, none, timeActivatedValue⟩

/-- A client has selected an object and is gone. -/
theorem run_releases_selected : ∃ s : MmsMapping,
    (∃ server ∈ s.controlObjects, server.object.HeldBy 1) ∧ s.Releases 1 (s.release 1) := by
  have hstart : Transition.Run Step Respects (start [selectable] []) [] (start [selectable] []) :=
    .nil
  have hselected := hstart.snoc (i := Event.control 0 (.readSBO 1 0 none))
    ⟨⟨trivial, fun server h => by cases h; exact List.not_mem_nil⟩, trivial⟩ rfl
  have hclosed := hselected.snoc (i := Event.removeClientConnection 1)
    ⟨List.not_mem_nil, trivial⟩ rfl
  refine ⟨_, ?_, (run_releases_iff hclosed 1).mpr ⟨⟨rfl, fun _ => rfl⟩, fun _ h => nomatch h⟩⟩
  exact ⟨_, List.mem_cons_self, rfl, .inr (by decide)⟩

/-- A client has selected two objects: the walk does not come to the second one. -/
theorem not_releases_two : ¬ ∀ (events : List Event) (s : MmsMapping) (connection : Connection),
    Transition.Run Step Permits (start [selectable, selectable] []) events s →
      s.Permits (.release connection) → s.Releases connection (s.release connection) := by
  intro hall
  have hstart : Transition.Run Step Permits (start [selectable, selectable] []) []
      (start [selectable, selectable] []) := .nil
  have hfirst := hstart.snoc (i := Event.control 0 (.readSBO 1 0 none))
    ⟨trivial, fun server h => by cases h; exact List.not_mem_nil⟩ rfl
  have hsecond := hfirst.snoc (i := Event.control 1 (.readSBO 1 0 none))
    ⟨trivial, fun server h => by cases h; exact List.not_mem_nil⟩ rfl
  have hclosed := hsecond.snoc (i := Event.removeClientConnection 1) List.not_mem_nil rfl
  have hreleases := hall _ _ 1 hclosed ⟨List.mem_cons_self, fun server hs worker hw => by
    rcases List.mem_cons.mp hs with rfl | hs
    · cases hw
    · obtain rfl := List.mem_singleton.mp hs
      cases hw⟩
  exact hreleases.controls _ (List.mem_cons_of_mem _ List.mem_cons_self)
    ⟨rfl, .inr (by decide)⟩

end MmsMapping

end Iec61850
