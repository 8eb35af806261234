import Iec61850.Lib.Transition
import Mathlib.Algebra.Ring.Nat
import Mathlib.Data.List.Count
import Mathlib.Data.List.Perm.Subperm
import Mathlib.Data.List.Range

/-! `iso_server.c` and the thread of a connection in `iso_connection.c`: the table of the open
connections and their number, which the accepting thread, the threads of the connections and the one
that stops the server change one after the other. -/

namespace Iec61850

namespace ConnectionTable

/-- Where `handleTcpConnection` is: it waits for the listener, goes round its loop, has left it, is
out of the table, has been counted out. -/
inductive Phase
  | waiting
  | running
  | closing
  | removed
  | ended
  deriving DecidableEq

/-- The part of an `IsoConnection` that tells how its thread goes on: the handler parameter is set,
and the state is `ISO_CON_STATE_STOPPED`. -/
structure IsoConnection where
  phase : Phase
  listener : Bool
  stopped : Bool

/-- `IsoConnection_create` -/
def IsoConnection.create : IsoConnection := ⟨.waiting, false, false⟩

/-- Where `isoServerThread` is; the local variable is there as long as it is used. -/
inductive AcceptPhase
  | looping
  | accepting
  | checking
  | counting (isoConnection : Nat)
  | adding (isoConnection : Nat) (i : Nat)
  | notifying (isoConnection : Nat)
  | stopped
  deriving DecidableEq

/-- Where `IsoServer_stopListening` is. It looks at a slot and reads it again for the connection to
be closed. -/
inductive StopPhase
  | idle
  | destroying
  | joining
  | looking (i : Nat)
  | asking (i : Nat)
  | waiting
  | finished
  | crashed
  deriving DecidableEq

/-- A server whose thread has been started. The connections stand in the order in which they were
created, and the number of one is what points to it. -/
structure IsoServer where
  running : Bool
  serverSocket : Bool
  openClientConnections : List (Option Nat)
  connectionCounter : Int
  connections : List IsoConnection
  accept : AcceptPhase
  stop : StopPhase

namespace IsoServer

/-- `CONFIG_MAXIMUM_TCP_CLIENT_CONNECTIONS` slots, which are all free. -/
def init (maxConnections : Nat) : IsoServer where
  running := true
  serverSocket := true
  openClientConnections := List.replicate maxConnections none
  connectionCounter := 0
  connections := []
  accept := .looping
  stop := .idle

/-- `removeClientConnection` -/
def removeClientConnection (connection : Nat) : List (Option Nat) → List (Option Nat)
  | [] => []
  | slot :: slots =>
    if slot = some connection then none :: slots
    else slot :: removeClientConnection connection slots

/-- A step of `isoServerThread`. -/
def acceptThread (s : IsoServer) : Option IsoServer :=
  match s.accept with
  | .looping =>
    if s.running then some { s with accept := .accepting }
    else some { s with serverSocket := false, accept := .stopped }
  | .accepting =>
    if s.serverSocket then some { s with accept := .checking }
    else some { s with running := false, accept := .stopped }
  | .checking =>
    if s.openClientConnections.length ≤ s.connectionCounter then some { s with accept := .looping }
    else some { s with
      connections := s.connections ++ [IsoConnection.create]
      accept := .counting s.connections.length }
  | .counting isoConnection => some { s with
      connectionCounter := s.connectionCounter + 1
      accept := .adding isoConnection 0 }
  | .adding isoConnection i =>
    match s.openClientConnections[i]? with
    | none => some { s with accept := .notifying isoConnection }
    | some none => some { s with
        openClientConnections := s.openClientConnections.set i (some isoConnection)
        accept := .notifying isoConnection }
    | some (some _) => some { s with accept := .adding isoConnection (i + 1) }
  | .notifying isoConnection =>
    s.connections[isoConnection]?.map fun connection => { s with
      connections := s.connections.set isoConnection { connection with listener := true }
      accept := .looping }
  | .stopped => none

/-- A step of the thread that calls `IsoServer_stopListening`. -/
def stopThread (s : IsoServer) : Option IsoServer :=
  match s.stop with
  | .idle => some { s with running := false, stop := .destroying }
  | .destroying => some { s with serverSocket := false, stop := .joining }
  | .joining => if s.accept = .stopped then some { s with stop := .looking 0 } else none
  | .looking i =>
    match s.openClientConnections[i]? with
    | none => some { s with stop := .waiting }
    | some none => some { s with stop := .looking (i + 1) }
    | some (some _) => some { s with stop := .asking i }
  | .asking i =>
    match s.openClientConnections[i]? with
    | some (some c) => s.connections[c]?.map fun connection => { s with
        connections := s.connections.set c { connection with stopped := true }
        stop := .waiting }
    | _ => some { s with stop := .crashed }
  | .waiting => if s.connectionCounter ≤ 0 then some { s with stop := .finished } else none
  | .finished | .crashed => none

/-- A step of `handleTcpConnection` that ends it; the messages that are handled change nothing
here. -/
def connectionThread (c : Nat) (s : IsoServer) : Option IsoServer := do
  let connection ← s.connections[c]?
  match connection.phase with
  | .waiting =>
    if connection.listener then
      some { s with connections := s.connections.set c { connection with phase := .running } }
    else none
  | .running =>
    if connection.stopped then
      some { s with connections := s.connections.set c { connection with phase := .closing } }
    else none
  | .closing => some { s with
      connections := s.connections.set c { connection with phase := .removed }
      openClientConnections := removeClientConnection c s.openClientConnections }
  | .removed => some { s with
      connections := s.connections.set c { connection with phase := .ended }
      connectionCounter := s.connectionCounter - 1 }
  | .ended => none

/-- The state of a connection becomes `ISO_CON_STATE_STOPPED`, because of its peer, of an error or
of `IsoConnection_close`. -/
def close (c : Nat) (s : IsoServer) : Option IsoServer :=
  s.connections[c]?.map fun connection =>
    { s with connections := s.connections.set c { connection with stopped := true } }

inductive Event
  | acceptThread
  | stopThread
  | connectionThread (c : Nat)
  | close (c : Nat)

def next (s : IsoServer) : Event → Option IsoServer
  | .acceptThread => s.acceptThread
  | .stopThread => s.stopThread
  | .connectionThread c => s.connectionThread c
  | .close c => s.close c

/-! ## What holds of every state -/

end IsoServer

/-- The thread has not been counted out. -/
def IsoConnection.isLive (connection : IsoConnection) : Bool := connection.phase != .ended

/-- `removeClientConnection` has not been called. -/
def Phase.isOpen : Phase → Bool
  | .waiting | .running | .closing => true
  | .removed | .ended => false

/-- How many steps the thread of a connection has to go. -/
def Phase.rest : Phase → Nat
  | .waiting => 4
  | .running => 3
  | .closing => 2
  | .removed => 1
  | .ended => 0

namespace AcceptPhase

/-- What has been created and not been counted. -/
def uncounted : AcceptPhase → Nat
  | .counting _ => 1
  | _ => 0

/-- The connection that has been created and is not in the table. -/
def unentered : AcceptPhase → Option Nat
  | .counting isoConnection | .adding isoConnection _ => some isoConnection
  | _ => none

/-- The connection that has no listener. -/
def unnotified : AcceptPhase → Option Nat
  | .counting isoConnection | .adding isoConnection _ | .notifying isoConnection =>
    some isoConnection
  | _ => none

end AcceptPhase

namespace StopPhase

/-- The accepting thread has been waited for. -/
def joined : StopPhase → Bool
  | .idle | .destroying | .joining => false
  | _ => true

/-- The slots in front of this one are free. -/
def looked : StopPhase → Nat
  | .looking i | .asking i => i
  | _ => 0

end StopPhase

namespace IsoServer

/-- The connections that are live: those being entered and those being taken down are. -/
def liveCount (s : IsoServer) : Nat := s.connections.countP (·.isLive)

/-- The connection has been entered and has not been taken out. -/
def isOpen (s : IsoServer) (c : Nat) : Bool :=
  match s.connections[c]? with
  | some connection => connection.phase.isOpen && s.accept.unentered != some c
  | none => false

structure Consistent (s : IsoServer) : Prop where
  counter : s.connectionCounter + s.accept.uncounted = s.liveCount
  counter_le : s.connectionCounter + s.accept.uncounted ≤ s.openClientConnections.length
  table : ∀ c, s.openClientConnections.count (some c) = if s.isOpen c then 1 else 0
  unnotified : ∀ c, s.accept.unnotified = some c →
    ∃ connection, s.connections[c]? = some connection ∧ connection.phase = .waiting ∧
      connection.listener = false
  notified : ∀ (c : Nat) connection, s.connections[c]? = some connection →
    connection.phase = .waiting → connection.listener = false → s.accept.unnotified = some c
  room : ∀ c i, s.accept = .adding c i → ∃ j, i ≤ j ∧ s.openClientConnections[j]? = some none
  joined : s.stop.joined = true → s.accept = .stopped
  looked : ∀ i < s.stop.looked, s.openClientConnections[i]? = some none

/-! ## Counting -/

variable {s t : IsoServer} {c d i : Nat} {connection connection' : IsoConnection}
  {connections : List IsoConnection} {slots : List (Option Nat)}

theorem countP_set_getElem? (p : IsoConnection → Bool) (h : connections[c]? = some connection)
    (connection' : IsoConnection) :
    (connections.set c connection').countP p + (if p connection then 1 else 0) =
      connections.countP p + if p connection' then 1 else 0 := by
  obtain ⟨hlt, rfl⟩ := List.getElem?_eq_some_iff.mp h
  have hle : (if p connections[c] then 1 else 0) ≤ connections.countP p := by
    split
    · exact List.countP_pos_iff.mpr ⟨_, List.getElem_mem hlt, ‹_›⟩
    · exact Nat.zero_le _
  rw [List.countP_set hlt]
  omega

theorem count_removeClientConnection (c d : Nat) (slots : List (Option Nat)) :
    (removeClientConnection c slots).count (some d) =
      slots.count (some d) - if d = c then 1 else 0 := by
  induction slots with
  | nil => simp [removeClientConnection]
  | cons slot slots ih =>
    rw [removeClientConnection]
    by_cases h : slot = some c
    · rw [if_pos h, h, List.count_cons_of_ne (by simp)]
      by_cases hd : d = c
      · rw [hd, List.count_cons_self, if_pos rfl, Nat.add_sub_cancel]
      · have hne : some c ≠ some d := fun h => hd (Option.some.inj h).symm
        rw [List.count_cons_of_ne hne, if_neg hd, Nat.sub_zero]
    · rw [if_neg h]
      by_cases hd : d = c
      · have hne : slot ≠ some d := fun h' => h (h'.trans (congrArg some hd))
        rw [List.count_cons_of_ne hne, List.count_cons_of_ne hne, ih]
      · rw [List.count_cons, List.count_cons, ih, if_neg hd, Nat.sub_zero, Nat.sub_zero]

/-- What is free stays free. -/
theorem getElem?_removeClientConnection_none (h : slots[i]? = some none) :
    (removeClientConnection c slots)[i]? = some none := by
  induction slots generalizing i with
  | nil => cases h
  | cons slot slots ih =>
    rw [removeClientConnection]
    cases i with
    | zero =>
      obtain rfl : slot = none := Option.some.inj h
      rfl
    | succ i =>
      split
      · exact h
      · exact ih h

@[simp] theorem length_removeClientConnection :
    (removeClientConnection c slots).length = slots.length := by
  induction slots with
  | nil => rfl
  | cons slot slots ih =>
    rw [removeClientConnection]
    split
    · rfl
    · rw [List.length_cons, List.length_cons, ih]

/-- `isOpen` of the connections alone. -/
def openIn (connections : List IsoConnection) (unentered : Option Nat) (c : Nat) : Bool :=
  match connections[c]? with
  | some connection => connection.phase.isOpen && unentered != some c
  | none => false

theorem isOpen_eq (s : IsoServer) (c : Nat) :
    s.isOpen c = openIn s.connections s.accept.unentered c := rfl

theorem openIn_of_getElem? {unentered : Option Nat} (h : connections[c]? = some connection) :
    openIn connections unentered c = (connection.phase.isOpen && unentered != some c) := by
  rw [openIn, h]

/-- A change that leaves the phase open leaves the same connections open. -/
theorem openIn_set (unentered : Option Nat) (h : connections[c]? = some connection)
    (connection' : IsoConnection) (hphase : connection'.phase.isOpen = connection.phase.isOpen) :
    openIn (connections.set c connection') unentered = openIn connections unentered := by
  funext d
  by_cases hd : c = d
  · subst hd
    have hset : (connections.set c connection')[c]? = some connection' :=
      List.getElem?_set_self (List.getElem?_eq_some_iff.mp h).1
    rw [openIn_of_getElem? hset, openIn_of_getElem? h, hphase]
  · rw [openIn, openIn, List.getElem?_set_ne hd]

theorem openIn_set_of_ne {unentered : Option Nat} (h : d ≠ c) :
    openIn (connections.set c connection') unentered d = openIn connections unentered d := by
  rw [openIn, openIn, List.getElem?_set_ne h.symm]

theorem openIn_append (c : Nat) :
    openIn (connections ++ [IsoConnection.create]) (some connections.length) c =
      openIn connections none c := by
  rw [openIn, openIn]
  rcases Nat.lt_trichotomy c connections.length with h | h | h
  · have hne : (some connections.length != some c) = true := by simpa using Nat.ne_of_gt h
    rw [List.getElem?_append_left h, hne]
    rfl
  · subst h
    simp
  · rw [List.getElem?_eq_none (by simp; omega), List.getElem?_eq_none (Nat.le_of_lt h)]

/-! ## The accepting thread -/

/-- The accepting thread goes on without a connection of its own. -/
theorem Consistent.goOn (h : s.Consistent) {running serverSocket : Bool} {accept : AcceptPhase}
    (hs : s.accept.unnotified = none) (ha : accept.unnotified = none)
    (hjoined : s.stop.joined = true → accept = .stopped) :
    ({ s with running, serverSocket, accept } : IsoServer).Consistent := by
  have hidle : ∀ p : AcceptPhase, p.unnotified = none → p.uncounted = 0 ∧ p.unentered = none := by
    intro p hp
    cases p <;> first | exact ⟨rfl, rfl⟩ | cases hp
  have hcount : accept.uncounted = s.accept.uncounted := by
    rw [(hidle _ hs).1, (hidle _ ha).1]
  have hopen : ∀ c, ({ s with running, serverSocket, accept } : IsoServer).isOpen c =
      s.isOpen c := by
    intro c
    rw [isOpen_eq, isOpen_eq, (hidle _ hs).2, (hidle _ ha).2]
  refine ⟨?_, ?_, ?_, ?_, ?_, ?_, hjoined, h.looked⟩
  · exact hcount ▸ h.counter
  · exact hcount ▸ h.counter_le
  · intro c
    rw [hopen]
    exact h.table c
  · intro c hc
    exact absurd (ha.symm.trans hc) (Option.some_ne_none c).symm
  · intro c connection hc hp hl
    exact absurd (hs.symm.trans (h.notified c connection hc hp hl)) (Option.some_ne_none c).symm
  · rintro c i rfl
    cases ha

/-- A connection has been created. -/
theorem Consistent.create (h : s.Consistent) (ha : s.accept = .checking)
    (hroom : s.connectionCounter < s.openClientConnections.length) :
    ({ s with
      connections := s.connections ++ [IsoConnection.create]
      accept := .counting s.connections.length } : IsoServer).Consistent := by
  have hcounter := h.counter
  have hjoined : ¬ s.stop.joined = true := fun hj => by
    have := ha.symm.trans (h.joined hj)
    cases this
  have hun : s.accept.unnotified = none := by rw [ha]; rfl
  rw [ha] at hcounter
  refine ⟨?_, ?_, ?_, ?_, ?_, fun c i hc => ?_, fun hj => absurd hj hjoined, h.looked⟩
  · have hlive : (s.connections ++ [IsoConnection.create]).countP (·.isLive) = s.liveCount + 1 := by
      rw [List.countP_append]
      rfl
    show s.connectionCounter + (1 : Nat) =
      ((s.connections ++ [IsoConnection.create]).countP (·.isLive) : Nat)
    rw [hlive]
    simp only [AcceptPhase.uncounted] at hcounter
    omega
  · show s.connectionCounter + (1 : Nat) ≤ s.openClientConnections.length
    omega
  · intro c
    have htable := h.table c
    rw [isOpen_eq, ha] at htable
    rw [isOpen_eq]
    exact (openIn_append c).symm ▸ htable
  · intro c hc
    obtain rfl := Option.some.inj hc
    exact ⟨IsoConnection.create, List.getElem?_concat_length, rfl, rfl⟩
  · intro c connection hc hp hl
    rcases Nat.lt_or_ge c s.connections.length with hlt | hge
    · rw [List.getElem?_append_left hlt] at hc
      exact absurd (hun.symm.trans (h.notified c connection hc hp hl)) (Option.some_ne_none c).symm
    · have hlen := (List.getElem?_eq_some_iff.mp hc).1
      rw [List.length_append, List.length_singleton] at hlen
      exact congrArg some (Nat.le_antisymm hge (Nat.le_of_lt_succ hlen))
  · cases hc

theorem countP_range (p : IsoConnection → Bool) (connections : List IsoConnection) :
    (List.range connections.length).countP (fun c => connections[c]?.any p) =
      connections.countP p := by
  induction connections using List.reverseRecOn with
  | nil => rfl
  | append_singleton connections connection ih =>
    have hcongr : (List.range connections.length).countP
        (fun c => (connections ++ [connection])[c]?.any p) =
        (List.range connections.length).countP fun c => connections[c]?.any p := by
      refine List.countP_congr fun c hc => ?_
      rw [List.getElem?_append_left (List.mem_range.mp hc)]
    rw [List.length_append, List.length_singleton, List.range_succ, List.countP_append, hcongr, ih,
      List.countP_append]
    simp

/-- As long as a connection that has been counted is not in the table, there is a free slot. -/
theorem Consistent.free (h : s.Consistent) (hc : s.accept.unentered = some c) :
    ∃ j : Nat, s.openClientConnections[j]? = some none := by
  by_contra hfull
  have hun : s.accept.unnotified = some c := by
    cases ha : s.accept with
    | counting d => rwa [ha] at hc
    | adding d i => rwa [ha] at hc
    | _ =>
      rw [ha] at hc
      cases hc
  obtain ⟨connection, hget, hphase, -⟩ := h.unnotified c hun
  have hnone : none ∉ s.openClientConnections := fun hmem => hfull (List.mem_iff_getElem?.mp hmem)
  have hnotIn : some c ∉ s.openClientConnections := by
    rw [← List.count_eq_zero, h.table c, isOpen_eq, openIn_of_getElem? hget, hc]
    simp
  have hnodup : (some c :: s.openClientConnections).Nodup := by
    rw [List.nodup_cons]
    refine ⟨hnotIn, List.nodup_iff_count.mpr fun slot => ?_⟩
    cases slot with
    | none => exact (List.count_eq_zero.mpr hnone).le.trans (Nat.zero_le 1)
    | some d =>
      rw [h.table d]
      split <;> decide
  have hsubset : some c :: s.openClientConnections ⊆
      ((List.range s.connections.length).filter
        fun d => s.connections[d]?.any (·.isLive)).map some := by
    intro slot hslot
    have hlive : ∀ {d : Nat} {connection : IsoConnection}, s.connections[d]? = some connection →
        connection.isLive = true → some d ∈ ((List.range s.connections.length).filter
          fun d => s.connections[d]?.any (·.isLive)).map some := by
      intro d connection hd hl
      have hlt := (List.getElem?_eq_some_iff.mp hd).1
      refine List.mem_map_of_mem (List.mem_filter.mpr ⟨List.mem_range.mpr hlt, ?_⟩)
      rw [hd]
      exact hl
    rcases List.mem_cons.mp hslot with rfl | hmem
    · refine hlive hget ?_
      rw [IsoConnection.isLive, hphase]
      rfl
    · cases slot with
      | none => exact absurd hmem hnone
      | some d =>
        have hcount := h.table d
        have hpos := List.count_pos_iff.mpr hmem
        by_cases hopen : s.isOpen d = true
        · rw [isOpen_eq, openIn] at hopen
          split at hopen
          case h_1 connection' hd =>
            refine hlive hd ?_
            obtain ⟨hopen, -⟩ := Bool.and_eq_true_iff.mp hopen
            rw [IsoConnection.isLive]
            cases hp : connection'.phase with
            | ended =>
              rw [hp] at hopen
              cases hopen
            | _ => rfl
          case h_2 => cases hopen
        · rw [if_neg hopen] at hcount
          omega
  have hle := (hnodup.subperm hsubset).length_le
  rw [List.length_cons, List.length_map, ← List.countP_eq_length_filter, countP_range] at hle
  have hcounter := h.counter
  have hcounterLe := h.counter_le
  rw [liveCount] at hcounter
  omega

/-- The new connection has been counted. -/
theorem Consistent.count (h : s.Consistent) (ha : s.accept = .counting c) :
    ({ s with
      connectionCounter := s.connectionCounter + 1
      accept := .adding c 0 } : IsoServer).Consistent := by
  have hcounter := h.counter
  have hle := h.counter_le
  have hjoined : ¬ s.stop.joined = true := fun hj => by
    have := ha.symm.trans (h.joined hj)
    cases this
  rw [ha] at hcounter hle
  refine ⟨?_, ?_, ?_, ?_, ?_, ?_, fun hj => absurd hj hjoined, h.looked⟩
  · exact (Int.add_zero _).trans hcounter
  · exact (Int.add_zero _).trans_le hle
  · intro d
    have htable := h.table d
    rw [isOpen_eq, ha] at htable
    exact htable
  · intro d hd
    exact h.unnotified d (ha ▸ hd)
  · intro d connection hd hp hl
    have := h.notified d connection hd hp hl
    rwa [ha] at this
  · intro d i hd
    cases hd
    obtain ⟨j, hj⟩ := h.free (by rw [ha]; rfl)
    exact ⟨j, Nat.zero_le j, hj⟩

/-- The new connection is put into a free slot. -/
theorem Consistent.enter (h : s.Consistent) (ha : s.accept = .adding c i)
    (hfree : s.openClientConnections[i]? = some none) :
    ({ s with
      openClientConnections := s.openClientConnections.set i (some c)
      accept := .notifying c } : IsoServer).Consistent := by
  have hcounter := h.counter
  have hle := h.counter_le
  have hjoined : ¬ s.stop.joined = true := fun hj => by
    have := ha.symm.trans (h.joined hj)
    cases this
  obtain ⟨connection, hget, hphase, hlistener⟩ := h.unnotified c (by rw [ha]; rfl)
  obtain ⟨hlt, hslot⟩ := List.getElem?_eq_some_iff.mp hfree
  rw [ha] at hcounter hle
  refine ⟨hcounter, ?_, ?_, ?_, ?_, fun d j hd => ?_, fun hj => absurd hj hjoined, ?_⟩
  · rw [List.length_set]
    exact hle
  · intro d
    have htable := h.table d
    rw [isOpen_eq, ha] at htable
    rw [isOpen_eq, List.count_set hlt, hslot, htable]
    by_cases hd : c = d
    · subst hd
      rw [openIn_of_getElem? hget, openIn_of_getElem? hget, hphase]
      simp [AcceptPhase.unentered, Phase.isOpen]
    · have hne : (some c == some d) = false := by simpa using hd
      have hopen : openIn s.connections (AcceptPhase.notifying c).unentered d =
          openIn s.connections (AcceptPhase.adding c i).unentered d := by
        rw [openIn, openIn]
        cases s.connections[d]? with
        | none => rfl
        | some connection =>
          have hentered : (some c != some d) = true := by simpa using hd
          simp only [AcceptPhase.unentered, hentered]
          rfl
      rw [hne, hopen]
      rfl
  · intro d hd
    exact h.unnotified d (ha ▸ hd)
  · intro d connection' hd hp hl
    have := h.notified d connection' hd hp hl
    rwa [ha] at this
  · cases hd
  · intro j hj
    cases hstop : s.stop with
    | looking k | asking k => exact absurd (by rw [hstop]; rfl) hjoined
    | _ =>
      rw [hstop] at hj
      exact absurd hj (Nat.not_lt_zero j)

/-- The connection gets its listener. -/
theorem Consistent.notify (h : s.Consistent) (ha : s.accept = .notifying c)
    (hget : s.connections[c]? = some connection) :
    ({ s with
      connections := s.connections.set c { connection with listener := true }
      accept := .looping } : IsoServer).Consistent := by
  have hcounter := h.counter
  have hle := h.counter_le
  rw [ha] at hcounter hle
  refine ⟨?_, hle, ?_, fun d hd => ?_, ?_, fun d i hd => ?_, fun hj => ?_, h.looked⟩
  · have hcount := countP_set_getElem? (·.isLive) hget { connection with listener := true }
    have hsame : IsoConnection.isLive { connection with listener := true } = connection.isLive :=
      rfl
    rw [hsame] at hcount
    exact hcounter.trans (congrArg Nat.cast (Nat.add_right_cancel hcount).symm)
  · intro d
    have htable := h.table d
    rw [isOpen_eq, ha] at htable
    have hset := openIn_set none hget { connection with listener := true } rfl
    rw [isOpen_eq]
    show _ = if openIn (s.connections.set c { connection with listener := true }) none d then 1
      else 0
    rw [hset]
    exact htable
  · cases hd
  · intro d connection' hd hp hl
    by_cases hcd : c = d
    · subst hcd
      rw [List.getElem?_set_self (List.getElem?_eq_some_iff.mp hget).1] at hd
      cases hd
      cases hl
    · rw [List.getElem?_set_ne hcd] at hd
      have := h.notified d connection' hd hp hl
      rw [ha] at this
      exact absurd (Option.some.inj this) hcd
  · cases hd
  · have := ha.symm.trans (h.joined hj)
    cases this

theorem Consistent.acceptThread (h : s.Consistent) (ht : s.acceptThread = some t) :
    t.Consistent := by
  have hjoined : s.accept ≠ .stopped → ¬ s.stop.joined = true := fun hne hj => hne (h.joined hj)
  unfold IsoServer.acceptThread at ht
  cases ha : s.accept with
  | looping =>
    rw [ha] at ht hjoined
    dsimp only at ht
    split at ht
    · cases ht
      exact h.goOn (by rw [ha]; rfl) rfl fun hj => absurd hj (hjoined (by decide))
    · cases ht
      exact h.goOn (by rw [ha]; rfl) rfl fun _ => rfl
  | accepting =>
    rw [ha] at ht hjoined
    dsimp only at ht
    split at ht
    · cases ht
      exact h.goOn (by rw [ha]; rfl) rfl fun hj => absurd hj (hjoined (by decide))
    · cases ht
      exact h.goOn (by rw [ha]; rfl) rfl fun _ => rfl
  | checking =>
    rw [ha] at ht hjoined
    dsimp only at ht
    split at ht
    case isTrue =>
      cases ht
      exact h.goOn (by rw [ha]; rfl) rfl fun hj => absurd hj (hjoined (by decide))
    case isFalse hroom =>
      cases ht
      exact h.create ha (Int.not_le.mp hroom)
  | counting c =>
    rw [ha] at ht
    cases ht
    exact h.count ha
  | adding c i =>
    rw [ha] at ht
    dsimp only at ht
    split at ht
    case h_1 hend =>
      obtain ⟨j, hj, hfree⟩ := h.room c i ha
      have hlt := (List.getElem?_eq_some_iff.mp hfree).1
      exact absurd hlt (Nat.not_lt.mpr ((List.getElem?_eq_none_iff.mp hend).trans hj))
    case h_2 hfree =>
      cases ht
      exact h.enter ha hfree
    case h_3 d htaken =>
      cases ht
      have hcounter := h.counter
      have hle := h.counter_le
      rw [ha] at hcounter hle
      refine ⟨hcounter, hle, ?_, ?_, ?_, ?_, fun hj => ?_, h.looked⟩
      · intro d
        have htable := h.table d
        rw [isOpen_eq, ha] at htable
        exact htable
      · intro d hd
        exact h.unnotified d (ha ▸ hd)
      · intro d connection' hd hp hl
        have := h.notified d connection' hd hp hl
        rwa [ha] at this
      · intro d j hd
        cases hd
        obtain ⟨k, hk, hfree⟩ := h.room c i ha
        refine ⟨k, Nat.lt_of_le_of_ne hk fun heq => ?_, hfree⟩
        subst heq
        rw [hfree] at htaken
        cases htaken
      · have := ha.symm.trans (h.joined hj)
        cases this
  | notifying c =>
    rw [ha] at ht
    obtain ⟨connection, hget, rfl⟩ := Option.map_eq_some_iff.mp ht
    exact h.notify ha hget
  | stopped =>
    rw [ha] at ht
    cases ht

/-! ## The threads of the connections -/

/-- A connection is changed and stays open, or closed; it may be counted out. -/
theorem Consistent.setConnection (h : s.Consistent) (hget : s.connections[c]? = some connection)
    (connection' : IsoConnection) (hopen : connection'.phase.isOpen = connection.phase.isOpen)
    (connectionCounter : Int)
    (hle : connectionCounter ≤ s.connectionCounter)
    (hlive : connectionCounter + (if connection.isLive then 1 else 0 : Nat) =
      s.connectionCounter + (if connection'.isLive then 1 else 0 : Nat))
    (hlistener : connection'.listener = connection.listener)
    (hwaiting : connection'.phase = connection.phase ∨
      connection'.phase ≠ .waiting ∧ (connection.phase = .waiting → connection.listener = true)) :
    ({ s with connections := s.connections.set c connection', connectionCounter } :
      IsoServer).Consistent := by
  have hlt := (List.getElem?_eq_some_iff.mp hget).1
  have hcounter := h.counter
  have hcounterLe := h.counter_le
  refine ⟨?_, ?_, ?_, ?_, ?_, h.room, h.joined, h.looked⟩
  · have hcount := countP_set_getElem? (·.isLive) hget connection'
    rw [liveCount] at hcounter
    show connectionCounter + (s.accept.uncounted : Int) =
      ((s.connections.set c connection').countP (·.isLive) : Nat)
    omega
  · show connectionCounter + (s.accept.uncounted : Int) ≤ s.openClientConnections.length
    omega
  · intro d
    rw [isOpen_eq]
    exact (h.table d).trans (by rw [isOpen_eq, ← congrFun (openIn_set _ hget connection' hopen) d])
  · intro d hd
    obtain ⟨connection₀, hget₀, hphase, hl⟩ := h.unnotified d hd
    by_cases hcd : c = d
    · subst hcd
      obtain rfl := Option.some.inj (hget.symm.trans hget₀)
      refine ⟨connection', List.getElem?_set_self hlt, ?_, hlistener.trans hl⟩
      rcases hwaiting with hsame | ⟨-, htrue⟩
      · exact hsame.trans hphase
      · exact absurd (hl.symm.trans (htrue hphase)) Bool.false_ne_true
    · exact ⟨connection₀, (List.getElem?_set_ne hcd).trans hget₀, hphase, hl⟩
  · intro d connection₀ hd hp hl
    by_cases hcd : c = d
    · subst hcd
      rw [List.getElem?_set_self hlt] at hd
      cases hd
      rcases hwaiting with hsame | ⟨hne, -⟩
      · exact h.notified c connection hget (hsame.symm.trans hp) (hlistener.symm.trans hl)
      · exact absurd hp hne
    · rw [List.getElem?_set_ne hcd] at hd
      exact h.notified d connection₀ hd hp hl

theorem Consistent.close (h : s.Consistent) (ht : s.close c = some t) : t.Consistent := by
  obtain ⟨connection, hget, rfl⟩ := Option.map_eq_some_iff.mp ht
  exact h.setConnection hget { connection with stopped := true } rfl s.connectionCounter
    (Int.le_refl _) rfl rfl (.inl rfl)

/-- A connection that its thread goes on with is not one that is being entered. -/
theorem Consistent.unentered_ne (h : s.Consistent) (hget : s.connections[c]? = some connection)
    (hp : connection.phase ≠ .waiting) : s.accept.unnotified ≠ some c := by
  intro hun
  obtain ⟨connection₀, hget₀, hphase, -⟩ := h.unnotified c hun
  obtain rfl := Option.some.inj (hget.symm.trans hget₀)
  exact hp hphase

/-- A connection is taken out of the table. -/
theorem Consistent.remove (h : s.Consistent) (hget : s.connections[c]? = some connection)
    (hp : connection.phase = .closing) :
    ({ s with
      connections := s.connections.set c { connection with phase := .removed }
      openClientConnections := removeClientConnection c s.openClientConnections } :
        IsoServer).Consistent := by
  have hlt := (List.getElem?_eq_some_iff.mp hget).1
  have hne : s.accept.unnotified ≠ some c := h.unentered_ne hget (by rw [hp]; decide)
  refine ⟨?_, ?_, ?_, ?_, ?_, ?_, h.joined, ?_⟩
  · have hcount := countP_set_getElem? (·.isLive) hget { connection with phase := .removed }
    have hlive : connection.isLive = true := by rw [IsoConnection.isLive, hp]; rfl
    rw [hlive] at hcount
    exact h.counter.trans (congrArg Nat.cast (Nat.add_right_cancel hcount).symm)
  · rw [length_removeClientConnection]
    exact h.counter_le
  · intro d
    have htable := h.table d
    rw [count_removeClientConnection, htable, isOpen_eq, isOpen_eq]
    by_cases hd : d = c
    · subst hd
      have hset : (s.connections.set d { connection with phase := .removed })[d]? =
          some { connection with phase := .removed } := List.getElem?_set_self hlt
      rw [openIn_of_getElem? hset, if_pos rfl]
      simp only [Phase.isOpen, Bool.false_and]
      split <;> rfl
    · rw [if_neg hd, Nat.sub_zero]
      exact congrArg (fun b : Bool => if b = true then 1 else 0) (openIn_set_of_ne hd).symm
  · intro d hd
    have hcd : c ≠ d := fun heq => hne (heq ▸ hd)
    obtain ⟨connection₀, hget₀, hrest⟩ := h.unnotified d hd
    exact ⟨connection₀, (List.getElem?_set_ne hcd).trans hget₀, hrest⟩
  · intro d connection₀ hd hp hl
    by_cases hcd : c = d
    · subst hcd
      rw [List.getElem?_set_self hlt] at hd
      cases hd
      cases hp
    · rw [List.getElem?_set_ne hcd] at hd
      exact h.notified d connection₀ hd hp hl
  · intro d i hd
    obtain ⟨j, hj, hfree⟩ := h.room d i hd
    exact ⟨j, hj, getElem?_removeClientConnection_none hfree⟩
  · intro i hi
    exact getElem?_removeClientConnection_none (h.looked i hi)

theorem Consistent.connectionThread (h : s.Consistent) (ht : s.connectionThread c = some t) :
    t.Consistent := by
  obtain ⟨connection, hget, ht⟩ := Option.bind_eq_some_iff.mp ht
  cases hp : connection.phase with
  | waiting =>
    rw [hp] at ht
    obtain ⟨hl, ht⟩ := Option.ite_none_right_eq_some.mp ht
    cases ht
    refine h.setConnection hget _ (by rw [hp]; rfl) s.connectionCounter (Int.le_refl _) ?_ rfl
      (.inr ⟨Phase.noConfusion, fun _ => hl⟩)
    rw [IsoConnection.isLive, IsoConnection.isLive, hp]
    rfl
  | running =>
    rw [hp] at ht
    obtain ⟨-, ht⟩ := Option.ite_none_right_eq_some.mp ht
    cases ht
    refine h.setConnection hget _ (by rw [hp]; rfl) s.connectionCounter (Int.le_refl _) ?_ rfl
      (.inr ⟨Phase.noConfusion, fun hw => by rw [hp] at hw; cases hw⟩)
    rw [IsoConnection.isLive, IsoConnection.isLive, hp]
    rfl
  | closing =>
    rw [hp] at ht
    cases ht
    exact h.remove hget hp
  | removed =>
    rw [hp] at ht
    cases ht
    refine h.setConnection hget _ (by rw [hp]; rfl) (s.connectionCounter - 1) (by omega) ?_ rfl
      (.inr ⟨Phase.noConfusion, fun hw => by rw [hp] at hw; cases hw⟩)
    rw [IsoConnection.isLive, IsoConnection.isLive, hp]
    exact (Int.sub_add_cancel s.connectionCounter 1).trans (Int.add_zero _).symm
  | ended =>
    rw [hp] at ht
    cases ht

/-! ## The thread that stops the server -/

theorem Consistent.stopThread (h : s.Consistent) (ht : s.stopThread = some t) : t.Consistent := by
  unfold IsoServer.stopThread at ht
  cases hs : s.stop with
  | idle =>
    rw [hs] at ht
    cases ht
    exact ⟨h.counter, h.counter_le, h.table, h.unnotified, h.notified, h.room, Bool.noConfusion,
      fun i hi => absurd hi (Nat.not_lt_zero i)⟩
  | destroying =>
    rw [hs] at ht
    cases ht
    exact ⟨h.counter, h.counter_le, h.table, h.unnotified, h.notified, h.room, Bool.noConfusion,
      fun i hi => absurd hi (Nat.not_lt_zero i)⟩
  | joining =>
    rw [hs] at ht
    obtain ⟨ha, ht⟩ := Option.ite_none_right_eq_some.mp ht
    cases ht
    exact ⟨h.counter, h.counter_le, h.table, h.unnotified, h.notified, h.room, fun _ => ha,
      fun i hi => absurd hi (Nat.not_lt_zero i)⟩
  | looking i =>
    have ha := h.joined (by rw [hs]; rfl)
    have hlooked := h.looked
    rw [hs] at ht hlooked
    dsimp only at ht
    split at ht
    case h_1 =>
      cases ht
      exact ⟨h.counter, h.counter_le, h.table, h.unnotified, h.notified, h.room, fun _ => ha,
        fun i hi => absurd hi (Nat.not_lt_zero i)⟩
    case h_2 hfree =>
      cases ht
      refine ⟨h.counter, h.counter_le, h.table, h.unnotified, h.notified, h.room, fun _ => ha,
        fun j hj => ?_⟩
      rcases Nat.lt_succ_iff_lt_or_eq.mp hj with hlt | rfl
      · exact hlooked j hlt
      · exact hfree
    case h_3 =>
      cases ht
      exact ⟨h.counter, h.counter_le, h.table, h.unnotified, h.notified, h.room, fun _ => ha,
        hlooked⟩
  | asking i =>
    have ha := h.joined (by rw [hs]; rfl)
    rw [hs] at ht
    dsimp only at ht
    split at ht
    case h_1 c _ =>
      obtain ⟨connection, hget, rfl⟩ := Option.map_eq_some_iff.mp ht
      have hset := h.setConnection hget { connection with stopped := true } rfl
        s.connectionCounter (Int.le_refl _) rfl rfl (.inl rfl)
      exact ⟨hset.counter, hset.counter_le, hset.table, hset.unnotified, hset.notified, hset.room,
        fun _ => ha, fun i hi => absurd hi (Nat.not_lt_zero i)⟩
    case h_2 =>
      cases ht
      exact ⟨h.counter, h.counter_le, h.table, h.unnotified, h.notified, h.room, fun _ => ha,
        fun i hi => absurd hi (Nat.not_lt_zero i)⟩
  | waiting =>
    have ha := h.joined (by rw [hs]; rfl)
    rw [hs] at ht
    obtain ⟨-, ht⟩ := Option.ite_none_right_eq_some.mp ht
    cases ht
    exact ⟨h.counter, h.counter_le, h.table, h.unnotified, h.notified, h.room, fun _ => ha,
      fun i hi => absurd hi (Nat.not_lt_zero i)⟩
  | finished | crashed =>
    rw [hs] at ht
    cases ht

theorem Consistent.next (h : s.Consistent) (e : Event) (ht : s.next e = some t) : t.Consistent := by
  cases e with
  | acceptThread => exact h.acceptThread ht
  | stopThread => exact h.stopThread ht
  | connectionThread c => exact h.connectionThread ht
  | close c => exact h.close ht

/-- Every connection that is open has been asked to close. -/
def AllAsked (s : IsoServer) : Prop :=
  ∀ c connection, s.isOpen c = true → s.connections[c]? = some connection →
    connection.stopped = true

/-- A connection goes on by itself. -/
def OwnStep (s t : IsoServer) : Prop := ∃ c, s.connectionThread c = some t

/-- Whatever the threads of the connections do without their peers, the counter reaches zero. -/
def WaitEnds (s : IsoServer) : Prop :=
  Transition.Inevitable OwnStep (fun s => s.connectionCounter ≤ 0) s

/-- What a step of a thread does to its connection, and to the others. -/
theorem connectionThread_cases (ht : s.connectionThread c = some t) :
    ∃ connection phase, s.connections[c]? = some connection ∧
      t.connections = s.connections.set c { connection with phase } ∧
      Phase.rest phase < Phase.rest connection.phase ∧
      (phase.isOpen = true → connection.phase.isOpen = true) ∧
      t.accept = s.accept ∧ t.stop = s.stop ∧
      (connection.phase = .running → connection.stopped = true) := by
  obtain ⟨connection, hget, ht⟩ := Option.bind_eq_some_iff.mp ht
  cases hp : connection.phase with
  | waiting =>
    rw [hp] at ht
    obtain ⟨-, ht⟩ := Option.ite_none_right_eq_some.mp ht
    cases ht
    exact ⟨connection, .running, hget, rfl, by rw [hp]; decide, fun _ => by rw [hp]; rfl, rfl, rfl,
      fun hr => by cases hp.symm.trans hr⟩
  | running =>
    rw [hp] at ht
    obtain ⟨hstopped, ht⟩ := Option.ite_none_right_eq_some.mp ht
    cases ht
    exact ⟨connection, .closing, hget, rfl, by rw [hp]; decide, fun _ => by rw [hp]; rfl, rfl, rfl,
      fun _ => hstopped⟩
  | closing =>
    rw [hp] at ht
    cases ht
    exact ⟨connection, .removed, hget, rfl, by rw [hp]; decide, fun _ => by rw [hp]; rfl, rfl, rfl,
      fun hr => by cases hp.symm.trans hr⟩
  | removed =>
    rw [hp] at ht
    cases ht
    exact ⟨connection, .ended, hget, rfl, by rw [hp]; decide, Bool.noConfusion, rfl, rfl,
      fun hr => by cases hp.symm.trans hr⟩
  | ended =>
    rw [hp] at ht
    cases ht

/-- A change after which no more connections are open and none is less asked. -/
theorem AllAsked.set (h : s.AllAsked) (hget : s.connections[c]? = some connection)
    (hconnections : t.connections = s.connections.set c connection') (ha : t.accept = s.accept)
    (hopen : connection'.phase.isOpen = true → connection.phase.isOpen = true)
    (hstopped : connection.stopped = true → connection'.stopped = true) : t.AllAsked := by
  intro d connection₀ hd hget₀
  rw [isOpen_eq, hconnections, ha] at hd
  rw [hconnections] at hget₀
  by_cases hcd : c = d
  · subst hcd
    rw [openIn_of_getElem? hget₀] at hd
    rw [List.getElem?_set_self (List.getElem?_eq_some_iff.mp hget).1] at hget₀
    obtain rfl := Option.some.inj hget₀
    obtain ⟨hphase, hentered⟩ := Bool.and_eq_true_iff.mp hd
    refine hstopped (h c connection ?_ hget)
    rw [isOpen_eq, openIn_of_getElem? hget, hopen hphase, hentered]
    rfl
  · rw [openIn_set_of_ne (Ne.symm hcd)] at hd
    rw [List.getElem?_set_ne hcd] at hget₀
    exact h d connection₀ hd hget₀

theorem AllAsked.connectionThread (h : s.AllAsked) (ht : s.connectionThread c = some t) :
    t.AllAsked := by
  obtain ⟨connection, phase, hget, hconnections, -, hopen, ha, -⟩ := connectionThread_cases ht
  exact h.set hget hconnections ha hopen id

theorem AllAsked.close (h : s.AllAsked) (ht : s.close c = some t) : t.AllAsked := by
  obtain ⟨connection, hget, rfl⟩ := Option.map_eq_some_iff.mp ht
  exact h.set hget rfl rfl id fun _ => rfl

/-- What a server does in any of its states: the table has every connection that is open once and
no other, the counter is the number of the live ones, of which there are not too many, and while the
server waits all have been asked to close, so that the wait ends. -/
structure Lawful (maxConnections : Nat) (s : IsoServer) : Prop where
  table : ∀ c, s.openClientConnections.count (some c) = if s.isOpen c then 1 else 0
  counter : s.connectionCounter + s.accept.uncounted = s.liveCount
  counter_le : s.connectionCounter ≤ maxConnections
  notCrashed : s.stop ≠ .crashed
  asked : s.stop = .waiting → s.AllAsked ∧ s.WaitEnds

/-- The stopping thread finds the connection still there when it reads the slot again, and all the
others that are open have stopped by themselves. -/
def Meets (s : IsoServer) (e : Event) : Prop :=
  e = .stopThread → ∀ i, s.stop = .asking i →
    ∃ c, s.openClientConnections[i]? = some (some c) ∧
      ∀ d connection, d ≠ c → s.isOpen d = true → s.connections[d]? = some connection →
        connection.stopped = true

variable {maxConnections : Nat} {e : Event}

theorem acceptThread_frame (ht : s.acceptThread = some t) :
    t.stop = s.stop ∧ t.openClientConnections.length = s.openClientConnections.length := by
  unfold IsoServer.acceptThread at ht
  split at ht
  case h_4 =>
    cases ht
    exact ⟨rfl, rfl⟩
  case h_5 =>
    split at ht <;> cases ht
    · exact ⟨rfl, rfl⟩
    · exact ⟨rfl, List.length_set⟩
    · exact ⟨rfl, rfl⟩
  case h_6 =>
    obtain ⟨_, _, rfl⟩ := Option.map_eq_some_iff.mp ht
    exact ⟨rfl, rfl⟩
  case h_7 => cases ht
  all_goals
    split at ht <;> cases ht
    · exact ⟨rfl, rfl⟩
    · exact ⟨rfl, rfl⟩

theorem stopThread_frame (ht : s.stopThread = some t) :
    t.openClientConnections = s.openClientConnections := by
  unfold IsoServer.stopThread at ht
  split at ht
  case h_1 | h_2 =>
    cases ht
    rfl
  case h_4 => split at ht <;> cases ht <;> rfl
  case h_5 =>
    split at ht
    · obtain ⟨_, _, rfl⟩ := Option.map_eq_some_iff.mp ht
      rfl
    · cases ht
      rfl
  case h_7 | h_8 => cases ht
  all_goals
    obtain ⟨-, ht⟩ := Option.ite_none_right_eq_some.mp ht
    cases ht
    rfl

theorem length_connectionThread (ht : s.connectionThread c = some t) :
    t.openClientConnections.length = s.openClientConnections.length := by
  obtain ⟨connection, _, ht⟩ := Option.bind_eq_some_iff.mp ht
  split at ht
  case h_3 =>
    cases ht
    exact length_removeClientConnection
  case h_4 =>
    cases ht
    rfl
  case h_5 => cases ht
  all_goals
    obtain ⟨-, ht⟩ := Option.ite_none_right_eq_some.mp ht
    cases ht
    rfl

/-- The table keeps its size. -/
theorem length_next (ht : s.next e = some t) :
    t.openClientConnections.length = s.openClientConnections.length := by
  cases e with
  | acceptThread => exact (acceptThread_frame ht).2
  | stopThread => exact congrArg List.length (stopThread_frame ht)
  | connectionThread c => exact length_connectionThread ht
  | close c =>
    obtain ⟨_, _, rfl⟩ := Option.map_eq_some_iff.mp ht
    rfl

/-- The wait is in order: every connection has been asked. -/
def WaitsInOrder (s : IsoServer) : Prop :=
  s.stop ≠ .crashed ∧ (s.stop = .waiting → s.AllAsked)

/-- Nothing is open when all slots have been looked at. -/
theorem Consistent.allAsked_of_looked (h : s.Consistent) {i : Nat} (hs : s.stop = .looking i)
    (hend : s.openClientConnections[i]? = none) : s.AllAsked := by
  intro c connection hopen _
  have hcount := h.table c
  rw [if_pos hopen] at hcount
  have hmem : some c ∈ s.openClientConnections := List.count_pos_iff.mp (by rw [hcount]; decide)
  obtain ⟨j, hj⟩ := List.mem_iff_getElem?.mp hmem
  have hlt := (List.getElem?_eq_some_iff.mp hj).1
  have hle := List.getElem?_eq_none_iff.mp hend
  have hfree := h.looked j (by rw [hs]; exact Nat.lt_of_lt_of_le hlt hle)
  rw [hj] at hfree
  cases hfree

theorem Consistent.waitsInOrder_stopThread_iff (h : s.Consistent)
    (ht : s.stopThread = some t) : t.WaitsInOrder ↔ s.Meets .stopThread := by
  have hmeets : (∀ i, s.stop ≠ .asking i) → s.Meets .stopThread := fun hne _ i hi =>
    absurd hi (hne i)
  unfold IsoServer.stopThread at ht
  cases hs : s.stop with
  | idle | destroying =>
    rw [hs] at ht
    cases ht
    exact iff_of_true ⟨StopPhase.noConfusion, fun h => StopPhase.noConfusion h⟩
      (hmeets fun i h => by cases hs.symm.trans h)
  | joining | waiting =>
    rw [hs] at ht
    obtain ⟨-, ht⟩ := Option.ite_none_right_eq_some.mp ht
    cases ht
    exact iff_of_true ⟨StopPhase.noConfusion, fun h => StopPhase.noConfusion h⟩
      (hmeets fun i h => by cases hs.symm.trans h)
  | looking i =>
    refine iff_of_true ?_ (hmeets fun i h => by cases hs.symm.trans h)
    rw [hs] at ht
    dsimp only at ht
    split at ht
    case h_1 hend =>
      cases ht
      exact ⟨StopPhase.noConfusion, fun _ => h.allAsked_of_looked hs hend⟩
    all_goals
      cases ht
      exact ⟨StopPhase.noConfusion, fun h => StopPhase.noConfusion h⟩
  | asking i =>
    rw [hs] at ht
    dsimp only at ht
    split at ht
    case h_1 c hslot =>
      obtain ⟨connection, hget, rfl⟩ := Option.map_eq_some_iff.mp ht
      have hlt := (List.getElem?_eq_some_iff.mp hget).1
      constructor
      · rintro ⟨-, hasked⟩ - j hj
        cases hs.symm.trans hj
        refine ⟨c, hslot, fun d connection' hd hopen hget' => ?_⟩
        refine hasked rfl d connection' ?_ ((List.getElem?_set_ne (Ne.symm hd)).trans hget')
        exact (openIn_set_of_ne hd).trans hopen
      · intro hm
        obtain ⟨c', hslot', hothers⟩ := hm rfl i hs
        obtain rfl := Option.some.inj (Option.some.inj (hslot.symm.trans hslot'))
        refine ⟨StopPhase.noConfusion, fun _ d connection' hopen hget' => ?_⟩
        by_cases hd : d = c
        · subst hd
          rw [List.getElem?_set_self hlt] at hget'
          exact Option.some.inj hget' ▸ rfl
        · refine hothers d connection' hd ?_ ((List.getElem?_set_ne (Ne.symm hd)).symm.trans hget')
          exact (openIn_set_of_ne hd).symm.trans hopen
    case h_2 hnot =>
      cases ht
      refine iff_of_false (fun hw => hw.1 rfl) fun hm => ?_
      obtain ⟨c, hslot, -⟩ := hm rfl i hs
      exact hnot c hslot
  | finished | crashed =>
    rw [hs] at ht
    cases ht

/-- A step that meets the condition, and no other, leaves the wait in order. -/
theorem Consistent.waitsInOrder_iff (h : s.Consistent) (hw : s.WaitsInOrder)
    (ht : s.next e = some t) : t.WaitsInOrder ↔ s.Meets e := by
  cases e with
  | acceptThread =>
    refine iff_of_true ?_ Event.noConfusion
    have hstop := (acceptThread_frame ht).1
    refine ⟨hstop ▸ hw.1, fun hwait => ?_⟩
    have ha := h.joined (by rw [← hstop, hwait]; rfl)
    rw [IsoServer.next, IsoServer.acceptThread, ha] at ht
    cases ht
  | stopThread => exact h.waitsInOrder_stopThread_iff ht
  | connectionThread c =>
    refine iff_of_true ?_ Event.noConfusion
    obtain ⟨_, _, _, _, _, _, _, hstop, -⟩ := connectionThread_cases ht
    refine ⟨hstop ▸ hw.1, fun hwait => ?_⟩
    exact (hw.2 (hstop ▸ hwait)).connectionThread ht
  | close c =>
    refine iff_of_true ?_ Event.noConfusion
    have hstop : t.stop = s.stop := by
      obtain ⟨_, _, rfl⟩ := Option.map_eq_some_iff.mp ht
      rfl
    refine ⟨hstop ▸ hw.1, fun hwait => ?_⟩
    exact (hw.2 (hstop ▸ hwait)).close ht

def Step (s : IsoServer) (e : Event) (t : IsoServer) : Prop := s.next e = some t

/-- What the steps that meet the condition keep. -/
structure Orderly (maxConnections : Nat) (s : IsoServer) : Prop where
  consistent : s.Consistent
  size : s.openClientConnections.length = maxConnections
  waits : s.WaitsInOrder

theorem Orderly.next (h : s.Orderly maxConnections) (hg : s.Meets e) (ht : s.next e = some t) :
    t.Orderly maxConnections where
  consistent := h.consistent.next e ht
  size := (length_next ht).trans h.size
  waits := (h.consistent.waitsInOrder_iff h.waits ht).mpr hg

end IsoServer

end ConnectionTable

end Iec61850
