import Iec61850.Goose.Retransmission
import Iec61850.Report.PendingEvents
import Iec61850.Server.AttributeUpdates

/-! Which members of the data sets are reported because of a new value (`mms_mapping.c`): a control
block asks for the first member of its data set that the value is part of. -/

namespace Iec61850

open Machine Reporting Goose

namespace ValuePlace

/-- The value is the one of the container or a part of it. -/
def Within (p container : ValuePlace) : Prop :=
  p.domain = container.domain ∧ p.place.itemId = container.place.itemId ∧
    container.place.path <+: p.place.path

def component (container : ValuePlace) (i : Nat) : ValuePlace :=
  ⟨container.domain, container.place.itemId, container.place.path ++ [i]⟩

/-- The place behind further components. -/
def below (container : ValuePlace) (path : List Nat) : ValuePlace :=
  ⟨container.domain, container.place.itemId, container.place.path ++ path⟩

end ValuePlace

mutual

/-- `value` is the one at `container`, whose components are compared too. -/
def isMemberValueRecursive (container : ValuePlace) (p : ValuePlace) : MmsValue → Bool
  | .structured vs => decide (container = p) || isComponentValue container p 0 vs
  | .array vs => decide (container = p) || isComponentValue container p 0 vs
  | _ => decide (container = p)

def isComponentValue (container : ValuePlace) (p : ValuePlace) (i : Nat) : List MmsValue → Bool
  | [] => false
  | v :: vs =>
    isMemberValueRecursive (container.component i) p v || isComponentValue container p (i + 1) vs

end

/-- `DataSet_isMemberValue` from the `i`th member on. A member without a value is the null
pointer. -/
def IedServer.isMemberValue (s : IedServer) (p : ValuePlace) :
    List (Option ValuePlace) → Nat → Exec (Option Nat)
  | [], _ => .ok none
  | none :: _, _ => .error .nullPointer
  | some container :: fcdas, i => do
    if isMemberValueRecursive container p (← s.valueAt container) then return some i
    else s.isMemberValue p fcdas (i + 1)

/-- What `Hal_getTimeInMs` returns while a report control block is dealt with. -/
structure ClockReadings where
  now : Nat → UInt64
  hal : Nat → UInt64

/-- A report control block of a server, and where the values of its data set are. -/
structure ReportObserver where
  rc : ReportControl
  dataSet : List (Option ValuePlace)

/-- A GOOSE control block; it has a publisher while it is enabled. -/
structure GooseObserver where
  gcb : Option MmsGooseControlBlock
  dataSet : List (Option ValuePlace)

/-- A call of `ReportControl_valueUpdated` for a member of the block with this number, and what
the block has sent because of it. -/
structure MemberFlagged where
  block : Nat
  dataSetEntryIndex : Nat
  flag : ReportInclusionFlag
  outputs : List Output

namespace ReportObserver

/-- The members refer to values of the server. -/
def readMember (s : IedServer) (dataSet : List (Option ValuePlace)) (i : Nat) (m : Member) :
    Member :=
  match (dataSet[i]?).join with
  | some p => { m with value := (s.valueAt p).toOption.getD m.value }
  | none => m

def refresh (s : IedServer) (b : ReportObserver) : ReportObserver :=
  { b with rc := { b.rc with
      members := b.rc.members.map fun ms => ms.mapIdx (readMember s b.dataSet) } }

/-- The loop of `MmsMapping_triggerReportObservers` for one block. -/
def notify (s : IedServer) (p : ValuePlace) (flag : ReportInclusionFlag) (clock : ClockReadings)
    (b : ReportObserver) : Exec (ReportObserver × Option (Nat × List Output)) :=
  if b.rc.observes flag then
    if b.rc.members.isNone then .error .nullPointer
    else do
      match ← s.isMemberValue p b.dataSet 0 with
      | none => return (b, none)
      | some index =>
        let (rc, outputs) ← b.rc.valueUpdated index flag clock.now clock.hal
        return ({ b with rc }, some (index, outputs))
  else .ok (b, none)

end ReportObserver

/-- `MmsMapping_triggerReportObservers` from the `k`th block on. -/
def triggerReportObservers (s : IedServer) (p : ValuePlace) (flag : ReportInclusionFlag)
    (clock : Nat → ClockReadings) :
    Nat → List ReportObserver → Exec (List ReportObserver × List MemberFlagged)
  | _, [] => .ok ([], [])
  | k, b :: reportControls => do
    let (b, call) ← b.notify s p flag (clock k)
    let (reportControls, calls) ← triggerReportObservers s p flag clock (k + 1) reportControls
    return (b :: reportControls, (call.map fun c => ⟨k, c.1, flag, c.2⟩).toList ++ calls)

namespace GooseObserver

def readValues (s : IedServer) (dataSet : List (Option ValuePlace)) : Exec (List MmsValue) :=
  dataSet.mapM fun p => match p with
    | some p => s.valueAt p
    | none => .error .nullPointer

/-- The loop of `MmsMapping_triggerGooseObservers` for one block, and whether it was told. -/
def notify (s : IedServer) (p : ValuePlace) (currentTime : UInt64) (b : GooseObserver) :
    Exec (GooseObserver × Bool) :=
  match b.gcb with
  | none => .ok (b, false)
  | some gcb => do
    match ← s.isMemberValue p b.dataSet 0 with
    | none => return (b, false)
    | some _ =>
      match gcb.observedObjectChanged currentTime (← readValues s b.dataSet) with
      | none => .error .outOfBounds
      | some gcb => return ({ b with gcb := some gcb }, true)

end GooseObserver

/-- `MmsMapping_triggerGooseObservers` from the `k`th block on, and the blocks that were told. -/
def triggerGooseObservers (s : IedServer) (p : ValuePlace) (currentTime : Nat → UInt64) :
    Nat → List GooseObserver → Exec (List GooseObserver × List Nat)
  | _, [] => .ok ([], [])
  | k, b :: gseControls => do
    let (b, told) ← b.notify s p (currentTime k)
    let (gseControls, calls) ← triggerGooseObservers s p currentTime (k + 1) gseControls
    return (b :: gseControls, if told then k :: calls else calls)

/-- A server with the control blocks that observe its values. -/
structure ObservedServer where
  server : IedServer
  reportControls : List ReportObserver
  gseControls : List GooseObserver

/-- The times at which the control blocks are dealt with. -/
structure TriggerTimes where
  report : Nat → ClockReadings
  goose : Nat → UInt64

/-- The calls that an event or a function makes for the members of the data sets. -/
structure TriggerCalls where
  reports : List MemberFlagged
  gooses : List Nat

namespace ObservedServer

def perform (times : TriggerTimes) (m : ObservedServer) :
    WriteEvent → Exec (ObservedServer × TriggerCalls)
  | .triggerReportObservers p flag => do
    let (reportControls, reports) ←
      triggerReportObservers m.server p flag times.report 0 m.reportControls
    return ({ m with reportControls }, ⟨reports, []⟩)
  | .triggerGooseObservers p => do
    let (gseControls, gooses) ← triggerGooseObservers m.server p times.goose 0 m.gseControls
    return ({ m with gseControls }, ⟨[], gooses⟩)
  | .observed _ => .ok (m, ⟨[], []⟩)

def performAll (times : TriggerTimes) (m : ObservedServer) :
    List WriteEvent → Exec (ObservedServer × TriggerCalls)
  | [] => .ok (m, ⟨[], []⟩)
  | e :: events => do
    let (m, calls) ← m.perform times e
    let (m, calls') ← m.performAll times events
    return (m, ⟨calls.reports ++ calls'.reports, calls.gooses ++ calls'.gooses⟩)

/-- A call of one of the functions for a data attribute, with all that follows. -/
def update (times : TriggerTimes) (m : ObservedServer) (da : NamedAttribute)
    (u : AttributeUpdate) : Exec (ObservedServer × TriggerCalls) := do
  let (server, events) ← m.server.update da u
  performAll times
    { m with server, reportControls := m.reportControls.map (·.refresh server) } events

end ObservedServer

/-! ## The member that a value is part of -/

section

variable {s : IedServer} {p container : ValuePlace} {v : MmsValue}

theorem MmsValue.atPath_append (path rest : List Nat) (v : MmsValue) :
    v.atPath (path ++ rest) = v.atPath path >>= fun w => w.atPath rest := by
  induction path generalizing v with
  | nil => rfl
  | cons i path ih =>
    rw [List.cons_append, MmsValue.atPath, MmsValue.atPath, bind_assoc]
    exact congrArg _ (funext ih)

theorem ValuePlace.within_iff_below : p.Within container ↔ ∃ path, p = container.below path := by
  constructor
  · rintro ⟨hdomain, hitem, path, hpath⟩
    refine ⟨path, ?_⟩
    rw [below, hpath, ← hdomain, ← hitem]
  · rintro ⟨path, rfl⟩
    exact ⟨rfl, rfl, path, rfl⟩

theorem ValuePlace.below_nil : container.below [] = container := by
  rw [below, List.append_nil]

theorem ValuePlace.below_cons (i : Nat) (path : List Nat) :
    container.below (i :: path) = (container.component i).below path := by
  rw [below, below, component, List.append_assoc]
  rfl

/-- What is below a value is where the value has it. -/
theorem IedServer.valueAt_below (h : s.valueAt container = .ok v) (path : List Nat) :
    s.valueAt (container.below path) = v.atPath path := by
  have hdomain : (container.below path).domain = container.domain := rfl
  have hitem : (container.below path).place.itemId = container.place.itemId := rfl
  have hpath : (container.below path).place.path = container.place.path ++ path := rfl
  rw [IedServer.valueAt] at h ⊢
  rw [hdomain]
  cases hcache : s.caches[container.domain]? with
  | none =>
    rw [hcache] at h
    cases h
  | some cache =>
    rw [hcache] at h
    dsimp only at h ⊢
    rw [MmsValueCache.valueAt] at h ⊢
    rw [hitem]
    cases hentry : cache.getEntry container.place.itemId with
    | none =>
      rw [hentry] at h
      cases h
    | some value =>
      rw [hentry] at h
      dsimp only at h ⊢
      rw [hpath, MmsValue.atPath_append, h]
      rfl

/-- The loop over the components of a value finds what is below one of them. -/
theorem isComponentValue_iff {vs : List MmsValue}
    (ih : ∀ v ∈ vs, ∀ container, isMemberValueRecursive container p v = true ↔
      ∃ path w, p = container.below path ∧ v.atPath path = .ok w) (i : Nat) :
    isComponentValue container p i vs = true ↔
      ∃ j v path w, vs[j]? = some v ∧ p = (container.component (i + j)).below path ∧
        v.atPath path = .ok w := by
  induction vs generalizing i with
  | nil => simp [isComponentValue]
  | cons v vs ihvs =>
    rw [isComponentValue, Bool.or_eq_true, ih v List.mem_cons_self,
      ihvs (fun v hv => ih v (List.mem_cons_of_mem _ hv))]
    constructor
    · rintro (⟨path, w, hp, hw⟩ | ⟨j, u, path, w, hu, hp, hw⟩)
      · exact ⟨0, v, path, w, rfl, hp, hw⟩
      · refine ⟨j + 1, u, path, w, hu, ?_, hw⟩
        rw [hp, Nat.add_assoc, Nat.add_comm 1 j]
    · rintro ⟨j, u, path, w, hu, hp, hw⟩
      cases j with
      | zero =>
        cases hu
        exact .inl ⟨path, w, hp, hw⟩
      | succ j =>
        refine .inr ⟨j, u, path, w, hu, ?_, hw⟩
        rw [hp, Nat.add_assoc, Nat.add_comm 1 j]

/-- A value with components is compared itself and then its components. -/
theorem isMemberValue_components {vs : List MmsValue}
    (hcomponent : ∀ i u, v.component i = .ok u ↔ vs[i]? = some u)
    (ih : ∀ v ∈ vs, ∀ container, isMemberValueRecursive container p v = true ↔
      ∃ path w, p = container.below path ∧ v.atPath path = .ok w) :
    (decide (container = p) || isComponentValue container p 0 vs) = true ↔
      ∃ path w, p = container.below path ∧ v.atPath path = .ok w := by
  rw [Bool.or_eq_true, decide_eq_true_iff, isComponentValue_iff ih]
  constructor
  · rintro (rfl | ⟨j, u, path, w, hu, hp, hw⟩)
    · exact ⟨[], v, ValuePlace.below_nil.symm, rfl⟩
    · refine ⟨j :: path, w, ?_, ?_⟩
      · rw [hp, ValuePlace.below_cons, Nat.zero_add]
      · rw [MmsValue.atPath, (hcomponent j u).mpr hu]
        exact hw
  · rintro ⟨path, w, hp, hw⟩
    cases path with
    | nil => exact .inl (hp.trans ValuePlace.below_nil).symm
    | cons j path =>
      obtain ⟨u, hu, hw⟩ := bind_ok hw
      refine .inr ⟨j, u, path, w, (hcomponent j u).mp hu, ?_, hw⟩
      rw [hp, ValuePlace.below_cons, Nat.zero_add]

theorem isMemberValueRecursive_leaf (h : v.IsLeaf) :
    isMemberValueRecursive container p v = decide (container = p) := by
  cases v with
  | structured | array => exact h.elim
  | _ => rfl

theorem atPath_leaf {path : List Nat} {w : MmsValue} (h : v.IsLeaf) (hw : v.atPath path = .ok w) :
    path = [] := by
  cases path with
  | nil => rfl
  | cons i path =>
    cases v with
    | structured | array => exact h.elim
    | _ => cases hw

theorem component_structured (vs : List MmsValue) (i : Nat) (u : MmsValue) :
    (MmsValue.structured vs).component i = .ok u ↔ vs[i]? = some u := by
  rw [MmsValue.component]
  cases vs[i]? with
  | none => simp
  | some w => simp

theorem component_array (vs : List MmsValue) (i : Nat) (u : MmsValue) :
    (MmsValue.array vs).component i = .ok u ↔ vs[i]? = some u :=
  component_structured vs i u

/-- The search finds the value and all that is in it. -/
theorem isMemberValueRecursive_iff : isMemberValueRecursive container p v = true ↔
    ∃ path w, p = container.below path ∧ v.atPath path = .ok w := by
  induction v using MmsValue.tree_induction generalizing container with
  | leaf v hv =>
    rw [isMemberValueRecursive_leaf hv, decide_eq_true_iff]
    constructor
    · rintro rfl
      exact ⟨[], v, ValuePlace.below_nil.symm, rfl⟩
    · rintro ⟨path, w, hp, hw⟩
      rw [hp, atPath_leaf hv hw, ValuePlace.below_nil]
  | structured vs ih =>
    rw [isMemberValueRecursive]
    exact isMemberValue_components (component_structured vs) (fun v hv container => ih v hv)
  | array vs ih =>
    rw [isMemberValueRecursive]
    exact isMemberValue_components (component_array vs) (fun v hv container => ih v hv)

/-- A value of the server is found in a container exactly if it is within it. -/
theorem isMemberValueRecursive_within {w : MmsValue} (hcontainer : s.valueAt container = .ok v)
    (hp : s.valueAt p = .ok w) :
    isMemberValueRecursive container p v = true ↔ p.Within container := by
  rw [isMemberValueRecursive_iff, ValuePlace.within_iff_below]
  constructor
  · rintro ⟨path, w, hpath, -⟩
    exact ⟨path, hpath⟩
  · rintro ⟨path, rfl⟩
    exact ⟨path, w, rfl, (IedServer.valueAt_below hcontainer path).symm.trans hp⟩

/-- The value is within the one of the member of this number. -/
def MemberWithin (p : ValuePlace) (dataSet : List (Option ValuePlace)) (j : Nat) : Prop :=
  ∃ container, dataSet[j]? = some (some container) ∧ p.Within container

/-- The member is the first one of the data set that the value is within. -/
def FirstWithin (p : ValuePlace) (dataSet : List (Option ValuePlace)) (j : Nat) : Prop :=
  MemberWithin p dataSet j ∧ ∀ i < j, ¬ MemberWithin p dataSet i

variable {fcdas : List (Option ValuePlace)}

theorem memberWithin_zero : MemberWithin p (some container :: fcdas) 0 ↔ p.Within container := by
  constructor
  · rintro ⟨c, hc, hwithin⟩
    cases hc
    exact hwithin
  · intro hwithin
    exact ⟨container, rfl, hwithin⟩

theorem firstWithin_zero : FirstWithin p (some container :: fcdas) 0 ↔ p.Within container := by
  rw [FirstWithin, memberWithin_zero]
  exact and_iff_left fun i hi => absurd hi (Nat.not_lt_zero i)

theorem firstWithin_succ {j : Nat} : FirstWithin p (some container :: fcdas) (j + 1) ↔
    ¬ p.Within container ∧ FirstWithin p fcdas j := by
  constructor
  · rintro ⟨hj, hbefore⟩
    refine ⟨fun h => hbefore 0 (Nat.succ_pos j) (memberWithin_zero.mpr h), hj, ?_⟩
    intro i hi
    exact hbefore (i + 1) (Nat.succ_lt_succ hi)
  · rintro ⟨hnot, hj, hbefore⟩
    refine ⟨hj, fun i hi => ?_⟩
    cases i with
    | zero => exact fun h => hnot (memberWithin_zero.mp h)
    | succ i => exact hbefore i (Nat.lt_of_succ_lt_succ hi)

/-- What the loop over the members answers from the `k`th one on. -/
theorem isMemberValue_spec {w : MmsValue} {index : Option Nat} (hp : s.valueAt p = .ok w)
    (k : Nat) (h : s.isMemberValue p fcdas k = .ok index) :
    (∀ i ∈ index, k ≤ i) ∧ ∀ j, index = some (k + j) ↔ FirstWithin p fcdas j := by
  induction fcdas generalizing k with
  | nil =>
    cases h
    refine ⟨nofun, fun j => ⟨nofun, ?_⟩⟩
    rintro ⟨⟨c, hc, -⟩, -⟩
    cases hc
  | cons fcda fcdas ih =>
    cases fcda with
    | none => cases h
    | some c =>
      obtain ⟨v, hv, h⟩ := bind_ok h
      have hwithin := isMemberValueRecursive_within hv hp
      split at h
      case isTrue hmember =>
        cases h
        refine ⟨fun i hi => (Option.some.inj hi).le, fun j => ?_⟩
        cases j with
        | zero => simpa [firstWithin_zero] using hwithin.mp hmember
        | succ j => simpa [firstWithin_succ] using fun hnot => absurd (hwithin.mp hmember) hnot
      case isFalse hmember =>
        obtain ⟨hle, hiff⟩ := ih (k + 1) h
        refine ⟨fun i hi => (Nat.le_succ k).trans (hle i hi), fun j => ?_⟩
        cases j with
        | zero =>
          rw [firstWithin_zero, ← hwithin]
          refine ⟨fun hk => ?_, fun hm => absurd hm hmember⟩
          exact absurd (hle k hk) (Nat.not_succ_le_self k)
        | succ j =>
          rw [firstWithin_succ, ← hiff j, ← hwithin, and_iff_right hmember, Nat.add_assoc,
            Nat.add_comm 1 j]

end

end Iec61850
