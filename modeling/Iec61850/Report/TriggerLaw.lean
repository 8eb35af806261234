import Iec61850.Report.TriggerObservers

/-! The law of the triggers: each call of a function for a data attribute makes each control block
include the first member the attribute's value is part of, for one reason, and nothing else. -/

namespace Iec61850

open Machine Reporting Goose

namespace Reporting.ReportControl

/-- The inclusion flag of a member. -/
def flagAt (rc : ReportControl) (i : Nat) : Option ReportInclusionFlag :=
  (rc.members.bind (·[i]?)).map (·.flag)

/-- No member is included that was not included before. -/
def NoNewFlag (rc rc' : ReportControl) : Prop :=
  ∀ i, rc'.flagAt i = rc.flagAt i ∨ rc'.flagAt i = some .none

variable {rc rc' : ReportControl} {outputs : List Output}

theorem flagAt_congr (h : rc'.members = rc.members) (i : Nat) : rc'.flagAt i = rc.flagAt i := by
  rw [flagAt, flagAt, h]

theorem noNewFlag_of_members (h : rc'.members = rc.members) : NoNewFlag rc rc' :=
  fun i => .inl (flagAt_congr h i)

theorem noNewFlag_trans {rc'' : ReportControl} (h : NoNewFlag rc rc') (h' : NoNewFlag rc' rc'') :
    NoNewFlag rc rc'' := by
  intro i
  rcases h' i with heq | hnone
  · rw [heq]
    exact h i
  · exact .inr hnone

theorem noNewFlag_clear (rc : ReportControl) : NoNewFlag rc rc.clearInclusionFlags := by
  intro i
  cases hm : rc.members.bind (·[i]?) with
  | none =>
    left
    cases hmembers : rc.members with
    | none => simp [flagAt, clearInclusionFlags, hmembers]
    | some members =>
      rw [hmembers, Option.bind_some] at hm
      simp [flagAt, clearInclusionFlags, hmembers, hm]
  | some m =>
    right
    obtain ⟨members, hmembers, hget⟩ := Option.bind_eq_some_iff.mp hm
    simp [flagAt, clearInclusionFlags, hmembers, hget]

theorem noNewFlag_generate {isIntegrity isGI : Bool} {now : UInt64}
    (h : rc.generate isIntegrity isGI now = .ok (rc', outputs)) : NoNewFlag rc rc' := by
  rcases generate_cases h with ⟨members, -, ⟨_, _, _, _, -, rfl⟩, -⟩ | ⟨-, -, rfl, -⟩
  · exact noNewFlag_clear rc
  · exact noNewFlag_of_members rfl

/-- Reports clear flags, and set none. -/
theorem noNewFlag_rule : ProcessRule fun rc _ rc' => NoNewFlag rc rc' where
  refl := fun rc => noNewFlag_of_members rfl
  trans := fun rc outputs rc' outputs' rc'' => noNewFlag_trans
  flush := by
    intro rc now rc' outputs h
    unfold flush at h
    split at h
    · obtain ⟨⟨rc1, outputs1⟩, h1, h⟩ := bind_ok h
      cases h
      exact noNewFlag_trans (noNewFlag_generate h1) (noNewFlag_of_members rfl)
    · cases h
      exact noNewFlag_of_members rfl
  generate := fun rc isIntegrity isGI now rc' outputs _ h => noNewFlag_generate h
  sendNextReportEntry := by
    intro rc rc' outputs _ _ h
    obtain ⟨values, sqNum, buffer, -, rfl, -⟩ := sendNextReportEntry_cases h
    exact noNewFlag_of_members rfl
  updateTimeOfEntry := by
    intro rc currentTime
    obtain ⟨values, time, he⟩ := updateTimeOfEntry_eq rc currentTime
    rw [he]
    exact noNewFlag_of_members rfl
  settle := fun rc gi => noNewFlag_of_members rfl
  setNextTime := fun rc next => noNewFlag_of_members rfl

theorem flagAt_setInclusionFlag (rc : ReportControl) (index : Nat) (flag : ReportInclusionFlag)
    (i : Nat) : (rc.setInclusionFlag index flag).flagAt i =
      if index = i then (rc.flagAt i).map fun _ => flag else rc.flagAt i := by
  cases hmembers : rc.members with
  | none => simp [flagAt, setInclusionFlag, hmembers]
  | some members =>
    rw [flagAt, flagAt, setInclusionFlag, hmembers]
    simp only [Option.map_some, Option.bind_some, List.getElem?_modify]
    cases members[i]? with
    | none => simp
    | some m =>
      split
      · rfl
      · rfl

/-- The member is included for the new reason, and no other one that was not included. -/
theorem flagAt_valueUpdated {index : Nat} {flag : ReportInclusionFlag} {now hal : Nat → UInt64}
    (h : rc.valueUpdated index flag now hal = .ok (rc', outputs)) :
    rc'.flagAt index = some flag ∧
      ∀ i, i ≠ index → rc'.flagAt i = rc.flagAt i ∨ rc'.flagAt i = some .none := by
  unfold valueUpdated at h
  split at h
  case h_1 => cases h
  case h_2 m hm =>
    obtain ⟨⟨rc1, outputs1⟩, h1, h⟩ := bind_ok h
    cases h
    have hbypass : NoNewFlag rc rc1 := by
      unfold bypassBufferTime at h1
      split at h1
      · have hpending := noNewFlag_rule.processEventsForReport h1
        exact noNewFlag_trans (noNewFlag_of_members rfl) hpending
      · cases h1
        exact noNewFlag_of_members rfl
    have hstart : ∀ i, ReportControl.flagAt
        { (rc1.setInclusionFlag index flag).startBufferTime (now 1) with triggered := true } i =
          (rc1.setInclusionFlag index flag).flagAt i :=
      flagAt_congr (pendingEvents_startBufferTime _ _).1
    have hindex : rc.flagAt index = some m.flag := by rw [flagAt, hm, Option.map_some]
    refine ⟨?_, fun i hi => ?_⟩
    · rw [hstart, flagAt_setInclusionFlag, if_pos rfl]
      rcases hbypass index with heq | hnone
      · rw [heq, hindex, Option.map_some]
      · rw [hnone, Option.map_some]
    · rw [hstart, flagAt_setInclusionFlag, if_neg hi.symm]
      exact hbypass i

end Reporting.ReportControl

namespace ReportObserver

variable {s : IedServer} {p : ValuePlace} {flag : ReportInclusionFlag} {clock : ClockReadings}
  {b b' : ReportObserver} {call : Option (Nat × List Output)} {w : MmsValue}

/-- What the loop does with one block. -/
structure Notified (p : ValuePlace) (flag : ReportInclusionFlag) (b b' : ReportObserver)
    (call : Option (Nat × List Output)) : Prop where
  called : ∀ j, (∃ outputs, call = some (j, outputs)) ↔
    b.rc.observes flag = true ∧ FirstWithin p b.dataSet j
  flagged : ∀ j outputs, call = some (j, outputs) → b'.rc.flagAt j = some flag
  others : ∀ i, (∀ outputs, call ≠ some (i, outputs)) →
    b'.rc.flagAt i = b.rc.flagAt i ∨ b'.rc.flagAt i = some .none

/-- A block that is left as it is. -/
theorem notified_same (h : ∀ j, b.rc.observes flag = true → ¬ FirstWithin p b.dataSet j) :
    Notified p flag b b none where
  called := by
    intro j
    constructor
    · rintro ⟨outputs, hcall⟩
      cases hcall
    · rintro ⟨hobserves, hfirst⟩
      exact absurd hfirst (h j hobserves)
  flagged := by
    rintro j outputs hcall
    cases hcall
  others := fun i _ => .inl rfl

theorem notified (hp : s.valueAt p = .ok w) (h : b.notify s p flag clock = .ok (b', call)) :
    Notified p flag b b' call := by
  unfold notify at h
  split at h
  case isFalse hobserves =>
    cases h
    exact notified_same fun j ho => absurd ho hobserves
  case isTrue hobserves =>
    split at h
    · cases h
    obtain ⟨index, hindex, h⟩ := bind_ok h
    obtain ⟨-, hfirst⟩ := isMemberValue_spec hp 0 hindex
    cases index with
    | none =>
      cases h
      refine notified_same fun j _ hj => ?_
      cases (hfirst j).mpr hj
    | some index =>
      obtain ⟨⟨rc, outputs⟩, hupdated, h⟩ := bind_ok h
      cases h
      obtain ⟨hflag, hothers⟩ := ReportControl.flagAt_valueUpdated hupdated
      refine ⟨fun j => ?_, ?_, fun i hi => ?_⟩
      · rw [and_iff_right hobserves, ← hfirst j, Nat.zero_add]
        constructor
        · rintro ⟨outputs, hcall⟩
          cases hcall
          rfl
        · intro hj
          cases hj
          exact ⟨outputs, rfl⟩
      · rintro j outputs hcall
        cases hcall
        exact hflag
      · refine hothers i ?_
        rintro rfl
        exact hi outputs rfl

end ReportObserver

section

variable {s : IedServer} {p : ValuePlace} {reason : ReportInclusionFlag}
  {clock : Nat → ClockReadings} {blocks blocks' : List ReportObserver}
  {calls : List MemberFlagged} {w : MmsValue}

end

section

variable {s : IedServer} {p : ValuePlace} {time : UInt64} {currentTime : Nat → UInt64}
  {b b' : GooseObserver} {told : Bool} {blocks blocks' : List GooseObserver} {calls : List Nat}
  {w : MmsValue}

end

namespace ObservedServer

variable {times : TriggerTimes} {m m' m'' : ObservedServer} {da : NamedAttribute}
  {u : AttributeUpdate} {p : ValuePlace} {current w : MmsValue} {calls : TriggerCalls}
  {events events' : List WriteEvent} {reason : ReportInclusionFlag}

end ObservedServer

end Iec61850
