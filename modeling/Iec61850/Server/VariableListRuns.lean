import Iec61850.Server.VariableListServices

/-! What the requests of any clients do to the lists of variables, one after the other. -/

namespace Iec61850

open Machine

namespace ListServer

variable {κ : Type}

/-! ## Requests -/

/-- The members of a list that a client has defined are there, and it has a name that fits. -/
def Sound (s : ListServer κ) (key : ListScope κ × List UInt8) (l : MmsNamedVariableList) : Prop :=
  (∀ entry ∈ l.listOfVariables, s.Resolvable entry) ∧
    ∃ connection name, s.key connection name = some key ∧ s.Fits connection name

def AllSound (s : ListServer κ) : Prop :=
  ∀ key l, s.view key = some l → l.deletable = true → s.Sound key l

/-- What a delete request has to be like. -/
structure DeleteMeets (uninitialised : Int64) (s : ListServer κ) (connection : κ)
    (request : DeleteRequest) : Prop where
  scope : (request.scopeOfDelete.bind TypeDescription.iNTEGER2long).getD uninitialised =
    request.scope
  names : request.scope = 0 → ∃ names, request.listOfVariableListName = some names ∧
    (∀ name ∈ names, s.Deletable connection name) ∧ s.StaticOnce connection names

/-- What a request has to be like, in the state that it comes in. -/
def Meets (uninitialised : Int64) (s : ListServer κ) (e : ListEvent κ) : Prop :=
  match e.request with
  | .define (.complete request) =>
    ∀ key, s.key e.connection request.variableListName = some key → s.view key = none →
      s.DefineMeets e.connection request
  | .delete (.complete request) => s.DeleteMeets uninitialised e.connection request
  | .define (.incomplete _) => False
  | .delete (.incomplete _) => False
  | .getAttributes (.complete name) =>
    ∀ key l, s.key e.connection name = some key → s.view key = some l → l.deletable = false →
      s.InDomains l
  | .read (.complete name) =>
    s.SameList e.connection name ∧
      ∀ key l, s.key e.connection name = some key → s.view key = some l → l.deletable = false →
        s.Readable l
  | _ => True

section Requests

variable {s t : ListServer κ} {connection : κ} {name : ObjectName} {l : MmsNamedVariableList}
  {key : ListScope κ × List UInt8} {e : ListEvent κ} {answer : ListAnswer}
  {uninitialised : Int64}

theorem Resolvable.of_domains {entry : NamedVariableListEntry} (h : s.Resolvable entry)
    (hd : t.domains = s.domains) : t.Resolvable entry := by
  obtain ⟨domain, v, hdomain, hv, hpart⟩ := h
  refine ⟨domain, v, hdomain, ?_, hpart⟩
  rwa [getNamedVariable, hd]

theorem Fits.of_domains (h : s.Fits connection name) (hd : t.domains = s.domains) :
    t.Fits connection name := by
  rwa [Fits, key_of_domains hd, resolve_of_domains hd]

theorem Sound.of_domains (h : s.Sound key l) (hd : t.domains = s.domains) : t.Sound key l := by
  obtain ⟨hall, connection, name, hkey, hfits⟩ := h
  refine ⟨fun entry hmem => (hall entry hmem).of_domains hd, connection, name, ?_,
    hfits.of_domains hd⟩
  rw [key_of_domains hd, hkey]

variable [DecidableEq κ]

/-- What a request that is complete is answered, and what it does. -/
def Answers (s : ListServer κ) (e : ListEvent κ) (answer : ListAnswer) (t : ListServer κ) : Prop :=
  match e.request with
  | .define (.complete request) =>
    answer.IsRefusal ∨ answer = .define ∧ s.Defines e.connection request t
  | .delete (.complete request) =>
    request.scope = 0 → ∃ names numberMatched numberDeleted,
      request.listOfVariableListName = some names ∧ answer = .delete numberMatched numberDeleted ∧
      s.Deletes e.connection names ⟨0, 0⟩ t ⟨numberMatched, numberDeleted⟩
  | .read (.complete name) => s.Reads e.connection name answer
  | _ => True

/-- What comes of a request. -/
structure Lawful (s : ListServer κ) (e : ListEvent κ) (answer : ListAnswer) (t : ListServer κ) :
    Prop where
  domains : t.domains = s.domains
  unique : t.Unique
  static : ∀ key l, s.view key = some l → l.deletable = false → t.view key = some l
  refusal : answer.IsRefusal → t = s
  answers : s.Answers e answer t

/-- Nothing changes. -/
theorem Lawful.same (hu : s.Unique) (h : s.Answers e answer s) : s.Lawful e answer s :=
  ⟨rfl, hu, fun _ _ hview _ => hview, fun _ => rfl, h⟩

theorem AllDefined.addNamedVariableList (ha : s.AllDefined) (scope : ListScope κ)
    (hl : l.deletable = true) : (s.addNamedVariableList scope l).AllDefined := by
  intro connection l' hmem
  rw [lists_addNamedVariableList] at hmem
  split at hmem
  case isTrue hscope =>
    rcases List.mem_append.mp hmem with hmem | hmem
    · exact ha connection l' (hscope ▸ hmem)
    · rwa [List.mem_singleton.mp hmem]
  case isFalse => exact ha connection l' hmem

theorem lawful_define (hu : s.Unique) (ha : s.AllDefined) (hs : s.AllSound)
    {request : DefineRequest} (h : ∀ key, s.key connection request.variableListName = some key →
      s.view key = none → s.DefineMeets connection request) :
    ∃ answer t, s.handleDefine connection request = .ok (answer, t) ∧
      s.Lawful ⟨connection, .define (.complete request)⟩ answer t ∧ t.AllDefined ∧ t.AllSound := by
  rcases handleDefine_cases h with ⟨error, heq⟩ | ⟨key, entries, heq, hkey, hview, hall, hres, hfits⟩
  · exact ⟨_, s, heq, .same hu (Or.inl trivial), ha, hs⟩
  · have hview' := view_addNamedVariableList (l := ⟨key.2, true, entries⟩) hview
    refine ⟨_, _, heq, ⟨rfl, hu.addNamedVariableList hview, ?_, False.elim, Or.inr ⟨rfl, ?_⟩⟩,
      ha.addNamedVariableList key.1 rfl, ?_⟩
    · intro key' l hl _
      rw [hview', Function.update_of_ne, hl]
      rintro rfl
      rw [hview] at hl
      cases hl
    · exact ⟨key, entries, hkey, hview, hview', hall, hres, hfits⟩
    · intro key' l hl hdeletable
      rw [hview', Function.update_apply] at hl
      split at hl
      case isTrue hnew =>
        cases hl
        have hsound : s.Sound key' ⟨key.2, true, entries⟩ :=
          ⟨hres, connection, request.variableListName, hnew ▸ hkey, hfits⟩
        exact hsound.of_domains rfl
      case isFalse => exact (hs key' l hl hdeletable).of_domains rfl

theorem lawful_delete (hu : s.Unique) (ha : s.AllDefined) (hs : s.AllSound)
    {request : DeleteRequest} (h : s.DeleteMeets uninitialised connection request) :
    ∃ answer t, handleDelete uninitialised s connection request = .ok (answer, t) ∧
      s.Lawful ⟨connection, .delete (.complete request)⟩ answer t ∧ t.AllDefined ∧ t.AllSound := by
  rw [handleDelete, h.scope]
  by_cases hscope : request.scope = 0
  · obtain ⟨names, hnames, hdeletable, honce⟩ := h.names hscope
    obtain ⟨t, count, hloop, hut, hat, hdeletes⟩ := deleteNames_deletes hu ha hdeletable honce ⟨0, 0⟩
    rw [if_pos hscope, hnames]
    dsimp only
    rw [hloop]
    refine ⟨_, t, rfl, ⟨hdeletes.domains, hut, ?_, False.elim, fun _ => ?_⟩, hat, ?_⟩
    · intro key l hl hstatic
      rw [hdeletes.view, if_neg, hl]
      rintro ⟨-, hd⟩
      rw [isDeletable, hl, Option.any_some, hstatic] at hd
      cases hd
    · exact ⟨names, _, _, hnames, rfl, hdeletes⟩
    · intro key l hl hd
      rw [hdeletes.view] at hl
      split at hl
      · cases hl
      · exact (hs key l hl hd).of_domains hdeletes.domains
  · rw [if_neg hscope]
    exact ⟨_, s, rfl, .same hu fun h => absurd h hscope, ha, hs⟩

/-- One request. -/
theorem handle_lawful (hu : s.Unique) (ha : s.AllDefined) (hs : s.AllSound)
    (h : s.Meets uninitialised e) :
    ∃ answer t, handle uninitialised s e = .ok (answer, t) ∧ s.Lawful e answer t ∧
      t.AllDefined ∧ t.AllSound := by
  obtain ⟨connection, request⟩ := e
  have hsound : ∀ {name key l}, s.key connection name = some key → s.view key = some l →
      l.deletable = true → ∀ entry ∈ l.listOfVariables, s.Resolvable entry :=
    fun _ hl hd => (hs _ _ hl hd).1
  cases request with
  | define request =>
    cases request with
    | complete request => exact lawful_define hu ha hs h
    | incomplete => exact h.elim
  | delete request =>
    cases request with
    | complete request => exact lawful_delete hu ha hs h
    | incomplete => exact h.elim
  | getAttributes request =>
    cases request with
    | incomplete => exact ⟨_, s, rfl, .same hu trivial, ha, hs⟩
    | complete name =>
      have hin : ∀ key l, s.key connection name = some key → s.view key = some l →
          s.InDomains l := by
        intro key l hkey hl
        cases hd : l.deletable with
        | false => exact h key l hkey hl hd
        | true => exact inDomains_of_resolvable (hsound hkey hl hd)
      obtain ⟨answer, heq⟩ := handleGetAttributes_ok hin
      refine ⟨answer, s, ?_, .same hu trivial, ha, hs⟩
      rw [handle]
      dsimp only
      rw [heq]
      rfl
  | read request =>
    cases request with
    | incomplete => exact ⟨_, s, rfl, .same hu trivial, ha, hs⟩
    | complete name =>
      obtain ⟨answer, heq, hreads⟩ := handleRead_reads h.1 fun key l hkey hl => by
        cases hd : l.deletable with
        | false => exact h.2 key l hkey hl hd
        | true => exact readable_of_resolvable (hsound hkey hl hd)
      refine ⟨answer, s, ?_, .same hu hreads, ha, hs⟩
      rw [handle]
      dsimp only
      rw [heq]
      rfl

end Requests

/-! ## Runs -/

/-- The lists of the data model, before any client has come. -/
structure Configured (s : ListServer κ) : Prop where
  unique : s.Unique
  static : ∀ key l, s.view key = some l → l.deletable = false
  association : ∀ connection, s.lists (.association connection) = []

section Runs

variable {uninitialised : Int64} {s₀ s t : ListServer κ} {e : ListEvent κ}
  {events : List (ListEvent κ)} {key : ListScope κ × List UInt8} {l : MmsNamedVariableList}

/-- What the requests keep. -/
structure Kept (s₀ s : ListServer κ) : Prop where
  domains : s.domains = s₀.domains
  unique : s.Unique
  static : ∀ key l, s₀.view key = some l → l.deletable = false → s.view key = some l
  allDefined : s.AllDefined
  allSound : s.AllSound

theorem Configured.kept (h : s.Configured) : Kept s s where
  domains := rfl
  unique := h.unique
  static _ _ hl _ := hl
  allDefined connection l hmem := by
    rw [h.association] at hmem
    cases hmem
  allSound key l hl hd := by
    rw [h.static key l hl] at hd
    cases hd

theorem Fits.deletable {connection : κ} {name : ObjectName} (h : s.Fits connection name)
    (hkey : s.key connection name = some key) : s.Deletable connection name := by
  cases name with
  | vmdSpecific => trivial
  | aaSpecific => trivial
  | domainSpecific domainId itemId =>
    refine ⟨?_, Or.inl h⟩
    rw [Fits, hkey, resolve] at h
    obtain ⟨domain, hdomain, -⟩ := Option.map_eq_some_iff.mp h
    rw [hdomain]
    rfl

variable [DecidableEq κ]

theorem Kept.lawful (hk : Kept s₀ s) (h : s.Meets uninitialised e) :
    ∃ answer t, handle uninitialised s e = .ok (answer, t) ∧ s.Lawful e answer t ∧ Kept s₀ t := by
  obtain ⟨answer, t, heq, hlawful, ha, hs⟩ := handle_lawful hk.unique hk.allDefined hk.allSound h
  refine ⟨answer, t, heq, hlawful, hlawful.domains.trans hk.domains, hlawful.unique, ?_, ha, hs⟩
  intro key l hl hstatic
  exact hlawful.static key l (hk.static key l hl hstatic) hstatic

theorem Kept.step (hk : Kept s₀ s) (h : s.Meets uninitialised e) (hstep : Step uninitialised s e t) :
    Kept s₀ t := by
  obtain ⟨answer, hstep⟩ := hstep
  obtain ⟨answer', t', heq, -, hkept⟩ := hk.lawful h
  rw [hstep] at heq
  cases heq
  exact hkept

theorem Kept.run (h : s₀.Configured)
    (hr : Transition.Run (Step uninitialised) (Meets uninitialised) s₀ events s) : Kept s₀ s :=
  hr.invariant h.kept fun _ _ _ hk hm hs => hk.step hm hs

end Runs

end ListServer

end Iec61850
