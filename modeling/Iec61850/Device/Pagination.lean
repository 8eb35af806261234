import Iec61850.Device.NameList
import Iec61850.Device.NameListResponse

/-! A list of names, page by page: the service (`mms_get_namelist_service.c`) and the client that
repeats its request behind the last name it has got (`mms_client_connection.c`). -/

namespace Iec61850

open Machine BerEncoder

structure MmsDevice.Domain extends MmsDomain where
  domainName : List UInt8
  namedVariableLists : List (List UInt8)
  listsNodup : namedVariableLists.Nodup

structure MmsDevice where
  domains : List MmsDevice.Domain
  nodup : (domains.map (·.domainName)).Nodup

structure MmsServerConnection where
  /-- What the client has proposed for the size of a PDU, if it has. -/
  localDetailCalling : Option UInt32
  namedVariableLists : List (List UInt8)
  nodup : namedVariableLists.Nodup

def MmsServerConnection.maxPduSize (c : MmsServerConnection) : Int :=
  match c.localDetailCalling with
  | none => 16000
  | some n => min (i32 n.toNat) 16000

theorem MmsServerConnection.maxPduSize_le (c : MmsServerConnection) : c.maxPduSize ≤ 16000 := by
  unfold maxPduSize
  split
  · exact Int.le_refl _
  · exact min_le_right _ _

/-- Class and scope of what the client asks for; without a domain the scope is the VMD. -/
inductive NameListRequest
  | domainNames
  | namedVariables (domainId : Option (List UInt8))
  | namedVariableLists (domainId : Option (List UInt8))
  | associationVariableLists
  deriving DecidableEq

namespace MmsDevice

def getDomain (device : MmsDevice) (domainId : List UInt8) : Option Domain :=
  device.domains.find? (·.domainName = domainId)

def getNameListVMDSpecific (device : MmsDevice) : List (List UInt8) :=
  device.domains.map (·.domainName)

/-- The names there are; the device has no variables and no lists but in its domains. -/
def names (device : MmsDevice) (connection : MmsServerConnection) :
    NameListRequest → Option (List (List UInt8))
  | .domainNames => some device.getNameListVMDSpecific
  | .namedVariables none => some []
  | .namedVariables (some domainId) =>
    (device.getDomain domainId).map (·.getNameListDomainSpecific)
  | .namedVariableLists none => some []
  | .namedVariableLists (some domainId) => (device.getDomain domainId).map (·.namedVariableLists)
  | .associationVariableLists => some connection.namedVariableLists

end MmsDevice

namespace MmsServer

/-- The loop that looks for a name, and what is behind it. -/
def namesBehind (continueAfter : List UInt8) : List (List UInt8) → Option (List (List UInt8))
  | [] => none
  | name :: names => if name = continueAfter then some names else namesBehind continueAfter names

def createNameListResponse (maxPduSize : Int) (invokeId : UInt32) (nameList : List (List UInt8)) :
    Option (List UInt8) → List UInt8
  | none => encodeNameListResponse maxPduSize invokeId nameList
  | some continueAfter =>
    match namesBehind continueAfter nameList with
    | none => createConfirmedErrorPdu invokeId .objectAccessUnsupported
    | some names => encodeNameListResponse maxPduSize invokeId names

/-- An identifier is copied to a buffer of 130 octets, and a zero behind it. -/
def copyIdentifier (identifier : List UInt8) : Exec (List UInt8) :=
  if identifier.length < 130 then .ok identifier else .error .outOfBounds

/-- What a request reads around the search: the octets behind `continueAfter` in the receive
buffer, up to a zero, and the invoke id. -/
structure RequestFrame where
  behind : List UInt8
  invokeId : UInt32

/-- Only the names of a domain's variables are searched for the copy of `continueAfter`, all others
for what the receive buffer has at its place. -/
def handleGetNameListRequest (device : MmsDevice) (connection : MmsServerConnection)
    (request : NameListRequest) (continueAfter : Option (List UInt8)) (frame : RequestFrame) :
    Exec (List UInt8) := do
  let continueAfterId ← continueAfter.mapM copyIdentifier
  let inBuffer := continueAfter.map (· ++ frame.behind)
  let create := createNameListResponse connection.maxPduSize frame.invokeId
  match request with
  | .namedVariables (some domainId) =>
    match device.getDomain (← copyIdentifier domainId) with
    | none => return createConfirmedErrorPdu frame.invokeId .objectNonExistent
    | some domain => return create domain.getNameListDomainSpecific continueAfterId
  | .namedVariableLists (some domainId) =>
    match device.getDomain (← copyIdentifier domainId) with
    | none => .error .nullPointer
    | some domain => return create domain.namedVariableLists inBuffer
  | .associationVariableLists => return create connection.namedVariableLists inBuffer
  | _ => return create device.getNameListVMDSpecific inBuffer

end MmsServer

namespace MmsClient

/-- The loop over the pages, from one on with the list so far: the names and the responses.
There is no list left behind a response that is not understood. -/
def getNameList (request : Nat → Option (List UInt8) → Exec (List UInt8)) :
    Nat → Nat → List (List UInt8) → Exec (Option (List (List UInt8) × List (List UInt8)))
  | 0, _, _ => .error .outOfFuel
  | fuel + 1, page, list => do
    let message ← request page list.getLast?
    let some (names, moreFollows) ← parseGetNameListResponse message | return none
    if moreFollows then
      let some (all, messages) ← getNameList request fuel (page + 1) (list ++ names) | return none
      return some (all, message :: messages)
    else return some (list ++ names, [message])

end MmsClient

namespace MmsServer

/-- The names at the front of a list that make one page: as many as there is room for, and more
than none. -/
structure IsPage (maxPduSize : Int) (page rest : List (List UInt8)) : Prop where
  ne_nil : page ≠ []
  fits : overhead + identifierListSize page ≤ maxPduSize
  full : ∀ next, rest.head? = some next →
    maxPduSize < overhead + identifierListSize (page ++ [next])

/-- The name that the page with this number ends with, when there are names behind it. -/
inductive PageEnd (maxPduSize : Int) : List (List UInt8) → Nat → List UInt8 → Prop
  | here {page rest : List (List UInt8)} {name : List UInt8} :
    IsPage maxPduSize page rest → page.getLast? = some name → rest ≠ [] →
    PageEnd maxPduSize (page ++ rest) 0 name
  | behind {page rest : List (List UInt8)} {i : Nat} {name : List UInt8} :
    IsPage maxPduSize page rest → PageEnd maxPduSize rest i name →
    PageEnd maxPduSize (page ++ rest) (i + 1) name

variable {maxPduSize : Int} {page rest names : List (List UInt8)}

theorem identifierListSize_cons (name : List UInt8) (names : List (List UInt8)) :
    identifierListSize (name :: names) = identifierSize name + identifierListSize names := rfl

theorem nameCount_append {estimated : Int}
    (hfits : estimated + identifierListSize page ≤ maxPduSize)
    (hfull : ∀ next, rest.head? = some next →
      maxPduSize < estimated + identifierListSize (page ++ [next])) :
    nameCount maxPduSize estimated (page ++ rest) = page.length := by
  induction page generalizing estimated with
  | nil =>
    cases rest with
    | nil => rfl
    | cons next rest => exact if_pos (hfull next rfl)
  | cons n page ih =>
    rw [identifierListSize_cons] at hfits
    push_cast at hfits
    rw [List.cons_append, nameCount, if_neg (by omega), ih (by omega), List.length_cons]
    intro next hnext
    have := hfull next hnext
    rw [List.cons_append, identifierListSize_cons] at this
    push_cast at this
    omega

theorem IsPage.nameCount (h : IsPage maxPduSize page rest) :
    MmsServer.nameCount maxPduSize overhead (page ++ rest) = page.length :=
  nameCount_append h.fits h.full

/-- There is no room for the next name. -/
theorem lt_of_head_drop {estimated : Int} {next : List UInt8}
    (h : (names.drop (nameCount maxPduSize estimated names)).head? = some next) :
    maxPduSize < estimated +
      identifierListSize (names.take (nameCount maxPduSize estimated names) ++ [next]) := by
  induction names generalizing estimated with
  | nil => cases h
  | cons n names ih =>
    by_cases hn : maxPduSize < estimated + identifierSize n
    · rw [nameCount, if_pos hn] at h ⊢
      cases h
      exact hn
    · rw [nameCount, if_neg hn] at h ⊢
      have hrest := ih h
      rw [List.take_succ_cons, List.cons_append, identifierListSize_cons]
      push_cast
      omega

/-- What is included, when there is room for a name at all, is a page. -/
theorem isPage_take (h : 0 < nameCount maxPduSize overhead names) :
    IsPage maxPduSize (names.take (nameCount maxPduSize overhead names))
      (names.drop (nameCount maxPduSize overhead names)) where
  ne_nil := by
    intro hnil
    have hlength := congrArg List.length hnil
    rw [List.length_take, Nat.min_eq_left nameCount_le] at hlength
    exact h.ne' hlength
  fits := estimated_le h
  full _ := lt_of_head_drop

/-- Nothing is included when a name is too large. -/
theorem le_of_isPage {n : List UInt8} (h : IsPage maxPduSize page rest) (hn : n ∈ page) :
    overhead + identifierSize n ≤ maxPduSize := by
  have := h.fits
  have := identifierSize_le hn
  omega

/-- What the answer looks for is the last name that the client has. -/
def Continues (exact : Bool) (frame : RequestFrame) (continueAfter : Option (List UInt8)) : Prop :=
  ∀ name, continueAfter = some name → name.length < 130 ∧ (exact = true ∨ frame.behind = [])

/-- A list is served: `exact` says that the copy is looked for. -/
def serve (maxPduSize : Int) (nameList : List (List UInt8)) (exact : Bool)
    (continueAfter : Option (List UInt8)) (frame : RequestFrame) : Exec (List UInt8) := do
  let continueAfterId ← continueAfter.mapM copyIdentifier
  return createNameListResponse maxPduSize frame.invokeId nameList
    (if exact then continueAfterId else continueAfter.map (· ++ frame.behind))

theorem mapM_copyIdentifier_iff {continueAfter : Option (List UInt8)} {copy : Option (List UInt8)} :
    continueAfter.mapM copyIdentifier = .ok copy ↔
      copy = continueAfter ∧ ∀ name, continueAfter = some name → name.length < 130 := by
  cases continueAfter with
  | none =>
    constructor
    · intro h
      cases h
      exact ⟨rfl, fun _ h => (nomatch h)⟩
    · rintro ⟨rfl, _⟩
      rfl
  | some name =>
    by_cases hlt : name.length < 130
    · have hcopy : (some name).mapM copyIdentifier = .ok (some name) := by
        change (do let b ← copyIdentifier name; return some b) = _
        rw [copyIdentifier, if_pos hlt]
        rfl
      rw [hcopy]
      constructor
      · intro h
        cases h
        exact ⟨rfl, fun _ h => by cases h; exact hlt⟩
      · rintro ⟨rfl, _⟩
        rfl
    · have hcopy : (some name).mapM copyIdentifier = .error .outOfBounds := by
        change (do let b ← copyIdentifier name; return some b) = _
        rw [copyIdentifier, if_neg hlt]
        rfl
      rw [hcopy]
      constructor
      · intro h
        cases h
      · rintro ⟨_, h⟩
        exact absurd (h name rfl) hlt

theorem namesBehind_append {name : List UInt8} (h : name ∉ page) :
    namesBehind name (page ++ name :: rest) = some rest := by
  induction page with
  | nil => exact if_pos rfl
  | cons n page ih =>
    have hne : n ≠ name := fun heq => h (heq ▸ List.mem_cons_self)
    rw [List.cons_append, namesBehind, if_neg hne, ih fun hmem => h (List.mem_cons_of_mem n hmem)]

theorem namesBehind_some {name : List UInt8} (h : namesBehind name names = some rest) :
    ∃ page, names = page ++ name :: rest := by
  induction names with
  | nil => cases h
  | cons n names ih =>
    rw [namesBehind] at h
    by_cases hn : n = name
    · rw [if_pos hn] at h
      cases h
      exact ⟨[], by rw [hn]; rfl⟩
    · rw [if_neg hn] at h
      obtain ⟨page, rfl⟩ := ih h
      exact ⟨n :: page, rfl⟩

variable {all done : List (List UInt8)} {exact : Bool} {frame : RequestFrame}

/-- A page goes on where the list of the client ends. -/
theorem serve_ok (hnodup : all.Nodup) (hall : all = done ++ rest)
    (h : Continues exact frame done.getLast?) :
    serve maxPduSize all exact done.getLast? frame =
      .ok (encodeNameListResponse maxPduSize frame.invokeId rest) := by
  have hcopy : done.getLast?.mapM copyIdentifier = .ok done.getLast? :=
    mapM_copyIdentifier_iff.mpr ⟨rfl, fun name hname => (h name hname).1⟩
  rw [serve, hcopy, ok_bind]
  cases hlast : done.getLast? with
  | none =>
    obtain rfl := List.getLast?_eq_none_iff.mp hlast
    rw [List.nil_append] at hall
    rw [hall]
    cases exact <;> rfl
  | some name =>
    obtain ⟨ys, rfl⟩ := List.getLast?_eq_some_iff.mp hlast
    have hname : (if exact then some name else (some name).map (· ++ frame.behind)) =
        some name := by
      rcases (h name hlast).2 with rfl | hnil
      · rfl
      · rw [hnil]
        cases exact <;> simp
    have hsplit : all = ys ++ name :: rest := by rw [hall]; simp
    have hnot : name ∉ ys := by
      rw [hsplit] at hnodup
      exact fun hmem => List.disjoint_of_nodup_append hnodup hmem List.mem_cons_self
    rw [hname, createNameListResponse, hsplit, namesBehind_append hnot]
    rfl

variable {frames : Nat → RequestFrame} {fuel page₀ : Nat}

/-- The names that are left, from one page on, can all be delivered. -/
structure Deliverable (maxPduSize : Int) (exact : Bool) (frames : Nat → RequestFrame)
    (rest : List (List UInt8)) : Prop where
  fits : ∀ n ∈ rest, overhead + identifierSize n ≤ maxPduSize
  empty : rest = [] → 11 + uInt32determineEncodedSize (frames 0).invokeId ≤ maxPduSize
  continues : ∀ i n, PageEnd maxPduSize rest i n → Continues exact (frames (i + 1)) (some n)

theorem nameCount_pos (hne : rest ≠ [])
    (hfits : ∀ n ∈ rest, overhead + identifierSize n ≤ maxPduSize) :
    0 < nameCount maxPduSize overhead rest := by
  cases rest with
  | nil => exact absurd rfl hne
  | cons n rest => exact nameCount_pos_iff.mpr (hfits n List.mem_cons_self)

/-- Behind a page there is less left, and it can be delivered from the next page on. -/
theorem Deliverable.behind (h : Deliverable maxPduSize exact frames rest)
    (hmore : nameCount maxPduSize overhead rest < rest.length) :
    Deliverable maxPduSize exact (fun i => frames (i + 1))
      (rest.drop (nameCount maxPduSize overhead rest)) where
  fits n hn := h.fits n (List.mem_of_mem_drop hn)
  empty hnil := absurd (List.drop_eq_nil_iff.mp hnil) (by omega)
  continues i n hend := by
    have hne : rest ≠ [] := List.ne_nil_of_length_pos (by omega)
    have hpage := isPage_take (nameCount_pos hne h.fits)
    have hbehind := PageEnd.behind hpage hend
    rw [List.take_append_drop] at hbehind
    exact h.continues (i + 1) n hbehind

open MmsClient

theorem getNameList_deliverable (hmax : maxPduSize ≤ 16000) (hnodup : all.Nodup)
    (hall : all = done ++ rest) (hstart : Continues exact (frames page₀) done.getLast?)
    (h : Deliverable maxPduSize exact (fun i => frames (page₀ + i)) rest)
    (hf : rest.length < fuel) : ∃ messages,
      getNameList (fun page continueAfter => serve maxPduSize all exact continueAfter (frames page))
        fuel page₀ done = .ok (some (all, messages)) ∧
      ∀ m ∈ messages, (m.length : Int) ≤ maxPduSize := by
  induction fuel generalizing done rest page₀ with
  | zero => cases hf
  | succ fuel ih =>
    have hpage : rest = [] ∨ 0 < nameCount maxPduSize overhead rest := by
      rcases eq_or_ne rest [] with hnil | hne
      · exact Or.inl hnil
      · exact Or.inr (nameCount_pos hne h.fits)
    have hsize : ((encodeNameListResponse maxPduSize (frames page₀).invokeId rest).length : Int) ≤
        maxPduSize := by
      rcases hpage with rfl | hpos
      · have hempty := h.empty rfl
        rw [length_encodeNameListResponse_nil]
        push_cast
        exact hempty
      · exact length_encodeNameListResponse_le _ hpos
    rw [getNameList, serve_ok hnodup hall hstart, ok_bind,
      parse_encodeNameListResponse _ hmax hpage, ok_bind]
    simp only [decide_eq_true_eq]
    by_cases hmore : nameCount maxPduSize overhead rest < rest.length
    · have hne : rest ≠ [] := List.ne_nil_of_length_pos (by omega)
      have hpos := nameCount_pos hne h.fits
      have hlast : (rest.take (nameCount maxPduSize overhead rest)).getLast? =
          (done ++ rest.take (nameCount maxPduSize overhead rest)).getLast? := by
        rw [List.getLast?_append_of_ne_nil _ (isPage_take hpos).ne_nil]
      have hnext : Continues exact (frames (page₀ + 1))
          (done ++ rest.take (nameCount maxPduSize overhead rest)).getLast? := by
        intro n hn
        rw [← hlast] at hn
        have hend := PageEnd.here (isPage_take hpos) hn (by
          rw [ne_eq, List.drop_eq_nil_iff]
          omega)
        rw [List.take_append_drop] at hend
        exact h.continues 0 n hend n rfl
      have hbehind := h.behind hmore
      have hshift : (fun i => frames (page₀ + (i + 1))) = fun i => frames (page₀ + 1 + i) := by
        funext i
        rw [Nat.add_assoc, Nat.add_comm 1]
      rw [hshift] at hbehind
      obtain ⟨messages, hrun, hbound⟩ := ih (by rw [List.append_assoc, List.take_append_drop, hall])
        hnext hbehind (by rw [List.length_drop]; omega)
      refine ⟨_ :: messages, ?_, List.forall_mem_cons.mpr ⟨hsize, hbound⟩⟩
      rw [if_pos hmore, hrun, ok_bind]
      rfl
    · refine ⟨[_], ?_, List.forall_mem_singleton.mpr hsize⟩
      rw [if_neg hmore, List.take_of_length_le (by omega), hall]
      rfl

/-- What one page of a run that ends well was. -/
theorem getNameList_succ {request : Nat → Option (List UInt8) → Exec (List UInt8)}
    {messages : List (List UInt8)}
    (h : getNameList request (fuel + 1) page₀ done = .ok (some (all, messages))) :
    ∃ message messages' names moreFollows, messages = message :: messages' ∧
      request page₀ done.getLast? = .ok message ∧
      parseGetNameListResponse message = .ok (some (names, moreFollows)) ∧
      (moreFollows = false → done ++ names = all) ∧
      (moreFollows = true →
        getNameList request fuel (page₀ + 1) (done ++ names) = .ok (some (all, messages'))) := by
  rw [getNameList] at h
  obtain ⟨message, hmessage, h⟩ := bind_ok h
  obtain ⟨parsed, hparsed, h⟩ := bind_ok h
  cases parsed with
  | none => cases h
  | some parsed =>
    obtain ⟨names, moreFollows⟩ := parsed
    cases moreFollows with
    | false =>
      cases h
      exact ⟨message, [], names, false, rfl, hmessage, hparsed, fun _ => rfl, fun h => (nomatch h)⟩
    | true =>
      obtain ⟨result, hresult, h⟩ := bind_ok h
      cases result with
      | none => cases h
      | some result =>
        cases h
        exact ⟨message, result.2, names, true, rfl, hmessage, hparsed, fun h => (nomatch h),
          fun _ => hresult⟩

/-- The list of the client only grows. -/
theorem getNameList_prefix {request : Nat → Option (List UInt8) → Exec (List UInt8)}
    {messages : List (List UInt8)}
    (h : getNameList request fuel page₀ done = .ok (some (all, messages))) :
    ∃ names, all = done ++ names := by
  induction fuel generalizing page₀ done messages with
  | zero => cases h
  | succ fuel ih =>
    obtain ⟨_, _, names, moreFollows, _, _, _, hend, hmore⟩ := getNameList_succ h
    cases moreFollows with
    | false => exact ⟨names, (hend rfl).symm⟩
    | true =>
      obtain ⟨names', rfl⟩ := ih (hmore rfl)
      exact ⟨names ++ names', List.append_assoc _ _ _⟩

/-- A page that is understood has identifiers, or there are none. -/
theorem nameCount_pos_of_parse {invokeId : UInt32} {parsed : List (List UInt8) × Bool}
    (h : parseGetNameListResponse (encodeNameListResponse maxPduSize invokeId rest) =
      .ok (some parsed)) :
    rest = [] ∨ 0 < nameCount maxPduSize overhead rest := by
  by_contra hnot
  obtain ⟨hne, hzero⟩ := not_or.mp hnot
  rw [parse_encodeNameListResponse_stuck _ hne (Nat.eq_zero_of_not_pos hzero)] at h
  cases h

/-- In a list without repetitions the one name is in front of the other in one place only. -/
theorem eq_of_followed {name name' next : List UInt8} {xs xs' ys ys' : List (List UInt8)}
    (hnodup : all.Nodup) (h : all = xs ++ name :: next :: ys)
    (h' : all = xs' ++ name' :: next :: ys') : name = name' := by
  have hsplit : all = (xs ++ [name]) ++ next :: ys := by rw [h]; simp
  have hsplit' : all = (xs' ++ [name']) ++ next :: ys' := by rw [h']; simp
  rw [hsplit', List.nodup_middle, List.nodup_cons, List.mem_append, not_or] at hnodup
  have heq := (List.append_cons_inj_of_notMem hnodup.1.1 hnodup.1.2).mp (hsplit'.symm.trans hsplit)
  exact (List.append_singleton_inj.mp heq.1).2.symm

/-- When the answer looks for something else, the client does not get the list. -/
theorem continues_of_page {message : List UInt8} {ns ns' : List (List UInt8)} {moreFollows : Bool}
    (hmax : maxPduSize ≤ 16000)
    (hnodup : all.Nodup) (hall : all = done ++ rest) (hne : rest ≠ [])
    (hs : serve maxPduSize all exact done.getLast? frame = .ok message)
    (hp : parseGetNameListResponse message = .ok (some (ns, moreFollows)))
    (hgrow : all = done ++ ns ++ ns') (hlast : moreFollows = false → done ++ ns = all) :
    Continues exact frame done.getLast? := by
  intro name hname
  rw [serve] at hs
  obtain ⟨copy, hcopy, hs⟩ := bind_ok hs
  obtain ⟨rfl, hlt⟩ := mapM_copyIdentifier_iff.mp hcopy
  refine ⟨hlt name hname, ?_⟩
  by_contra hnot
  obtain ⟨hexact, hbehind⟩ := not_or.mp hnot
  rw [if_neg hexact, hname, Option.map_some, createNameListResponse] at hs
  cases hfound : namesBehind (name ++ frame.behind) all with
  | none =>
    rw [hfound] at hs
    cases hs
    rw [parse_createConfirmedErrorPdu] at hp
    cases hp
  | some names =>
    rw [hfound] at hs
    cases hs
    obtain ⟨page, hpage⟩ := namesBehind_some hfound
    have hpos := nameCount_pos_of_parse hp
    rw [parse_encodeNameListResponse _ hmax hpos] at hp
    cases hp
    cases names with
    | nil =>
      have hend := hlast rfl
      rw [List.take_nil, List.append_nil, hall, List.self_eq_append_right] at hend
      exact hne hend
    | cons next names =>
      have hcount : 0 < nameCount maxPduSize overhead (next :: names) := by
        rcases hpos with h | h
        · cases h
        · exact h
      obtain ⟨k, hk⟩ := Nat.exists_eq_add_of_lt hcount
      obtain ⟨ys, rfl⟩ := List.getLast?_eq_some_iff.mp hname
      rw [Nat.zero_add] at hk
      rw [hk, List.take_succ_cons] at hgrow
      have hgrow' : all = ys ++ name :: next :: (names.take k ++ ns') := by
        rw [hgrow]
        simp
      have heq := eq_of_followed hnodup hgrow' hpage
      exact hbehind (List.self_eq_append_right.mp heq)

/-- The page that ends a list ends it only once. -/
theorem isPage_unique {page' rest' : List (List UInt8)} (h : IsPage maxPduSize page rest)
    (h' : IsPage maxPduSize page' rest') (heq : page ++ rest = page' ++ rest') :
    page = page' ∧ rest = rest' := by
  have hcount := h.nameCount
  rw [heq, h'.nameCount] at hcount
  exact List.append_inj heq hcount.symm

theorem PageEnd.ne_nil {i : Nat} {n : List UInt8} (h : PageEnd maxPduSize names i n) :
    names ≠ [] := by
  cases h with
  | here hpage => exact fun hnil => hpage.ne_nil (List.append_eq_nil_iff.mp hnil).1
  | behind hpage => exact fun hnil => hpage.ne_nil (List.append_eq_nil_iff.mp hnil).1

/-- The pages of a list are its first page and those of what is behind it. -/
theorem PageEnd.cases_page {i : Nat} {n : List UInt8} (h : PageEnd maxPduSize names i n)
    (hpage : IsPage maxPduSize page rest) (heq : names = page ++ rest) :
    (i = 0 ∧ page.getLast? = some n ∧ rest ≠ []) ∨
      ∃ j, i = j + 1 ∧ PageEnd maxPduSize rest j n := by
  cases h with
  | here hpage' hlast hne =>
    obtain ⟨rfl, rfl⟩ := isPage_unique hpage' hpage heq
    exact Or.inl ⟨rfl, hlast, hne⟩
  | behind hpage' hend =>
    obtain ⟨rfl, rfl⟩ := isPage_unique hpage' hpage heq
    exact Or.inr ⟨_, rfl, hend⟩

/-- One page can be delivered, and what is behind it. -/
theorem Deliverable.cons (hpage : IsPage maxPduSize page rest)
    (hnext : rest ≠ [] → Continues exact (frames 1) page.getLast?)
    (hrest : rest ≠ [] → Deliverable maxPduSize exact (fun i => frames (i + 1)) rest) :
    Deliverable maxPduSize exact frames (page ++ rest) where
  fits n hn := by
    rcases List.mem_append.mp hn with hn | hn
    · exact le_of_isPage hpage hn
    · exact (hrest (List.ne_nil_of_mem hn)).fits n hn
  empty hnil := absurd (List.append_eq_nil_iff.mp hnil).1 hpage.ne_nil
  continues i n hend := by
    rcases hend.cases_page hpage rfl with ⟨rfl, hlast, hne⟩ | ⟨j, rfl, hrestEnd⟩
    · rw [← hlast]
      exact hnext hne
    · exact (hrest hrestEnd.ne_nil).continues j n hrestEnd

/-- A list that the client has got could be delivered. -/
theorem deliverable_of_getNameList {messages : List (List UInt8)} (hmax : maxPduSize ≤ 16000)
    (hnodup : all.Nodup) (hall : all = done ++ rest) (hne : done ≠ [] → rest ≠ [])
    (h : getNameList
      (fun page continueAfter => serve maxPduSize all exact continueAfter (frames page))
        fuel page₀ done = .ok (some (all, messages)))
    (hbound : ∀ m ∈ messages, (m.length : Int) ≤ maxPduSize) :
    Continues exact (frames page₀) done.getLast? ∧
      Deliverable maxPduSize exact (fun i => frames (page₀ + i)) rest := by
  induction fuel generalizing done rest page₀ messages with
  | zero => cases h
  | succ fuel ih =>
    obtain ⟨message, messages', names, moreFollows, rfl, hs, hp, hend, hmore⟩ := getNameList_succ h
    have hstart : Continues exact (frames page₀) done.getLast? := by
      rcases eq_or_ne done [] with rfl | hdone
      · exact fun name hname => (nomatch hname)
      · obtain ⟨ns', hgrow⟩ : ∃ ns', all = done ++ names ++ ns' := by
          cases moreFollows with
          | false => exact ⟨[], by rw [List.append_nil, hend rfl]⟩
          | true => exact getNameList_prefix (hmore rfl)
        exact continues_of_page hmax hnodup hall (hne hdone) hs hp hgrow hend
    rw [serve_ok hnodup hall hstart] at hs
    cases hs
    have hpos := nameCount_pos_of_parse hp
    rw [parse_encodeNameListResponse _ hmax hpos] at hp
    cases hp
    refine ⟨hstart, ?_⟩
    have hsize := hbound _ List.mem_cons_self
    rcases hpos with rfl | hpos
    · rw [length_encodeNameListResponse_nil] at hsize
      push_cast at hsize
      exact {
        fits := fun n hn => (nomatch hn)
        empty := fun _ => hsize
        continues := fun i n hend => absurd rfl hend.ne_nil }
    · have hbehind (hne : rest.drop (nameCount maxPduSize overhead rest) ≠ []) :=
        ih (by rw [List.append_assoc, List.take_append_drop, hall]) (fun _ => hne)
          (hmore (by
            rw [ne_eq, List.drop_eq_nil_iff] at hne
            exact decide_eq_true (by omega)))
          (fun m hm => hbound m (List.mem_cons_of_mem _ hm))
      have hpage := isPage_take hpos
      rw [← List.take_append_drop (nameCount maxPduSize overhead rest) rest]
      apply Deliverable.cons hpage
      · intro hne
        have hlast := (hbehind hne).1
        rwa [List.getLast?_append_of_ne_nil _ hpage.ne_nil] at hlast
      · intro hne
        have hdeliver := (hbehind hne).2
        have hshift : (fun i => frames (page₀ + 1 + i)) = fun i => frames (page₀ + (i + 1)) := by
          funext i
          rw [Nat.add_assoc, Nat.add_comm 1]
        rwa [hshift] at hdeliver

end MmsServer

namespace NameListRequest

def domainId : NameListRequest → Option (List UInt8)
  | .namedVariables domainId => domainId
  | .namedVariableLists domainId => domainId
  | _ => none

/-- What is answered with the names of the domains all the same. -/
def AnsweredWithDomains (request : NameListRequest) : Prop :=
  request = .namedVariables none ∨ request = .namedVariableLists none

/-- Whether the copy of `continueAfter` is looked for. -/
def searchesCopy : NameListRequest → Bool
  | .namedVariables (some _) => true
  | _ => false

end NameListRequest

namespace MmsDevice

open MmsServer MmsClient

variable {device : MmsDevice} {connection : MmsServerConnection} {request : NameListRequest}
  {names : List (List UInt8)}

/-- The client that repeats its request gets all the names, each of them once and in order, in
responses that are not larger than the association allows. -/
def Paginates (device : MmsDevice) (connection : MmsServerConnection) (request : NameListRequest)
    (frames : Nat → RequestFrame) (names : List (List UInt8)) : Prop :=
  names.Nodup ∧ ∃ fuel messages,
    getNameList (fun page continueAfter =>
      handleGetNameListRequest device connection request continueAfter (frames page)) fuel 0 [] =
      .ok (some (names, messages)) ∧
    ∀ m ∈ messages, (m.length : Int) ≤ connection.maxPduSize

/-- Nothing is asked that is answered with something else, the identifier of the domain has room in
the buffer, and the names can be delivered. -/
structure CanPaginate (device : MmsDevice) (connection : MmsServerConnection)
    (request : NameListRequest) (frames : Nat → RequestFrame) (names : List (List UInt8)) : Prop where
  answered : request.AnsweredWithDomains → device.domains = []
  domainId : ∀ domainId, request.domainId = some domainId → domainId.length < 130
  deliverable : Deliverable connection.maxPduSize request.searchesCopy frames names

theorem nodup_names (h : device.names connection request = some names) : names.Nodup := by
  cases request with
  | domainNames =>
    cases h
    exact device.nodup
  | associationVariableLists =>
    cases h
    exact connection.nodup
  | namedVariables domainId =>
    cases domainId with
    | none =>
      cases h
      exact List.nodup_nil
    | some domainId =>
      obtain ⟨domain, _, rfl⟩ := Option.map_eq_some_iff.mp h
      exact domain.nodup_getNameListDomainSpecific
  | namedVariableLists domainId =>
    cases domainId with
    | none =>
      cases h
      exact List.nodup_nil
    | some domainId =>
      obtain ⟨domain, _, rfl⟩ := Option.map_eq_some_iff.mp h
      exact domain.listsNodup

theorem copyIdentifier_eq {identifier : List UInt8} (h : identifier.length < 130) :
    copyIdentifier identifier = .ok identifier := if_pos h

/-- The names are served. -/
theorem handle_eq_serve (h : device.names connection request = some names)
    (ha : request.AnsweredWithDomains → device.domains = [])
    (hd : ∀ domainId, request.domainId = some domainId → domainId.length < 130)
    (continueAfter : Option (List UInt8)) (frame : RequestFrame) :
    handleGetNameListRequest device connection request continueAfter frame =
      serve connection.maxPduSize names request.searchesCopy continueAfter frame := by
  rw [handleGetNameListRequest, serve]
  cases hcopy : continueAfter.mapM copyIdentifier with
  | error => rfl
  | ok copy =>
    cases request with
    | domainNames =>
      cases h
      rfl
    | associationVariableLists =>
      cases h
      rfl
    | namedVariables domainId =>
      cases domainId with
      | none =>
        cases h
        have hnil := ha (Or.inl rfl)
        rw [getNameListVMDSpecific, hnil]
        rfl
      | some domainId =>
        obtain ⟨domain, hdomain, rfl⟩ := Option.map_eq_some_iff.mp h
        simp only [ok_bind, copyIdentifier_eq (hd domainId rfl), hdomain]
        rfl
    | namedVariableLists domainId =>
      cases domainId with
      | none =>
        cases h
        have hnil := ha (Or.inr rfl)
        rw [getNameListVMDSpecific, hnil]
        rfl
      | some domainId =>
        obtain ⟨domain, hdomain, rfl⟩ := Option.map_eq_some_iff.mp h
        simp only [ok_bind, copyIdentifier_eq (hd domainId rfl), hdomain]
        rfl

/-- Nothing is answered that has no room for the identifier of its domain. -/
theorem length_domainId_lt {continueAfter : Option (List UInt8)} {frame : RequestFrame}
    {message domainId : List UInt8}
    (h : handleGetNameListRequest device connection request continueAfter frame = .ok message)
    (hd : request.domainId = some domainId) : domainId.length < 130 := by
  by_contra hlong
  have hcopy : copyIdentifier domainId = .error .outOfBounds := if_neg hlong
  rw [handleGetNameListRequest] at h
  obtain ⟨copy, _, h⟩ := bind_ok h
  cases request with
  | domainNames | associationVariableLists => cases hd
  | namedVariables id =>
    obtain rfl : id = some domainId := hd
    simp only [hcopy] at h
    cases h
  | namedVariableLists id =>
    obtain rfl : id = some domainId := hd
    simp only [hcopy] at h
    cases h

/-- The domains' names are served to who asks for what the device does not have. -/
theorem handle_answeredWithDomains (h : request.AnsweredWithDomains)
    (continueAfter : Option (List UInt8)) (frame : RequestFrame) :
    handleGetNameListRequest device connection request continueAfter frame =
      serve connection.maxPduSize device.getNameListVMDSpecific false continueAfter frame := by
  rw [handleGetNameListRequest, serve]
  rcases h with rfl | rfl <;> rfl

/-- Who asks for what the device does not have gets nothing only when there are no domains. -/
theorem domains_eq_nil {frames : Nat → RequestFrame} (ha : request.AnsweredWithDomains)
    (h : device.Paginates connection request frames []) : device.domains = [] := by
  obtain ⟨_, fuel, messages, hrun, _⟩ := h
  cases fuel with
  | zero => cases hrun
  | succ fuel =>
    obtain ⟨message, _, ns, moreFollows, _, hs, hp, hend, hmore⟩ := getNameList_succ hrun
    have hstart : Continues false (frames 0) ([] : List (List UInt8)).getLast? :=
      fun name hname => (nomatch hname)
    have hnodup : device.getNameListVMDSpecific.Nodup := device.nodup
    rw [handle_answeredWithDomains ha, serve_ok hnodup rfl hstart] at hs
    cases hs
    have hnil : ns = [] := by
      cases moreFollows with
      | false => exact hend rfl
      | true =>
        obtain ⟨names, hgrow⟩ := getNameList_prefix (hmore rfl)
        exact (List.append_eq_nil_iff.mp hgrow.symm).1
    have hpos := nameCount_pos_of_parse hp
    rw [parse_encodeNameListResponse _ connection.maxPduSize_le hpos] at hp
    cases hp
    rcases hpos with hdomains | hpos
    · exact List.map_eq_nil_iff.mp hdomains
    · exact absurd hnil (isPage_take hpos).ne_nil

theorem canPaginate_of_paginates {frames : Nat → RequestFrame}
    (h : device.names connection request = some names)
    (hp : device.Paginates connection request frames names) :
    device.CanPaginate connection request frames names := by
  have ha : request.AnsweredWithDomains → device.domains = [] := by
    intro ha
    have hnil : names = [] := by
      rcases ha with rfl | rfl <;> cases h <;> rfl
    exact domains_eq_nil ha (hnil ▸ hp)
  obtain ⟨hnodup, fuel, messages, hrun, hbound⟩ := hp
  have hd : ∀ domainId, request.domainId = some domainId → domainId.length < 130 := by
    intro domainId hd
    cases fuel with
    | zero => cases hrun
    | succ fuel =>
      obtain ⟨message, _, _, _, _, hs, _⟩ := getNameList_succ hrun
      exact length_domainId_lt hs hd
  simp only [handle_eq_serve h ha hd] at hrun
  have hdeliver := (deliverable_of_getNameList connection.maxPduSize_le hnodup rfl
    (fun hne => absurd rfl hne) hrun hbound).2
  simp only [Nat.zero_add] at hdeliver
  exact ⟨ha, hd, hdeliver⟩

/-- The client gets the names exactly when they can be delivered. -/
theorem paginates_iff (frames : Nat → RequestFrame)
    (h : device.names connection request = some names) :
    device.Paginates connection request frames names ↔
      device.CanPaginate connection request frames names := by
  constructor
  · exact canPaginate_of_paginates h
  · rintro ⟨ha, hd, hdeliver⟩
    have hnodup := nodup_names h
    have hstart : Continues request.searchesCopy (frames 0) ([] : List (List UInt8)).getLast? :=
      fun name hname => (nomatch hname)
    have hshift : Deliverable connection.maxPduSize request.searchesCopy (fun i => frames (0 + i))
        names := by
      simpa only [Nat.zero_add] using hdeliver
    obtain ⟨messages, hrun, hbound⟩ := getNameList_deliverable connection.maxPduSize_le hnodup rfl
      hstart hshift (Nat.lt_succ_self _)
    refine ⟨hnodup, names.length + 1, messages, ?_, hbound⟩
    simp only [handle_eq_serve h ha hd]
    exact hrun

def emptyDomain (domainName : List UInt8) : Domain where
  namedVariables := []
  nodup := List.nodup_nil
  plain := List.forall_mem_nil _
  wellNamed := List.forall_mem_nil _
  domainName := domainName
  namedVariableLists := []
  listsNodup := List.nodup_nil

theorem nodup_twoDomains :
    ([emptyDomain [65], emptyDomain [66]].map (·.domainName)).Nodup := by decide

def twoDomains : MmsDevice where
  domains := [emptyDomain [65], emptyDomain [66]]
  nodup := nodup_twoDomains

/-- There is room for one name of one octet. -/
def smallConnection : MmsServerConnection where
  localDetailCalling := some 30
  namedVariableLists := []
  nodup := List.nodup_nil

theorem names_twoDomains :
    twoDomains.names smallConnection .domainNames = some [[65], [66]] := rfl

theorem isPage_twoDomains : IsPage smallConnection.maxPduSize [[65]] [[66]] where
  ne_nil := List.cons_ne_nil _ _
  fits := by decide
  full next h := by
    cases h
    decide

theorem isPage_lastDomain : IsPage smallConnection.maxPduSize [[66]] [] where
  ne_nil := List.cons_ne_nil _ _
  fits := by decide
  full next h := (nomatch h)

/-- With nothing behind the name the two domains are enumerated. -/
theorem paginates_twoDomains :
    twoDomains.Paginates smallConnection .domainNames (fun _ => ⟨[], 1⟩) [[65], [66]] :=
  (paginates_iff _ names_twoDomains).mpr {
    answered := fun h => by rcases h with h | h <;> cases h
    domainId := fun _ h => (nomatch h)
    deliverable := {
      fits := by decide
      empty := fun h => (nomatch h)
      continues := fun i n hend name hname => by
        cases hname
        rcases hend.cases_page isPage_twoDomains rfl with ⟨_, hlast, _⟩ | ⟨j, _, hrest⟩
        · cases hlast
          exact ⟨by decide, Or.inr rfl⟩
        · rcases hrest.cases_page isPage_lastDomain rfl with ⟨_, _, hne⟩ | ⟨_, _, hnil⟩
          · exact absurd rfl hne
          · exact absurd rfl hnil.ne_nil } }

/-- With an octet behind the name that the client continues with, the second domain is not got. -/
theorem not_paginates_twoDomains :
    ¬ twoDomains.Paginates smallConnection .domainNames (fun _ => ⟨[97], 1⟩) [[65], [66]] := by
  intro hp
  have hcan := canPaginate_of_paginates names_twoDomains hp
  have hend := @PageEnd.here _ _ _ [65] isPage_twoDomains rfl (List.cons_ne_nil _ _)
  rcases (hcan.deliverable.continues 0 [65] hend [65] rfl).2 with hexact | hnil
  · cases hexact
  · cases hnil

end MmsDevice

end Iec61850
