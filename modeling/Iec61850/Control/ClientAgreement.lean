import Iec61850.Control.ControlClient
import Iec61850.Control.SelectBeforeOperate

/-! One client and one control object: what the client takes for a selection, and whether its
operations agree with it. -/

namespace Iec61850.Control

open Machine

/-- What the client and the server have to do with each other. `transmit` is what comes of the
value of a control on its way, nothing when the server cannot read it. An object has not always
got all its elements. -/
structure Association where
  names : ControlNames
  connection : Connection
  transmit : MmsValue → Option MmsValue
  hasSBO : Bool
  hasSBOw : Bool
  hasCancel : Bool

/-- What the client is told and what the server did. `selectedWith` of an operation is the value
of the last successful select with value, as long as the object is ready; `equal` tells whether
the parameters are those of the object, and `accepted` that the answer is not the one to an
operation with other parameters. -/
inductive Exchange
  | select (returned selected : Bool)
  | selectWithValue (returned selected : Bool)
  | operate (selectedWith : Option MmsValue) (ctlVal : MmsValue) (equal accepted : Bool)

/-- A selection is reported when there is one, and an operation with the value that was selected
is accepted. -/
def Exchange.Agrees : Exchange → Prop
  | .select returned selected => returned = selected
  | .selectWithValue returned selected => returned = selected
  | .operate selectedWith ctlVal equal accepted =>
    selectedWith = some ctlVal → equal = true ∧ accepted = true

/-- `operated` tells whether the client has operated since the last successful select with
value. -/
structure Session where
  client : ControlObjectClient
  server : Server
  selectedWith : Option MmsValue
  operated : Bool
  exchanges : List Exchange

inductive Call
  | select (currentTime : UInt64) (result : CheckResult)
  | selectWithValue (ctlVal : MmsValue) (timestamp currentTime : UInt64) (result : CheckResult)
  | operate (ctlVal : MmsValue) (operTime timestamp currentTime : UInt64) (result : CheckResult)
    (invokeId : UInt32)
  | cancel (timestamp : UInt64)
  | serverActs (e : Event)

def Observation.isSelection (connection : Connection) : Observation → Bool
  | .selected connection' _ _ _ => connection' = connection
  | _ => false

/-- The comparison of `Oper` with the parameters of the object. -/
def ControlObject.hasParametersOf (self : ControlObject) (w : ControlWrite) : Bool :=
  match getCtlVal w.value, getOperParameterCtlNum w.value, getOperParameterOrigin w.value,
    self.parameters with
  | some ctlVal, some ctlNum, some origin, some stored =>
    ControlParameters.equals ⟨ctlVal, ctlNum, origin⟩ stored
  | _, _, _, _ => false

/-- Not the answer to an operation with other parameters, and no null pointer either. -/
def isAccepted : Exec Handled → Bool
  | .ok r => r.indication ≠ .typeInconsistent
  | .error _ => false

/-- The server behind its answer; the null pointer leaves nothing to tell. -/
def Server.answered (s : Server) : Exec Handled → Server
  | .ok r => (s.handled r).1
  | .error _ => s

/-- What the server does of its own. -/
def Event.IsOwn : Event → Prop
  | .processControlActions _ => True
  | .startActivated _ => True
  | .work _ _ _ => True
  | .configure _ _ => True
  | _ => False

namespace Session

def start (n : ControlNames) (client : ControlObjectClient) (ctlModel : UInt32)
    (sboClass : Option Int32) (sboTimeout : Option UInt32) (oper : MmsValue) : Session where
  client := client
  server := .create (.create ctlModel n.sbo sboClass sboTimeout oper)
  selectedWith := none
  operated := false
  exchanges := []

def exchanged (s : Session) (e : Exchange) : Session := { s with exchanges := s.exchanges ++ [e] }

def request (a : Association) (value : MmsValue) : ControlWrite :=
  ⟨a.connection, value, false, fun _ => false, 0⟩

def select (a : Association) (s : Session) (currentTime : UInt64) (result : CheckResult) :
    Session :=
  if a.hasSBO then
    let (object, value, observations) := s.server.object.readSBO a.connection currentTime result
    { s with server := { s.server with object := object } }.exchanged
      (.select (s.client.isSelectResponse (some value))
        (observations.any (·.isSelection a.connection)))
  else s.exchanged (.select (s.client.isSelectResponse none) false)

def selectWithValue (a : Association) (s : Session) (ctlVal : MmsValue)
    (timestamp currentTime : UInt64) (result : CheckResult) : Session :=
  let answer : Option (Exec Handled) :=
    if a.hasSBOw then
      (a.transmit ctlVal).map fun received =>
        s.server.object.writeSBOw (request a (s.client.selValParameters received timestamp))
          currentTime result
    else none
  match answer with
  | some (.ok r) =>
    let returned := r.indication = .success
    { s with
      server := (s.server.handled r).1
      selectedWith := if returned then some ctlVal else s.selectedWith
      operated := if returned then false else s.operated }.exchanged
      (.selectWithValue returned (r.observations.any (·.isSelection a.connection)))
  | _ => s.exchanged (.selectWithValue false false)

def operate (a : Association) (s : Session) (ctlVal : MmsValue)
    (operTime timestamp currentTime : UInt64) (result : CheckResult) (invokeId : UInt32) :
    Session :=
  let client := { s.client with ctlNum := s.client.ctlNum + 1 }
  let selectedWith := if s.server.object.state = .ready then s.selectedWith else none
  match a.transmit ctlVal with
  | none =>
    { s with client := client, operated := true }.exchanged
      (.operate selectedWith ctlVal false false)
  | some received =>
    let w := request a (client.operParameters received operTime timestamp)
    let answer := s.server.object.writeOper w currentTime result invokeId
    { s with
      client := client
      server := s.server.answered answer
      operated := true }.exchanged
      (.operate selectedWith ctlVal (s.server.object.hasParametersOf w) (isAccepted answer))

def cancel (a : Association) (s : Session) (timestamp : UInt64) : Session :=
  match a.transmit s.client.ctlVal with
  | some received =>
    if a.hasCancel then
      let w := request a (s.client.cancelParameters received timestamp)
      { s with server := (s.server.handled (s.server.object.writeCancel w)).1 }
    else s
  | none => s

def serverActs (s : Session) (e : Event) : Session :=
  match s.server.step e with
  | .ok (server, _) => { s with server := server }
  | .error _ => s

def call (a : Association) (s : Session) : Call → Session
  | .select currentTime result => s.select a currentTime result
  | .selectWithValue ctlVal timestamp currentTime result =>
    s.selectWithValue a ctlVal timestamp currentTime result
  | .operate ctlVal operTime timestamp currentTime result invokeId =>
    s.operate a ctlVal operTime timestamp currentTime result invokeId
  | .cancel timestamp => s.cancel a timestamp
  | .serverActs e => s.serverActs e

def Step (a : Association) (s : Session) (c : Call) (s' : Session) : Prop := s' = s.call a c

/-- Nobody else uses the object. -/
def Alone (_ : Session) : Call → Prop
  | .serverActs e => e.IsOwn
  | _ => True

/-- The object is not asked for a select that it answers without making it, and the operation is
the first one behind the select with value, with a number that is not the one before zero. -/
def Matches (a : Association) (s : Session) (c : Call) : Prop :=
  s.Alone c ∧
    match c with
    | .select _ _ => ¬ (a.hasSBO = true ∧ s.server.object.ctlModel = 4)
    | .operate ctlVal _ _ _ _ _ =>
      s.server.object.state = .ready → s.selectedWith = some ctlVal →
        s.operated = false ∧ s.client.ctlNum ≠ 255
    | _ => True

/-- Everything that was exchanged so far agrees. -/
def Agrees (s : Session) : Prop := ∀ e ∈ s.exchanges, e.Agrees

end Session

/-- The object is still the one that was created. -/
structure ControlObject.SameModel (o o' : ControlObject) : Prop where
  ctlModel : o'.ctlModel = o.ctlModel
  sbo : o'.sbo = o.sbo

structure ControlObject.Keeps (o o' : ControlObject) : Prop extends SameModel o o' where
  parameters : o'.parameters = o.parameters

namespace ControlObject

variable {o o' o'' : ControlObject}

theorem SameModel.refl : o.SameModel o := ⟨rfl, rfl⟩

theorem SameModel.trans (h : o.SameModel o') (h' : o'.SameModel o'') : o.SameModel o'' :=
  ⟨h'.ctlModel.trans h.ctlModel, h'.sbo.trans h.sbo⟩

theorem Keeps.refl : o.Keeps o := ⟨.refl, rfl⟩

theorem keeps_abortControlOperation : o.Keeps o.abortControlOperation := ⟨⟨rfl, rfl⟩, rfl⟩

theorem keeps_checkSelectTimeout (currentTime : UInt64) :
    o.Keeps (o.checkSelectTimeout currentTime).1 := by
  unfold checkSelectTimeout
  split <;> exact ⟨⟨rfl, rfl⟩, rfl⟩

theorem keeps_readSBO (connection : Connection) (currentTime : UInt64) (result : CheckResult) :
    o.Keeps (o.readSBO connection currentTime result).1 := by
  have h := o.keeps_checkSelectTimeout currentTime
  unfold readSBO
  split
  · dsimp only
    split
    · exact ⟨⟨h.ctlModel, h.sbo⟩, h.parameters⟩
    · exact h
  · exact .refl

theorem keeps_cancelTimeActivated (indication : MmsDataAccessError)
    (lastApplError : Option LastApplError) :
    o.Keeps (o.cancelTimeActivated indication lastApplError).object := by
  unfold cancelTimeActivated
  split <;> exact ⟨⟨rfl, rfl⟩, rfl⟩

theorem keeps_writeCancel (w : ControlWrite) : o.Keeps (o.writeCancel w).object := by
  unfold writeCancel
  split
  · split
    · split
      · exact ⟨⟨rfl, rfl⟩, rfl⟩
      · exact keeps_cancelTimeActivated _ _
    · exact keeps_cancelTimeActivated _ _
  · exact .refl

theorem sameModel_setOperateTime (w : ControlWrite) (check : MmsValue) :
    o.SameModel (o.setOperateTime w check) := by
  unfold setOperateTime
  split
  · exact .refl
  · dsimp only
    split <;> exact ⟨rfl, rfl⟩

theorem sameModel_performTest (connection : Connection) (result : CheckResult)
    (invokeId : UInt32) (observations : List Observation) :
    o.SameModel (o.performTest connection result invokeId observations).object := by
  unfold performTest
  dsimp only
  split <;> exact ⟨rfl, rfl⟩

theorem sameModel_acceptOper (w : ControlWrite) (parameters : ControlParameters)
    (check : MmsValue) (currentTime : UInt64) (result : CheckResult) (invokeId : UInt32)
    (observations : List Observation) :
    o.SameModel
      (o.acceptOper w parameters check currentTime result invokeId observations).object := by
  have h := sameModel_setOperateTime (o := { o with parameters := some parameters }) w check
  unfold acceptOper
  dsimp only
  split
  · split <;> exact ⟨h.ctlModel, h.sbo⟩
  · refine SameModel.trans ?_ (sameModel_performTest _ _ _ _)
    exact ⟨h.ctlModel, h.sbo⟩

/-- The operation is not refused as one with other parameters. -/
theorem acceptOper_indication (w : ControlWrite) (parameters : ControlParameters)
    (check : MmsValue) (currentTime : UInt64) (result : CheckResult) (invokeId : UInt32)
    (observations : List Observation) :
    (o.acceptOper w parameters check currentTime result invokeId observations).indication ≠
      .typeInconsistent := by
  have hcheck (code : Int) : indicationOfCheck code ≠ .typeInconsistent := by
    unfold indicationOfCheck
    split_ifs <;> exact nofun
  unfold acceptOper performTest
  dsimp only
  split
  · split <;> exact nofun
  · split
    · exact nofun
    · exact hcheck _

theorem sameModel_writeOper {w : ControlWrite} {currentTime : UInt64} {result : CheckResult}
    {invokeId : UInt32} {r : Handled} (h : o.writeOper w currentTime result invokeId = .ok r) :
    o.SameModel r.object := by
  have hkeep := (o.keeps_checkSelectTimeout currentTime).toSameModel
  unfold writeOper at h
  split at h
  · split at h
    · cases h
      exact .refl
    · dsimp only at h
      split at h
      · cases h
        exact hkeep
      · cases h
        exact hkeep
      · split at h
        · split at h
          · cases h
            exact ⟨hkeep.ctlModel, hkeep.sbo⟩
          · split at h
            · split at h
              · cases h
              · split at h
                · cases h
                  refine SameModel.trans ?_ (sameModel_acceptOper _ _ _ _ _ _ _)
                  exact ⟨hkeep.ctlModel, hkeep.sbo⟩
                · cases h
                  exact ⟨hkeep.ctlModel, hkeep.sbo⟩
            · cases h
              refine SameModel.trans ?_ (sameModel_acceptOper _ _ _ _ _ _ _)
              exact ⟨hkeep.ctlModel, hkeep.sbo⟩
        · cases h
          refine SameModel.trans ?_ (sameModel_acceptOper _ _ _ _ _ _ _)
          exact ⟨hkeep.ctlModel, hkeep.sbo⟩
      · cases h
        exact hkeep
  · cases h
    exact .refl

theorem isAccepted_acceptOper (w : ControlWrite) (parameters : ControlParameters)
    (check : MmsValue) (currentTime : UInt64) (result : CheckResult) (invokeId : UInt32)
    (observations : List Observation) :
    isAccepted (.ok (o.acceptOper w parameters check currentTime result invokeId observations)) =
      true :=
  decide_eq_true (acceptOper_indication _ _ _ _ _ _ _)

theorem isAccepted_writeOper {w : ControlWrite} (currentTime : UInt64) (result : CheckResult)
    (invokeId : UInt32) (h : o.hasParametersOf w = true) :
    isAccepted (o.writeOper w currentTime result invokeId) = true := by
  have hkeep := o.keeps_checkSelectTimeout currentTime
  unfold writeOper
  split
  case h_2 => rfl
  case h_1 ctlVal test ctlNum origin check time hval htest hnum horigin hcheck htime =>
  unfold hasParametersOf at h
  rw [hval, hnum, horigin] at h
  split
  · rfl
  · dsimp only
    split
    · rfl
    · rfl
    · split
      · split
        · rfl
        · split
          · -- the comparison
            split
            case h_1 hnone =>
              rw [hkeep.parameters] at hnone
              rw [hnone] at h
              cases h
            case h_2 stored hstored =>
              rw [hkeep.parameters] at hstored
              rw [hstored] at h
              rw [if_pos h]
              exact isAccepted_acceptOper _ _ _ _ _ _ _
          · exact isAccepted_acceptOper _ _ _ _ _ _ _
      · exact isAccepted_acceptOper _ _ _ _ _ _ _
    · rfl

theorem hasParametersOf_none (h : o.parameters = none) (w : ControlWrite) :
    o.hasParametersOf w = false := by
  unfold hasParametersOf
  rw [h]
  split
  case h_1 hstored => cases hstored
  case h_2 => rfl

theorem checkSelectTimeout_unselected (h : o.state = .unselected) (currentTime : UInt64) :
    o.checkSelectTimeout currentTime = (o, []) := by
  rw [checkSelectTimeout, h]
  simp

/-- An operation on an object that is not selected is not compared with anything. -/
theorem isAccepted_unselected (h : o.state = .unselected) (w : ControlWrite)
    (currentTime : UInt64) (result : CheckResult) (invokeId : UInt32) :
    isAccepted (o.writeOper w currentTime result invokeId) = true := by
  unfold writeOper
  split
  · split
    · rfl
    · rw [checkSelectTimeout_unselected h]
      dsimp only
      rw [h]
      rfl
  · rfl

theorem writeOper_unselected {w : ControlWrite} {currentTime : UInt64} {result : CheckResult}
    {invokeId : UInt32} {r : Handled} (hstate : o.state = .unselected)
    (h : o.writeOper w currentTime result invokeId = .ok r) :
    r.object = o ∧ r.startsThread = false := by
  unfold writeOper at h
  split at h
  · split at h
    · cases h
      exact ⟨rfl, rfl⟩
    · rw [checkSelectTimeout_unselected hstate] at h
      dsimp only at h
      rw [hstate] at h
      cases h
      exact ⟨rfl, rfl⟩
  · cases h
    exact ⟨rfl, rfl⟩

theorem any_checkSelectTimeout (connection : Connection) (currentTime : UInt64) :
    (o.checkSelectTimeout currentTime).2.any (·.isSelection connection) = false := by
  unfold checkSelectTimeout
  split <;> rfl

/-- What writing `SBOw` does to the object, and when it selects it. -/
theorem writeSBOw_spec {w : ControlWrite} {ctlVal ctlNum origin : MmsValue}
    (hval : getCtlVal w.value = some ctlVal) (hnum : getOperParameterCtlNum w.value = some ctlNum)
    (horigin : getOperParameterOrigin w.value = some origin) (currentTime : UInt64)
    (result : CheckResult) :
    ∃ r, o.writeSBOw w currentTime result = .ok r ∧ o.SameModel r.object ∧
      (r.indication = .success ∧ r.object.parameters = some ⟨ctlVal, ctlNum, origin⟩ ∧
          r.observations.any (·.isSelection w.connection) = true ∨
        r.indication ≠ .success ∧ r.object.parameters = o.parameters ∧
          r.observations.any (·.isSelection w.connection) = false) := by
  have hkeep := o.keeps_checkSelectTimeout currentTime
  have hexpired := o.any_checkSelectTimeout w.connection currentTime
  unfold writeSBOw
  rw [hval, horigin, hnum]
  split
  · exact ⟨_, rfl, .refl, .inr ⟨nofun, rfl, rfl⟩⟩
  · dsimp only
    split
    · exact ⟨_, rfl, .refl, .inr ⟨nofun, rfl, rfl⟩⟩
    · split
      · exact ⟨_, rfl, hkeep.toSameModel, .inr ⟨nofun, hkeep.parameters, hexpired⟩⟩
      · split
        · refine ⟨_, rfl, ⟨hkeep.ctlModel, hkeep.sbo⟩, .inl ⟨rfl, rfl, ?_⟩⟩
          rw [List.any_append, List.any_cons, Observation.isSelection, decide_eq_true rfl,
            Bool.true_or, Bool.or_true]
        · exact ⟨_, rfl, hkeep.toSameModel, .inr ⟨nofun, hkeep.parameters, hexpired⟩⟩

/-- The object answers with its reference, if it has got one. -/
def Refers (n : ControlNames) (o : ControlObject) : Prop :=
  o.sbo = if o.ctlModel = 2 ∨ o.ctlModel = 4 then some n.sbo else none

theorem Refers.of_same {n : ControlNames} (h : o.Refers n) (h' : o.SameModel o') : o'.Refers n := by
  rw [Refers, h'.sbo, h'.ctlModel]
  exact h

end ControlObject

namespace Server

theorem sameModel_answered {s : Server} {w : ControlWrite} {currentTime : UInt64}
    {result : CheckResult} {invokeId : UInt32} {answer : Exec Handled}
    (h : s.object.writeOper w currentTime result invokeId = answer) :
    s.object.SameModel (s.answered answer).object := by
  cases answer with
  | ok r => exact ControlObject.sameModel_writeOper h
  | error => exact .refl

theorem answered_unselected {s : Server} (hstate : s.object.state = .unselected)
    (w : ControlWrite) (currentTime : UInt64) (result : CheckResult) (invokeId : UInt32) :
    s.answered (s.object.writeOper w currentTime result invokeId) = s := by
  cases hanswer : s.object.writeOper w currentTime result invokeId with
  | ok r =>
    obtain ⟨hobject, hthread⟩ := ControlObject.writeOper_unselected hstate hanswer
    rw [answered, handled, hobject, hthread]
    rfl
  | error => rfl

end Server

theorem isSelectResponse_sbo {n : ControlNames} {c : ControlObjectClient}
    (h : c.objectReference = n.objectReference) :
    c.isSelectResponse (some (.visibleString (some n.sbo))) = true := by
  have hne : n.sboOctets ≠ [] := by
    unfold ControlNames.sboOctets
    exact List.append_ne_nil_of_right_ne_nil _ (List.cons_ne_nil _ _)
  have hrefusal := n.sbo_ne_sboReference h
  rw [ControlObjectClient.isSelectResponse]
  simp [ControlNames.sbo, hne, hrefusal]

/-- The client tells a selection from a refusal, unless the object answers without a selection. -/
theorem isSelectResponse_readSBO {n : ControlNames} {c : ControlObjectClient}
    (hc : c.objectReference = n.objectReference) {o : ControlObject} (h : o.Refers n)
    (hm : o.ctlModel ≠ 4) (connection : Connection) (currentTime : UInt64)
    (result : CheckResult) :
    c.isSelectResponse (some (o.readSBO connection currentTime result).2.1) =
      (o.readSBO connection currentTime result).2.2.any (·.isSelection connection) := by
  have hkeep := o.keeps_checkSelectTimeout currentTime
  have hexpired := o.any_checkSelectTimeout connection currentTime
  unfold ControlObject.readSBO
  split
  case isTrue hmodel =>
    dsimp only
    split
    · have hsbo := h.of_same hkeep.toSameModel
      rw [ControlObject.Refers, hkeep.ctlModel, if_pos (.inl hmodel)] at hsbo
      change c.isSelectResponse (some (.visibleString (o.checkSelectTimeout currentTime).1.sbo)) = _
      rw [hsbo, isSelectResponse_sbo hc]
      simp [Observation.isSelection]
    · exact hexpired.symm
  case isFalse hmodel =>
    rw [ControlObject.Refers, if_neg (not_or.mpr ⟨hmodel, hm⟩)] at h
    rw [h]
    rfl

namespace Session

/-- The parameters of the object are those of the next operation. -/
def Prepared (a : Association) (s : Session) (ctlVal : MmsValue) : Prop :=
  ∃ received, a.transmit ctlVal = some received ∧
    s.server.object.parameters = some ⟨received,
      MmsValue.newUnsignedFromUint32 (s.client.ctlNum.toUInt32 + 1), s.client.createOriginValue⟩

structure Inv (a : Association) (s : Session) : Prop where
  refers : s.server.object.Refers a.names
  reference : s.client.objectReference = a.names.objectReference
  prepared : ∀ ctlVal, s.selectedWith = some ctlVal → s.operated = false → s.Prepared a ctlVal
  agrees : s.Agrees

variable {a : Association} {s : Session}

theorem Agrees.exchanged (h : s.Agrees) {e : Exchange} (he : e.Agrees) :
    (s.exchanged e).Agrees := by
  intro e' hmem
  rcases List.mem_append.mp hmem with hmem | hmem
  · exact h e' hmem
  · obtain rfl := List.mem_singleton.mp hmem
    exact he

theorem Inv.exchanged (h : s.Inv a) {e : Exchange} (he : e.Agrees) : (s.exchanged e).Inv a :=
  ⟨h.refers, h.reference, h.prepared, h.agrees.exchanged he⟩

/-- What the server does to its object besides the parameters does not matter. -/
theorem Inv.keeps (h : s.Inv a) {server : Server} (hk : s.server.object.Keeps server.object) :
    { s with server := server }.Inv a := by
  refine ⟨h.refers.of_same hk.toSameModel, h.reference, fun ctlVal hsel hop => ?_, h.agrees⟩
  obtain ⟨received, htransmit, hparams⟩ := h.prepared ctlVal hsel hop
  exact ⟨received, htransmit, hk.parameters.trans hparams⟩

theorem Inv.select (h : s.Inv a) (currentTime : UInt64) (result : CheckResult)
    (hm : ¬ (a.hasSBO = true ∧ s.server.object.ctlModel = 4)) :
    (s.select a currentTime result).Inv a := by
  unfold Session.select
  split
  case isTrue hhas =>
    have hkeep := s.server.object.keeps_readSBO a.connection currentTime result
    refine (h.keeps hkeep).exchanged ?_
    exact isSelectResponse_readSBO h.reference h.refers (fun h4 => hm ⟨hhas, h4⟩) _ _ _
  case isFalse => exact h.exchanged rfl

theorem Inv.selectWithValue (h : s.Inv a) (ctlVal : MmsValue) (timestamp currentTime : UInt64)
    (result : CheckResult) : (s.selectWithValue a ctlVal timestamp currentTime result).Inv a := by
  unfold Session.selectWithValue
  cases htransmit : a.transmit ctlVal with
  | none =>
    rw [Option.map_none, ite_self]
    exact h.exchanged rfl
  | some received =>
    split
    case isFalse => exact h.exchanged rfl
    case isTrue =>
    obtain ⟨r, hr, hsame, hcases⟩ := ControlObject.writeSBOw_spec (o := s.server.object)
      (w := request a (s.client.selValParameters received timestamp))
      (ControlObjectClient.getCtlVal_selValParameters _ _ _)
      (ControlObjectClient.getCtlNum_selValParameters _ _ _)
      (ControlObjectClient.getOrigin_selValParameters _ _ _) currentTime result
    rw [Option.map_some, hr]
    dsimp only
    rcases hcases with ⟨hind, hparams, hany⟩ | ⟨hind, hparams, hany⟩
    · rw [if_pos hind, if_pos hind]
      refine Inv.exchanged ?_ ?_
      · refine ⟨h.refers.of_same hsame, h.reference, fun v hv _ => ?_, h.agrees⟩
        obtain rfl := Option.some.inj hv
        exact ⟨received, htransmit, hparams⟩
      · exact (decide_eq_true hind).trans hany.symm
    · rw [if_neg hind, if_neg hind]
      refine Inv.exchanged ?_ ?_
      · exact h.keeps ⟨hsame, hparams⟩
      · exact (decide_eq_false hind).trans hany.symm

theorem toUInt32_succ {ctlNum : UInt8} (h : ctlNum ≠ 255) :
    (ctlNum + 1).toUInt32 = ctlNum.toUInt32 + 1 := by
  have hlt : ctlNum.toNat ≠ 255 := fun heq => h (UInt8.toNat_inj.mp heq)
  have hle := ctlNum.toNat_lt
  apply UInt32.toNat_inj.mp
  simp only [UInt8.toNat_toUInt32, UInt8.toNat_add, UInt32.toNat_add, UInt8.reduceToNat,
    UInt32.reduceToNat]
  omega

/-- The first operation behind the select has the parameters of the select. -/
theorem Prepared.hasParametersOf {ctlVal received : MmsValue} (h : s.Prepared a ctlVal)
    (htransmit : a.transmit ctlVal = some received) (hn : s.client.ctlNum ≠ 255)
    (operTime timestamp : UInt64) :
    s.server.object.hasParametersOf (request a
      ({ s.client with ctlNum := s.client.ctlNum + 1 }.operParameters received operTime
        timestamp)) = true := by
  obtain ⟨received', htransmit', hparams⟩ := h
  obtain rfl := Option.some.inj (htransmit.symm.trans htransmit')
  rw [ControlObject.hasParametersOf, hparams, request]
  simp only [ControlObjectClient.getCtlVal_operParameters,
    ControlObjectClient.getCtlNum_operParameters, ControlObjectClient.getOrigin_operParameters,
    toUInt32_succ hn]
  rw [ControlParameters.equals, MmsValue.equals_refl, MmsValue.equals_refl,
    Bool.true_and, Bool.and_true]
  exact MmsValue.equals_refl _

theorem Inv.operate (h : s.Inv a) (ctlVal : MmsValue) (operTime timestamp currentTime : UInt64)
    (result : CheckResult) (invokeId : UInt32)
    (hg : s.server.object.state = .ready → s.selectedWith = some ctlVal →
      s.operated = false ∧ s.client.ctlNum ≠ 255) :
    (s.operate a ctlVal operTime timestamp currentTime result invokeId).Inv a := by
  have hready (v : MmsValue)
      (hv : (if s.server.object.state = .ready then s.selectedWith else none) = some v) :
      s.server.object.state = .ready ∧ s.selectedWith = some v := by
    split at hv
    case isTrue hstate => exact ⟨hstate, hv⟩
    case isFalse => cases hv
  unfold Session.operate
  cases htransmit : a.transmit ctlVal with
  | none =>
    refine Inv.exchanged ?_ ?_
    · exact ⟨h.refers, h.reference, fun _ _ hop => (nomatch hop), h.agrees⟩
    intro hv
    obtain ⟨hstate, hsel⟩ := hready ctlVal hv
    obtain ⟨received, hreceived, -⟩ := h.prepared ctlVal hsel (hg hstate hsel).1
    rw [htransmit] at hreceived
    cases hreceived
  | some received =>
    refine Inv.exchanged ?_ ?_
    · refine ⟨?_, h.reference, fun _ _ hop => (nomatch hop), h.agrees⟩
      exact h.refers.of_same (Server.sameModel_answered rfl)
    · intro hv
      obtain ⟨hstate, hsel⟩ := hready ctlVal hv
      obtain ⟨hop, hn⟩ := hg hstate hsel
      have heq := (h.prepared ctlVal hsel hop).hasParametersOf htransmit hn operTime timestamp
      exact ⟨heq, ControlObject.isAccepted_writeOper currentTime result invokeId heq⟩

theorem Inv.cancel (h : s.Inv a) (timestamp : UInt64) : (s.cancel a timestamp).Inv a := by
  unfold Session.cancel
  split
  · split
    · exact h.keeps (s.server.object.keeps_writeCancel _)
    · exact h
  · exact h

end Session

theorem Worker.keeps_step {o o' : ControlObject} {closed : List Connection} {ok : Bool}
    {currentTime : UInt64} {worker : Worker} {next : Option Worker}
    {observations : List Observation}
    (h : worker.step o closed ok currentTime = .ok (o', next, observations)) : o.Keeps o' := by
  cases worker with
  | start =>
    rw [Worker.step] at h
    split at h
    · cases h
      exact .refl
    · split at h <;> cases h <;> exact .refl
  | reject task isTimeActivatedControl =>
    cases isTimeActivatedControl with
    | true =>
      obtain ⟨sent, -, h⟩ := bind_ok h
      cases h
      exact .refl
    | false =>
      obtain ⟨sent, -, h⟩ := bind_ok h
      cases h
      exact .refl
  | respond task isTimeActivatedControl =>
    cases isTimeActivatedControl with
    | true =>
      obtain ⟨sent, -, h⟩ := bind_ok h
      obtain ⟨object, hclear, h⟩ := bind_ok h
      cases h
      obtain ⟨oper, rfl⟩ := clearOperTime_same hclear
      exact ⟨⟨rfl, rfl⟩, rfl⟩
    | false =>
      obtain ⟨sent, -, h⟩ := bind_ok h
      cases h
      exact .refl
  | terminate task =>
    rw [Worker.step] at h
    split at h
    · obtain ⟨sent, -, h⟩ := bind_ok h
      cases h
      exact .refl
    · cases h
      exact .refl
  | _ =>
    cases h
    exact ⟨⟨rfl, rfl⟩, rfl⟩

theorem Server.keeps_own {s s' : Server} {e : Event} {observations : List Observation}
    (he : e.IsOwn) (h : s.step e = .ok (s', observations)) : s.object.Keeps s'.object := by
  cases e with
  | processControlActions currentTime =>
    cases h
    unfold Server.processControlActions
    split <;> exact ⟨⟨rfl, rfl⟩, rfl⟩
  | startActivated result =>
    rw [Server.step, Server.startActivated] at h
    split at h
    · dsimp only at h
      split at h
      · cases h
        exact .refl
      · obtain ⟨sent, -, h⟩ := bind_ok h
        cases h
        exact ControlObject.keeps_abortControlOperation
    · cases h
      exact .refl
  | work index ok currentTime =>
    rw [Server.step, Server.work] at h
    split at h
    · cases h
      exact .refl
    · obtain ⟨⟨object, next, sent⟩, hstep, h⟩ := bind_ok h
      cases h
      exact Worker.keeps_step hstep
  | configure sboClass sboTimeout =>
    cases h
    exact ⟨⟨rfl, rfl⟩, rfl⟩
  | _ => exact he.elim

namespace Session

variable {a : Association} {s s' : Session}

theorem Inv.serverActs (h : s.Inv a) {e : Event} (he : e.IsOwn) :
    (s.serverActs e).Inv a := by
  unfold Session.serverActs
  split
  case h_1 server observations hstep => exact h.keeps (Server.keeps_own he hstep)
  case h_2 => exact h

theorem Inv.step {c : Call} (h : s.Inv a)
    (hg : s.Matches a c) (hs : s.Step a c s') : s'.Inv a := by
  obtain rfl := hs
  obtain ⟨halone, hmatch⟩ := hg
  cases c with
  | select currentTime result => exact h.select currentTime result hmatch
  | selectWithValue ctlVal timestamp currentTime result => exact h.selectWithValue _ _ _ _
  | operate ctlVal operTime timestamp currentTime result invokeId =>
    exact h.operate _ _ _ _ _ _ hmatch
  | cancel timestamp => exact h.cancel timestamp
  | serverActs e => exact h.serverActs halone

theorem inv_start {client : ControlObjectClient}
    (hc : client.objectReference = a.names.objectReference) (ctlModel : UInt32)
    (sboClass : Option Int32) (sboTimeout : Option UInt32) (oper : MmsValue) :
    (start a.names client ctlModel sboClass sboTimeout oper).Inv a :=
  ⟨rfl, hc, fun _ hv => (nomatch hv), fun _ he => (nomatch he)⟩

section

variable {client : ControlObjectClient} (ctlModel : UInt32) (sboClass : Option Int32)
  (sboTimeout : Option UInt32) (oper : MmsValue) {calls : List Call}

/-- The client and the object agree on every selection, from any earlier number of operations on,
and every operation with the selected value is accepted. -/
theorem run_agrees (hc : client.objectReference = a.names.objectReference)
    (hr : Transition.Run (Step a) (Matches a)
      (start a.names client ctlModel sboClass sboTimeout oper) calls s) : s.Agrees := by
  refine (hr.invariant (inv_start hc ctlModel sboClass sboTimeout oper) ?_).agrees
  intro t c u hinv hg hs
  exact hinv.step hg hs

end

theorem noSlash_sample : (47 : UInt8) ∉ [76, 68] := by decide

theorem noDot_sample : (46 : UInt8) ∉ [76] := by decide

theorem noZero_sample : (0 : UInt8) ∉ [76, 68] ++ [76] ++ [79] := by decide

/-- `LD/L.O` -/
def sampleNames : ControlNames :=
  ⟨[76, 68], [76], [79], noSlash_sample, noDot_sample, noZero_sample⟩

def sampleAssociation : Association := ⟨sampleNames, 7, some, true, true, true⟩

def sampleClient : ControlObjectClient where
  objectReference := sampleNames.objectReference
  test := false
  interlockCheck := false
  synchroCheck := false
  hasTimeActivatedMode := false
  ctlVal := .boolean false
  opertime := 0
  ctlNum := 0
  orIdent := none
  orCat := 2

/-- A session with an object whose control model is select before operate with enhanced
security. -/
def sampleStart : Session :=
  start sampleAssociation.names sampleClient 4 none none (.structured [])

def selectTrue : Call := .selectWithValue (.boolean true) 1000 1000 none

def operateTrue : Call := .operate (.boolean true) 0 1001 1001 none 1

theorem run_agrees_sample : ∃ s : Session,
    Transition.Run (Step sampleAssociation) (Matches sampleAssociation) sampleStart
      [selectTrue, operateTrue] s ∧
    s.exchanges = [.selectWithValue true true,
      .operate (some (.boolean true)) (.boolean true) true true] ∧ s.Agrees := by
  have hnil : Transition.Run (Step sampleAssociation) (Matches sampleAssociation)
      sampleStart [] _ := .nil
  have hselect := hnil.snoc (i := selectTrue) ⟨trivial, trivial⟩ rfl
  have hoperate := hselect.snoc (i := operateTrue) ⟨trivial, fun _ _ => ⟨rfl, by decide⟩⟩ rfl
  exact ⟨_, hoperate, rfl, run_agrees 4 none none (.structured []) rfl hoperate⟩

theorem operate_unselected (hstate : s.server.object.state = .unselected)
    (hparams : s.server.object.parameters = none) {ctlVal received : MmsValue}
    (htransmit : a.transmit ctlVal = some received) (operTime timestamp currentTime : UInt64)
    (result : CheckResult) (invokeId : UInt32) :
    s.operate a ctlVal operTime timestamp currentTime result invokeId =
      { s with client := { s.client with ctlNum := s.client.ctlNum + 1 }
               operated := true }.exchanged (.operate none ctlVal false true) := by
  have haccepted := ControlObject.isAccepted_unselected hstate
    (request a ({ s.client with ctlNum := s.client.ctlNum + 1 }.operParameters received operTime
      timestamp)) currentTime result invokeId
  unfold Session.operate
  rw [htransmit, hstate]
  dsimp only
  rw [ControlObject.hasParametersOf_none hparams, haccepted, Server.answered_unselected hstate]
  rfl

/-- Behind `n` operations without a select. -/
def sampleOperated (n : Nat) : Session where
  client := { sampleClient with ctlNum := UInt8.ofNat n }
  server := sampleStart.server
  selectedWith := none
  operated := n ≠ 0
  exchanges := List.replicate n (.operate none (.boolean true) false true)

theorem run_operates (n : Nat) :
    Transition.Run (Step sampleAssociation) Alone sampleStart (List.replicate n operateTrue)
      (sampleOperated n) := by
  induction n with
  | zero => exact .nil
  | succ n ih =>
    rw [List.replicate_succ']
    refine ih.snoc trivial ?_
    have hstep := @operate_unselected sampleAssociation (sampleOperated n) rfl rfl (.boolean true)
      (.boolean true) rfl 0 1001 1001 none 1
    refine Eq.trans ?_ hstep.symm
    rw [sampleOperated, UInt8.ofNat_add, List.replicate_succ']
    simp [exchanged, sampleOperated]

/-- The operation behind a select with the control number 256 has the control number 0. -/
theorem not_run_agrees_wrapped : ∃ (calls : List Call) (s : Session),
    Transition.Run (Step sampleAssociation) Alone sampleStart calls s ∧ ¬ s.Agrees := by
  have hselect := (run_operates 255).snoc (i := selectTrue) trivial rfl
  have hoperate := hselect.snoc (i := operateTrue) trivial rfl
  refine ⟨_, _, hoperate, fun h => ?_⟩
  have hbad := h (.operate (some (.boolean true)) (.boolean true) false false)
    (List.mem_append_right _ (List.mem_singleton.mpr rfl)) rfl
  exact absurd hbad.1 (by decide)

end Session

end Iec61850.Control
