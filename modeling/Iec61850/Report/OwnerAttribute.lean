import Iec61850.Client.ObjectReferences
import Iec61850.Lib.Decimal
import Iec61850.Lib.Transition
import Iec61850.Report.EventSteps

/-! The attribute `Owner` of a report control block: the address of a client as `updateOwner`
reads it, and what the attribute says of the owner of the block. -/

namespace Iec61850

open Machine

/-! ## Addresses -/

/-- A peer that is connected over IPv4. -/
structure Ipv4Peer where
  first : UInt8
  second : UInt8
  third : UInt8
  fourth : UInt8
  port : UInt16

namespace Ipv4Peer

def octets (peer : Ipv4Peer) : List UInt8 := [peer.first, peer.second, peer.third, peer.fourth]

/-- What `Socket_getPeerAddress` makes of it. -/
def clientAddress (peer : Ipv4Peer) : List UInt8 :=
  Decimal.octets peer.first.toNat ++ 46 :: (Decimal.octets peer.second.toNat ++ 46 ::
    (Decimal.octets peer.third.toNat ++ 46 :: (Decimal.octets peer.fourth.toNat ++ 58 ::
      Decimal.octets peer.port.toNat)))

end Ipv4Peer

namespace Reporting

def isSpace (c : UInt8) : Bool := c = 32 || (9 ≤ c && c ≤ 13)

def digitsValue (digits : List UInt8) : Int :=
  Decimal.value (digits.takeWhile StringUtils.isDigit)

/-- What has no place in an `int` is cut off. -/
def atoi (s : List UInt8) : Int :=
  match s.dropWhile isSpace with
  | 45 :: digits => i32 (-digitsValue digits)
  | 43 :: digits => i32 (digitsValue digits)
  | digits => i32 (digitsValue digits)

/-- The loop of `updateOwner`: the separator that it has found is where it reads on. -/
def addressElements : Nat → Option (List UInt8) → List UInt8
  | 0, _ => []
  | _ + 1, none => []
  | n + 1, some separator =>
    UInt8.ofInt (atoi separator) :: addressElements n (strchr separator 46)

/-- The octets that `updateOwner` takes from the address of a client. -/
def ownerAddress (clientAddressString : List UInt8) : List UInt8 :=
  match strchr clientAddressString 46 with
  | some _ =>
    let ipV4Addr := addressElements 4 (some clientAddressString)
    if ipV4Addr.length = 4 then ipV4Addr else []
  | none => []

theorem addressElements_separator (n : Nat) (rest : List UInt8) :
    addressElements n (some (46 :: rest)) = List.replicate n 0 := by
  induction n with
  | zero => rfl
  | succ n ih =>
    have hfound : strchr (46 :: rest) 46 = some (46 :: rest) :=
      strchr_append List.not_mem_nil rest
    rw [addressElements, hfound, ih]
    rfl

theorem isDigit_of_mem_octets {n : Nat} {d : UInt8} (h : d ∈ Decimal.octets n) :
    StringUtils.isDigit d = true := by
  obtain ⟨hle, hge⟩ := Decimal.octet_bounds h
  rw [StringUtils.isDigit, Bool.and_eq_true, decide_eq_true_eq, decide_eq_true_eq]
  exact ⟨UInt8.lt_iff_toNat_lt.mpr hle, UInt8.lt_iff_toNat_lt.mpr (Nat.lt_succ_of_le hge)⟩

theorem point_notMem_octets (n : Nat) : 46 ∉ Decimal.octets n := by
  intro h
  exact absurd (Decimal.octet_bounds h).1 (by decide)

theorem atoi_of_isDigit {d : UInt8} {s : List UInt8} (hd : StringUtils.isDigit d = true) :
    atoi (d :: s) = i32 (digitsValue (d :: s)) := by
  have hspace : isSpace d = false := by
    simp only [StringUtils.isDigit, isSpace, Bool.and_eq_true, Bool.or_eq_false_iff,
      Bool.and_eq_false_iff, decide_eq_true_eq, decide_eq_false_iff_not, ← UInt8.toNat_inj,
      UInt8.lt_iff_toNat_lt, UInt8.le_iff_toNat_le, UInt8.toNat_ofNat] at hd ⊢
    omega
  unfold atoi
  rw [List.dropWhile_cons_of_neg (by rw [hspace]; exact Bool.false_ne_true)]
  split
  · next heq =>
    cases heq
    cases hd
  · next heq =>
    cases heq
    cases hd
  · rfl

/-- The number in front of a point is read. -/
theorem atoi_octets (b : UInt8) (rest : List UInt8) :
    atoi (Decimal.octets b.toNat ++ 46 :: rest) = b.toNat := by
  have hdigits : ∀ d ∈ Decimal.octets b.toNat, StringUtils.isDigit d = true :=
    fun _ hd => isDigit_of_mem_octets hd
  have htake : (Decimal.octets b.toNat ++ 46 :: rest).takeWhile StringUtils.isDigit =
      Decimal.octets b.toNat := by
    rw [List.takeWhile_append_of_pos hdigits]
    exact List.append_nil _
  have hread : digitsValue (Decimal.octets b.toNat ++ 46 :: rest) = b.toNat := by
    rw [digitsValue, htake]
    exact Decimal.value_octets b.toNat
  obtain ⟨d, ds, hds⟩ := List.exists_cons_of_ne_nil (Decimal.octets_ne_nil b.toNat)
  rw [hds] at hread hdigits ⊢
  rw [List.cons_append, atoi_of_isDigit (hdigits d List.mem_cons_self)]
  rw [List.cons_append] at hread
  rw [hread]
  have hlt := b.toNat_lt
  exact i32_of_range (by omega) (by omega)

/-- Of an address only the first number is read. -/
theorem ownerAddress_clientAddress (peer : Ipv4Peer) :
    ownerAddress peer.clientAddress = [peer.first, 0, 0, 0] := by
  have hpoint := point_notMem_octets peer.first.toNat
  have hfirst : UInt8.ofInt (peer.first.toNat : Int) = peer.first := by
    have hlt := peer.first.toNat_lt
    rw [UInt8.ofInt, Int.emod_eq_of_lt (by omega) (by omega), Int.toNat_natCast,
      UInt8.ofNat_toNat]
  unfold ownerAddress Ipv4Peer.clientAddress
  simp only [strchr_append hpoint, addressElements, atoi_octets, addressElements_separator]
  rw [hfirst]
  rfl

/-! ## Owners -/

open ReportControl

/-- A client writes `RptEna` or `Resv`, or is gone. -/
inductive OwnerEvent
  | rptEna (dataSets : DataSets) (value : MmsValue) (rawBoolean : Bool) (connection : Connection)
  | resv (dataSets : DataSets) (value : MmsValue) (rawBoolean : Bool) (connection : Connection)
  | disconnect (connection : Connection)

section

variable (peers : Connection → Ipv4Peer)

def writeOf (elementName : ElementName) (value : MmsValue) (rawBoolean : Bool)
    (connection : Connection) : Write :=
  ⟨elementName, value, rawBoolean, connection, ownerAddress (peers connection).clientAddress⟩

def OwnerEvent.handle (rc : ReportControl) : OwnerEvent → Exec ReportControl
  | .rptEna dataSets value rawBoolean connection => do
    return (← rc.writeAccessHandler dataSets (writeOf peers .rptEna value rawBoolean connection)).1
  | .resv dataSets value rawBoolean connection => do
    return (← rc.writeAccessHandler dataSets (writeOf peers .resv value rawBoolean connection)).1
  | .disconnect connection => .ok (rc.deactivateReportsForConnection connection)

/-- The connection for which the block is enabled or reserved. -/
def ReportControl.owner (rc : ReportControl) : Option Connection :=
  if rc.enabled || rc.reserved then rc.clientConnection else none

/-- The attribute shows the address of the owner. -/
def ShowsOwner (rc : ReportControl) : Prop :=
  ∃ o, rc.getRCBValue .owner = some (.octetString o) ∧
    o.content = rc.owner.elim [] fun connection => (peers connection).octets

/-- A block is enabled for addresses with zeros behind the first number only, and a reservation
finds it enabled or reserved. -/
def OwnerEvent.Plain (rc : ReportControl) : OwnerEvent → Prop
  | .rptEna dataSets value rawBoolean connection =>
    SwitchesOn rc dataSets (writeOf peers .rptEna value rawBoolean connection) →
      (peers connection).octets.tail = [0, 0, 0]
  | .resv _ value rawBoolean connection =>
    (writeOf peers .resv value rawBoolean connection).boolean = true →
      rc.enabled = true ∨ rc.reserved = true
  | .disconnect _ => True

end

/-- The attribute has room for an address, and this is in it. -/
def HoldsAddress (rc : ReportControl) (address : List UInt8) : Prop :=
  ∃ o, rc.rcbValues .owner = .octetString o ∧ 4 ≤ o.maxSize ∧ o.content = address

/-- The attribute shows the address of the owner, and nobody has reserved the block. -/
structure Shown (peers : Connection → Ipv4Peer) (rc : ReportControl) : Prop where
  address : HoldsAddress rc (rc.owner.elim [] fun connection => (peers connection).octets)
  reserved : rc.reserved = false

/-! ## What an event does to the attribute -/

section

variable {rc : ReportControl} {address octets : List UInt8}

theorem HoldsAddress.updateOwner (h : HoldsAddress rc address) (hlength : octets.length ≤ 4)
    (connection : Option Connection) :
    HoldsAddress (rc.updateOwner connection octets) octets := by
  obtain ⟨o, hvalue, hroom, -⟩ := h
  have hfits : octets.length ≤ o.maxSize := hlength.trans hroom
  have hset : (rc.updateOwner connection octets).rcbValues .owner =
      MmsValue.setOctetString octets (.octetString o) := by rw [← hvalue]; rfl
  rw [MmsValue.setOctetString, dif_pos hfits] at hset
  exact ⟨_, hset, hroom, List.take_left⟩

theorem HoldsAddress.setRCBValue (h : HoldsAddress rc address) {name : ElementName}
    (hname : name ≠ .owner) (f : MmsValue → MmsValue) :
    HoldsAddress (rc.setRCBValue name f) address := by
  obtain ⟨o, hvalue, hroom, hcontent⟩ := h
  refine ⟨o, ?_, hroom, hcontent⟩
  rw [← hvalue]
  exact if_neg hname.symm

theorem HoldsAddress.updateElement (h : HoldsAddress rc address) {w : Write}
    (hname : w.elementName ≠ .owner) : HoldsAddress (rc.updateElement w).1 address := by
  unfold ReportControl.updateElement
  split
  · exact h.setRCBValue hname _
  · exact h

@[simp] theorem updateElement_enabled (rc : ReportControl) (w : Write) :
    (rc.updateElement w).1.enabled = rc.enabled := by
  unfold ReportControl.updateElement
  split <;> rfl

@[simp] theorem updateElement_reserved (rc : ReportControl) (w : Write) :
    (rc.updateElement w).1.reserved = rc.reserved := by
  unfold ReportControl.updateElement
  split <;> rfl

@[simp] theorem updateElement_clientConnection (rc : ReportControl) (w : Write) :
    (rc.updateElement w).1.clientConnection = rc.clientConnection := by
  unfold ReportControl.updateElement
  split <;> rfl

theorem HoldsAddress.enable (h : HoldsAddress rc address) {w : Write}
    (hlength : w.ownerAddress.length ≤ 4) : HoldsAddress (rc.enable w) w.ownerAddress := by
  have hrptEna : ElementName.rptEna ≠ .owner := by decide
  exact (h.updateOwner hlength (some w.connection)).setRCBValue hrptEna (·.updated w.value)

theorem HoldsAddress.disable (h : HoldsAddress rc address) : HoldsAddress rc.disable [] := by
  have hempty : ([] : List UInt8).length ≤ 4 := Nat.zero_le 4
  unfold ReportControl.disable
  split
  · exact h.updateOwner hempty none
  · have hresv : HoldsAddress (rc.clearInclusionFlags.setRCBValue .resv (·.setBoolean false))
        address := HoldsAddress.setRCBValue h (by decide) _
    exact HoldsAddress.updateOwner hresv hempty none

theorem HoldsAddress.unique (h : HoldsAddress rc address) (h' : HoldsAddress rc octets) :
    address = octets := by
  obtain ⟨o, hvalue, -, rfl⟩ := h
  obtain ⟨p, hvalue', -, rfl⟩ := h'
  cases hvalue.symm.trans hvalue'
  rfl

end

section

variable {peers : Connection → Ipv4Peer} {rc rc' : ReportControl} {dataSets : DataSets}
  {value : MmsValue} {rawBoolean : Bool} {connection : Connection}

theorem owner_of_free (he : rc.enabled = false) (hr : rc.reserved = false) : rc.owner = none := by
  rw [ReportControl.owner, he, hr]
  rfl

theorem owner_of_enabled (he : rc.enabled = true) : rc.owner = rc.clientConnection := by
  rw [ReportControl.owner, he]
  rfl

theorem shown_of_free (he : rc.enabled = false) (hr : rc.reserved = false)
    (h : HoldsAddress rc []) : Shown peers rc := by
  refine ⟨?_, hr⟩
  rw [owner_of_free he hr]
  exact h

theorem Shown.showsOwner (h : Shown peers rc) : ShowsOwner peers rc := by
  obtain ⟨o, hvalue, -, hcontent⟩ := h.address
  refine ⟨o, ?_, hcontent⟩
  rw [← hvalue]
  simp [getRCBValue, hasElement]

/-- A block that is not owned holds no address. -/
theorem Shown.address_free (h : Shown peers rc) (he : rc.enabled = false) :
    HoldsAddress rc [] := by
  have haddress := h.address
  rwa [owner_of_free he h.reserved] at haddress

theorem length_ownerAddress (peer : Ipv4Peer) : (ownerAddress peer.clientAddress).length ≤ 4 := by
  rw [ownerAddress_clientAddress]
  exact le_rfl

/-- The block is enabled, and of the address the first octet is kept. -/
theorem Shown.switchesOn (h : Shown peers rc)
    (hon : SwitchesOn rc dataSets (writeOf peers .rptEna value rawBoolean connection)) :
    ∃ rc', OwnerEvent.handle peers rc (.rptEna dataSets value rawBoolean connection) = .ok rc' ∧
      HoldsAddress rc' [(peers connection).first, 0, 0, 0] ∧ rc'.owner = some connection ∧
      rc'.reserved = false := by
  obtain ⟨-, hboolean, he, hdataSet⟩ := hon
  obtain ⟨rc1, hrc1⟩ := Option.isSome_iff_exists.mp hdataSet
  obtain ⟨values, dynamic, hrc1'⟩ := updateReportDataset_cases hrc1
  have hholds : HoldsAddress rc1 [] := by
    rw [hrc1']
    exact h.address_free he
  have hreserved : rc1.reserved = false := by
    rw [hrc1']
    exact h.reserved
  refine ⟨rc1.enable (writeOf peers .rptEna value rawBoolean connection), ?_, ?_, ?_, hreserved⟩
  · rw [OwnerEvent.handle, writeAccessHandler_rptEna_true rfl hboolean, he, hrc1]
    rfl
  · rw [← ownerAddress_clientAddress]
    exact hholds.enable (length_ownerAddress _)
  · exact owner_of_enabled rfl

theorem not_reserved_disable (hr : rc.reserved = false) : rc.disable.reserved = false := by
  unfold ReportControl.disable
  split
  · exact hr
  · rfl

/-- Any other write of `RptEna` leaves the attribute right. -/
theorem Shown.rptEna (h : Shown peers rc)
    (hoff : ¬ SwitchesOn rc dataSets (writeOf peers .rptEna value rawBoolean connection)) :
    ∃ rc', OwnerEvent.handle peers rc (.rptEna dataSets value rawBoolean connection) = .ok rc' ∧
      Shown peers rc' := by
  rw [OwnerEvent.handle]
  cases hboolean : (writeOf peers .rptEna value rawBoolean connection).boolean with
  | true =>
    rw [writeAccessHandler_rptEna_true rfl hboolean]
    cases he : rc.enabled with
    | true => exact ⟨rc, rfl, h⟩
    | false =>
      have hnone : updateReportDataset dataSets rc none = none := by
        rw [← Option.not_isSome_iff_eq_none]
        exact fun hdataSet => hoff ⟨rfl, hboolean, he, hdataSet⟩
      rw [hnone]
      exact ⟨rc, rfl, h⟩
  | false =>
    rw [writeAccessHandler_rptEna_false rfl hboolean]
    split
    · exact ⟨rc, rfl, h⟩
    · have hreserved := not_reserved_disable h.reserved
      have hwrite : writeElement dataSets rc.disable
            (writeOf peers .rptEna value rawBoolean connection) =
          .ok (rc.disable.updateElement (writeOf peers .rptEna value rawBoolean connection)) := by
        rw [writeElement, if_neg (by exact Bool.false_ne_true), if_neg (by simp [hreserved])]
        rfl
      rw [hwrite]
      have hname : (writeOf peers .rptEna value rawBoolean connection).elementName ≠ .owner :=
        ElementName.noConfusion
      refine ⟨_, rfl, shown_of_free ?_ ?_ (h.address.disable.updateElement hname)⟩
      · exact updateElement_enabled _ _
      · exact (updateElement_reserved _ _).trans hreserved

theorem writeElement_resv {w : Write} (hn : w.elementName = .resv) (he : rc.enabled = false)
    (hr : rc.reserved = false) :
    writeElement dataSets rc w = .ok (ReportControl.updateElement
      { rc with
        reserved := w.boolean
        clientConnection := if w.boolean then some w.connection else rc.clientConnection } w) := by
  rw [writeElement, he, hr, if_neg Bool.false_ne_true, if_neg (fun h => Bool.false_ne_true h.1)]
  simp only [hn]

/-- A block that is reserved has an owner, and no address. -/
theorem Shown.reserves (h : Shown peers rc) (he : rc.enabled = false)
    (hboolean : (writeOf peers .resv value rawBoolean connection).boolean = true) :
    ∃ rc', OwnerEvent.handle peers rc (.resv dataSets value rawBoolean connection) = .ok rc' ∧
      HoldsAddress rc' [] ∧ rc'.owner = some connection := by
  have hname : (writeOf peers .resv value rawBoolean connection).elementName ≠ .owner :=
    ElementName.noConfusion
  have haddress : HoldsAddress
      { rc with reserved := true, clientConnection := some connection } [] := h.address_free he
  refine ⟨_, ?_, haddress.updateElement hname, ?_⟩
  · rw [OwnerEvent.handle, writeAccessHandler, if_neg ElementName.noConfusion,
      if_neg ElementName.noConfusion, writeElement_resv rfl he h.reserved, hboolean]
    rfl
  · rw [ReportControl.owner, updateElement_reserved, Bool.or_true, if_pos rfl,
      updateElement_clientConnection]

/-- Any other write of `Resv` leaves the attribute right. -/
theorem Shown.resv (h : Shown peers rc)
    (hother : (writeOf peers .resv value rawBoolean connection).boolean = true →
      rc.enabled = true) :
    ∃ rc', OwnerEvent.handle peers rc (.resv dataSets value rawBoolean connection) = .ok rc' ∧
      Shown peers rc' := by
  rw [OwnerEvent.handle, writeAccessHandler, if_neg ElementName.noConfusion,
    if_neg ElementName.noConfusion]
  cases he : rc.enabled with
  | true =>
    refine ⟨rc, ?_, h⟩
    rw [writeElement, if_pos he]
    rfl
  | false =>
    have hboolean : (writeOf peers .resv value rawBoolean connection).boolean = false := by
      rw [← Bool.not_eq_true]
      intro hboolean
      rw [hother hboolean] at he
      cases he
    have hname : (writeOf peers .resv value rawBoolean connection).elementName ≠ .owner :=
      ElementName.noConfusion
    have haddress : HoldsAddress { rc with reserved := false } [] := h.address_free he
    rw [writeElement_resv rfl he h.reserved, hboolean]
    refine ⟨_, rfl, shown_of_free ?_ ?_ (haddress.updateElement hname)⟩
    · exact (updateElement_enabled _ _).trans he
    · exact updateElement_reserved _ _

theorem Shown.disconnect (h : Shown peers rc) :
    Shown peers (rc.deactivateReportsForConnection connection) := by
  have hempty : ([] : List UInt8).length ≤ 4 := Nat.zero_le 4
  unfold ReportControl.deactivateReportsForConnection
  split
  · have hrptEna : HoldsAddress (ReportControl.setRCBValue
        { rc with enabled := false, clientConnection := none } .rptEna (·.setBoolean false)) _ :=
      HoldsAddress.setRCBValue h.address (by decide) _
    dsimp only
    split
    · exact shown_of_free rfl h.reserved (hrptEna.updateOwner hempty none)
    · have hname : ElementName.resv ≠ .owner := by decide
      have hresv := hrptEna.setRCBValue hname (·.setBoolean false)
      exact shown_of_free rfl rfl (HoldsAddress.updateOwner hresv hempty none)
  · exact h

/-! ## Whole runs -/

theorem Shown.handle (h : Shown peers rc) {e : OwnerEvent} (hplain : e.Plain peers rc) :
    ∃ rc', e.handle peers rc = .ok rc' ∧ Shown peers rc' := by
  cases e with
  | rptEna dataSets value rawBoolean connection =>
    by_cases hon : SwitchesOn rc dataSets (writeOf peers .rptEna value rawBoolean connection)
    · obtain ⟨rc', hhandle, haddress, howner, hreserved⟩ := h.switchesOn hon
      refine ⟨rc', hhandle, ?_, hreserved⟩
      rw [howner]
      have hzeros := hplain hon
      change HoldsAddress rc' ((peers connection).first :: (peers connection).octets.tail)
      rwa [hzeros]
    · exact h.rptEna hon
  | resv dataSets value rawBoolean connection =>
    refine h.resv fun hboolean => (hplain hboolean).resolve_right ?_
    rw [h.reserved]
    exact Bool.false_ne_true
  | disconnect connection => exact ⟨_, rfl, h.disconnect⟩

theorem plain_of_showsOwner (h : Shown peers rc) {e : OwnerEvent}
    (hhandle : e.handle peers rc = .ok rc') (hshows : ShowsOwner peers rc') : e.Plain peers rc := by
  obtain ⟨o, hvalue, hcontent⟩ := hshows
  have hvalue' : rc'.rcbValues .owner = .octetString o := by
    simpa [getRCBValue, hasElement] using hvalue
  cases e with
  | rptEna dataSets value rawBoolean connection =>
    intro hon
    obtain ⟨rc1, hrc1, ⟨p, hp, -, hcontent'⟩, howner, -⟩ := h.switchesOn hon
    cases hrc1.symm.trans hhandle
    cases hvalue'.symm.trans hp
    rw [howner, hcontent'] at hcontent
    exact (List.cons.inj hcontent).2.symm
  | resv dataSets value rawBoolean connection =>
    intro hboolean
    by_contra hfree
    obtain ⟨he, -⟩ := not_or.mp hfree
    obtain ⟨rc1, hrc1, ⟨p, hp, -, hcontent'⟩, howner⟩ :=
      h.reserves (Bool.not_eq_true _ ▸ he) hboolean
    cases hrc1.symm.trans hhandle
    cases hvalue'.symm.trans hp
    rw [howner, hcontent'] at hcontent
    cases hcontent
  | disconnect connection => exact trivial

end

/-- A new block, as `Reporting_activateBufferedReports` leaves it. -/
def newBlock (dataSets : DataSets) (buffered : Bool) (rcb : ReportControlBlock)
    (memoryBlockSize : Nat) (reportTime : UInt64) : ReportControl :=
  (ReportControl.create buffered rcb memoryBlockSize reportTime).activateBufferedReports dataSets

/-- However long the clients go on, the attribute shows the owner. -/
def AlwaysShowsOwner (peers : Connection → Ipv4Peer) (rc : ReportControl)
    (events : List OwnerEvent) : Prop :=
  Transition.Always (OwnerEvent.handle peers) rc (ShowsOwner peers) events

def AllPlain (peers : Connection → Ipv4Peer) (rc : ReportControl) (events : List OwnerEvent) :
    Prop :=
  Transition.EachStep (OwnerEvent.handle peers) rc (fun rc e => e.Plain peers rc) events

theorem shown_newBlock (peers : Connection → Ipv4Peer) (dataSets : DataSets) (buffered : Bool)
    (rcb : ReportControlBlock) (memoryBlockSize : Nat) (reportTime : UInt64) :
    Shown peers (newBlock dataSets buffered rcb memoryBlockSize reportTime) := by
  have hcreate :
      HoldsAddress (ReportControl.create buffered rcb memoryBlockSize reportTime) [] := by
    cases buffered with
    | false => exact ⟨_, rfl, by decide, rfl⟩
    | true => exact ⟨_, rfl, by decide, rfl⟩
  unfold newBlock activateBufferedReports
  split
  · cases hd : updateReportDataset dataSets
      (ReportControl.create buffered rcb memoryBlockSize reportTime) none with
    | none => exact shown_of_free rfl rfl hcreate
    | some rc1 =>
      obtain ⟨values, dynamic, rfl⟩ := updateReportDataset_cases hd
      exact shown_of_free rfl rfl hcreate
  · exact shown_of_free rfl rfl hcreate

/-- The attribute follows the owner where clients have such addresses and reserve nothing. -/
theorem alwaysShowsOwner_iff (peers : Connection → Ipv4Peer) (dataSets : DataSets)
    (buffered : Bool) (rcb : ReportControlBlock) (memoryBlockSize : Nat) (reportTime : UInt64)
    (events : List OwnerEvent) :
    AlwaysShowsOwner peers (newBlock dataSets buffered rcb memoryBlockSize reportTime) events ↔
      AllPlain peers (newBlock dataSets buffered rcb memoryBlockSize reportTime) events :=
  Transition.always_iff (shown_newBlock peers dataSets buffered rcb memoryBlockSize reportTime)
    (fun _ h => h.showsOwner) (fun _ _ h hplain => h.handle hplain)
    (fun _ _ _ h hhandle hshows => plain_of_showsOwner h hhandle hshows)

/-- A client whose address is 192.168.1.5 is shown as 192.0.0.0. -/
theorem not_alwaysShowsOwner_enable :
    ¬ AlwaysShowsOwner (fun _ => ⟨192, 168, 1, 5, 1024⟩)
      (newBlock oneMember false plainBlock 200 0) [.rptEna oneMember (.boolean true) true 1] := by
  intro h
  obtain ⟨rc, hrun, o, hvalue, hcontent⟩ := h _ [] (List.append_nil _).symm
  obtain ⟨rc', hrun', hvalue', howner⟩ : ∃ rc',
      [OwnerEvent.rptEna oneMember (.boolean true) true 1].foldlM
        (OwnerEvent.handle fun _ => ⟨192, 168, 1, 5, 1024⟩)
        (newBlock oneMember false plainBlock 200 0) = .ok rc' ∧
      (∃ o, rc'.getRCBValue .owner = some (.octetString o) ∧ o.content = [192, 0, 0, 0]) ∧
      rc'.owner = some 1 := ⟨_, rfl, ⟨_, rfl, rfl⟩, rfl⟩
  obtain ⟨p, hp, hcontent'⟩ := hvalue'
  cases hrun.symm.trans hrun'
  cases hvalue.symm.trans hp
  rw [howner, hcontent'] at hcontent
  cases hcontent

end Reporting

end Iec61850
