import Iec61850.Control.ControlObject
import Iec61850.Report.Creation

/-! The client's side of a control object (`client_control.c`): the values it writes and how it
reads the answer to a select. -/

namespace Iec61850

namespace MmsValue

/-- Seconds, fraction of the second and time quality. -/
def utcTimeOctets (timeval : UInt64) : List UInt8 :=
  let remainder := (timeval % 1000).toNat
  Octets.ofNat 4 (timeval / 1000).toNat ++
    Octets.ofNat 3 (remainder * 16777 + remainder * 216 / 1000) ++ [0x0a]

theorem length_utcTimeOctets (timeval : UInt64) : (utcTimeOctets timeval).length = 8 := by
  simp only [utcTimeOctets, List.length_append, Octets.length_ofNat, List.length_singleton]

def newUtcTimeByMsTime (timeval : UInt64) : MmsValue :=
  .utcTime ⟨utcTimeOctets timeval, length_utcTimeOctets timeval⟩

end MmsValue

namespace Control

/-- An identifier of the originator, as `setOrigin` takes it. -/
abbrev OrIdent := { orIdent : List UInt8 // orIdent.length < 65536 }

structure ControlObjectClient where
  objectReference : List UInt8
  test : Bool
  interlockCheck : Bool
  synchroCheck : Bool
  hasTimeActivatedMode : Bool
  ctlVal : MmsValue
  opertime : UInt64
  ctlNum : UInt8
  orIdent : Option OrIdent
  orCat : Int32

/-- `MmsMapping_getMmsDomainFromObjectReference` of a reference with a slash. -/
def getMmsDomainFromObjectReference (objectReference : List UInt8) : List UInt8 :=
  objectReference.takeWhile (· ≠ 47)

/-- A dot is a dollar sign in the names of MMS. -/
def toMmsOctet (c : UInt8) : UInt8 := if c = 46 then 36 else c

def convertToMmsAndInsertFC (objectName fc : List UInt8) : List UInt8 :=
  let lnName := objectName.takeWhile (· ≠ 46)
  lnName ++ 36 :: fc ++ 36 :: (objectName.drop (lnName.length + 1)).map toMmsOctet

/-- `"CO"` -/
def fcCO : List UInt8 := [67, 79]

/-- `"$SBO"` -/
def sboSuffix : List UInt8 := [36, 83, 66, 79]

namespace ControlObjectClient

def createOriginValue (c : ControlObjectClient) : MmsValue :=
  let orIdent : MmsValue :=
    match c.orIdent with
    | some ⟨orIdent, h⟩ =>
      (MmsValue.newOctetString 0 orIdent.length (Nat.zero_le _) h).setOctetString orIdent
    | none => MmsValue.newOctetString 0 0 (Nat.zero_le _) (Nat.zero_lt_succ _)
  .structured [MmsValue.newIntegerFromInt16 c.orCat.toInt16, orIdent]

def setCheck (bitPos : Nat) (check : Bool) (value : MmsValue) : MmsValue :=
  if check then value.setBitStringBit bitPos else value.clearBitStringBit bitPos

def checkValue (c : ControlObjectClient) : MmsValue :=
  setCheck 0 c.synchroCheck (setCheck 1 c.interlockCheck (MmsValue.newBitString 2))

/-- `operTm`, where the object has it, and everything behind it but `Check`. -/
def commonParameters (c : ControlObjectClient) (operTime : UInt64) (ctlNum : UInt32)
    (timestamp : UInt64) : List MmsValue :=
  (if c.hasTimeActivatedMode then [MmsValue.newUtcTimeByMsTime operTime] else []) ++
    [c.createOriginValue, MmsValue.newUnsignedFromUint32 ctlNum,
      MmsValue.newUtcTimeByMsTime timestamp, .boolean c.test]

/-- What `ControlObjectClient_operate` writes to `Oper`; `ctlNum` has been increased before. -/
def operParameters (c : ControlObjectClient) (ctlVal : MmsValue) (operTime timestamp : UInt64) :
    MmsValue :=
  .structured (ctlVal :: (c.commonParameters operTime c.ctlNum.toUInt32 timestamp ++
    [c.checkValue]))

/-- What `ControlObjectClient_selectWithValue` writes to `SBOw`; the sum is an `int`. -/
def selValParameters (c : ControlObjectClient) (ctlVal : MmsValue) (timestamp : UInt64) :
    MmsValue :=
  .structured (ctlVal :: (c.commonParameters 0 (c.ctlNum.toUInt32 + 1) timestamp ++
    [c.checkValue]))

/-- What `ControlObjectClient_cancel` writes to `Cancel`. -/
def cancelParameters (c : ControlObjectClient) (ctlVal : MmsValue) (timestamp : UInt64) :
    MmsValue :=
  .structured (ctlVal :: c.commonParameters c.opertime c.ctlNum.toUInt32 timestamp)

/-- The string that `ControlObjectClient_select` takes for a refusal. -/
def sboReference (c : ControlObjectClient) : List UInt8 :=
  let domainId := getMmsDomainFromObjectReference c.objectReference
  let itemId :=
    convertToMmsAndInsertFC (c.objectReference.drop (domainId.length + 1)) fcCO ++ sboSuffix
  (domainId ++ 47 :: itemId).take 128

/-- What `ControlObjectClient_select` makes of the value of `SBO`, nothing when the read failed. -/
def isSelectResponse (c : ControlObjectClient) : Option MmsValue → Bool
  | some (.visibleString s) =>
    let reply := (s.map (·.octets)).getD []
    reply ≠ [] && reply ≠ c.sboReference
  | _ => false

variable (c : ControlObjectClient) (ctlVal : MmsValue) (operTime timestamp : UInt64)

@[simp] theorem getCtlVal_operParameters :
    getCtlVal (c.operParameters ctlVal operTime timestamp) = some ctlVal := by
  unfold operParameters commonParameters
  split <;> rfl

@[simp] theorem getOrigin_operParameters :
    getOperParameterOrigin (c.operParameters ctlVal operTime timestamp) =
      some c.createOriginValue := by
  unfold operParameters commonParameters
  split <;> rfl

@[simp] theorem getCtlNum_operParameters :
    getOperParameterCtlNum (c.operParameters ctlVal operTime timestamp) =
      some (MmsValue.newUnsignedFromUint32 c.ctlNum.toUInt32) := by
  unfold operParameters commonParameters
  split <;> rfl

@[simp] theorem getCtlVal_selValParameters :
    getCtlVal (c.selValParameters ctlVal timestamp) = some ctlVal := by
  unfold selValParameters commonParameters
  split <;> rfl

@[simp] theorem getOrigin_selValParameters :
    getOperParameterOrigin (c.selValParameters ctlVal timestamp) = some c.createOriginValue := by
  unfold selValParameters commonParameters
  split <;> rfl

@[simp] theorem getCtlNum_selValParameters :
    getOperParameterCtlNum (c.selValParameters ctlVal timestamp) =
      some (MmsValue.newUnsignedFromUint32 (c.ctlNum.toUInt32 + 1)) := by
  unfold selValParameters commonParameters
  split <;> rfl

end ControlObjectClient

/-- The names of a control object. The reference of the client has dots in it. -/
structure ControlNames where
  domainName : List UInt8
  lnName : List UInt8
  objectName : List UInt8
  noSlash : 47 ∉ domainName
  noDot : 46 ∉ lnName
  noZero : 0 ∉ domainName ++ lnName ++ objectName

namespace ControlNames

def objectReference (n : ControlNames) : List UInt8 :=
  n.domainName ++ 47 :: (n.lnName ++ 46 :: n.objectName)

/-- The name of the object in the server. -/
def name (n : ControlNames) : List UInt8 := n.objectName.map toMmsOctet

def sboOctets (n : ControlNames) : List UInt8 :=
  n.domainName ++ 47 :: (n.lnName ++ 36 :: (n.name ++ sboSuffix))

theorem toMmsOctet_ne_zero {c : UInt8} (h : c ≠ 0) : toMmsOctet c ≠ 0 := by
  rw [toMmsOctet]
  split
  · decide
  · exact h

theorem zero_not_mem_sboOctets (n : ControlNames) : 0 ∉ n.sboOctets := by
  have h := n.noZero
  simp only [List.mem_append, not_or] at h
  have hname : 0 ∉ n.name := by
    intro hmem
    obtain ⟨c, hc, hzero⟩ := List.mem_map.mp hmem
    exact toMmsOctet_ne_zero (fun h0 => h.2 (h0 ▸ hc)) hzero
  simp [sboOctets, sboSuffix, h.1.1, h.1.2, hname]

/-- The value of `SBO` of a selected object. -/
def sbo (n : ControlNames) : MmsValue.CString := ⟨n.sboOctets, n.zero_not_mem_sboOctets⟩

theorem getDomain_objectReference (n : ControlNames) :
    getMmsDomainFromObjectReference n.objectReference = n.domainName := by
  rw [getMmsDomainFromObjectReference, objectReference, List.takeWhile_append_of_pos]
  · simp
  · intro c hc
    simpa using fun h : c = 47 => n.noSlash (h ▸ hc)

theorem convert_objectReference (n : ControlNames) (fc : List UInt8) :
    convertToMmsAndInsertFC (n.lnName ++ 46 :: n.objectName) fc =
      n.lnName ++ 36 :: fc ++ 36 :: n.name := by
  have htake : (n.lnName ++ 46 :: n.objectName).takeWhile (· ≠ 46) = n.lnName := by
    rw [List.takeWhile_append_of_pos]
    · simp
    · intro c hc
      simpa using fun h : c = 46 => n.noDot (h ▸ hc)
  rw [convertToMmsAndInsertFC, htake]
  simp [name, List.drop_append]

/-- A name with `SBO` behind it is not a beginning of itself with `CO` in front. -/
theorem ne_take_shifted (x : List UInt8) (k : Nat) :
    x ++ sboSuffix ≠ (fcCO ++ 36 :: (x ++ sboSuffix)).take k := by
  intro h
  have hlen := congrArg List.length h
  simp only [List.length_append, List.length_take, List.length_cons] at hlen
  have hk : k = (x ++ sboSuffix).length := by
    rw [List.length_append]
    simp only [fcCO, List.length_cons, List.length_nil] at hlen
    omega
  have hat : (x ++ sboSuffix)[x.length + 3]? =
      ((fcCO ++ 36 :: (x ++ sboSuffix)).take k)[x.length + 3]? := congrArg (·[x.length + 3]?) h
  rw [List.getElem?_take_of_lt (by simp [hk, sboSuffix])] at hat
  simp [fcCO, sboSuffix] at hat

/-- The server never answers what the client takes for a refusal. -/
theorem sbo_ne_sboReference (n : ControlNames) {c : ControlObjectClient}
    (h : c.objectReference = n.objectReference) : n.sboOctets ≠ c.sboReference := by
  have hdrop : n.objectReference.drop (n.domainName.length + 1) =
      n.lnName ++ 46 :: n.objectName := by
    simp [objectReference, List.drop_append]
  rw [ControlObjectClient.sboReference, h, getDomain_objectReference, hdrop,
    convert_objectReference]
  intro heq
  let first := n.domainName ++ 47 :: (n.lnName ++ [36])
  have hclient : n.domainName ++ 47 :: (n.lnName ++ 36 :: fcCO ++ 36 :: n.name ++ sboSuffix) =
      first ++ (fcCO ++ 36 :: (n.name ++ sboSuffix)) := by
    simp [first]
  have hserver : n.sboOctets = first ++ (n.name ++ sboSuffix) := by
    simp [sboOctets, first]
  rw [hclient, hserver] at heq
  have hrest := congrArg (List.drop first.length) heq
  rw [List.drop_left, List.drop_take, List.drop_left] at hrest
  exact ne_take_shifted n.name _ hrest

end ControlNames

end Control

end Iec61850
