import Iec61850.Asn1.BerElements

/-! `iso_session.c`: what is read from a session message. -/

namespace Iec61850

open Machine

inductive IsoSessionIndication
  | ok | error | connect | data | finish | disconnect | abort | notFinished
  deriving DecidableEq

/-- The user data is a part of the message. -/
structure IsoSession where
  callingSessionSelector : UInt16
  calledSessionSelector : UInt16
  sessionRequirement : UInt16
  protocolOptions : UInt8
  userData : Option Region
  deriving DecidableEq

namespace IsoSession

def init : IsoSession where
  callingSessionSelector := 0x0001
  calledSessionSelector := 0x0001
  sessionRequirement := 0x0002
  protocolOptions := 0
  userData := none

/-- The loop of `parseAcceptParameters`, with the offset behind it unless there is an error. Every
turn reads two octets at least. -/
def parseAcceptParameters (buffer : Memory) (maxOffset : Int) :
    Nat → Int → Bool → Bool → IsoSession → Exec (Option Int × IsoSession)
  | 0, _, _, _, _ => .error .outOfFuel
  | fuel + 1, offset, hasProtocolOptions, hasProtocolVersion, session =>
    if maxOffset ≤ offset then
      return (if hasProtocolOptions && hasProtocolVersion then some offset else none, session)
    else do
      let pi ← buffer.read offset
      let paramLen ← buffer.read (offset + 1)
      let next := parseAcceptParameters buffer maxOffset fuel
      match pi with
      | 19 =>
        if paramLen ≠ 1 then return (none, session)
        let protocolOptions ← buffer.read (offset + 2)
        next (offset + 3) true hasProtocolVersion { session with protocolOptions := protocolOptions }
      | 21 => next (offset + 6) hasProtocolOptions hasProtocolVersion session
      | 22 =>
        let paramVal ← buffer.read (offset + 2)
        if paramVal ≠ 2 then return (none, session)
        next (offset + 3) hasProtocolOptions true session
      | 26 =>
        let _ ← buffer.read (offset + 2)
        next (offset + 3) hasProtocolOptions hasProtocolVersion session
      | 23 | 55 | 56 | 57 | 58 =>
        next (offset + 2 + paramLen.toNat) hasProtocolOptions hasProtocolVersion session
      | _ => next (offset + 2) hasProtocolOptions hasProtocolVersion session

/-- A parameter of two octets, which has to state this length. -/
def readSelector (buffer : Memory) (parameterLength : UInt8) (offset : Int) :
    Exec (Option UInt16) := do
  if parameterLength ≠ 2 then return none
  let high ← buffer.read offset
  let low ← buffer.read (offset + 1)
  return some (high.toUInt16 * 0x100 + low.toUInt16)

/-- The loop of `parseSessionHeaderParameters`: whether there are user data. -/
def parseSessionHeaderParameters (buffer : Memory) (messageSize maxOffset : Int) :
    Nat → Int → IsoSession → Exec (Bool × IsoSession)
  | 0, _, _ => .error .outOfFuel
  | fuel + 1, offset, session =>
    if maxOffset ≤ offset then return (false, session)
    else do
      let pgi ← buffer.read offset
      let parameterLength ← buffer.read (offset + 1)
      let offset := offset + 2
      let next := parseSessionHeaderParameters buffer messageSize maxOffset fuel
      match pgi with
      | 1 | 17 | 25 | 49 | 60 => next (offset + parameterLength.toNat) session
      | 5 =>
        let (connectAcceptEnd, session) ← parseAcceptParameters buffer
          (offset + parameterLength.toNat) (parameterLength.toNat + 1) offset false false session
        match connectAcceptEnd with
        | none => return (false, session)
        | some offset => next offset session
      | 20 =>
        match ← readSelector buffer parameterLength offset with
        | none => return (false, session)
        | some sessionRequirement =>
          next (offset + 2) { session with sessionRequirement := sessionRequirement }
      | 51 =>
        match ← readSelector buffer parameterLength offset with
        | none => return (false, session)
        | some selector => next (offset + 2) { session with callingSessionSelector := selector }
      | 52 =>
        match ← readSelector buffer parameterLength offset with
        | none => return (false, session)
        | some selector => next (offset + 2) { session with calledSessionSelector := selector }
      | 193 => return (true, { session with userData := some ⟨offset, messageSize - offset⟩ })
      | _ => next offset session

/-- The SPDUs with a length and header parameters. -/
def parseWithParameters (buffer : Memory) (messageSize : Int) (length : UInt8)
    (indication : IsoSessionIndication) (session : IsoSession) :
    Exec (IsoSessionIndication × IsoSession) := do
  if (length.toNat : Int) ≠ messageSize - 2 then return (.error, session)
  let (ok, session) ← parseSessionHeaderParameters buffer messageSize (length.toNat + 2)
    (length.toNat + 1) 2 session
  return (if ok then indication else .error, session)

def parseMessage (buffer : Memory) (messageSize : Int) (session : IsoSession) :
    Exec (IsoSessionIndication × IsoSession) := do
  if messageSize ≤ 1 then return (.error, session)
  let id ← buffer.read 0
  let length ← buffer.read 1
  match id with
  | 13 | 14 => parseWithParameters buffer messageSize length .connect session
  | 1 =>
    if messageSize < 4 then return (.error, session)
    if length ≠ 0 then return (.error, session)
    if (← buffer.read 2) ≠ 1 then return (.error, session)
    if (← buffer.read 3) ≠ 0 then return (.error, session)
    return (.data, { session with userData := some ⟨4, messageSize - 4⟩ })
  | 8 => return (.notFinished, session)
  | 9 => parseWithParameters buffer messageSize length .finish session
  | 10 => parseWithParameters buffer messageSize length .disconnect session
  | 25 => return (.abort, session)
  | _ => return (.error, session)

end IsoSession

end Iec61850
