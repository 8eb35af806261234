import Iec61850.ConfigFile.OwnedObjects
import Iec61850.ConfigFile.Scanning

/-! The parser of configuration files (`config_file_parser.c`): one statement a line, in the state
that the statements before have left. -/

namespace Iec61850.ConfigFile

open Machine

/-- There is no name before the first one is read. The buffer keeps what lines before have left
behind the end of the line. -/
structure Parser where
  lineBuffer : List UInt8
  stateInModel : Bool
  indendation : Nat
  model : Option Nat
  currentLD : Option Nat
  currentLN : Option Nat
  currentModelNode : Option Nat
  currentDataSet : Option Nat
  currentGoCB : Option Nat
  nameString : Option (List UInt8)
  heap : Heap

def Parser.start (lineBuffer : List UInt8) : Parser :=
  ⟨lineBuffer, false, 0, none, none, none, none, none, none, none, Heap.empty⟩

/-- The next line is read, or the parser leaves with an error. -/
inductive Outcome
  | next (s : Parser)
  | exitError (s : Parser)

def Outcome.state : Outcome → Parser
  | next s | exitError s => s

/-- The name of a line, or the one that is there where the line has none. -/
def Parser.name (s : Parser) (values : List Scanned) : Exec (List UInt8) :=
  match (nameOf values).or s.nameString with
  | some name => .ok name
  | none => .error .notThere

/-! ## Values of attributes -/

/-- What a configured value is read as. -/
inductive ValueKind
  | mmsString | visibleString | integer | unsigned | float | double | boolean | other
  deriving DecidableEq

/-- The types of attributes by their numbers. -/
def dataAttributeTypes : List DataAttributeType :=
  [.boolean, .int8, .int16, .int32, .int64, .int128, .int8u, .int16u, .int24u, .int32u, .float32,
    .float64, .enumerated, .octetString64, .octetString6, .octetString8, .visibleString32,
    .visibleString64, .visibleString65, .visibleString129, .visibleString255, .unicodeString255,
    .timestamp, .quality, .check, .codedEnum, .genericBitstring, .constructed, .entryTime,
    .phyComAddr]

def valueKind (type : Int) : ValueKind :=
  if type < 0 then .other
  else
    match dataAttributeTypes[type.toNat]? with
    | some .unicodeString255 => .mmsString
    | some .visibleString255 | some .visibleString129 | some .visibleString65
    | some .visibleString64 | some .visibleString32 => .visibleString
    | some .int8 | some .int16 | some .int32 | some .int64 | some .int128
    | some .enumerated => .integer
    | some .int8u | some .int16u | some .int24u | some .int32u => .unsigned
    | some .float32 => .float
    | some .float64 => .double
    | some .boolean => .boolean
    | _ => .other

/-- The text behind the first equals sign. -/
def valueText (line : List UInt8) : Option (List UInt8) :=
  if 61 ∈ line then some ((line.dropWhile (· ≠ 61)).drop 1) else none

/-- The string in the buffer up to the quotation mark, where its end is marked. There has to be an
end in the buffer. -/
def stringAt (lineBuffer : List UInt8) (start : Nat) : Exec (List UInt8 × List UInt8) :=
  if 0 ∈ lineBuffer.drop start then
    let string := terminateString (cString (lineBuffer.drop start)) 34
    .ok (string, lineBuffer.take (start + string.length) ++
      0 :: lineBuffer.drop (start + string.length + 1))
  else .error .outOfBounds

/-- The value of an attribute, with the buffer as it is then. -/
structure Configured where
  value : Option ConfiguredValue
  lineBuffer : List UInt8

/-- There is none where the text is not a value. A string begins behind a quotation mark. -/
def configuredValue (lib : CLibrary) (kind : ValueKind) (line lineBuffer : List UInt8) :
    Exec (Option Configured) :=
  match valueText line with
  | none => .ok (some ⟨none, lineBuffer⟩)
  | some text =>
    let number := text.dropWhile isSpace
    let stringStart := line.length - text.length + 1
    match kind with
    | .mmsString => do
      let p ← stringAt lineBuffer stringStart
      return some ⟨some (.mmsString p.1), p.2⟩
    | .visibleString => do
      let p ← stringAt lineBuffer stringStart
      return some ⟨some (.visibleString p.1), p.2⟩
    | .integer => .ok ((lib.int number).map fun p => ⟨some (.integer p.1), lineBuffer⟩)
    | .unsigned => .ok ((lib.unsigned number).map fun p => ⟨some (.unsigned p.1), lineBuffer⟩)
    | .float =>
      .ok (if lib.isFloat number then some ⟨some (.float number), lineBuffer⟩ else none)
    | .double =>
      .ok (if lib.isDouble number then some ⟨some (.double number), lineBuffer⟩ else none)
    | .boolean => .ok ((lib.int number).map fun p => ⟨some (.boolean (p.1 ≠ 0)), lineBuffer⟩)
    | .other => .ok (some ⟨none, lineBuffer⟩)

/-! ## Statements -/

namespace Parser

def octet (n : Int) : UInt8 := UInt8.ofNat (n % 256).toNat

def word (n : Int) : UInt16 := UInt16.ofNat (n % 65536).toNat

/-- A name that is only a dash is none. -/
def optional (name : List UInt8) : Option (List UInt8) :=
  if name = ascii "-" then none else some name

def closeBrace (s : Parser) : Exec Outcome :=
  if s.indendation = 1 then .ok (.next { s with stateInModel := false, indendation := 0 })
  else if s.indendation ≤ 4 then .ok (.next { s with indendation := s.indendation - 1 })
  else do
    let node ← Heap.deref s.currentModelNode
    let o ← s.heap.object node
    return .next { s with currentModelNode := o.parent, indendation := s.indendation - 1 }

def parseLD (lib : CLibrary) (s : Parser) (line : List UInt8) : Exec Outcome := do
  let values ← scanStatement lib .logicalDevice line
  match nameOf values with
  | none => return .exitError { s with indendation := 2 }
  | some name =>
    let name := terminateString name 41
    let p ← LogicalDevice_create s.heap name s.model
    return .next
      { s with indendation := 2, nameString := some name, currentLD := some p.2, heap := p.1 }

def parseLN (lib : CLibrary) (s : Parser) (line : List UInt8) : Exec Outcome := do
  let values ← scanStatement lib .logicalNode line
  match nameOf values with
  | none => return .exitError { s with indendation := 3 }
  | some name =>
    let name := terminateString name 41
    let p ← LogicalNode_create s.heap name s.currentLD
    return .next
      { s with indendation := 3, nameString := some name, currentLN := some p.2, heap := p.1 }

/-- It is not asked for whether the line is complete. -/
def parseDO (lib : CLibrary) (s : Parser) (line : List UInt8) : Exec Outcome := do
  let values ← scanStatement lib .dataObject line
  let name ← s.name values
  let p ← DataObject_create s.heap name s.currentLN (numberAt values 1)
  return .next
    { s with indendation := 4, nameString := some name, currentModelNode := some p.2,
             heap := p.1 }

def parseDS (lib : CLibrary) (s : Parser) (line : List UInt8) : Exec Outcome := do
  let values ← scanStatement lib .dataSet line
  let name ← s.name values
  let name := terminateString name 41
  let p ← DataSet_create s.heap name s.currentLN
  return .next
    { s with indendation := 4, nameString := some name, currentDataSet := some p.2, heap := p.1 }

def parseRC (lib : CLibrary) (s : Parser) (line : List UInt8) : Exec Outcome := do
  let values ← scanStatement lib .reportControlBlock line
  match values with
  | [.name name, .name rptId, .number isBuffered, .name dataSetName, .number confRef,
      .number trgOps, .number options, .number bufTm, .number intgPd] =>
    let p ← ReportControlBlock_create s.heap name s.currentLN (optional rptId)
      (isBuffered ≠ 0) (optional dataSetName) confRef (octet trgOps) (octet options) bufTm intgPd
    return .next { s with nameString := some name, heap := p.1 }
  | _ => return .exitError s

def parseGC (lib : CLibrary) (s : Parser) (line : List UInt8) : Exec Outcome := do
  let values ← scanStatement lib .gseControlBlock line
  match values with
  | [.name name, .name appId, .name dataSet, .number confRef, .number fixedOffs] =>
    let p ← GSEControlBlock_create s.heap name s.currentLN appId dataSet confRef (fixedOffs ≠ 0)
    return .next
      { s with indendation := 4, nameString := some name, currentGoCB := some p.2, heap := p.1 }
  | _ => return .exitError s

def parseSubDO (lib : CLibrary) (s : Parser) (line : List UInt8) : Exec Outcome := do
  let values ← scanStatement lib .dataObject line
  match values with
  | [.name name, .number arrayElements] =>
    let p ← DataObject_create s.heap name s.currentModelNode arrayElements
    return .next
      { s with indendation := s.indendation + 1, nameString := some name,
               currentModelNode := some p.2, heap := p.1 }
  | _ => return .exitError { s with indendation := s.indendation + 1 }

/-- The attribute is there before its value is read, and it has a list where the line that is then in
the buffer ends with a brace. -/
def parseDA (lib : CLibrary) (s : Parser) (line : List UInt8) : Exec Outcome := do
  let values ← scanStatement lib .dataAttribute line
  let name ← s.name values
  let create := fun mmsValue => DataAttribute_create s.heap name s.currentModelNode
    (numberAt values 2) (numberAt values 3) (octet (numberAt values 4)) (numberAt values 1)
    (numberAt values 5) mmsValue
  let s := { s with nameString := some name }
  match ← configuredValue lib (valueKind (numberAt values 2)) line s.lineBuffer with
  | none =>
    let p ← create none
    return .exitError { s with heap := p.1 }
  | some c =>
    let p ← create c.value
    let s := { s with lineBuffer := c.lineBuffer, heap := p.1 }
    if endsWithBrace (cString c.lineBuffer) then
      return .next { s with indendation := s.indendation + 1, currentModelNode := some p.2 }
    else return .next s

def parseDE (lib : CLibrary) (s : Parser) (line : List UInt8) : Exec Outcome := do
  let values ← scanStatement lib .dataSetEntry line
  let name ← s.name values
  let name := terminateString name 41
  let p ← DataSetEntry_create s.heap s.currentDataSet name (-1)
  return .next { s with nameString := some name, heap := p.1 }

/-- The octets of the address of a line that has one. -/
def addressOf (name : List UInt8) : Option (List UInt8) :=
  if (terminateString name 41).length = 12 then
    (createBufferFromHexString (terminateString name 41)).filter (·.length = 6)
  else none

def parsePA (lib : CLibrary) (s : Parser) (line : List UInt8) : Exec Outcome := do
  let values ← scanStatement lib .phyComAddress line
  match values with
  | [.number vlanPrio, .number vlanId, .number appId, .name name] =>
    match s.currentGoCB, addressOf name with
    | some gcb, some address =>
      let p := PhyComAddress_create s.heap (some gcb) (octet vlanPrio) (word vlanId) (word appId)
        address
      return .next { s with nameString := some (terminateString name 41), heap := p.1 }
    | _, _ => return .exitError s
  | _ => return .exitError s

def parseModel (lib : CLibrary) (s : Parser) (line : List UInt8) : Exec Outcome :=
  if startsWith line (ascii "MODEL\x7b") then
    let p := IedModel_create s.heap []
    .ok (.next { s with stateInModel := true, indendation := 1, model := some p.2, heap := p.1 })
  else if startsWith line (ascii "MODEL(") then do
    let values ← scanStatement lib .iedModel line
    let name ← s.name values
    let name := terminateString name 41
    let p := IedModel_create s.heap name
    return .next
      { s with stateInModel := true, indendation := 1, model := some p.2, nameString := some name,
               heap := p.1 }
  else .ok (.exitError s)

/-- The statements of a level, with what is done for them. -/
def choose (s : Parser) (line : List UInt8) : List (ObjectType × Exec Outcome) → Exec Outcome
  | [] => .ok (.exitError s)
  | (type, parse) :: rest => if startsWith line type.keyword then parse else choose s line rest

def parseLine (lib : CLibrary) (s : Parser) (line : List UInt8) : Exec Outcome :=
  if s.stateInModel then
    if startsWith line (ascii "\x7d") then s.closeBrace
    else if s.indendation = 1 then s.choose line [(.logicalDevice, s.parseLD lib line)]
    else if s.indendation = 2 then s.choose line [(.logicalNode, s.parseLN lib line)]
    else if s.indendation = 3 then
      s.choose line [(.dataObject, s.parseDO lib line), (.dataSet, s.parseDS lib line),
        (.reportControlBlock, s.parseRC lib line), (.gseControlBlock, s.parseGC lib line)]
    else if 3 < s.indendation then
      s.choose line [(.dataObject, s.parseSubDO lib line), (.dataAttribute, s.parseDA lib line),
        (.dataSetEntry, s.parseDE lib line), (.phyComAddress, s.parsePA lib line)]
    else .ok (.next s)
  else s.parseModel lib line

end Parser

/-! ## Files -/

/-- The model that is returned, or none, with what was let go and how much had been made. -/
inductive Result
  | model (m : Nat) (heap : Heap)
  | null (freed : List Nat) (made : Nat)

def Parser.result (s : Parser) : Result :=
  match s.model with
  | some m => .model m s.heap
  | none => .null [] s.heap.count

inductive Progress
  | next (s : Parser)
  | done (result : Result)

/-- The line is in the buffer, with its end marked. -/
def Parser.store (s : Parser) (line : List UInt8) : Parser :=
  { s with lineBuffer := line ++ 0 :: s.lineBuffer.drop (line.length + 1) }

/-- What is done with a line that is read. -/
def Parser.step (lib : CLibrary) (s : Parser) (line : List UInt8) : Exec Progress := do
  terminateLine line
  match ← (s.store line).parseLine lib (cString line) with
  | .next s => return .next s
  | .exitError s =>
    let freed ← s.heap.IedModel_destroy s.model
    return .done (.null freed s.heap.count)

def parseFile (lib : CLibrary) : Nat → List UInt8 → Parser → Exec Result
  | 0, _, _ => .error .outOfFuel
  | fuel + 1, file, s => do
    let p ← readLine READ_BUFFER_MAX_SIZE file
    if p.1 = [] then return s.result
    else
      match ← s.step lib p.1 with
      | .next s => parseFile lib fuel p.2 s
      | .done result => return result

/-- The loop goes on as long as there are lines in the file. The buffer is what files before have
left. -/
def createModelFromConfigFile (lib : CLibrary) (lineBuffer file : List UInt8) : Exec Result :=
  parseFile lib (file.length + 1) file (.start lineBuffer)

end Iec61850.ConfigFile
