import Iec61850.ConfigFile.DynamicModel

/-! The text of a configuration file: its lines, and what is read of a line with `sscanf`. -/

namespace Iec61850.ConfigFile

open Machine

/-- What the library of C makes of the number that text begins with: its value and the text behind
it. Of a floating point number it only matters whether there is one. -/
structure CLibrary where
  int : List UInt8 → Option (Int × List UInt8)
  unsigned : List UInt8 → Option (Int × List UInt8)
  isFloat : List UInt8 → Bool
  isDouble : List UInt8 → Bool

/-! ## Lines -/

def READ_BUFFER_MAX_SIZE : Nat := 1024

def isEol (b : UInt8) : Bool := b = 10 || b = 13

/-- The octets behind the first one. Each is stored before it is looked at. -/
def readRest (maxSize : Nat) : Nat → List UInt8 → Exec (List UInt8 × List UInt8)
  | _, [] => .ok ([], [])
  | bufPos, b :: file =>
    if bufPos < maxSize then
      if isEol b then .ok ([], file)
      else do
        let p ← readRest maxSize (bufPos + 1) file
        return (b :: p.1, p.2)
    else .error .outOfBounds

/-- The line, and what is left of the file. The buffer is not asked for how long it is. -/
def readLine (maxSize : Nat) : List UInt8 → Exec (List UInt8 × List UInt8)
  | [] => .ok ([], [])
  | b :: file =>
    if isEol b then readLine maxSize file
    else do
      let p ← readRest maxSize 1 file
      return (b :: p.1, p.2)

/-- The end of the line is marked in the buffer. -/
def terminateLine (line : List UInt8) : Exec Unit :=
  if line.length < READ_BUFFER_MAX_SIZE then .ok () else .error .outOfBounds

/-- The lines of a file that are not empty. -/
def linesOf (file : List UInt8) : List (List UInt8) := (file.splitOnP isEol).filter (· ≠ [])

/-! ## Strings -/

/-- The string that begins where the line does. -/
def cString (line : List UInt8) : List UInt8 := line.takeWhile (· ≠ 0)

def startsWith (string keyword : List UInt8) : Bool := keyword.isPrefixOf string

def terminateString (string : List UInt8) (ch : UInt8) : List UInt8 := string.takeWhile (· ≠ ch)

/-- The statement has a list of its own: its line ends with a brace. -/
def endsWithBrace (line : List UInt8) : Bool := line.getLast? = some 123

def toInt (c : UInt8) : Option Nat :=
  if 48 ≤ c ∧ c ≤ 57 then some (c.toNat - 48)
  else if 65 ≤ c ∧ c ≤ 70 then some (10 + c.toNat - 65)
  else if 97 ≤ c ∧ c ≤ 102 then some (10 + c.toNat - 97)
  else none

/-- Two digits for an octet. -/
def createBufferFromHexString : List UInt8 → Option (List UInt8)
  | [] => some []
  | [_] => none
  | c :: d :: hexString => do
    let high ← toInt c
    let low ← toInt d
    let rest ← createBufferFromHexString hexString
    return UInt8.ofNat (high * 16 + low) :: rest

/-! ## Formats -/

inductive Conversion
  | name | int | unsigned
  deriving DecidableEq

inductive Scanned
  | name (text : List UInt8)
  | number (value : Int)

def isSpace (b : UInt8) : Bool := b = 32 || (9 ≤ b && b ≤ 13)

/-- The conversions are tried one after the other until one of them finds nothing. -/
def scan (lib : CLibrary) : List Conversion → List UInt8 → List Scanned
  | [], _ => []
  | .name :: conversions, text =>
    let word := (text.dropWhile isSpace).takeWhile fun b => !isSpace b
    if word = [] then []
    else .name word :: scan lib conversions ((text.dropWhile isSpace).drop word.length)
  | .int :: conversions, text =>
    match lib.int (text.dropWhile isSpace) with
    | none => []
    | some p => .number p.1 :: scan lib conversions p.2
  | .unsigned :: conversions, text =>
    match lib.unsigned (text.dropWhile isSpace) with
    | none => []
    | some p => .number p.1 :: scan lib conversions p.2

def ObjectType.keyword : ObjectType → List UInt8
  | .iedModel => ascii "MODEL"
  | .logicalDevice => ascii "LD"
  | .logicalNode => ascii "LN"
  | .dataObject => ascii "DO"
  | .dataAttribute => ascii "DA"
  | .dataSet => ascii "DS"
  | .dataSetEntry => ascii "DE"
  | .reportControlBlock => ascii "RC"
  | .gseControlBlock => ascii "GC"
  | .phyComAddress => ascii "PA"

/-- What is between the brackets behind the keyword. -/
def ObjectType.format : ObjectType → List Conversion
  | .iedModel | .logicalDevice | .logicalNode | .dataSet | .dataSetEntry => [.name]
  | .dataObject => [.name, .int]
  | .dataAttribute => [.name, .int, .int, .int, .int, .unsigned]
  | .reportControlBlock =>
    [.name, .name, .int, .name, .unsigned, .int, .int, .unsigned, .unsigned]
  | .gseControlBlock => [.name, .name, .name, .unsigned, .int]
  | .phyComAddress => [.unsigned, .unsigned, .unsigned, .name]

def sscanf (lib : CLibrary) (type : ObjectType) (line : List UInt8) : List Scanned :=
  if startsWith line (type.keyword ++ ascii "(") then
    scan lib type.format (line.drop (type.keyword.length + 1))
  else []

def NAME_STRING_SIZE : Nat := 130

def Scanned.fits : Scanned → Bool
  | name text => text.length < NAME_STRING_SIZE
  | number _ => true

/-- The names go to strings of a fixed size, whatever comes of the line. -/
def scanStatement (lib : CLibrary) (type : ObjectType) (line : List UInt8) :
    Exec (List Scanned) :=
  if (sscanf lib type line).all (·.fits) then .ok (sscanf lib type line)
  else .error .outOfBounds

def nameOf : List Scanned → Option (List UInt8)
  | .name text :: _ => some text
  | _ => none

def numberAt (values : List Scanned) (i : Nat) : Int :=
  match values[i]? with
  | some (.number value) => value
  | _ => 0

/-- All conversions of the format have found something. -/
def Complete (lib : CLibrary) (type : ObjectType) (line : List UInt8) : Prop :=
  (sscanf lib type line).length = type.format.length

instance (lib : CLibrary) (type : ObjectType) (line : List UInt8) :
    Decidable (Complete lib type line) := inferInstanceAs (Decidable (_ = _))

/-- What a conversion finds is of its kind. -/
inductive Finds : Conversion → Scanned → Prop
  | name {text : List UInt8} : Finds .name (.name text)
  | int {value : Int} : Finds .int (.number value)
  | unsigned {value : Int} : Finds .unsigned (.number value)

theorem scan_finds (lib : CLibrary) (conversions : List Conversion) (text : List UInt8) :
    List.Forall₂ Finds (conversions.take (scan lib conversions text).length)
      (scan lib conversions text) := by
  induction conversions generalizing text with
  | nil => exact .nil
  | cons conversion conversions ih =>
    cases conversion with
    | name =>
      simp only [scan]
      split
      · exact .nil
      · exact .cons .name (ih _)
    | int =>
      rw [scan]
      cases lib.int (text.dropWhile isSpace) with
      | none => exact .nil
      | some p => exact .cons .int (ih p.2)
    | unsigned =>
      rw [scan]
      cases lib.unsigned (text.dropWhile isSpace) with
      | none => exact .nil
      | some p => exact .cons .unsigned (ih p.2)

theorem Complete.finds {lib : CLibrary} {type : ObjectType} {line : List UInt8}
    (h : Complete lib type line) : List.Forall₂ Finds type.format (sscanf lib type line) := by
  rw [Complete] at h
  have hfinds : List.Forall₂ Finds (type.format.take (sscanf lib type line).length)
      (sscanf lib type line) := by
    rw [sscanf]
    split
    · exact scan_finds lib type.format _
    · exact .nil
  rw [h, List.take_length] at hfinds
  exact hfinds

theorem scanStatement_ok {lib : CLibrary} {type : ObjectType} {line : List UInt8}
    (h : (sscanf lib type line).all (·.fits) = true) :
    scanStatement lib type line = .ok (sscanf lib type line) := if_pos h

theorem scanStatement_error {lib : CLibrary} {type : ObjectType} {line : List UInt8}
    (h : ¬ (sscanf lib type line).all (·.fits) = true) :
    scanStatement lib type line = .error .outOfBounds := if_neg h

/-! ## Keywords -/

/-- The statement that a line is by the way it begins. -/
def typeOfLine (line : List UInt8) : Option ObjectType :=
  [ObjectType.iedModel, .logicalDevice, .logicalNode, .dataObject, .dataAttribute, .dataSet,
    .dataSetEntry, .reportControlBlock, .gseControlBlock, .phyComAddress].find?
    fun type => startsWith line type.keyword

theorem keyword_injective {type type' : ObjectType}
    (h : type.keyword.take 2 = type'.keyword.take 2) : type = type' := by
  cases type <;> cases type' <;> first | rfl | (revert h; decide)

theorem take_two_of_startsWith {line : List UInt8} {type : ObjectType}
    (h : startsWith line type.keyword = true) : line.take 2 = type.keyword.take 2 := by
  obtain ⟨rest, rfl⟩ := List.isPrefixOf_iff_prefix.mp h
  have hlength : 2 ≤ type.keyword.length := by cases type <;> decide
  rw [List.take_append_of_le_length hlength]

theorem startsWith_of_typeOfLine {line : List UInt8} {type : ObjectType}
    (h : typeOfLine line = some type) : startsWith line type.keyword = true := by
  rw [typeOfLine] at h
  exact List.find?_some (p := fun type : ObjectType => startsWith line type.keyword) h

/-- A line begins with one keyword at most. -/
theorem startsWith_keyword_iff {line : List UInt8} {type : ObjectType} :
    startsWith line type.keyword = true ↔ typeOfLine line = some type := by
  constructor
  · intro h
    cases hfind : typeOfLine line with
    | none =>
      rw [typeOfLine, List.find?_eq_none] at hfind
      exact absurd h (hfind type (by cases type <;> decide))
    | some type' =>
      have h' := startsWith_of_typeOfLine hfind
      rw [keyword_injective ((take_two_of_startsWith h').symm.trans (take_two_of_startsWith h))]
  · exact startsWith_of_typeOfLine

/-! ## The lines of a file -/

section

variable {file line : List UInt8} {maxSize : Nat}

/-- Where a line ends. -/
def lineOf (file : List UInt8) : List UInt8 := file.takeWhile fun b => !isEol b

def behindLine (file : List UInt8) : List UInt8 := (file.dropWhile fun b => !isEol b).drop 1

theorem lineOf_cons {b : UInt8} (hb : isEol b = false) : lineOf (b :: file) = b :: lineOf file :=
  List.takeWhile_cons_of_pos (by simp [hb])

theorem behindLine_cons {b : UInt8} (hb : isEol b = false) :
    behindLine (b :: file) = behindLine file := by
  rw [behindLine, List.dropWhile_cons_of_pos (by simp [hb])]
  rfl

theorem lineOf_eol {b : UInt8} (hb : isEol b = true) : lineOf (b :: file) = [] :=
  List.takeWhile_cons_of_neg (by simp [hb])

theorem behindLine_eol {b : UInt8} (hb : isEol b = true) : behindLine (b :: file) = file := by
  rw [behindLine, List.dropWhile_cons_of_neg (by simp [hb])]
  rfl

/-- A line that fits is read up to its end. -/
theorem readRest_fits {bufPos : Nat} (hfits : bufPos + (lineOf file).length < maxSize) :
    readRest maxSize bufPos file = .ok (lineOf file, behindLine file) := by
  induction file generalizing bufPos with
  | nil => rw [readRest]; rfl
  | cons b file ih =>
    rw [readRest, if_pos (lt_of_le_of_lt (Nat.le_add_right _ _) hfits)]
    cases hb : isEol b with
    | true =>
      rw [if_pos rfl, lineOf_eol hb, behindLine_eol hb]
    | false =>
      rw [lineOf_cons hb, List.length_cons, ← Nat.add_assoc, Nat.add_right_comm] at hfits
      rw [if_neg Bool.false_ne_true, ih hfits, lineOf_cons hb, behindLine_cons hb]
      rfl

/-- A line that does not fit is not read, or it is as long as the buffer. -/
theorem le_of_readRest {bufPos : Nat} (hlong : maxSize ≤ bufPos + (lineOf file).length)
    {p : List UInt8 × List UInt8} (hread : readRest maxSize bufPos file = .ok p) :
    maxSize ≤ bufPos + p.1.length := by
  induction file generalizing bufPos p with
  | nil =>
    cases hread
    exact hlong
  | cons b file ih =>
    rw [readRest] at hread
    split at hread
    · next hlt =>
      cases hb : isEol b with
      | true =>
        rw [lineOf_eol hb] at hlong
        exact absurd hlt (Nat.not_lt_of_le hlong)
      | false =>
        rw [hb, if_neg Bool.false_ne_true] at hread
        rw [lineOf_cons hb, List.length_cons, ← Nat.add_assoc, Nat.add_right_comm] at hlong
        obtain ⟨q, hq, hread⟩ := bind_ok hread
        cases hread
        have hle := ih hlong hq
        rw [List.length_cons]
        omega
    · cases hread

theorem linesOf_eol {b : UInt8} (hb : isEol b = true) : linesOf (b :: file) = linesOf file := by
  rw [linesOf, List.splitOnP_cons_eq_if_modifyHead, if_pos hb, List.filter_cons_of_neg (by simp)]
  rfl

/-- What is split off first is the line. -/
theorem splitOnP_eq (file : List UInt8) : ∃ rest, file.splitOnP isEol = lineOf file :: rest ∧
    rest.filter (· ≠ []) = linesOf (behindLine file) := by
  induction file with
  | nil => exact ⟨[], rfl, rfl⟩
  | cons b file ih =>
    rw [List.splitOnP_cons_eq_if_modifyHead]
    cases hb : isEol b with
    | true =>
      rw [if_pos rfl, lineOf_eol hb, behindLine_eol hb]
      exact ⟨_, rfl, rfl⟩
    | false =>
      obtain ⟨rest, hsplit, hrest⟩ := ih
      rw [if_neg Bool.false_ne_true, hsplit, lineOf_cons hb, behindLine_cons hb]
      exact ⟨rest, rfl, hrest⟩

theorem linesOf_cons {b : UInt8} (hb : isEol b = false) :
    linesOf (b :: file) = (b :: lineOf file) :: linesOf (behindLine file) := by
  obtain ⟨rest, hsplit, hrest⟩ := splitOnP_eq (b :: file)
  rw [lineOf_cons hb, behindLine_cons hb] at *
  rw [linesOf, hsplit, List.filter_cons_of_pos (by simp), hrest]

theorem length_behindLine_le (file : List UInt8) : (behindLine file).length ≤ file.length := by
  rw [behindLine, List.length_drop]
  exact (Nat.sub_le _ _).trans (List.dropWhile_sublist _).length_le

end

end Iec61850.ConfigFile
