import Mathlib.Data.List.Basic

/-! What the parser of SCL files reads of the document (`ParserUtils.java`), what it throws, and
what the parts of an element that are read one after the other make of it as a whole. -/

namespace Iec61850.Scl

inductive Node
  | mk (nodeName : String) (attributes : List (String × String)) (childNodes : List Node)
    (textContent : String)

namespace Node

def nodeName : Node → String
  | mk nodeName _ _ _ => nodeName

def attributes : Node → List (String × String)
  | mk _ attributes _ _ => attributes

def childNodes : Node → List Node
  | mk _ _ childNodes _ => childNodes

def textContent : Node → String
  | mk _ _ _ textContent => textContent

end Node

inductive JavaThrow
  | sclParserException (node : Option Node) (message : String)
  | nullPointerException
  | classCastException
  | numberFormatException
  | illegalArgumentException
  | illegalValueException (message : String)
  | stackOverflowError

abbrev Java := Except JavaThrow

/-- What the library makes of text. A number that it does not take is none. -/
structure JavaText where
  toUpperCase : String → String
  toLowerCase : String → String
  newLong : String → Option Int
  newInteger : String → Option Int
  decode : String → Option Int
  isFloat : String → Bool
  isDouble : String → Bool

/-! ## Reading -/

/-- The last attribute with the name. -/
def parseAttribute (node : Node) (attributeName : String) : Option String :=
  ((node.attributes.filter (·.1 = attributeName)).getLast?).map (·.2)

def getChildNodeWithTag (node : Node) (nodeTag : String) : Option Node :=
  node.childNodes.find? (·.nodeName = nodeTag)

def getChildNodesWithTag (node : Node) (nodeTag : String) : List Node :=
  node.childNodes.filter (·.nodeName = nodeTag)

def parseBooleanAttribute (lib : JavaText) (xmlNode : Node) (attributeName : String) :
    Java (Option Bool) :=
  match parseAttribute xmlNode attributeName with
  | none => .ok none
  | some valueStr =>
    if lib.toUpperCase valueStr = "TRUE" then .ok (some true)
    else if lib.toUpperCase valueStr = "FALSE" then .ok (some false)
    else
      .error (.sclParserException (some xmlNode)
        ("Illegal value for boolean attribute \"" ++ attributeName ++ "\""))

/-- A boolean attribute replaces the value that a field has without it. -/
def readBoolean (lib : JavaText) (xmlNode : Node) (attributeName : String) (field : Bool) :
    Java Bool :=
  (·.getD field) <$> parseBooleanAttribute lib xmlNode attributeName

/-- What an element that may be missing declares with a boolean attribute. -/
def declared (lib : JavaText) (node : Option Node) (attributeName : String) (field : Bool) : Bool :=
  match node.bind (parseAttribute · attributeName) with
  | none => field
  | some valueStr => lib.toUpperCase valueStr = "TRUE"

/-- A number object is made of text. -/
def newNumber (parse : String → Option Int) (text : String) : Java Int :=
  match parse text with
  | some n => .ok n
  | none => .error .numberFormatException

/-- A number object is made of an attribute that is there. -/
def parseNumber (parse : String → Option Int) (node : Node) (attributeName : String) :
    Java (Option Int) :=
  match parseAttribute node attributeName with
  | none => .ok none
  | some text => some <$> newNumber parse text

/-- The attribute has to be there. -/
def requireAttribute (node : Node) (attributeName message : String) : Java String :=
  match parseAttribute node attributeName with
  | none => .error (.sclParserException (some node) message)
  | some text => .ok text

/-! ## What comes of it -/

/-- It is taken, the parser complains of it, or something else is thrown. -/
inductive Verdict
  | accepted | rejected | faulty
  deriving DecidableEq

def verdict {α : Type} : Java α → Verdict
  | .ok _ => .accepted
  | .error (.sclParserException _ _) => .rejected
  | .error _ => .faulty

namespace Verdict

/-- The parts are looked at until one of them is not taken. -/
def first : List Verdict → Verdict
  | [] => .accepted
  | .accepted :: vs => first vs
  | v :: _ => v

def required (node : Node) (attributeName : String) : Verdict :=
  if (parseAttribute node attributeName).isSome then .accepted else .rejected

/-- The text is one that is taken, such as a number. -/
def converted {α : Type} (parse : String → Option α) (node : Node) (attributeName : String) :
    Verdict :=
  match parseAttribute node attributeName with
  | none => .accepted
  | some text => if (parse text).isSome then .accepted else .faulty

/-- In upper case it is one of two words. -/
def boolean (lib : JavaText) (node : Node) (attributeName : String) : Verdict :=
  match parseAttribute node attributeName with
  | none => .accepted
  | some valueStr =>
    if lib.toUpperCase valueStr = "TRUE" ∨ lib.toUpperCase valueStr = "FALSE" then .accepted
    else .rejected

end Verdict

section

open Verdict

variable {α β γ : Type} {x : Java α} {f : α → Java β} {v : Verdict} {vs ws : List Verdict}

@[simp] theorem verdict_ok (a : α) : verdict (.ok a : Java α) = .accepted := rfl

@[simp] theorem verdict_pure (a : α) : verdict (pure a : Java α) = .accepted := rfl

/-- It does not matter what would have been made. -/
theorem verdict_error (e : JavaThrow) :
    verdict (.error e : Java α) = verdict (.error e : Java β) := by
  cases e <;> rfl

theorem bind_ok {b : β} (h : x >>= f = .ok b) : ∃ a, x = .ok a ∧ f a = .ok b := by
  cases x with
  | ok a => exact ⟨a, rfl, h⟩
  | error e => cases h

/-- One part is read, and with what comes of it the others. -/
theorem verdict_bind (hx : verdict x = v) (h : ∀ a, x = .ok a → verdict (f a) = first vs) :
    verdict (x >>= f) = first (v :: vs) := by
  subst hx
  cases x with
  | ok a => exact h a rfl
  | error e => cases e <;> rfl

/-- The last part is read, and its result is put together with the others. -/
theorem verdict_map (g : α → γ) : verdict (g <$> x) = verdict x := by
  cases x with
  | ok a => rfl
  | error e => cases e <;> rfl

theorem verdict_bind_pure (g : α → γ) : verdict (x >>= fun a => pure (g a)) = verdict x :=
  verdict_map g

theorem first_singleton (v : Verdict) : first [v] = v := by
  cases v <;> rfl

theorem first_append : first (vs ++ ws) = first (first vs :: ws) := by
  induction vs with
  | nil => rfl
  | cons v vs ih =>
    cases v with
    | accepted => exact ih
    | rejected => rfl
    | faulty => rfl

theorem first_eq_accepted_iff : first vs = .accepted ↔ ∀ v ∈ vs, v = .accepted := by
  induction vs with
  | nil => simp [first]
  | cons v vs ih =>
    rw [List.forall_mem_cons]
    cases v with
    | accepted => exact ih.trans (and_iff_right rfl).symm
    | rejected => exact iff_of_false Verdict.noConfusion fun h => Verdict.noConfusion h.1
    | faulty => exact iff_of_false Verdict.noConfusion fun h => Verdict.noConfusion h.1

theorem verdict_mapM {as : List α} {g : α → Java β} :
    verdict (as.mapM g) = first (as.map fun a => verdict (g a)) := by
  induction as with
  | nil => rfl
  | cons a as ih =>
    rw [List.mapM_cons, List.map_cons]
    refine verdict_bind rfl fun b _ => ?_
    rw [← ih]
    exact verdict_map (b :: ·)

theorem verdict_parseBooleanAttribute (lib : JavaText) (node : Node) (attributeName : String) :
    verdict (parseBooleanAttribute lib node attributeName) = boolean lib node attributeName := by
  rw [parseBooleanAttribute, boolean]
  cases parseAttribute node attributeName with
  | none => rfl
  | some valueStr =>
    change verdict (if _ then _ else if _ then _ else _) = if _ then _ else _
    by_cases htrue : lib.toUpperCase valueStr = "TRUE"
    · rw [if_pos htrue, if_pos (Or.inl htrue)]
      rfl
    · rw [if_neg htrue]
      by_cases hfalse : lib.toUpperCase valueStr = "FALSE"
      · rw [if_pos hfalse, if_pos (Or.inr hfalse)]
        rfl
      · rw [if_neg hfalse, if_neg (not_or.mpr ⟨htrue, hfalse⟩)]
        rfl

theorem verdict_readBoolean (lib : JavaText) (node : Node) (attributeName : String)
    (field : Bool) :
    verdict (readBoolean lib node attributeName field) = boolean lib node attributeName :=
  (verdict_map _).trans (verdict_parseBooleanAttribute lib node attributeName)

theorem readBoolean_ok {lib : JavaText} {node : Node} {attributeName : String} {field b : Bool}
    (h : readBoolean lib node attributeName field = .ok b) :
    b = declared lib (some node) attributeName field := by
  rw [readBoolean, parseBooleanAttribute] at h
  rw [declared, Option.bind_some]
  cases hattribute : parseAttribute node attributeName with
  | none =>
    rw [hattribute] at h
    cases h
    rfl
  | some valueStr =>
    simp only [hattribute] at h
    split at h
    · cases h
      rename_i htrue
      exact (decide_eq_true htrue).symm
    · split at h
      · cases h
        rename_i htrue _
        exact (decide_eq_false htrue).symm
      · cases h

theorem verdict_newNumber (parse : String → Option Int) (text : String) :
    verdict (newNumber parse text) = if (parse text).isSome then .accepted else .faulty := by
  rw [newNumber]
  cases parse text <;> rfl

theorem verdict_parseNumber (parse : String → Option Int) (node : Node) (attributeName : String) :
    verdict (parseNumber parse node attributeName) = converted parse node attributeName := by
  rw [parseNumber, converted]
  cases parseAttribute node attributeName with
  | none => rfl
  | some text => exact (verdict_map some).trans (verdict_newNumber parse text)

theorem parseNumber_ok {parse : String → Option Int} {node : Node} {attributeName : String}
    {n : Option Int} (h : parseNumber parse node attributeName = .ok n) :
    n = (parseAttribute node attributeName).bind parse := by
  rw [parseNumber] at h
  cases hattribute : parseAttribute node attributeName with
  | none =>
    rw [hattribute] at h
    cases h
    rfl
  | some text =>
    simp only [hattribute, newNumber] at h
    rw [Option.bind_some]
    cases hparse : parse text with
    | none =>
      rw [hparse] at h
      cases h
    | some n =>
      rw [hparse] at h
      cases h
      rfl

theorem verdict_requireAttribute (node : Node) (attributeName message : String) :
    verdict (requireAttribute node attributeName message) = required node attributeName := by
  rw [requireAttribute, required]
  cases parseAttribute node attributeName <;> rfl

end

end Iec61850.Scl
