/-
Literals: texts that denote values, as they are given on the command line.

A literal is a keyword, a quoted string, a number, or a constructor with elements in parentheses, which are literals
again. There is no nesting of commas and no escape in strings: elements end at every comma, and a string ends with the
literal. A constructor is a shape or a kind of typed array.

Reading allots new objects and buffers in the store. Elements are read from left to right and the first one that is
refused decides, before the constructor is looked up.
-/
import Vector128.Packed.Access
import Vector128.Text.Quoted

namespace Vector128

/-- the text of a fault in a report: the error, and below it the error that it wraps, which reads the same -/
def Fault.chain : Fault → List String
  | script cause => [cause.text, cause.text]
  | outOfBounds | misuse => []

namespace Literal

/-- why a literal denotes nothing -/
inductive Rejection
  /-- a constructor without its closing parenthesis -/
  | unclosed (literal : List Char)
  /-- a constructor that there is not -/
  | unknownName (name : List Char)
  /-- lanes that make no vector -/
  | lanes (shape : Shape) (fault : Fault)
  /-- an element of a typed array that is no Number -/
  | element (literal : List Char) (fault : Fault)
  /-- neither a keyword nor a number -/
  | noNumber (literal : List Char) (fault : Number.NumeralFault)
  deriving DecidableEq, Repr

/-- the messages of a rejection, outermost first -/
def Rejection.chain : Rejection → List String
  | unclosed literal => ["missing closing parenthesis in " ++ Text.quote literal]
  | unknownName name => [Text.quote name ++ " is not a SIMD type or typed array"]
  | lanes shape fault => ("could not construct " ++ shape.name) :: fault.chain
  | element literal fault => ("invalid element in " ++ Text.quote literal) :: fault.chain
  | noNumber literal fault => [Text.quote literal ++ " is not a valid literal", fault.message]

/-! ## Forms -/

/-- what kind of literal a text is -/
inductive Form
  | constant (value : Value)
  | object
  | number
  /-- a name, and what follows its opening parenthesis -/
  | constructed (name rest : List Char)
  deriving DecidableEq, Repr

/-- the text between two equal quotes -/
def unquote? : List Char → Option (List Char)
  | [] => none
  | quote :: rest =>
    if (quote = '\x22' ∨ quote = '\x27') ∧ rest.getLast? = some quote then some rest.dropLast else none

def keyword? (text : String) : Option Form :=
  if text = "undefined" then some (.constant .undefined)
  else if text = "null" then some (.constant .null)
  else if text = "true" then some (.constant (.boolean true))
  else if text = "false" then some (.constant (.boolean false))
  else if text = "\x7b\x7d" then some .object
  else none

/-- the form of a text without blanks around it -/
def formOf (text : List Char) : Form :=
  match keyword? (String.ofList text) with
  | some form => form
  | none =>
    match unquote? text with
    | some inner => .constant (.string (String.ofList inner))
    | none =>
      match text.dropWhile (· != '(') with
      | _ :: rest => .constructed (text.takeWhile (· != '(')) rest
      | [] => .number

def splitCommas : List Char → List (List Char)
  | [] => [[]]
  | ',' :: rest => [] :: splitCommas rest
  | c :: rest =>
    match splitCommas rest with
    | [] => [[c]]
    | piece :: pieces => (c :: piece) :: pieces

/-- the elements of a constructor: what stands between commas, blank pieces left out -/
def elements (text : List Char) : List (List Char) :=
  ((splitCommas text).map (Text.trim Text.isBlank)).filter (· != [])

theorem length_le_of_mem_splitCommas {text piece : List Char} (h : piece ∈ splitCommas text) :
    piece.length ≤ text.length := by
  induction text generalizing piece with
  | nil => simp [splitCommas] at h; simp [h]
  | cons c rest ih =>
    unfold splitCommas at h
    split at h
    · rename_i heq; cases heq
    · rename_i heq; cases heq
      rcases List.mem_cons.1 h with h | h
      · simp [h]
      · exact Nat.le_succ_of_le (ih h)
    · rename_i heq; cases heq
      split at h
      · simp only [List.mem_singleton] at h; simp [h]
      · rename_i first others hsplit
        rcases List.mem_cons.1 h with h | h
        · have := @ih first (by simp [hsplit])
          simp only [h, List.length_cons]; omega
        · exact Nat.le_succ_of_le (ih (by simp [hsplit, h]))

theorem length_trim_le (skip : Char → Bool) (text : List Char) : (Text.trim skip text).length ≤ text.length := by
  simp only [Text.trim, List.length_reverse]
  refine Nat.le_trans (List.dropWhile_sublist _).length_le ?_
  rw [List.length_reverse]
  exact (List.dropWhile_sublist _).length_le

theorem length_le_of_mem_elements {text element : List Char} (h : element ∈ elements text) :
    element.length ≤ text.length := by
  simp only [elements, List.mem_filter, List.mem_map] at h
  obtain ⟨⟨piece, hp, rfl⟩, -⟩ := h
  exact Nat.le_trans (length_trim_le _ _) (length_le_of_mem_splitCommas hp)

/-- what follows the parenthesis of a constructor is shorter than the literal -/
theorem length_lt_of_formOf {text name rest : List Char} (h : formOf text = .constructed name rest) :
    rest.length < text.length := by
  unfold formOf at h
  split at h
  · rename_i form hk
    subst h
    unfold keyword? at hk
    repeat' split at hk
    all_goals simp at hk
  · split at h
    · simp at h
    · split at h
      · rename_i c r hd
        have := (List.dropWhile_sublist (l := text) (· != '(')).length_le
        rw [hd] at this
        simp only [Form.constructed.injEq] at h
        simp only [List.length_cons] at this
        rw [← h.2]; omega
      · simp at h

/-! ## Reading -/

/-- the value of a constructor for elements that have been read -/
def construct (literal name : List Char) (elements : List Value) : StateT Store (Except Rejection) Value := fun st =>
  match Shape.ofName? (String.ofList name) with
  | some s =>
    match s.create elements with
    | .ok v => .ok (.vector v, st)
    | .error fault => .error (.lanes s fault)
  | none =>
    match ElementKind.ofName? (String.ofList name) with
    | some kind =>
      match elements.mapM Value.toNumber with
      | .ok numbers =>
        let (view, st) := View.ofElements st kind numbers
        .ok (.array view, st)
      | .error fault => .error (.element literal fault)
    | none => .error (.unknownName name)

/-- the value that a text denotes -/
def parse (text : List Char) : StateT Store (Except Rejection) Value :=
  let literal := Text.trim Text.isBlank text
  match _hform : formOf literal with
  | .constant value => pure value
  | .object => fun st =>
    let (id, st) := st.addObject
    .ok (.object id, st)
  | .number =>
    match Number.ofLiteral literal with
    | .ok x => pure (.number x)
    | .error fault => throw (.noNumber literal fault)
  | .constructed name rest =>
    if rest.getLast? = some ')' then do
      let values ← (elements rest.dropLast).attach.mapM fun ⟨element, _⟩ => parse element
      construct literal name values
    else throw (.unclosed literal)
termination_by text.length
decreasing_by
  rename_i hmem
  have h1 := length_le_of_mem_elements hmem
  have h2 : rest.length < (Text.trim Text.isBlank text).length := length_lt_of_formOf _hform
  have h3 := length_trim_le Text.isBlank text
  simp only [List.length_dropLast] at h1
  omega

def parseAll (texts : List String) : StateT Store (Except Rejection) (List Value) :=
  texts.mapM fun text => parse text.toList

end Literal

end Vector128
