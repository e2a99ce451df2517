import ContractHost.Log.Record
import ContractHost.Text.Word

/-!
# Checked layouts

The template and the date pattern of a log are settings, and one that cannot be used gives way to a
default. A template can be used if it has at least one directive for a field, if every field in
parentheses belongs to a directive, and if a line can be made with it in which no field is left. A date
pattern can be used if it is made of directives, digits and marks alone, and at least one directive.

* `Layout.make`: a layout whose template has a directive.
* `checkedTemplate`: a template, or the default.
* `checkedPattern`: a date pattern, or the default.
-/

namespace ContractHost.Log

/-! ## Templates -/

/-- Whether a character may follow the first one of a name. -/
def isNameChar (c : Char) : Bool := c.isAlphanum || c = '_'

/-- Whether a character is a letter of ASCII. -/
def isLetter (c : Char) : Bool := c.isAlpha

/-- What follows a name in parentheses and a letter. -/
def afterField? : List Char → Option (List Char)
  | '(' :: c :: rest =>
    if isLetter c || c = '_' then
      match rest.dropWhile isNameChar with
      | ')' :: d :: rest => if isLetter d then some rest else none
      | _ => none
    else none
  | _ => none

/-- Whether a text has a name in parentheses before a letter that no percent sign stands before. Of what
overlaps only the first counts. -/
def hasBareField (before : Option Char) : (budget : Nat) → List Char → Bool
  | 0, _ => false
  | _, [] => false
  | budget + 1, c :: rest =>
    match afterField? (c :: rest) with
    | some after =>
      if before = some '%' then
        let own := (c :: rest).take (rest.length + 1 - after.length)
        hasBareField own.getLast? budget after
      else true
    | none => hasBareField (some c) budget rest

/-- Whether a text has a name in parentheses before a letter. -/
def hasField : List Char → Bool
  | [] => false
  | c :: rest => (afterField? (c :: rest)).isSome || hasField rest

/-- Whether a character ends a directive, in whatever case. -/
def isKind (c : Char) : Bool :=
  "diouxefgcrsa%".toList.contains c.toLower || c = 'ı' || c = 'İ' || c = 'ſ'

/-- A text without a number or an asterisk in front. -/
def skipCount (text : List Char) : List Char :=
  match text with
  | '*' :: rest => rest
  | _ => text.dropWhile fun c => (Text.decimalValue? c).isSome

/-- Whether a point begins a count of places, and what follows it. -/
def afterPlaces? (text : List Char) : Option (List Char) :=
  match text with
  | '.' :: rest =>
    let after := skipCount rest
    if after.length < rest.length then some after else none
  | _ => some text

/-- Whether a character is a flag of a directive. -/
def isDirectiveFlag (c : Char) : Bool := c = '#' || c = '0' || c = '+' || c = ' ' || c = '-'

/-- Whether a text begins with a directive for a field. -/
def isDirective (text : List Char) : Bool :=
  match text with
  | '%' :: '(' :: rest =>
    match rest.takeWhile Text.isWord, rest.dropWhile Text.isWord with
    | _ :: _, ')' :: rest =>
      match afterPlaces? (skipCount (rest.dropWhile isDirectiveFlag)) with
      | some (c :: _) => isKind c
      | _ => false
    | _, _ => false
  | _ => false

/-- Whether a text has a directive for a field. -/
def hasDirective : List Char → Bool
  | [] => false
  | c :: rest => isDirective (c :: rest) || hasDirective rest

/-- A layout whose template has a directive for a field. An empty template stands for the plain one. -/
def Layout.make (template : String) (pattern : Option String) : Except Fault Layout :=
  let template := if template = "" then plainTemplate else template
  if hasDirective template.toList then .ok { template, pattern } else .error .badValue

/-- The record that templates are tried with. -/
def trialRecord : Record := { name := "test", level := information, message := "test" }

/-- A template that can be used. -/
def tryTemplate [Room] (template : String) : Except Fault String := do
  let text := template.toList
  if hasBareField none text.length text then throw .badValue
  let line ← (← Layout.make template none).rawLine trialRecord
  if hasField line.chars then throw .badValue
  return template

/-- Whether a fault of a template gives way to the default. -/
def isTemplateFault (fault : Fault) : Bool := fault = .badValue || fault = .wrongType

/-- A template, or the default if it cannot be used. -/
def checkedTemplate [Room] (default template : String) : Except Fault String :=
  if template = "" then .ok default
  else
    match tryTemplate template with
    | .ok template => .ok template
    | .error fault => if isTemplateFault fault then .ok default else .error fault

/-! ## Date patterns -/

/-- Whether a letter is that of a part of a moment. -/
def isPart (c : Char) : Bool := c.isAlpha && !"EJKLOQioqv".toList.contains c

/-- Whether a character marks another form of a part. -/
def isMark (c : Char) : Bool := c = 'E' || c = 'O'

/-- Whether a character is a flag of a part. -/
def isPartFlag (c : Char) : Bool := c = '-' || c = '_' || c = '0' || c = '^' || c = '#'

/-- A text without a mark in front. -/
def withoutMark : List Char → List Char
  | [] => []
  | c :: rest => if isMark c then rest else c :: rest

theorem length_withoutMark (text : List Char) : (withoutMark text).length ≤ text.length := by
  cases text with
  | nil => simp [withoutMark]
  | cons c rest =>
    simp only [withoutMark]
    split <;> simp

/-- What follows the rest of a directive for a part, after its percent sign. -/
def afterPart? (text : List Char) : Option (List Char) :=
  match (withoutMark text).dropWhile isPartFlag with
  | c :: rest => if isPart c then some rest else none
  | [] => none

theorem length_afterPart {text rest : List Char} (h : afterPart? text = some rest) :
    rest.length < text.length := by
  have hd := (List.dropWhile_sublist (p := isPartFlag) (l := withoutMark text)).length_le
  have hm := length_withoutMark text
  unfold afterPart? at h
  split at h
  · rename_i c tail heq
    split at h
    · rw [heq, Option.some.inj h, List.length_cons] at hd
      omega
    · exact absurd h (by simp)
  · exact absurd h (by simp)

/-- Whether a character may stand in a date pattern for itself. -/
def isPatternMark (c : Char) : Bool :=
  ('0' ≤ c && c ≤ '9') || " \t:-/.,TZ+".toList.contains c

/-- Whether a text is made of directives for parts, doubled percent signs, digits and marks. -/
def isPattern (text : List Char) : Bool :=
  match text with
  | [] => true
  | '%' :: '%' :: rest => isPattern rest
  | c :: rest =>
    if c = '%' then
      match _h : afterPart? rest with
      | some after => isPattern after
      | none => false
    else isPatternMark c && isPattern rest
termination_by text.length
decreasing_by
  · simp only [List.length_cons]
    omega
  · have := length_afterPart _h
    simp only [List.length_cons]
    omega
  · simp

/-- Whether some percent sign of a text begins a directive for a part. -/
def hasPart : List Char → Bool
  | [] => false
  | c :: rest => (c = '%' && (afterPart? rest).isSome) || hasPart rest

/-- A text without the end of a line. -/
def withoutEnd (text : List Char) : List Char :=
  if text.getLast? = some '\n' then text.dropLast else text

/-- A date pattern, or the default if it cannot be used. -/
def checkedPattern (default pattern : String) : String :=
  let text := withoutEnd pattern.toList
  if isPattern text && hasPart text then pattern else default

end ContractHost.Log
