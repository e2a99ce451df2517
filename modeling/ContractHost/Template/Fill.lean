import ContractHost.Template.Written

/-!
# Filling templates

A template is filled by writing a value for each of its directives; two percent signs in a row stand for
one. Of a sequence every value has to be taken.

* `fill`: the text of a template with values.
-/

namespace ContractHost.Template

/-- The letters of a template that is no longer than the budget. -/
def fillFrom [Room] : (budget : Nat) → Supply → List Char → Except Fault (List Letter)
  | 0, supply, _ => if supply.isSpent then .ok [] else .error .wrongType
  | budget + 1, supply, text =>
    match text with
    | [] => if supply.isSpent then .ok [] else .error .wrongType
    | '%' :: '%' :: rest => do return .char '%' :: (← fillFrom budget supply rest)
    | '%' :: rest => do
      let (directive, supply, rest) ← readDirective supply rest
      let (value, supply) ← supply.next
      let written ← directive.write value
      return written ++ (← fillFrom budget supply rest)
    | c :: rest => do return .char c :: (← fillFrom budget supply rest)

/-- The text of a template with values. -/
def fill [Room] (supply : Supply) (template : String) : Except Fault Text := do
  let text := template.toList
  return .ofLetters (← fillFrom text.length supply text)

end ContractHost.Template
