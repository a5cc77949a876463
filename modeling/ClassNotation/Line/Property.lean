import ClassNotation.ClassBlock
import ClassNotation.Line.Member
import ClassNotation.TypeText

/-! A line that declares a property, as in `- name: type`. The name carries its colon, and
the type follows after a blank. -/

namespace ClassNotation

/-- The name and the type of a declaration, whether or not the brackets of the type match. -/
def Property.cutDeclaration? (t : Text) : Option (Text × Text) :=
  match Text.cutAt? isBlank t with
  | none => none
  | some (word, after) =>
    let name : Text := word.dropLast
    let type := after.trim
    if word.getLast? = some ':' ∧ name.isName ∧ ':' ∉ name ∧ type ≠ [] ∧ ':' ∉ type then
      some (name, type)
    else none

/-- A line with a parenthesis is refused before anything else is looked at. -/
def Property.read (line : Text) : Except Fault Property :=
  if '(' ∈ line ∨ ')' ∈ line then .error (.malformedProperty line.trim)
  else
    match MemberLine.read line with
    | .error e => .error e
    | .ok member =>
      match cutDeclaration? member.declaration with
      | none => .error (.malformedProperty line.trim)
      | some (name, type) =>
        match checkBrackets type with
        | .error e => .error e
        | .ok () => .ok ⟨name, type, member.visibility, member.isStatic⟩

example : Property.read "- xs: List< int >".toList =
    .ok ⟨"xs".toList, "List< int >".toList, .priv, false⟩ := rfl

example : Property.read "- x:int".toList =
    .error (.malformedProperty "- x:int".toList) := rfl

end ClassNotation
