import ClassNotation.Line.Member
import ClassNotation.Line.Parameters

/-! A line that declares a method or a constructor. It is a constructor exactly when its name
is the name of the class. -/

namespace ClassNotation

/-- A declaration cut at its parentheses. -/
structure Signature where
  name : Text
  parameters : Text
  tail : Text
  deriving DecidableEq, Repr

/-- There is one pair of parentheses, and a name in front of it. -/
def Signature.cut? (t : Text) : Option Signature :=
  match Text.cutAt? (· = '(') t with
  | none => none
  | some (front, behind) =>
    match Text.cutAt? (· = ')') behind with
    | none => none
    | some (inside, tail) =>
      if ')' ∉ front ∧ '(' ∉ inside ∧ '(' ∉ tail ∧ ')' ∉ tail ∧ front.trim.isName then
        some ⟨front.trim, inside, tail⟩
      else none

/-- What follows the parameters: nothing, or a colon and a result, which may be missing. -/
def Signature.result? (s : Signature) : Option (Option Text) :=
  match s.tail.trim with
  | [] => some none
  | c :: type => if c = ':' ∧ ':' ∉ type then some (some (Text.trim type)) else none

/-- A constructor is not static and has no result. Any other method has one. -/
def Method.checkResult (owner name : Text) (isStatic : Bool) (result : Option Text)
    (malformed : Fault) : Except Fault (Option Text) :=
  if name = owner then
    if isStatic then .error malformed
    else
      match result with
      | some _ => .error (.unexpectedResult name)
      | none => .ok none
  else
    match result with
    | none => .error (.missingResult name)
    | some type =>
      if type = [] then .error (.missingResult name)
      else
        match checkBrackets type with
        | .error e => .error e
        | .ok () => .ok (some type)

def Method.read (owner line : Text) : Except Fault Method :=
  let malformed := Fault.malformedSignature line.trim
  match MemberLine.read line with
  | .error e => .error e
  | .ok member =>
    match Signature.cut? member.declaration with
    | none => .error malformed
    | some s =>
      match readParameterList s.parameters with
      | .error e => .error e
      | .ok parameters =>
        match s.result? with
        | none => .error malformed
        | some result =>
          match checkResult owner s.name member.isStatic result malformed with
          | .error e => .error e
          | .ok result => .ok ⟨s.name, member.visibility, member.isStatic, parameters, result⟩

example : Method.read "A".toList "+ A (x: int)".toList =
    .ok ⟨"A".toList, .pub, false, [⟨"x".toList, "int".toList⟩], none⟩ := rfl

example : Method.read "A".toList "- static f(): List<A>".toList =
    .ok ⟨"f".toList, .priv, true, [], some "List<A>".toList⟩ := rfl

example : Method.read "A".toList "+ f() :".toList =
    .error (.missingResult "f".toList) := rfl

end ClassNotation
