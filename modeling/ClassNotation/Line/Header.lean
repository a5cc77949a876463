import ClassNotation.Fault
import ClassNotation.Text.Blank

/-! The first line of a class block: the name and, at most, a qualifier. -/

namespace ClassNotation

structure Header where
  name : Text
  qualifier : Option Qualifier
  deriving DecidableEq, Repr

def Header.read (line : Text) : Except Fault Header :=
  match line.words with
  | [name] => .ok ⟨name, none⟩
  | [name, token] =>
    match Qualifier.ofToken? token with
    | some q => .ok ⟨name, some q⟩
    | none => .error (.unknownQualifier token)
  | _ => .error (.malformedHeader line)

example : Header.read "Shape  <Interface>".toList =
    .ok ⟨"Shape".toList, some .interface⟩ := rfl

end ClassNotation
