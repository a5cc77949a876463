import ClassNotation.ClassBlock
import ClassNotation.TypeText

/-! Parameter lists, as in `xs: Map<K, V>, n: int`. -/

namespace ClassNotation

/-- A parameter has one colon, between its name and its type. -/
def Parameter.read? (t : Text) : Option Parameter :=
  match (t.splitOn ':').map Text.trim with
  | [name, type] => if name.isName ∧ type ≠ [] then some ⟨name, type⟩ else none
  | _ => none

def readParameters? : List Text → Option (List Parameter)
  | [] => some []
  | part :: parts =>
    match Parameter.read? part, readParameters? parts with
    | some p, some ps => some (p :: ps)
    | _, _ => none

/-- A blank text is the empty list. Brackets that do not match are reported before any
parameter is read. -/
def readParameterList (t : Text) : Except Fault (List Parameter) :=
  if t.trim = [] then .ok []
  else
    match topLevelParts t with
    | .error e => .error e
    | .ok parts =>
      match readParameters? parts with
      | some ps => .ok ps
      | none => .error (.malformedParameters t.trim)

example : readParameterList "a :Map<K, V>,b: int".toList =
    .ok [⟨"a".toList, "Map<K, V>".toList⟩, ⟨"b".toList, "int".toList⟩] := rfl

example : readParameterList "a: A,".toList =
    .error (.malformedParameters "a: A,".toList) := rfl

end ClassNotation
