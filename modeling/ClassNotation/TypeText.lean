import ClassNotation.Fault
import ClassNotation.Text.Blank

/-! Type texts and the commas between them. A comma inside angle brackets belongs to a type,
so a list is cut only where no bracket is open. -/

namespace ClassNotation

/-- The parts between the commas outside brackets, when `depth` brackets are open already.
There are none if a bracket closes that is not open, or stays open. -/
def cutTopLevel : Nat → Text → Option (List Text)
  | 0, [] => some [[]]
  | _ + 1, [] => none
  | depth, c :: t =>
    if c = '<' then (cutTopLevel (depth + 1) t).map (List.modifyHead (c :: ·))
    else if c = '>' then
      match depth with
      | 0 => none
      | depth + 1 => (cutTopLevel depth t).map (List.modifyHead (c :: ·))
    else if c = ',' ∧ depth = 0 then (cutTopLevel 0 t).map ([] :: ·)
    else (cutTopLevel depth t).map (List.modifyHead (c :: ·))

def topLevelParts (t : Text) : Except Fault (List Text) :=
  match cutTopLevel 0 t with
  | some parts => .ok parts
  | none => .error (.unbalancedBrackets t.trim)

/-- Every angle bracket of a type has its partner. -/
def checkBrackets (t : Text) : Except Fault Unit :=
  (topLevelParts t).map fun _ => ()

example : topLevelParts "Map<K, V>, T".toList =
    .ok ["Map<K, V>".toList, " T".toList] := rfl

example : topLevelParts " >a< ".toList =
    .error (.unbalancedBrackets ">a<".toList) := rfl

end ClassNotation
