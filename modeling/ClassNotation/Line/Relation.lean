import ClassNotation.Fault
import ClassNotation.Text.Blank

/-! A line that relates the open class to others: a keyword and the classes it names. The
names are cut at every comma, brackets or not. -/

namespace ClassNotation

structure RelationLine where
  kind : RelationKind
  related : List Text
  deriving DecidableEq, Repr

def RelationLine.read (line : Text) : Except Fault RelationLine :=
  let (keyword, names) := line.trim.cutWord
  match RelationKind.ofKeyword? keyword with
  | none => .error (.unknownRelation keyword)
  | some kind =>
    let related := (names.splitOn ',').map Text.trim
    if related.any (·.isEmpty) then .error (.malformedRelation line.trim) else .ok ⟨kind, related⟩

example : RelationLine.read "implements A <Interface>,B".toList =
    .ok ⟨.realization, ["A <Interface>".toList, "B".toList]⟩ := rfl

example : RelationLine.read "extends Map<K, V>".toList =
    .ok ⟨.generalization, ["Map<K".toList, "V>".toList]⟩ := rfl

example : RelationLine.read "extends".toList =
    .error (.malformedRelation "extends".toList) := rfl

end ClassNotation
