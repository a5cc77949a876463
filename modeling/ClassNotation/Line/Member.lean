import ClassNotation.Fault
import ClassNotation.Text.Blank

/-! What properties and methods have in common: a visibility, and perhaps the word `static`,
in front of the declaration. -/

namespace ClassNotation

/-- A member line with its declaration still to be read. -/
structure MemberLine where
  visibility : Visibility
  isStatic : Bool
  declaration : Text
  deriving DecidableEq, Repr

/-- The word `static` is the modifier only if text follows it. -/
def MemberLine.read (line : Text) : Except Fault MemberLine :=
  let (symbol, rest) := line.trim.cutWord
  match Visibility.ofSymbol? symbol with
  | none => .error (.unknownVisibility symbol)
  | some v =>
    match Text.cutAt? isBlank rest.trimStart with
    | some (word, after) =>
      if word = staticWord then .ok ⟨v, true, after.trim⟩
      else .ok ⟨v, false, rest.trimStart.trimEnd⟩
    | none => .ok ⟨v, false, rest.trimStart.trimEnd⟩

example : MemberLine.read "+  static x: int".toList =
    .ok ⟨.pub, true, "x: int".toList⟩ := rfl

example : MemberLine.read "# static ".toList =
    .ok ⟨.prot, false, "static".toList⟩ := rfl

end ClassNotation
