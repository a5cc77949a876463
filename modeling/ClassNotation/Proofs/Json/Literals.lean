import ClassNotation.Json
import Mathlib.Tactic.SplitIfs

/-! Text literals of a document, read character by character. -/

namespace ClassNotation.Json

def unescape? : Char → Option Char
  | '"' => some '"'
  | '\\' => some '\\'
  | '/' => some '/'
  | 'b' => some '\x08'
  | 't' => some '\t'
  | 'n' => some '\n'
  | 'f' => some '\x0c'
  | 'r' => some '\r'
  | _ => none

def hexValue? (c : Char) : Option Nat :=
  (List.range 16).find? (Nat.digitChar · = c)

theorem hexValue?_digitChar : ∀ n < 16, hexValue? (Nat.digitChar n) = some n := by
  decide

/-- An escape is a pair, the code of a control character, or the character itself. -/
theorem escape_cases (c : Char) :
    (∃ x, x ≠ 'u' ∧ unescape? x = some c ∧ escape c = ['\\', x]) ∨
    (c.toNat < 32 ∧ escape c =
      ['\\', 'u', '0', '0', Nat.digitChar (c.toNat / 16), Nat.digitChar (c.toNat % 16)]) ∨
    (c ≠ '"' ∧ c ≠ '\\' ∧ escape c = [c]) := by
  unfold escape
  split_ifs with h₁ h₂ h₃ h₄ h₅ h₆ h₇ h₈
  · subst h₁
    exact .inl ⟨'"', by decide, rfl, rfl⟩
  · subst h₂
    exact .inl ⟨'\\', by decide, rfl, rfl⟩
  · subst h₃
    exact .inl ⟨'b', by decide, rfl, rfl⟩
  · subst h₄
    exact .inl ⟨'t', by decide, rfl, rfl⟩
  · subst h₅
    exact .inl ⟨'n', by decide, rfl, rfl⟩
  · subst h₆
    exact .inl ⟨'f', by decide, rfl, rfl⟩
  · subst h₇
    exact .inl ⟨'r', by decide, rfl, rfl⟩
  · exact .inr (.inl ⟨h₈, rfl⟩)
  · exact .inr (.inr ⟨h₁, h₂, rfl⟩)

/-- A literal that is still open: what it holds so far, and an escape in it that is not complete.
Of the code of a character, so many more digits are to come and the value is that of the others. -/
inductive Literal where
  | plain (sofar : Text)
  | escaped (sofar : Text)
  | code (sofar : Text) (more value : Nat)

/-- What the literal holds, if the character closes it. -/
def Literal.closed? : Literal → Char → Option Text
  | .plain t, c => if c = '"' then some t else none
  | _, _ => none

/-- Reads a character that does not close the literal. -/
def Literal.next : Literal → Char → Option Literal
  | .plain t, c => some (if c = '\\' then .escaped t else .plain (t ++ [c]))
  | .escaped t, c =>
    if c = 'u' then some (.code t 3 0) else (unescape? c).map fun x => .plain (t ++ [x])
  | .code t more value, c =>
    (hexValue? c).map fun x =>
      match more with
      | 0 => .plain (t ++ [Char.ofNat (16 * value + x)])
      | more + 1 => .code t more (16 * value + x)

end ClassNotation.Json
