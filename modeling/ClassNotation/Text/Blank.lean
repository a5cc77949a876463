import ClassNotation.Text.Basic

/-! Blank characters and what is cut away at them. Blank is the Unicode property
`White_Space`, so a zero width space or a byte order mark belongs to a word. -/

namespace ClassNotation

/-- The characters with the property `White_Space`, as inclusive ranges of code points. -/
def blankRanges : List (Nat × Nat) :=
  [(0x9, 0xd), (0x20, 0x20), (0x85, 0x85), (0xa0, 0xa0), (0x1680, 0x1680), (0x2000, 0x200a),
    (0x2028, 0x2029), (0x202f, 0x202f), (0x205f, 0x205f), (0x3000, 0x3000)]

def isBlank (c : Char) : Bool :=
  blankRanges.any fun (first, last) => first ≤ c.toNat && c.toNat ≤ last

theorem isBlank_of_isWhitespace {c : Char} (h : c.isWhitespace = true) : isBlank c = true := by
  simp only [Char.isWhitespace, Bool.or_eq_true, decide_eq_true_eq] at h
  rcases h with ((rfl | rfl) | rfl) | rfl <;> rfl

example : (blankRanges.map fun (first, last) => last + 1 - first).sum = 25 := rfl

namespace Text

def trimStart (t : Text) : Text :=
  t.dropWhile isBlank

def trimEnd (t : Text) : Text :=
  (t.reverse.dropWhile isBlank).reverse

def trim (t : Text) : Text :=
  trimEnd (trimStart t)

/-- The maximal runs of characters that are not blank. -/
def words (t : Text) : List Text :=
  (t.splitOnP isBlank).filter (· ≠ [])

/-- Cuts at the first blank. A text without one is its own first part. -/
def cutWord (t : Text) : Text × Text :=
  (cutAt? isBlank t).getD (t, [])

/-- A name is not empty and holds no blank. -/
def isName (t : Text) : Bool :=
  t ≠ [] && !t.any isBlank

theorem isName_iff {t : Text} : isName t = true ↔ t ≠ [] ∧ ∀ c ∈ t, isBlank c = false := by
  simp [isName]

example : trim "\u200b a\u3000\u0085".toList = "\u200b a".toList := rfl

example : words " a\tb  c ".toList = ["a".toList, "b".toList, "c".toList] := rfl

end Text

end ClassNotation
