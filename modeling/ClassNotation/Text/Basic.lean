/-! Texts as lists of characters. Every reader in this library recurses on one, so they
carry no encoding; the size in UTF-8 is only ever counted. -/

namespace ClassNotation

/-- A text is its characters in order; texts compare by code point. -/
abbrev Text := List Char

namespace Text

def utf8Size (t : Text) : Nat :=
  t.foldr (fun c n => c.utf8Size + n) 0

def ofNat (n : Nat) : Text :=
  Nat.toDigits 10 n

/-- Cuts at the first character with the property, which belongs to neither part. -/
def cutAt? (p : Char → Bool) : Text → Option (Text × Text)
  | [] => none
  | c :: t => if p c then some ([], t) else (cutAt? p t).map fun (a, b) => (c :: a, b)

theorem cutAt?_eq_none_iff {p : Char → Bool} {t : Text} :
    cutAt? p t = none ↔ ∀ c ∈ t, p c = false := by
  induction t with
  | nil => simp [cutAt?]
  | cons c t ih => by_cases h : p c <;> simp [cutAt?, h, ih]

theorem cutAt?_eq_some_iff {p : Char → Bool} {t a b : Text} :
    cutAt? p t = some (a, b) ↔ (∀ c ∈ a, p c = false) ∧ ∃ c, p c = true ∧ t = a ++ c :: b := by
  induction t generalizing a with
  | nil => simp [cutAt?]
  | cons d t ih =>
    by_cases h : p d
    · constructor
      · intro e
        simp only [cutAt?, h, if_true, Option.some.injEq, Prod.mk.injEq] at e
        obtain ⟨rfl, rfl⟩ := e
        exact ⟨by simp, d, h, rfl⟩
      · rintro ⟨ha, c, hc, e⟩
        cases a with
        | nil =>
          simp only [List.nil_append, List.cons.injEq] at e
          simp [cutAt?, h, e.2]
        | cons x a =>
          simp only [List.cons_append, List.cons.injEq] at e
          simp [← e.1, h] at ha
    · constructor
      · intro e
        rw [cutAt?, if_neg h, Option.map_eq_some_iff] at e
        obtain ⟨⟨x, y⟩, hxy, e⟩ := e
        simp only [Prod.mk.injEq] at e
        obtain ⟨rfl, rfl⟩ := e
        obtain ⟨hx, c, hc, rfl⟩ := ih.1 hxy
        exact ⟨by simpa [h] using hx, c, hc, rfl⟩
      · rintro ⟨ha, c, hc, e⟩
        cases a with
        | nil =>
          simp only [List.nil_append, List.cons.injEq] at e
          simp [e.1, hc] at h
        | cons x a =>
          simp only [List.cons_append, List.cons.injEq] at e
          obtain ⟨rfl, e⟩ := e
          have hx := ih.2 ⟨fun z hz => ha z (List.mem_cons_of_mem _ hz), c, hc, e⟩
          simp [cutAt?, h, hx]

/-- The lines, without a carriage return that stands directly before a line feed. The last
line need not be closed, and no line follows the last line feed. -/
def lines (t : Text) : List Text :=
  closed (t.splitOn '\n')
where
  closed : List Text → List Text
    | [] => []
    | [l] => if l = [] then [] else [l]
    | l :: ls => withoutReturn l :: closed ls
  withoutReturn (l : Text) : Text :=
    if l.getLast? = some '\r' then l.dropLast else l

example : lines "a\r\nb\r".toList = ["a".toList, "b\r".toList] := rfl

example : lines "a\n\n".toList = ["a".toList, []] := rfl

end Text

end ClassNotation
