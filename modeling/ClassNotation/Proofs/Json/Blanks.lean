import ClassNotation.Proofs.Json.Literals
import ClassNotation.Text.Blank

/-! Blanks between the parts of a document. Without them, the indented form of a value is the
compact one. -/

namespace ClassNotation

/-- Where a character stands in a document: between literals, in one, or in one behind a
backslash. -/
inductive Quoting where
  | outside
  | inside
  | escaped
  deriving DecidableEq, Repr

namespace Quoting

def next : Quoting → Char → Quoting
  | .outside, c => if c = '"' then .inside else .outside
  | .inside, c => if c = '"' then .outside else if c = '\\' then .escaped else .inside
  | .escaped, _ => .inside

/-- Leaves out every blank that stands outside literals. -/
def squeeze : Quoting → Text → Text
  | _, [] => []
  | q, c :: t =>
    if q = .outside ∧ isBlank c then squeeze (q.next c) t else c :: squeeze (q.next c) t

end Quoting

def squeeze (t : Text) : Text :=
  Quoting.outside.squeeze t

/-- A part of a document that holds its literals whole, and what is left of it. -/
def Squeezes (a b : Text) : Prop :=
  ∀ rest, squeeze (a ++ rest) = b ++ squeeze rest

namespace Squeezes

variable {a a' b b' : Text}

theorem nil : Squeezes [] [] :=
  fun _ => rfl

theorem append (ha : Squeezes a a') (hb : Squeezes b b') : Squeezes (a ++ b) (a' ++ b') := by
  intro rest
  rw [List.append_assoc, ha, hb, List.append_assoc]

theorem mark {c : Char} (hq : c ≠ '"') (hb : isBlank c = false) : Squeezes [c] [c] := by
  intro rest
  simp [squeeze, Quoting.squeeze, Quoting.next, hq, hb]

theorem blank {c : Char} (hb : isBlank c = true) : Squeezes [c] [] := by
  have hq : c ≠ '"' := by
    rintro rfl
    exact absurd hb (by decide)
  intro rest
  simp [squeeze, Quoting.squeeze, Quoting.next, hq, hb]

theorem newLine (depth : Nat) : Squeezes (Json.newLine depth) [] := by
  have hblanks : ∀ n, Squeezes (List.replicate n ' ') [] := by
    intro n
    induction n with
    | zero => exact nil
    | succ n ih => exact append (blank (c := ' ') (by decide)) ih
  exact append (blank (c := '\n') (by decide)) (hblanks _)

theorem squeeze_escape (c : Char) (rest : Text) :
    Quoting.inside.squeeze (Json.escape c ++ rest) =
      Json.escape c ++ Quoting.inside.squeeze rest := by
  have hplain : ∀ {x rest}, x ≠ '"' → x ≠ '\\' →
      Quoting.inside.squeeze (x :: rest) = x :: Quoting.inside.squeeze rest := by
    intro x rest hq hs
    simp [Quoting.squeeze, Quoting.next, hq, hs]
  have hdigit : ∀ n < 16, Nat.digitChar n ≠ '"' ∧ Nat.digitChar n ≠ '\\' := by decide
  rcases Json.escape_cases c with ⟨x, -, -, he⟩ | ⟨hc, he⟩ | ⟨hq, hs, he⟩
  · rw [he]
    rfl
  · obtain ⟨hq₁, hs₁⟩ := hdigit (c.toNat / 16) (by omega)
    obtain ⟨hq₂, hs₂⟩ := hdigit (c.toNat % 16) (by omega)
    have hcode : Quoting.inside.squeeze ('\\' :: 'u' :: '0' :: '0' ::
        (c.toNat / 16).digitChar :: (c.toNat % 16).digitChar :: rest) =
        '\\' :: 'u' :: '0' :: '0' :: Quoting.inside.squeeze
          ((c.toNat / 16).digitChar :: (c.toNat % 16).digitChar :: rest) := rfl
    simp only [he, List.cons_append, List.nil_append]
    rw [hcode, hplain hq₁ hs₁, hplain hq₂ hs₂]
  · rw [he, List.cons_append, List.nil_append, hplain hq hs]
    rfl

theorem quoted (t : Text) : Squeezes (Json.quoted t) (Json.quoted t) := by
  intro rest
  have hinside : Quoting.inside.squeeze (t.flatMap Json.escape ++ '"' :: rest) =
      t.flatMap Json.escape ++ '"' :: squeeze rest := by
    induction t with
    | nil => rfl
    | cons c t ih =>
      rw [List.flatMap_cons, List.append_assoc, squeeze_escape, ih, List.append_assoc]
  have hopen : squeeze ('"' :: (t.flatMap Json.escape ++ '"' :: rest)) =
      '"' :: Quoting.inside.squeeze (t.flatMap Json.escape ++ '"' :: rest) := rfl
  have happend : ∀ u : Text, Json.quoted t ++ u = '"' :: (t.flatMap Json.escape ++ '"' :: u) := by
    simp [Json.quoted]
  rw [happend, hopen, hinside, happend]

theorem empty {first last : Char} (hf : first ≠ '"' ∧ isBlank first = false)
    (hl : last ≠ '"' ∧ isBlank last = false) : Squeezes [first, last] [first, last] :=
  (mark hf.1 hf.2).append (mark hl.1 hl.2)

theorem bracketed {first last : Char} (hf : first ≠ '"' ∧ isBlank first = false)
    (hl : last ≠ '"' ∧ isBlank last = false) (ha : Squeezes a a') (depth : Nat) :
    Squeezes (first :: a ++ Json.newLine depth ++ [last]) (first :: a' ++ [last]) := by
  have h := ((mark hf.1 hf.2).append ha).append ((newLine depth).append (mark hl.1 hl.2))
  simpa using h

theorem comma (ha : Squeezes a a') (hb : Squeezes b b') :
    Squeezes (a ++ ',' :: b) (a' ++ ',' :: b') := by
  have hmark : Squeezes [','] [','] := mark (by decide) (by decide)
  exact ha.append (hmark.append hb)

theorem member (depth : Nat) (key : Text) (ha : Squeezes a a') :
    Squeezes (Json.newLine depth ++ Json.quoted key ++ ": ".toList ++ a)
      (Json.quoted key ++ ':' :: a') := by
  have hmark : Squeezes [':'] [':'] := mark (by decide) (by decide)
  have hblank : Squeezes [' '] [] := blank (by decide)
  have h := (((newLine depth).append (quoted key)).append (hmark.append hblank)).append ha
  simpa using h

end Squeezes

namespace Json

mutual

theorem squeezes_pretty (depth : Nat) : ∀ j, Squeezes (pretty depth j) (compact j)
  | .text t => .quoted t
  | .array [] => .empty (by decide) (by decide)
  | .array (j :: rest) => .bracketed (by decide) (by decide)
      (squeezes_prettyItems (depth + 1) (j :: rest)) depth
  | .object [] => .empty (by decide) (by decide)
  | .object (m :: rest) => .bracketed (by decide) (by decide)
      (squeezes_prettyMembers (depth + 1) (m :: rest)) depth

theorem squeezes_prettyItems (depth : Nat) :
    ∀ items, Squeezes (prettyItems depth items) (compactItems items)
  | [] => .nil
  | [j] => (Squeezes.newLine depth).append (squeezes_pretty depth j)
  | j :: k :: rest => .comma ((Squeezes.newLine depth).append (squeezes_pretty depth j))
      (squeezes_prettyItems depth (k :: rest))

theorem squeezes_prettyMembers (depth : Nat) :
    ∀ members, Squeezes (prettyMembers depth members) (compactMembers members)
  | [] => .nil
  | [(k, j)] => .member depth k (squeezes_pretty depth j)
  | (k, j) :: m :: rest => .comma (.member depth k (squeezes_pretty depth j))
      (squeezes_prettyMembers depth (m :: rest))

end

theorem squeeze_pretty (depth : Nat) (j : Json) : squeeze (pretty depth j) = compact j := by
  have h := squeezes_pretty depth j []
  rwa [List.append_nil, show squeeze [] = [] from rfl, List.append_nil] at h

end Json

end ClassNotation
