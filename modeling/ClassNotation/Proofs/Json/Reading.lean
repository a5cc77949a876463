import ClassNotation.Proofs.Json.Blanks

/-! A reader of documents, one character at a time. It holds the parts of the arrays and objects
that are open, and finds in both forms of a value the value itself. -/

namespace ClassNotation.Json

/-- The parts that are read of each open array or object, innermost first, and the literal that is
open. An object is read as its keys and values in turn. -/
structure Reader where
  parts : List (List Json)
  literal : Option Literal

def alternating : List (Text × Json) → List Json
  | [] => []
  | (k, j) :: members => .text k :: j :: alternating members

def members? : List Json → Option (List (Text × Json))
  | [] => some []
  | .text k :: j :: rest => (members? rest).map ((k, j) :: ·)
  | _ => none

theorem members?_alternating (members : List (Text × Json)) :
    members? (alternating members) = some members := by
  induction members with
  | nil => rfl
  | cons m members ih => rw [alternating, members?, ih, Option.map_some]

namespace Reader

def start : Reader :=
  ⟨[[]], none⟩

def put (parts : List (List Json)) (j : Json) : Option Reader :=
  match parts with
  | [] => none
  | top :: outer => some ⟨(top ++ [j]) :: outer, none⟩

def close (parts : List (List Json)) (value? : List Json → Option Json) : Option Reader :=
  match parts with
  | [] => none
  | top :: outer => (value? top).bind (put outer)

/-- Reads a character between literals. -/
def mark (parts : List (List Json)) (c : Char) : Option Reader :=
  if c = '"' then some ⟨parts, some (.plain [])⟩
  else if c = '[' ∨ c = '{' then some ⟨[] :: parts, none⟩
  else if c = ']' then close parts fun items => some (.array items)
  else if c = '}' then close parts fun items => (members? items).map .object
  else if c = ',' ∨ c = ':' ∨ isBlank c then some ⟨parts, none⟩
  else none

def next (r : Reader) (c : Char) : Option Reader :=
  match r.literal with
  | none => mark r.parts c
  | some l =>
    match l.closed? c with
    | some t => put r.parts (.text t)
    | none => (l.next c).map fun l => ⟨r.parts, some l⟩

end Reader

def read? (t : Text) : Option Json :=
  match t.foldlM Reader.next Reader.start with
  | some ⟨[[j]], none⟩ => some j
  | _ => none

namespace Reader

variable {parts : List (List Json)}

theorem foldlM_escape (t : Text) (c : Char) :
    (escape c).foldlM next ⟨parts, some (.plain t)⟩ =
      some ⟨parts, some (.plain (t ++ [c]))⟩ := by
  rcases escape_cases c with ⟨x, hu, hx, he⟩ | ⟨hc, he⟩ | ⟨hq, hs, he⟩
  · rw [he]
    simp [next, Literal.closed?, Literal.next, hu, hx]
  · have hhigh := hexValue?_digitChar (c.toNat / 16) (by omega)
    have hlow := hexValue?_digitChar (c.toNat % 16) (by omega)
    have hzero : hexValue? '0' = some 0 := rfl
    have hvalue : 16 * (c.toNat / 16) + c.toNat % 16 = c.toNat := by omega
    rw [he]
    simp [next, Literal.closed?, Literal.next, hzero, hhigh, hlow, hvalue, Char.ofNat_toNat]
  · rw [he]
    simp [next, Literal.closed?, Literal.next, hq, hs]

theorem foldlM_escapes (t u : Text) :
    (u.flatMap escape).foldlM next ⟨parts, some (.plain t)⟩ =
      some ⟨parts, some (.plain (t ++ u))⟩ := by
  induction u generalizing t with
  | nil => simp
  | cons c u ih =>
    rw [List.flatMap_cons, List.foldlM_append, foldlM_escape]
    simpa using ih (t ++ [c])

end Reader

/-- A part of a document that adds values to those read of the innermost array or object. -/
def Reads (a : Text) (values : List Json) : Prop :=
  ∀ top outer, a.foldlM Reader.next ⟨top :: outer, none⟩ = some ⟨(top ++ values) :: outer, none⟩

namespace Reads

variable {a b : Text} {values more : List Json}

theorem nil : Reads [] [] := by
  intro top outer
  simp

theorem append (ha : Reads a values) (hb : Reads b more) : Reads (a ++ b) (values ++ more) := by
  intro top outer
  rw [List.foldlM_append, ha top outer]
  simpa using hb (top ++ values) outer

theorem separator {c : Char} (hc : c = ',' ∨ c = ':') : Reads [c] [] := by
  intro top outer
  rcases hc with rfl | rfl <;> simp [Reader.next, Reader.mark]

theorem text (t : Text) : Reads (quoted t) [.text t] := by
  intro top outer
  have hopen : ∀ u : Text, ('"' :: u).foldlM Reader.next ⟨top :: outer, none⟩ =
      u.foldlM Reader.next ⟨top :: outer, some (.plain [])⟩ := fun _ => rfl
  rw [quoted, List.cons_append, hopen, List.foldlM_append, Reader.foldlM_escapes]
  rfl

theorem array (ha : Reads a values) : Reads ('[' :: a ++ [']']) [.array values] := by
  intro top outer
  have hopen : ∀ u : Text, ('[' :: u).foldlM Reader.next ⟨top :: outer, none⟩ =
      u.foldlM Reader.next ⟨[] :: top :: outer, none⟩ := fun _ => rfl
  rw [List.cons_append, hopen, List.foldlM_append, ha [] (top :: outer)]
  rfl

theorem object {members : List (Text × Json)} (ha : Reads a (alternating members)) :
    Reads ('{' :: a ++ ['}']) [.object members] := by
  intro top outer
  have hopen : ∀ u : Text, ('{' :: u).foldlM Reader.next ⟨top :: outer, none⟩ =
      u.foldlM Reader.next ⟨[] :: top :: outer, none⟩ := fun _ => rfl
  rw [List.cons_append, hopen, List.foldlM_append, ha [] (top :: outer)]
  simp [Reader.next, Reader.mark, Reader.close, members?_alternating, Reader.put]

theorem comma (ha : Reads a values) (hb : Reads b more) : Reads (a ++ ',' :: b) (values ++ more) :=
  ha.append ((separator (.inl rfl)).append hb)

theorem member (key : Text) {j : Json} (ha : Reads a [j]) :
    Reads (quoted key ++ ':' :: a) [.text key, j] :=
  (text key).append ((separator (.inr rfl)).append ha)

end Reads

mutual

theorem reads_compact : ∀ j, Reads (compact j) [j]
  | .text t => .text t
  | .array items => .array (reads_compactItems items)
  | .object members => .object (reads_compactMembers members)

theorem reads_compactItems : ∀ items, Reads (compactItems items) items
  | [] => .nil
  | [j] => reads_compact j
  | j :: k :: rest => .comma (reads_compact j) (reads_compactItems (k :: rest))

theorem reads_compactMembers : ∀ members, Reads (compactMembers members) (alternating members)
  | [] => .nil
  | [(k, j)] => .member k (reads_compact j)
  | (k, j) :: m :: rest => .comma (.member k (reads_compact j)) (reads_compactMembers (m :: rest))

end

theorem read?_compact (j : Json) : read? (compact j) = some j := by
  rw [read?, Reader.start, reads_compact j [] []]
  rfl

namespace Reader

def quoting (r : Reader) : Quoting :=
  match r.literal with
  | none => .outside
  | some (.escaped _) => .escaped
  | some _ => .inside

theorem quoting_put {parts : List (List Json)} {j : Json} {r : Reader} (h : put parts j = some r) :
    r.quoting = .outside := by
  cases parts with
  | nil => cases h
  | cons top outer =>
    cases h
    rfl

theorem quoting_close {parts : List (List Json)} {value? : List Json → Option Json} {r : Reader}
    (h : close parts value? = some r) : r.quoting = .outside := by
  cases parts with
  | nil => cases h
  | cons top outer =>
    obtain ⟨j, -, hj⟩ := Option.bind_eq_some_iff.1 h
    exact quoting_put hj

theorem quoting_mark {parts : List (List Json)} {c : Char} {r : Reader}
    (h : mark parts c = some r) : r.quoting = Quoting.outside.next c := by
  unfold mark at h
  rw [Quoting.next]
  split_ifs at h ⊢ with hq
  · cases h
    rfl
  · cases h
    rfl
  · exact quoting_close h
  · exact quoting_close h
  · cases h
    rfl

theorem quoting_next {r r' : Reader} {c : Char} (h : r.next c = some r') :
    r'.quoting = r.quoting.next c := by
  obtain ⟨parts, literal⟩ := r
  cases literal with
  | none => exact quoting_mark h
  | some l =>
    cases l with
    | plain t =>
      by_cases hq : c = '"'
      · subst hq
        exact quoting_put h
      · by_cases hs : c = '\\'
        · subst hs
          cases h
          rfl
        · have hstay : some ⟨parts, some (.plain (t ++ [c]))⟩ = some r' := by
            simpa [next, Literal.closed?, Literal.next, hq, hs] using h
          cases hstay
          simp [quoting, Quoting.next, hq, hs]
    | escaped t =>
      obtain ⟨l, hl, rfl⟩ := Option.map_eq_some_iff.1 h
      rw [Literal.next] at hl
      split at hl
      · cases hl
        rfl
      · obtain ⟨x, -, rfl⟩ := Option.map_eq_some_iff.1 hl
        rfl
    | code t more value =>
      obtain ⟨l, hl, rfl⟩ := Option.map_eq_some_iff.1 h
      obtain ⟨x, hx, rfl⟩ := Option.map_eq_some_iff.1 hl
      have hq : c ≠ '"' := by
        rintro rfl
        cases hx
      have hs : c ≠ '\\' := by
        rintro rfl
        cases hx
      have hinside : Quoting.inside.next c = .inside := by simp [Quoting.next, hq, hs]
      cases more <;> exact hinside.symm

theorem next_blank {r : Reader} {c : Char} (hr : r.quoting = .outside) (hc : isBlank c = true) :
    r.next c = some r := by
  obtain ⟨parts, literal⟩ := r
  have hne : ∀ x, isBlank x = false → c ≠ x := by
    rintro x hx rfl
    simp [hx] at hc
  cases literal with
  | none =>
    have h := hne '"' (by decide)
    have h₁ := hne '[' (by decide)
    have h₂ := hne '{' (by decide)
    have h₃ := hne ']' (by decide)
    have h₄ := hne '}' (by decide)
    simp [next, mark, h, h₁, h₂, h₃, h₄, hc]
  | some l => cases l <;> cases hr

theorem foldlM_squeeze (r : Reader) (t : Text) :
    (r.quoting.squeeze t).foldlM next r = t.foldlM next r := by
  induction t generalizing r with
  | nil => rfl
  | cons c t ih =>
    rw [Quoting.squeeze]
    split
    · rename_i h
      have hnext := next_blank h.1 h.2
      rw [List.foldlM_cons, hnext, ← quoting_next hnext]
      exact ih r
    · rw [List.foldlM_cons, List.foldlM_cons]
      cases hn : r.next c with
      | none => rfl
      | some r' =>
        rw [← quoting_next hn]
        exact ih r'

end Reader

/-- The reader passes over blanks outside literals, in any text. -/
theorem read?_squeeze (t : Text) : read? (squeeze t) = read? t := by
  rw [read?, read?, squeeze, show Quoting.outside = Reader.start.quoting from rfl,
    Reader.foldlM_squeeze]

theorem read?_pretty (depth : Nat) (j : Json) : read? (pretty depth j) = some j := by
  rw [← read?_squeeze, squeeze_pretty, read?_compact]

end ClassNotation.Json
