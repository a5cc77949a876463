import ClassNotation.Line.Member
import ClassNotation.Proofs.Content

/-! Member lines, what they spell and how they are written. A declaration whose first word is
`static` would be read as another one, so what is written must not start with that word. -/

namespace ClassNotation

def Text.ParenFree (t : Text) : Prop :=
  '(' ∉ t ∧ ')' ∉ t

theorem Text.ParenFree.of_isInfix {a t : Text} (h : t.ParenFree) (ha : a <:+: t) : a.ParenFree :=
  ⟨fun hm => h.1 (ha.subset hm), fun hm => h.2 (ha.subset hm)⟩

/-- What spaces, commas and colons between texts do not disturb. -/
structure Joins (Q : Text → Prop) : Prop where
  nil : Q []
  join : ∀ {a b : Text} {c : Char}, c ∈ " ,:".toList → Q a → Q b → Q (a ++ c :: b)

theorem joins_parenFree : Joins Text.ParenFree := by
  refine ⟨⟨by simp, by simp⟩, fun {a b c} hc ha hb => ?_⟩
  have hfree : ∀ x, x ∉ " ,:".toList → x ∉ a → x ∉ b → x ∉ a ++ c :: b := by
    intro x hx hxa hxb hm
    rcases List.mem_append.1 hm with hm | hm
    · exact hxa hm
    · rcases List.mem_cons.1 hm with rfl | hm
      · exact hx hc
      · exact hxb hm
  exact ⟨hfree '(' (by decide) ha.1 hb.1, hfree ')' (by decide) ha.2 hb.2⟩

theorem joins_plain : Joins Text.Plain := by
  refine ⟨.of_not_mem (by simp) (by simp), fun {a b c} hc ha hb => ?_⟩
  have hne : ∀ x, x ∉ " ,:".toList → c ≠ x := fun x hx he => hx (he ▸ hc)
  exact (Text.plain_append_cons (hne '/' (by decide)) (hne '\n' (by decide))).2 ⟨ha, hb⟩

def ascribe (name type : Text) : Text :=
  name ++ ':' :: ' ' :: type

theorem Joins.space {Q : Text → Prop} (hQ : Joins Q) {t : Text} (h : Q t) : Q (' ' :: t) :=
  hQ.join (a := []) (by decide) hQ.nil h

theorem Joins.ascribe {Q : Text → Prop} (hQ : Joins Q) {name type : Text} (hn : Q name)
    (ht : Q type) : Q (ascribe name type) :=
  hQ.join (by decide) hn (hQ.space ht)

theorem Joins.spaced {Q : Text → Prop} (hQ : Joins Q) {w : Text} (hw : Q w) {ws : List Text}
    (h : ∀ x ∈ ws, Q x) : Q (w ++ ws.flatMap (' ' :: ·)) := by
  induction ws generalizing w with
  | nil => simpa using hw
  | cons x ws ih =>
    obtain ⟨hx, hws⟩ := List.forall_mem_cons.1 h
    rw [List.flatMap_cons, List.cons_append]
    exact hQ.join (by decide) hw (ih hx hws)

theorem Joins.listed {Q : Text → Prop} (hQ : Joins Q) {ts : List Text} (h : ∀ t ∈ ts, Q t) :
    Q (", ".toList.intercalate ts) := by
  refine Text.intercalate_of_join hQ.nil (fun a b ha hb => ?_) h
  rw [List.append_assoc]
  exact hQ.join (by decide : ',' ∈ " ,:".toList) ha (hQ.space hb)

/-- The text begins with the word, and a blank follows. -/
def Text.OpensWith (t word : Text) : Prop :=
  ∃ c rest, isBlank c = true ∧ t = word ++ c :: rest

theorem Text.opensWith_iff {t word : Text} (hw : ∀ c ∈ word, isBlank c = false) :
    t.OpensWith word ↔ ∃ after, cutAt? isBlank t = some (word, after) := by
  simp only [cutAt?_eq_some_iff]
  constructor
  · rintro ⟨c, rest, hc, ht⟩
    exact ⟨rest, hw, c, hc, ht⟩
  · rintro ⟨rest, -, c, hc, ht⟩
    exact ⟨c, rest, hc, ht⟩

theorem blank_not_mem_staticWord : ∀ c ∈ staticWord, isBlank c = false :=
  (Text.isName_iff.1 rfl).2

/-- What can be read as a type, whether or not its brackets match. -/
structure Text.TypeLike (t : Text) : Prop where
  nonempty : t ≠ []
  trimmed : t.Trimmed
  colon : ':' ∉ t

structure Text.Declaration (t : Text) : Prop where
  nonempty : t ≠ []
  trimmed : t.Trimmed
  word : ∀ word after, cutAt? isBlank t = some (word, after) → word ≠ staticWord

/-- A mark directly behind the name belongs to the first word of a declaration, so that word is
not `static`. -/
theorem Text.Declaration.of_mark {name last : Text} {mark : Char} (hn : name.isName = true)
    (hb : isBlank mark = false) (hm : mark ∉ staticWord) (inner : Text) (hl : last.Trimmed)
    (hl' : last ≠ []) : Text.Declaration (name ++ mark :: (inner ++ last)) := by
  obtain ⟨hne, hname⟩ := Text.isName_iff.1 hn
  refine ⟨by simp, ?_, fun word after hc hw => hm ?_⟩
  · simpa using (Text.Trimmed.of_isName hn).surround hne (mark :: inner) hl hl'
  · exact hw ▸ Text.mem_of_cutAt?_append_cons hname hb hc

theorem Text.Declaration.not_opensWith {t : Text} (h : t.Declaration) :
    ¬ t.OpensWith staticWord := by
  rw [opensWith_iff blank_not_mem_staticWord]
  rintro ⟨after, hc⟩
  exact h.word _ after hc rfl

theorem Visibility.isName_symbol (v : Visibility) : v.symbol.isName = true := by
  cases v <;> rfl

theorem Visibility.ofSymbol?_eq_none_iff {t : Text} :
    ofSymbol? t = none ↔ ∀ v : Visibility, t ≠ v.symbol := by
  simp only [Option.eq_none_iff_forall_ne_some, ne_eq, ofSymbol?_eq_some_iff]

namespace MemberLine

/-- The line is the symbol of a visibility and a declaration. The word `static` in front of the
declaration is always the modifier. -/
inductive Spells (line : Text) : MemberLine → Prop
  | bare {v : Visibility} (h : line.trim = v.symbol) : Spells line ⟨v, false, []⟩
  | plain {v : Visibility} {gap d : Text} (h : line.trim = v.symbol ++ gap ++ d)
      (hgap : gap.Gap) (hd : d ≠ []) (ht : d.Trimmed) (hs : ¬ d.OpensWith staticWord) :
      Spells line ⟨v, false, d⟩
  | static {v : Visibility} {gap gap' d : Text}
      (h : line.trim = v.symbol ++ gap ++ (staticWord ++ gap' ++ d)) (hgap : gap.Gap)
      (hgap' : gap'.Gap) (hd : d ≠ []) (ht : d.Trimmed) : Spells line ⟨v, true, d⟩

section reading

variable {line : Text} {m : MemberLine}

theorem cutWord_symbol {v : Visibility} {gap d : Text} (h : line.trim = v.symbol ++ gap ++ d)
    (hgap : gap.Gap) (hd : ∀ c ∈ d.head?, isBlank c = false) :
    ∃ rest, line.trim.cutWord = (v.symbol, rest) ∧ rest.trimStart = d := by
  obtain ⟨c, blanks, rfl⟩ := List.exists_cons_of_ne_nil hgap.nonempty
  have hblanks : Text.AllBlank blanks := fun x hx => hgap.blank x (List.mem_cons_of_mem c hx)
  refine ⟨blanks ++ d, ?_, ?_⟩
  · rw [h, List.append_assoc, List.cons_append]
    exact Text.cutWord_append_cons (Text.isName_iff.1 v.isName_symbol).2
      (hgap.blank c List.mem_cons_self) _
  · rw [Text.trimStart_append hblanks, Text.trimStart_of_head hd]

theorem read_of_spells (h : Spells line m) : read line = .ok m := by
  rw [read]
  cases h with
  | @bare v h =>
    rw [h]
    cases v <;> rfl
  | plain h hgap hd ht hs =>
    obtain ⟨rest, hcut, hrest⟩ := cutWord_symbol h hgap ht.head
    rw [Text.opensWith_iff blank_not_mem_staticWord] at hs
    simp only [hcut, Visibility.ofSymbol?_symbol, hrest, Text.trimEnd_of_last ht.last]
    split
    · rename_i word after hc
      rw [if_neg]
      rintro rfl
      exact hs ⟨after, hc⟩
    · rfl
  | @static v gap gap' d h hgap hgap' hd ht =>
    have hhead : ∀ c ∈ (staticWord ++ gap' ++ d).head?, isBlank c = false := by
      intro c hc
      obtain rfl := Option.some.inj hc
      rfl
    obtain ⟨rest, hcut, hrest⟩ := cutWord_symbol h hgap hhead
    obtain ⟨c, blanks, rfl⟩ := List.exists_cons_of_ne_nil hgap'.nonempty
    have hblanks : Text.AllBlank blanks := fun x hx => hgap'.blank x (List.mem_cons_of_mem c hx)
    have hstatic : Text.cutAt? isBlank (staticWord ++ c :: blanks ++ d) =
        some (staticWord, blanks ++ d) := by
      rw [List.append_assoc, List.cons_append]
      exact Text.cutAt?_append_cons blank_not_mem_staticWord (hgap'.blank c List.mem_cons_self) _
    simp only [hcut, Visibility.ofSymbol?_symbol, hrest, hstatic, if_true,
      Text.trim_append_of_trimmed hblanks ht]

theorem spells_of_read (h : read line = .ok m) : Spells line m := by
  rw [read] at h
  split at h
  rename_i symbol rest hcut
  split at h
  · cases h
  · rename_i v hv
    obtain rfl := Visibility.ofSymbol?_eq_some_iff.1 hv
    rcases (Text.cutWord_eq hcut).2 with ⟨ht, rfl⟩ | ⟨c, hc, ht⟩
    · cases h
      exact .bare ht
    · obtain ⟨hstart, hne, gap, hgap, hrest⟩ := (ht ▸ Text.trimmed_trim line).exists_gap hc
      rw [hrest, ← List.append_assoc] at ht
      rw [hstart, Text.trimEnd_of_last (Text.trimmed_trim rest).last] at h
      have hplain := Spells.plain ht hgap hne (Text.trimmed_trim rest)
      rw [Text.opensWith_iff blank_not_mem_staticWord] at hplain
      split at h
      · rename_i word after hcut'
        split at h
        · rename_i hword
          cases h
          obtain ⟨-, d, hd, he⟩ := Text.cutAt?_eq_some_iff.1 hcut'
          obtain ⟨-, hne', gap', hgap', hafter⟩ := (he ▸ Text.trimmed_trim rest).exists_gap hd
          rw [he, hafter, hword, ← List.append_assoc staticWord] at ht
          exact .static ht hgap hgap' hne' (Text.trimmed_trim after)
        · rename_i hword
          cases h
          refine hplain ?_
          rintro ⟨after', hc'⟩
          rw [hcut'] at hc'
          cases hc'
          exact hword rfl
      · rename_i hcut'
        cases h
        refine hplain ?_
        rintro ⟨after', hc'⟩
        rw [hcut'] at hc'
        cases hc'

theorem read_eq_error_iff {f : Fault} :
    read line = .error f ↔
      (∀ v : Visibility, line.firstWord ≠ v.symbol) ∧ f = .unknownVisibility line.firstWord := by
  have hword : line.trim.cutWord.1 = line.firstWord := by
    rw [Text.cutWord_of_trimmed (Text.trimmed_trim line), Text.firstWord_trim]
  rw [← Visibility.ofSymbol?_eq_none_iff, ← hword, read]
  split
  rename_i symbol rest hcut
  rw [hcut]
  split
  · rename_i hv
    simp [hv, eq_comm]
  · rename_i v hv
    rw [hv]
    split
    · split <;> simp
    · simp

end reading

def written (m : MemberLine) : Text :=
  m.visibility.symbol ++ ' ' ::
    if m.isStatic then staticWord ++ ' ' :: m.declaration else m.declaration

variable {m : MemberLine}

theorem isSeparator_written : isSeparator m.written = false := by
  obtain ⟨v, s, d⟩ := m
  cases v <;> rfl

theorem written_of_joins {Q : Text → Prop} (hQ : Joins Q) (hv : ∀ v : Visibility, Q v.symbol)
    (hs : Q staticWord) (h : Q m.declaration) : Q m.written := by
  refine hQ.join (by decide) (hv m.visibility) ?_
  split
  · exact hQ.join (by decide) hs h
  · exact h

theorem parenFree_written (h : m.declaration.ParenFree) : m.written.ParenFree :=
  written_of_joins joins_parenFree (fun v => by cases v <;> exact ⟨by decide, by decide⟩)
    ⟨by decide, by decide⟩ h

theorem plain_written (h : m.declaration.Plain) : m.written.Plain :=
  written_of_joins joins_plain (fun v => by cases v <;> exact .of_not_mem (by decide) (by decide))
    (.of_not_mem (by decide) (by decide)) h

theorem trimmed_written (h : m.declaration.Declaration) : m.written.Trimmed := by
  have hv := m.visibility.isName_symbol
  have hs := fun mid => Text.Trimmed.surround (.of_isName hv) (Text.isName_iff.1 hv).1 mid
    h.trimmed h.nonempty
  rw [written]
  split
  · simpa using hs (' ' :: staticWord ++ [' '])
  · simpa using hs [' ']

theorem spells_written (h : m.declaration.Declaration) : Spells m.written m := by
  have hgap : Text.Gap [' '] := ⟨by simp, .space⟩
  have ht := Text.trim_of_trimmed (trimmed_written h)
  obtain ⟨v, isStatic, d⟩ := m
  cases isStatic with
  | true =>
    have htext : written ⟨v, true, d⟩ = v.symbol ++ [' '] ++ (staticWord ++ [' '] ++ d) := by
      simp [written]
    exact .static (ht.trans htext) hgap hgap h.nonempty h.trimmed
  | false =>
    have htext : written ⟨v, false, d⟩ = v.symbol ++ [' '] ++ d := by simp [written]
    exact .plain (ht.trans htext) hgap h.nonempty h.trimmed h.not_opensWith

theorem read_written (h : m.declaration.Declaration) : read m.written = .ok m :=
  read_of_spells (spells_written h)

theorem isContent_written (h : m.declaration.Declaration) (hp : m.declaration.Plain) :
    m.written.IsContent :=
  ⟨plain_written hp, trimmed_written h, by simp [written]⟩

theorem Spells.declaration {line : Text} (h : Spells line m) :
    m.declaration.Trimmed ∧ m.declaration <:+: line := by
  have hline := Text.trim_isInfix line
  cases h with
  | bare => exact ⟨.nil, List.nil_infix⟩
  | plain h _ _ ht _ => exact ⟨ht, .trans ⟨_, [], by rw [h, List.append_nil]⟩ hline⟩
  | @static v gap gap' d h _ _ _ ht =>
    refine ⟨ht, .trans ⟨v.symbol ++ gap ++ (staticWord ++ gap'), [], ?_⟩ hline⟩
    rw [h]
    simp

theorem declaration_of_read {line : Text} (h : read line = .ok m) :
    m.declaration.Trimmed ∧ m.declaration <:+: line :=
  (spells_of_read h).declaration

end MemberLine

end ClassNotation
