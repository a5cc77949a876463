import ClassNotation.Line.Property
import ClassNotation.Proofs.Line.Member

/-! Property lines and how they are written. -/

namespace ClassNotation

namespace Property

def memberLine (p : Property) : MemberLine :=
  ⟨p.visibility, p.isStatic, ascribe p.name p.type⟩

def written (p : Property) : Text :=
  p.memberLine.written

def texts (p : Property) : List Text :=
  [p.name, p.type]

/-- What holds of every property that a line declares. -/
structure WellFormed (p : Property) : Prop where
  name : p.name.isName = true
  colon : ':' ∉ p.name
  type : p.type.TypeLike
  paren : ∀ t ∈ p.texts, t.ParenFree
  brackets : checkBrackets p.type = .ok ()

variable {p : Property}

theorem WellFormed.declaration (h : p.WellFormed) : p.memberLine.declaration.Declaration :=
  .of_mark h.name (by decide) (by decide) [' '] h.type.trimmed h.type.nonempty

theorem read_eq_ok_iff {line : Text} :
    read line = .ok p ↔ line.ParenFree ∧ ∃ declaration,
      MemberLine.read line = .ok ⟨p.visibility, p.isStatic, declaration⟩ ∧
      cutDeclaration? declaration = some (p.name, p.type) ∧ checkBrackets p.type = .ok () := by
  rw [read]
  constructor
  · intro h
    split at h
    · cases h
    · rename_i hparen
      split at h
      · cases h
      · rename_i member hmember
        split at h
        · cases h
        · rename_i name type hcut
          split at h
          · cases h
          · rename_i hbrackets
            cases h
            exact ⟨not_or.1 hparen, member.declaration, hmember, hcut, hbrackets⟩
  · rintro ⟨hparen, declaration, hmember, hcut, hbrackets⟩
    rw [if_neg (not_or.2 hparen)]
    simp only [hmember, hcut, hbrackets]

theorem cutDeclaration?_eq_some_iff {t name type : Text} (ht : t.Trimmed) :
    cutDeclaration? t = some (name, type) ↔
      (name.isName = true ∧ ':' ∉ name) ∧ type.TypeLike ∧
        ∃ gap, Text.Gap gap ∧ t = name ++ ':' :: (gap ++ type) := by
  rw [cutDeclaration?]
  constructor
  · intro h
    split at h
    · cases h
    · rename_i word after hcut
      dsimp only at h
      split at h
      · rename_i hd
        cases h
        obtain ⟨hlast, hname, hcolon, htype, htypeColon⟩ := hd
        obtain ⟨-, c, hc, rfl⟩ := Text.cutAt?_eq_some_iff.1 hcut
        obtain ⟨word, rfl⟩ := List.getLast?_eq_some_iff.1 hlast
        obtain ⟨-, -, gap, hgap, hafter⟩ := ht.exists_gap hc
        rw [List.dropLast_concat] at hname hcolon ⊢
        refine ⟨⟨hname, hcolon⟩, ⟨htype, Text.trimmed_trim after, htypeColon⟩, gap, hgap, ?_⟩
        rw [hafter, List.append_assoc]
        rfl
      · cases h
  · rintro ⟨⟨hname, hcolon⟩, htype, gap, hgap, rfl⟩
    obtain ⟨c, blanks, rfl⟩ := List.exists_cons_of_ne_nil hgap.nonempty
    have hblanks : Text.AllBlank blanks := fun x hx => hgap.blank x (List.mem_cons_of_mem c hx)
    have hword : ∀ x ∈ name ++ [':'], isBlank x = false := by
      intro x hx
      rcases List.mem_append.1 hx with hx | hx
      · exact (Text.isName_iff.1 hname).2 x hx
      · rw [List.mem_singleton.1 hx]
        decide
    have hcut : Text.cutAt? isBlank (name ++ ':' :: (c :: blanks ++ type)) =
        some (name ++ [':'], blanks ++ type) := by
      rw [List.append_cons]
      exact Text.cutAt?_append_cons hword (hgap.blank c List.mem_cons_self) _
    simp only [hcut, List.dropLast_concat, List.getLast?_concat,
      Text.trim_append_of_trimmed hblanks htype.trimmed]
    exact if_pos ⟨trivial, hname, hcolon, htype.nonempty, htype.colon⟩

theorem cutDeclaration?_ascribe (h : p.WellFormed) :
    cutDeclaration? (ascribe p.name p.type) = some (p.name, p.type) :=
  (cutDeclaration?_eq_some_iff h.declaration.trimmed).2
    ⟨⟨h.name, h.colon⟩, h.type, [' '], ⟨by simp, .space⟩, rfl⟩

theorem read_written (h : p.WellFormed) : read p.written = .ok p := by
  obtain ⟨hname, htype⟩ : p.name.ParenFree ∧ p.type.ParenFree := by simpa [texts] using h.paren
  have hparen := MemberLine.parenFree_written (m := p.memberLine)
    (joins_parenFree.ascribe hname htype)
  exact read_eq_ok_iff.2 ⟨hparen, _, MemberLine.read_written h.declaration,
    cutDeclaration?_ascribe h, h.brackets⟩

theorem isInfix_of_cutDeclaration? {t name type : Text} (ht : t.Trimmed)
    (h : cutDeclaration? t = some (name, type)) : name <:+: t ∧ type <:+: t := by
  obtain ⟨-, -, gap, -, rfl⟩ := (cutDeclaration?_eq_some_iff ht).1 h
  exact ⟨(List.prefix_append _ _).isInfix, ⟨name ++ ':' :: gap, [], by simp⟩⟩

theorem of_read {line : Text} (h : read line = .ok p) :
    p.WellFormed ∧ ∀ t ∈ p.texts, t <:+: line := by
  obtain ⟨hparen, declaration, hmember, hcut, hbrackets⟩ := read_eq_ok_iff.1 h
  obtain ⟨htrimmed, hd⟩ := MemberLine.declaration_of_read hmember
  obtain ⟨⟨hn, hcolon⟩, ht, -⟩ := (cutDeclaration?_eq_some_iff htrimmed).1 hcut
  obtain ⟨hni, hti⟩ := isInfix_of_cutDeclaration? htrimmed hcut
  have hi : ∀ t ∈ p.texts, t <:+: line := by
    simpa [texts] using ⟨hni.trans hd, hti.trans hd⟩
  exact ⟨⟨hn, hcolon, ht, fun t hm => hparen.of_isInfix (hi t hm), hbrackets⟩, hi⟩

theorem isContent_written (h : p.WellFormed) (hp : ∀ t ∈ p.texts, t.Plain) :
    p.written.IsContent := by
  obtain ⟨hname, htype⟩ : p.name.Plain ∧ p.type.Plain := by simpa [texts] using hp
  exact MemberLine.isContent_written h.declaration (joins_plain.ascribe hname htype)

end Property

end ClassNotation
