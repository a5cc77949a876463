import ClassNotation.Proofs.Brackets
import ClassNotation.Proofs.Line.Property

/-! The grammar of property lines. A line is read in one way at most, and a line that is refused
tells at which of the four demands on it the reading fails. -/

namespace ClassNotation

/-- A property line in pieces. Behind the word `static` stand blanks, if it is there. -/
structure PropertyReading where
  visibility : Visibility
  gap : Text
  staticGap : Option Text
  name : Text
  typeGap : Text
  type : Text

namespace PropertyReading

def modifier (r : PropertyReading) : Text :=
  (r.staticGap.map (staticWord ++ ·)).getD []

def text (r : PropertyReading) : Text :=
  r.visibility.symbol ++ r.gap ++ r.modifier ++ r.name ++ ':' :: r.typeGap ++ r.type

def property (r : PropertyReading) : Property :=
  ⟨r.name, r.type, r.visibility, r.staticGap.isSome⟩

/-- The pieces are those of the line, whether or not the brackets of the type match. -/
structure Of (line : Text) (r : PropertyReading) : Prop where
  text : line.trim = r.text
  gap : r.gap.Gap
  staticGap : ∀ g ∈ r.staticGap, Text.Gap g
  name : r.name.isName = true
  colon : ':' ∉ r.name
  typeGap : r.typeGap.Gap
  type : r.type.TypeLike

def declaration (r : PropertyReading) : Text :=
  r.name ++ ':' :: (r.typeGap ++ r.type)

def memberLine (r : PropertyReading) : MemberLine :=
  ⟨r.visibility, r.staticGap.isSome, r.declaration⟩

variable {line : Text} {r r' : PropertyReading}

theorem text_eq (r : PropertyReading) :
    r.text = r.visibility.symbol ++ r.gap ++ (r.modifier ++ r.declaration) := by
  simp [text, declaration]

theorem Of.spells (h : r.Of line) : MemberLine.Spells line r.memberLine := by
  have hd : r.declaration.Declaration :=
    .of_mark h.name (by decide) (by decide) r.typeGap h.type.trimmed h.type.nonempty
  have ht := h.text
  rw [text_eq, modifier] at ht
  rw [memberLine]
  cases hs : r.staticGap with
  | none =>
    rw [hs] at ht
    exact .plain ht h.gap hd.nonempty hd.trimmed hd.not_opensWith
  | some gap' =>
    rw [hs] at ht
    exact .static ht h.gap (h.staticGap gap' hs) hd.nonempty hd.trimmed

theorem Of.read (h : r.Of line) : MemberLine.read line = .ok r.memberLine :=
  MemberLine.read_of_spells h.spells

theorem Of.cutDeclaration? (h : r.Of line) :
    Property.cutDeclaration? r.declaration = some (r.name, r.type) :=
  (Property.cutDeclaration?_eq_some_iff h.spells.declaration.1).2
    ⟨⟨h.name, h.colon⟩, h.type, r.typeGap, h.typeGap, rfl⟩

theorem Of.type_isInfix (h : r.Of line) : r.type <:+: line := by
  have htype : r.type <:+ line.trim := by
    rw [h.text, text_eq]
    exact ⟨r.visibility.symbol ++ r.gap ++ r.modifier ++ r.name ++ ':' :: r.typeGap, by
      simp [declaration]⟩
  exact htype.isInfix.trans (Text.trim_isInfix line)

theorem exists_of_cutDeclaration? {m : MemberLine} {name type : Text}
    (hm : MemberLine.read line = .ok m)
    (hcut : Property.cutDeclaration? m.declaration = some (name, type)) :
    ∃ r : PropertyReading, r.Of line ∧ r.property = ⟨name, type, m.visibility, m.isStatic⟩ := by
  have hspells := MemberLine.spells_of_read hm
  obtain ⟨⟨hname, hcolon⟩, htype, typeGap, htypeGap, hd⟩ :=
    (Property.cutDeclaration?_eq_some_iff hspells.declaration.1).1 hcut
  cases hspells with
  | bare => simp at hd
  | @plain v gap d h hgap =>
    obtain rfl : d = name ++ ':' :: (typeGap ++ type) := hd
    refine ⟨⟨v, gap, none, name, typeGap, type⟩, ⟨?_, hgap, by simp, hname, hcolon, htypeGap,
      htype⟩, rfl⟩
    rw [h, text_eq]
    rfl
  | @static v gap gap' d h hgap hgap' =>
    obtain rfl : d = name ++ ':' :: (typeGap ++ type) := hd
    refine ⟨⟨v, gap, some gap', name, typeGap, type⟩, ⟨?_, hgap, by simpa using hgap', hname,
      hcolon, htypeGap, htype⟩, rfl⟩
    rw [h, text_eq]
    rfl

theorem Of.memberLine_eq (h : r.Of line) (h' : r'.Of line) : r.memberLine = r'.memberLine :=
  Except.ok.inj (h.read.symm.trans h'.read)

/-- The blanks in front of `static` end at the word, so they can be told from those behind it. -/
theorem Of.gaps_eq (h : r.Of line) (h' : r'.Of line) :
    r.gap = r'.gap ∧ r.staticGap = r'.staticGap := by
  obtain ⟨hv, hs, hd⟩ := MemberLine.mk.inj (h.memberLine_eq h')
  have htext : r.gap ++ r.modifier = r'.gap ++ r'.modifier := by
    have ht := h.text.symm.trans h'.text
    rw [text_eq, text_eq, hv, hd, List.append_assoc, List.append_assoc] at ht
    have hgaps := List.append_cancel_left ht
    rw [← List.append_assoc, ← List.append_assoc] at hgaps
    exact List.append_cancel_right hgaps
  have hhead : ∀ r : PropertyReading, ∀ c ∈ r.modifier.head?, isBlank c = false := by
    intro r c hc
    rw [modifier] at hc
    cases hg : r.staticGap with
    | none => simp [hg] at hc
    | some g =>
      rw [hg] at hc
      obtain rfl := Option.some.inj hc
      rfl
  obtain ⟨hgap, hmodifier⟩ := h.gap.blank.append_inj h'.gap.blank (hhead r) (hhead r') htext
  refine ⟨hgap, ?_⟩
  rw [modifier, modifier] at hmodifier
  cases hg : r.staticGap <;> cases hg' : r'.staticGap <;> simp_all

theorem Of.unique (h : r.Of line) (h' : r'.Of line) : r = r' := by
  obtain ⟨hv, -, hd⟩ := MemberLine.mk.inj (h.memberLine_eq h')
  obtain ⟨hgap, hstatic⟩ := h.gaps_eq h'
  have hcut := h.cutDeclaration?
  rw [show r.declaration = r'.declaration from hd, h'.cutDeclaration?, Option.some.injEq,
    Prod.mk.injEq] at hcut
  obtain ⟨hname, htype⟩ := hcut
  have htypeGap : r.typeGap = r'.typeGap := by
    rw [declaration, declaration, hname, htype] at hd
    have hbehind := (List.cons.inj (List.append_cancel_left hd)).2
    exact List.append_cancel_right hbehind
  cases r
  cases r'
  simp_all

end PropertyReading

namespace Property

/-- Why a line is no property. The reasons count in this order. -/
inductive Refused (line : Text) : Fault → Prop
  | parenthesis (h : ¬ line.ParenFree) : Refused line (.malformedProperty line.trim)
  | symbol (h : line.ParenFree) (hs : ∀ v : Visibility, line.firstWord ≠ v.symbol) :
      Refused line (.unknownVisibility line.firstWord)
  | brackets {r : PropertyReading} (h : line.ParenFree) (hr : r.Of line)
      (hb : ¬ Balanced r.type) : Refused line (.unbalancedBrackets r.type)
  | shape {v : Visibility} (h : line.ParenFree) (hs : line.firstWord = v.symbol)
      (hr : ∀ r : PropertyReading, ¬ r.Of line) : Refused line (.malformedProperty line.trim)

variable {line : Text}

theorem read_of_reading (h : line.ParenFree) {r : PropertyReading} (hr : r.Of line) :
    read line = (checkBrackets r.type).map fun _ => r.property := by
  rw [read, if_neg (not_or.2 h)]
  simp only [hr.read, PropertyReading.memberLine, hr.cutDeclaration?]
  cases checkBrackets r.type <;> rfl

theorem read_of_unbalanced (h : line.ParenFree) {r : PropertyReading} (hr : r.Of line)
    (hb : ¬ Balanced r.type) : read line = .error (.unbalancedBrackets r.type) := by
  rw [read_of_reading h hr, checkBrackets_of_not_balanced hr.type.trimmed hb]
  rfl

theorem read_of_no_reading (h : line.ParenFree) {v : Visibility} (hs : line.firstWord = v.symbol)
    (hr : ∀ r : PropertyReading, ¬ r.Of line) :
    read line = .error (.malformedProperty line.trim) := by
  rw [read, if_neg (not_or.2 h)]
  split
  · rename_i e he
    exact absurd hs ((MemberLine.read_eq_error_iff.1 he).1 v)
  · rename_i member hmember
    split
    · rfl
    · rename_i name type hcut
      obtain ⟨r, hof, -⟩ := PropertyReading.exists_of_cutDeclaration? hmember hcut
      exact absurd hof (hr r)

theorem read_of_refused {f : Fault} (h : Refused line f) : read line = .error f := by
  cases h with
  | parenthesis h => rw [read, if_pos (by rwa [Text.ParenFree, ← not_or, not_not] at h)]
  | symbol h hs =>
    rw [read, if_neg (not_or.2 h), MemberLine.read_eq_error_iff.2 ⟨hs, rfl⟩]
  | brackets h hr hb => exact read_of_unbalanced h hr hb
  | shape h hs hr => exact read_of_no_reading h hs hr

theorem refused_or_reading (line : Text) :
    (∃ f, Refused line f) ∨
      line.ParenFree ∧ ∃ r : PropertyReading, r.Of line ∧ Balanced r.type := by
  by_cases h : line.ParenFree
  · by_cases hr : ∃ r : PropertyReading, r.Of line
    · obtain ⟨r, hr⟩ := hr
      by_cases hb : Balanced r.type
      · exact .inr ⟨h, r, hr, hb⟩
      · exact .inl ⟨_, .brackets h hr hb⟩
    · by_cases hs : ∃ v : Visibility, line.firstWord = v.symbol
      · obtain ⟨v, hv⟩ := hs
        exact .inl ⟨_, .shape h hv (not_exists.1 hr)⟩
      · exact .inl ⟨_, .symbol h (not_exists.1 hs)⟩
  · exact .inl ⟨_, .parenthesis h⟩

theorem read_of_balanced (h : line.ParenFree) {r : PropertyReading} (hr : r.Of line)
    (hb : Balanced r.type) : read line = .ok r.property := by
  rw [read_of_reading h hr, checkBrackets_eq_ok_iff.2 hb]
  rfl

theorem refused_of_read {f : Fault} (h : read line = .error f) : Refused line f := by
  rcases refused_or_reading line with ⟨g, hg⟩ | ⟨hp, r, hr, hb⟩
  · rw [read_of_refused hg] at h
    exact Except.error.inj h ▸ hg
  · rw [read_of_balanced hp hr hb] at h
    cases h

/-- A line is a property exactly if it holds no parenthesis and can be cut into the pieces of one
with a balanced type, in the only way there is. Any other line is refused for its first reason. -/
theorem read_iff_reading (line : Text) :
    (∀ p, read line = .ok p ↔ line.ParenFree ∧
      ∃ r : PropertyReading, r.Of line ∧ Balanced r.type ∧ r.property = p) ∧
    (∀ r r' : PropertyReading, r.Of line → r'.Of line → r = r') ∧
    ∀ f, read line = .error f ↔ Refused line f := by
  refine ⟨fun p => ⟨fun hp => ?_, ?_⟩, fun _ _ => PropertyReading.Of.unique,
    fun f => ⟨refused_of_read, read_of_refused⟩⟩
  · rcases refused_or_reading line with ⟨f, hf⟩ | ⟨h, r, hr, hb⟩
    · rw [read_of_refused hf] at hp
      cases hp
    · rw [read_of_balanced h hr hb] at hp
      exact ⟨h, r, hr, hb, Except.ok.inj hp⟩
  · rintro ⟨h, r, hr, hb, rfl⟩
    exact read_of_balanced h hr hb

def staticLine : Text :=
  "-\u3000static static:\t Map<K, V>".toList

def staticPieces : PropertyReading :=
  ⟨.priv, "\u3000".toList, some " ".toList, "static".toList, "\t ".toList, "Map<K, V>".toList⟩

/-- Only the first of the two words is the modifier. -/
theorem read_iff_reading_staticLine :
    staticPieces.Of staticLine ∧ (∀ r : PropertyReading, r.Of staticLine → r = staticPieces) ∧
    read staticLine = .ok ⟨"static".toList, "Map<K, V>".toList, .priv, true⟩ := by
  have hspace : Text.Gap " ".toList := ⟨by decide, .space⟩
  have hkey : Text.Trimmed "Map<K,".toList := .of_isName (by decide)
  have hvalue : Text.Trimmed "V>".toList := .of_isName (by decide)
  have htype : staticPieces.type.Trimmed := hkey.surround (by decide) [' '] hvalue (by decide)
  have hof : staticPieces.Of staticLine :=
    ⟨by decide +kernel, ⟨by decide, .singleton (by decide)⟩, by rintro g ⟨⟩; exact hspace, rfl,
      by decide, ⟨by decide, (Text.AllBlank.singleton (by decide)).append .space⟩,
      ⟨by decide, htype, by decide⟩⟩
  obtain ⟨hok, hunique, -⟩ := read_iff_reading staticLine
  have hparen : staticLine.ParenFree := ⟨by decide, by decide⟩
  have hbalanced : Balanced staticPieces.type := checkBrackets_eq_ok_iff.1 (by decide)
  exact ⟨hof, fun r hr => hunique r staticPieces hr hof,
    (hok _).2 ⟨hparen, staticPieces, hof, hbalanced, rfl⟩⟩

end Property

end ClassNotation
