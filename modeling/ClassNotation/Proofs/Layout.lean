import ClassNotation.Proofs.FirstFault

/-! Layout. What a text says, or what is wrong with it, depends on the contents of its lines and
not on how they are laid out; only the numbers of the lines do. -/

namespace ClassNotation

/-- The line with this number carries the content with this index. -/
def SourceLine (t : Text) (index number : Nat) : Prop :=
  ∃ before line after, t.lines = before ++ line :: after ∧ stripComment line ≠ [] ∧
    before.countP (fun l => stripComment l ≠ []) = index ∧ number = before.length + 1

/-- Two readings that come to the same. A fault stands in each text at the line of the same
content, or at the last line of each. -/
inductive Agree (t u : Text) :
    Except ParseError (List ClassBlock) → Except ParseError (List ClassBlock) → Prop
  | read (blocks : List ClassBlock) : Agree t u (.ok blocks) (.ok blocks)
  | empty : Agree t u (.error ⟨0, .emptyInput⟩) (.error ⟨0, .emptyInput⟩)
  | line {f : Fault} {i j k : Nat} (hempty : f ≠ .emptyInput) (hend : ∀ p, f ≠ .unexpectedEnd p)
      (ht : SourceLine t i j) (hu : SourceLine u i k) : Agree t u (.error ⟨j, f⟩) (.error ⟨k, f⟩)
  | ending (p : Phase) :
      Agree t u (.error ⟨t.lines.length, .unexpectedEnd p⟩)
        (.error ⟨u.lines.length, .unexpectedEnd p⟩)

/-- The model that a text is read to, or the fault that it is refused for, without its line. -/
def Diagram.meaning (t : Text) : Except Fault Diagram :=
  (Diagram.parse t).mapError (·.fault)

/-- A line with blanks around it, or with a comment behind it. A comment that follows directly
must not make one with a slash at the end of the line. -/
inductive RelaidLine (l : Text) : Text → Prop
  | blanks {a b : Text} (ha : a.AllBlank) (hb : b.AllBlank) : RelaidLine l (a ++ l ++ b)
  | comment {a b : Text} (ha : a.AllBlank) (hb : b.AllBlank)
      (hs : b = [] → l.getLast? ≠ some '/') (c : Text) :
      RelaidLine l (a ++ l ++ b ++ (commentMark ++ c))

/-- Every line may be laid out anew, and lines may be added that are an empty line laid out
anew. -/
inductive Relaid : List Text → List Text → Prop
  | nil : Relaid [] []
  | line {l l' : Text} {ls ls' : List Text} (h : RelaidLine l l') (hs : Relaid ls ls') :
      Relaid (l :: ls) (l' :: ls')
  | added {l' : Text} {ls ls' : List Text} (h : RelaidLine [] l') (hs : Relaid ls ls') :
      Relaid ls (l' :: ls')

def withReturns (t : Text) : Text :=
  t.flatMap fun c => if c = '\n' then ['\r', '\n'] else [c]

theorem RelaidLine.refl (l : Text) : RelaidLine l l := by
  simpa using RelaidLine.blanks (l := l) .nil .nil

theorem RelaidLine.stripComment_eq {l l' : Text} (h : RelaidLine l l') :
    stripComment l' = stripComment l := by
  cases h with
  | blanks ha hb => rw [stripComment_append_blank _ hb, stripComment_blank_append ha]
  | @comment a b ha hb hs c =>
    have hlast : (a ++ l ++ b).getLast? ≠ some '/' := by
      rw [List.getLast?_append, List.getLast?_append]
      intro h
      rcases Option.or_eq_some_iff.1 h with h | ⟨hn, h⟩
      · exact hb.getLast?_ne_slash h
      rcases Option.or_eq_some_iff.1 h with h | ⟨-, h⟩
      · exact hs (List.getLast?_eq_none_iff.1 hn) h
      · exact ha.getLast?_ne_slash h
    rw [stripComment_append_comment hlast, stripComment_append_blank _ hb,
      stripComment_blank_append ha]

theorem Relaid.refl (ls : List Text) : Relaid ls ls := by
  induction ls with
  | nil => exact .nil
  | cons l ls ih => exact .line (.refl l) ih

theorem Relaid.contents_eq {t u : Text} (h : Relaid t.lines u.lines) : contents u = contents t := by
  rw [contents, contents]
  generalize t.lines = ls at h
  generalize u.lines = ls' at h
  induction h with
  | nil => rfl
  | line h _ ih => simp only [List.map_cons, List.filter_cons, h.stripComment_eq, ih]
  | added h _ ih =>
    have he : stripComment _ = [] := h.stripComment_eq
    rw [List.map_cons, he]
    exact ih

theorem relaidLine_withoutReturn (l : Text) : RelaidLine (Text.lines.withoutReturn l) l := by
  obtain ⟨b, hb, hl⟩ := Text.exists_withoutReturn_append l
  have h := RelaidLine.blanks (l := Text.lines.withoutReturn l) .nil hb
  rwa [List.nil_append, ← hl] at h

theorem withReturns_of_not_mem {t : Text} (h : '\n' ∉ t) : withReturns t = t := by
  have hf : ∀ c ∈ t, (if c = '\n' then ['\r', '\n'] else [c]) = [c] := by
    intro c hc
    exact if_neg (ne_of_mem_of_not_mem hc h)
  rw [withReturns, List.flatMap_congr hf]
  simp

theorem withReturns_append_feed {l : Text} (hl : '\n' ∉ l) (t : Text) :
    withReturns (l ++ '\n' :: t) = (l ++ ['\r']) ++ '\n' :: withReturns t := by
  rw [withReturns, List.flatMap_append, ← withReturns, withReturns_of_not_mem hl]
  simp [withReturns]

theorem relaid_withReturns (t : Text) : Relaid t.lines (withReturns t).lines := by
  induction hn : t.length using Nat.strong_induction_on generalizing t with
  | _ n ih =>
    by_cases hm : '\n' ∈ t
    · obtain ⟨l, rest, rfl, hl⟩ := List.eq_append_cons_of_mem hm
      have hl' : '\n' ∉ l ++ ['\r'] := by simpa using hl
      have hlt : rest.length < n := by simp at hn; omega
      rw [withReturns_append_feed hl, Text.lines_append_line hl, Text.lines_append_line hl',
        Text.withoutReturn_append_return]
      exact .line (relaidLine_withoutReturn l) (ih _ hlt rest rfl)
    · rw [withReturns_of_not_mem hm]
      exact .refl t.lines

theorem sourceLine_of_contentLines {t : Text} {pre post : List ContentLine} {l : ContentLine}
    (h : contentLines t = pre ++ l :: post) : SourceLine t pre.length l.number := by
  obtain ⟨before, line, after, hlines, rfl, hn, rfl⟩ := contentFrom_eq_append_cons h
  exact ⟨before, line, after, hlines, hn, (length_contentFrom 1 before).symm, Nat.add_comm 1 _⟩

theorem exists_contentLine_of_contents_eq {t u : Text} {pre post : List ContentLine}
    {l : ContentLine} (h : contents u = contents t) (hl : contentLines t = pre ++ l :: post) :
    ∃ pre' l' post', contentLines u = pre' ++ l' :: post' ∧
      pre'.map (·.text) = pre.map (·.text) ∧ l'.text = l.text := by
  have he : (contentLines u).map (·.text) = pre.map (·.text) ++ l.text :: post.map (·.text) := by
    rw [map_text_contentLines, h, ← map_text_contentLines, hl, List.map_append, List.map_cons]
  obtain ⟨pre', rest, hu, hpre, hrest⟩ := List.map_eq_append_iff.1 he
  obtain ⟨l', post', rfl, htext, -⟩ := List.map_eq_cons_iff.1 hrest
  exact ⟨pre', l', post', hu, hpre, htext⟩

theorem agree_of_contents_eq {t u : Text} (h : contents u = contents t) :
    Agree t u (readBlocks t) (readBlocks u) := by
  by_cases hn : contents t = []
  · rw [readBlocks_of_contents_eq_nil hn, readBlocks_of_contents_eq_nil (h.trans hn)]
    exact .empty
  have hn' : contents u ≠ [] := h ▸ hn
  rcases Progress.reads_or_stuck .outside (contentLines t) with
    ⟨bs, s, hr⟩ | ⟨pre, l, post, bs, s, f, hl, hr, hf⟩
  · rw [map_text_contentLines] at hr
    rw [readBlocks_of_reads hn hr, readBlocks_of_reads hn' (h ▸ hr)]
    by_cases hs : s.phase = .outside
    · rw [if_pos hs, if_pos hs]
      exact .read bs
    · rw [if_neg hs, if_neg hs]
      exact .ending s.phase
  · obtain ⟨pre', l', post', hl', hpre, htext⟩ := exists_contentLine_of_contents_eq h hl
    have hlength : pre'.length = pre.length := by simpa using congrArg List.length hpre
    obtain ⟨hempty, hend⟩ := Progress.fault_of_next_ne hf
    rw [readBlocks_of_stuck hl hr hf, readBlocks_of_stuck hl' (hpre ▸ hr) (htext ▸ hf)]
    exact .line hempty hend (sourceLine_of_contentLines hl)
      (hlength ▸ sourceLine_of_contentLines hl')

theorem Diagram.meaning_eq_of_agree {t u : Text} (h : Agree t u (readBlocks t) (readBlocks u)) :
    Diagram.meaning u = Diagram.meaning t := by
  rw [meaning, meaning, parse, parse, extend, extend]
  generalize readBlocks t = x at h
  generalize readBlocks u = y at h
  cases h <;> rfl

/-- Texts with equal contents are read alike, and how a text is laid out says nothing. -/
theorem readBlocks_layout (t : Text) :
    (∀ u, contents u = contents t → Agree t u (readBlocks t) (readBlocks u)) ∧
    (∀ u : Text, Relaid t.lines u.lines →
      contents u = contents t ∧ Diagram.meaning u = Diagram.meaning t) ∧
    contents (withReturns t) = contents t ∧
      Diagram.meaning (withReturns t) = Diagram.meaning t := by
  have hrelaid : ∀ u : Text, Relaid t.lines u.lines →
      contents u = contents t ∧ Diagram.meaning u = Diagram.meaning t := fun u h =>
    ⟨h.contents_eq, Diagram.meaning_eq_of_agree (agree_of_contents_eq h.contents_eq)⟩
  exact ⟨fun u => agree_of_contents_eq, hrelaid, hrelaid _ (relaid_withReturns t)⟩

def bareText : Text :=
  "A\n---\nx".toList

def laidOutText : Text :=
  " A\t// a\r\n\r\n---\r\n//\nx \n".toList

theorem readBlocks_layout_laidOutText :
    Relaid bareText.lines laidOutText.lines ∧ contents laidOutText = contents bareText ∧
    Agree bareText laidOutText (.error ⟨3, .unknownVisibility "x".toList⟩)
      (.error ⟨5, .unknownVisibility "x".toList⟩) ∧
    Diagram.meaning laidOutText = Diagram.meaning bareText := by
  have ht : readBlocks bareText = .error ⟨3, .unknownVisibility "x".toList⟩ := by decide +kernel
  have hu : readBlocks laidOutText = .error ⟨5, .unknownVisibility "x".toList⟩ := by
    decide +kernel
  have hrelaid : Relaid bareText.lines laidOutText.lines :=
    .line (.comment (a := [' ']) .space (.singleton rfl) (by simp) " a".toList) <|
    .added (.refl []) <|
    .line (.refl _) <|
    .added (.comment (a := []) .nil .nil (by simp) []) <|
    .line (.blanks (a := []) .nil .space) .nil
  obtain ⟨hagree, hsame, -⟩ := readBlocks_layout bareText
  obtain ⟨hcontents, hmeaning⟩ := hsame laidOutText hrelaid
  exact ⟨hrelaid, hcontents, ht ▸ hu ▸ hagree laidOutText hcontents, hmeaning⟩

end ClassNotation
