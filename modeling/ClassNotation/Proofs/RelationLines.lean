import ClassNotation.Proofs.Acceptance
import ClassNotation.Proofs.Line.Relation

/-! Texts that differ in the relation lines of a class. Where other relation lines stand in a
header, the text is read as before, and the blocks differ in what these lines say. -/

namespace ClassNotation

/-- A relation between what relation lines say that further lines do not disturb. -/
structure RelationLine.Stable (R : List RelationLine → List RelationLine → Prop) : Prop where
  refl : ∀ rs, R rs rs
  append : ∀ {rs rs'}, R rs rs' → ∀ r, R (rs ++ [r]) (rs' ++ [r])

namespace Progress

variable (R : List RelationLine → List RelationLine → Prop)

inductive SameBut : Progress → Progress → Prop
  | outside : SameBut .outside .outside
  | header {rs rs' : List RelationLine} (h : Header) (hr : R rs rs') :
      SameBut (.header h rs) (.header h rs')
  | properties {rs rs' : List RelationLine} (h : Header) (ps : List Property) (hr : R rs rs') :
      SameBut (.properties h rs ps) (.properties h rs' ps)
  | methods {rs rs' : List RelationLine} (h : Header) (ps : List Property) (ms : List Method)
      (hr : R rs rs') : SameBut (.methods h rs ps ms) (.methods h rs' ps ms)

end Progress

inductive ClassBlock.SameBut (R : List RelationLine → List RelationLine → Prop) :
    ClassBlock → ClassBlock → Prop
  | intro {rs rs' : List RelationLine} (h : Header) (ps : List Property) (ms : List Method)
      (hr : R rs rs') : SameBut R (.ofLines h rs ps ms) (.ofLines h rs' ps ms)

namespace Progress

variable {R : List RelationLine → List RelationLine → Prop} {s s' u u' : Progress} {line : Text}
  {lines : List Text} {bs cs : List ClassBlock}

theorem SameBut.declare (h : SameBut R s s') (hR : RelationLine.Stable R)
    (hd : s.declare line = .ok u) : ∃ u', s'.declare line = .ok u' ∧ SameBut R u u' := by
  cases h with
  | outside =>
    obtain ⟨h, -, rfl⟩ := except_map_eq_ok_iff.1 hd
    exact ⟨_, hd, .header h (hR.refl [])⟩
  | header h hr =>
    obtain ⟨r, hread, rfl⟩ := except_map_eq_ok_iff.1 hd
    exact ⟨_, except_map_eq_ok_iff.2 ⟨r, hread, rfl⟩, .header h (hR.append hr r)⟩
  | properties h ps hr =>
    obtain ⟨p, hread, rfl⟩ := except_map_eq_ok_iff.1 hd
    exact ⟨_, except_map_eq_ok_iff.2 ⟨p, hread, rfl⟩, .properties h (ps ++ [p]) hr⟩
  | methods h ps ms hr =>
    obtain ⟨m, hread, rfl⟩ := except_map_eq_ok_iff.1 hd
    exact ⟨_, except_map_eq_ok_iff.2 ⟨m, hread, rfl⟩, .methods h ps (ms ++ [m]) hr⟩

theorem SameBut.separate (h : SameBut R s s') {block? : Option ClassBlock}
    (hs : s.separate = .ok (block?, u)) :
    ∃ block?' u', s'.separate = .ok (block?', u') ∧ SameBut R u u' ∧
      List.Forall₂ (ClassBlock.SameBut R) block?.toList block?'.toList := by
  cases h with
  | outside => cases hs
  | header h hr =>
    obtain ⟨rfl, rfl⟩ := Prod.mk.inj (Except.ok.inj hs)
    exact ⟨none, _, rfl, .properties h [] hr, .nil⟩
  | properties h ps hr =>
    obtain ⟨rfl, rfl⟩ := Prod.mk.inj (Except.ok.inj hs)
    exact ⟨none, _, rfl, .methods h ps [] hr, .nil⟩
  | methods h ps ms hr =>
    obtain ⟨rfl, rfl⟩ := Prod.mk.inj (Except.ok.inj hs)
    exact ⟨some _, _, rfl, .outside, .cons (.intro h ps ms hr) .nil⟩

theorem SameBut.next (h : SameBut R s s') (hR : RelationLine.Stable R)
    {block? : Option ClassBlock} (hn : s.next line = .ok (block?, u)) :
    ∃ block?' u', s'.next line = .ok (block?', u') ∧ SameBut R u u' ∧
      List.Forall₂ (ClassBlock.SameBut R) block?.toList block?'.toList := by
  rw [Progress.next] at hn ⊢
  by_cases hl : isSeparator line = true
  · rw [if_pos hl] at hn ⊢
    exact h.separate hn
  · rw [if_neg hl] at hn ⊢
    obtain ⟨u, hd, he⟩ := except_map_eq_ok_iff.1 hn
    obtain ⟨rfl, rfl⟩ := Prod.mk.inj he
    obtain ⟨u', hd', hu⟩ := h.declare hR hd
    exact ⟨none, u', except_map_eq_ok_iff.2 ⟨u', hd', rfl⟩, hu, .nil⟩

/-- What differs before some lines are read is all that differs behind them. -/
theorem SameBut.reads (h : SameBut R s s') (hR : RelationLine.Stable R)
    (hr : Reads s lines bs u) :
    ∃ cs u', Reads s' lines cs u' ∧ SameBut R u u' ∧
      List.Forall₂ (ClassBlock.SameBut R) bs cs := by
  induction hr generalizing s' with
  | nil => exact ⟨[], s', .nil s', h, .nil⟩
  | cons hn _ ih =>
    obtain ⟨block?', u₁, hn', hu₁, hb⟩ := h.next hR hn
    obtain ⟨cs, u', hr, hu, hbs⟩ := ih hu₁
    exact ⟨block?'.toList ++ cs, u', .cons hn' hr, hu, List.rel_append hb hbs⟩

theorem Reads.unique (h : Reads s lines bs u) (h' : Reads s lines cs u') : bs = cs ∧ u = u' := by
  induction h generalizing cs with
  | nil =>
    cases h'
    exact ⟨rfl, rfl⟩
  | cons hn _ ih =>
    cases h' with
    | cons hn' hs' =>
      rw [hn, Except.ok.injEq, Prod.mk.injEq] at hn'
      obtain ⟨rfl, rfl⟩ := hn'
      obtain ⟨rfl, rfl⟩ := ih hs'
      exact ⟨rfl, rfl⟩

theorem reads_relations {h : Header} {rs more : List RelationLine} {xs : List Text}
    (hx : Declares RelationLine.read xs more) :
    Reads (.header h rs) xs [] (.header h (rs ++ more)) := by
  have hc : ∀ line as, (header h as).declare line =
      (RelationLine.read line).map fun r => header h (as ++ [r]) := fun _ _ => rfl
  exact reads_of_declares hc hx rs

end Progress

/-- Relation lines of a class are exchanged for others. -/
theorem readBlocks_exchange {R : List RelationLine → List RelationLine → Prop}
    (hR : RelationLine.Stable R) {t u : Text} {pre xs ys post : List Text} {h : Header}
    {rs more more' : List RelationLine} {bs blocks : List ClassBlock}
    (hpre : Progress.Reads .outside pre bs (.header h rs))
    (hx : Declares RelationLine.read xs more) (hy : Declares RelationLine.read ys more')
    (hxy : R (rs ++ more) (rs ++ more')) (ht : contents t = pre ++ xs ++ post)
    (hu : contents u = pre ++ ys ++ post) (hread : readBlocks t = .ok blocks) :
    ∃ cs cs', blocks = bs ++ cs ∧ readBlocks u = .ok (bs ++ cs') ∧
      List.Forall₂ (ClassBlock.SameBut R) cs cs' := by
  obtain ⟨-, hr⟩ := readBlocks_eq_ok_iff_reads.1 hread
  rw [ht] at hr
  obtain ⟨s, as, cs, hfront, hpost, rfl⟩ := hr.exists_of_append
  have hfront' := hpre.append (Progress.reads_relations hx)
  rw [List.append_nil] at hfront'
  obtain ⟨rfl, rfl⟩ := hfront.unique hfront'
  obtain ⟨cs', s', hpost', hs', hcs⟩ := (Progress.SameBut.header h hxy).reads hR hpost
  cases hs'
  have hall := (hpre.append (Progress.reads_relations hy)).append hpost'
  rw [List.append_nil, ← hu] at hall
  have hn : contents u ≠ [] := by
    intro hn
    rw [hu, List.append_eq_nil_iff, List.append_eq_nil_iff] at hn
    rw [hn.1.1] at hpre
    cases hpre
  exact ⟨cs, cs', rfl, readBlocks_eq_ok_iff_reads.2 ⟨hn, hall⟩, hcs⟩

def EndsInHeader (lines : List Text) : Prop :=
  ∃ blocks m, Machine.start.readLines (contentFrom 1 lines) = .ok (blocks, m) ∧ m.phase = .header

theorem EndsInHeader.reads {lines : List Text} (h : EndsInHeader lines) :
    ∃ bs head rs, Progress.Reads .outside ((lines.map stripComment).filter (· ≠ [])) bs
      (.header head rs) := by
  obtain ⟨bs, m, hread, hm⟩ := h
  obtain ⟨s, k, hr, rfl⟩ := Machine.reads_of_readLines (s := .outside) (n := 0) hread
  rw [map_text_contentFrom] at hr
  cases s with
  | header head rs => exact ⟨bs, head, rs, hr⟩
  | outside => cases hm
  | properties => cases hm
  | methods => cases hm

/-- What lines say that are all relation lines or without content. -/
def StatedLines (lines : List Text) (rs : List RelationLine) : Prop :=
  Declares RelationLine.read ((lines.map stripComment).filter (· ≠ [])) rs

namespace StatedLines

variable {xs ys : List Text} {rs rs' : List RelationLine}

theorem append (hx : StatedLines xs rs) (hy : StatedLines ys rs') :
    StatedLines (xs ++ ys) (rs ++ rs') := by
  rw [StatedLines, List.map_append, List.filter_append]
  exact Declares.append hx hy

theorem blank (h : ∀ line ∈ xs, stripComment line = []) : StatedLines xs [] := by
  have hnone : (xs.map stripComment).filter (· ≠ []) = [] := by
    rw [List.filter_eq_nil_iff]
    simpa using h
  rw [StatedLines, hnone]
  exact .nil

theorem single {line : Text} {r : RelationLine}
    (h : RelationLine.read (stripComment line) = .ok r) : StatedLines [line] [r] := by
  have hsep := RelationLine.isSeparator_of_read (trimmed_stripComment line) h
  have hn := RelationLine.ne_nil_of_read (trimmed_stripComment line) h
  have hline : ([line].map stripComment).filter (· ≠ []) = [stripComment line] := by simp [hn]
  rw [StatedLines, hline]
  exact Declares.single hsep h

end StatedLines

theorem readBlocks_exchange_lines {R : List RelationLine → List RelationLine → Prop}
    (hR : RelationLine.Stable R) {t u : Text} {pre xs ys post : List Text}
    {more more' : List RelationLine} {blocks : List ClassBlock} (hpre : EndsInHeader pre)
    (hx : StatedLines xs more) (hy : StatedLines ys more')
    (hxy : ∀ rs, R (rs ++ more) (rs ++ more')) (ht : t.lines = pre ++ xs ++ post)
    (hu : u.lines = pre ++ ys ++ post) (hread : readBlocks t = .ok blocks) :
    ∃ bs cs cs', blocks = bs ++ cs ∧ readBlocks u = .ok (bs ++ cs') ∧
      List.Forall₂ (ClassBlock.SameBut R) cs cs' := by
  have ht' := contents_eq_of_lines_eq ht
  have hu' := contents_eq_of_lines_eq hu
  simp only [List.map_append, List.filter_append] at ht' hu'
  obtain ⟨bs, head, rs, hreads⟩ := hpre.reads
  obtain ⟨cs, cs', hblocks, hread', hcs⟩ :=
    readBlocks_exchange hR hreads hx hy (hxy rs) ht' hu' hread
  exact ⟨bs, cs, cs', hblocks, hread', hcs⟩

end ClassNotation
