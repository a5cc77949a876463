import ClassNotation.Proofs.Content
import ClassNotation.Proofs.Progress

/-! Reading many lines. A text is read if its contents lead from outside a block to outside a
block, and what it is refused for is the first line that does not go on, or its end. -/

namespace ClassNotation

/-- Lines that are read one after another, and the blocks that they complete. -/
inductive Progress.Reads : Progress → List Text → List ClassBlock → Progress → Prop
  | nil (s : Progress) : Reads s [] [] s
  | cons {s s' s'' : Progress} {line : Text} {lines : List Text} {block? : Option ClassBlock}
      {blocks : List ClassBlock} (h : s.next line = .ok (block?, s'))
      (hs : Reads s' lines blocks s'') : Reads s (line :: lines) (block?.toList ++ blocks) s''

namespace Progress.Reads

variable {s s' s'' : Progress} {xs ys : List Text} {bs cs : List ClassBlock}

theorem single {line : Text} {block? : Option ClassBlock} (h : s.next line = .ok (block?, s')) :
    Reads s [line] block?.toList s' := by
  simpa using Reads.cons h (.nil s')

theorem append (hx : Reads s xs bs s') (hy : Reads s' ys cs s'') :
    Reads s (xs ++ ys) (bs ++ cs) s'' := by
  induction hx with
  | nil => exact hy
  | cons h _ ih =>
    rw [List.append_assoc]
    exact .cons h (ih hy)

theorem exists_of_append (h : Reads s (xs ++ ys) bs s'') :
    ∃ s' as cs, Reads s xs as s' ∧ Reads s' ys cs s'' ∧ bs = as ++ cs := by
  induction xs generalizing s bs with
  | nil => exact ⟨s, [], bs, .nil s, h, rfl⟩
  | cons x xs ih =>
    cases h with
    | @cons _ t _ _ _ block? ds hx hs =>
      obtain ⟨s', as, cs, ha, hc, rfl⟩ := ih hs
      exact ⟨s', block?.toList ++ as, cs, .cons hx ha, hc, (List.append_assoc _ _ _).symm⟩

end Progress.Reads

/-- Either all lines are read, or one of them is the first that does not go on. -/
theorem Progress.reads_or_stuck (s : Progress) (ls : List ContentLine) :
    (∃ bs s', Reads s (ls.map (·.text)) bs s') ∨
    ∃ pre l post bs s' f, ls = pre ++ l :: post ∧ Reads s (pre.map (·.text)) bs s' ∧
      s'.next l.text = .error f := by
  induction ls generalizing s with
  | nil => exact .inl ⟨[], s, .nil s⟩
  | cons l ls ih =>
    cases hn : s.next l.text with
    | error f => exact .inr ⟨[], l, ls, [], s, f, rfl, .nil s, hn⟩
    | ok answer =>
      obtain ⟨block?, s₁⟩ := answer
      rcases ih s₁ with ⟨bs, s', hr⟩ | ⟨pre, x, post, bs, s', f, rfl, hr, hf⟩
      · exact .inl ⟨block?.toList ++ bs, s', .cons hn hr⟩
      · exact .inr ⟨l :: pre, x, post, block?.toList ++ bs, s', f, rfl, .cons hn hr, hf⟩

namespace Machine

theorem readLines_of_reads {s s' : Progress} {ls : List ContentLine} {bs : List ClassBlock}
    (h : Progress.Reads s (ls.map (·.text)) bs s') (n : Nat) :
    ∃ k, (s.machine n).readLines ls = .ok (bs, s'.machine k) := by
  induction ls generalizing s n bs with
  | nil =>
    cases h
    exact ⟨n, rfl⟩
  | cons l ls ih =>
    cases h with
    | cons hx hs =>
      have hl := readLine_of_next_eq_ok hx n
      obtain ⟨k, hk⟩ := ih hs l.number
      exact ⟨k, by simp only [readLines, hl, hk]⟩

theorem readLines_of_stuck {s s' : Progress} {pre post : List ContentLine} {l : ContentLine}
    {bs : List ClassBlock} {f : Fault} (h : Progress.Reads s (pre.map (·.text)) bs s')
    (hf : s'.next l.text = .error f) (n : Nat) :
    (s.machine n).readLines (pre ++ l :: post) = .error ⟨l.number, f⟩ := by
  induction pre generalizing s n bs with
  | nil =>
    cases h
    have hl := readLine_of_next_eq_error hf n
    simp only [List.nil_append, readLines, hl]
  | cons x pre ih =>
    cases h with
    | cons hx hs =>
      have hl := readLine_of_next_eq_ok hx n
      simp only [List.cons_append, readLines, hl, ih hs]

theorem reads_of_readLines {s : Progress} {n : Nat} {ls : List ContentLine} {bs : List ClassBlock}
    {m : Machine} (h : (s.machine n).readLines ls = .ok (bs, m)) :
    ∃ s' k, Progress.Reads s (ls.map (·.text)) bs s' ∧ m = s'.machine k := by
  rcases Progress.reads_or_stuck s ls with ⟨cs, s', hr⟩ | ⟨pre, l, post, cs, s', f, rfl, hr, hf⟩
  · obtain ⟨k, hk⟩ := readLines_of_reads hr n
    rw [h, Except.ok.injEq, Prod.mk.injEq] at hk
    obtain ⟨rfl, rfl⟩ := hk
    exact ⟨s', k, hr, rfl⟩
  · rw [readLines_of_stuck hr hf n] at h
    cases h

end Machine

theorem Progress.phase_eq_outside_iff {s : Progress} : s.phase = .outside ↔ s = .outside := by
  cases s <;> simp [Progress.phase]

theorem contentLines_eq_nil_iff {t : Text} : contentLines t = [] ↔ contents t = [] := by
  rw [← map_text_contentLines, List.map_eq_nil_iff]

theorem readBlocks_eq (t : Text) :
    readBlocks t =
      if contentLines t = [] then .error ⟨0, .emptyInput⟩
      else (Machine.start.readLines (contentLines t)).bind fun (blocks, m) =>
        (m.setLine t.lines.length).finish.map fun _ => blocks := by
  rw [readBlocks]
  cases contentLines t with
  | nil => rfl
  | cons l ls =>
    rw [if_neg (List.cons_ne_nil l ls)]
    dsimp only
    rcases Machine.start.readLines (l :: ls) with e | ⟨blocks, m⟩
    · rfl
    · show _ = (m.setLine t.lines.length).finish.map fun _ => blocks
      dsimp only
      cases (m.setLine t.lines.length).finish <;> rfl

section readBlocks

variable {t : Text} {blocks : List ClassBlock} {s : Progress}

theorem readBlocks_of_contents_eq_nil (h : contents t = []) :
    readBlocks t = .error ⟨0, .emptyInput⟩ := by
  rw [readBlocks_eq, if_pos (contentLines_eq_nil_iff.2 h)]

theorem readBlocks_of_reads (hn : contents t ≠ [])
    (h : Progress.Reads .outside (contents t) blocks s) :
    readBlocks t = if s.phase = .outside then .ok blocks
      else .error ⟨t.lines.length, .unexpectedEnd s.phase⟩ := by
  rw [← map_text_contentLines] at h
  obtain ⟨k, hk⟩ := Machine.readLines_of_reads h 0
  have hfinish : ((s.machine k).setLine t.lines.length).finish =
      if s.phase = .outside then .ok () else .error ⟨t.lines.length, .unexpectedEnd s.phase⟩ := rfl
  rw [readBlocks_eq, if_neg (contentLines_eq_nil_iff.not.2 hn)]
  show ((Progress.outside.machine 0).readLines (contentLines t)).bind _ = _
  rw [hk]
  show (((s.machine k).setLine t.lines.length).finish.map fun _ => blocks) = _
  rw [hfinish]
  split <;> rfl

theorem readBlocks_of_stuck {pre post : List ContentLine} {l : ContentLine} {f : Fault}
    (hl : contentLines t = pre ++ l :: post)
    (h : Progress.Reads .outside (pre.map (·.text)) blocks s) (hf : s.next l.text = .error f) :
    readBlocks t = .error ⟨l.number, f⟩ := by
  have hn : contentLines t ≠ [] := by simp [hl]
  rw [readBlocks_eq, if_neg hn, hl]
  show ((Progress.outside.machine 0).readLines (pre ++ l :: post)).bind _ = _
  rw [Machine.readLines_of_stuck h hf 0]
  rfl

theorem contents_ne_nil_of_reads (h : Progress.Reads .outside (contents t) blocks s)
    (hs : s ≠ .outside) : contents t ≠ [] := by
  intro hn
  rw [hn] at h
  cases h
  exact hs rfl

end readBlocks

theorem readBlocks_eq_ok_iff_reads {t : Text} {blocks : List ClassBlock} :
    readBlocks t = .ok blocks ↔
      contents t ≠ [] ∧ Progress.Reads .outside (contents t) blocks .outside := by
  constructor
  · intro h
    have hn : contents t ≠ [] := by
      intro hn
      simp [readBlocks_of_contents_eq_nil hn] at h
    rcases Progress.reads_or_stuck .outside (contentLines t) with
      ⟨bs, s, hr⟩ | ⟨pre, l, post, bs, s, f, hl, hr, hf⟩
    · rw [map_text_contentLines] at hr
      have he := readBlocks_of_reads hn hr
      by_cases hp : s.phase = .outside
      · have hb : bs = blocks := by simpa [hp, h, eq_comm] using he
        have hs := Progress.phase_eq_outside_iff.1 hp
        exact ⟨hn, hb ▸ hs ▸ hr⟩
      · simp [hp, h] at he
    · simp [readBlocks_of_stuck hl hr hf] at h
  · rintro ⟨hn, hr⟩
    rw [readBlocks_of_reads hn hr]
    rfl

/-- A text is refused because it has no content, at its first line that cannot be read, or at its
end inside a block. -/
theorem readBlocks_eq_error_iff {t : Text} {e : ParseError} :
    readBlocks t = .error e ↔
      (contents t = [] ∧ e = ⟨0, .emptyInput⟩) ∨
      (∃ pre l post bs s, contentLines t = pre ++ l :: post ∧
        Progress.Reads .outside (pre.map (·.text)) bs s ∧ s.next l.text = .error e.fault ∧
        e.line = l.number) ∨
      ∃ bs s, Progress.Reads .outside (contents t) bs s ∧ s ≠ .outside ∧
        e = ⟨t.lines.length, .unexpectedEnd s.phase⟩ := by
  constructor
  · intro h
    by_cases hn : contents t = []
    · rw [readBlocks_of_contents_eq_nil hn, Except.error.injEq] at h
      exact .inl ⟨hn, h.symm⟩
    rcases Progress.reads_or_stuck .outside (contentLines t) with
      ⟨bs, s, hr⟩ | ⟨pre, l, post, bs, s, f, hl, hr, hf⟩
    · rw [map_text_contentLines] at hr
      have he := readBlocks_of_reads hn hr
      by_cases hp : s.phase = .outside
      · simp [hp, h] at he
      · rw [h, if_neg hp, Except.error.injEq] at he
        have hs : s ≠ .outside := fun hs => hp (Progress.phase_eq_outside_iff.2 hs)
        exact .inr (.inr ⟨bs, s, hr, hs, he⟩)
    · rw [readBlocks_of_stuck hl hr hf, Except.error.injEq] at h
      subst h
      exact .inr (.inl ⟨pre, l, post, bs, s, hl, hr, hf, rfl⟩)
  · rintro (⟨hn, rfl⟩ | ⟨pre, l, post, bs, s, hl, hr, hf, hk⟩ | ⟨bs, s, hr, hs, rfl⟩)
    · exact readBlocks_of_contents_eq_nil hn
    · rw [readBlocks_of_stuck hl hr hf, ← hk]
    · have hp : s.phase ≠ .outside := fun hp => hs (Progress.phase_eq_outside_iff.1 hp)
      rw [readBlocks_of_reads (contents_ne_nil_of_reads hr hs) hr, if_neg hp]

end ClassNotation
