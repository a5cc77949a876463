import ClassNotation.Proofs.LineFaults
import ClassNotation.Proofs.Run

/-! The line of a fault. Up to the line before it the text can still be completed, and from that
line on nothing that follows can mend it. -/

namespace ClassNotation

/-- How many separators an open block still asks for. -/
def Phase.separatorsLeft : Phase → Nat
  | .outside => 0
  | .header => 3
  | .properties => 2
  | .methods => 1

def separators (n : Nat) : List Text :=
  List.replicate n separatorMark

theorem isContent_of_mem_separators {n : Nat} {l : Text} (h : l ∈ separators n) : l.IsContent := by
  rw [List.eq_of_mem_replicate h]
  exact isContent_separatorMark

namespace Progress

/-- Lines that complete the open block and are not empty even where none is open. -/
def completion (s : Progress) : List Text :=
  separators s.phase.separatorsLeft ++ "A".toList :: separators 3

theorem isContent_of_mem_completion {s : Progress} {l : Text} (h : l ∈ s.completion) :
    l.IsContent := by
  rcases List.mem_append.1 h with h | h
  · exact isContent_of_mem_separators h
  rcases List.mem_cons.1 h with rfl | h
  · exact ⟨.of_not_mem (by decide) (by decide), .of_isName rfl, by decide⟩
  · exact isContent_of_mem_separators h

theorem reads_separators (s : Progress) :
    ∃ bs, Reads s (separators s.phase.separatorsLeft) bs .outside := by
  cases s with
  | outside => exact ⟨[], .nil _⟩
  | methods h rs ps ms => exact ⟨_, .single rfl⟩
  | properties h rs ps => exact ⟨_, .cons rfl (.single rfl)⟩
  | header h rs => exact ⟨_, .cons rfl (.cons rfl (.single rfl))⟩

theorem reads_completion (s : Progress) : ∃ bs, Reads s s.completion bs .outside := by
  obtain ⟨bs, h⟩ := s.reads_separators
  obtain ⟨cs, hc⟩ := reads_separators (.header ⟨"A".toList, none⟩ [])
  have hn : Progress.outside.next "A".toList = .ok (none, .header ⟨"A".toList, none⟩ []) := rfl
  exact ⟨_, h.append (.cons hn hc)⟩

end Progress

def Completable (ls : List Text) : Prop :=
  ∃ (u : Text) (blocks : List ClassBlock), ls <+: u.lines ∧ readBlocks u = .ok blocks

theorem completable_of_reads {ls : List Text} (hl : ∀ l ∈ ls, '\n' ∉ l) {s : Progress}
    {bs : List ClassBlock}
    (h : Progress.Reads .outside ((ls.map stripComment).filter (· ≠ [])) bs s) :
    Completable ls := by
  obtain ⟨cs, hc⟩ := s.reads_completion
  have hfeed : ∀ l ∈ ls ++ s.completion, '\n' ∉ l := by
    intro l hm
    rcases List.mem_append.1 hm with hm | hm
    · exact hl l hm
    · exact (Progress.isContent_of_mem_completion hm).plain.feed
  have hlines := Text.lines_ofLines hfeed
  have hcontents := contents_eq_of_lines_eq hlines
  rw [filter_stripComment fun l => Progress.isContent_of_mem_completion] at hcontents
  refine ⟨Text.ofLines (ls ++ s.completion), bs ++ cs, ?_, ?_⟩
  · rw [hlines]
    exact List.prefix_append ls s.completion
  · rw [readBlocks_eq_ok_iff_reads, hcontents]
    exact ⟨by simp [Progress.completion], h.append hc⟩

theorem contentLines_of_isPrefix {u : Text} {ls : List Text} (h : ls <+: u.lines) :
    ∃ post, contentLines u = contentFrom 1 ls ++ post := by
  obtain ⟨rest, hr⟩ := h
  exact ⟨contentFrom (1 + ls.length) rest, by rw [contentLines, ← hr, contentFrom_append]⟩

theorem contentFrom_take_isPrefix {n j : Nat} {ls : List Text} {pre post : List ContentLine}
    {l : ContentLine} (h : contentFrom n ls = pre ++ l :: post) (hj : n + j ≤ l.number) :
    contentFrom n (ls.take j) <+: pre := by
  have hp : contentFrom n (ls.take j) <+: pre ++ [l] := by
    rw [← contentFrom_take h]
    have hle : j ≤ l.number + 1 - n := by omega
    obtain ⟨rest, hr⟩ := List.take_prefix_take_left (l := ls) hle
    rw [← hr, contentFrom_append]
    exact List.prefix_append _ _
  rcases List.prefix_concat_iff.1 hp with he | hp
  · have hm : l ∈ contentFrom n (ls.take j) := by simp [he]
    have hb := number_of_mem_contentFrom hm
    have ht := List.length_take_le j ls
    omega
  · exact hp

theorem readBlocks_of_appended_separators {t : Text} {s : Progress} {bs : List ClassBlock}
    (hr : Progress.Reads .outside (contents t) bs s) (hs : s ≠ .outside) {u : Text}
    (hu : contents u = contents t ++ separators s.phase.separatorsLeft) :
    ∃ blocks, readBlocks u = .ok blocks := by
  obtain ⟨cs, hc⟩ := s.reads_separators
  refine ⟨bs ++ cs, readBlocks_eq_ok_iff_reads.2 ⟨?_, hu ▸ hr.append hc⟩⟩
  rw [hu]
  exact List.append_ne_nil_of_left_ne_nil (contents_ne_nil_of_reads hr hs) _

theorem contents_append_separators (t : Text) (n : Nat) :
    contents (t ++ (separators n).flatMap ('\n' :: ·)) = contents t ++ separators n := by
  induction n with
  | zero => simp [separators]
  | succ n ih =>
    have hsep : contents separatorMark = [separatorMark] := by decide
    have he : separators (n + 1) = separators n ++ [separatorMark] := List.replicate_succ'
    rw [he, List.flatMap_append, ← List.append_assoc]
    simp only [List.flatMap_singleton]
    rw [contents_append_feed, ih, hsep, List.append_assoc]

section stuck

variable {t : Text} {pre post : List ContentLine} {l : ContentLine} {bs : List ClassBlock}
  {s : Progress} {f : Fault}

theorem readBlocks_of_take_isPrefix (hl : contentLines t = pre ++ l :: post)
    (hr : Progress.Reads .outside (pre.map (·.text)) bs s) (hf : s.next l.text = .error f)
    {u : Text} (hu : t.lines.take l.number <+: u.lines) : readBlocks u = .error ⟨l.number, f⟩ := by
  obtain ⟨post', hu⟩ := contentLines_of_isPrefix hu
  have ht := contentFrom_take hl
  rw [Nat.add_sub_cancel] at ht
  rw [ht, List.append_assoc] at hu
  exact readBlocks_eq_error_iff.2 (.inr (.inl ⟨pre, l, post', bs, s, hu, hr, hf, rfl⟩))

theorem completable_take (hl : contentLines t = pre ++ l :: post)
    (hr : Progress.Reads .outside (pre.map (·.text)) bs s) {j : Nat} (hj : j < l.number) :
    Completable (t.lines.take j) := by
  obtain ⟨rest, hp⟩ := contentFrom_take_isPrefix hl (by omega : 1 + j ≤ l.number)
  rw [← hp, List.map_append, map_text_contentFrom] at hr
  obtain ⟨s', as, cs, hr, -, -⟩ := hr.exists_of_append
  exact completable_of_reads
    (fun x hx => Text.feed_not_mem_of_mem_lines (List.mem_of_mem_take hx)) hr

theorem number_le_length (hl : contentLines t = pre ++ l :: post) :
    1 ≤ l.number ∧ l.number ≤ t.lines.length := by
  have hm : l ∈ contentLines t := hl ▸ List.mem_append_right pre List.mem_cons_self
  have hn := number_of_mem_contentFrom hm
  omega

end stuck

theorem contents_eq_nil_iff {t : Text} : contents t = [] ↔ ∀ l ∈ t.lines, stripComment l = [] := by
  simp [contents]

theorem readBlocks_fault_eq_emptyInput_iff {t : Text} {e : ParseError}
    (h : readBlocks t = .error e) :
    (e = ⟨0, .emptyInput⟩ ↔ contents t = []) ∧ (e.fault = .emptyInput ↔ contents t = []) := by
  rcases readBlocks_eq_error_iff.1 h with
    ⟨hn, rfl⟩ | ⟨pre, l, post, bs, s, hl, -, hf, -⟩ | ⟨bs, s, hr, hs, rfl⟩
  · simp [hn]
  · have hne := (Progress.fault_of_next_ne hf).1
    have hn : contents t ≠ [] := by simp [← map_text_contentLines, hl]
    have he : e ≠ ⟨0, .emptyInput⟩ := fun he => hne (congrArg ParseError.fault he)
    simp [hn, hne, he]
  · simp [contents_ne_nil_of_reads hr hs]

/-- A fault of a line is found at the earliest line behind which the text is beyond repair. A
fault of the end is mended by separators. -/
theorem readBlocks_fault_earliest {t : Text} {e : ParseError} (h : readBlocks t = .error e) :
    (e.fault ≠ .emptyInput → (∀ p, e.fault ≠ .unexpectedEnd p) →
      (1 ≤ e.line ∧ e.line ≤ t.lines.length) ∧
      (∀ u : Text, t.lines.take e.line <+: u.lines → readBlocks u = .error e) ∧
      ∀ j < e.line, Completable (t.lines.take j)) ∧
    (∀ p, e.fault = .unexpectedEnd p →
      p ≠ .outside ∧ e.line = t.lines.length ∧
      (∀ u : Text, u.lines = t.lines ++ separators p.separatorsLeft →
        ∃ blocks, readBlocks u = .ok blocks) ∧
      ∃ blocks, readBlocks (t ++ (separators p.separatorsLeft).flatMap ('\n' :: ·)) =
        .ok blocks) ∧
    (e = ⟨0, .emptyInput⟩ ↔ ∀ l ∈ t.lines, stripComment l = []) ∧
    (e.fault = .emptyInput ↔ ∀ l ∈ t.lines, stripComment l = []) := by
  rw [← contents_eq_nil_iff]
  refine ⟨?_, ?_, readBlocks_fault_eq_emptyInput_iff h⟩
  · intro hempty hend
    rcases readBlocks_eq_error_iff.1 h with
      ⟨-, rfl⟩ | ⟨pre, l, post, bs, s, hl, hr, hf, hk⟩ | ⟨bs, s, -, -, rfl⟩
    · exact absurd rfl hempty
    · have he : e = ⟨l.number, e.fault⟩ := by rw [← hk]
      rw [hk]
      exact ⟨number_le_length hl, fun u hu => he ▸ readBlocks_of_take_isPrefix hl hr hf hu,
        fun j hj => completable_take hl hr hj⟩
    · exact absurd rfl (hend s.phase)
  · intro p hp
    rcases readBlocks_eq_error_iff.1 h with
      ⟨-, rfl⟩ | ⟨pre, l, post, bs, s, -, -, hf, -⟩ | ⟨bs, s, hr, hs, rfl⟩
    · cases hp
    · exact absurd hp ((Progress.fault_of_next_ne hf).2 p)
    · obtain rfl := Fault.unexpectedEnd.inj hp
      refine ⟨fun ho => hs (Progress.phase_eq_outside_iff.1 ho), rfl, fun u hu => ?_, ?_⟩
      · refine readBlocks_of_appended_separators hr hs ?_
        rw [contents_eq_of_lines_eq hu, filter_stripComment fun l => isContent_of_mem_separators,
          contents]
      · exact readBlocks_of_appended_separators hr hs (contents_append_separators t _)

theorem readBlocks_fault_earliest_member :
    readBlocks "A\n---\nx\n---".toList = .error ⟨3, .unknownVisibility "x".toList⟩ ∧
    (∀ u : Text, ["A".toList, "---".toList, "x".toList] <+: u.lines →
      readBlocks u = .error ⟨3, .unknownVisibility "x".toList⟩) ∧
    Completable ["A".toList, "---".toList] := by
  have h : readBlocks "A\n---\nx\n---".toList = .error ⟨3, .unknownVisibility "x".toList⟩ := by
    decide +kernel
  obtain ⟨hline, -⟩ := readBlocks_fault_earliest h
  obtain ⟨-, hu, hj⟩ := hline (by simp) (by simp)
  exact ⟨h, hu, hj 2 (by decide)⟩

end ClassNotation
