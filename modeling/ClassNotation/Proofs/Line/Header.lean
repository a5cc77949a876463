import ClassNotation.Proofs.Content

/-! Header lines and how they are written. A separator is told by the first word of its line, so
a header whose line is none keeps that when it is written with a single space. -/

namespace ClassNotation

theorem isSeparator_eq_true_iff {line : Text} : isSeparator line = true ↔ separatorMark <+: line :=
  List.isPrefixOf_iff_prefix

theorem isSeparator_append {w rest : Text} (h : ∀ c ∈ rest.head?, isBlank c = true) :
    isSeparator (w ++ rest) = isSeparator w := by
  rw [Bool.eq_iff_iff, isSeparator_eq_true_iff, isSeparator_eq_true_iff]
  constructor
  · intro hm
    rcases List.prefix_or_prefix_of_prefix hm (List.prefix_append w rest) with hw | ⟨s, hs⟩
    · exact hw
    · cases s with
      | nil => exact ⟨[], by rw [← hs, List.append_nil, List.append_nil]⟩
      | cons c s =>
        rw [← hs, List.prefix_append_right_inj] at hm
        obtain ⟨u, rfl⟩ := hm
        have hc : isBlank c = true := h c (by simp)
        have hmark : ∀ x ∈ separatorMark, isBlank x = false := (Text.isName_iff.1 rfl).2
        simp [hmark c (by simp [← hs])] at hc
  · exact fun hw => hw.trans (List.prefix_append w rest)

namespace Header

def written (h : Header) : Text :=
  match h.qualifier with
  | none => h.name
  | some q => h.name ++ ' ' :: q.token

theorem read_written {h : Header} (hn : h.name.isName = true) : read h.written = .ok h := by
  obtain ⟨name, _ | q⟩ := h
  · simp only [read, written, Text.words_of_isName hn]
  · have hq : q.token.isName = true := by cases q <;> rfl
    have hw : Text.words (name ++ ' ' :: q.token) = [name, q.token] := by
      rw [Text.words_append_cons _ _ (by decide), Text.words_of_isName hn, Text.words_of_isName hq]
      rfl
    simp only [read, written, hw, Qualifier.ofToken?_token]

theorem name_of_read {line : Text} {h : Header} (hr : read line = .ok h) :
    ∃ ws, line.words = h.name :: ws := by
  rw [read] at hr
  split at hr
  · rename_i name hw
    cases hr
    exact ⟨[], hw⟩
  · rename_i name token hw
    split at hr
    · cases hr
      exact ⟨[token], hw⟩
    · cases hr
  · cases hr

theorem isName_of_read {line : Text} {h : Header} (hr : read line = .ok h) :
    h.name <:+: line ∧ h.name.isName = true := by
  obtain ⟨ws, hw⟩ := name_of_read hr
  exact Text.mem_words (hw ▸ List.mem_cons_self)

theorem isSeparator_name_of_read {line : Text} {h : Header} (ht : line.Trimmed)
    (hr : read line = .ok h) : isSeparator h.name = isSeparator line := by
  obtain ⟨ws, hw⟩ := name_of_read hr
  obtain ⟨rest, rfl, hrest⟩ := Text.exists_append_of_words_eq_cons ht.head hw
  exact (isSeparator_append hrest).symm

theorem isContent_written {h : Header} (hn : h.name.isName = true) (hp : h.name.Plain) :
    h.written.IsContent := by
  have ht := Text.Trimmed.of_isName hn
  have hne := (Text.isName_iff.1 hn).1
  obtain ⟨name, _ | q⟩ := h
  · exact ⟨hp, ht, hne⟩
  · have hq : q.token.isName = true := by cases q <;> rfl
    have hqp : q.token.Plain := by cases q <;> exact .of_not_mem (by decide) (by decide)
    have hs : Text.Trimmed (name ++ [' '] ++ q.token) :=
      ht.surround hne [' '] (.of_isName hq) (Text.isName_iff.1 hq).1
    exact ⟨(Text.plain_append_cons (by decide) (by decide)).2 ⟨hp, hqp⟩,
      by simpa [written] using hs, by simp [written]⟩

theorem isSeparator_written (h : Header) : isSeparator h.written = isSeparator h.name := by
  obtain ⟨name, _ | q⟩ := h
  · rfl
  · exact isSeparator_append (by simp [isBlank, blankRanges])

end Header

end ClassNotation
