import ClassNotation.Proofs.BlockLines
import ClassNotation.Proofs.Content

/-! Relation lines, written with one line for each related class. Apart from the comma, which
separates the related classes, nothing in their names matters to the reading. -/

namespace ClassNotation

structure Text.Related (t : Text) : Prop where
  nonempty : t ≠ []
  trimmed : t.Trimmed
  comma : ',' ∉ t

namespace RelationLine

def written (kind : RelationKind) (related : Text) : Text :=
  kind.keyword ++ ' ' :: related

theorem isSeparator_written (kind : RelationKind) (related : Text) :
    isSeparator (written kind related) = false := by
  cases kind <;> rfl

theorem isName_keyword (kind : RelationKind) : kind.keyword.isName = true := by
  cases kind <;> rfl

theorem trimmed_written {kind : RelationKind} {names : Text} (hn : names ≠ [])
    (ht : names.Trimmed) : (written kind names).Trimmed := by
  have hk := isName_keyword kind
  have hs := Text.Trimmed.surround (.of_isName hk) (Text.isName_iff.1 hk).1 [' '] ht hn
  simpa [written] using hs

theorem isContent_written {kind : RelationKind} {related : Text} (h : related.Related)
    (hp : related.Plain) : (written kind related).IsContent := by
  have hk : kind.keyword.Plain := by
    cases kind <;> exact .of_not_mem (by decide) (by decide)
  exact ⟨(Text.plain_append_cons (by decide) (by decide)).2 ⟨hk, hp⟩,
    trimmed_written h.nonempty h.trimmed,
    by simp [written]⟩

theorem read_written_names (kind : RelationKind) {names : Text} (hn : names ≠ [])
    (ht : names.Trimmed) :
    read (written kind names) =
      if [] ∈ (names.splitOn ',').map Text.trim then
        .error (.malformedRelation (written kind names))
      else .ok ⟨kind, (names.splitOn ',').map Text.trim⟩ := by
  have hcut : (written kind names).cutWord = (kind.keyword, names) :=
    Text.cutWord_append_cons (Text.isName_iff.1 (isName_keyword kind)).2 (by decide) names
  simp only [read, Text.trim_of_trimmed (trimmed_written hn ht), hcut,
    RelationKind.ofKeyword?_keyword, List.any_eq_true, List.isEmpty_iff, exists_eq_right]

theorem read_written {kind : RelationKind} {related : Text} (h : related.Related) :
    read (written kind related) = .ok ⟨kind, [related]⟩ := by
  have hsplit : (related.splitOn ',').map Text.trim = [related] := by
    rw [List.splitOn_eq_singleton h.comma, List.map_singleton, Text.trim_of_trimmed h.trimmed]
  rw [read_written_names kind h.nonempty h.trimmed, hsplit,
    if_neg (by simpa using h.nonempty.symm)]

theorem exists_names_of_read {line : Text} {r : RelationLine} (h : read line = .ok r) :
    ∃ names, line.trim.cutWord = (r.kind.keyword, names) ∧
      r.related = (names.splitOn ',').map Text.trim ∧ [] ∉ r.related := by
  rw [read] at h
  split at h
  rename_i keyword names hcut
  split at h
  · cases h
  · rename_i kind hkind
    dsimp only at h
    split at h
    · cases h
    · rename_i hne
      cases h
      rw [← RelationKind.ofKeyword?_eq_some_iff.1 hkind]
      exact ⟨names, hcut, rfl, by simpa using hne⟩

theorem keyword_of_read {line : Text} {r : RelationLine} (h : read line = .ok r) :
    (line.firstWord, r.kind) ∈ relationKeywords := by
  obtain ⟨names, hcut, -, -⟩ := exists_names_of_read h
  have hword : line.firstWord = r.kind.keyword := by
    rw [← Text.firstWord_trim, ← Text.cutWord_of_trimmed (Text.trimmed_trim line), hcut]
  rw [hword]
  cases r.kind <;> decide

theorem exists_keyword_append_of_read {line : Text} {r : RelationLine} (ht : line.Trimmed)
    (h : read line = .ok r) : ∃ rest, line = r.kind.keyword ++ rest := by
  obtain ⟨names, hcut, -, -⟩ := exists_names_of_read h
  rw [Text.trim_of_trimmed ht] at hcut
  rcases (Text.cutWord_eq hcut).2 with ⟨hline, -⟩ | ⟨c, -, hline⟩
  · exact ⟨[], by rw [List.append_nil, ← hline]⟩
  · exact ⟨c :: names, hline⟩

theorem isSeparator_of_read {line : Text} {r : RelationLine} (ht : line.Trimmed)
    (h : read line = .ok r) : isSeparator line = false := by
  obtain ⟨rest, rfl⟩ := exists_keyword_append_of_read ht h
  cases r.kind <;> rfl

theorem ne_nil_of_read {line : Text} {r : RelationLine} (ht : line.Trimmed)
    (h : read line = .ok r) : line ≠ [] := by
  obtain ⟨rest, rfl⟩ := exists_keyword_append_of_read ht h
  exact List.append_ne_nil_of_left_ne_nil (Text.isName_iff.1 (isName_keyword r.kind)).1 rest

theorem related_of_read {line : Text} {r : RelationLine} (h : read line = .ok r) {t : Text}
    (ht : t ∈ r.related) : t.Related ∧ t <:+: line := by
  obtain ⟨names, hcut, hrelated, hne⟩ := exists_names_of_read h
  have hn : t ≠ [] := fun hn => hne (hn ▸ ht)
  rw [hrelated] at ht
  obtain ⟨part, hp, rfl⟩ := List.mem_map.1 ht
  obtain ⟨hi, hcomma⟩ := Text.mem_splitOn hp
  have htrim : part.trim <:+: part := Text.trim_isInfix part
  have hnames : names <:+: line := (Text.isInfix_of_cutWord hcut).trans (Text.trim_isInfix line)
  exact ⟨⟨hn, Text.trimmed_trim part, fun hm => hcomma (htrim.subset hm)⟩,
    htrim.trans (hi.trans hnames)⟩

theorem related_ne_nil_of_read {line : Text} {r : RelationLine} (h : read line = .ok r) :
    r.related ≠ [] := by
  obtain ⟨names, -, hrelated, -⟩ := exists_names_of_read h
  simp [hrelated, List.splitOn_ne_nil]

end RelationLine

end ClassNotation
