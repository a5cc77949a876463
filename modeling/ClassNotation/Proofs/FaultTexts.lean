import ClassNotation.Proofs.LineFaults
import ClassNotation.Proofs.Run

/-! The messages of faults. Each is one line, as what it quotes is a part of a line. -/

namespace ClassNotation

theorem Fault.feed_not_mem_message {f : Fault} (h : '\n' ∉ f.quoted) : '\n' ∉ f.message := by
  have hattempt : ∀ attempt : Attempt, '\n' ∉ attempt.description := by
    rintro (e | - | -)
    · cases e <;> decide
    · decide
    · decide
  have hphase : ∀ p : Phase, '\n' ∉ p.name := by rintro (- | - | - | -) <;> decide
  have hpart : ∀ p : Part, '\n' ∉ p.name := by rintro (- | -) <;> decide
  cases f with
  | unknownVisibility t | unknownRelation t | unknownQualifier t | malformedHeader t
  | malformedRelation t | malformedProperty t | malformedParameters t | malformedSignature t
  | unbalancedBrackets t =>
    exact List.not_mem_append (by decide) h
  | missingResult t | unexpectedResult t =>
    exact List.not_mem_append (List.not_mem_append (by decide) h) (by decide)
  | wrongPhase attempt p =>
    exact List.not_mem_append (List.not_mem_append (List.not_mem_append
      (List.not_mem_append (by decide) (hattempt attempt)) (by decide)) (hphase p)) (by decide)
  | partPresent part =>
    exact List.not_mem_append (List.not_mem_append (by decide) (hpart part)) (by decide)
  | emptyInput => decide
  | unexpectedEnd p =>
    exact List.not_mem_append (List.not_mem_append (by decide) (hphase p)) (by decide)

/-- A fault of a text is told in one line. -/
theorem feed_not_mem_message_of_readBlocks {t : Text} {e : ParseError}
    (h : readBlocks t = .error e) : '\n' ∉ e.message := by
  have hquoted : '\n' ∉ e.fault.quoted := by
    rcases readBlocks_eq_error_iff.1 h with
      ⟨-, rfl⟩ | ⟨pre, l, post, bs, s, hl, -, hf, -⟩ | ⟨bs, s, -, -, rfl⟩
    · simp [Fault.quoted]
    · have hmem : l.text ∈ contents t := by
        rw [← map_text_contentLines, hl]
        simp
      rw [contents, List.mem_filter, List.mem_map] at hmem
      obtain ⟨⟨line, hline, hstrip⟩, -⟩ := hmem
      have hi : l.text <:+: line := by
        rw [← hstrip]
        exact (Text.trim_isInfix _).trans (beforeComment_isPrefix line).isInfix
      exact fun hfeed => Text.feed_not_mem_of_mem_lines hline
        (((Progress.quoted_of_next hf).trans hi).subset hfeed)
    · simp [Fault.quoted]
  have hnumber : '\n' ∉ Text.ofNat e.line := fun hfeed =>
    absurd (Nat.isDigit_of_mem_toDigits (by decide) (by decide) hfeed) (by decide)
  exact List.not_mem_append (List.not_mem_append (List.not_mem_append (by decide) hnumber)
    (by decide)) (Fault.feed_not_mem_message hquoted)

end ClassNotation
