import ClassNotation.Proofs.LineFaults
import ClassNotation.Proofs.Run

/-! Which faults are found where. The content in front of a line leads to a phase, and this phase
decides what the line can be refused for. No text enters a part of a class a second time. -/

namespace ClassNotation

/-- What a line can be refused for in a phase. A separator is refused only outside a block. -/
def Fault.OfLine (p : Phase) (line : Text) (f : Fault) : Prop :=
  if isSeparator line then p = .outside ∧ f = .wrongPhase .closeSection .outside
  else f.ofDeclaration p = true

/-- The end of a text is no line. -/
def Fault.OfEnd (f : Fault) : Prop :=
  f = .emptyInput ∨ ∃ p, f = .unexpectedEnd p

namespace Fault

variable {f : Fault} {p : Phase} {line : Text}

theorem OfLine.ne_partPresent (h : f.OfLine p line) (part : Part) : f ≠ .partPresent part := by
  rw [OfLine] at h
  split at h
  · simp [h.2]
  · rintro rfl
    simp [ofDeclaration] at h

theorem OfLine.of_wrongPhase {attempt : Attempt} {q : Phase}
    (h : OfLine p line (.wrongPhase attempt q)) : attempt = .closeSection ∧ q = .outside := by
  rw [OfLine] at h
  split at h
  · simpa using h.2
  · simp [ofDeclaration] at h

theorem OfEnd.ne_partPresent (h : f.OfEnd) (part : Part) : f ≠ .partPresent part := by
  obtain rfl | ⟨_, rfl⟩ := h <;> simp

theorem OfEnd.ne_wrongPhase (h : f.OfEnd) (attempt : Attempt) (q : Phase) :
    f ≠ .wrongPhase attempt q := by
  obtain rfl | ⟨_, rfl⟩ := h <;> simp

end Fault

/-- A text is refused at its end, or at a line for what the phase in front of the line refuses.
Neither is a part that is there already, and of all attempts in a wrong phase only a separator
outside a block. -/
theorem readBlocks_fault_confined {t : Text} {e : ParseError} (h : readBlocks t = .error e) :
    ((e.fault.OfEnd ∧
        ∃ blocks m, Machine.start.readLines (contentLines t) = .ok (blocks, m)) ∨
      ∃ before l after blocks m, contentLines t = before ++ l :: after ∧
        (∀ x ∈ before, x.number < e.line) ∧ l.number = e.line ∧ (∀ x ∈ after, e.line < x.number) ∧
        Machine.start.readLines before = .ok (blocks, m) ∧ e.fault.OfLine m.phase l.text) ∧
    (∀ part, e.fault ≠ .partPresent part) ∧
    ∀ attempt p, e.fault = .wrongPhase attempt p → attempt = .closeSection ∧ p = .outside := by
  rcases readBlocks_eq_error_iff.1 h with
    ⟨hn, rfl⟩ | ⟨pre, l, post, bs, s, hl, hr, hf, hk⟩ | ⟨bs, s, hr, hs, rfl⟩
  · have hend : Fault.OfEnd .emptyInput := .inl rfl
    have hlines : contentLines t = [] := by
      rwa [← map_text_contentLines, List.map_eq_nil_iff] at hn
    exact ⟨.inl ⟨hend, [], .start, by rw [hlines]; rfl⟩, hend.ne_partPresent,
      fun attempt p he => absurd he (hend.ne_wrongPhase attempt p)⟩
  · have hline : e.fault.OfLine s.phase l.text := by
      have hfault := Progress.fault_of_next hf
      rwa [← Progress.phase_eq_outside_iff] at hfault
    obtain ⟨k, hread⟩ := Machine.readLines_of_reads hr 0
    have hnumbers : (pre ++ l :: post).Pairwise fun x y => x.number < y.number :=
      hl ▸ pairwise_number_contentFrom 1 t.lines
    obtain ⟨-, hpost, hpre⟩ := List.pairwise_append.1 hnumbers
    rw [hk]
    refine ⟨.inr ⟨pre, l, post, bs, s.machine k, hl,
      fun x hx => hpre x hx l List.mem_cons_self, rfl,
      (List.pairwise_cons.1 hpost).1, hread, hline⟩, hline.ne_partPresent, fun attempt p he => ?_⟩
    rw [he] at hline
    exact hline.of_wrongPhase
  · have hend : Fault.OfEnd (.unexpectedEnd s.phase) := .inr ⟨s.phase, rfl⟩
    rw [← map_text_contentLines] at hr
    obtain ⟨k, hread⟩ := Machine.readLines_of_reads hr 0
    exact ⟨.inl ⟨hend, bs, s.machine k, hread⟩, hend.ne_partPresent,
      fun attempt p he => absurd he (hend.ne_wrongPhase attempt p)⟩

theorem readBlocks_fault_confined_result :
    ∃ before l after blocks m,
      contentLines "A // class\n\n---\n---\n+ A(): A\n---".toList = before ++ l :: after ∧
      (∀ x ∈ before, x.number < 5) ∧ l.number = 5 ∧ (∀ x ∈ after, 5 < x.number) ∧
      Machine.start.readLines before = .ok (blocks, m) ∧
      (Fault.unexpectedResult "A".toList).OfLine m.phase l.text := by
  have h : readBlocks "A // class\n\n---\n---\n+ A(): A\n---".toList =
      .error ⟨5, .unexpectedResult "A".toList⟩ := by decide +kernel
  obtain ⟨hend | hline, -⟩ := readBlocks_fault_confined h
  · simp [Fault.OfEnd] at hend
  · exact hline

end ClassNotation
