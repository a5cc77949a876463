import ClassNotation.Proofs.Line.MethodGrammar
import ClassNotation.Proofs.Line.PropertyGrammar
import ClassNotation.Proofs.Progress

/-! Which faults a line can have. The phase in which a line is read decides which of them it may
be refused for, and what the message of a fault quotes is a part of the line. None of them is a
fault of the end of a text. -/

namespace ClassNotation

/-- The faults of lines that are no separators, by the phase that reads them. -/
def Fault.ofDeclaration : Phase → Fault → Bool
  | .outside, .unknownQualifier _ => true
  | .outside, .malformedHeader _ => true
  | .header, .unknownRelation _ => true
  | .header, .malformedRelation _ => true
  | .properties, .unknownVisibility _ => true
  | .properties, .malformedProperty _ => true
  | .properties, .unbalancedBrackets _ => true
  | .methods, .unknownVisibility _ => true
  | .methods, .malformedSignature _ => true
  | .methods, .malformedParameters _ => true
  | .methods, .unbalancedBrackets _ => true
  | .methods, .missingResult _ => true
  | .methods, .unexpectedResult _ => true
  | _, _ => false

/-- What the message of a fault shows of the line. -/
def Fault.quoted : Fault → Text
  | .unknownVisibility t | .unknownRelation t | .unknownQualifier t | .malformedHeader t
  | .malformedRelation t | .malformedProperty t | .malformedParameters t | .malformedSignature t
  | .unbalancedBrackets t | .missingResult t | .unexpectedResult t => t
  | .wrongPhase _ _ | .partPresent _ | .emptyInput | .unexpectedEnd _ => []

structure Fault.OfReading (p : Phase) (line : Text) (f : Fault) : Prop where
  kind : f.ofDeclaration p = true
  quoted : f.quoted <:+: line

variable {line : Text} {f : Fault}

theorem Header.fault_of_read (h : Header.read line = .error f) : f.OfReading .outside line := by
  rw [Header.read] at h
  split at h
  · cases h
  · rename_i name token hw
    split at h
    · cases h
    · cases h
      have ht : token ∈ line.words := by simp [hw]
      exact ⟨rfl, (Text.mem_words ht).1⟩
  · cases h
    exact ⟨rfl, List.infix_rfl⟩

theorem RelationLine.fault_of_read (h : RelationLine.read line = .error f) :
    f.OfReading .header line := by
  rw [RelationLine.read] at h
  split at h
  rename_i keyword names hcut
  split at h
  · cases h
    exact ⟨rfl, (Text.word_isInfix_of_cutWord hcut).trans (Text.trim_isInfix line)⟩
  · dsimp only at h
    split at h
    · cases h
      exact ⟨rfl, Text.trim_isInfix line⟩
    · cases h

theorem Property.Refused.ofReading (h : Property.Refused line f) :
    f.OfReading .properties line := by
  cases h with
  | parenthesis | shape => exact ⟨rfl, Text.trim_isInfix line⟩
  | symbol => exact ⟨rfl, Text.firstWord_isInfix line⟩
  | brackets _ hr => exact ⟨rfl, hr.type_isInfix⟩

theorem fault_of_readParameterList {t : Text} (h : readParameterList t = .error f) :
    f.OfReading .methods t := by
  rw [readParameterList] at h
  split at h
  · cases h
  · split at h
    · rename_i e he
      cases h
      rw [(topLevelParts_eq_error_iff.1 he).2]
      exact ⟨rfl, Text.trim_isInfix t⟩
    · split at h
      · cases h
      · cases h
        exact ⟨rfl, Text.trim_isInfix t⟩

section signature

variable {owner : Text} {m : MemberLine} {s : Signature} {ps : List Parameter}

theorem Method.Signed.isInfix (h : Method.Signed line m s ps) :
    s.name <:+: line ∧ s.tail <:+: line := by
  obtain ⟨hname, -, htail⟩ := h.signature.isInfix
  exact ⟨hname.trans h.member.declaration.2, htail.trans h.member.declaration.2⟩

theorem Method.Refused.ofReading (h : Method.Refused owner line f) : f.OfReading .methods line := by
  cases h with
  | symbol => exact ⟨rfl, Text.firstWord_isInfix line⟩
  | shape | tail | staticConstructor => exact ⟨rfl, Text.trim_isInfix line⟩
  | parameters hm hs h =>
    obtain ⟨hkind, hquoted⟩ := fault_of_readParameterList h
    exact ⟨hkind, hquoted.trans (hs.isInfix.2.1.trans hm.declaration.2)⟩
  | constructorResult h | noResult h => exact ⟨rfl, h.isInfix.1⟩
  | brackets h ht => exact ⟨rfl, ht.isInfix.trans h.isInfix.2⟩

end signature

namespace Progress

variable {s : Progress}

theorem fault_of_declare (h : s.declare line = .error f) : f.OfReading s.phase line := by
  cases s with
  | outside => exact Header.fault_of_read (except_map_eq_error_iff.1 h)
  | header => exact RelationLine.fault_of_read (except_map_eq_error_iff.1 h)
  | properties => exact (Property.refused_of_read (except_map_eq_error_iff.1 h)).ofReading
  | methods => exact (Method.refused_of_read (except_map_eq_error_iff.1 h)).ofReading

theorem fault_of_separate (h : s.separate = .error f) :
    s = .outside ∧ f = .wrongPhase .closeSection .outside := by
  cases s with
  | outside => exact ⟨rfl, (Except.error.inj h).symm⟩
  | header | properties | methods => cases h

theorem fault_of_next (h : s.next line = .error f) :
    if isSeparator line then s = .outside ∧ f = .wrongPhase .closeSection .outside
    else f.ofDeclaration s.phase = true := by
  rw [next] at h
  by_cases hs : isSeparator line = true
  · rw [if_pos hs] at h ⊢
    exact fault_of_separate h
  · rw [if_neg hs] at h ⊢
    exact (fault_of_declare (except_map_eq_error_iff.1 h)).kind

theorem quoted_of_next (h : s.next line = .error f) : f.quoted <:+: line := by
  rw [next] at h
  split at h
  · rw [(fault_of_separate h).2]
    exact List.nil_infix
  · exact (fault_of_declare (except_map_eq_error_iff.1 h)).quoted

theorem fault_of_next_ne (h : s.next line = .error f) :
    f ≠ .emptyInput ∧ ∀ p, f ≠ .unexpectedEnd p := by
  have hf := fault_of_next h
  split at hf
  · rw [hf.2]
    exact ⟨by simp, by simp⟩
  · constructor
    · rintro rfl
      simp [Fault.ofDeclaration] at hf
    · rintro p rfl
      simp [Fault.ofDeclaration] at hf

end Progress

end ClassNotation
