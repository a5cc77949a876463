import ClassNotation.Proofs.Line.Method

/-! The grammar of method lines, from the visibility to the result. A line that is refused tells
how far it can be read, and at which demand the reading ends. -/

namespace ClassNotation

namespace Signature

/-- The text has one pair of parentheses and a name in front of it. -/
structure Of (t : Text) (s : Signature) : Prop where
  opening : t.count '(' = 1
  closing : t.count ')' = 1
  name : s.name.isName = true
  pieces : ∃ front : Text, front.trim = s.name ∧
    t = front ++ '(' :: (s.parameters ++ ')' :: s.tail)

/-- What the tail says of a result: nothing, or a colon and a type, which may be blank. -/
inductive States (s : Signature) : Option Text → Prop
  | nothing (h : s.tail.trim = []) : States s none
  | result {type : Text} (h : s.tail.trim = ':' :: type) (hc : ':' ∉ type) :
      States s (some type.trim)

theorem count_parentheses (front inside tail : Text) :
    (front ++ '(' :: (inside ++ ')' :: tail)).count '(' =
        front.count '(' + inside.count '(' + tail.count '(' + 1 ∧
      (front ++ '(' :: (inside ++ ')' :: tail)).count ')' =
        front.count ')' + inside.count ')' + tail.count ')' + 1 := by
  simp only [List.count_append, List.count_cons_self,
    List.count_cons_of_ne (by decide : ('(' : Char) ≠ ')'),
    List.count_cons_of_ne (by decide : (')' : Char) ≠ '(')]
  omega

theorem cut?_eq_some_iff_of {t : Text} {s : Signature} : cut? t = some s ↔ s.Of t := by
  rw [cut?_eq_some_iff]
  constructor
  · rintro ⟨⟨hn, hname, hinside, htail⟩, front, hf, rfl⟩
    have hfront : front.ParenFree := .of_trim (hf ▸ hname)
    obtain ⟨ho, hc⟩ := count_parentheses front s.parameters s.tail
    refine ⟨?_, ?_, hn, front, hf, rfl⟩
    · rw [ho, List.count_eq_zero.2 hfront.1, List.count_eq_zero.2 hinside.1,
        List.count_eq_zero.2 htail.1]
    · rw [hc, List.count_eq_zero.2 hfront.2, List.count_eq_zero.2 hinside.2,
        List.count_eq_zero.2 htail.2]
  · rintro ⟨hopening, hclosing, hn, front, hf, rfl⟩
    obtain ⟨ho, hc⟩ := count_parentheses front s.parameters s.tail
    rw [ho] at hopening
    rw [hc] at hclosing
    have hfree : ∀ t : Text, t.count '(' = 0 → t.count ')' = 0 → t.ParenFree :=
      fun t h h' => ⟨List.count_eq_zero.1 h, List.count_eq_zero.1 h'⟩
    have hfront := hfree front (by omega) (by omega)
    exact ⟨⟨hn, hf ▸ hfront.of_isInfix (Text.trim_isInfix front),
      hfree s.parameters (by omega) (by omega), hfree s.tail (by omega) (by omega)⟩, front, hf, rfl⟩

theorem result?_eq_some_iff_states {s : Signature} {r : Option Text} :
    s.result? = some r ↔ s.States r := by
  constructor
  · intro h
    cases r with
    | none =>
      rw [result?] at h
      split at h
      · rename_i ht
        exact .nothing ht
      · split at h <;> cases h
    | some type =>
      obtain ⟨rest, ht, hc, rfl⟩ := result?_eq_some_iff.1 h
      exact .result ht hc
  · intro h
    cases h with
    | nothing h => rw [result?, h]
    | result h hc => exact result?_eq_some_iff.2 ⟨_, h, hc, rfl⟩

theorem Of.isInfix {t : Text} {s : Signature} (h : s.Of t) :
    s.name <:+: t ∧ s.parameters <:+: t ∧ s.tail <:+: t :=
  isInfix_of_cut? (cut?_eq_some_iff_of.2 h)

theorem States.isInfix {s : Signature} {type : Text} (h : s.States (some type)) :
    type <:+: s.tail :=
  (of_result? (result?_eq_some_iff_states.2 h)).2.2

theorem States.trimmed {s : Signature} {type : Text} (h : s.States (some type)) :
    type.Trimmed := by
  cases h
  exact Text.trimmed_trim _

end Signature

namespace Method

/-- The line can be read up to the end of its parameters. -/
structure Signed (line : Text) (m : MemberLine) (s : Signature) (ps : List Parameter) : Prop where
  member : MemberLine.Spells line m
  signature : s.Of m.declaration
  parameters : readParameterList s.parameters = .ok ps

inductive Declared (owner line : Text) : Method → Prop
  | constructor {m : MemberLine} {s : Signature} {ps : List Parameter} (h : Signed line m s ps)
      (ht : s.States none) (hn : s.name = owner) (hs : m.isStatic = false) :
      Declared owner line ⟨s.name, m.visibility, false, ps, none⟩
  | operation {m : MemberLine} {s : Signature} {ps : List Parameter} {type : Text}
      (h : Signed line m s ps) (ht : s.States (some type)) (hn : s.name ≠ owner)
      (htype : type ≠ []) (hb : Balanced type) :
      Declared owner line ⟨s.name, m.visibility, m.isStatic, ps, some type⟩

/-- Why a line is no method of the owner. Each reason is met behind what can be read. -/
inductive Refused (owner line : Text) : Fault → Prop
  | symbol (h : ∀ v : Visibility, line.firstWord ≠ v.symbol) :
      Refused owner line (.unknownVisibility line.firstWord)
  | shape {m : MemberLine} (hm : MemberLine.Spells line m)
      (h : ∀ s : Signature, ¬ s.Of m.declaration) :
      Refused owner line (.malformedSignature line.trim)
  | parameters {m : MemberLine} {s : Signature} {f : Fault} (hm : MemberLine.Spells line m)
      (hs : s.Of m.declaration) (h : readParameterList s.parameters = .error f) :
      Refused owner line f
  | tail {m : MemberLine} {s : Signature} {ps : List Parameter} (h : Signed line m s ps)
      (ht : ∀ r, ¬ s.States r) : Refused owner line (.malformedSignature line.trim)
  | staticConstructor {m : MemberLine} {s : Signature} {ps : List Parameter} {r : Option Text}
      (h : Signed line m s ps) (ht : s.States r) (hn : s.name = owner) (hs : m.isStatic = true) :
      Refused owner line (.malformedSignature line.trim)
  | constructorResult {m : MemberLine} {s : Signature} {ps : List Parameter} {type : Text}
      (h : Signed line m s ps) (ht : s.States (some type)) (hn : s.name = owner)
      (hs : m.isStatic = false) : Refused owner line (.unexpectedResult s.name)
  | noResult {m : MemberLine} {s : Signature} {ps : List Parameter} {r : Option Text}
      (h : Signed line m s ps) (ht : s.States r) (hn : s.name ≠ owner) (hr : r.getD [] = []) :
      Refused owner line (.missingResult s.name)
  | brackets {m : MemberLine} {s : Signature} {ps : List Parameter} {type : Text}
      (h : Signed line m s ps) (ht : s.States (some type)) (hn : s.name ≠ owner)
      (hb : ¬ Balanced type) : Refused owner line (.unbalancedBrackets type)

section checkResult

variable {owner name : Text} {isStatic : Bool} {malformed : Fault}

theorem checkResult_of_static (hn : name = owner) (result : Option Text) :
    checkResult owner name true result malformed = .error malformed := by
  simp [checkResult, hn]

theorem checkResult_of_unexpected (hn : name = owner) (type : Text) :
    checkResult owner name false (some type) malformed = .error (.unexpectedResult name) := by
  simp [checkResult, hn]

theorem checkResult_of_missing (hn : name ≠ owner) {result : Option Text}
    (hr : result.getD [] = []) :
    checkResult owner name isStatic result malformed = .error (.missingResult name) := by
  cases result with
  | none => simp [checkResult, hn]
  | some type =>
    obtain rfl : type = [] := hr
    simp [checkResult, hn]

theorem checkResult_of_unbalanced (hn : name ≠ owner) {type : Text} (ht : type.Trimmed)
    (hb : ¬ Balanced type) :
    checkResult owner name isStatic (some type) malformed = .error (.unbalancedBrackets type) := by
  have hne : type ≠ [] := by
    rintro rfl
    exact hb (checkBrackets_eq_ok_iff.1 rfl)
  simp [checkResult, hn, hne, checkBrackets_of_not_balanced ht hb]

end checkResult

variable {owner line : Text} {m : MemberLine} {s : Signature} {ps : List Parameter}
  {r : Option Text}

theorem Signed.read_of_states (h : Signed line m s ps) (ht : s.States r) (owner : Text) :
    read owner line =
      (checkResult owner s.name m.isStatic r (.malformedSignature line.trim)).map fun r =>
        ⟨s.name, m.visibility, m.isStatic, ps, r⟩ := by
  have hcut := Signature.cut?_eq_some_iff_of.2 h.signature
  have hresult := Signature.result?_eq_some_iff_states.2 ht
  rw [read]
  simp only [MemberLine.read_of_spells h.member, hcut, h.parameters, hresult]
  cases checkResult owner s.name m.isStatic r (.malformedSignature line.trim) <;> rfl

theorem Signed.read_of_not_states (h : Signed line m s ps) (ht : ∀ r, ¬ s.States r)
    (owner : Text) : read owner line = .error (.malformedSignature line.trim) := by
  have hcut := Signature.cut?_eq_some_iff_of.2 h.signature
  have hresult : s.result? = none := by
    rw [Option.eq_none_iff_forall_ne_some]
    exact fun r hr => ht r (Signature.result?_eq_some_iff_states.1 hr)
  rw [read]
  simp only [MemberLine.read_of_spells h.member, hcut, h.parameters, hresult]

theorem read_of_refused {f : Fault} (h : Refused owner line f) : read owner line = .error f := by
  cases h with
  | symbol h => rw [read, MemberLine.read_eq_error_iff.2 ⟨h, rfl⟩]
  | @shape m hm h =>
    have hcut : Signature.cut? m.declaration = none := by
      rw [Option.eq_none_iff_forall_ne_some]
      exact fun s hs => h s (Signature.cut?_eq_some_iff_of.1 hs)
    rw [read]
    simp only [MemberLine.read_of_spells hm, hcut]
  | parameters hm hs h =>
    rw [read]
    simp only [MemberLine.read_of_spells hm, Signature.cut?_eq_some_iff_of.2 hs, h]
  | tail h ht => exact h.read_of_not_states ht owner
  | staticConstructor h ht hn hs =>
    rw [h.read_of_states ht, hs, checkResult_of_static hn]
    rfl
  | constructorResult h ht hn hs =>
    rw [h.read_of_states ht, hs, checkResult_of_unexpected hn]
    rfl
  | noResult h ht hn hr =>
    rw [h.read_of_states ht, checkResult_of_missing hn hr]
    rfl
  | brackets h ht hn hb =>
    rw [h.read_of_states ht, checkResult_of_unbalanced hn ht.trimmed hb]
    rfl

theorem read_of_declared {m : Method} (h : Declared owner line m) : read owner line = .ok m := by
  cases h with
  | constructor h ht hn hs =>
    rw [h.read_of_states ht, hs, checkResult_eq_ok_iff.2 ⟨.inl ⟨hn, rfl, rfl⟩, rfl⟩]
    rfl
  | operation h ht hn htype hb =>
    have hfits := checkBrackets_eq_ok_iff.2 hb
    rw [h.read_of_states ht, checkResult_eq_ok_iff.2 ⟨.inr ⟨hn, _, rfl, htype, hfits⟩, rfl⟩]
    rfl

theorem Signed.refused_or_declared (h : Signed line m s ps) (owner : Text) :
    (∃ f, Refused owner line f) ∨ ∃ m, Declared owner line m := by
  by_cases ht : ∃ r, s.States r
  · obtain ⟨r, ht⟩ := ht
    by_cases hn : s.name = owner
    · cases hs : m.isStatic with
      | true => exact .inl ⟨_, .staticConstructor h ht hn hs⟩
      | false =>
        cases r with
        | none => exact .inr ⟨_, .constructor h ht hn hs⟩
        | some type => exact .inl ⟨_, .constructorResult h ht hn hs⟩
    · cases r with
      | none => exact .inl ⟨_, .noResult h ht hn rfl⟩
      | some type =>
        by_cases htype : type = []
        · exact .inl ⟨_, .noResult h ht hn htype⟩
        · by_cases hb : Balanced type
          · exact .inr ⟨_, .operation h ht hn htype hb⟩
          · exact .inl ⟨_, .brackets h ht hn hb⟩
  · exact .inl ⟨_, .tail h (not_exists.1 ht)⟩

theorem refused_or_declared (owner line : Text) :
    (∃ f, Refused owner line f) ∨ ∃ m, Declared owner line m := by
  cases hm : MemberLine.read line with
  | error f => exact .inl ⟨_, .symbol (MemberLine.read_eq_error_iff.1 hm).1⟩
  | ok m =>
    have hspells := MemberLine.spells_of_read hm
    by_cases hs : ∃ s : Signature, s.Of m.declaration
    · obtain ⟨s, hs⟩ := hs
      cases hp : readParameterList s.parameters with
      | error f => exact .inl ⟨f, .parameters hspells hs hp⟩
      | ok ps => exact Signed.refused_or_declared ⟨hspells, hs, hp⟩ owner
    · exact .inl ⟨_, .shape hspells (not_exists.1 hs)⟩

theorem refused_of_read {f : Fault} (h : read owner line = .error f) : Refused owner line f := by
  rcases refused_or_declared owner line with ⟨g, hg⟩ | ⟨n, hn⟩
  · rw [read_of_refused hg] at h
    exact Except.error.inj h ▸ hg
  · rw [read_of_declared hn] at h
    cases h

/-- A line declares a method of a class exactly if the grammar derives the method from it. Any
other line is refused for the first reason that it gives. -/
theorem read_iff_declared (owner line : Text) :
    (∀ m, read owner line = .ok m ↔ Declared owner line m) ∧
      ∀ f, read owner line = .error f ↔ Refused owner line f := by
  refine ⟨fun m => ⟨fun hm => ?_, read_of_declared⟩, fun f => ⟨refused_of_read, read_of_refused⟩⟩
  rcases refused_or_declared owner line with ⟨f, hf⟩ | ⟨n, hn⟩
  · rw [read_of_refused hf] at hm
    cases hm
  · rw [read_of_declared hn] at hm
    exact Except.ok.inj hm ▸ hn

end Method

end ClassNotation
