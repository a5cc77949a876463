import ClassNotation.Line.Method
import ClassNotation.Proofs.Line.Parameters

/-! Method lines and how they are written. What is declared is cut at its only parentheses, so no
text of a method holds one. -/

namespace ClassNotation

theorem Text.ParenFree.of_trim {t : Text} (h : t.trim.ParenFree) : t.ParenFree := by
  obtain ⟨-, a, b, ha, hb, ht⟩ := Text.trim_eq_iff.1 (rfl : t.trim = t.trim)
  have hfree : ∀ c, isBlank c = false → c ∉ t.trim → c ∉ t := by
    intro c hc hn hm
    rw [ht, List.mem_append, List.mem_append] at hm
    rcases hm with (hm | hm) | hm
    · simp [ha c hm] at hc
    · exact hn hm
    · simp [hb c hm] at hc
  exact ⟨hfree '(' (by decide) h.1, hfree ')' (by decide) h.2⟩

namespace Signature

theorem cut?_eq_some_iff {t : Text} {s : Signature} :
    cut? t = some s ↔
      (s.name.isName = true ∧ s.name.ParenFree ∧ s.parameters.ParenFree ∧ s.tail.ParenFree) ∧
        ∃ front : Text, front.trim = s.name ∧
          t = front ++ '(' :: (s.parameters ++ ')' :: s.tail) := by
  constructor
  · intro h
    rw [cut?] at h
    split at h
    · cases h
    · rename_i front behind hopen
      split at h
      · cases h
      · rename_i inside tail hclose
        split at h
        · rename_i hp
          cases h
          obtain ⟨hfc, hio, hto, htc, hn⟩ := hp
          obtain ⟨hf, c, hc, rfl⟩ := Text.cutAt?_eq_some_iff.1 hopen
          obtain ⟨hi, d, hd, rfl⟩ := Text.cutAt?_eq_some_iff.1 hclose
          obtain rfl : c = '(' := by simpa using hc
          obtain rfl : d = ')' := by simpa using hd
          have hfo : '(' ∉ front := fun hm => by simpa using hf _ hm
          have hic : ')' ∉ inside := fun hm => by simpa using hi _ hm
          have hfront : front.ParenFree := ⟨hfo, hfc⟩
          exact ⟨⟨hn, hfront.of_isInfix (Text.trim_isInfix front), ⟨hio, hic⟩, ⟨hto, htc⟩⟩,
            front, rfl, rfl⟩
        · cases h
  · rintro ⟨⟨hn, hfree, hi, ht⟩, front, hf, rfl⟩
    have hfront : front.ParenFree := .of_trim (hf ▸ hfree)
    have hopen := Text.cutAt?_append_cons (p := (· = '(')) (c := '(')
      (fun c hc => decide_eq_false fun he => hfront.1 (he ▸ hc)) (by decide)
      (s.parameters ++ ')' :: s.tail)
    have hclose := Text.cutAt?_append_cons (p := (· = ')')) (c := ')')
      (fun c hc => decide_eq_false fun he => hi.2 (he ▸ hc)) (by decide) s.tail
    simp only [cut?, hopen, hclose, hf]
    exact if_pos ⟨hfront.2, hi.1, ht.1, ht.2, hn⟩

theorem isInfix_of_cut? {t : Text} {s : Signature} (h : cut? t = some s) :
    s.name <:+: t ∧ s.parameters <:+: t ∧ s.tail <:+: t := by
  obtain ⟨-, front, hf, rfl⟩ := cut?_eq_some_iff.1 h
  refine ⟨?_, ⟨front ++ ['('], ')' :: s.tail, by simp⟩,
    ⟨front ++ '(' :: (s.parameters ++ [')']), [], by simp⟩⟩
  rw [← hf]
  exact (Text.trim_isInfix front).trans (List.prefix_append _ _).isInfix

theorem result?_eq_some_iff {s : Signature} {type : Text} :
    s.result? = some (some type) ↔
      ∃ rest : Text, s.tail.trim = ':' :: rest ∧ ':' ∉ rest ∧ rest.trim = type := by
  rw [result?]
  split
  · simp_all
  · rename_i c rest hc
    constructor
    · intro h
      split at h
      · rename_i hr
        obtain rfl := Option.some.inj (Option.some.inj h)
        exact ⟨rest, by rw [hc, hr.1], hr.2, rfl⟩
      · cases h
    · rintro ⟨rest', hr, hn, rfl⟩
      obtain ⟨rfl, rfl⟩ := List.cons.inj (hc.symm.trans hr)
      exact if_pos ⟨rfl, hn⟩

theorem of_result? {s : Signature} {type : Text} (h : s.result? = some (some type)) :
    type.Trimmed ∧ ':' ∉ type ∧ type <:+: s.tail := by
  obtain ⟨rest, hrest, hcolon, rfl⟩ := result?_eq_some_iff.1 h
  have hr : rest <:+: s.tail.trim := ⟨[':'], [], by simp [hrest]⟩
  have hi := hr.trans (Text.trim_isInfix s.tail)
  exact ⟨Text.trimmed_trim rest, fun hm => hcolon ((Text.trim_isInfix rest).subset hm),
    (Text.trim_isInfix rest).trans hi⟩

end Signature

def writtenResult : Option Text → Text
  | none => []
  | some type => ascribe [] type

theorem writtenResult_of_joins {Q : Text → Prop} (hQ : Joins Q) {result : Option Text}
    (h : ∀ type ∈ result, Q type) : Q (writtenResult result) := by
  cases result with
  | none => exact hQ.nil
  | some type => exact hQ.ascribe hQ.nil (h type rfl)

theorem result?_writtenResult (name parameters : Text) {result : Option Text}
    (h : ∀ type ∈ result, type.TypeLike) :
    Signature.result? ⟨name, parameters, writtenResult result⟩ = some result := by
  cases result with
  | none => rfl
  | some type =>
    have ht := h type rfl
    have hc : Text.Trimmed [':'] := .of_isName rfl
    rw [Signature.result?_eq_some_iff]
    refine ⟨' ' :: type, Text.trim_of_trimmed ?_, by simpa using ht.colon,
      Text.trim_append_of_trimmed .space ht.trimmed⟩
    exact hc.surround (by simp) [' '] ht.trimmed ht.nonempty

namespace Method

def ResultFits (owner name : Text) (isStatic : Bool) (result : Option Text) : Prop :=
  (name = owner ∧ isStatic = false ∧ result = none) ∨
    (name ≠ owner ∧ ∃ type, result = some type ∧ type ≠ [] ∧ checkBrackets type = .ok ())

theorem checkResult_eq_ok_iff {owner name : Text} {isStatic : Bool} {result r : Option Text}
    {malformed : Fault} :
    checkResult owner name isStatic result malformed = .ok r ↔
      ResultFits owner name isStatic result ∧ r = result := by
  rw [checkResult.eq_def, ResultFits]
  by_cases hn : name = owner
  · cases isStatic <;> cases result <;> simp [hn, eq_comm]
  · cases result with
    | none => simp [hn]
    | some type =>
      by_cases ht : type = []
      · simp [hn, ht]
      · cases hb : checkBrackets type <;> simp [hn, ht, hb, eq_comm]

theorem ResultFits.of_mem {owner name type : Text} {isStatic : Bool} {result : Option Text}
    (h : ResultFits owner name isStatic result) (ht : type ∈ result) :
    type ≠ [] ∧ checkBrackets type = .ok () := by
  rcases h with ⟨-, -, rfl⟩ | ⟨-, type', rfl, hne, hb⟩
  · cases ht
  · cases ht
    exact ⟨hne, hb⟩

theorem read_eq_ok_iff {owner line : Text} {m : Method} :
    read owner line = .ok m ↔ ∃ declaration parameters tail,
      MemberLine.read line = .ok ⟨m.visibility, m.isStatic, declaration⟩ ∧
      Signature.cut? declaration = some ⟨m.name, parameters, tail⟩ ∧
      readParameterList parameters = .ok m.parameters ∧
      Signature.result? ⟨m.name, parameters, tail⟩ = some m.result ∧
      ResultFits owner m.name m.isStatic m.result := by
  rw [read]
  constructor
  · intro h
    split at h
    · cases h
    · rename_i member hmember
      split at h
      · cases h
      · rename_i s hs
        split at h
        · cases h
        · rename_i ps hps
          split at h
          · cases h
          · rename_i result hresult
            split at h
            · cases h
            · rename_i r hr
              cases h
              obtain ⟨hfit, rfl⟩ := checkResult_eq_ok_iff.1 hr
              exact ⟨member.declaration, s.parameters, s.tail, hmember, hs, hps, hresult, hfit⟩
  · rintro ⟨declaration, parameters, tail, hmember, hs, hps, hresult, hfit⟩
    have hcheck : checkResult owner m.name m.isStatic m.result (.malformedSignature line.trim) =
        .ok m.result := checkResult_eq_ok_iff.2 ⟨hfit, rfl⟩
    simp only [hmember, hs, hps, hresult, hcheck]

def texts (m : Method) : List Text :=
  m.name :: (m.parameters.flatMap fun p => [p.name, p.type]) ++ m.result.toList

def memberLine (m : Method) : MemberLine :=
  ⟨m.visibility, m.isStatic,
    m.name ++ '(' :: (writtenParameters m.parameters ++ ')' :: writtenResult m.result)⟩

def written (m : Method) : Text :=
  m.memberLine.written

/-- What holds of every method that a line declares in the block of its owner. -/
structure WellFormed (owner : Text) (m : Method) : Prop where
  name : m.name.isName = true
  parameters : ∀ p ∈ m.parameters, p.WellFormed
  type : ∀ type ∈ m.result, type.TypeLike
  paren : ∀ t ∈ m.texts, t.ParenFree
  result : ResultFits owner m.name m.isStatic m.result

variable {owner : Text} {m : Method}

theorem forall_texts_iff {Q : Text → Prop} :
    (∀ t ∈ m.texts, Q t) ↔
      Q m.name ∧ (∀ p ∈ m.parameters, Q p.name ∧ Q p.type) ∧ ∀ type ∈ m.result, Q type := by
  rw [texts, List.cons_append, List.forall_mem_cons]
  refine and_congr_right fun _ => ?_
  rw [List.forall_mem_append]
  refine and_congr ?_ (by simp)
  simp only [List.forall_mem_flatMap, List.forall_mem_cons, List.not_mem_nil, false_imp_iff,
    implies_true, and_true]

theorem WellFormed.declaration (h : m.WellFormed owner) : m.memberLine.declaration.Declaration := by
  have hmark : ∀ inner last : Text, last.Trimmed → last ≠ [] →
      (m.name ++ '(' :: (inner ++ last)).Declaration :=
    fun inner _ => .of_mark h.name (by decide) (by decide) inner
  rw [memberLine]
  cases hr : m.result with
  | none =>
    have hc : Text.Trimmed [')'] := .of_isName rfl
    exact hmark (writtenParameters m.parameters) [')'] hc (by simp)
  | some type =>
    have ht := h.type type hr
    simpa [writtenResult, ascribe] using
      hmark (writtenParameters m.parameters ++ [')', ':', ' ']) type ht.trimmed ht.nonempty

theorem cut?_declaration (h : m.WellFormed owner) :
    Signature.cut? m.memberLine.declaration =
      some ⟨m.name, writtenParameters m.parameters, writtenResult m.result⟩ := by
  rw [Signature.cut?_eq_some_iff]
  obtain ⟨hn, hp, ht⟩ := forall_texts_iff.1 h.paren
  exact ⟨⟨h.name, hn, writtenParameters_of_joins joins_parenFree hp,
    writtenResult_of_joins joins_parenFree ht⟩, m.name, Text.trim_of_trimmed (.of_isName h.name),
    rfl⟩

theorem read_written (h : m.WellFormed owner) : read owner m.written = .ok m :=
  read_eq_ok_iff.2 ⟨_, _, _, MemberLine.read_written h.declaration, cut?_declaration h,
    readParameterList_writtenParameters h.parameters, result?_writtenResult _ _ h.type, h.result⟩

theorem of_read {line : Text} (h : read owner line = .ok m) :
    m.WellFormed owner ∧ ∀ t ∈ m.texts, t <:+: line := by
  obtain ⟨declaration, parameters, tail, hmember, hs, hps, hresult, hfit⟩ := read_eq_ok_iff.1 h
  have hd : declaration <:+: line := (MemberLine.declaration_of_read hmember).2
  obtain ⟨⟨hn, hnfree, hpfree, htfree⟩, -⟩ := Signature.cut?_eq_some_iff.1 hs
  obtain ⟨hni, hpi, hti⟩ := Signature.isInfix_of_cut? hs
  have hparams : ∀ p ∈ m.parameters,
      p.WellFormed ∧ p.name <:+: parameters ∧ p.type <:+: parameters :=
    fun p hp => of_readParameterList hps hp
  have htype : ∀ type ∈ m.result, type.Trimmed ∧ ':' ∉ type ∧ type <:+: tail := fun type ht =>
    Signature.of_result? (hresult.trans (congrArg some ht))
  refine ⟨⟨hn, fun p hp => (hparams p hp).1, fun type ht => ?_, ?_, hfit⟩, ?_⟩
  · obtain ⟨htrim, hcolon, -⟩ := htype type ht
    exact ⟨(hfit.of_mem ht).1, htrim, hcolon⟩
  · refine forall_texts_iff.2 ⟨hnfree, fun p hp => ?_, fun type ht => ?_⟩
    · obtain ⟨-, hpn, hpt⟩ := hparams p hp
      exact ⟨hpfree.of_isInfix hpn, hpfree.of_isInfix hpt⟩
    · obtain ⟨-, -, hi⟩ := htype type ht
      exact htfree.of_isInfix hi
  · refine forall_texts_iff.2 ⟨hni.trans hd, fun p hp => ?_, fun type ht => ?_⟩
    · obtain ⟨-, hpn, hpt⟩ := hparams p hp
      exact ⟨hpn.trans (hpi.trans hd), hpt.trans (hpi.trans hd)⟩
    · obtain ⟨-, -, hi⟩ := htype type ht
      exact hi.trans (hti.trans hd)

theorem isContent_written (h : m.WellFormed owner) (ht : ∀ t ∈ m.texts, t.Plain) :
    m.written.IsContent := by
  obtain ⟨hn, hp, hr⟩ := forall_texts_iff.1 ht
  have hd : m.memberLine.declaration.Plain := by
    refine (Text.plain_append_cons (by decide) (by decide)).2 ⟨hn, ?_⟩
    exact (Text.plain_append_cons (by decide) (by decide)).2
      ⟨writtenParameters_of_joins joins_plain hp, writtenResult_of_joins joins_plain hr⟩
  exact MemberLine.isContent_written h.declaration hd

end Method

end ClassNotation
