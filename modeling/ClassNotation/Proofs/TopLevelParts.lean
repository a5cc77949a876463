import ClassNotation.Proofs.Brackets

/-! Texts cut at their outer commas. Where brackets match there is one way to cut so that every part
matches too and keeps its own commas inside brackets, and it is the way that is taken. -/

namespace ClassNotation

/-- At no comma are as many brackets closed as opened. -/
def CommasInside (t : Text) : Prop :=
  ∀ front behind, t = front ++ ',' :: behind → front.count '<' ≠ front.count '>'

def CommasInsideFrom (depth : Nat) (t : Text) : Prop :=
  ∀ front behind, t = front ++ ',' :: behind → depth + front.count '<' ≠ front.count '>'

theorem commasInsideFrom_zero {t : Text} : CommasInsideFrom 0 t ↔ CommasInside t := by
  simp [CommasInsideFrom, CommasInside]

theorem commasInsideFrom_nil {depth : Nat} : CommasInsideFrom depth [] := by
  simp [CommasInsideFrom]

theorem commasInsideFrom_cons {depth : Nat} {c : Char} {t : Text} :
    CommasInsideFrom depth (c :: t) ↔ (c = ',' → depth ≠ 0) ∧
      ∀ front behind, t = front ++ ',' :: behind →
        depth + (c :: front).count '<' ≠ (c :: front).count '>' := by
  constructor
  · intro h
    refine ⟨fun hc => ?_, fun front behind ht => h (c :: front) behind (by rw [ht]; rfl)⟩
    simpa using h [] t (by rw [hc]; rfl)
  · rintro ⟨hc, ht⟩ front behind he
    cases front with
    | nil =>
      obtain ⟨rfl, -⟩ := List.cons.inj he
      simpa using hc rfl
    | cons x front =>
      rw [List.cons_append, List.cons.injEq] at he
      obtain ⟨rfl, he⟩ := he
      exact ht front behind he

theorem commasInsideFrom_open {depth : Nat} {t : Text} :
    CommasInsideFrom depth ('<' :: t) ↔ CommasInsideFrom (depth + 1) t := by
  have hcount : ∀ s : Text, depth + ('<' :: s).count '<' ≠ ('<' :: s).count '>' ↔
      depth + 1 + s.count '<' ≠ s.count '>' := by
    intro s
    rw [List.count_cons_self, List.count_cons_of_ne (by decide)]
    omega
  rw [commasInsideFrom_cons, CommasInsideFrom]
  simp only [hcount]
  exact and_iff_right (fun hc => absurd hc (by decide))

theorem commasInsideFrom_close {depth : Nat} {t : Text} :
    CommasInsideFrom (depth + 1) ('>' :: t) ↔ CommasInsideFrom depth t := by
  have hcount : ∀ s : Text, depth + 1 + ('>' :: s).count '<' ≠ ('>' :: s).count '>' ↔
      depth + s.count '<' ≠ s.count '>' := by
    intro s
    rw [List.count_cons_self, List.count_cons_of_ne (by decide)]
    omega
  rw [commasInsideFrom_cons, CommasInsideFrom]
  simp only [hcount]
  exact and_iff_right (fun hc => absurd hc (by decide))

theorem commasInsideFrom_other {depth : Nat} {c : Char} {t : Text} (hopen : c ≠ '<')
    (hclose : c ≠ '>') :
    CommasInsideFrom depth (c :: t) ↔ ¬ (c = ',' ∧ depth = 0) ∧ CommasInsideFrom depth t := by
  rw [commasInsideFrom_cons, CommasInsideFrom, not_and]
  simp only [List.count_cons_of_ne hopen, List.count_cons_of_ne hclose]

theorem depthBehind_eq_zero_iff {depth : Nat} {t : Text} :
    depthBehind depth t = some 0 ↔ BalancedFrom depth t ∧ CommasInsideFrom depth t := by
  induction t generalizing depth with
  | nil => simp [depthBehind, balancedFrom_nil, commasInsideFrom_nil]
  | cons c t ih =>
    rw [depthBehind]
    split
    · rename_i hopen
      rw [hopen, balancedFrom_open, commasInsideFrom_open]
      exact ih
    · rename_i hopen
      split
      · rename_i hclose
        rw [hclose, balancedFrom_close]
        cases depth with
        | zero => simp
        | succ depth =>
          rw [commasInsideFrom_close]
          simpa using ih
      · rename_i hclose
        rw [balancedFrom_other hopen hclose, commasInsideFrom_other hopen hclose]
        split
        · rename_i hcomma
          simp [hcomma]
        · rename_i hcomma
          simp only [hcomma, not_false_eq_true, true_and]
          exact ih

theorem cutTopLevel_eq_some_iff {t : Text} {parts : List Text} :
    cutTopLevel 0 t = some parts ↔
      parts ≠ [] ∧ [','].intercalate parts = t ∧ ∀ part ∈ parts, depthBehind 0 part = some 0 := by
  constructor
  · intro h
    refine ⟨?_, (parts_of_cutTopLevel h).1, fun part => depthBehind_of_mem_cutTopLevel h⟩
    obtain ⟨-, first, rest, rfl, -⟩ := parts_of_cutTopLevel h
    simp
  · rintro ⟨hn, rfl, hparts⟩
    exact cutTopLevel_intercalate hn hparts

/-- A text is cut exactly if its brackets match. The parts are the only ones, one at least, that
join to the text, match and have no comma outside brackets. -/
theorem topLevelParts_lossless (t : Text) :
    ((∃ parts, topLevelParts t = .ok parts) ↔ Balanced t) ∧
    (∀ parts, topLevelParts t = .ok parts ↔
      parts ≠ [] ∧ [','].intercalate parts = t ∧
        ∀ part ∈ parts, Balanced part ∧ CommasInside part) ∧
    (∀ f, topLevelParts t = .error f ↔ ¬ Balanced t ∧ f = .unbalancedBrackets t.trim) ∧
    (checkBrackets t = .ok () ↔ ∃ parts, topLevelParts t = .ok parts) ∧
    ∀ f, checkBrackets t = .error f ↔ topLevelParts t = .error f := by
  refine ⟨exists_topLevelParts_iff, fun parts => ?_, fun f => topLevelParts_eq_error_iff, ?_,
    fun f => checkBrackets_eq_error_iff⟩
  · simp only [topLevelParts_eq_ok_iff, cutTopLevel_eq_some_iff, depthBehind_eq_zero_iff,
      balancedFrom_zero, commasInsideFrom_zero]
  · rw [checkBrackets_eq_ok_iff, exists_topLevelParts_iff]

end ClassNotation
