import ClassNotation.Proofs.Text.Trim
import ClassNotation.TypeText

/-! Angle brackets. A text can be cut at its outer commas exactly if its brackets match, and
each part is a text that starts and ends outside brackets and has its commas inside them. -/

namespace ClassNotation

section cutTopLevel

variable (depth : Nat) (t : Text)

theorem cutTopLevel_open :
    cutTopLevel depth ('<' :: t) =
      (cutTopLevel (depth + 1) t).map (List.modifyHead ('<' :: ·)) := by
  cases depth <;> rfl

theorem cutTopLevel_close_zero : cutTopLevel 0 ('>' :: t) = none := rfl

theorem cutTopLevel_close_succ :
    cutTopLevel (depth + 1) ('>' :: t) = (cutTopLevel depth t).map (List.modifyHead ('>' :: ·)) :=
  rfl

theorem cutTopLevel_comma : cutTopLevel 0 (',' :: t) = (cutTopLevel 0 t).map ([] :: ·) := rfl

variable {depth}

theorem cutTopLevel_other {c : Char} (hopen : c ≠ '<') (hclose : c ≠ '>')
    (hcomma : ¬ (c = ',' ∧ depth = 0)) :
    cutTopLevel depth (c :: t) = (cutTopLevel depth t).map (List.modifyHead (c :: ·)) := by
  cases depth with
  | zero =>
    have hc : c ≠ ',' := fun hc => hcomma ⟨hc, rfl⟩
    simp [cutTopLevel, hopen, hclose, hc]
  | succ depth => simp [cutTopLevel, hopen, hclose]

theorem cutTopLevel_append_of_neutral {w : Text}
    (h : ∀ c ∈ w, c ≠ '<' ∧ c ≠ '>' ∧ c ≠ ',') :
    cutTopLevel depth (w ++ t) = (cutTopLevel depth t).map (List.modifyHead (w ++ ·)) := by
  induction w with
  | nil =>
    have hsame : List.modifyHead (([] : Text) ++ ·) = id := by
      funext ps
      cases ps <;> rfl
    rw [hsame, Option.map_id]
    rfl
  | cons c w ih =>
    obtain ⟨⟨hopen, hclose, hcomma⟩, hw⟩ := List.forall_mem_cons.1 h
    rw [List.cons_append, cutTopLevel_other _ hopen hclose fun hc => hcomma hc.1, ih hw,
      Option.map_map]
    congr 1
    funext ps
    cases ps <;> rfl

end cutTopLevel

/-- No beginning closes more brackets than it opens, and as many are closed as opened. -/
def Balanced (t : Text) : Prop :=
  (∀ s, s <+: t → s.count '>' ≤ s.count '<') ∧ t.count '>' = t.count '<'

def BalancedFrom (depth : Nat) (t : Text) : Prop :=
  (∀ s, s <+: t → s.count '>' ≤ depth + s.count '<') ∧ t.count '>' = depth + t.count '<'

theorem balancedFrom_zero {t : Text} : BalancedFrom 0 t ↔ Balanced t := by
  simp [BalancedFrom, Balanced]

theorem balancedFrom_nil {depth : Nat} : BalancedFrom depth [] ↔ depth = 0 := by
  simp [BalancedFrom, eq_comm]

theorem forall_prefix_cons {P : Text → Prop} {c : Char} {t : Text} :
    (∀ s, s <+: c :: t → P s) ↔ P [] ∧ ∀ s, s <+: t → P (c :: s) := by
  constructor
  · intro h
    exact ⟨h [] List.nil_prefix, fun s hs => h (c :: s) (List.cons_prefix_cons.2 ⟨rfl, hs⟩)⟩
  · rintro ⟨hn, hc⟩ s hs
    rcases List.prefix_cons_iff.1 hs with rfl | ⟨u, rfl, hu⟩
    · exact hn
    · exact hc u hu

theorem balancedFrom_open {depth : Nat} {t : Text} :
    BalancedFrom depth ('<' :: t) ↔ BalancedFrom (depth + 1) t := by
  have hcount : ∀ s : Text, ('<' :: s).count '<' = s.count '<' + 1 := by simp
  have hother : ∀ s : Text, ('<' :: s).count '>' = s.count '>' := by simp
  rw [BalancedFrom, BalancedFrom, forall_prefix_cons]
  simp only [hcount, hother, List.count_nil]
  constructor
  · rintro ⟨⟨-, hs⟩, hc⟩
    exact ⟨fun s h => by have := hs s h; omega, by omega⟩
  · rintro ⟨hs, hc⟩
    exact ⟨⟨by omega, fun s h => by have := hs s h; omega⟩, by omega⟩

theorem balancedFrom_close {depth : Nat} {t : Text} :
    BalancedFrom depth ('>' :: t) ↔ 0 < depth ∧ BalancedFrom (depth - 1) t := by
  have hcount : ∀ s : Text, ('>' :: s).count '>' = s.count '>' + 1 := by simp
  have hother : ∀ s : Text, ('>' :: s).count '<' = s.count '<' := by simp
  rw [BalancedFrom, BalancedFrom, forall_prefix_cons]
  simp only [hcount, hother, List.count_nil]
  constructor
  · rintro ⟨⟨-, hs⟩, hc⟩
    have hpos := hs [] List.nil_prefix
    simp only [List.count_nil] at hpos
    exact ⟨by omega, fun s h => by have := hs s h; omega, by omega⟩
  · rintro ⟨hpos, hs, hc⟩
    exact ⟨⟨by omega, fun s h => by have := hs s h; omega⟩, by omega⟩

theorem balancedFrom_other {depth : Nat} {c : Char} {t : Text} (hopen : c ≠ '<')
    (hclose : c ≠ '>') : BalancedFrom depth (c :: t) ↔ BalancedFrom depth t := by
  rw [BalancedFrom, BalancedFrom, forall_prefix_cons]
  simp [hopen, hclose]

theorem cutTopLevel_ne_none_iff {depth : Nat} {t : Text} :
    cutTopLevel depth t ≠ none ↔ BalancedFrom depth t := by
  induction t generalizing depth with
  | nil => cases depth <;> simp [cutTopLevel, balancedFrom_nil]
  | cons c t ih =>
    by_cases hopen : c = '<'
    · subst hopen
      simp [cutTopLevel_open, balancedFrom_open, ← ih]
    by_cases hclose : c = '>'
    · subst hclose
      cases depth with
      | zero => simp [cutTopLevel_close_zero, balancedFrom_close]
      | succ depth => simp [cutTopLevel_close_succ, balancedFrom_close, ← ih]
    by_cases hcomma : c = ',' ∧ depth = 0
    · obtain ⟨rfl, rfl⟩ := hcomma
      simp [cutTopLevel_comma, balancedFrom_other, ← ih]
    · simp [cutTopLevel_other t hopen hclose hcomma, balancedFrom_other hopen hclose, ← ih]

theorem topLevelParts_eq_ok_iff {t : Text} {parts : List Text} :
    topLevelParts t = .ok parts ↔ cutTopLevel 0 t = some parts := by
  rw [topLevelParts]
  cases cutTopLevel 0 t <;> simp

theorem exists_topLevelParts_iff {t : Text} :
    (∃ parts, topLevelParts t = .ok parts) ↔ Balanced t := by
  rw [← balancedFrom_zero, ← cutTopLevel_ne_none_iff, Option.ne_none_iff_exists']
  simp only [topLevelParts_eq_ok_iff]

theorem topLevelParts_eq_error_iff {t : Text} {f : Fault} :
    topLevelParts t = .error f ↔ ¬ Balanced t ∧ f = .unbalancedBrackets t.trim := by
  rw [← exists_topLevelParts_iff, topLevelParts]
  cases cutTopLevel 0 t <;> simp [eq_comm]

theorem checkBrackets_eq_ok_iff {t : Text} : checkBrackets t = .ok () ↔ Balanced t := by
  rw [← exists_topLevelParts_iff, checkBrackets]
  cases topLevelParts t <;> simp [Except.map]

theorem checkBrackets_eq_error_iff {t : Text} {f : Fault} :
    checkBrackets t = .error f ↔ topLevelParts t = .error f := by
  rw [checkBrackets]
  cases topLevelParts t <;> simp [Except.map]

theorem checkBrackets_of_not_balanced {t : Text} (ht : t.Trimmed) (hb : ¬ Balanced t) :
    checkBrackets t = .error (.unbalancedBrackets t) := by
  rw [checkBrackets_eq_error_iff, topLevelParts_eq_error_iff, Text.trim_of_trimmed ht]
  exact ⟨hb, rfl⟩

/-- The number of brackets that are open behind a text at whose beginning some are open. There is
none behind a bracket that closes nothing, nor behind a comma outside brackets. -/
def depthBehind : Nat → Text → Option Nat
  | depth, [] => some depth
  | depth, c :: t =>
    if c = '<' then depthBehind (depth + 1) t
    else if c = '>' then if depth = 0 then none else depthBehind (depth - 1) t
    else if c = ',' ∧ depth = 0 then none
    else depthBehind depth t

theorem depthBehind_append (depth : Nat) (a b : Text) :
    depthBehind depth (a ++ b) = (depthBehind depth a).bind (depthBehind · b) := by
  induction a generalizing depth with
  | nil => rfl
  | cons c a ih =>
    simp only [List.cons_append, depthBehind, ih]
    split
    · rfl
    · split
      · split <;> rfl
      · split <;> rfl

theorem depthBehind_of_neutral {t : Text} (h : ∀ c ∈ t, c ≠ '<' ∧ c ≠ '>' ∧ c ≠ ',')
    (depth : Nat) : depthBehind depth t = some depth := by
  induction t with
  | nil => rfl
  | cons c t ih =>
    obtain ⟨hopen, hclose, hcomma⟩ := h c List.mem_cons_self
    have ht := ih fun x hx => h x (List.mem_cons_of_mem _ hx)
    simp [depthBehind, hopen, hclose, hcomma, ht]

theorem depthBehind_of_allBlank {t : Text} (h : t.AllBlank) (depth : Nat) :
    depthBehind depth t = some depth := by
  refine depthBehind_of_neutral (fun c hc => ⟨?_, ?_, ?_⟩) depth
  all_goals
    rintro rfl
    exact absurd (h _ hc) (by decide)

theorem depthBehind_trim (depth : Nat) (t : Text) :
    depthBehind depth t.trim = depthBehind depth t := by
  obtain ⟨-, a, b, ha, hb, ht⟩ := Text.trim_eq_iff.1 (rfl : t.trim = t.trim)
  have hb' : (depthBehind · b) = some := funext (depthBehind_of_allBlank hb)
  have h : depthBehind depth (a ++ t.trim ++ b) = depthBehind depth t.trim := by
    rw [depthBehind_append, depthBehind_append, depthBehind_of_allBlank ha, hb',
      Option.bind_some, Option.bind_fun_some]
  rw [← h, ← ht]

theorem count_of_depthBehind {depth k : Nat} {t : Text} (h : depthBehind depth t = some k) :
    depth + t.count '<' = k + t.count '>' := by
  induction t generalizing depth with
  | nil =>
    have hk : depth = k := by simpa [depthBehind] using h
    simp [hk]
  | cons c t ih =>
    rw [depthBehind] at h
    split at h
    · rename_i hc
      have hi := ih h
      simp only [hc, List.count_cons_self, List.count_cons_of_ne (by decide : ('<' : Char) ≠ '>')]
      omega
    · rename_i hopen
      split at h
      · rename_i hc
        split at h
        · cases h
        · have hi := ih h
          simp only [hc, List.count_cons_self,
            List.count_cons_of_ne (by decide : ('>' : Char) ≠ '<')]
          omega
      · rename_i hclose
        split at h
        · cases h
        · rw [List.count_cons_of_ne hopen, List.count_cons_of_ne hclose]
          exact ih h

theorem map_modifyHead_cons (c : Char) (a : Text) (parts : Option (List Text)) :
    (parts.map (a :: ·)).map (List.modifyHead (c :: ·)) = parts.map ((c :: a) :: ·) := by
  cases parts <;> rfl

theorem cutTopLevel_of_depthBehind {depth : Nat} {a : Text} (h : depthBehind depth a = some 0) :
    cutTopLevel depth a = some [a] ∧
      ∀ t, cutTopLevel depth (a ++ ',' :: t) = (cutTopLevel 0 t).map (a :: ·) := by
  induction a generalizing depth with
  | nil =>
    obtain rfl : depth = 0 := by simpa [depthBehind] using h
    exact ⟨rfl, cutTopLevel_comma⟩
  | cons c a ih =>
    rw [depthBehind] at h
    split at h
    · rename_i hc
      obtain ⟨hone, hmore⟩ := ih h
      simp only [hc, List.cons_append, cutTopLevel_open, hone, hmore, map_modifyHead_cons]
      exact ⟨rfl, fun _ => trivial⟩
    · rename_i hopen
      split at h
      · rename_i hc
        split at h
        · cases h
        · rename_i hd
          obtain ⟨depth, rfl⟩ := Nat.exists_eq_succ_of_ne_zero hd
          obtain ⟨hone, hmore⟩ := ih h
          rw [Nat.succ_sub_one] at hone hmore
          simp only [hc, List.cons_append, cutTopLevel_close_succ, hone, hmore, map_modifyHead_cons]
          exact ⟨rfl, fun _ => trivial⟩
      · rename_i hclose
        split at h
        · cases h
        · rename_i hcomma
          obtain ⟨hone, hmore⟩ := ih h
          simp only [List.cons_append, cutTopLevel_other _ hopen hclose hcomma, hone, hmore,
            map_modifyHead_cons]
          exact ⟨rfl, fun _ => trivial⟩

theorem checkBrackets_of_depthBehind {t : Text} (h : depthBehind 0 t = some 0) :
    checkBrackets t = .ok () := by
  rw [checkBrackets_eq_ok_iff, ← balancedFrom_zero, ← cutTopLevel_ne_none_iff,
    (cutTopLevel_of_depthBehind h).1]
  simp

theorem cutTopLevel_cons {depth : Nat} {c : Char} {t : Text} {parts : List Text}
    (h : cutTopLevel depth (c :: t) = some parts) :
    (∃ depth' ps, cutTopLevel depth' t = some ps ∧ parts = ps.modifyHead (c :: ·) ∧
      ∀ u, depthBehind depth (c :: u) = depthBehind depth' u) ∨
    ∃ ps, c = ',' ∧ depth = 0 ∧ cutTopLevel 0 t = some ps ∧ parts = [] :: ps := by
  by_cases hopen : c = '<'
  · subst hopen
    rw [cutTopLevel_open, Option.map_eq_some_iff] at h
    obtain ⟨ps, hps, rfl⟩ := h
    exact .inl ⟨depth + 1, ps, hps, rfl, fun _ => rfl⟩
  by_cases hclose : c = '>'
  · subst hclose
    cases depth with
    | zero => cases h
    | succ depth =>
      rw [cutTopLevel_close_succ, Option.map_eq_some_iff] at h
      obtain ⟨ps, hps, rfl⟩ := h
      exact .inl ⟨depth, ps, hps, rfl, fun _ => rfl⟩
  by_cases hcomma : c = ',' ∧ depth = 0
  · obtain ⟨rfl, rfl⟩ := hcomma
    rw [cutTopLevel_comma, Option.map_eq_some_iff] at h
    obtain ⟨ps, hps, rfl⟩ := h
    exact .inr ⟨ps, rfl, rfl, hps, rfl⟩
  · rw [cutTopLevel_other t hopen hclose hcomma, Option.map_eq_some_iff] at h
    obtain ⟨ps, hps, rfl⟩ := h
    refine .inl ⟨depth, ps, hps, rfl, fun u => ?_⟩
    rw [depthBehind, if_neg hopen, if_neg hclose, if_neg hcomma]

/-- Every part of a list starts and ends outside brackets, but the first starts at the depth at
which the list does. Nothing is lost between the parts but the commas. -/
theorem parts_of_cutTopLevel {depth : Nat} {t : Text} {parts : List Text}
    (h : cutTopLevel depth t = some parts) :
    [','].intercalate parts = t ∧ ∃ first rest, parts = first :: rest ∧
      depthBehind depth first = some 0 ∧ ∀ part ∈ rest, depthBehind 0 part = some 0 := by
  induction t generalizing depth parts with
  | nil =>
    cases depth with
    | zero =>
      obtain rfl := Option.some.inj h
      exact ⟨rfl, [], [], rfl, rfl, by simp⟩
    | succ depth => cases h
  | cons c t ih =>
    rcases cutTopLevel_cons h with ⟨depth', ps, hps, rfl, hd⟩ | ⟨ps, rfl, rfl, hps, rfl⟩
    · obtain ⟨hi, first, rest, rfl, hfirst, hrest⟩ := ih hps
      refine ⟨?_, c :: first, rest, rfl, (hd first).trans hfirst, hrest⟩
      rw [List.modifyHead_cons, List.intercalate_cons_cons_left, hi]
    · obtain ⟨hi, first, rest, rfl, hfirst, hrest⟩ := ih hps
      refine ⟨?_, [], first :: rest, rfl, rfl, List.forall_mem_cons.2 ⟨hfirst, hrest⟩⟩
      rw [List.intercalate_cons_cons, hi]
      rfl

theorem isInfix_intercalate {sep part : Text} {parts : List Text} (h : part ∈ parts) :
    part <:+: sep.intercalate parts := by
  induction parts with
  | nil => simp at h
  | cons first parts ih =>
    cases parts with
    | nil => simp_all
    | cons next parts =>
      rw [List.intercalate_cons_cons]
      rcases List.mem_cons.1 h with rfl | h
      · rw [List.append_assoc]
        exact (List.prefix_append _ _).isInfix
      · exact (ih h).trans (List.suffix_append _ _).isInfix

theorem depthBehind_of_mem_cutTopLevel {t part : Text} {parts : List Text}
    (h : cutTopLevel 0 t = some parts) (hp : part ∈ parts) : depthBehind 0 part = some 0 := by
  obtain ⟨-, first, rest, rfl, hfirst, hrest⟩ := parts_of_cutTopLevel h
  rcases List.mem_cons.1 hp with rfl | hp
  · exact hfirst
  · exact hrest part hp

theorem cutTopLevel_intercalate {parts : List Text} (hn : parts ≠ [])
    (h : ∀ part ∈ parts, depthBehind 0 part = some 0) :
    cutTopLevel 0 ([','].intercalate parts) = some parts := by
  induction parts with
  | nil => exact absurd rfl hn
  | cons part parts ih =>
    obtain ⟨hone, hmore⟩ := cutTopLevel_of_depthBehind (h part List.mem_cons_self)
    cases parts with
    | nil => simpa using hone
    | cons next parts =>
      have hnext := ih (by simp) fun x hx => h x (List.mem_cons_of_mem _ hx)
      simp only [List.intercalate_cons_cons, List.append_assoc, List.singleton_append, hmore, hnext,
        Option.map_some]

end ClassNotation
