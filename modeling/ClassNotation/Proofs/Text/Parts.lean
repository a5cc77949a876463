import ClassNotation.Proofs.Text.Trim

/-! The parts into which a text is cut: the words between its blanks, what stands in front of
the first blank, and the pieces between the occurrences of one character. Parts are put together
again with a separator between them. -/

namespace ClassNotation

namespace Text

theorem cutAt?_append_cons {p : Char → Bool} {a : Text} (ha : ∀ c ∈ a, p c = false)
    {c : Char} (hc : p c = true) (b : Text) : cutAt? p (a ++ c :: b) = some (a, b) :=
  cutAt?_eq_some_iff.2 ⟨ha, c, hc, rfl⟩

theorem isInfix_of_cutAt? {p : Char → Bool} {t a b : Text} (h : cutAt? p t = some (a, b)) :
    a <:+: t ∧ b <:+: t := by
  obtain ⟨-, c, -, rfl⟩ := cutAt?_eq_some_iff.1 h
  exact ⟨(List.prefix_append a (c :: b)).isInfix,
    ⟨a ++ [c], [], by simp⟩⟩

theorem mem_of_cutAt?_append_cons {p : Char → Bool} {a b front behind : Text} {c : Char}
    (ha : ∀ x ∈ a, p x = false) (hc : p c = false)
    (h : cutAt? p (a ++ c :: b) = some (front, behind)) : c ∈ front := by
  obtain ⟨-, d, hd, he⟩ := cutAt?_eq_some_iff.1 h
  rcases List.append_eq_append_iff.1 he with ⟨s, rfl, hs⟩ | ⟨s, rfl, hs⟩
  · cases s with
    | nil =>
      obtain ⟨rfl, -⟩ := List.cons.inj hs
      simp [hc] at hd
    | cons x s =>
      obtain ⟨rfl, -⟩ := List.cons.inj hs
      simp
  · cases s with
    | nil =>
      obtain ⟨rfl, -⟩ := List.cons.inj hs
      simp [hc] at hd
    | cons x s =>
      obtain ⟨rfl, -⟩ := List.cons.inj hs
      have hx := ha d (by simp)
      simp [hx] at hd

theorem exists_splitOnP (p : Char → Bool) (t : Text) :
    ∃ first rest, t.splitOnP p = first :: rest ∧ first <+: t ∧
      (∀ c ∈ first, p c = false) ∧ ∀ w ∈ rest, w <:+: t ∧ ∀ c ∈ w, p c = false := by
  induction t with
  | nil => exact ⟨[], [], rfl, List.prefix_rfl, by simp, by simp⟩
  | cons c t ih =>
    obtain ⟨first, rest, he, hfirst, hp, hrest⟩ := ih
    rw [List.splitOnP_cons_eq_if_modifyHead, he]
    have hrest' : ∀ w ∈ rest, w <:+: c :: t ∧ ∀ x ∈ w, p x = false :=
      fun w hw => ⟨List.infix_cons (hrest w hw).1, (hrest w hw).2⟩
    by_cases hc : p c = true
    · refine ⟨[], first :: rest, by simp [hc], List.nil_prefix, by simp, ?_⟩
      intro w hw
      rcases List.mem_cons.1 hw with rfl | hw
      · exact ⟨List.infix_cons hfirst.isInfix, hp⟩
      · exact hrest' w hw
    · refine ⟨c :: first, rest, by simp [hc], List.cons_prefix_cons.2 ⟨rfl, hfirst⟩, ?_, hrest'⟩
      intro x hx
      rcases List.mem_cons.1 hx with rfl | hx
      · exact Bool.eq_false_iff.2 hc
      · exact hp x hx

theorem mem_splitOnP {p : Char → Bool} {t w : Text} (h : w ∈ t.splitOnP p) :
    w <:+: t ∧ ∀ c ∈ w, p c = false := by
  obtain ⟨first, rest, he, hfirst, hp, hrest⟩ := exists_splitOnP p t
  rw [he] at h
  rcases List.mem_cons.1 h with rfl | h
  · exact ⟨hfirst.isInfix, hp⟩
  · exact hrest w h

theorem mem_splitOn {x : Char} {t w : Text} (h : w ∈ t.splitOn x) : w <:+: t ∧ x ∉ w := by
  rw [List.splitOn_eq_splitOnP] at h
  obtain ⟨hi, hw⟩ := mem_splitOnP h
  exact ⟨hi, fun hx => by simpa using hw x hx⟩

theorem splitOn_intercalate (x : Char) {ts : List Text} (hn : ts ≠ []) :
    ([x].intercalate ts).splitOn x = ts.flatMap (·.splitOn x) := by
  induction ts with
  | nil => exact absurd rfl hn
  | cons t ts ih =>
    cases ts with
    | nil => simp
    | cons u ts =>
      rw [List.intercalate_cons_cons, List.append_assoc, List.singleton_append,
        List.splitOn_append_cons_self, ih (by simp)]
      rfl

theorem cutWord_append_cons {w : Text} (hw : ∀ c ∈ w, isBlank c = false) {c : Char}
    (hc : isBlank c = true) (rest : Text) : cutWord (w ++ c :: rest) = (w, rest) := by
  rw [cutWord, cutAt?_append_cons hw hc]
  rfl

theorem cutWord_eq {t w rest : Text} (h : cutWord t = (w, rest)) :
    (∀ c ∈ w, isBlank c = false) ∧
      (t = w ∧ rest = [] ∨ ∃ c, isBlank c = true ∧ t = w ++ c :: rest) := by
  rw [cutWord] at h
  cases hc : cutAt? isBlank t with
  | none =>
    simp only [hc, Option.getD_none, Prod.mk.injEq] at h
    obtain ⟨rfl, rfl⟩ := h
    exact ⟨cutAt?_eq_none_iff.1 hc, .inl ⟨rfl, rfl⟩⟩
  | some cut =>
    simp only [hc, Option.getD_some] at h
    subst h
    obtain ⟨hw, c, hb, ht⟩ := cutAt?_eq_some_iff.1 hc
    exact ⟨hw, .inr ⟨c, hb, ht⟩⟩

theorem isInfix_of_cutWord {t w rest : Text} (h : cutWord t = (w, rest)) : rest <:+: t := by
  rcases (cutWord_eq h).2 with ⟨-, rfl⟩ | ⟨c, -, rfl⟩
  · exact List.nil_infix
  · exact ⟨w ++ [c], [], by simp⟩

theorem word_isInfix_of_cutWord {t w rest : Text} (h : cutWord t = (w, rest)) : w <:+: t := by
  rcases (cutWord_eq h).2 with ⟨rfl, -⟩ | ⟨c, -, rfl⟩
  · exact List.infix_rfl
  · exact (List.prefix_append w _).isInfix

theorem words_append_cons (a b : Text) {c : Char} (hc : isBlank c = true) :
    words (a ++ c :: b) = words a ++ words b := by
  simp [words, List.splitOnP_append_cons a b hc]

theorem words_of_isName {w : Text} (hw : w.isName = true) : words w = [w] := by
  obtain ⟨hne, hb⟩ := isName_iff.1 hw
  simp [words, List.splitOnP_eq_singleton hb, hne]

theorem words_blank_append {b : Text} (hb : AllBlank b) (t : Text) : words (b ++ t) = words t := by
  induction b with
  | nil => rfl
  | cons c b ih =>
    have h := words_append_cons [] (b ++ t) (hb c List.mem_cons_self)
    rw [List.nil_append] at h
    rw [List.cons_append, h, ih fun x hx => hb x (List.mem_cons_of_mem _ hx)]
    rfl

theorem words_append_blank (t : Text) {b : Text} (hb : AllBlank b) : words (t ++ b) = words t := by
  cases b with
  | nil => rw [List.append_nil]
  | cons c b =>
    have hrest := words_blank_append (fun x hx => hb x (List.mem_cons_of_mem _ hx)) []
    rw [List.append_nil] at hrest
    rw [words_append_cons t b (hb c List.mem_cons_self), hrest]
    exact List.append_nil _

theorem words_trim (t : Text) : words t.trim = words t := by
  obtain ⟨-, a, b, ha, hb, he⟩ := trim_eq_iff.1 (rfl : t.trim = t.trim)
  have h := (words_append_blank (a ++ t.trim) hb).trans (words_blank_append ha t.trim)
  rw [← he] at h
  exact h.symm

theorem mem_words {t w : Text} (h : w ∈ words t) : w <:+: t ∧ w.isName = true := by
  rw [words, List.mem_filter, decide_eq_true_eq] at h
  obtain ⟨hi, hb⟩ := mem_splitOnP h.1
  exact ⟨hi, isName_iff.2 ⟨h.2, hb⟩⟩

def firstWord (t : Text) : Text :=
  (words t).head?.getD []

theorem firstWord_trim (t : Text) : firstWord t.trim = firstWord t := by
  rw [firstWord, words_trim, firstWord]

theorem firstWord_isInfix (t : Text) : firstWord t <:+: t := by
  rw [firstWord]
  cases hw : words t with
  | nil => exact List.nil_infix
  | cons w ws =>
    have hmem : w ∈ words t := by simp [hw]
    exact (mem_words hmem).1

/-- A text that starts with no blank starts with its first word. -/
theorem words_of_cutAt? {t a b : Text} (ht : ∀ c ∈ t.head?, isBlank c = false)
    (h : cutAt? isBlank t = some (a, b)) : a.isName = true ∧ words t = a :: words b := by
  obtain ⟨ha, c, hc, rfl⟩ := cutAt?_eq_some_iff.1 h
  have hne : a ≠ [] := by
    rintro rfl
    have hcf : isBlank c = false := ht c (by simp)
    simp [hc] at hcf
  have hn := isName_iff.2 ⟨hne, ha⟩
  exact ⟨hn, by rw [words_append_cons a b hc, words_of_isName hn]; rfl⟩

theorem isName_of_cutAt? {t : Text} (hn : t ≠ []) (h : cutAt? isBlank t = none) :
    t.isName = true :=
  isName_iff.2 ⟨hn, cutAt?_eq_none_iff.1 h⟩

theorem cutWord_of_trimmed {t : Text} (h : Trimmed t) : (cutWord t).1 = firstWord t := by
  rw [cutWord, firstWord]
  cases hc : cutAt? isBlank t with
  | none =>
    by_cases hn : t = []
    · rw [hn]
      rfl
    · rw [words_of_isName (isName_of_cutAt? hn hc)]
      rfl
  | some cut =>
    rw [(words_of_cutAt? h.head hc).2]
    rfl

theorem exists_append_of_words_eq_cons {t w : Text} {ws : List Text}
    (ht : ∀ c ∈ t.head?, isBlank c = false) (h : words t = w :: ws) :
    ∃ rest, t = w ++ rest ∧ ∀ c ∈ rest.head?, isBlank c = true := by
  cases hc : cutAt? isBlank t with
  | none =>
    have hne : t ≠ [] := by
      rintro rfl
      simp [words] at h
    rw [words_of_isName (isName_of_cutAt? hne hc)] at h
    obtain ⟨rfl, -⟩ := List.cons.inj h
    exact ⟨[], by simp, by simp⟩
  | some cut =>
    obtain ⟨a, b⟩ := cut
    rw [(words_of_cutAt? ht hc).2] at h
    obtain ⟨rfl, -⟩ := List.cons.inj h
    obtain ⟨-, c, hb, rfl⟩ := cutAt?_eq_some_iff.1 hc
    exact ⟨c :: b, rfl, by simpa using hb⟩

theorem intercalate_cons (sep first : Text) (rest : List Text) :
    sep.intercalate (first :: rest) = first ++ rest.flatMap (sep ++ ·) := by
  induction rest generalizing first with
  | nil => simp
  | cons next rest ih =>
    rw [List.intercalate_cons_cons, ih, List.flatMap_cons, List.append_assoc, List.append_assoc]

theorem intercalate_of_join {Q : Text → Prop} (hnil : Q []) {sep : Text}
    (hjoin : ∀ a b, Q a → Q b → Q (a ++ sep ++ b)) {parts : List Text}
    (h : ∀ part ∈ parts, Q part) : Q (sep.intercalate parts) := by
  induction parts with
  | nil => exact hnil
  | cons part parts ih =>
    obtain ⟨hpart, hparts⟩ := List.forall_mem_cons.1 h
    by_cases hn : parts = []
    · simpa [hn] using hpart
    · rw [List.intercalate_cons_of_ne_nil hn]
      exact hjoin part _ hpart (ih hparts)

end Text

end ClassNotation
