import ClassNotation.Text.Blank
import Mathlib.Data.List.TakeWhile

/-! Blanks at the ends of a text. Every text is its trimmed form between two runs of blanks,
and it can be cut that way only once. -/

namespace ClassNotation

namespace Text

def AllBlank (t : Text) : Prop :=
  ∀ c ∈ t, isBlank c = true

/-- Blanks that keep texts apart, one at least. -/
structure Gap (t : Text) : Prop where
  nonempty : t ≠ []
  blank : AllBlank t

structure Trimmed (t : Text) : Prop where
  head : ∀ c ∈ t.head?, isBlank c = false
  last : ∀ c ∈ t.getLast?, isBlank c = false

theorem AllBlank.nil : AllBlank [] := by
  simp [AllBlank]

theorem AllBlank.singleton {c : Char} (h : isBlank c = true) : AllBlank [c] := by
  simpa [AllBlank] using h

theorem AllBlank.space : AllBlank [' '] :=
  .singleton rfl

theorem AllBlank.append {a b : Text} (ha : AllBlank a) (hb : AllBlank b) : AllBlank (a ++ b) :=
  fun c hc => (List.mem_append.1 hc).elim (ha c) (hb c)

theorem AllBlank.not_mem {t : Text} (h : AllBlank t) {c : Char} (hc : isBlank c = false) :
    c ∉ t := by
  intro hm
  simp [h c hm] at hc

theorem AllBlank.slash_not_mem {t : Text} (h : AllBlank t) : '/' ∉ t :=
  h.not_mem rfl

theorem AllBlank.getLast?_ne_slash {t : Text} (h : AllBlank t) : t.getLast? ≠ some '/' :=
  fun hl => h.slash_not_mem (List.mem_of_getLast? hl)

theorem Trimmed.nil : Trimmed [] :=
  ⟨by simp, by simp⟩

theorem Trimmed.of_no_blank {t : Text} (h : ∀ c ∈ t, isBlank c = false) : Trimmed t :=
  ⟨fun c hc => h c (List.mem_of_mem_head? hc), fun c hc => h c (List.mem_of_getLast? hc)⟩

theorem Trimmed.of_isName {t : Text} (h : t.isName = true) : Trimmed t :=
  .of_no_blank (isName_iff.1 h).2

theorem Trimmed.surround {a b : Text} (ha : Trimmed a) (ha' : a ≠ []) (m : Text)
    (hb : Trimmed b) (hb' : b ≠ []) : Trimmed (a ++ m ++ b) := by
  constructor
  · intro c hc
    obtain ⟨x, a, rfl⟩ := List.exists_cons_of_ne_nil ha'
    exact ha.head c (by simpa using hc)
  · intro c hc
    obtain ⟨b, x, rfl⟩ := (List.eq_nil_or_concat b).resolve_left hb'
    exact hb.last c (by simpa using hc)

theorem trimStart_of_head {t : Text} (h : ∀ c ∈ t.head?, isBlank c = false) :
    trimStart t = t := by
  cases t with
  | nil => rfl
  | cons c t =>
    have hc : isBlank c = false := h c (by simp)
    simp [trimStart, hc]

theorem trimEnd_of_last {t : Text} (h : ∀ c ∈ t.getLast?, isBlank c = false) :
    trimEnd t = t := by
  have hr := trimStart_of_head (t := t.reverse) (by simpa using h)
  rw [trimStart] at hr
  rw [trimEnd, hr, List.reverse_reverse]

theorem trimStart_append {a : Text} (ha : AllBlank a) (t : Text) :
    trimStart (a ++ t) = trimStart t :=
  List.dropWhile_append_of_pos ha

theorem trimEnd_append (t : Text) {b : Text} (hb : AllBlank b) :
    trimEnd (t ++ b) = trimEnd t := by
  have hb' : ∀ c ∈ b.reverse, isBlank c = true := fun c hc => hb c (by simpa using hc)
  simp [trimEnd, List.dropWhile_append_of_pos hb']

theorem exists_append_trimStart (t : Text) : ∃ a, AllBlank a ∧ t = a ++ trimStart t :=
  ⟨t.takeWhile isBlank, fun _ hc => List.all_eq_true.1 List.all_takeWhile _ hc,
    List.takeWhile_append_dropWhile.symm⟩

theorem exists_trimEnd_append (t : Text) : ∃ b, AllBlank b ∧ t = trimEnd t ++ b := by
  obtain ⟨a, ha, h⟩ := exists_append_trimStart t.reverse
  refine ⟨a.reverse, fun c hc => ha c (by simpa using hc), ?_⟩
  have hr := congrArg List.reverse h
  simpa [trimEnd, trimStart] using hr

theorem isBlank_of_mem_head?_trimStart {t : Text} {c : Char} (h : c ∈ (trimStart t).head?) :
    isBlank c = false := by
  have hn := List.head?_dropWhile_not isBlank t
  rw [trimStart, Option.mem_def] at h
  simpa [h] using hn

theorem isBlank_of_mem_getLast?_trimEnd {t : Text} {c : Char} (h : c ∈ (trimEnd t).getLast?) :
    isBlank c = false := by
  refine isBlank_of_mem_head?_trimStart (t := t.reverse) ?_
  simpa [trimEnd, trimStart] using h

theorem trimmed_trim (t : Text) : Trimmed t.trim := by
  refine ⟨fun c hc => ?_, fun c hc => isBlank_of_mem_getLast?_trimEnd hc⟩
  obtain ⟨b, -, hb⟩ := exists_trimEnd_append t.trimStart
  have hne : t.trim ≠ [] := by
    intro he
    simp [he] at hc
  obtain ⟨x, u, hx⟩ := List.exists_cons_of_ne_nil hne
  apply isBlank_of_mem_head?_trimStart (t := t)
  rw [hb, ← trim, hx]
  simpa [hx] using hc

theorem trim_of_trimmed {t : Text} (h : Trimmed t) : t.trim = t := by
  rw [trim, trimStart_of_head h.head, trimEnd_of_last h.last]

theorem trim_append {a t b : Text} (ha : AllBlank a) (ht : Trimmed t) (hb : AllBlank b) :
    (a ++ t ++ b).trim = t := by
  rw [trim, List.append_assoc, trimStart_append ha]
  by_cases hn : t = []
  · have hs : trimStart b = [] := by
      rw [trimStart, List.dropWhile_eq_nil_iff]
      exact hb
    simp [hn, hs, trimEnd]
  · have hh : ∀ c ∈ (t ++ b).head?, isBlank c = false := by
      obtain ⟨x, t, rfl⟩ := List.exists_cons_of_ne_nil hn
      simpa using ht.head
    rw [trimStart_of_head hh, trimEnd_append t hb, trimEnd_of_last ht.last]

theorem trim_append_of_trimmed {a t : Text} (ha : AllBlank a) (ht : Trimmed t) :
    (a ++ t).trim = t := by
  simpa using trim_append ha ht (b := []) .nil

/-- The trimmed form is the only trimmed text that stands between blanks. -/
theorem trim_eq_iff {t u : Text} :
    t.trim = u ↔ Trimmed u ∧ ∃ a b, AllBlank a ∧ AllBlank b ∧ t = a ++ u ++ b := by
  constructor
  · rintro rfl
    obtain ⟨a, ha, ht⟩ := exists_append_trimStart t
    obtain ⟨b, hb, hs⟩ := exists_trimEnd_append t.trimStart
    refine ⟨trimmed_trim t, a, b, ha, hb, ?_⟩
    rw [trim, List.append_assoc, ← hs, ← ht]
  · rintro ⟨hu, a, b, ha, hb, rfl⟩
    exact trim_append ha hu hb

theorem trim_append_left {a : Text} (ha : AllBlank a) (t : Text) : (a ++ t).trim = t.trim := by
  rw [trim, trim, trimStart_append ha]

theorem trim_append_right (t : Text) {b : Text} (hb : AllBlank b) : (t ++ b).trim = t.trim := by
  obtain ⟨hu, a, c, ha, hc, ht⟩ := trim_eq_iff.1 (rfl : t.trim = t.trim)
  refine trim_eq_iff.2 ⟨hu, a, c ++ b, ha, hc.append hb, ?_⟩
  rw [← List.append_assoc, ← ht]

theorem trim_isInfix (t : Text) : t.trim <:+: t := by
  obtain ⟨-, a, b, -, -, h⟩ := trim_eq_iff.1 (rfl : t.trim = t.trim)
  exact ⟨a, b, h.symm⟩

theorem trim_eq_nil_iff {t : Text} : t.trim = [] ↔ AllBlank t := by
  rw [trim_eq_iff]
  constructor
  · rintro ⟨-, a, b, ha, hb, rfl⟩
    rw [List.append_nil]
    exact ha.append hb
  · intro h
    exact ⟨.nil, t, [], h, .nil, by simp⟩

theorem AllBlank.not_suffix_of_trimmed {b t : Text} (hb : AllBlank b) (hn : b ≠ [])
    (ht : Trimmed t) : ¬ b <:+ t := by
  rintro ⟨a, rfl⟩
  have hlast := ht.last (b.getLast hn)
    (by simp [List.getLast?_append, List.getLast?_eq_some_getLast hn])
  simp [hb _ (List.getLast_mem hn)] at hlast

/-- Blanks inside a trimmed text have more of the text behind them. -/
theorem Trimmed.exists_gap {a rest : Text} {c : Char} (h : Trimmed (a ++ c :: rest))
    (hc : isBlank c = true) :
    rest.trimStart = rest.trim ∧ rest.trim ≠ [] ∧
      ∃ gap, Gap gap ∧ c :: rest = gap ++ rest.trim := by
  obtain ⟨ht, x, y, hx, hy, he⟩ := trim_eq_iff.1 (rfl : rest.trim = rest.trim)
  have hrest : rest <:+ a ++ c :: rest := ⟨a ++ [c], by simp⟩
  have hblank : AllBlank (c :: x) := (AllBlank.singleton hc).append hx
  have hy' : y = [] := by
    by_contra hn
    exact hy.not_suffix_of_trimmed hn h (List.IsSuffix.trans ⟨x ++ rest.trim, he.symm⟩ hrest)
  rw [hy', List.append_nil] at he
  refine ⟨?_, fun hn => ?_, c :: x, ⟨by simp, hblank⟩, congrArg (c :: ·) he⟩
  · have hstart := congrArg trimStart he
    rwa [trimStart_append hx, trimStart_of_head ht.head] at hstart
  · rw [hn, List.append_nil] at he
    exact hblank.not_suffix_of_trimmed (by simp) h ⟨a, by rw [he]⟩

theorem AllBlank.append_inj {a b s t : Text} (ha : AllBlank a) (hb : AllBlank b)
    (hs : ∀ c ∈ s.head?, isBlank c = false) (ht : ∀ c ∈ t.head?, isBlank c = false)
    (h : a ++ s = b ++ t) : a = b ∧ s = t := by
  have hst : s = t := by
    have htrim := congrArg trimStart h
    rwa [trimStart_append ha, trimStart_append hb, trimStart_of_head hs, trimStart_of_head ht]
      at htrim
  rw [hst] at h
  exact ⟨List.append_cancel_right h, hst⟩

end Text

end ClassNotation
