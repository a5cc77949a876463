import ClassNotation.Diagram.Reading
import ClassNotation.Proofs.Text.Lines
import Mathlib.Data.List.Chain

/-! The content of lines. A text that holds no line feed and no two slashes in a row, and no
blank at its ends, is the content of the line that it is. -/

namespace ClassNotation

/-- The texts that the lines leave without their comments, as far as they are not empty. -/
def contents (t : Text) : List Text :=
  (t.lines.map stripComment).filter (· ≠ [])

theorem contents_eq_of_lines_eq {t : Text} {xs ys : List Text} (h : t.lines = xs ++ ys) :
    contents t =
      (xs.map stripComment).filter (· ≠ []) ++ (ys.map stripComment).filter (· ≠ []) := by
  simp [contents, h]

/-- What can stand inside one line, in front of its comment. -/
structure Text.Plain (t : Text) : Prop where
  feed : '\n' ∉ t
  slashes : t.IsChain fun a b => ¬ (a = '/' ∧ b = '/')

theorem Text.Plain.of_isInfix {a t : Text} (h : t.Plain) (ha : a <:+: t) : a.Plain :=
  ⟨fun hm => h.feed (ha.subset hm), h.slashes.infix ha⟩

theorem slashes_of_not_mem {t : Text} (h : '/' ∉ t) :
    t.IsChain fun a b => ¬ (a = '/' ∧ b = '/') := by
  induction t with
  | nil => exact .nil
  | cons c t ih =>
    obtain ⟨hc, ht⟩ := List.ne_and_not_mem_of_not_mem_cons h
    exact List.isChain_cons.2 ⟨fun _ _ h => hc h.1.symm, ih ht⟩

theorem Text.Plain.of_not_mem {t : Text} (hf : '\n' ∉ t) (hs : '/' ∉ t) : t.Plain :=
  ⟨hf, slashes_of_not_mem hs⟩

theorem slashes_append_cons {a b : Text} {c : Char} (hs : c ≠ '/') :
    (a ++ c :: b).IsChain (fun a b => ¬ (a = '/' ∧ b = '/')) ↔
      a.IsChain (fun a b => ¬ (a = '/' ∧ b = '/')) ∧
        b.IsChain fun a b => ¬ (a = '/' ∧ b = '/') := by
  constructor
  · intro h
    have ha := h.infix (List.prefix_append a (c :: b)).isInfix
    have hb : b <:+: a ++ c :: b := ⟨a ++ [c], [], by simp⟩
    exact ⟨ha, h.infix hb⟩
  · rintro ⟨ha, hb⟩
    refine List.isChain_append.2 ⟨ha, List.isChain_cons.2 ⟨fun y _ h => hs h.1, hb⟩, ?_⟩
    intro x _ y hy h
    have hy : c = y := by simpa using hy
    exact hs (hy.trans h.2)

theorem slashes_intercalate_feed {ls : List Text}
    (h : ∀ l ∈ ls, l.IsChain fun a b => ¬ (a = '/' ∧ b = '/')) :
    (['\n'].intercalate ls).IsChain fun a b => ¬ (a = '/' ∧ b = '/') := by
  refine Text.intercalate_of_join .nil (fun a b ha hb => ?_) h
  rw [List.append_assoc]
  exact (slashes_append_cons (by decide)).2 ⟨ha, hb⟩

theorem Text.plain_append_cons {a b : Text} {c : Char} (hs : c ≠ '/') (hf : c ≠ '\n') :
    Text.Plain (a ++ c :: b) ↔ a.Plain ∧ b.Plain := by
  have hfeed : '\n' ∉ a ++ c :: b ↔ '\n' ∉ a ∧ '\n' ∉ b := by simp [hf.symm]
  constructor
  · rintro ⟨hfeeds, hslashes⟩
    obtain ⟨ha, hb⟩ := hfeed.1 hfeeds
    obtain ⟨ha', hb'⟩ := (slashes_append_cons hs).1 hslashes
    exact ⟨⟨ha, ha'⟩, hb, hb'⟩
  · rintro ⟨ha, hb⟩
    exact ⟨hfeed.2 ⟨ha.feed, hb.feed⟩, (slashes_append_cons hs).2 ⟨ha.slashes, hb.slashes⟩⟩

theorem not_isInfix_commentMark_iff {t : Text} :
    ¬ commentMark <:+: t ↔ t.IsChain fun a b => ¬ (a = '/' ∧ b = '/') := by
  rw [List.isChain_iff_forall_rel_of_append_cons_cons]
  constructor
  · rintro h a b front behind rfl ⟨rfl, rfl⟩
    exact h ⟨front, behind, by simp [commentMark]⟩
  · rintro h ⟨front, behind, ht⟩
    exact h (by simpa [commentMark] using ht.symm) ⟨rfl, rfl⟩

theorem beforeComment_isPrefix (t : Text) : beforeComment t <+: t := by
  induction t with
  | nil => exact List.prefix_rfl
  | cons c t ih =>
    rw [beforeComment]
    split
    · exact List.nil_prefix
    · exact List.cons_prefix_cons.2 ⟨rfl, ih⟩

theorem commentMark_isPrefixOf_cons_cons (c d : Char) (t : Text) :
    commentMark.isPrefixOf (c :: d :: t) = true ↔ c = '/' ∧ d = '/' := by
  have he : commentMark = ['/', '/'] := rfl
  simp only [he, List.isPrefixOf, Bool.and_eq_true, beq_iff_eq, and_true]
  exact and_congr eq_comm eq_comm

theorem slashes_beforeComment (t : Text) :
    (beforeComment t).IsChain fun a b => ¬ (a = '/' ∧ b = '/') := by
  induction t with
  | nil => exact .nil
  | cons c t ih =>
    rw [beforeComment]
    split
    · exact .nil
    · rename_i hn
      refine List.isChain_cons.2 ⟨fun d hd h => hn ?_, ih⟩
      obtain ⟨rest, hr⟩ := beforeComment_isPrefix t
      obtain ⟨u, hu⟩ := List.head?_eq_some_iff.1 hd
      rw [← hr, hu, List.cons_append, commentMark_isPrefixOf_cons_cons]
      exact h

theorem beforeComment_of_slashes {t : Text}
    (h : t.IsChain fun a b => ¬ (a = '/' ∧ b = '/')) : beforeComment t = t := by
  induction t with
  | nil => rfl
  | cons c t ih =>
    have hn : commentMark.isPrefixOf (c :: t) = false := by
      cases t with
      | nil => simp [commentMark, List.isPrefixOf]
      | cons d t =>
        rw [Bool.eq_false_iff, ne_eq, commentMark_isPrefixOf_cons_cons]
        exact (List.isChain_cons_cons.1 h).1
    rw [beforeComment, hn, ih (List.isChain_cons.1 h).2]
    rfl

theorem trimmed_stripComment (t : Text) : Text.Trimmed (stripComment t) :=
  Text.trimmed_trim _

theorem plain_stripComment {t : Text} (h : '\n' ∉ t) : Text.Plain (stripComment t) :=
  .of_isInfix ⟨fun hm => h ((beforeComment_isPrefix t).subset hm), slashes_beforeComment t⟩
    (Text.trim_isInfix _)

theorem stripComment_of_plain {t : Text} (hp : t.Plain) (ht : t.Trimmed) : stripComment t = t := by
  rw [stripComment, beforeComment_of_slashes hp.slashes, Text.trim_of_trimmed ht]

structure Text.IsContent (t : Text) : Prop where
  plain : t.Plain
  trimmed : t.Trimmed
  nonempty : t ≠ []

theorem isContent_of_mem_contents {t l : Text} (h : l ∈ contents t) : l.IsContent := by
  rw [contents, List.mem_filter, decide_eq_true_eq, List.mem_map] at h
  obtain ⟨⟨line, hline, rfl⟩, hn⟩ := h
  exact ⟨plain_stripComment (Text.feed_not_mem_of_mem_lines hline), trimmed_stripComment line, hn⟩

theorem isContent_separatorMark : separatorMark.IsContent :=
  ⟨.of_not_mem (by decide) (by decide), .of_isName rfl, by decide⟩

theorem filter_stripComment {ls : List Text} (h : ∀ l ∈ ls, l.IsContent) :
    (ls.map stripComment).filter (· ≠ []) = ls := by
  have hstrip : ls.map stripComment = ls := by
    rw [List.map_congr_left fun l hl => stripComment_of_plain (h l hl).plain (h l hl).trimmed,
      List.map_id']
  rw [hstrip, List.filter_eq_self]
  exact fun l hl => by simpa using (h l hl).nonempty

theorem contents_flatMap_feed {ls : List Text} (h : ∀ l ∈ ls, l.IsContent) :
    contents (ls.flatMap (· ++ ['\n'])) = ls := by
  have hlines := Text.lines_flatMap_feed (fun l hl => (h l hl).plain.feed)
    fun l hl => Text.withoutReturn_of_trimmed (h l hl).trimmed
  rw [contents, hlines, filter_stripComment h]

/-- Two texts are read on their own if no comment starts where they meet. -/
theorem beforeComment_append (t : Text) {s : Text}
    (h : t.getLast? = some '/' → s.head? ≠ some '/') :
    beforeComment (t ++ s) =
      if beforeComment t = t then t ++ beforeComment s else beforeComment t := by
  induction t with
  | nil => rfl
  | cons c t ih =>
    have hmark : commentMark.isPrefixOf (c :: (t ++ s)) = commentMark.isPrefixOf (c :: t) := by
      rw [Bool.eq_iff_iff]
      cases t with
      | nil =>
        cases s with
        | nil => rfl
        | cons d s =>
          have hn : ¬ (c = '/' ∧ d = '/') := by simpa using h
          rw [List.nil_append, commentMark_isPrefixOf_cons_cons]
          simp [hn, commentMark, List.isPrefixOf]
      | cons d t =>
        rw [List.cons_append, commentMark_isPrefixOf_cons_cons, commentMark_isPrefixOf_cons_cons]
    have ht : t.getLast? = some '/' → s.head? ≠ some '/' := by
      intro hl
      exact h (by simp [List.getLast?_cons, hl])
    rw [List.cons_append, beforeComment, beforeComment, hmark, ih ht]
    by_cases hp : commentMark.isPrefixOf (c :: t) = true
    · simp [hp]
    · by_cases hc : beforeComment t = t <;> simp [hp, hc]

theorem beforeComment_of_allBlank {b : Text} (hb : b.AllBlank) : beforeComment b = b :=
  beforeComment_of_slashes (slashes_of_not_mem hb.slash_not_mem)

theorem stripComment_append_blank (t : Text) {b : Text} (hb : b.AllBlank) :
    stripComment (t ++ b) = stripComment t := by
  have hs : b.head? ≠ some '/' := fun h => hb.slash_not_mem (List.mem_of_head? h)
  rw [stripComment, beforeComment_append t fun _ => hs, stripComment]
  split
  · rename_i hc
    rw [beforeComment_of_allBlank hb, Text.trim_append_right t hb, hc]
  · rfl

theorem stripComment_blank_append {a : Text} (ha : a.AllBlank) (t : Text) :
    stripComment (a ++ t) = stripComment t := by
  rw [stripComment, beforeComment_append a fun h => absurd h ha.getLast?_ne_slash,
    if_pos (beforeComment_of_allBlank ha), Text.trim_append_left ha, stripComment]

theorem stripComment_append_comment {t : Text} (ht : t.getLast? ≠ some '/') (c : Text) :
    stripComment (t ++ (commentMark ++ c)) = stripComment t := by
  have hc : beforeComment (commentMark ++ c) = [] := by simp [commentMark, beforeComment]
  rw [stripComment, beforeComment_append t fun h => absurd h ht, hc, List.append_nil, stripComment]
  split
  · rename_i he
    rw [he]
  · rfl

theorem stripComment_withoutReturn (l : Text) :
    stripComment (Text.lines.withoutReturn l) = stripComment l := by
  obtain ⟨b, hb, hl⟩ := Text.exists_withoutReturn_append l
  conv_rhs => rw [hl, stripComment_append_blank _ hb]

theorem contents_append_feed (a b : Text) :
    contents (a ++ '\n' :: b) = contents a ++ contents b := by
  obtain ⟨init, last, hs, hl⟩ := Text.lines_eq_closed_concat a
  have hr : ∀ xs : List Text, (xs.map Text.lines.withoutReturn).map stripComment =
      xs.map stripComment := fun xs => by simp [stripComment_withoutReturn]
  rw [contents, contents, contents, Text.lines_append_feed, hl, hs]
  simp only [List.map_append, List.filter_append, hr]
  congr 2
  split
  · rename_i he
    simp [he, stripComment, beforeComment, Text.trim, Text.trimStart, Text.trimEnd]
  · rfl

theorem contentFrom_append (n : Nat) (xs ys : List Text) :
    contentFrom n (xs ++ ys) = contentFrom n xs ++ contentFrom (n + xs.length) ys := by
  induction xs generalizing n with
  | nil => rfl
  | cons x xs ih =>
    have hn : n + 1 + xs.length = n + (xs.length + 1) := by omega
    simp only [List.cons_append, contentFrom, List.length_cons, ih, hn]
    split <;> rfl

theorem map_text_contentFrom (n : Nat) (ls : List Text) :
    (contentFrom n ls).map (·.text) = (ls.map stripComment).filter (· ≠ []) := by
  induction ls generalizing n with
  | nil => rfl
  | cons l ls ih => by_cases h : stripComment l = [] <;> simp [contentFrom, h, ih]

theorem map_text_contentLines (t : Text) : (contentLines t).map (·.text) = contents t :=
  map_text_contentFrom 1 t.lines

theorem length_contentFrom (n : Nat) (ls : List Text) :
    (contentFrom n ls).length = ls.countP fun l => stripComment l ≠ [] := by
  induction ls generalizing n with
  | nil => rfl
  | cons l ls ih => by_cases h : stripComment l = [] <;> simp [contentFrom, h, ih]

/-- A content line is one of the lines, and the lines in front of it leave what is in front of
it. -/
theorem contentFrom_eq_append_cons {n : Nat} {ls : List Text} {pre post : List ContentLine}
    {l : ContentLine} (h : contentFrom n ls = pre ++ l :: post) :
    ∃ before line after, ls = before ++ line :: after ∧ contentFrom n before = pre ∧
      stripComment line ≠ [] ∧ l = ⟨n + before.length, stripComment line⟩ := by
  induction ls generalizing n pre with
  | nil => simp [contentFrom] at h
  | cons x ls ih =>
    have hnumber : ∀ before : List Text, n + 1 + before.length = n + (x :: before).length := by
      intro before
      rw [List.length_cons]
      omega
    rw [contentFrom] at h
    split at h
    · rename_i hx
      obtain ⟨before, line, after, rfl, hpre, hn, hl⟩ := ih h
      refine ⟨x :: before, line, after, rfl, ?_, hn, hnumber before ▸ hl⟩
      rw [contentFrom, if_pos hx, hpre]
    · rename_i hx
      cases pre with
      | nil =>
        obtain ⟨rfl, -⟩ := List.cons.inj h
        exact ⟨[], x, ls, rfl, rfl, hx, rfl⟩
      | cons p pre =>
        obtain ⟨rfl, ht⟩ := List.cons.inj h
        obtain ⟨before, line, after, rfl, hpre, hn, hl⟩ := ih ht
        refine ⟨x :: before, line, after, rfl, ?_, hn, hnumber before ▸ hl⟩
        rw [contentFrom, if_neg hx, hpre]

theorem number_of_mem_contentFrom {n : Nat} {ls : List Text} {l : ContentLine}
    (h : l ∈ contentFrom n ls) : n ≤ l.number ∧ l.number < n + ls.length := by
  obtain ⟨pre, post, he⟩ := List.append_of_mem h
  obtain ⟨before, line, after, rfl, -, -, rfl⟩ := contentFrom_eq_append_cons he
  simp only [List.length_append, List.length_cons]
  omega

theorem pairwise_number_contentFrom (n : Nat) (ls : List Text) :
    (contentFrom n ls).Pairwise fun k l => k.number < l.number := by
  induction ls generalizing n with
  | nil => exact .nil
  | cons l ls ih =>
    rw [contentFrom]
    split
    · exact ih (n + 1)
    · exact List.pairwise_cons.2 ⟨fun x hx => (number_of_mem_contentFrom hx).1, ih (n + 1)⟩

theorem contentFrom_take {n : Nat} {ls : List Text} {pre post : List ContentLine}
    {l : ContentLine} (h : contentFrom n ls = pre ++ l :: post) :
    contentFrom n (ls.take (l.number + 1 - n)) = pre ++ [l] := by
  obtain ⟨before, line, after, rfl, rfl, hn, rfl⟩ := contentFrom_eq_append_cons h
  have hlength : n + before.length + 1 - n = (before ++ [line]).length := by
    rw [List.length_append, List.length_singleton]
    omega
  have htake : (before ++ line :: after).take (before ++ [line]).length = before ++ [line] := by
    rw [List.append_cons before line after, List.take_left]
  rw [hlength, htake, contentFrom_append, contentFrom, if_neg hn]
  rfl

end ClassNotation
