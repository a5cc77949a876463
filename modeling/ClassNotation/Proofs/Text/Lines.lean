import ClassNotation.Proofs.Text.Parts

/-! The lines of a text, and texts with given lines. A line never holds a line feed, and every
list of such lines belongs to some text. -/

namespace ClassNotation

namespace Text

theorem closed_append (xs : List Text) {ys : List Text} (hy : ys ≠ []) :
    lines.closed (xs ++ ys) = xs.map lines.withoutReturn ++ lines.closed ys := by
  induction xs with
  | nil => rfl
  | cons x xs ih =>
    obtain ⟨y, zs, he⟩ := List.exists_cons_of_ne_nil (List.append_ne_nil_of_right_ne_nil xs hy)
    rw [List.cons_append, he, lines.closed, ← he, ih]
    · rfl
    · simp

theorem lines_append_feed (a b : Text) :
    lines (a ++ '\n' :: b) = (a.splitOn '\n').map lines.withoutReturn ++ lines b := by
  rw [lines, List.splitOn_append_cons_self, closed_append _ (List.splitOn_ne_nil _ _), lines]

theorem withoutReturn_append_return (l : Text) : lines.withoutReturn (l ++ ['\r']) = l := by
  simp [lines.withoutReturn]

/-- What is taken away from the end of a line is blank. -/
theorem exists_withoutReturn_append (l : Text) :
    ∃ b, AllBlank b ∧ l = lines.withoutReturn l ++ b := by
  rw [lines.withoutReturn]
  split
  · rename_i h
    obtain ⟨u, rfl⟩ := List.getLast?_eq_some_iff.1 h
    exact ⟨['\r'], .singleton rfl, by rw [List.dropLast_concat]⟩
  · exact ⟨[], .nil, by rw [List.append_nil]⟩

theorem withoutReturn_isPrefix (l : Text) : lines.withoutReturn l <+: l := by
  obtain ⟨b, -, hb⟩ := exists_withoutReturn_append l
  exact ⟨b, hb.symm⟩

theorem withoutReturn_of_trimmed {l : Text} (h : Trimmed l) : lines.withoutReturn l = l := by
  rw [lines.withoutReturn, if_neg]
  intro hr
  have hb : isBlank '\r' = false := h.last '\r' hr
  exact absurd hb (by decide)

theorem feed_not_mem_of_mem_closed {xs : List Text} (hx : ∀ x ∈ xs, '\n' ∉ x) {l : Text}
    (h : l ∈ lines.closed xs) : '\n' ∉ l := by
  induction xs with
  | nil => simp [lines.closed] at h
  | cons x xs ih =>
    have hxs : ∀ y ∈ xs, '\n' ∉ y := fun y hy => hx y (List.mem_cons_of_mem _ hy)
    cases xs with
    | nil =>
      by_cases hn : x = []
      · simp [lines.closed, hn] at h
      · have hl : l = x := by simpa [lines.closed, hn] using h
        exact hl ▸ hx x List.mem_cons_self
    | cons y ys =>
      rw [lines.closed, List.mem_cons] at h
      · rcases h with rfl | h
        · exact fun hm => hx x List.mem_cons_self ((withoutReturn_isPrefix x).subset hm)
        · exact ih hxs h
      · simp

theorem feed_not_mem_of_mem_lines {t l : Text} (h : l ∈ lines t) : '\n' ∉ l :=
  feed_not_mem_of_mem_closed (fun _ hx => (mem_splitOn hx).2) h

theorem lines_append_line {l : Text} (hl : '\n' ∉ l) (t : Text) :
    lines (l ++ '\n' :: t) = lines.withoutReturn l :: lines t := by
  rw [lines_append_feed, List.splitOn_eq_singleton hl]
  rfl

/-- A text with the given lines. Each is closed by a carriage return and a line feed, so a
carriage return at the end of a line is kept. -/
def ofLines (ls : List Text) : Text :=
  ls.flatMap (· ++ ['\r', '\n'])

theorem lines_ofLines {ls : List Text} (h : ∀ l ∈ ls, '\n' ∉ l) : lines (ofLines ls) = ls := by
  induction ls with
  | nil => rfl
  | cons l ls ih =>
    have hl : '\n' ∉ l ++ ['\r'] := by simpa using h l List.mem_cons_self
    have he : ofLines (l :: ls) = (l ++ ['\r']) ++ '\n' :: ofLines ls := by simp [ofLines]
    rw [he, lines_append_line hl, withoutReturn_append_return,
      ih fun x hx => h x (List.mem_cons_of_mem _ hx)]

theorem withoutReturn_of_not_mem {l : Text} (h : '\r' ∉ l) : lines.withoutReturn l = l := by
  rw [lines.withoutReturn, if_neg fun hr => h (List.mem_of_getLast? hr)]

theorem lines_flatMap_feed {ls : List Text} (h : ∀ l ∈ ls, '\n' ∉ l)
    (hr : ∀ l ∈ ls, lines.withoutReturn l = l) : lines (ls.flatMap (· ++ ['\n'])) = ls := by
  induction ls with
  | nil => rfl
  | cons l ls ih =>
    obtain ⟨hl, hls⟩ := List.forall_mem_cons.1 h
    obtain ⟨hlr, hlsr⟩ := List.forall_mem_cons.1 hr
    have he : (l :: ls).flatMap (· ++ ['\n']) = l ++ '\n' :: ls.flatMap (· ++ ['\n']) := by simp
    rw [he, lines_append_line hl, hlr, ih hls hlsr]

theorem intercalate_feed_concat (ls : List Text) (last : Text) :
    ['\n'].intercalate (ls ++ [last]) = ls.flatMap (· ++ ['\n']) ++ last := by
  induction ls with
  | nil => exact List.intercalate_singleton
  | cons l ls ih =>
    rw [List.cons_append, List.intercalate_cons_of_ne_nil (by simp), ih, List.flatMap_cons,
      List.append_assoc, List.append_assoc, List.append_assoc]

theorem lines_eq_closed_concat (t : Text) : ∃ init last, t.splitOn '\n' = init ++ [last] ∧
    lines t = init.map lines.withoutReturn ++ if last = [] then [] else [last] := by
  obtain ⟨init, last, he⟩ :=
    (List.eq_nil_or_concat (t.splitOn '\n')).resolve_left (List.splitOn_ne_nil _ _)
  rw [List.concat_eq_append] at he
  refine ⟨init, last, he, ?_⟩
  rw [lines, he, closed_append init (by simp)]
  rfl

end Text

end ClassNotation
