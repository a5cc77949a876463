import ClassNotation.Proofs.FirstFault

/-! Texts that are joined by a line feed. Behind a text that can be read the machine stands where
it started, so the second text is read as if it stood alone, only further down. -/

namespace ClassNotation

/-- The line, numbered as it is behind `n` others. -/
def ContentLine.lower (n : Nat) (l : ContentLine) : ContentLine :=
  ⟨l.number + n, l.text⟩

def ParseError.lower (n : Nat) (e : ParseError) : ParseError :=
  ⟨e.line + n, e.fault⟩

theorem Text.lines_append_feed_eq (a b : Text) :
    Text.lines (a ++ '\n' :: b) = Text.lines (a ++ ['\n']) ++ Text.lines b := by
  rw [Text.lines_append_feed, Text.lines_append_feed a []]
  exact congrArg (· ++ Text.lines b) (List.append_nil _).symm

theorem contentFrom_add (n k : Nat) (ls : List Text) :
    contentFrom (n + k) ls = (contentFrom n ls).map (·.lower k) := by
  induction ls generalizing n with
  | nil => rfl
  | cons l ls ih =>
    have hn : n + k + 1 = n + 1 + k := by omega
    rw [contentFrom, contentFrom, hn, ih]
    split <;> rfl

theorem contentLines_append_single_feed (a : Text) :
    contentLines (a ++ ['\n']) = contentLines a := by
  obtain ⟨init, last, hs, hl⟩ := Text.lines_eq_closed_concat a
  have hlines : Text.lines (a ++ ['\n']) =
      init.map Text.lines.withoutReturn ++ [Text.lines.withoutReturn last] := by
    rw [Text.lines_append_feed, hs, List.map_append]
    exact List.append_nil _
  have hlast : ∀ n, contentFrom n [Text.lines.withoutReturn last] =
      contentFrom n (if last = [] then [] else [last]) := by
    intro n
    split
    · rename_i he
      subst he
      rfl
    · simp only [contentFrom, stripComment_withoutReturn]
  rw [contentLines, contentLines, hlines, hl, contentFrom_append, contentFrom_append, hlast]

theorem contentLines_append_feed (a b : Text) :
    contentLines (a ++ '\n' :: b) =
      contentLines a ++ (contentLines b).map (·.lower (a ++ ['\n']).lines.length) := by
  rw [contentLines, Text.lines_append_feed_eq, contentFrom_append, contentFrom_add, ← contentLines,
    ← contentLines, contentLines_append_single_feed]

/-- What a text adds to one that is read already and has the given number of lines. -/
def continuation (blocks : List ClassBlock) (n : Nat) :
    Except ParseError (List ClassBlock) → Except ParseError (List ClassBlock)
  | .ok more => .ok (blocks ++ more)
  | .error e => if e.fault = .emptyInput then .ok blocks else .error (e.lower n)

theorem readBlocks_joined {a : Text} {xs : List ClassBlock} (ha : readBlocks a = .ok xs)
    (b : Text) :
    readBlocks (a ++ '\n' :: b) = continuation xs (a ++ ['\n']).lines.length (readBlocks b) := by
  obtain ⟨hn, hr⟩ := readBlocks_eq_ok_iff_reads.1 ha
  have hcontents := contents_append_feed a b
  have hne : contents (a ++ '\n' :: b) ≠ [] := by
    rw [hcontents]
    exact List.append_ne_nil_of_left_ne_nil hn _
  by_cases hb : contents b = []
  · rw [hb, List.append_nil] at hcontents
    rw [readBlocks_of_contents_eq_nil hb]
    exact readBlocks_eq_ok_iff_reads.2 ⟨hne, hcontents ▸ hr⟩
  rcases Progress.reads_or_stuck .outside (contentLines b) with
    ⟨ys, s, hs⟩ | ⟨pre, l, post, ys, s, f, hl, hs, hf⟩
  · rw [map_text_contentLines] at hs
    rw [readBlocks_of_reads hb hs, readBlocks_of_reads hne (hcontents ▸ hr.append hs)]
    by_cases hp : s.phase = .outside
    · rw [if_pos hp, if_pos hp]
      rfl
    · have hlength :
          (a ++ '\n' :: b).lines.length = b.lines.length + (a ++ ['\n']).lines.length := by
        rw [Text.lines_append_feed_eq, List.length_append, Nat.add_comm]
      rw [if_neg hp, if_neg hp, hlength]
      rfl
  · obtain ⟨hempty, -⟩ := Progress.fault_of_next_ne hf
    have hlines := contentLines_append_feed a b
    rw [hl, List.map_append, List.map_cons, ← List.append_assoc] at hlines
    have hread : Progress.Reads .outside ((contentLines a ++ pre.map
        (·.lower (a ++ ['\n']).lines.length)).map (·.text)) (xs ++ ys) s := by
      rw [List.map_append, map_text_contentLines, List.map_map]
      exact hr.append hs
    rw [readBlocks_of_stuck hl hs hf, readBlocks_of_stuck hlines hread hf, continuation,
      if_neg hempty]
    rfl

namespace Diagram

theorem readInto_of_ok {t : Text} {blocks : List ClassBlock} (h : readBlocks t = .ok blocks)
    (d : Diagram) : d.readInto t = (.ok (), d.append blocks) := by
  rw [readInto, extend, h]
  rfl

theorem readInto_of_error {t : Text} {e : ParseError} (h : readBlocks t = .error e) (d : Diagram) :
    d.readInto t = (.error e, d) := by
  rw [readInto, extend, h]
  rfl

theorem append_append (d : Diagram) (xs ys : List ClassBlock) :
    (d.append xs).append ys = d.append (xs ++ ys) := by
  rw [append, append, append, List.append_assoc]

end Diagram

/-- Two texts that are joined are read as the two of them one after another, whatever the diagram
holds already. A fault of the second moves down by the lines of the first, and takes back nothing
of what the first has added. -/
theorem readBlocks_append_feed {a : Text} {xs : List ClassBlock} (ha : readBlocks a = .ok xs)
    (b : Text) (d : Diagram) :
    (∀ ys, readBlocks b = .ok ys →
      readBlocks (a ++ '\n' :: b) = .ok (xs ++ ys) ∧
      d.readInto a = (.ok (), ⟨d.blocks ++ xs⟩) ∧
      (d.readInto a).2.readInto b = (.ok (), ⟨d.blocks ++ xs ++ ys⟩) ∧
      d.readInto (a ++ '\n' :: b) = (d.readInto a).2.readInto b) ∧
    (∀ e, readBlocks b = .error e → e.fault = .emptyInput →
      readBlocks (a ++ '\n' :: b) = .ok xs) ∧
    (∀ e, readBlocks b = .error e → e.fault ≠ .emptyInput →
      readBlocks (a ++ '\n' :: b) = .error ⟨e.line + (a ++ ['\n']).lines.length, e.fault⟩) ∧
    (∀ e, readBlocks b = .error e →
      (d.readInto a).2.readInto b = (.error e, ⟨d.blocks ++ xs⟩)) := by
  have hjoined := readBlocks_joined ha b
  have hfirst := Diagram.readInto_of_ok ha d
  refine ⟨fun ys hb => ?_, fun e hb he => ?_, fun e hb he => ?_, fun e hb => ?_⟩
  · rw [hb] at hjoined
    have hsecond := Diagram.readInto_of_ok hb (d.append xs)
    refine ⟨hjoined, hfirst, ?_, ?_⟩
    · rw [hfirst, hsecond]
      rfl
    · rw [hfirst, hsecond, Diagram.readInto_of_ok hjoined, Diagram.append_append]
  · rw [hjoined, hb, continuation, if_pos he]
  · rw [hjoined, hb, continuation, if_neg he]
    rfl
  · rw [hfirst, Diagram.readInto_of_error hb]
    rfl

/-- The second text is short of its methods and comes behind two lines and an empty one. -/
theorem readBlocks_append_feed_unfinished :
    readBlocks "A\n---\n---\n---\n".toList = .ok [.ofLines ⟨"A".toList, none⟩ [] [] []] ∧
    readBlocks "B\n---".toList = .error ⟨2, .unexpectedEnd .properties⟩ ∧
    readBlocks "A\n---\n---\n---\n\nB\n---".toList =
      .error ⟨2 + 5, .unexpectedEnd .properties⟩ ∧
    (Diagram.empty.readInto "A\n---\n---\n---\n".toList).2.readInto "B\n---".toList =
      (.error ⟨2, .unexpectedEnd .properties⟩, ⟨[.ofLines ⟨"A".toList, none⟩ [] [] []]⟩) := by
  have ha : readBlocks "A\n---\n---\n---\n".toList =
      .ok [.ofLines ⟨"A".toList, none⟩ [] [] []] := by decide +kernel
  have hb : readBlocks "B\n---".toList = .error ⟨2, .unexpectedEnd .properties⟩ := by
    decide +kernel
  obtain ⟨-, -, hfault, hkept⟩ := readBlocks_append_feed ha "B\n---".toList .empty
  exact ⟨ha, hb, hfault _ hb (by simp), hkept _ hb⟩

end ClassNotation
