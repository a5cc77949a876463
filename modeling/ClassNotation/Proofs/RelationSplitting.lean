import ClassNotation.Proofs.RelationLines

/-! Relation lines that name several classes. Such a line says what as many lines say that name
one class each, so it may be split and nothing else changes. -/

namespace ClassNotation

namespace RelationLine

/-- The keyword in front of each related class, on a line of its own. -/
def splitLines (r : RelationLine) : List Text :=
  r.related.map (written r.kind)

def singles (r : RelationLine) : List RelationLine :=
  r.related.map fun t => ⟨r.kind, [t]⟩

/-- Every class would state the same relations and refer to the same classes, in one order. -/
structure StateAlike (rs rs' : List RelationLine) : Prop where
  relations : ∀ owner, statedRelations owner rs = statedRelations owner rs'
  related : rs.flatMap (·.related) = rs'.flatMap (·.related)

theorem StateAlike.refl (rs : List RelationLine) : StateAlike rs rs :=
  ⟨fun _ => rfl, rfl⟩

theorem StateAlike.append {rs rs' more more' : List RelationLine} (h : StateAlike rs rs')
    (hm : StateAlike more more') : StateAlike (rs ++ more) (rs' ++ more') := by
  refine ⟨fun owner => ?_, ?_⟩
  · have happend : ∀ xs ys, statedRelations owner (xs ++ ys) =
        statedRelations owner xs ++ statedRelations owner ys := fun _ _ => List.flatMap_append
    rw [happend, happend, h.relations, hm.relations]
  · rw [List.flatMap_append, List.flatMap_append, h.related, hm.related]

theorem stable_stateAlike : Stable StateAlike :=
  ⟨.refl, fun h r => h.append (.refl [r])⟩

theorem stateAlike_singles (r : RelationLine) : StateAlike [r] r.singles := by
  refine ⟨fun owner => ?_, ?_⟩
  · simp only [statedRelations, singles, List.flatMap_singleton, List.flatMap_map, List.map_cons,
      List.map_nil, ← List.map_eq_flatMap]
  · simp only [singles, List.flatMap_singleton, List.flatMap_map, ← List.map_eq_flatMap,
      List.map_id']

theorem isContent_of_mem_splitLines {line l : Text} {r : RelationLine} (hp : line.Plain)
    (h : read line = .ok r) (hl : l ∈ r.splitLines) : l.IsContent := by
  obtain ⟨t, ht, rfl⟩ := List.mem_map.1 hl
  obtain ⟨hrelated, hi⟩ := related_of_read h ht
  exact isContent_written hrelated (hp.of_isInfix hi)

theorem stated_splitLines {line : Text} {r : RelationLine} (hp : line.Plain)
    (h : read line = .ok r) : StatedLines r.splitLines r.singles := by
  rw [StatedLines, filter_stripComment fun l => isContent_of_mem_splitLines hp h, splitLines,
    singles, Declares, List.forall₂_map_left_iff, List.forall₂_map_right_iff, List.forall₂_same]
  exact fun t ht => ⟨isSeparator_written _ _, read_written (related_of_read h ht).1⟩

end RelationLine

theorem ClassBlock.eq_of_sameBut {b b' : ClassBlock}
    (h : ClassBlock.SameBut RelationLine.StateAlike b b') : b = b' := by
  cases h with
  | intro h ps ms hr => rw [ofLines, ofLines, hr.relations, hr.related]

/-- The line has content that is no separator, and stands in the header of a class. -/
structure IsRelationLine (t : Text) (pre : List Text) (line : Text) (post : List Text) : Prop where
  lines : t.lines = pre ++ line :: post
  header : EndsInHeader pre
  content : stripComment line ≠ []
  declares : isSeparator (stripComment line) = false

namespace IsRelationLine

variable {t : Text} {pre post : List Text} {line : Text} {blocks : List ClassBlock}

theorem exists_read (h : IsRelationLine t pre line post) (hread : readBlocks t = .ok blocks) :
    ∃ r, RelationLine.read (stripComment line) = .ok r := by
  obtain ⟨-, hreads⟩ := readBlocks_eq_ok_iff_reads.1 hread
  have hcontents := contents_eq_of_lines_eq h.lines
  rw [List.map_cons, List.filter_cons_of_pos (by simpa using h.content)] at hcontents
  rw [hcontents] at hreads
  obtain ⟨bs, head, rs, hpre⟩ := h.header.reads
  obtain ⟨s, as, cs, hfront, hrest, -⟩ := hreads.exists_of_append
  obtain ⟨-, rfl⟩ := hfront.unique hpre
  cases hrest with
  | cons hn _ =>
    rw [Progress.next, if_neg (by simp [h.declares])] at hn
    obtain ⟨s', hd, -⟩ := except_map_eq_ok_iff.1 hn
    obtain ⟨r, hr, -⟩ := except_map_eq_ok_iff.1 hd
    exact ⟨r, hr⟩

end IsRelationLine

/-- A relation line of a text that is accepted names one class at least, and any text that has a
line for each class in its place is read to the same diagram. -/
theorem parse_splitLines {t : Text} {d : Diagram} (hd : Diagram.parse t = .ok d)
    {pre post : List Text} {line : Text} (h : IsRelationLine t pre line post) :
    ∃ r, RelationLine.read (stripComment line) = .ok r ∧ r.related ≠ [] ∧
      (∃ u : Text, u.lines = pre ++ r.splitLines ++ post) ∧
      ∀ u : Text, u.lines = pre ++ r.splitLines ++ post → Diagram.parse u = .ok d := by
  obtain ⟨blocks, hread, rfl⟩ := except_map_eq_ok_iff.1 hd
  obtain ⟨r, hr⟩ := h.exists_read hread
  have hfeed : ∀ l ∈ pre ++ line :: post, '\n' ∉ l := fun l hl =>
    Text.feed_not_mem_of_mem_lines (h.lines ▸ hl)
  have hplain : (stripComment line).Plain := plain_stripComment (hfeed line (by simp))
  refine ⟨r, hr, RelationLine.related_ne_nil_of_read hr, ⟨_, Text.lines_ofLines fun l hl => ?_⟩,
    fun u hu => ?_⟩
  · simp only [List.mem_append] at hl
    rcases hl with (hl | hl) | hl
    · exact hfeed l (by simp [hl])
    · exact (RelationLine.isContent_of_mem_splitLines hplain hr hl).plain.feed
    · exact hfeed l (by simp [hl])
  · obtain ⟨bs, cs, cs', rfl, hread', hcs⟩ := readBlocks_exchange_lines
      RelationLine.stable_stateAlike h.header (.single hr)
      (RelationLine.stated_splitLines hplain hr)
      (fun rs => (RelationLine.StateAlike.refl rs).append (RelationLine.stateAlike_singles r))
      (by simpa using h.lines) hu hread
    obtain rfl : cs = cs' := List.forall₂_eq_eq_eq ▸ hcs.imp fun _ _ => ClassBlock.eq_of_sameBut
    exact except_map_eq_ok_iff.2 ⟨bs ++ cs, hread', rfl⟩

def pairedText : Text :=
  "A\ncomposes B <Interface>,\tC // two\n---\n---\n---".toList

def unpairedText : Text :=
  "A\ncomposes B <Interface>\ncomposes C\n---\n---\n---".toList

theorem parse_splitLines_pairedText :
    ∃ d, Diagram.parse pairedText = .ok d ∧ Diagram.parse unpairedText = .ok d ∧
      d.relations = [⟨"B <Interface>".toList, "A".toList, .composition⟩,
        ⟨"C".toList, "A".toList, .composition⟩] := by
  let block := ClassBlock.ofLines ⟨"A".toList, none⟩
    [⟨.composition, ["B <Interface>".toList, "C".toList]⟩] [] []
  have hd : Diagram.parse pairedText = .ok ⟨[block]⟩ := by decide +kernel
  have hline : IsRelationLine pairedText ["A".toList] "composes B <Interface>,\tC // two".toList
      (List.replicate 3 separatorMark) :=
    ⟨by decide +kernel, ⟨_, _, rfl, rfl⟩, by decide +kernel, by decide +kernel⟩
  obtain ⟨r, hr, -, -, hsplit⟩ := parse_splitLines hd hline
  have hread : RelationLine.read (stripComment "composes B <Interface>,\tC // two".toList) =
      .ok ⟨.composition, ["B <Interface>".toList, "C".toList]⟩ := by decide +kernel
  obtain rfl := Except.ok.inj (hr.symm.trans hread)
  exact ⟨⟨[block]⟩, hd, hsplit unpairedText (by decide +kernel), rfl⟩

end ClassNotation
