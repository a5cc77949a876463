import ClassNotation.Proofs.Acceptance
import ClassNotation.Proofs.Line.Header
import ClassNotation.Proofs.Line.Method
import ClassNotation.Proofs.Line.Property
import ClassNotation.Proofs.Line.Relation

/-! What holds of every block that has been read. Its relations start or end at the class itself,
and all its names and types come from single lines of the text. -/

namespace ClassNotation

/-- The end that is not the class whose line states the relation. -/
def Relation.other (r : Relation) : Text :=
  match r.kind with
  | .generalization | .realization | .association | .directedAssociation => r.target
  | .composition | .aggregation => r.source

theorem Relation.kind_stated (owner named : Text) (kind : RelationKind) :
    (stated owner named kind).kind = kind := by
  cases kind <;> rfl

theorem Relation.other_stated (owner named : Text) (kind : RelationKind) :
    (stated owner named kind).other = named := by
  cases kind <;> rfl

theorem Relation.other_of_forward {r : Relation} (h : r.kind.direction = .forward) :
    r.other = r.target := by
  rw [other]
  cases hk : r.kind with
  | generalization | realization | association | directedAssociation => rfl
  | composition | aggregation =>
    rw [hk] at h
    cases h

/-- A method is a constructor in the class that has its name, and in no other. -/
theorem Method.WellFormed.isConstructor_iff {owner : Text} {m : Method} (h : m.WellFormed owner) :
    m.isConstructor = true ↔ m.name = owner := by
  rw [Method.isConstructor]
  rcases h.result with ⟨hname, -, hresult⟩ | ⟨hname, type, hresult, -⟩
  · simp [hname, hresult]
  · simp [hname, hresult]

namespace ClassBlock

structure WellFormed (b : ClassBlock) : Prop where
  name : b.name.isName = true
  header : isSeparator b.name = false
  related : ∀ r ∈ b.relations, r.other.Related
  relation : ∀ r ∈ b.relations, r = .stated b.name r.other r.kind
  relates : b.relates = TextSet.ofList (b.relations.map Relation.other)
  properties : ∀ p ∈ b.properties, p.WellFormed
  methods : ∀ m ∈ b.methods, m.WellFormed b.name

variable {b : ClassBlock}

theorem WellFormed.constructors_eq (h : b.WellFormed) :
    b.constructors = b.methods.filter (·.name = b.name) := by
  refine List.filter_congr fun m hm => ?_
  rw [Bool.eq_iff_iff, (h.methods m hm).isConstructor_iff, decide_eq_true_iff]

theorem WellFormed.operations_eq (h : b.WellFormed) :
    b.operations = b.methods.filter (·.name ≠ b.name) := by
  refine List.filter_congr fun m hm => ?_
  rw [Bool.eq_iff_iff, Bool.not_eq_true', ← Bool.not_eq_true, (h.methods m hm).isConstructor_iff,
    decide_eq_true_iff]

theorem WellFormed.ends (h : b.WellFormed) {r : Relation} (hr : r ∈ b.relations) :
    r.source = b.name ∧ r.target = r.other ∨ r.source = r.other ∧ r.target = b.name := by
  have hs := congrArg Relation.source (h.relation r hr)
  have ht := congrArg Relation.target (h.relation r hr)
  cases hk : r.kind with
  | generalization | realization | association | directedAssociation =>
    rw [hk] at hs ht
    exact .inl ⟨hs, ht⟩
  | composition | aggregation =>
    rw [hk] at hs ht
    exact .inr ⟨hs, ht⟩

def texts (b : ClassBlock) : List Text :=
  b.name :: b.relations.map Relation.other ++ b.properties.flatMap Property.texts ++
    b.methods.flatMap Method.texts

theorem forall_texts_iff {Q : Text → Prop} :
    (∀ t ∈ b.texts, Q t) ↔
      Q b.name ∧ (∀ r ∈ b.relations, Q r.other) ∧ (∀ p ∈ b.properties, ∀ t ∈ p.texts, Q t) ∧
        ∀ m ∈ b.methods, ∀ t ∈ m.texts, Q t := by
  simp only [texts, List.cons_append, List.forall_mem_cons, List.forall_mem_append,
    List.forall_mem_map, List.forall_mem_flatMap, and_assoc]

end ClassBlock

section statedRelations

variable {owner : Text} {rs : List RelationLine}

theorem mem_statedRelations {r : Relation} (h : r ∈ statedRelations owner rs) :
    r = .stated owner r.other r.kind ∧
      ∃ line ∈ rs, r.other ∈ line.related := by
  rw [statedRelations, List.mem_flatMap] at h
  obtain ⟨line, hline, hr⟩ := h
  obtain ⟨t, ht, rfl⟩ := List.mem_map.1 hr
  rw [Relation.kind_stated, Relation.other_stated]
  exact ⟨rfl, line, hline, ht⟩

theorem map_other_statedRelations :
    (statedRelations owner rs).map Relation.other = rs.flatMap (·.related) := by
  simp [statedRelations, List.map_flatMap, Function.comp_def, Relation.other_stated]

theorem exists_line_of_mem_statedRelations {lines : List Text}
    (h : Declares RelationLine.read lines rs) {r : Relation} (hr : r ∈ statedRelations owner rs) :
    ∃ l ∈ lines, r.other.Related ∧ r.other <:+: l := by
  obtain ⟨-, line, hline, hm⟩ := mem_statedRelations hr
  obtain ⟨l, hl, -, hread⟩ := exists_of_mem_forall₂ h hline
  exact ⟨l, hl, RelationLine.related_of_read hread hm⟩

end statedRelations

section BlockLines

variable {lines : List Text} {b : ClassBlock}

theorem wellFormed_of_blockLines (h : BlockLines lines b) (hl : ∀ l ∈ lines, l.Trimmed) :
    b.WellFormed := by
  cases h with
  | @intro first _ _ _ _ _ _ h rs ps ms _ hfirst hh hrs _ hps _ hms _ hrelates =>
    obtain rfl := TextSet.eq_ofList_related hrelates
    have hsep := Header.isSeparator_name_of_read (hl first (by simp)) hh
    refine ⟨(Header.isName_of_read hh).2, hsep.trans hfirst, fun r hr => ?_,
      fun r hr => (mem_statedRelations hr).1, ?_, fun p hp => ?_, fun m hm => ?_⟩
    · obtain ⟨_, -, hr, -⟩ := exists_line_of_mem_statedRelations hrs hr
      exact hr
    · rw [map_other_statedRelations]
    · obtain ⟨_, -, -, hread⟩ := exists_of_mem_forall₂ hps hp
      exact (Property.of_read hread).1
    · obtain ⟨_, -, -, hread⟩ := exists_of_mem_forall₂ hms hm
      exact (Method.of_read hread).1

theorem exists_line_of_mem_texts (h : BlockLines lines b) :
    ∀ t ∈ b.texts, ∃ l ∈ lines, t <:+: l := by
  cases h with
  | @intro first _ _ _ xs ys zs h rs ps ms _ _ hh hrs _ hps _ hms _ _ =>
    refine ClassBlock.forall_texts_iff.2 ⟨?_, fun r hr => ?_, fun p hp t ht => ?_,
      fun m hm t ht => ?_⟩
    · exact ⟨first, by simp, (Header.isName_of_read hh).1⟩
    · obtain ⟨l, hx, -, hi⟩ := exists_line_of_mem_statedRelations hrs hr
      exact ⟨l, by simp [hx], hi⟩
    · obtain ⟨l, hy, -, hread⟩ := exists_of_mem_forall₂ hps hp
      exact ⟨l, by simp [hy], (Property.of_read hread).2 t ht⟩
    · obtain ⟨l, hz, -, hread⟩ := exists_of_mem_forall₂ hms hm
      exact ⟨l, by simp [hz], (Method.of_read hread).2 t ht⟩

end BlockLines

/-- Every block of a text is well-formed, and none of its names and types could hide a comment or
the end of a line. -/
theorem wellFormed_of_readBlocks {t : Text} {blocks : List ClassBlock}
    (h : readBlocks t = .ok blocks) {b : ClassBlock} (hb : b ∈ blocks) :
    b.WellFormed ∧ ∀ s ∈ b.texts, s.Plain := by
  obtain ⟨groups, he, hg⟩ := exists_groups_of_readBlocks h
  obtain ⟨lines, hlines, hbl⟩ := exists_of_mem_forall₂ hg hb
  have hc : ∀ l ∈ lines, l.IsContent := fun l hl =>
    isContent_of_mem_contents (he ▸ List.mem_flatten_of_mem hlines hl)
  refine ⟨wellFormed_of_blockLines hbl fun l hl => (hc l hl).trimmed, fun s hs => ?_⟩
  obtain ⟨l, hl, hi⟩ := exists_line_of_mem_texts hbl s hs
  exact (hc l hl).plain.of_isInfix hi

theorem Diagram.wellFormed_of_parse {t : Text} {d : Diagram} (h : parse t = .ok d) :
    ∀ b ∈ d.blocks, b.WellFormed := by
  obtain ⟨blocks, hblocks, rfl⟩ := except_map_eq_ok_iff.1 h
  exact fun b hb => (wellFormed_of_readBlocks hblocks hb).1

end ClassNotation
