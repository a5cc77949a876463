import ClassNotation.Proofs.WellFormed

/-! The written form of a diagram: each class has a line for its header, for every relation and
every member, and the separators. Whatever has been read is read from its written form again. -/

namespace ClassNotation

/-- The keyword of the kind, and the end that is not the class whose line it is. -/
def Relation.written (r : Relation) : Text :=
  match r.kind with
  | .generalization => "extends".toList ++ ' ' :: r.target
  | .realization => "implements".toList ++ ' ' :: r.target
  | .association => "association".toList ++ ' ' :: r.target
  | .directedAssociation => "directionalAssociation".toList ++ ' ' :: r.target
  | .composition => "composes".toList ++ ' ' :: r.source
  | .aggregation => "aggregates".toList ++ ' ' :: r.source

def ClassBlock.writtenLines (b : ClassBlock) : List Text :=
  Header.written ⟨b.name, b.qualifier⟩ :: b.relations.map Relation.written ++
    separatorMark :: b.properties.map Property.written ++
    separatorMark :: b.methods.map Method.written ++ [separatorMark]

def Diagram.written (d : Diagram) : Text :=
  (d.blocks.flatMap ClassBlock.writtenLines).flatMap (· ++ ['\n'])

def oneByOne (relations : List Relation) : List RelationLine :=
  relations.map fun r => ⟨r.kind, [r.other]⟩

theorem Relation.written_eq (r : Relation) : r.written = RelationLine.written r.kind r.other := by
  obtain ⟨source, target, kind⟩ := r
  cases kind <;> rfl

theorem statedRelations_oneByOne {owner : Text} {relations : List Relation}
    (h : ∀ r ∈ relations, r = .stated owner r.other r.kind) :
    statedRelations owner (oneByOne relations) = relations := by
  have hr : ∀ r ∈ relations, Relation.stated owner r.other r.kind = r := fun r hr => (h r hr).symm
  simp only [statedRelations, oneByOne, List.flatMap_map, List.map_cons, List.map_nil,
    ← List.map_eq_flatMap, List.map_congr_left hr, List.map_id']

theorem flatMap_related_oneByOne (relations : List Relation) :
    (oneByOne relations).flatMap (·.related) = relations.map Relation.other := by
  simp only [oneByOne, List.flatMap_map, ← List.map_eq_flatMap]

theorem declares_oneByOne {relations : List Relation} (h : ∀ r ∈ relations, r.other.Related) :
    Declares RelationLine.read (relations.map Relation.written) (oneByOne relations) := by
  rw [oneByOne, Declares, List.forall₂_map_left_iff, List.forall₂_map_right_iff, List.forall₂_same]
  intro r hr
  rw [r.written_eq]
  exact ⟨RelationLine.isSeparator_written _ _, RelationLine.read_written (h r hr)⟩

namespace ClassBlock

variable {b : ClassBlock}

theorem WellFormed.mem_relates_oneByOne (h : b.WellFormed) (t : Text) :
    t ∈ b.relates ↔ ∃ r ∈ oneByOne b.relations, t ∈ r.related := by
  rw [h.relates, ← flatMap_related_oneByOne, TextSet.mem_ofList_related]

theorem WellFormed.blockLines (h : b.WellFormed) : BlockLines b.writtenLines b := by
  have hsep : isSeparator (Header.written ⟨b.name, b.qualifier⟩) = false :=
    (Header.isSeparator_written _).trans h.header
  have hmark : isSeparator separatorMark = true := rfl
  have hps : Declares Property.read (b.properties.map Property.written) b.properties :=
    declares_map fun p hp =>
      ⟨MemberLine.isSeparator_written, Property.read_written (h.properties p hp)⟩
  have hms : Declares (Method.read b.name) (b.methods.map Method.written) b.methods :=
    declares_map fun m hm => ⟨MemberLine.isSeparator_written, Method.read_written (h.methods m hm)⟩
  have hb := BlockLines.intro hsep (Header.read_written h.name) (declares_oneByOne h.related) hmark
    hps hmark hms hmark h.mem_relates_oneByOne
  rw [statedRelations_oneByOne h.relation] at hb
  exact hb

theorem WellFormed.isContent_writtenLines (h : b.WellFormed) (ht : ∀ t ∈ b.texts, t.Plain) :
    ∀ l ∈ b.writtenLines, l.IsContent := by
  obtain ⟨hn, hr, hp, hm⟩ := forall_texts_iff.1 ht
  intro l hl
  simp only [writtenLines, List.cons_append, List.append_assoc, List.mem_cons, List.mem_append,
    List.mem_map, List.not_mem_nil, or_false] at hl
  rcases hl with rfl | ⟨r, hmem, rfl⟩ | rfl | ⟨p, hmem, rfl⟩ | rfl | ⟨m, hmem, rfl⟩ | rfl
  · exact Header.isContent_written h.name hn
  · rw [r.written_eq]
    exact RelationLine.isContent_written (h.related r hmem) (hr r hmem)
  · exact isContent_separatorMark
  · exact Property.isContent_written (h.properties p hmem) (hp p hmem)
  · exact isContent_separatorMark
  · exact Method.isContent_written (h.methods m hmem) (hm m hmem)
  · exact isContent_separatorMark

end ClassBlock

theorem readBlocks_written {blocks : List ClassBlock} (hn : blocks ≠ [])
    (h : ∀ b ∈ blocks, b.WellFormed ∧ ∀ t ∈ b.texts, t.Plain) :
    readBlocks (Diagram.written ⟨blocks⟩) = .ok blocks := by
  have hc : ∀ l ∈ blocks.flatMap ClassBlock.writtenLines, l.IsContent := by
    rw [List.forall_mem_flatMap]
    exact fun b hb => (h b hb).1.isContent_writtenLines (h b hb).2
  have hcontents : contents (Diagram.written ⟨blocks⟩) =
      (blocks.map ClassBlock.writtenLines).flatten := by
    rw [Diagram.written, contents_flatMap_feed hc]
    rfl
  have hblocks : List.Forall₂ BlockLines (blocks.map ClassBlock.writtenLines) blocks := by
    rw [List.forall₂_map_left_iff, List.forall₂_same]
    exact fun b hb => (h b hb).1.blockLines
  exact readBlocks_of_groups hn hcontents hblocks

/-- What has been read is read again from its written form. -/
theorem parse_written {t : Text} {d : Diagram} (h : Diagram.parse t = .ok d) :
    Diagram.parse d.written = .ok d := by
  obtain ⟨blocks, hb, rfl⟩ := except_map_eq_ok_iff.1 h
  have hw := readBlocks_written (readBlocks_ne_nil hb) fun b => wellFormed_of_readBlocks hb
  exact except_map_eq_ok_iff.2 ⟨blocks, hw, rfl⟩

/-- A class whose property is called `static`, with relations in both directions. -/
def shapeBlock : ClassBlock :=
  ⟨"Shape".toList, some .abstract, [⟨"static".toList, "A/B".toList, .pub, false⟩],
    [⟨"f".toList, .prot, true, [⟨"p<".toList, "q>".toList⟩], some "t".toList⟩],
    [⟨"Map<K".toList, "Shape".toList, .composition⟩, ⟨"V>".toList, "Shape".toList, .composition⟩,
      ⟨"Shape".toList, "C <Interface>".toList, .realization⟩,
      ⟨"P".toList, "Shape".toList, .aggregation⟩],
    TextSet.ofList ["C <Interface>".toList, "Map<K".toList, "P".toList, "V>".toList]⟩

def shapeText : Text :=
  ("Shape\t<Abstract> // x\ncomposes  Map<K, V>\nimplements C <Interface>\naggregates P\n---\n" ++
    "+\tstatic: A/B\n---\n# static f( p<:q> ):t\n---").toList

theorem parse_written_shape :
    Diagram.parse shapeText = .ok ⟨[shapeBlock]⟩ ∧
    Diagram.written ⟨[shapeBlock]⟩ = ("Shape <Abstract>\ncomposes Map<K\ncomposes V>\n" ++
      "implements C <Interface>\naggregates P\n---\n+ static: A/B\n---\n" ++
      "# static f(p<: q>): t\n---\n").toList ∧
    Diagram.parse (Diagram.written ⟨[shapeBlock]⟩) = .ok ⟨[shapeBlock]⟩ := by
  have h : Diagram.parse shapeText = .ok ⟨[shapeBlock]⟩ := by decide +kernel
  exact ⟨h, by decide +kernel, parse_written h⟩

end ClassNotation
