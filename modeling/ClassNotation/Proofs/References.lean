import ClassNotation.Proofs.Java.Head
import ClassNotation.Proofs.WellFormed

/-! References between classes. A class that a relation or a source of a diagram that has been read
names is declared in it, or is reported as missing. -/

namespace ClassNotation

theorem className_of_isName {t : Text} (h : t.isName = true) : className t = t := by
  rw [className, Text.words_of_isName h]
  rfl

theorem className_isInfix (t : Text) : className t <:+: t := by
  rw [className]
  cases hw : t.words with
  | nil => exact List.infix_rfl
  | cons w ws =>
    have hmem : w ∈ t.words := by simp [hw]
    exact (Text.mem_words hmem).1

theorem className_of_related {t : Text} (h : t.Related) :
    (className t).isName = true ∧ ',' ∉ className t := by
  cases hc : Text.cutAt? isBlank t with
  | none =>
    have hn := Text.isName_of_cutAt? h.nonempty hc
    rw [className_of_isName hn]
    exact ⟨hn, h.comma⟩
  | some cut =>
    obtain ⟨front, rest⟩ := cut
    obtain ⟨hn, hwords⟩ := Text.words_of_cutAt? h.trimmed.head hc
    have he : className t = front := by
      rw [className, hwords]
      rfl
    rw [he]
    exact ⟨hn, fun hm => h.comma ((Text.isInfix_of_cutAt? hc).1.subset hm)⟩

theorem Diagram.mem_missing_iff {d : Diagram} {n : Text} :
    n ∈ d.missing ↔ (∃ b ∈ d.blocks, ∃ t ∈ b.relates, n = className t) ∧ n ∉ d.names := by
  simp only [missing, TextSet.mem_ofList, List.mem_filter, List.mem_map, List.mem_flatMap,
    TextSet.mem_toList, decide_eq_true_eq]
  constructor
  · rintro ⟨⟨t, ⟨b, hb, ht⟩, rfl⟩, hn⟩
    exact ⟨⟨b, hb, t, ht, rfl⟩, hn⟩
  · rintro ⟨⟨b, hb, t, ht, rfl⟩, hn⟩
    exact ⟨⟨t, ⟨b, hb, ht⟩, rfl⟩, hn⟩

namespace ClassBlock

variable {b : ClassBlock}

theorem WellFormed.mem_relates_iff (h : b.WellFormed) {t : Text} :
    t ∈ b.relates ↔ ∃ r ∈ b.relations, r.other = t := by
  rw [h.relates, TextSet.mem_ofList, List.mem_map]

/-- One end of a relation is its class, and the other is what the block relates to. -/
theorem WellFormed.className_end_iff (h : b.WellFormed) {r : Relation} (hr : r ∈ b.relations)
    {n : Text} :
    n = className r.source ∨ n = className r.target ↔ n = b.name ∨ n = className r.other := by
  have hname := className_of_isName h.name
  rcases h.ends hr with ⟨hs, ht⟩ | ⟨hs, ht⟩
  · rw [hs, ht, hname]
  · rw [hs, ht, hname, or_comm]

theorem of_mem_targets (kind : RelationKind) (hd : kind.direction = .forward) {n : Text}
    (hn : n ∈ (b.relations.filter (·.kind = kind)).map fun r => className r.target) :
    ∃ r ∈ b.relations, n = className r.other := by
  obtain ⟨r, hr, rfl⟩ := List.mem_map.1 hn
  obtain ⟨hr, hk⟩ := List.mem_filter.1 hr
  rw [← of_decide_eq_true hk] at hd
  exact ⟨r, hr, by rw [Relation.other_of_forward hd]⟩

theorem of_mem_extended {n : Text} (hn : n ∈ Java.extended b) :
    ∃ r ∈ b.relations, n = className r.other :=
  of_mem_targets .generalization rfl hn

theorem of_mem_implemented {n : Text} (hn : n ∈ Java.implemented b) :
    ∃ r ∈ b.relations, n = className r.other :=
  of_mem_targets .realization rfl hn

theorem WellFormed.supertypes_source (h : b.WellFormed) (package : Option Text) :
    Java.supertypes package (Java.source package b) = Java.extended b ++ Java.implemented b := by
  have hname : ∀ n, (∃ r ∈ b.relations, n = className r.other) → n.isName = true ∧ ',' ∉ n := by
    rintro n ⟨r, hr, rfl⟩
    exact className_of_related (h.related r hr)
  exact Java.supertypes_source package h.name
    (fun n hn => (hname n (of_mem_extended hn)).1)
    (fun n hn => (hname n (of_mem_implemented hn)).1)
    fun n hn => (hname n (of_mem_implemented hn)).2

theorem WellFormed.of_mem_supertypes (h : b.WellFormed) {package : Option Text} {n : Text}
    (hn : n ∈ Java.supertypes package (Java.source package b)) :
    ∃ t ∈ b.relates, n = className t := by
  have hother : ∃ r ∈ b.relations, n = className r.other := by
    rw [h.supertypes_source] at hn
    exact (List.mem_append.1 hn).elim of_mem_extended of_mem_implemented
  obtain ⟨r, hr, rfl⟩ := hother
  exact ⟨r.other, h.mem_relates_iff.2 ⟨r, hr, rfl⟩, rfl⟩

end ClassBlock

theorem Java.of_get?_sources {package : Option Text} {blocks : List ClassBlock} {name text : Text}
    (h : (sources package blocks).get? name = some text) :
    ∃ b ∈ blocks, b.name = name ∧ source package b = text := by
  obtain ⟨b, hb, he⟩ := List.mem_map.1 (TextMap.mem_of_get?_ofList h)
  obtain ⟨hname, htext⟩ := Prod.mk.inj he
  exact ⟨b, hb, hname, htext⟩

theorem Java.mem_keys_sources {package : Option Text} {blocks : List ClassBlock} {name : Text} :
    name ∈ (sources package blocks).keys ↔ name ∈ blocks.map (·.name) := by
  rw [sources, TextMap.mem_keys_ofList, List.map_map]
  rfl

theorem Diagram.mem_missing_iff_of_wellFormed {d : Diagram} (h : ∀ b ∈ d.blocks, b.WellFormed)
    {n : Text} :
    n ∈ d.missing ↔
      (∃ r ∈ d.relations, n = className r.source ∨ n = className r.target) ∧ n ∉ d.names := by
  rw [mem_missing_iff]
  refine and_congr_left fun hn => ?_
  constructor
  · rintro ⟨b, hb, t, ht, rfl⟩
    obtain ⟨r, hr, rfl⟩ := (h b hb).mem_relates_iff.1 ht
    exact ⟨r, List.mem_flatMap.2 ⟨b, hb, hr⟩, ((h b hb).className_end_iff hr).2 (.inr rfl)⟩
  · rintro ⟨r, hr, he⟩
    obtain ⟨b, hb, hr⟩ := List.mem_flatMap.1 hr
    rcases ((h b hb).className_end_iff hr).1 he with rfl | rfl
    · exact absurd (List.mem_map_of_mem hb) hn
    · exact ⟨b, hb, r.other, (h b hb).mem_relates_iff.2 ⟨r, hr, rfl⟩, rfl⟩

/-- Missing are the classes at the ends of relations that are not declared, and what a source names
behind `extends` and `implements` has a source itself or is missing. -/
theorem Diagram.references_closed {t : Text} {d : Diagram} (h : parse t = .ok d) :
    (∀ n, n ∈ d.missing ↔
      (∃ r ∈ d.relations, n = className r.source ∨ n = className r.target) ∧ n ∉ d.names) ∧
    ∀ package name text, (Java.sources package d.blocks).get? name = some text →
      (∃ b ∈ d.blocks, b.name = name ∧
        Java.supertypes package text = Java.extended b ++ Java.implemented b) ∧
      ∀ n ∈ Java.supertypes package text,
        n ∈ (Java.sources package d.blocks).keys ∨ n ∈ d.missing := by
  obtain ⟨blocks, hblocks, rfl⟩ := except_map_eq_ok_iff.1 h
  have hw : ∀ b ∈ (empty.append blocks).blocks, b.WellFormed := fun b hb =>
    (wellFormed_of_readBlocks hblocks hb).1
  refine ⟨fun n => mem_missing_iff_of_wellFormed hw, fun package name text htext => ?_⟩
  obtain ⟨b, hb, rfl, rfl⟩ := Java.of_get?_sources htext
  refine ⟨⟨b, hb, rfl, (hw b hb).supertypes_source package⟩, fun n hn => ?_⟩
  by_cases hdeclared : n ∈ (empty.append blocks).names
  · exact .inl (Java.mem_keys_sources.2 hdeclared)
  · obtain ⟨t, ht, rfl⟩ := (hw b hb).of_mem_supertypes hn
    exact .inr (mem_missing_iff.2 ⟨⟨b, hb, t, ht, rfl⟩, hdeclared⟩)

/-- A class with every kind of clause that composes another one. -/
def clausedText : Text :=
  "A <Abstract>\nextends B\nimplements C <Interface>, A\ncomposes D\n---\n---\n---".toList

def clausedBlock : ClassBlock :=
  .ofLines ⟨"A".toList, some .abstract⟩
    [⟨.generalization, ["B".toList]⟩, ⟨.realization, ["C <Interface>".toList, "A".toList]⟩,
      ⟨.composition, ["D".toList]⟩] [] []

theorem Diagram.references_closed_claused :
    parse clausedText = .ok ⟨[clausedBlock]⟩ ∧
    ("D".toList ∈ (⟨[clausedBlock]⟩ : Diagram).missing ∧
      "A".toList ∉ (⟨[clausedBlock]⟩ : Diagram).missing) ∧
    Java.supertypes (some "p".toList) (Java.source (some "p".toList) clausedBlock) =
      ["B".toList, "C".toList, "A".toList] ∧
    ∀ n ∈ Java.supertypes (some "p".toList) (Java.source (some "p".toList) clausedBlock),
      n ∈ (Java.sources (some "p".toList) [clausedBlock]).keys ∨
        n ∈ (⟨[clausedBlock]⟩ : Diagram).missing := by
  have h : parse clausedText = .ok ⟨[clausedBlock]⟩ := by decide +kernel
  have hsource : (Java.sources (some "p".toList) [clausedBlock]).get? "A".toList =
      some (Java.source (some "p".toList) clausedBlock) := by decide +kernel
  obtain ⟨hmissing, hclauses⟩ := references_closed h
  obtain ⟨-, hclosed⟩ := hclauses _ _ _ hsource
  refine ⟨h, ⟨(hmissing _).2 ⟨⟨⟨"D".toList, "A".toList, .composition⟩, ?_, .inl rfl⟩, ?_⟩, ?_⟩,
    ?_, hclosed⟩
  · decide
  · decide
  · exact fun hm => ((hmissing _).1 hm).2 (by decide)
  · decide +kernel

end ClassNotation
