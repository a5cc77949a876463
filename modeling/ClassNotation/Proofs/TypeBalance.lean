import ClassNotation.Proofs.WellFormed

/-! Balanced types. The types of properties and the results of methods are checked one by one. Of
parameters only whole lists are, so a type may close a bracket that its parameter's name opens. -/

namespace ClassNotation

def ClassBlock.types (b : ClassBlock) : List Text :=
  b.properties.map (·.type) ++
    b.methods.flatMap fun m => m.parameters.map (·.type) ++ m.result.toList

/-- All types are balanced but those of parameters whose names are not. -/
theorem checkBrackets_of_parse {t : Text} {d : Diagram} (h : Diagram.parse t = .ok d) :
    (∀ s, checkBrackets s = .ok () ↔ Balanced s) ∧
    ∀ b ∈ d.blocks, (∀ p ∈ b.properties, checkBrackets p.type = .ok ()) ∧
      ∀ m ∈ b.methods, (∀ type ∈ m.result, checkBrackets type = .ok ()) ∧
        ∀ p ∈ m.parameters, (checkBrackets p.type = .ok () ↔ checkBrackets p.name = .ok ()) := by
  obtain ⟨blocks, hblocks, rfl⟩ := except_map_eq_ok_iff.1 h
  refine ⟨fun s => checkBrackets_eq_ok_iff, fun b hb => ?_⟩
  obtain ⟨hw, -⟩ := wellFormed_of_readBlocks hblocks hb
  refine ⟨fun p hp => (hw.properties p hp).brackets, fun m hm => ?_⟩
  have hmethod := hw.methods m hm
  constructor
  · intro type ht
    exact (hmethod.result.of_mem ht).2
  · intro p hp
    exact (hmethod.parameters p hp).checkBrackets_type

/-- The class of a method whose parameter closes in its type what it opens in its name. -/
def crossedBlock : ClassBlock :=
  .ofLines ⟨"A".toList, none⟩ [] []
    [⟨"f".toList, .pub, false, [⟨"a<".toList, "b>".toList⟩], some "int".toList⟩]

theorem checkBrackets_of_parse_crossed :
    Diagram.parse "A\n---\n---\n+ f(a<: b>): int\n---".toList = .ok ⟨[crossedBlock]⟩ ∧
    checkBrackets "int".toList = .ok () ∧
    (checkBrackets "b>".toList = .ok () ↔ checkBrackets "a<".toList = .ok ()) := by
  have h : Diagram.parse "A\n---\n---\n+ f(a<: b>): int\n---".toList = .ok ⟨[crossedBlock]⟩ := by
    decide +kernel
  obtain ⟨-, hb⟩ := checkBrackets_of_parse h
  obtain ⟨-, hm⟩ := hb crossedBlock List.mem_cons_self
  obtain ⟨hresult, hparameter⟩ := hm _ List.mem_cons_self
  exact ⟨h, hresult _ rfl, hparameter _ List.mem_cons_self⟩

theorem not_forall_types_checkBrackets :
    ¬ ∀ (t : Text) (d : Diagram), Diagram.parse t = .ok d →
      ∀ b ∈ d.blocks, ∀ type ∈ b.types, checkBrackets type = .ok () := by
  intro h
  have hparse : Diagram.parse "A\n---\n---\n+ f(a<: b>): int\n---".toList =
      .ok ⟨[crossedBlock]⟩ := by decide +kernel
  have hb := h _ _ hparse crossedBlock List.mem_cons_self "b>".toList (by decide)
  exact absurd hb (by decide)

end ClassNotation
