import ClassNotation.Diagram.Reading
import Mathlib.Data.List.Forall2

/-! The grammar of class blocks, on lists of content lines, and the block that such lines
declare. It says nothing of machines. -/

namespace ClassNotation

/-- The words that a relation line may begin with. -/
def relationKeywords : List (Text × RelationKind) :=
  [("extends".toList, .generalization), ("implements".toList, .realization),
    ("association".toList, .association), ("directionalAssociation".toList, .directedAssociation),
    ("composes".toList, .composition), ("aggregates".toList, .aggregation)]

/-- The relation between a class and another one that its line names. It leads to the class from
what the class composes or aggregates, and else from the class to the other. -/
def Relation.stated (owner named : Text) : RelationKind → Relation
  | .generalization => ⟨owner, named, .generalization⟩
  | .realization => ⟨owner, named, .realization⟩
  | .association => ⟨owner, named, .association⟩
  | .directedAssociation => ⟨owner, named, .directedAssociation⟩
  | .composition => ⟨named, owner, .composition⟩
  | .aggregation => ⟨named, owner, .aggregation⟩

theorem Relation.stated_eq_declaredBy (owner named : Text) (kind : RelationKind) :
    stated owner named kind = declaredBy owner named kind kind.direction := by
  cases kind <;> rfl

/-- The relations that lines of a class state, in the order in which the classes are named. -/
def statedRelations (owner : Text) (rs : List RelationLine) : List Relation :=
  rs.flatMap fun r => r.related.map (Relation.stated owner · r.kind)

def ClassBlock.ofLines (h : Header) (rs : List RelationLine) (ps : List Property)
    (ms : List Method) : ClassBlock :=
  ⟨h.name, h.qualifier, ps, ms, statedRelations h.name rs, TextSet.ofList (rs.flatMap (·.related))⟩

def Declares {α : Type} (read : Text → Except Fault α) (lines : List Text) (values : List α) :
    Prop :=
  List.Forall₂ (fun line a => isSeparator line = false ∧ read line = .ok a) lines values

/-- The lines of one block, which are a header, relations, a separator, properties, a separator,
methods and a separator, and what they say of the class. -/
inductive BlockLines : List Text → ClassBlock → Prop
  | intro {first sep₁ sep₂ sep₃ : Text} {xs ys zs : List Text} {h : Header}
      {rs : List RelationLine} {ps : List Property} {ms : List Method} {relates : TextSet}
      (hfirst : isSeparator first = false) (hh : Header.read first = .ok h)
      (hrs : Declares RelationLine.read xs rs) (hsep₁ : isSeparator sep₁ = true)
      (hps : Declares Property.read ys ps) (hsep₂ : isSeparator sep₂ = true)
      (hms : Declares (Method.read h.name) zs ms) (hsep₃ : isSeparator sep₃ = true)
      (hrelates : ∀ t, t ∈ relates ↔ ∃ r ∈ rs, t ∈ r.related) :
      BlockLines (first :: xs ++ sep₁ :: ys ++ sep₂ :: zs ++ [sep₃])
        ⟨h.name, h.qualifier, ps, ms, statedRelations h.name rs, relates⟩

theorem TextSet.mem_ofList_related {rs : List RelationLine} {t : Text} :
    t ∈ TextSet.ofList (rs.flatMap (·.related)) ↔ ∃ r ∈ rs, t ∈ r.related := by
  rw [mem_ofList, List.mem_flatMap]

theorem TextSet.eq_ofList_related {rs : List RelationLine} {s : TextSet}
    (h : ∀ t, t ∈ s ↔ ∃ r ∈ rs, t ∈ r.related) : s = TextSet.ofList (rs.flatMap (·.related)) :=
  TextMap.ext_get? fun t => Option.ext fun _ => (h t).trans mem_ofList_related.symm

theorem exists_of_mem_forall₂ {α β : Type} {R : α → β → Prop} {as : List α} {bs : List β}
    (h : List.Forall₂ R as bs) {b : β} (hb : b ∈ bs) : ∃ a ∈ as, R a b := by
  induction h with
  | nil => simp at hb
  | cons hx _ ih =>
    rcases List.mem_cons.1 hb with rfl | hb
    · exact ⟨_, List.mem_cons_self, hx⟩
    · obtain ⟨a, ha, hr⟩ := ih hb
      exact ⟨a, List.mem_cons_of_mem _ ha, hr⟩

theorem except_map_eq_ok_iff {ε α β : Type} {f : α → β} {x : Except ε α} {b : β} :
    x.map f = .ok b ↔ ∃ a, x = .ok a ∧ f a = b := by
  cases x <;> simp [Except.map]

theorem except_map_eq_error_iff {ε α β : Type} {f : α → β} {x : Except ε α} {e : ε} :
    x.map f = .error e ↔ x = .error e := by
  cases x <;> simp [Except.map]

section Declares

variable {α : Type} {read : Text → Except Fault α}

theorem Declares.append {xs ys : List Text} {as bs : List α} (hx : Declares read xs as)
    (hy : Declares read ys bs) : Declares read (xs ++ ys) (as ++ bs) :=
  List.rel_append hx hy

theorem Declares.single {line : Text} {a : α} (hs : isSeparator line = false)
    (hr : read line = .ok a) : Declares read [line] [a] :=
  .cons ⟨hs, hr⟩ .nil

theorem declares_map {write : α → Text} {values : List α}
    (h : ∀ a ∈ values, isSeparator (write a) = false ∧ read (write a) = .ok a) :
    Declares read (values.map write) values :=
  List.forall₂_map_left_iff.2 (List.forall₂_same.2 h)

end Declares

theorem BlockLines.ne_nil {lines : List Text} {b : ClassBlock} (h : BlockLines lines b) :
    lines ≠ [] := by
  cases h
  simp

end ClassNotation
