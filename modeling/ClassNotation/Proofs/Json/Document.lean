import ClassNotation.Diagram.Document
import ClassNotation.Proofs.Json.Reading

/-! Diagrams read back from their documents. What is absent from a document is absent from the
model, so nothing is lost. -/

namespace ClassNotation

namespace Json

def text? : Json → Option Text
  | .text t => some t
  | _ => none

def items? {α : Type} (read? : Json → Option α) : Json → Option (List α)
  | .array items => items.mapM read?
  | _ => none

def member? (j : Json) (key : Text) : Option Json :=
  match j with
  | .object members => members.lookup key
  | _ => none

theorem items?_array_map {α : Type} {read? : Json → Option α} {write : α → Json}
    (h : ∀ a, read? (write a) = some a) (as : List α) :
    items? read? (.array (as.map write)) = some as := by
  induction as with
  | nil => rfl
  | cons a as ih =>
    rw [items?] at ih ⊢
    rw [List.map_cons, List.mapM_cons, h, ih]
    rfl

end Json

def Visibility.ofKeyword? (t : Text) : Option Visibility :=
  all.find? (·.keyword = t)

def RelationKind.ofName? (t : Text) : Option RelationKind :=
  all.find? (·.name = t)

def Visibility.ofJson? (j : Json) : Option Visibility := do
  Visibility.ofKeyword? (← j.text?)

def Property.ofJson? (j : Json) : Option Property := do
  return ⟨← (← j.member? "name".toList).text?, ← (← j.member? "type".toList).text?,
    ← Visibility.ofJson? (← j.member? "visibility".toList),
    (j.member? "scope".toList).isSome⟩

def Parameter.ofJson? (j : Json) : Option Parameter := do
  return ⟨← (← j.member? "name".toList).text?, ← (← j.member? "type".toList).text?⟩

def Method.ofJson? (j : Json) : Option Method := do
  return ⟨← (← j.member? "name".toList).text?,
    ← Visibility.ofJson? (← j.member? "visibility".toList),
    (j.member? "scope".toList).isSome,
    ← (← j.member? "parameters".toList).items? Parameter.ofJson?,
    ← (j.member? "type".toList).mapM Json.text?⟩

def Relation.ofJson? (j : Json) : Option Relation := do
  return ⟨← (← j.member? "from".toList).text?, ← (← j.member? "to".toList).text?,
    ← RelationKind.ofName? (← (← j.member? "relationship".toList).text?)⟩

def ClassBlock.ofJson? (j : Json) : Option ClassBlock := do
  let context ← j.member? "context".toList
  return ⟨← (← context.member? "name".toList).text?,
    ← (context.member? "qualifier".toList).mapM fun q => q.text? >>= Qualifier.ofToken?,
    ← (← context.member? "properties".toList).items? Property.ofJson?,
    ← (← context.member? "methods".toList).items? Method.ofJson?,
    ← (← j.member? "relations".toList).items? Relation.ofJson?,
    TextSet.ofList (← (← j.member? "relates".toList).items? Json.text?)⟩

def Diagram.ofJson? (j : Json) : Option Diagram := do
  return ⟨← (← j.member? "classes".toList).items? ClassBlock.ofJson?⟩

theorem Property.ofJson?_toJson (p : Property) : ofJson? p.toJson = some p := by
  obtain ⟨name, type, visibility, isStatic⟩ := p
  cases visibility <;> cases isStatic <;> rfl

theorem Parameter.ofJson?_toJson (p : Parameter) : ofJson? p.toJson = some p :=
  rfl

theorem Method.ofJson?_toJson (m : Method) : ofJson? m.toJson = some m := by
  obtain ⟨name, visibility, isStatic, parameters, result⟩ := m
  have hread : ofJson? (toJson ⟨name, visibility, isStatic, parameters, result⟩) =
      (Json.items? Parameter.ofJson? (.array (parameters.map Parameter.toJson)) >>= fun ps =>
        some ⟨name, visibility, isStatic, ps, result⟩) := by
    cases visibility <;> cases isStatic <;> cases result <;> rfl
  rw [hread, Json.items?_array_map Parameter.ofJson?_toJson]
  rfl

theorem Relation.ofJson?_toJson (r : Relation) : ofJson? r.toJson = some r := by
  obtain ⟨source, target, kind⟩ := r
  cases kind <;> rfl

theorem TextSet.ofList_toList (s : TextSet) : ofList (toList s) = s := by
  have hmem : ∀ t, t ∈ ofList (toList s) ↔ t ∈ s := fun _ => mem_ofList.trans mem_toList
  exact TextMap.ext_get? fun t => Option.ext fun _ => hmem t

theorem ClassBlock.ofJson?_toJson (b : ClassBlock) : ofJson? b.toJson = some b := by
  obtain ⟨name, qualifier, properties, methods, relations, relates⟩ := b
  have hread : ofJson? (toJson ⟨name, qualifier, properties, methods, relations, relates⟩) =
      (Json.items? Property.ofJson? (.array (properties.map Property.toJson)) >>= fun ps =>
        Json.items? Method.ofJson? (.array (methods.map Method.toJson)) >>= fun ms =>
        Json.items? Relation.ofJson? (.array (relations.map Relation.toJson)) >>= fun rs =>
        Json.items? Json.text? (.array ((TextSet.toList relates).map Json.text)) >>= fun ts =>
        some ⟨name, qualifier, ps, ms, rs, TextSet.ofList ts⟩) := by
    rcases qualifier with _ | q
    · rfl
    · cases q <;> rfl
  have htext : ∀ t, Json.text? (.text t) = some t := fun _ => rfl
  rw [hread, Json.items?_array_map Property.ofJson?_toJson,
    Json.items?_array_map Method.ofJson?_toJson, Json.items?_array_map Relation.ofJson?_toJson,
    Json.items?_array_map htext]
  simp only [Option.bind_eq_bind, Option.bind_some, TextSet.ofList_toList]

theorem Diagram.ofJson?_toJson (d : Diagram) : ofJson? d.toJson = some d := by
  have hread : ofJson? d.toJson =
      (Json.items? ClassBlock.ofJson? (.array (d.blocks.map ClassBlock.toJson)) >>= fun blocks =>
        some ⟨blocks⟩) := rfl
  rw [hread, Json.items?_array_map ClassBlock.ofJson?_toJson]
  rfl

namespace Diagram

def ofDocument? (t : Text) : Option Diagram :=
  Json.read? t >>= ofJson?

theorem ofDocument?_compact (d : Diagram) : ofDocument? (Json.compact d.toJson) = some d := by
  rw [ofDocument?, Json.read?_compact]
  exact d.ofJson?_toJson

theorem ofDocument?_pretty (d : Diagram) : ofDocument? (Json.pretty 0 d.toJson) = some d := by
  rw [ofDocument?, Json.read?_pretty]
  exact d.ofJson?_toJson

theorem injective_of_ofDocument? {write : Diagram → Text}
    (h : ∀ d, ofDocument? (write d) = some d) : Function.Injective write := by
  intro d d' he
  have hsome : some d = some d' := calc
    some d = ofDocument? (write d) := (h d).symm
    _ = ofDocument? (write d') := congrArg ofDocument? he
    _ = some d' := h d'
  exact Option.some.inj hsome

/-- Both forms of the document of a diagram are read back, so two diagrams never share one. They
differ in blanks outside literals only. -/
theorem document_lossless :
    (∀ d : Diagram, ofDocument? (Json.compact d.toJson) = some d ∧
      ofDocument? (Json.pretty 0 d.toJson) = some d ∧
      squeeze (Json.pretty 0 d.toJson) = Json.compact d.toJson) ∧
    Function.Injective (fun d : Diagram => Json.compact d.toJson) ∧
    Function.Injective (fun d : Diagram => Json.pretty 0 d.toJson) :=
  ⟨fun d => ⟨ofDocument?_compact d, ofDocument?_pretty d, Json.squeeze_pretty 0 d.toJson⟩,
    injective_of_ofDocument? ofDocument?_compact, injective_of_ofDocument? ofDocument?_pretty⟩

end Diagram

end ClassNotation
