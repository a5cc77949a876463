import ClassNotation.Conversion
import ClassNotation.Proofs.FirstFault
import ClassNotation.Proofs.Java.Head
import ClassNotation.Proofs.RelationLines
import ClassNotation.Proofs.WellFormed

/-! What a source shows of the relations of its class. Only those that extend or implement show,
and each of the two kinds in its own order, so other relation lines may come and go and lines of the
two kinds may change places. -/

namespace ClassNotation

def RelationKind.inherits : RelationKind → Bool
  | .generalization | .realization => true
  | _ => false

theorem filter_kind_statedRelations (owner : Text) (rs : List RelationLine)
    (kind : RelationKind) :
    (statedRelations owner rs).filter (·.kind = kind) =
      statedRelations owner (rs.filter (·.kind = kind)) := by
  induction rs with
  | nil => rfl
  | cons r rs ih =>
    have hcons : ∀ rs, statedRelations owner (r :: rs) =
        r.related.map (Relation.stated owner · r.kind) ++ statedRelations owner rs :=
      fun _ => List.flatMap_cons
    rw [hcons, List.filter_append, ih, List.filter_cons]
    by_cases hk : r.kind = kind
    · have hall : (r.related.map (Relation.stated owner · r.kind)).filter (·.kind = kind) =
          r.related.map (Relation.stated owner · r.kind) := by
        rw [List.filter_eq_self]
        simp [Relation.kind_stated, hk]
      rw [hall, if_pos (decide_eq_true hk), hcons]
    · have hnone :
          (r.related.map (Relation.stated owner · r.kind)).filter (·.kind = kind) = [] := by
        rw [List.filter_eq_nil_iff]
        simp [Relation.kind_stated, hk]
      rw [hnone, if_neg (by simpa using hk), List.nil_append]

namespace RelationLine

def InheritAlike (rs rs' : List RelationLine) : Prop :=
  ∀ kind : RelationKind, kind.inherits = true →
    rs.filter (·.kind = kind) = rs'.filter (·.kind = kind)

theorem stable_inheritAlike : Stable InheritAlike := by
  refine ⟨fun rs kind _ => rfl, fun h r kind hk => ?_⟩
  rw [List.filter_append, List.filter_append, h kind hk]

theorem inheritAlike_append (rs : List RelationLine) {more more' : List RelationLine}
    (h : InheritAlike more more') : InheritAlike (rs ++ more) (rs ++ more') := by
  intro kind hk
  rw [List.filter_append, List.filter_append, h kind hk]

theorem inheritAlike_nil {r : RelationLine} (h : r.kind.inherits = false) :
    InheritAlike [r] [] := by
  intro kind hk
  have hne : r.kind ≠ kind := by
    rintro rfl
    simp [h] at hk
  simp [hne]

theorem inheritAlike_swap {r r' : RelationLine} (h : r.kind ≠ r'.kind) :
    InheritAlike [r, r'] [r', r] := by
  intro kind _
  by_cases hr : r.kind = kind
  · have hr' : r'.kind ≠ kind := fun he => h (hr.trans he.symm)
    simp [hr, hr']
  · simp [List.filter_cons, hr]

end RelationLine

namespace Java

theorem filter_relations_ofLines (h : Header) (ps : List Property) (ms : List Method)
    {rs rs' : List RelationLine} (hr : RelationLine.InheritAlike rs rs') {kind : RelationKind}
    (hk : kind.inherits = true) :
    (ClassBlock.ofLines h rs ps ms).relations.filter (·.kind = kind) =
      (ClassBlock.ofLines h rs' ps ms).relations.filter (·.kind = kind) := by
  rw [ClassBlock.ofLines, ClassBlock.ofLines, filter_kind_statedRelations,
    filter_kind_statedRelations, hr kind hk]

variable {b b' : ClassBlock} (package : Option Text)

theorem classHead_of_sameBut (h : ClassBlock.SameBut RelationLine.InheritAlike b b') :
    classHead b = classHead b' := by
  cases h with
  | intro h ps ms hr =>
    have hextends := filter_relations_ofLines h ps ms hr
      (rfl : RelationKind.generalization.inherits = true)
    have himplements := filter_relations_ofLines h ps ms hr
      (rfl : RelationKind.realization.inherits = true)
    unfold classHead implemented
    rw [flatMap_extendsClause, flatMap_extendsClause, hextends, himplements]
    rfl

theorem source_of_sameBut (h : ClassBlock.SameBut RelationLine.InheritAlike b b') :
    source package b = source package b' := by
  unfold source
  rw [classHead_of_sameBut h]
  cases h
  rfl

theorem sources_of_sameBut (bs : List ClassBlock) {cs cs' : List ClassBlock}
    (hcs : List.Forall₂ (ClassBlock.SameBut RelationLine.InheritAlike) cs cs') :
    sources package (bs ++ cs) = sources package (bs ++ cs') := by
  have hmap : (cs.map fun b => (b.name, source package b)) =
      cs'.map fun b => (b.name, source package b) := by
    induction hcs with
    | nil => rfl
    | cons hb _ ih =>
      rw [List.map_cons, List.map_cons, ih, source_of_sameBut package hb]
      cases hb
      rfl
  rw [sources, sources, List.map_append, List.map_append, hmap]

end Java

/-- The line states relations of the kind, possibly with a comment behind them. -/
def StatesRelation (kind : RelationKind) (line : Text) : Prop :=
  ∃ related, RelationLine.read (stripComment line) = .ok ⟨kind, related⟩

/-- An edit in the header of a class. Lines that neither extend nor implement come and go, and of
two in a row that state different kinds either may be the first. -/
inductive RelationEdit : List Text → List Text → Prop
  | delete {pre post : List Text} {line : Text} {kind : RelationKind} (hpre : EndsInHeader pre)
      (hline : StatesRelation kind line) (hk : kind.inherits = false) :
      RelationEdit (pre ++ line :: post) (pre ++ post)
  | insert {pre post : List Text} {line : Text} {kind : RelationKind} (hpre : EndsInHeader pre)
      (hline : StatesRelation kind line) (hk : kind.inherits = false) :
      RelationEdit (pre ++ post) (pre ++ line :: post)
  | swap {pre between post : List Text} {x y : Text} {kind kind' : RelationKind}
      (hpre : EndsInHeader pre) (hx : StatesRelation kind x) (hy : StatesRelation kind' y)
      (hk : kind ≠ kind') (hbetween : ∀ line ∈ between, stripComment line = []) :
      RelationEdit (pre ++ x :: between ++ y :: post) (pre ++ y :: between ++ x :: post)

theorem StatesRelation.stated {kind : RelationKind} {line : Text} (h : StatesRelation kind line) :
    ∃ r : RelationLine, r.kind = kind ∧ StatedLines [line] [r] := by
  obtain ⟨related, hread⟩ := h
  exact ⟨⟨kind, related⟩, rfl, .single hread⟩

theorem sources_of_edit {t u : Text} {pre xs ys post : List Text} {more more' : List RelationLine}
    {blocks : List ClassBlock} (hpre : EndsInHeader pre) (hx : StatedLines xs more)
    (hy : StatedLines ys more') (hxy : RelationLine.InheritAlike more more')
    (ht : t.lines = pre ++ xs ++ post) (hu : u.lines = pre ++ ys ++ post)
    (hread : readBlocks t = .ok blocks) :
    ∃ blocks', readBlocks u = .ok blocks' ∧
      ∀ package, Java.sources package blocks = Java.sources package blocks' := by
  obtain ⟨bs, cs, cs', rfl, hread', hcs⟩ := readBlocks_exchange_lines
    RelationLine.stable_inheritAlike hpre hx hy (fun rs => RelationLine.inheritAlike_append rs hxy)
    ht hu hread
  exact ⟨bs ++ cs', hread', fun package => Java.sources_of_sameBut package bs hcs⟩

theorem RelationEdit.sources_eq {t u : Text} {blocks : List ClassBlock}
    (h : RelationEdit t.lines u.lines) (hread : readBlocks t = .ok blocks) :
    ∃ blocks', readBlocks u = .ok blocks' ∧
      ∀ package, Java.sources package blocks = Java.sources package blocks' := by
  generalize ht : t.lines = ls at h
  generalize hu : u.lines = ls' at h
  have hnil : StatedLines [] [] := .nil
  cases h with
  | @delete pre post line _ hpre hline hk =>
    obtain ⟨r, rfl, hr⟩ := hline.stated
    exact sources_of_edit hpre hr hnil (RelationLine.inheritAlike_nil hk) (by simpa using ht)
      (by simpa using hu) hread
  | @insert pre post line _ hpre hline hk =>
    obtain ⟨r, rfl, hr⟩ := hline.stated
    have halike : RelationLine.InheritAlike [] [r] := fun kind hkind =>
      (RelationLine.inheritAlike_nil hk kind hkind).symm
    exact sources_of_edit hpre hnil hr halike (by simpa using ht) (by simpa using hu) hread
  | @swap pre between post x y _ _ hpre hx hy hk hbetween =>
    obtain ⟨r, rfl, hr⟩ := hx.stated
    obtain ⟨r', rfl, hr'⟩ := hy.stated
    have hb := StatedLines.blank hbetween
    have hxs : StatedLines ([x] ++ between ++ [y]) ([r] ++ [] ++ [r']) := (hr.append hb).append hr'
    have hys : StatedLines ([y] ++ between ++ [x]) ([r'] ++ [] ++ [r]) := (hr'.append hb).append hr
    exact sources_of_edit hpre hxs hys (RelationLine.inheritAlike_swap hk) (by simpa using ht)
      (by simpa using hu) hread

/-- A text that is accepted stays accepted under such an edit, and converts to the same sources. -/
theorem convert_relationEdit {t u : Text} {d : Diagram} (h : RelationEdit t.lines u.lines)
    (hd : Diagram.parse t = .ok d) :
    ∃ d', Diagram.parse u = .ok d' ∧
      ∀ package, ∃ s, convert package t = .ok s ∧ convert package u = .ok s := by
  obtain ⟨blocks, hread, rfl⟩ := except_map_eq_ok_iff.1 hd
  obtain ⟨blocks', hread', hsources⟩ := h.sources_eq hread
  refine ⟨_, except_map_eq_ok_iff.2 ⟨blocks', hread', rfl⟩, fun package => ?_⟩
  refine ⟨Java.sources package blocks, except_map_eq_ok_iff.2 ⟨blocks, hread, rfl⟩, ?_⟩
  exact except_map_eq_ok_iff.2 ⟨blocks', hread', (hsources package).symm⟩

def extendingText : Text :=
  "A\nextends B\n\nimplements C\n---\n---\n---".toList

def composingText : Text :=
  "A\nextends B\ncomposes D // whole\n\nimplements C\n---\n---\n---".toList

def implementingText : Text :=
  "A\nimplements C\n\nextends B\n---\n---\n---".toList

theorem convert_relationEdit_extendingText :
    (∀ package, ∃ s, convert package composingText = .ok s ∧
      convert package extendingText = .ok s) ∧
    (∀ package, ∃ s, convert package extendingText = .ok s ∧
      convert package composingText = .ok s) ∧
    ∀ package, ∃ s, convert package extendingText = .ok s ∧
      convert package implementingText = .ok s := by
  have hparse : ∀ t, (Diagram.parse t).isOk = true → ∃ d, Diagram.parse t = .ok d := by
    intro t h
    cases hp : Diagram.parse t with
    | ok d => exact ⟨d, rfl⟩
    | error e =>
      rw [hp] at h
      cases h
  obtain ⟨_, hcomposing⟩ := hparse composingText (by decide +kernel)
  obtain ⟨_, hextending⟩ := hparse extendingText (by decide +kernel)
  have hhead : EndsInHeader ["A".toList, "extends B".toList] := ⟨_, _, rfl, rfl⟩
  have hname : EndsInHeader ["A".toList] := ⟨_, _, rfl, rfl⟩
  have hcomposes : StatesRelation .composition "composes D // whole".toList := ⟨_, rfl⟩
  have hextends : StatesRelation .generalization "extends B".toList := ⟨_, rfl⟩
  have himplements : StatesRelation .realization "implements C".toList := ⟨_, rfl⟩
  have hcomposed : composingText.lines = ["A".toList, "extends B".toList] ++
      "composes D // whole".toList :: ([] :: "implements C".toList :: separators 3) := by
    decide +kernel
  have hextended : extendingText.lines = ["A".toList, "extends B".toList] ++
      ([] :: "implements C".toList :: separators 3) := by decide +kernel
  have hextended' : extendingText.lines = ["A".toList] ++ "extends B".toList :: [[]] ++
      "implements C".toList :: separators 3 := by decide +kernel
  have himplemented : implementingText.lines = ["A".toList] ++ "implements C".toList :: [[]] ++
      "extends B".toList :: separators 3 := by decide +kernel
  have hdelete : RelationEdit composingText.lines extendingText.lines := by
    rw [hcomposed, hextended]
    exact .delete hhead hcomposes rfl
  have hinsert : RelationEdit extendingText.lines composingText.lines := by
    rw [hcomposed, hextended]
    exact .insert hhead hcomposes rfl
  have hswap : RelationEdit extendingText.lines implementingText.lines := by
    rw [hextended', himplemented]
    exact .swap hname hextends himplements (by decide) (by decide)
  obtain ⟨-, -, hdeleted⟩ := convert_relationEdit hdelete hcomposing
  obtain ⟨-, -, hinserted⟩ := convert_relationEdit hinsert hextending
  obtain ⟨-, -, hswapped⟩ := convert_relationEdit hswap hextending
  exact ⟨hdeleted, hinserted, hswapped⟩

end ClassNotation
