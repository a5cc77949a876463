import ClassNotation.Proofs.Java.TypeName
import ClassNotation.Proofs.References

/-! The lines of a source. A member is one line, or two that enclose an empty body. Between members
with bodies stands a blank line, and each group of members has one in front of it. -/

namespace ClassNotation.Java

def packageLines : Option Text → List Text
  | none => []
  | some p => ["package ".toList ++ p ++ [';'], []]

/-- A blank line in front of the first member, and the lines `gap` in front of the others. -/
def groupLines (gap : List Text) : List (List Text) → List Text
  | [] => []
  | first :: rest => [] :: first ++ rest.flatMap (gap ++ ·)

def opened (head : Text) : Text :=
  head ++ [' ', '{']

def withBody (head : Text) : List Text :=
  [opened head, indent ++ ['}']]

def propertyHead (p : Property) : Text :=
  indent ++ modifiers p.visibility p.isStatic ++ ' ' :: typeName p.type ++ ' ' :: p.name

/-- A constructor has no result and is never static. -/
def constructorHead (m : Method) : Text :=
  indent ++ m.visibility.keyword ++ ' ' :: m.name ++ '(' :: parametersText m.parameters ++ [')']

/-- A method that is no constructor has its result in front of its name. -/
def operationHead (m : Method) : Text :=
  indent ++ modifiers m.visibility m.isStatic ++ ' ' :: typeName (m.result.getD "void".toList) ++
    ' ' :: m.name ++ '(' :: parametersText m.parameters ++ [')']

def operationLines (inInterface : Bool) (m : Method) : List Text :=
  if inInterface then [operationHead m ++ [';']] else withBody (operationHead m)

/-- The methods of the name of the class stand in front of the others. -/
def memberLines (b : ClassBlock) : List Text :=
  groupLines [] (b.properties.map fun p => [propertyHead p ++ [';']]) ++
    groupLines [[]] ((b.methods.filter (·.name = b.name)).map (withBody <| constructorHead ·)) ++
    groupLines (if b.isInterface then [] else [[]])
      ((b.methods.filter (·.name ≠ b.name)).map (operationLines b.isInterface))

def sourceLines (package : Option Text) (b : ClassBlock) : List Text :=
  packageLines package ++ opened (classHead b) :: memberLines b ++ [['}']]

theorem sourceLines_eq_append (package : Option Text) (b : ClassBlock) :
    sourceLines package b = packageLines package ++ sourceLines none b := by
  simp [sourceLines, packageLines]

theorem propertyText_eq (p : Property) : propertyText p = propertyHead p ++ [';'] :=
  rfl

theorem methodText_eq (inInterface : Bool) (m : Method) :
    methodText inInterface m = operationHead m ++ if inInterface then [';'] else emptyBody :=
  rfl

section joining

theorem intercalate_append_feed {α : Type} (gap : List Text) {text : α → Text}
    {lines : α → List Text} (h : ∀ x, text x ++ ['\n'] = (lines x).flatMap (· ++ ['\n']))
    (x : α) (xs : List α) :
    ('\n' :: gap.flatMap (· ++ ['\n'])).intercalate ((x :: xs).map text) ++ ['\n'] =
      (lines x ++ (xs.map lines).flatMap (gap ++ ·)).flatMap (· ++ ['\n']) := by
  induction xs generalizing x with
  | nil => simpa using h x
  | cons y xs ih =>
    have hx := h x
    have hxs := ih y
    simp only [List.map_cons, List.intercalate_cons_cons, List.append_assoc, List.flatMap_append,
      List.flatMap_cons] at hxs ⊢
    rw [hxs, ← hx, List.append_assoc, List.cons_append]
    rfl

theorem memberGroup_map {α : Type} (gap : List Text) {text : α → Text} {lines : α → List Text}
    (h : ∀ x, text x ++ ['\n'] = (lines x).flatMap (· ++ ['\n'])) (xs : List α) :
    memberGroup ('\n' :: gap.flatMap (· ++ ['\n'])) (xs.map text) =
      (groupLines gap (xs.map lines)).flatMap (· ++ ['\n']) := by
  cases xs with
  | nil => rfl
  | cons x xs =>
    rw [memberGroup, if_neg (by simp), List.cons_append, intercalate_append_feed gap h]
    rfl

theorem append_emptyBody (head : Text) :
    head ++ emptyBody ++ ['\n'] = (withBody head).flatMap (· ++ ['\n']) := by
  simp [withBody, opened, emptyBody]

theorem memberGroup_properties (ps : List Property) :
    memberGroup "\n".toList (ps.map propertyText) =
      (groupLines [] (ps.map fun p => [propertyHead p ++ [';']])).flatMap (· ++ ['\n']) :=
  memberGroup_map [] (fun p => by simp [propertyText_eq]) ps

theorem memberGroup_constructors (ms : List Method) :
    memberGroup "\n\n".toList (ms.map constructorText) =
      (groupLines [[]] (ms.map (withBody <| constructorHead ·))).flatMap (· ++ ['\n']) := by
  refine memberGroup_map [[]] (fun m => ?_) ms
  rw [← append_emptyBody, constructorText, constructorHead]
  simp

theorem memberGroup_operations (inInterface : Bool) (ms : List Method) :
    memberGroup (if inInterface then "\n".toList else "\n\n".toList)
        (ms.map (methodText inInterface)) =
      (groupLines (if inInterface then [] else [[]])
        (ms.map (operationLines inInterface))).flatMap (· ++ ['\n']) := by
  cases inInterface with
  | true =>
    have hlines (m : Method) : methodText true m ++ ['\n'] =
        (operationLines true m).flatMap (· ++ ['\n']) := by
      simp [methodText_eq, operationLines]
    exact memberGroup_map [] hlines ms
  | false => exact memberGroup_map [[]] (fun m => append_emptyBody (operationHead m)) ms

theorem packageClause_eq (package : Option Text) :
    packageClause package = (packageLines package).flatMap (· ++ ['\n']) := by
  cases package with
  | none => rfl
  | some p =>
    have hlines : packageLines (some p) = ["package ".toList ++ p ++ [';'], []] := rfl
    rw [hlines, List.flatMap_cons, List.append_assoc, List.append_assoc ("package ".toList ++ p)]
    rfl

theorem source_eq_intercalate {b : ClassBlock} (h : b.WellFormed) (package : Option Text) :
    source package b = ['\n'].intercalate (sourceLines package b) := by
  rw [source, sourceLines, Text.intercalate_feed_concat, memberLines, ← h.constructors_eq,
    ← h.operations_eq, packageClause_eq, memberGroup_properties, memberGroup_constructors,
    memberGroup_operations]
  simp only [opened, List.flatMap_append, List.flatMap_cons, List.append_assoc, List.cons_append,
    List.nil_append]

end joining

/-- What stands in front of the semicolon or the body of a member. -/
inductive MemberHead (b : ClassBlock) : Text → Prop
  | property {p : Property} (h : p ∈ b.properties) : MemberHead b (propertyHead p)
  | constructor {m : Method} (h : m ∈ b.methods) : MemberHead b (constructorHead m)
  | operation {m : Method} (h : m ∈ b.methods) : MemberHead b (operationHead m)

section append

variable {Q : List Text → Prop} (hnil : Q []) (happend : ∀ {u v}, Q u → Q v → Q (u ++ v))

include hnil happend

theorem groupLines_of_append {gap : List Text} {members : List (List Text)}
    (h : ∀ u ∈ members, Q ([] :: u) ∧ Q (gap ++ u)) : Q (groupLines gap members) := by
  cases members with
  | nil => exact hnil
  | cons first rest =>
    obtain ⟨⟨hfirst, -⟩, hrest⟩ := List.forall_mem_cons.1 h
    refine happend hfirst ?_
    clear h
    induction rest with
    | nil => exact hnil
    | cons next rest ih =>
      obtain ⟨⟨-, hnext⟩, hrest⟩ := List.forall_mem_cons.1 hrest
      exact happend hnext (ih hrest)

/-- What holds of the lines of each member, also behind a blank line, holds of all. -/
theorem memberLines_of_append {b : ClassBlock} (h : ∀ head, MemberHead b head →
      ∀ u ∈ [[head ++ [';']], withBody head], Q u ∧ Q ([] :: u)) : Q (memberLines b) := by
  have hgroup {α : Type} {members : List α} {gap : List Text} (hgap : gap = [] ∨ gap = [[]])
      {lines : α → List Text} (hlines : ∀ x ∈ members, ∃ head, MemberHead b head ∧
        lines x ∈ [[head ++ [';']], withBody head]) : Q (groupLines gap (members.map lines)) := by
    refine groupLines_of_append hnil happend (List.forall_mem_map.2 fun x hx => ?_)
    obtain ⟨head, hhead, hu⟩ := hlines x hx
    obtain ⟨hbare, hblank⟩ := h head hhead _ hu
    rcases hgap with rfl | rfl
    · exact ⟨hblank, hbare⟩
    · exact ⟨hblank, hblank⟩
  refine happend (happend (hgroup (.inl rfl) fun p hp => ?_) (hgroup (.inr rfl) fun m hm => ?_))
    (hgroup ?_ fun m hm => ?_)
  · exact ⟨_, .property hp, List.mem_cons_self⟩
  · exact ⟨_, .constructor (List.mem_filter.1 hm).1, by simp⟩
  · split
    · exact .inl rfl
    · exact .inr rfl
  · refine ⟨_, .operation (List.mem_filter.1 hm).1, ?_⟩
    rw [operationLines]
    split <;> simp

end append

section plain

theorem plain_modifiers (v : Visibility) (isStatic : Bool) :
    Text.Plain (indent ++ modifiers v isStatic) := by
  cases v <;> cases isStatic <;> exact .of_not_mem (by decide) (by decide)

theorem plain_parametersText {ps : List Parameter}
    (h : ∀ p ∈ ps, p.name.Plain ∧ p.type.Plain) : Text.Plain (parametersText ps) := by
  refine joins_plain.listed (List.forall_mem_map.2 fun p hp => ?_)
  obtain ⟨hname, htype⟩ := h p hp
  exact joins_plain.join (by decide) (plain_typeName htype) hname

/-- A head of a method or of a constructor, from what stands in front of its parameters. -/
theorem plain_append_parameters {front : Text} (hfront : front.Plain) {ps : List Parameter}
    (h : ∀ p ∈ ps, p.name.Plain ∧ p.type.Plain) :
    Text.Plain (front ++ '(' :: parametersText ps ++ [')']) := by
  have hopen : Text.Plain (front ++ '(' :: parametersText ps) :=
    (Text.plain_append_cons (by decide) (by decide)).2 ⟨hfront, plain_parametersText h⟩
  exact (Text.plain_append_cons (by decide) (by decide)).2 ⟨hopen, joins_plain.nil⟩

variable {b : ClassBlock}

theorem MemberHead.plain (ht : ∀ t ∈ b.texts, t.Plain) {head : Text} (h : MemberHead b head) :
    head.Plain := by
  obtain ⟨-, -, hproperties, hmethods⟩ := ClassBlock.forall_texts_iff.1 ht
  have hspace {x y : Text} (hx : x.Plain) (hy : y.Plain) : Text.Plain (x ++ ' ' :: y) :=
    joins_plain.join (by decide) hx hy
  cases h with
  | @property p hp =>
    obtain ⟨hname, htype⟩ : p.name.Plain ∧ p.type.Plain := by
      simpa [Property.texts] using hproperties p hp
    exact hspace (hspace (plain_modifiers _ _) (plain_typeName htype)) hname
  | @constructor m hm =>
    obtain ⟨hname, hparameters, -⟩ := Method.forall_texts_iff.1 (hmethods m hm)
    exact plain_append_parameters (hspace (plain_modifiers m.visibility false) hname) hparameters
  | @operation m hm =>
    obtain ⟨hname, hparameters, hresult⟩ := Method.forall_texts_iff.1 (hmethods m hm)
    have htype : Text.Plain (m.result.getD "void".toList) := by
      cases hr : m.result with
      | none => exact .of_not_mem (by decide) (by decide)
      | some type => exact hresult type hr
    exact plain_append_parameters
      (hspace (hspace (plain_modifiers _ _) (plain_typeName htype)) hname) hparameters

theorem plain_opened {head : Text} (h : head.Plain) : Text.Plain (opened head) :=
  joins_plain.join (by decide) h (.of_not_mem (by decide) (by decide))

theorem plain_memberLines (ht : ∀ t ∈ b.texts, t.Plain) : ∀ l ∈ memberLines b, l.Plain := by
  refine memberLines_of_append (Q := fun lines => ∀ l ∈ lines, l.Plain) (List.forall_mem_nil _)
    (fun hu hv => List.forall_mem_append.2 ⟨hu, hv⟩) fun head hhead u hu => ?_
  have hplain := hhead.plain ht
  have hlines : ∀ l ∈ u, l.Plain := by
    rcases List.mem_cons.1 hu with rfl | hu
    · have hsemicolon : Text.Plain (head ++ [';']) :=
        (Text.plain_append_cons (by decide) (by decide)).2 ⟨hplain, joins_plain.nil⟩
      simpa using hsemicolon
    · obtain rfl := List.mem_singleton.1 hu
      have hclose : Text.Plain (indent ++ ['}']) := .of_not_mem (by decide) (by decide)
      simpa [withBody] using ⟨plain_opened hplain, hclose⟩
  exact ⟨hlines, List.forall_mem_cons.2 ⟨joins_plain.nil, hlines⟩⟩

theorem plain_opened_classHead (ht : ∀ t ∈ b.texts, t.Plain) :
    Text.Plain (opened (classHead b)) := by
  obtain ⟨hname, hrelations, -, -⟩ := ClassBlock.forall_texts_iff.1 ht
  have hother {n : Text} (h : ∃ r ∈ b.relations, n = className r.other) : n.Plain := by
    obtain ⟨r, hr, rfl⟩ := h
    exact (hrelations r hr).of_isInfix (className_isInfix r.other)
  have hsuper : ∀ n ∈ extended b ++ implemented b, n.Plain := List.forall_mem_append.2
    ⟨fun _ hn => hother (ClassBlock.of_mem_extended hn),
      fun _ hn => hother (ClassBlock.of_mem_implemented hn)⟩
  have hmarks : ∀ w ∈ (["extends".toList, "implements".toList, ['{']] : List Text),
      '\n' ∉ w ∧ '/' ∉ w := by decide
  have hkind : ∀ w ∈ kindWords b.qualifier, '\n' ∉ w ∧ '/' ∉ w := by
    rcases b.qualifier with _ | _ | _ <;> decide
  have hclauses : ∀ w ∈ clauseWords (extended b) (implemented b), w.Plain := by
    intro w hw
    rcases of_mem_clauseWords hw with hw | hw | ⟨n, hn, rfl⟩
    · exact .of_not_mem (hmarks w hw).1 (hmarks w hw).2
    · exact hsuper w hw
    · exact joins_plain.join (by decide) (hsuper n (List.mem_append_right _ hn)) joins_plain.nil
  rw [opened, classHead_append_brace]
  refine joins_plain.spaced (.of_not_mem (by decide) (by decide)) ?_
  exact List.forall_mem_append.2 ⟨fun w hw => .of_not_mem (hkind w hw).1 (hkind w hw).2,
    List.forall_mem_cons.2 ⟨hname, hclauses⟩⟩

theorem plain_sourceLines (ht : ∀ t ∈ b.texts, t.Plain) :
    ∀ l ∈ sourceLines none b, l.Plain := by
  have hlast : ∀ l ∈ [['}']], Text.Plain l := by
    simpa using Text.Plain.of_not_mem (t := ['}']) (by decide) (by decide)
  exact List.forall_mem_append.2 ⟨List.forall_mem_cons.2
    ⟨plain_opened_classHead ht, plain_memberLines ht⟩, hlast⟩

theorem feed_not_mem_sourceLines (ht : ∀ t ∈ b.texts, t.Plain)
    {package : Option Text} (hp : ∀ p ∈ package, '\n' ∉ p) :
    ∀ l ∈ sourceLines package b, '\n' ∉ l := by
  have hpackage : ∀ l ∈ packageLines package, '\n' ∉ l := by
    cases package with
    | none => exact List.forall_mem_nil _
    | some p => simpa [packageLines] using hp p rfl
  rw [sourceLines_eq_append]
  exact List.forall_mem_append.2 ⟨hpackage, fun l hl => (plain_sourceLines ht l hl).feed⟩

theorem splitOn_source (h : b.WellFormed) (ht : ∀ t ∈ b.texts, t.Plain) {package : Option Text}
    (hp : ∀ p ∈ package, '\n' ∉ p) : (source package b).splitOn '\n' = sourceLines package b := by
  rw [source_eq_intercalate h package]
  exact List.splitOn_intercalate '\n' (feed_not_mem_sourceLines ht hp) (by simp [sourceLines])

end plain

end ClassNotation.Java
