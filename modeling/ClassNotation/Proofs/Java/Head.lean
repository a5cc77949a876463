import ClassNotation.Java.Source
import ClassNotation.Proofs.Line.Relation
import ClassNotation.Proofs.Text.Parts

/-! The line of a source that declares its class, read word by word. It names the classes that the
class extends, one by one, and then those that it implements, with commas between them. -/

namespace ClassNotation

namespace Text

theorem words_flatMap_space {w : Text} (hw : w.isName = true) {ws : List Text}
    (h : ∀ x ∈ ws, x.isName = true) : words (w ++ ws.flatMap (' ' :: ·)) = w :: ws := by
  induction ws generalizing w with
  | nil => simpa using words_of_isName hw
  | cons x ws ih =>
    have hx := ih (h x List.mem_cons_self) fun y hy => h y (List.mem_cons_of_mem _ hy)
    rw [List.flatMap_cons, List.cons_append, words_append_cons _ _ rfl, words_of_isName hw, hx]
    rfl

theorem feed_not_mem_of_isName {w : Text} (h : w.isName = true) : '\n' ∉ w :=
  fun hm => absurd ((isName_iff.1 h).2 '\n' hm) (by decide)

theorem feed_not_mem_flatMap_space {ws : List Text} (h : ∀ x ∈ ws, x.isName = true) :
    '\n' ∉ ws.flatMap (' ' :: ·) := by
  intro hm
  obtain ⟨x, hx, hc⟩ := List.mem_flatMap.1 hm
  rcases List.mem_cons.1 hc with hc | hc
  · exact absurd hc (by decide)
  · exact feed_not_mem_of_isName (h x hx) hc

end Text

namespace Java

/-- The words of the line that declares the class, which follows on the package. -/
def headWords (package : Option Text) (text : Text) : List Text :=
  Text.words ((text.drop (packageClause package).length).takeWhile (· ≠ '\n'))

def withoutComma (word : Text) : Text :=
  if word.getLast? = some ',' then word.dropLast else word

/-- The classes in the words behind a class name. Behind `extends` stands one class, and behind
`implements` all that are left in front of the brace, with commas between them. -/
def clauseClasses : List Text → List Text
  | word :: name :: rest =>
    if word = "extends".toList then name :: clauseClasses rest
    else if word = "implements".toList then ((name :: rest).dropLast).map withoutComma
    else []
  | _ => []

/-- The classes that a source names behind `extends` and `implements`. -/
def supertypes (package : Option Text) (text : Text) : List Text :=
  match headWords package text with
  | _ :: kind :: rest => clauseClasses (rest.drop (if kind = "abstract".toList then 2 else 1))
  | _ => []

def extended (b : ClassBlock) : List Text :=
  (b.relations.filter (·.kind = .generalization)).map fun r => className r.target

def kindWords : Option Qualifier → List Text
  | some .interface => ["interface".toList]
  | some .abstract => ["abstract".toList, "class".toList]
  | none => ["class".toList]

def commaWords : List Text → List Text
  | [] => []
  | [name] => [name]
  | name :: names => (name ++ [',']) :: commaWords names

def implementsWords (names : List Text) : List Text :=
  if names = [] then [] else "implements".toList :: commaWords names

def clauseWords (superclasses interfaces : List Text) : List Text :=
  superclasses.flatMap (fun name => ["extends".toList, name]) ++ implementsWords interfaces ++
    [['{']]

section texts

theorem flatMap_space_kindWords (q : Option Qualifier) :
    (kindWords q).flatMap (' ' :: ·) = ' ' :: classKind q := by
  rcases q with _ | _ | _ <;> rfl

theorem flatMap_extendsClause (rs : List Relation) :
    rs.flatMap extendsClause =
      (((rs.filter (·.kind = .generalization)).map fun r => className r.target).flatMap
        fun name => ["extends".toList, name]).flatMap (' ' :: ·) := by
  induction rs with
  | nil => rfl
  | cons r rs ih =>
    rw [List.flatMap_cons, ih]
    obtain ⟨source, target, kind⟩ := r
    cases kind <;> simp [extendsClause]

theorem flatMap_space_commaWords {names : List Text} (hn : names ≠ []) :
    (commaWords names).flatMap (' ' :: ·) = ' ' :: ", ".toList.intercalate names := by
  induction names with
  | nil => exact absurd rfl hn
  | cons name names ih =>
    cases names with
    | nil => simp [commaWords]
    | cons next names =>
      have hnext := ih (by simp)
      rw [commaWords, List.flatMap_cons, hnext, List.intercalate_cons_cons]
      · simp
      · simp

theorem flatMap_space_implementsWords (names : List Text) :
    (implementsWords names).flatMap (' ' :: ·) = implementsClause names := by
  rw [implementsWords, implementsClause]
  split
  · rfl
  · rename_i hn
    rw [List.flatMap_cons, flatMap_space_commaWords hn]
    rfl

theorem flatMap_space_clauseWords (superclasses interfaces : List Text) :
    (clauseWords superclasses interfaces).flatMap (' ' :: ·) =
      (superclasses.flatMap fun name => ["extends".toList, name]).flatMap (' ' :: ·) ++
        implementsClause interfaces ++ [' ', '{'] := by
  rw [clauseWords, List.flatMap_append, List.flatMap_append, flatMap_space_implementsWords]
  rfl

theorem classHead_append_brace (b : ClassBlock) :
    classHead b ++ [' ', '{'] =
      "public".toList ++ (kindWords b.qualifier ++
        b.name :: clauseWords (extended b) (implemented b)).flatMap (' ' :: ·) := by
  have hpublic : "public ".toList = "public".toList ++ [' '] := rfl
  rw [List.flatMap_append, List.flatMap_cons, flatMap_space_kindWords, flatMap_space_clauseWords]
  unfold classHead
  rw [hpublic, flatMap_extendsClause, extended]
  simp only [List.append_assoc, List.cons_append, List.nil_append]

end texts

section reading

theorem of_mem_commaWords {names : List Text} {w : Text} (h : w ∈ commaWords names) :
    w ∈ names ∨ ∃ n ∈ names, w = n ++ [','] := by
  induction names with
  | nil => simp [commaWords] at h
  | cons name names ih =>
    cases names with
    | nil => exact .inl h
    | cons next names =>
      rcases List.mem_cons.1 h with rfl | h
      · exact .inr ⟨name, List.mem_cons_self, rfl⟩
      · rcases ih h with h | ⟨n, hn, rfl⟩
        · exact .inl (List.mem_cons_of_mem _ h)
        · exact .inr ⟨n, List.mem_cons_of_mem _ hn, rfl⟩

/-- The words behind a class name are the marks of its clauses and the names in them. -/
theorem of_mem_clauseWords {superclasses interfaces : List Text} {w : Text}
    (h : w ∈ clauseWords superclasses interfaces) :
    w ∈ ["extends".toList, "implements".toList, ['{']] ∨ w ∈ superclasses ++ interfaces ∨
      ∃ n ∈ interfaces, w = n ++ [','] := by
  rcases List.mem_append.1 h with h | h
  · rcases List.mem_append.1 h with h | h
    · obtain ⟨n, hn, hw⟩ := List.mem_flatMap.1 h
      rcases List.mem_cons.1 hw with rfl | hw
      · exact .inl (by simp)
      · exact .inr (.inl (List.mem_append_left _ (List.mem_singleton.1 hw ▸ hn)))
    · rw [implementsWords] at h
      split at h
      · simp at h
      · rcases List.mem_cons.1 h with rfl | h
        · exact .inl (by simp)
        · exact .inr ((of_mem_commaWords h).imp_left (List.mem_append_right _))
  · exact .inl (by simp [List.mem_singleton.1 h])

theorem isName_clauseWords {superclasses interfaces : List Text}
    (hs : ∀ n ∈ superclasses, n.isName = true) (hi : ∀ n ∈ interfaces, n.isName = true) :
    ∀ w ∈ clauseWords superclasses interfaces, w.isName = true := by
  intro w hw
  rcases of_mem_clauseWords hw with hw | hw | ⟨n, hn, rfl⟩
  · have hmarks : ∀ w ∈ (["extends".toList, "implements".toList, ['{']] : List Text),
        w.isName = true := by decide
    exact hmarks w hw
  · exact List.forall_mem_append.2 ⟨hs, hi⟩ w hw
  · obtain ⟨-, hname⟩ := Text.isName_iff.1 (hi n hn)
    exact Text.isName_iff.2
      ⟨by simp, List.forall_mem_append.2 ⟨hname, List.forall_mem_singleton.2 rfl⟩⟩

theorem map_withoutComma_commaWords {names : List Text} (h : ∀ n ∈ names, ',' ∉ n) :
    (commaWords names).map withoutComma = names := by
  induction names with
  | nil => rfl
  | cons name names ih =>
    have hnames := ih fun n hn => h n (List.mem_cons_of_mem _ hn)
    cases names with
    | nil =>
      have hlast : name.getLast? ≠ some ',' := fun hl =>
        h name List.mem_cons_self (List.mem_of_getLast? hl)
      simp [commaWords, withoutComma, hlast]
    | cons next names =>
      rw [commaWords, List.map_cons, hnames]
      · simp [withoutComma]
      · simp

theorem clauseClasses_clauseWords (superclasses : List Text) {interfaces : List Text}
    (h : ∀ n ∈ interfaces, ',' ∉ n) :
    clauseClasses (clauseWords superclasses interfaces) = superclasses ++ interfaces := by
  induction superclasses with
  | nil =>
    cases interfaces with
    | nil => rfl
    | cons name names =>
      have hwords : clauseWords [] (name :: names) =
          "implements".toList :: (commaWords (name :: names) ++ [['{']]) := rfl
      obtain ⟨first, rest, hc⟩ : ∃ first rest, commaWords (name :: names) = first :: rest := by
        cases names <;> exact ⟨_, _, rfl⟩
      have hnames := map_withoutComma_commaWords h
      rw [hc] at hnames
      rw [hwords, hc, List.cons_append, clauseClasses, if_neg (by decide), if_pos rfl,
        ← List.cons_append, List.dropLast_concat, hnames, List.nil_append]
  | cons name superclasses ih =>
    have hwords : clauseWords (name :: superclasses) interfaces =
        "extends".toList :: name :: clauseWords superclasses interfaces := rfl
    rw [hwords, clauseClasses, if_pos rfl, ih, List.cons_append]

end reading

theorem headWords_source {b : ClassBlock} (package : Option Text) (hb : b.name.isName = true)
    (hs : ∀ n ∈ extended b, n.isName = true) (hi : ∀ n ∈ implemented b, n.isName = true) :
    headWords package (source package b) =
      "public".toList :: (kindWords b.qualifier ++
        b.name :: clauseWords (extended b) (implemented b)) := by
  have hkind : ∀ w ∈ kindWords b.qualifier, w.isName = true := by
    rcases b.qualifier with _ | _ | _ <;> decide
  have hnames : ∀ w ∈ kindWords b.qualifier ++
      b.name :: clauseWords (extended b) (implemented b), w.isName = true := by
    intro w hw
    rcases List.mem_append.1 hw with hw | hw
    · exact hkind w hw
    · rcases List.mem_cons.1 hw with rfl | hw
      · exact hb
      · exact isName_clauseWords hs hi w hw
  obtain ⟨body, hsource⟩ : ∃ body, source package b =
      packageClause package ++ ((classHead b ++ [' ', '{']) ++ '\n' :: body) := by
    simp [source]
  have hfeed : ∀ c ∈ classHead b ++ [' ', '{'], decide (c ≠ '\n') = true := by
    intro c hc
    rw [classHead_append_brace] at hc
    refine decide_eq_true ?_
    rintro rfl
    rcases List.mem_append.1 hc with hc | hc
    · exact absurd hc (by decide)
    · exact Text.feed_not_mem_flatMap_space hnames hc
  rw [headWords, hsource, List.drop_left, List.takeWhile_append_of_pos hfeed,
    List.takeWhile_cons_of_neg (by simp), List.append_nil, classHead_append_brace,
    Text.words_flatMap_space rfl hnames]

theorem supertypes_source {b : ClassBlock} (package : Option Text) (hb : b.name.isName = true)
    (hs : ∀ n ∈ extended b, n.isName = true) (hi : ∀ n ∈ implemented b, n.isName = true)
    (hc : ∀ n ∈ implemented b, ',' ∉ n) :
    supertypes package (source package b) = extended b ++ implemented b := by
  rw [supertypes, headWords_source package hb hs hi, ← clauseClasses_clauseWords (extended b) hc]
  rcases b.qualifier with _ | _ | _ <;> rfl

end Java

end ClassNotation
