import ClassNotation.Proofs.Line.Parameters
import ClassNotation.Proofs.Line.Relation
import ClassNotation.Proofs.TopLevelParts

/-! Relation lines that name types with brackets. A list of types is cut only outside brackets
where it is a list of parameters, and at every comma where it is a relation line. -/

namespace ClassNotation

/-- A type whose brackets match and whose commas all stand inside them. -/
structure Text.WholeType (t : Text) : Prop where
  nonempty : t ≠ []
  trimmed : t.Trimmed
  balanced : Balanced t
  commas : CommasInside t

theorem Text.WholeType.depthBehind_eq {t : Text} (h : t.WholeType) : depthBehind 0 t = some 0 :=
  depthBehind_eq_zero_iff.2 ⟨balancedFrom_zero.2 h.balanced, commasInsideFrom_zero.2 h.commas⟩

theorem Text.WholeType.of_depthBehind {t : Text} (hn : t ≠ []) (ht : t.Trimmed)
    (hd : depthBehind 0 t = some 0) : t.WholeType := by
  obtain ⟨hb, hc⟩ := depthBehind_eq_zero_iff.1 hd
  exact ⟨hn, ht, balancedFrom_zero.1 hb, commasInsideFrom_zero.1 hc⟩

def listed (names : List Text) : Text :=
  ", ".toList.intercalate names

/-- What stands between the commas of the names, inside brackets or not. -/
def commaParts (names : List Text) : List Text :=
  names.flatMap fun n => (n.splitOn ',').map Text.trim

section listed

variable {names : List Text}

theorem listed_ne_nil (hn : names ≠ []) (h : ∀ n ∈ names, n ≠ []) : listed names ≠ [] := by
  obtain ⟨n, names, rfl⟩ := List.exists_cons_of_ne_nil hn
  rw [listed, Text.intercalate_cons]
  exact List.append_ne_nil_of_left_ne_nil (h n List.mem_cons_self) _

theorem trimmed_listed (h : ∀ n ∈ names, n ≠ [] ∧ n.Trimmed) : (listed names).Trimmed := by
  induction names with
  | nil => exact .nil
  | cons n names ih =>
    obtain ⟨⟨hne, ht⟩, hrest⟩ := List.forall_mem_cons.1 h
    by_cases hn : names = []
    · simpa [listed, hn] using ht
    · rw [listed, List.intercalate_cons_of_ne_nil hn]
      exact ht.surround hne _ (ih hrest) (listed_ne_nil hn fun m hm => (hrest m hm).1)

theorem map_trim_splitOn_blank {c : Char} (hb : isBlank c = true) (t : Text) :
    ((c :: t).splitOn ',').map Text.trim = (t.splitOn ',').map Text.trim := by
  have hc : (c == ',') = false := by
    rw [beq_eq_false_iff_ne]
    rintro rfl
    exact absurd hb (by decide)
  obtain ⟨first, rest, he⟩ := List.exists_cons_of_ne_nil (List.splitOn_ne_nil ',' t)
  simp only [List.splitOn_eq_splitOnP] at he ⊢
  rw [List.splitOnP_cons_eq_if_modifyHead, hc, he]
  exact congrArg (· :: _) (Text.trim_append_left (.singleton hb) first)

theorem map_trim_splitOn_listed (hn : names ≠ []) :
    ((listed names).splitOn ',').map Text.trim = commaParts names := by
  obtain ⟨n, names, rfl⟩ := List.exists_cons_of_ne_nil hn
  rw [listed, intercalate_comma_space, Text.splitOn_intercalate ',' (by simp), List.map_flatMap,
    List.flatMap_cons, List.flatMap_map, commaParts, List.flatMap_cons]
  congr 1
  exact List.flatMap_congr fun m _ => map_trim_splitOn_blank rfl m

theorem commaParts_of_no_comma (h : ∀ n ∈ names, n.Trimmed ∧ ',' ∉ n) :
    commaParts names = names := by
  have hpart : ∀ n ∈ names, (n.splitOn ',').map Text.trim = [n] := by
    intro n hn
    obtain ⟨ht, hc⟩ := h n hn
    rw [List.splitOn_eq_singleton hc, List.map_singleton, Text.trim_of_trimmed ht]
  rw [commaParts, List.flatMap_congr hpart]
  simp

/-- The splitter of parameter lists keeps whole types whole. -/
theorem topLevelParts_listed (hn : names ≠ []) (h : ∀ n ∈ names, n.WholeType) :
    (topLevelParts (listed names)).map (·.map Text.trim) = .ok names := by
  obtain ⟨n, names, rfl⟩ := List.exists_cons_of_ne_nil hn
  have hdepth : ∀ part ∈ n :: names.map (' ' :: ·), depthBehind 0 part = some 0 := by
    obtain ⟨hfirst, hrest⟩ := List.forall_mem_cons.1 h
    exact List.forall_mem_cons.2 ⟨hfirst.depthBehind_eq,
      List.forall_mem_map.2 fun m hm => (hrest m hm).depthBehind_eq⟩
  have hcut := topLevelParts_eq_ok_iff.2 (cutTopLevel_intercalate (by simp) hdepth)
  obtain ⟨hfirst, hrest⟩ := List.forall_mem_cons.1 h
  have htrim : (names.map (' ' :: ·)).map Text.trim = names := by
    rw [List.map_map]
    refine (List.map_congr_left fun m hm => ?_).trans names.map_id
    exact Text.trim_append_of_trimmed .space (hrest m hm).trimmed
  rw [listed, intercalate_comma_space, hcut, Except.map, List.map_cons, htrim,
    Text.trim_of_trimmed hfirst.trimmed]

end listed

namespace RelationLine

/-- What a relation line names is what stands between its commas. It names whole types one by one
exactly if none of them has a comma, while the list would be cut between them. -/
theorem read_listed {names : List Text} (kind : RelationKind) (hn : names ≠ [])
    (h : ∀ n ∈ names, n.WholeType) :
    (topLevelParts (listed names)).map (·.map Text.trim) = .ok names ∧
    read (written kind (listed names)) =
      (if [] ∈ commaParts names then .error (.malformedRelation (written kind (listed names)))
        else .ok ⟨kind, commaParts names⟩) ∧
    (read (written kind (listed names)) = .ok ⟨kind, names⟩ ↔ ∀ n ∈ names, ',' ∉ n) := by
  have hread := read_written_names kind
    (listed_ne_nil hn fun n hm => (h n hm).nonempty)
    (trimmed_listed fun n hm => ⟨(h n hm).nonempty, (h n hm).trimmed⟩)
  rw [map_trim_splitOn_listed hn] at hread
  refine ⟨topLevelParts_listed hn h, hread, fun hok n hm => ?_, fun hcomma => ?_⟩
  · exact (related_of_read hok hm).1.comma
  · have hparts := commaParts_of_no_comma fun n hm => ⟨(h n hm).trimmed, hcomma n hm⟩
    have hempty : [] ∉ names := fun hm => (h _ hm).nonempty rfl
    rw [hread, hparts, if_neg hempty]

def mapAndName : List Text :=
  ["Map<K, V>".toList, "Nomeavel".toList]

theorem wholeType_of_mem_mapAndName : ∀ n ∈ mapAndName, n.WholeType := by
  refine List.forall_mem_cons.2 ⟨?_, List.forall_mem_singleton.2 ?_⟩
  · have hfront : Text.Trimmed "Map<K,".toList := .of_isName rfl
    have hback : Text.Trimmed "V>".toList := .of_isName rfl
    have ht : Text.Trimmed "Map<K, V>".toList := hfront.surround (by decide) [' '] hback (by decide)
    exact .of_depthBehind (by decide) ht rfl
  · exact .of_depthBehind (by decide) (.of_isName rfl) rfl

theorem read_listed_mapAndName :
    (topLevelParts "Map<K, V>, Nomeavel".toList).map (·.map Text.trim) = .ok mapAndName ∧
    read "implements Map<K, V>, Nomeavel".toList =
      .ok ⟨.realization, ["Map<K".toList, "V>".toList, "Nomeavel".toList]⟩ ∧
    read "implements Map<K, V>, Nomeavel".toList ≠ .ok ⟨.realization, mapAndName⟩ := by
  obtain ⟨hcut, hread, hwhole⟩ :=
    read_listed .realization (by decide) wholeType_of_mem_mapAndName
  exact ⟨hcut, hread, mt hwhole.1 (by decide)⟩

theorem not_forall_read_listed :
    ¬ ∀ (kind : RelationKind) (names : List Text), names ≠ [] → (∀ n ∈ names, n.WholeType) →
      read (written kind (listed names)) = .ok ⟨kind, names⟩ := by
  intro h
  have hread := h .realization mapAndName (by decide) wholeType_of_mem_mapAndName
  exact absurd hread (by decide)

end RelationLine

end ClassNotation
