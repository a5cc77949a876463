import ClassNotation.Proofs.Line.Parameters
import ClassNotation.Proofs.TopLevelParts

/-! The grammar of parameter lists. A list is cut at its outer commas before any part is read, so
brackets that do not match are reported whatever the parts say. -/

namespace ClassNotation

namespace Parameter

/-- What keeps the name and the type apart from all that can stand around them in a list. -/
structure Listable (p : Parameter) : Prop where
  name : p.name.isName = true
  marks : ∀ c ∈ ":,<>".toList, c ∉ p.name
  type : p.type.TypeLike
  balanced : Balanced p.type
  commas : CommasInside p.type

theorem Listable.wellFormed {p : Parameter} (h : p.Listable) : p.WellFormed := by
  have hname : depthBehind 0 p.name = some 0 := by
    refine depthBehind_of_neutral (fun c hc => ⟨?_, ?_, ?_⟩) 0
    all_goals
      rintro rfl
      exact h.marks _ (by decide) hc
  have htype : depthBehind 0 p.type = some 0 :=
    depthBehind_eq_zero_iff.2 ⟨balancedFrom_zero.2 h.balanced, commasInsideFrom_zero.2 h.commas⟩
  refine ⟨h.name, h.marks ':' (by decide), h.type, ?_⟩
  rw [written, depthBehind_ascribe, hname, Option.bind_some, htype]

theorem exists_of_parts_iff {parts : List Text} :
    (∃ ps, List.Forall₂ Of parts ps) ↔ ∀ part ∈ parts, ∃ p : Parameter, p.Of part := by
  constructor
  · rintro ⟨ps, hps⟩ part hpart
    obtain ⟨p, -, hp⟩ := exists_of_mem_forall₂ hps.flip hpart
    exact ⟨p, hp⟩
  · intro h
    induction parts with
    | nil => exact ⟨[], .nil⟩
    | cons part parts ih =>
      obtain ⟨⟨p, hp⟩, hparts⟩ := List.forall_mem_cons.1 h
      obtain ⟨ps, hps⟩ := ih hparts
      exact ⟨p :: ps, .cons hp hps⟩

end Parameter

section reading

variable {t : Text}

theorem readParameterList_of_allBlank (h : t.AllBlank) : readParameterList t = .ok [] := by
  rw [readParameterList, if_pos (Text.trim_eq_nil_iff.2 h)]

theorem readParameterList_of_not_balanced (h : ¬ t.AllBlank) (hb : ¬ Balanced t) :
    readParameterList t = .error (.unbalancedBrackets t.trim) := by
  rw [readParameterList, if_neg (mt Text.trim_eq_nil_iff.1 h),
    topLevelParts_eq_error_iff.2 ⟨hb, rfl⟩]

theorem readParameterList_of_topLevelParts (h : ¬ t.AllBlank) {parts : List Text}
    (hparts : topLevelParts t = .ok parts) :
    (∀ ps, readParameterList t = .ok ps ↔ List.Forall₂ Parameter.Of parts ps) ∧
    ∀ f, readParameterList t = .error f ↔
      (∃ part ∈ parts, ∀ p : Parameter, ¬ p.Of part) ∧ f = .malformedParameters t.trim := by
  have hread : (∃ part ∈ parts, ∀ p : Parameter, ¬ p.Of part) ↔
      ∀ ps, readParameters? parts ≠ some ps := by
    simp only [ne_eq, readParameters?_eq_some_iff]
    rw [← not_exists, Parameter.exists_of_parts_iff]
    simp only [not_forall, not_exists, exists_prop]
  simp only [readParameterList, mt Text.trim_eq_nil_iff.1 h, if_false, hparts, hread,
    ← readParameters?_eq_some_iff]
  cases readParameters? parts <;> simp [eq_comm]

end reading

/-- A list is read back from every written form. A blank text is the empty list, and any other text
is cut at its outer commas: brackets that do not match count first, then every part must spell a
parameter, and the parameters of the parts are the list. -/
theorem readParameterList_classified (t : Text) :
    (∀ ps parts, (∀ p ∈ ps, p.Listable) → List.Forall₂ Parameter.Spells ps parts →
      t = [','].intercalate parts → readParameterList t = .ok ps) ∧
    (t.AllBlank → readParameterList t = .ok []) ∧
    (¬ t.AllBlank → ¬ Balanced t →
      readParameterList t = .error (.unbalancedBrackets t.trim)) ∧
    (¬ t.AllBlank → Balanced t → ∃ parts, topLevelParts t = .ok parts ∧
      (∀ ps, readParameterList t = .ok ps ↔ List.Forall₂ Parameter.Of parts ps) ∧
      ∀ f, readParameterList t = .error f ↔
        (∃ part ∈ parts, ∀ p : Parameter, ¬ p.Of part) ∧ f = .malformedParameters t.trim) := by
  refine ⟨?_, readParameterList_of_allBlank, readParameterList_of_not_balanced, fun h hb => ?_⟩
  · rintro ps parts hps hspells rfl
    exact readParameterList_of_spells hspells fun p hp => (hps p hp).wellFormed
  · obtain ⟨parts, hparts⟩ := exists_topLevelParts_iff.2 hb
    exact ⟨parts, hparts, readParameterList_of_topLevelParts h hparts⟩

def spacedList : Text :=
  " xs\t: Map<K, V> ,n :int".toList

/-- A list with blanks at many places, a blank one, one whose brackets do not match though its first
part is malformed too, and one with a comma behind its last part. -/
theorem readParameterList_classified_spacedList :
    readParameterList spacedList =
      .ok [⟨"xs".toList, "Map<K, V>".toList⟩, ⟨"n".toList, "int".toList⟩] ∧
    readParameterList "\t\u3000".toList = .ok [] ∧
    readParameterList " :, a: >".toList = .error (.unbalancedBrackets ":, a: >".toList) ∧
    readParameterList "a: A, ".toList = .error (.malformedParameters "a: A,".toList) := by
  have hlistable : ∀ name type : Text, name.isName = true →
      ":,<>".toList.all (· ∉ name) = true → type ≠ [] → type.trim = type → ':' ∉ type →
      depthBehind 0 type = some 0 → (Parameter.mk name type).Listable := by
    intro name type hn hm hne ht hc hd
    obtain ⟨hbalanced, hcommas⟩ := depthBehind_eq_zero_iff.1 hd
    have hmarks : ∀ c ∈ ":,<>".toList, c ∉ name := fun c hc =>
      of_decide_eq_true (List.all_eq_true.1 hm c hc)
    exact ⟨hn, hmarks, ⟨hne, ht ▸ Text.trimmed_trim type, hc⟩, balancedFrom_zero.1 hbalanced,
      commasInsideFrom_zero.1 hcommas⟩
  have hxs := hlistable "xs".toList "Map<K, V>".toList (by decide) (by decide) (by decide)
    (by decide) (by decide) (by decide)
  have hn := hlistable "n".toList "int".toList (by decide) (by decide) (by decide) (by decide)
    (by decide) (by decide)
  have hspace : Text.AllBlank [' '] := .space
  have hspells : List.Forall₂ Parameter.Spells
      [⟨"xs".toList, "Map<K, V>".toList⟩, ⟨"n".toList, "int".toList⟩]
      [" xs\t: Map<K, V> ".toList, "n :int".toList] :=
    .cons (.intro (b := ['\t']) hspace (.singleton rfl) hspace hspace)
      (.cons (.intro (a := []) (d := []) .nil hspace .nil .nil) .nil)
  obtain ⟨hread, -⟩ := readParameterList_classified spacedList
  obtain ⟨-, hblank, -⟩ := readParameterList_classified "\t\u3000".toList
  obtain ⟨-, -, hbrackets, -⟩ := readParameterList_classified " :, a: >".toList
  obtain ⟨-, -, -, hparts⟩ := readParameterList_classified "a: A, ".toList
  have hps := List.forall_mem_cons.2 ⟨hxs, List.forall_mem_singleton.2 hn⟩
  refine ⟨hread _ _ hps hspells rfl, hblank ?_, hbrackets ?_ ?_, ?_⟩
  · exact Text.trim_eq_nil_iff.1 (by decide)
  · exact fun h => absurd (Text.trim_eq_nil_iff.2 h) (by decide)
  · exact fun h => absurd (checkBrackets_eq_ok_iff.2 h) (by decide)
  · obtain ⟨parts, hcut, -, herror⟩ := hparts
      (fun h => absurd (Text.trim_eq_nil_iff.2 h) (by decide))
      (checkBrackets_eq_ok_iff.1 (by decide))
    obtain rfl : parts = ["a: A".toList, [' ']] := Except.ok.inj (hcut.symm.trans rfl)
    refine (herror _).2 ⟨⟨[' '], by simp, fun p hp => ?_⟩, by decide⟩
    exact absurd hp.colons (by decide)

end ClassNotation
