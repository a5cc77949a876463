import ClassNotation.Line.Parameters
import ClassNotation.Proofs.BlockLines
import ClassNotation.Proofs.Brackets
import ClassNotation.Proofs.Line.Member

/-! Parameter lists and how they are written. The brackets are counted over the name and the type
of a parameter together, so its type alone is balanced only if its name is. -/

namespace ClassNotation

theorem depthBehind_ascribe (depth : Nat) (name type : Text) :
    depthBehind depth (ascribe name type) =
      (depthBehind depth name).bind (depthBehind · type) := by
  rw [ascribe, depthBehind_append]
  rfl

theorem splitOn_colon_eq_pair_iff {t a b : Text} :
    t.splitOn ':' = [a, b] ↔ t = a ++ ':' :: b ∧ ':' ∉ a ∧ ':' ∉ b := by
  constructor
  · intro h
    have hm : ∀ w ∈ [a, b], ':' ∉ w := fun w hw => (Text.mem_splitOn (h ▸ hw)).2
    refine ⟨?_, hm a (by simp), hm b (by simp)⟩
    have he : [':'].intercalate (t.splitOn ':') = t := List.intercalate_splitOn ':'
    rw [← he, h]
    simp
  · rintro ⟨rfl, ha, hb⟩
    rw [List.splitOn_append_cons_self, List.splitOn_eq_singleton ha, List.splitOn_eq_singleton hb]
    rfl

theorem count_colon_eq_one_iff {a b : Text} :
    (a ++ ':' :: b).count ':' = 1 ↔ ':' ∉ a ∧ ':' ∉ b := by
  rw [List.count_append, List.count_cons_self, ← List.count_eq_zero, ← List.count_eq_zero]
  omega

namespace Parameter

def written (p : Parameter) : Text :=
  ascribe p.name p.type

structure WellFormed (p : Parameter) : Prop where
  name : p.name.isName = true
  colon : ':' ∉ p.name
  type : p.type.TypeLike
  brackets : depthBehind 0 p.written = some 0

/-- The part has one colon, behind the name and in front of the type. -/
structure Of (part : Text) (p : Parameter) : Prop where
  colons : part.count ':' = 1
  name : p.name.isName = true
  type : p.type ≠ []
  pieces : ∃ front behind : Text, part = front ++ ':' :: behind ∧
    front.trim = p.name ∧ behind.trim = p.type

/-- Blanks may stand around the name and around the type. -/
inductive Spells (p : Parameter) : Text → Prop
  | intro {a b c d : Text} (ha : a.AllBlank) (hb : b.AllBlank) (hc : c.AllBlank)
      (hd : d.AllBlank) : Spells p (a ++ p.name ++ b ++ ':' :: (c ++ p.type ++ d))

variable {p : Parameter} {part : Text}

theorem read?_eq_some_iff : read? part = some p ↔ p.Of part := by
  rw [read?]
  constructor
  · intro h
    split at h
    · rename_i name type hs
      split at h
      · rename_i hn
        obtain rfl := Option.some.inj h
        obtain ⟨a, bs, hab, rfl, hb⟩ := List.map_eq_cons_iff.1 hs
        obtain ⟨b, cs, rfl, rfl, hc⟩ := List.map_eq_cons_iff.1 hb
        obtain rfl := List.map_eq_nil_iff.1 hc
        obtain ⟨rfl, hfree⟩ := splitOn_colon_eq_pair_iff.1 hab
        exact ⟨count_colon_eq_one_iff.2 hfree, hn.1, hn.2, a, b, rfl, rfl, rfl⟩
      · cases h
    · cases h
  · rintro ⟨hcount, hname, htype, front, behind, rfl, hf, hb⟩
    have hsplit := splitOn_colon_eq_pair_iff.2 ⟨rfl, count_colon_eq_one_iff.1 hcount⟩
    simp only [hsplit, List.map_cons, List.map_nil, hf, hb]
    exact if_pos ⟨hname, htype⟩

theorem WellFormed.parts (h : p.WellFormed) :
    ∃ k, depthBehind 0 p.name = some k ∧ depthBehind k p.type = some 0 := by
  rw [← Option.bind_eq_some_iff, ← depthBehind_ascribe]
  exact h.brackets

/-- The brackets that the name leaves open are closed by the type. -/
theorem WellFormed.checkBrackets_type (h : p.WellFormed) :
    checkBrackets p.type = .ok () ↔ checkBrackets p.name = .ok () := by
  obtain ⟨k, hn, ht⟩ := h.parts
  have hkn := count_of_depthBehind hn
  have hkt := count_of_depthBehind ht
  constructor
  · intro hc
    have he := (checkBrackets_eq_ok_iff.1 hc).2
    obtain rfl : k = 0 := by omega
    exact checkBrackets_of_depthBehind hn
  · intro hc
    have he := (checkBrackets_eq_ok_iff.1 hc).2
    obtain rfl : k = 0 := by omega
    exact checkBrackets_of_depthBehind ht

theorem WellFormed.of_spells (h : p.WellFormed) (hs : p.Spells part) : p.Of part := by
  obtain ⟨ha, hb, hc, hd⟩ := hs
  have hcolon : ∀ {x y t : Text}, x.AllBlank → y.AllBlank → ':' ∉ t → ':' ∉ x ++ t ++ y := by
    intro x y t hx hy ht
    simp [hx.not_mem, hy.not_mem, ht, show isBlank ':' = false from rfl]
  exact ⟨count_colon_eq_one_iff.2 ⟨hcolon ha hb h.colon, hcolon hc hd h.type.colon⟩, h.name,
    h.type.nonempty, _, _, rfl, Text.trim_append ha (.of_isName h.name) hb,
    Text.trim_append hc h.type.trimmed hd⟩

theorem spells_written {blanks : Text} (hb : blanks.AllBlank) : p.Spells (blanks ++ p.written) := by
  have hs : p.Spells (blanks ++ p.name ++ [] ++ ':' :: ([' '] ++ p.type ++ [])) :=
    .intro hb .nil .space .nil
  simpa [written, ascribe] using hs

theorem Of.depthBehind_eq (h : p.Of part) (depth : Nat) :
    depthBehind depth part = depthBehind depth p.written := by
  obtain ⟨-, -, -, a, b, rfl, ha, hb⟩ := h
  rw [written, ← ha, ← hb]
  simp only [depthBehind_ascribe, depthBehind_trim, depthBehind_append]
  rfl

theorem Of.isInfix (h : p.Of part) : p.name <:+: part ∧ p.type <:+: part := by
  obtain ⟨-, -, -, a, b, rfl, ha, hb⟩ := h
  rw [← ha, ← hb]
  exact ⟨(Text.trim_isInfix a).trans (List.prefix_append _ _).isInfix,
    (Text.trim_isInfix b).trans ⟨a ++ [':'], [], by simp⟩⟩

theorem Of.wellFormed (h : p.Of part) (hd : depthBehind 0 part = some 0) : p.WellFormed := by
  have hbrackets : depthBehind 0 p.written = some 0 := by rw [← h.depthBehind_eq, hd]
  obtain ⟨hcount, hn, ht, a, b, rfl, ha, hb⟩ := h
  obtain ⟨hca, hcb⟩ := count_colon_eq_one_iff.1 hcount
  have hna : p.name <:+: a := ha ▸ Text.trim_isInfix a
  have htb : p.type <:+: b := hb ▸ Text.trim_isInfix b
  exact ⟨hn, fun hm => hca (hna.subset hm),
    ⟨ht, hb ▸ Text.trimmed_trim b, fun hm => hcb (htb.subset hm)⟩, hbrackets⟩

/-- A name keeps its part from being blank. -/
theorem Of.not_allBlank (h : p.Of part) {t : Text} (hp : part <:+: t) : ¬ t.AllBlank := by
  intro hall
  obtain ⟨hne, hblank⟩ := Text.isName_iff.1 h.name
  obtain ⟨c, hc⟩ := List.exists_mem_of_ne_nil p.name hne
  exact hall.not_mem (hblank c hc) ((h.isInfix.1.trans hp).subset hc)

end Parameter

section lists

variable {parts : List Text} {ps : List Parameter}

theorem readParameters?_eq_some_iff :
    readParameters? parts = some ps ↔ List.Forall₂ Parameter.Of parts ps := by
  induction parts generalizing ps with
  | nil => cases ps <;> simp [readParameters?]
  | cons part parts ih =>
    rw [readParameters?]
    constructor
    · intro h
      split at h
      · rename_i p qs hp hqs
        cases h
        exact .cons (Parameter.read?_eq_some_iff.1 hp) (ih.1 hqs)
      · cases h
    · intro h
      cases h with
      | cons hp hps => simp only [Parameter.read?_eq_some_iff.2 hp, ih.2 hps]

theorem cutTopLevel_of_parts (hn : parts ≠ []) (hps : List.Forall₂ Parameter.Of parts ps)
    (h : ∀ p ∈ ps, p.WellFormed) : cutTopLevel 0 ([','].intercalate parts) = some parts := by
  refine cutTopLevel_intercalate hn fun part hpart => ?_
  obtain ⟨p, hp, hof⟩ := exists_of_mem_forall₂ hps.flip hpart
  exact (hof.depthBehind_eq 0).trans (h p hp).brackets

theorem readParameterList_of_parts (hps : List.Forall₂ Parameter.Of parts ps)
    (h : ∀ p ∈ ps, p.WellFormed) : readParameterList ([','].intercalate parts) = .ok ps := by
  cases hps with
  | nil => rfl
  | @cons part p parts ps hp hps =>
    have hall := List.Forall₂.cons hp hps
    have hblank : Text.trim ([','].intercalate (part :: parts)) ≠ [] := fun ht =>
      hp.not_allBlank (isInfix_intercalate List.mem_cons_self) (Text.trim_eq_nil_iff.1 ht)
    simp only [readParameterList, hblank, if_false, topLevelParts,
      cutTopLevel_of_parts (by simp) hall h, readParameters?_eq_some_iff.2 hall]

/-- A list is read back wherever blanks are put between its pieces. -/
theorem readParameterList_of_spells (hps : List.Forall₂ Parameter.Spells ps parts)
    (h : ∀ p ∈ ps, p.WellFormed) : readParameterList ([','].intercalate parts) = .ok ps := by
  refine readParameterList_of_parts ?_ h
  induction hps with
  | nil => exact .nil
  | cons hp _ ih =>
    obtain ⟨hw, hws⟩ := List.forall_mem_cons.1 h
    exact .cons (hw.of_spells hp) (ih hws)

end lists

def writtenParameters (ps : List Parameter) : Text :=
  ", ".toList.intercalate (ps.map Parameter.written)

theorem intercalate_comma_space (part : Text) (parts : List Text) :
    ", ".toList.intercalate (part :: parts) =
      [','].intercalate (part :: parts.map (' ' :: ·)) := by
  rw [Text.intercalate_cons, Text.intercalate_cons, List.flatMap_map]
  rfl

theorem writtenParameters_of_joins {Q : Text → Prop} (hQ : Joins Q) {ps : List Parameter}
    (h : ∀ p ∈ ps, Q p.name ∧ Q p.type) : Q (writtenParameters ps) := by
  refine hQ.listed (List.forall_mem_map.2 fun p hp => ?_)
  obtain ⟨hname, htype⟩ := h p hp
  exact hQ.ascribe hname htype

/-- The parts of a written list. All but the first start with a space. -/
def writtenParts : List Parameter → List Text
  | [] => []
  | p :: ps => p.written :: (ps.map Parameter.written).map (' ' :: ·)

theorem writtenParameters_eq (ps : List Parameter) :
    writtenParameters ps = [','].intercalate (writtenParts ps) := by
  cases ps with
  | nil => rfl
  | cons p ps => exact intercalate_comma_space p.written (ps.map Parameter.written)

theorem spells_writtenParts (ps : List Parameter) :
    List.Forall₂ Parameter.Spells ps (writtenParts ps) := by
  cases ps with
  | nil => exact .nil
  | cons p ps =>
    have hfirst : p.Spells ([] ++ p.written) := Parameter.spells_written .nil
    refine .cons hfirst ?_
    rw [List.forall₂_map_right_iff, List.forall₂_map_right_iff, List.forall₂_same]
    intro q _
    show q.Spells ([' '] ++ q.written)
    exact Parameter.spells_written .space

theorem readParameterList_writtenParameters {ps : List Parameter} (h : ∀ p ∈ ps, p.WellFormed) :
    readParameterList (writtenParameters ps) = .ok ps := by
  rw [writtenParameters_eq]
  exact readParameterList_of_spells (spells_writtenParts ps) h

theorem of_readParameterList {t : Text} {ps : List Parameter} (h : readParameterList t = .ok ps)
    {p : Parameter} (hp : p ∈ ps) : p.WellFormed ∧ p.name <:+: t ∧ p.type <:+: t := by
  rw [readParameterList] at h
  split at h
  · cases h
    simp at hp
  · split at h
    · cases h
    · rename_i parts hparts
      have hcut := topLevelParts_eq_ok_iff.1 hparts
      split at h
      · rename_i ps hps
        cases h
        obtain ⟨part, hpart, hof⟩ := exists_of_mem_forall₂ (readParameters?_eq_some_iff.1 hps) hp
        have hi : part <:+: t := by
          rw [← (parts_of_cutTopLevel hcut).1]
          exact isInfix_intercalate hpart
        exact ⟨hof.wellFormed (depthBehind_of_mem_cutTopLevel hcut hpart), hof.isInfix.1.trans hi,
          hof.isInfix.2.trans hi⟩
      · cases h

end ClassNotation
