import ClassNotation.Java.TypeName
import ClassNotation.Proofs.Brackets
import ClassNotation.Proofs.Content
import Mathlib.Data.List.SplitBy

/-! How Java spells a type. Its whole identifiers are spelled one by one and what stands between
them is kept, so the spelling of a list is the list of the spellings. -/

namespace ClassNotation.Java

def AllIdentifier (t : Text) : Prop :=
  ∀ c ∈ t, isIdentifierChar c = true

/-- An identifier, or one character that belongs to none. -/
inductive Piece : Text → Prop
  | identifier {w : Text} (hn : w ≠ []) (h : AllIdentifier w) : Piece w
  | mark {c : Char} (h : isIdentifierChar c = false) : Piece [c]

/-- The pieces make up the text, and no identifier is cut in two. -/
structure Cut (t : Text) (pieces : List Text) : Prop where
  join : pieces.flatten = t
  piece : ∀ w ∈ pieces, Piece w
  whole : pieces.IsChain fun v w => ¬ (AllIdentifier v ∧ AllIdentifier w)

def inOneIdentifier (a b : Char) : Bool :=
  isIdentifierChar a && isIdentifierChar b

section cutting

variable {v w t : Text} {c : Char}

theorem allIdentifier_cons : AllIdentifier (c :: t) ↔ isIdentifierChar c = true ∧ AllIdentifier t :=
  List.forall_mem_cons

theorem AllIdentifier.nil : AllIdentifier [] :=
  List.forall_mem_nil _

theorem AllIdentifier.isChain (h : AllIdentifier w) :
    w.IsChain fun a b => inOneIdentifier a b = true :=
  (List.pairwise_of_forall_mem_list fun a ha b hb => by
    simp [inOneIdentifier, h a ha, h b hb]).isChain

theorem allIdentifier_of_isChain {a b : Char}
    (h : (a :: b :: w).IsChain fun a b => inOneIdentifier a b = true) :
    AllIdentifier (a :: b :: w) := by
  induction w generalizing a b with
  | nil =>
    obtain ⟨hab, -⟩ := List.isChain_cons_cons.1 h
    simpa [inOneIdentifier, allIdentifier_cons, AllIdentifier] using hab
  | cons c w ih =>
    obtain ⟨hab, hbc⟩ := List.isChain_cons_cons.1 h
    rw [inOneIdentifier, Bool.and_eq_true] at hab
    exact allIdentifier_cons.2 ⟨hab.1, ih hbc⟩

theorem piece_iff :
    Piece w ↔ w ≠ [] ∧ w.IsChain fun a b => inOneIdentifier a b = true := by
  constructor
  · rintro (⟨hn, h⟩ | h)
    · exact ⟨hn, h.isChain⟩
    · exact ⟨List.cons_ne_nil _ _, List.isChain_singleton _⟩
  · rintro ⟨hn, h⟩
    rcases w with _ | ⟨a, _ | ⟨b, w⟩⟩
    · exact absurd rfl hn
    · cases ha : isIdentifierChar a with
      | true => exact .identifier hn (by simpa [AllIdentifier] using ha)
      | false => exact .mark ha
    · exact .identifier hn (allIdentifier_of_isChain h)

/-- One character of a piece tells which of the two it is. -/
theorem Piece.allIdentifier_iff (h : Piece w) (hc : c ∈ w) :
    AllIdentifier w ↔ isIdentifierChar c = true := by
  cases h with
  | identifier hn h => exact ⟨fun _ => h c hc, fun _ => h⟩
  | mark h =>
    obtain rfl := List.mem_singleton.1 hc
    simp [AllIdentifier]

theorem not_allIdentifier_iff (hv : Piece v) (hw : Piece w) :
    ¬ (AllIdentifier v ∧ AllIdentifier w) ↔
      ∃ hv hw, inOneIdentifier (v.getLast hv) (w.head hw) = false := by
  obtain ⟨hvn, -⟩ := piece_iff.1 hv
  obtain ⟨hwn, -⟩ := piece_iff.1 hw
  rw [hv.allIdentifier_iff (List.getLast_mem hvn), hw.allIdentifier_iff (List.head_mem hwn)]
  simp [hvn, hwn, inOneIdentifier]

theorem cut_iff_splitBy {pieces : List Text} :
    Cut t pieces ↔ t.splitBy inOneIdentifier = pieces := by
  have hpieces : (∀ w ∈ pieces, Piece w) ↔ [] ∉ pieces ∧
      ∀ w ∈ pieces, w.IsChain fun a b => inOneIdentifier a b = true := by
    simp only [piece_iff, forall_and, List.forall_mem_ne', ne_eq]
  have hwhole (h : ∀ w ∈ pieces, Piece w) :=
    List.IsChain.iff_of_mem_imp (l := pieces) fun v w hv hw =>
      not_allIdentifier_iff (h v hv) (h w hw)
  rw [List.splitBy_eq_iff]
  constructor
  · rintro ⟨rfl, h, hc⟩
    obtain ⟨hn, hw⟩ := hpieces.1 h
    exact ⟨rfl, hn, hw, (hwhole h).1 hc⟩
  · rintro ⟨rfl, hn, hw, hc⟩
    have h := hpieces.2 ⟨hn, hw⟩
    exact ⟨rfl, h, (hwhole h).2 hc⟩

end cutting

/-- A text in the order in which it is read: an identifier, which may be empty, and then either
the end or a character of no identifier. -/
inductive Scanned : Text → Prop
  | identifier {w : Text} (h : AllIdentifier w) : Scanned w
  | mark {w t : Text} {c : Char} (h : AllIdentifier w) (hc : isIdentifierChar c = false)
    (ht : Scanned t) : Scanned (w ++ c :: t)

theorem scanned (t : Text) : Scanned t := by
  induction t with
  | nil => exact .identifier .nil
  | cons d t ih =>
    cases hd : isIdentifierChar d with
    | false => exact .mark .nil hd ih
    | true =>
      cases ih with
      | identifier h => exact .identifier (allIdentifier_cons.2 ⟨hd, h⟩)
      | mark h hc ht => exact .mark (allIdentifier_cons.2 ⟨hd, h⟩) hc ht

section spelling

variable {w t : Text} {c : Char}

theorem allIdentifier_spelling_iff : AllIdentifier (spelling w) ↔ AllIdentifier w := by
  have hwords : ∀ c ∈ "strString".toList, isIdentifierChar c = true :=
    List.all_eq_true.1 (by decide +kernel)
  by_cases h : w = "str".toList
  · subst h
    exact ⟨fun _ c hc => hwords c (List.mem_append_left "String".toList hc),
      fun _ c hc => hwords c (List.mem_append_right "str".toList hc)⟩
  · rw [spelling, if_neg h]

theorem spelling_spelling (w : Text) : spelling (spelling w) = spelling w := by
  by_cases h : w = "str".toList
  · rw [h]
    rfl
  · have hw : spelling w = w := if_neg h
    rw [hw, hw]

theorem spelling_singleton (c : Char) : spelling [c] = [c] := by
  simp [spelling]

theorem Piece.spelling (h : Piece w) : Piece (spelling w) := by
  cases h with
  | identifier hn h =>
    refine .identifier ?_ (allIdentifier_spelling_iff.2 h)
    rw [Java.spelling]
    split
    · decide
    · exact hn
  | mark h =>
    rw [spelling_singleton]
    exact .mark h

theorem typeNameFrom_cons_identifier (word : Text) (hc : isIdentifierChar c = true) :
    typeNameFrom word (c :: t) = typeNameFrom (word ++ [c]) t := by
  rw [typeNameFrom, if_pos hc]

theorem typeNameFrom_cons_mark (word : Text) (hc : isIdentifierChar c = false) :
    typeNameFrom word (c :: t) = spelling word ++ c :: typeName t := by
  rw [typeNameFrom, if_neg (by simp [hc]), typeName]

theorem typeNameFrom_of_allIdentifier (word : Text) (h : AllIdentifier w) :
    typeNameFrom word w = spelling (word ++ w) := by
  induction w generalizing word with
  | nil => rw [typeNameFrom, List.append_nil]
  | cons c w ih =>
    obtain ⟨hc, hw⟩ := allIdentifier_cons.1 h
    rw [typeNameFrom_cons_identifier word hc, ih _ hw, ← List.append_cons]

theorem typeNameFrom_append_mark (word a b : Text) (hc : isIdentifierChar c = false) :
    typeNameFrom word (a ++ c :: b) = typeNameFrom word a ++ c :: typeName b := by
  induction a generalizing word with
  | nil => exact typeNameFrom_cons_mark word hc
  | cons d a ih =>
    rw [List.cons_append]
    cases hd : isIdentifierChar d with
    | true => rw [typeNameFrom_cons_identifier word hd, typeNameFrom_cons_identifier word hd, ih]
    | false =>
      rw [typeNameFrom_cons_mark word hd, typeNameFrom_cons_mark word hd, typeName, ih]
      simp [typeName]

theorem typeName_of_allIdentifier (h : AllIdentifier w) : typeName w = spelling w :=
  typeNameFrom_of_allIdentifier [] h

theorem typeName_append_mark (a b : Text) (hc : isIdentifierChar c = false) :
    typeName (a ++ c :: b) = typeName a ++ c :: typeName b :=
  typeNameFrom_append_mark [] a b hc

theorem typeName_typeName (t : Text) : typeName (typeName t) = typeName t := by
  induction scanned t with
  | identifier h =>
    rw [typeName_of_allIdentifier h, typeName_of_allIdentifier (allIdentifier_spelling_iff.2 h),
      spelling_spelling]
  | mark h hc _ ih =>
    rw [typeName_append_mark _ _ hc, typeName_append_mark _ _ hc, ih, typeName_of_allIdentifier h,
      typeName_of_allIdentifier (allIdentifier_spelling_iff.2 h), spelling_spelling]

theorem splitBy_of_allIdentifier (h : AllIdentifier w) :
    ((w.splitBy inOneIdentifier).map spelling).flatten = spelling w := by
  by_cases hw : w = []
  · rw [hw]
    rfl
  · simp [List.splitBy_of_isChain hw h.isChain]

theorem splitBy_append_mark (w t : Text) (hc : isIdentifierChar c = false) :
    (w ++ c :: t).splitBy inOneIdentifier =
      w.splitBy inOneIdentifier ++ [c] :: t.splitBy inOneIdentifier := by
  have hbehind : (c :: t).splitBy inOneIdentifier = [c] :: t.splitBy inOneIdentifier := by
    rw [← List.singleton_append, List.splitBy_append (by simp [inOneIdentifier, hc])]
    rfl
  rw [List.splitBy_append_cons _ (by simp [inOneIdentifier, hc]), hbehind]

theorem typeName_eq_of_splitBy (t : Text) :
    typeName t = ((t.splitBy inOneIdentifier).map spelling).flatten := by
  induction scanned t with
  | identifier h => rw [typeName_of_allIdentifier h, splitBy_of_allIdentifier h]
  | mark h hc _ ih =>
    rw [typeName_append_mark _ _ hc, splitBy_append_mark _ _ hc, typeName_of_allIdentifier h, ih,
      List.map_append, List.flatten_append, splitBy_of_allIdentifier h, List.map_cons,
      List.flatten_cons, spelling_singleton, List.singleton_append]

theorem AllIdentifier.plain (h : AllIdentifier w) : Text.Plain w := by
  refine .of_not_mem (fun hm => ?_) (fun hm => ?_)
  all_goals exact absurd (h _ hm) (by decide +kernel)

/-- What belongs to no identifier can only stand in front of a spelling if it was there. -/
theorem head?_of_head?_typeName (hc : isIdentifierChar c = false)
    (h : (typeName t).head? = some c) : t.head? = some c := by
  have hidentifier : ∀ v : Text, AllIdentifier v → v.head? ≠ some c := fun v hv hm => by
    simp [hv c (List.mem_of_head? hm)] at hc
  cases scanned t with
  | identifier hw =>
    rw [typeName_of_allIdentifier hw] at h
    exact absurd h (hidentifier _ (allIdentifier_spelling_iff.2 hw))
  | @mark w t d hw hd ht =>
    rw [typeName_append_mark w t hd, typeName_of_allIdentifier hw] at h
    by_cases hn : w = []
    · subst hn
      exact h
    · obtain ⟨hn', -⟩ := piece_iff.1 (Piece.identifier hn hw).spelling
      rw [List.head?_append_of_ne_nil _ hn'] at h
      exact absurd h (hidentifier _ (allIdentifier_spelling_iff.2 hw))

theorem plain_append_of_allIdentifier (hw : AllIdentifier w) :
    Text.Plain (w ++ t) ↔ Text.Plain t := by
  induction w with
  | nil => rfl
  | cons d w ih =>
    obtain ⟨hd, hw⟩ := allIdentifier_cons.1 hw
    have hne : ∀ c, isIdentifierChar c = false → d ≠ c := by
      rintro c hc rfl
      simp [hd] at hc
    have hcons := Text.plain_append_cons (a := []) (b := w ++ t) (hne '/' (by decide +kernel))
      (hne '\n' (by decide +kernel))
    rw [List.cons_append, ← ih hw, ← List.nil_append (d :: _), hcons]
    exact and_iff_right AllIdentifier.nil.plain

theorem plain_typeName (h : Text.Plain t) : Text.Plain (typeName t) := by
  induction scanned t with
  | identifier hw =>
    rw [typeName_of_allIdentifier hw]
    exact (allIdentifier_spelling_iff.2 hw).plain
  | @mark w t c hw hc _ ih =>
    rw [plain_append_of_allIdentifier hw] at h
    rw [typeName_append_mark w t hc, typeName_of_allIdentifier hw,
      plain_append_of_allIdentifier (allIdentifier_spelling_iff.2 hw)]
    have hrest := ih (h.of_isInfix (List.suffix_cons c t).isInfix)
    refine ⟨?_, List.isChain_cons.2 ⟨?_, hrest.slashes⟩⟩
    · have hfeed := h.feed
      simp only [List.mem_cons, not_or] at hfeed ⊢
      exact ⟨hfeed.1, hrest.feed⟩
    · rintro d hd ⟨rfl, rfl⟩
      exact (List.isChain_cons.1 h.slashes).1 '/' (head?_of_head?_typeName hc hd) ⟨rfl, rfl⟩

theorem Cut.typeName {pieces : List Text} (h : Cut t pieces) :
    Cut (typeName t) (pieces.map spelling) where
  join := by rw [typeName_eq_of_splitBy, cut_iff_splitBy.1 h]
  piece := by
    rw [List.forall_mem_map]
    exact fun w hw => (h.piece w hw).spelling
  whole := by
    rw [List.isChain_map]
    simp only [allIdentifier_spelling_iff]
    exact h.whole

end spelling

theorem map_typeName_modifyHead (w : Text) (c : Char) (ps : List Text) (hw : AllIdentifier w)
    (hc : isIdentifierChar c = false) :
    (ps.modifyHead (w ++ c :: ·)).map typeName =
      (ps.map typeName).modifyHead (spelling w ++ c :: ·) := by
  cases ps with
  | nil => rfl
  | cons p ps => simp [typeName_append_mark w p hc, typeName_of_allIdentifier hw]

theorem AllIdentifier.neutral {w : Text} (h : AllIdentifier w) :
    ∀ c ∈ w, c ≠ '<' ∧ c ≠ '>' ∧ c ≠ ',' := by
  refine fun c hc => ⟨?_, ?_, ?_⟩
  all_goals
    rintro rfl
    exact absurd (h _ hc) (by decide +kernel)

theorem cutTopLevel_typeName (depth : Nat) (t : Text) :
    cutTopLevel depth (typeName t) = (cutTopLevel depth t).map (List.map typeName) := by
  induction scanned t generalizing depth with
  | @identifier w h =>
    have hcut (v : Text) (hv : AllIdentifier v) :
        cutTopLevel depth v = (cutTopLevel depth []).map (List.modifyHead (v ++ ·)) := by
      rw [← cutTopLevel_append_of_neutral _ hv.neutral, List.append_nil]
    rw [typeName_of_allIdentifier h, hcut _ (allIdentifier_spelling_iff.2 h), hcut w h]
    cases depth with
    | zero => simp [cutTopLevel, typeName_of_allIdentifier h]
    | succ depth => rfl
  | @mark w t c h hc _ ih =>
    have hmap (ps : Option (List Text)) :
        ((ps.map (List.map typeName)).map (List.modifyHead (c :: ·))).map
            (List.modifyHead (spelling w ++ ·)) =
          ((ps.map (List.modifyHead (c :: ·))).map (List.modifyHead (w ++ ·))).map
            (List.map typeName) := by
      cases ps with
      | none => rfl
      | some ps => simp [Function.comp_def, map_typeName_modifyHead w c ps h hc]
    rw [typeName_append_mark w t hc, typeName_of_allIdentifier h,
      cutTopLevel_append_of_neutral _ (allIdentifier_spelling_iff.2 h).neutral,
      cutTopLevel_append_of_neutral _ h.neutral]
    by_cases hopen : c = '<'
    · subst hopen
      rw [cutTopLevel_open, cutTopLevel_open, ih, hmap]
    by_cases hclose : c = '>'
    · subst hclose
      cases depth with
      | zero => rfl
      | succ depth => rw [cutTopLevel_close_succ, cutTopLevel_close_succ, ih, hmap]
    by_cases hcomma : c = ',' ∧ depth = 0
    · obtain ⟨rfl, rfl⟩ := hcomma
      rw [cutTopLevel_comma, cutTopLevel_comma, ih]
      cases cutTopLevel 0 t with
      | none => rfl
      | some ps => simp [typeName_of_allIdentifier h]
    · rw [cutTopLevel_other _ hopen hclose hcomma, cutTopLevel_other _ hopen hclose hcomma, ih,
        hmap]

/-- The pieces of the spelling are those of the text with the notation's word for strings replaced.
So a spelling is its own, and it can be taken on both sides of any character that is in no
identifier, and in each part of a list. -/
theorem typeName_piecewise (t : Text) :
    (∃! pieces, Cut t pieces) ∧
    (∀ pieces, Cut t pieces → Cut (typeName t)
      (pieces.map fun w => if w = "str".toList then "String".toList else w)) ∧
    typeName (typeName t) = typeName t ∧
    (∀ a c b, isIdentifierChar c = false →
      typeName (a ++ [c] ++ b) = typeName a ++ [c] ++ typeName b) ∧
    ∀ parts, topLevelParts (typeName t) = .ok parts ↔
      ∃ ps, topLevelParts t = .ok ps ∧ ps.map typeName = parts := by
  refine ⟨⟨_, cut_iff_splitBy.2 rfl, fun _ h => (cut_iff_splitBy.1 h).symm⟩,
    fun _ h => h.typeName, typeName_typeName t, fun a c b hc => ?_, fun parts => ?_⟩
  · simp only [List.append_assoc, List.singleton_append, typeName_append_mark a b hc]
  · simp only [topLevelParts_eq_ok_iff, cutTopLevel_typeName, Option.map_eq_some_iff]

def crossingTypes : Text :=
  "Map<str, éstr[]>,str".toList

/-- The word for strings as a whole identifier, and inside another. -/
theorem typeName_piecewise_crossingTypes :
    (["Map", "<", "String", ",", " ", "éstr", "[", "]", ">", ",", "String"].map
      String.toList).flatten = typeName crossingTypes ∧
    typeName ("Map<str, éstr[]>".toList ++ [','] ++ "str".toList) =
      typeName "Map<str, éstr[]>".toList ++ [','] ++ typeName "str".toList := by
  have hcut : Cut crossingTypes
      (["Map", "<", "str", ",", " ", "éstr", "[", "]", ">", ",", "str"].map String.toList) :=
    cut_iff_splitBy.2 (by decide +kernel)
  obtain ⟨-, hpieces, -, happend, -⟩ := typeName_piecewise crossingTypes
  exact ⟨(hpieces _ hcut).join, happend _ ',' _ (by decide +kernel)⟩

end ClassNotation.Java
