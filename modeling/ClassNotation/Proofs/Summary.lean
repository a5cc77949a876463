import ClassNotation.Diagram.Summary
import ClassNotation.Proofs.References

/-! What the summary of a diagram shows. The names in it hold no blanks, so its lines can be taken
apart into words, and the lines of relations are told by the blanks in front of them. -/

namespace ClassNotation

/-- The text holds no blanks but spaces. -/
def Text.Spaced (t : Text) : Prop :=
  ∀ c ∈ t, c = ' ' ∨ isBlank c = false

namespace Text

theorem Spaced.of_isName {w : Text} (h : w.isName = true) : w.Spaced :=
  fun c hc => .inr ((isName_iff.1 h).2 c hc)

theorem Spaced.not_mem {t : Text} (h : t.Spaced) {c : Char} (hs : c ≠ ' ')
    (hb : isBlank c = true) : c ∉ t := by
  intro hc
  rcases h c hc with he | he
  · exact hs he
  · simp [hb] at he

theorem ofNat_injective : Function.Injective ofNat := by
  intro m n h
  have hdigits : Nat.toDigits 10 m = Nat.toDigits 10 n := h
  rw [← Nat.ofDigitChars_ten_toDigits (n := m), hdigits, Nat.ofDigitChars_ten_toDigits]

theorem isBlank_of_mem_ofNat {n : Nat} {c : Char} (h : c ∈ ofNat n) : isBlank c = false := by
  have hdigit := Nat.isDigit_of_mem_toDigits (by decide) (by decide) h
  have hrange : 48 ≤ c.toNat ∧ c.toNat ≤ 57 := by
    simpa [Char.isDigit, UInt32.le_iff_toNat_le] using hdigit
  have hapart : ∀ r ∈ blankRanges, r.2 < 48 ∨ 57 < r.1 := by decide
  refine List.any_eq_false.2 fun r hr hblank => ?_
  obtain ⟨hfirst, hlast⟩ : r.1 ≤ c.toNat ∧ c.toNat ≤ r.2 := by simpa using hblank
  have hr := hapart r hr
  omega

theorem isName_ofNat (n : Nat) : isName (ofNat n) = true :=
  isName_iff.2 ⟨Nat.toDigits_ne_nil, fun _ hc => isBlank_of_mem_ofNat hc⟩

theorem isName_append {a b : Text} (ha : a.isName = true) (hb : b.isName = true) :
    isName (a ++ b) = true := by
  obtain ⟨hne, hblank⟩ := isName_iff.1 ha
  exact isName_iff.2 ⟨List.append_ne_nil_of_left_ne_nil hne b,
    List.forall_mem_append.2 ⟨hblank, (isName_iff.1 hb).2⟩⟩

section spaces

variable {ws : List Text}

/-- Words with a space between any two. -/
def joinWords (ws : List Text) : Text :=
  " ".toList.intercalate ws

theorem spaced_joinWords (h : ∀ w ∈ ws, w.isName = true) : (joinWords ws).Spaced := by
  refine intercalate_of_join (Q := Spaced) (by simp [Spaced]) (fun a b ha hb => ?_)
    fun w hw => .of_isName (h w hw)
  have hspace : Spaced " ".toList := by simp [Spaced]
  exact List.forall_mem_append.2 ⟨List.forall_mem_append.2 ⟨ha, hspace⟩, hb⟩

theorem words_joinWords (h : ∀ w ∈ ws, w.isName = true) : words (joinWords ws) = ws := by
  induction ws with
  | nil => rfl
  | cons w ws ih =>
    obtain ⟨hw, hws⟩ := List.forall_mem_cons.1 h
    by_cases hn : ws = []
    · simpa [joinWords, hn] using words_of_isName hw
    · have hjoin : joinWords (w :: ws) = w ++ ' ' :: joinWords ws := by
        rw [joinWords, List.intercalate_cons_of_ne_nil hn, List.append_assoc]
        rfl
      rw [hjoin, words_append_cons _ _ (by decide), words_of_isName hw, ih hws]
      rfl

end spaces

end Text

theorem Qualifier.token_injective : Function.Injective token := by
  intro a b h
  exact Option.some_inj.1 ((ofToken?_token a).symm.trans (ofToken?_eq_some_iff.2 h))

theorem RelationKind.name_injective : Function.Injective name := by
  intro a b h
  cases a <;> cases b <;> first | rfl | exact absurd h (by decide)

namespace ClassBlock

/-- What the line of a class shows of it. -/
structure Figures where
  name : Text
  qualifier : Option Qualifier
  properties : Nat
  constructors : Nat
  operations : Nat
  deriving DecidableEq

def figures (b : ClassBlock) : Figures :=
  ⟨b.name, b.qualifier, b.properties.length, b.constructors.length, b.operations.length⟩

def countWords (b : ClassBlock) : List Text :=
  ["(".toList ++ Text.ofNat b.properties.length, "properties,".toList,
    Text.ofNat b.constructors.length, "constructors,".toList, Text.ofNat b.operations.length,
    "methods)".toList]

def summaryWords (b : ClassBlock) : List Text :=
  b.name :: (b.qualifier.map (·.token)).toList ++ b.countWords

variable {b b' : ClassBlock}

theorem summaryLine_eq (b : ClassBlock) : b.summaryLine = Text.joinWords b.summaryWords := by
  rw [summaryLine, summaryWords, countWords, Text.joinWords]
  cases b.qualifier <;> simp

theorem isName_of_mem_summaryWords (hn : b.name.isName = true) :
    ∀ w ∈ b.summaryWords, w.isName = true := by
  have htoken : ∀ w ∈ (b.qualifier.map (·.token)).toList, w.isName = true := by
    intro w hw
    obtain ⟨q, -, rfl⟩ := Option.map_eq_some_iff.1 (Option.mem_toList.1 hw)
    cases q <;> rfl
  have hcounts : ∀ w ∈ b.countWords, w.isName = true := by
    intro w hw
    simp only [countWords, List.mem_cons, List.not_mem_nil, or_false] at hw
    rcases hw with rfl | rfl | rfl | rfl | rfl | rfl
    · exact Text.isName_append rfl (Text.isName_ofNat _)
    · rfl
    · exact Text.isName_ofNat _
    · rfl
    · exact Text.isName_ofNat _
    · rfl
  exact List.forall_mem_cons.2 ⟨hn, List.forall_mem_append.2 ⟨htoken, hcounts⟩⟩

theorem words_summaryLine (hn : b.name.isName = true) : b.summaryLine.words = b.summaryWords := by
  rw [summaryLine_eq, Text.words_joinWords (isName_of_mem_summaryWords hn)]

theorem figures_eq_of_summaryLine_eq (hn : b.name.isName = true) (hn' : b'.name.isName = true)
    (h : b.summaryLine = b'.summaryLine) : b.figures = b'.figures := by
  have hwords : b.summaryWords = b'.summaryWords := by
    rw [← words_summaryLine hn, h, words_summaryLine hn']
  obtain ⟨hname, hrest⟩ := List.cons.inj hwords
  obtain ⟨htoken, hcounts⟩ := List.append_inj' hrest rfl
  have hqualifier : b.qualifier = b'.qualifier := by
    apply Option.map_injective Qualifier.token_injective
    rw [← Option.head?_toList (o := b.qualifier.map _), htoken, Option.head?_toList]
  simp only [countWords, List.cons.injEq, List.append_cancel_left_eq, true_and, and_true] at hcounts
  obtain ⟨hproperties, hconstructors, hoperations⟩ := hcounts
  rw [figures, figures, hname, hqualifier, Text.ofNat_injective hproperties,
    Text.ofNat_injective hconstructors, Text.ofNat_injective hoperations]

end ClassBlock

namespace Relation

/-- What the line of a relation shows of it. -/
structure Figures where
  source : Text
  kind : RelationKind
  target : Text
  deriving DecidableEq

def figures (r : Relation) : Figures :=
  ⟨className r.source, r.kind, className r.target⟩

def summaryWords (r : Relation) : List Text :=
  [className r.source, "--".toList ++ r.kind.name ++ "-->".toList, className r.target]

structure Named (r : Relation) : Prop where
  source : (className r.source).isName = true
  target : (className r.target).isName = true

variable {r r' : Relation}

theorem summaryLine_eq (r : Relation) :
    r.summaryLine = "  ".toList ++ Text.joinWords r.summaryWords := by
  rw [summaryLine, summaryWords, Text.joinWords, List.intercalate_cons_cons,
    List.intercalate_cons_cons, List.intercalate_singleton]
  simp only [List.append_assoc]
  rfl

theorem Named.isName_of_mem_summaryWords (h : r.Named) : ∀ w ∈ r.summaryWords, w.isName = true := by
  have hkind : Text.isName ("--".toList ++ r.kind.name ++ "-->".toList) = true := by
    cases r.kind <;> rfl
  simpa [summaryWords] using ⟨h.source, hkind, h.target⟩

theorem Named.words_summaryLine (h : r.Named) : r.summaryLine.words = r.summaryWords := by
  have hindent : Text.AllBlank "  ".toList := Text.AllBlank.space.append .space
  rw [summaryLine_eq, Text.words_blank_append hindent,
    Text.words_joinWords h.isName_of_mem_summaryWords]

theorem Named.spaced_summaryLine (h : r.Named) : r.summaryLine.Spaced := by
  have hindent : Text.Spaced "  ".toList := by simp [Text.Spaced]
  rw [summaryLine_eq]
  exact List.forall_mem_append.2 ⟨hindent, Text.spaced_joinWords h.isName_of_mem_summaryWords⟩

theorem figures_eq_of_summaryLine_eq (h : r.Named) (h' : r'.Named)
    (he : r.summaryLine = r'.summaryLine) : r.figures = r'.figures := by
  have hwords : r.summaryWords = r'.summaryWords := by
    rw [← h.words_summaryLine, he, h'.words_summaryLine]
  simp only [summaryWords, List.cons.injEq, List.append_cancel_left_eq, List.append_cancel_right_eq,
    and_true] at hwords
  obtain ⟨hsource, hkind, htarget⟩ := hwords
  rw [figures, figures, hsource, RelationKind.name_injective hkind, htarget]

end Relation

/-- The line of a relation starts with a space, and the line of a class does not. -/
def isClassLine (l : Text) : Bool :=
  l.head? ≠ some ' '

namespace ClassBlock

variable {b : ClassBlock}

theorem isClassLine_summaryLine (hn : b.name.isName = true) : isClassLine b.summaryLine = true := by
  obtain ⟨hne, hblank⟩ := Text.isName_iff.1 hn
  obtain ⟨c, t, ht⟩ := List.exists_cons_of_ne_nil hne
  have hc : c ≠ ' ' := by
    rintro rfl
    exact absurd (hblank ' ' (by simp [ht])) (by decide)
  simp [isClassLine, summaryLine, ht, hc]

theorem isClassLine_relations (b : ClassBlock) :
    ∀ l ∈ b.relations.map Relation.summaryLine, isClassLine l = false := by
  refine List.forall_mem_map.2 fun r _ => ?_
  simp [isClassLine, Relation.summaryLine]

/-- The ends of a relation are its class and a class that the block relates to. -/
theorem WellFormed.named (h : b.WellFormed) {r : Relation} (hr : r ∈ b.relations) : r.Named := by
  have hend : ∀ n, n = className r.source ∨ n = className r.target → n.isName = true := by
    intro n hn
    rcases (h.className_end_iff hr).1 hn with rfl | rfl
    · exact h.name
    · exact (className_of_related (h.related r hr)).1
  exact ⟨hend _ (.inl rfl), hend _ (.inr rfl)⟩

theorem WellFormed.spaced_of_mem_summaryLines (h : b.WellFormed) {l : Text}
    (hl : l ∈ b.summaryLines) : l.Spaced := by
  rcases List.mem_cons.1 hl with rfl | hl
  · rw [summaryLine_eq]
    exact Text.spaced_joinWords (isName_of_mem_summaryWords h.name)
  · obtain ⟨r, hr, rfl⟩ := List.mem_map.1 hl
    exact (h.named hr).spaced_summaryLine

end ClassBlock

section groups

variable {α β : Type} {p : β → Bool} {first : α → β} {rest : α → List β} {gs : List α}

theorem filter_flatMap_cons (hfirst : ∀ g ∈ gs, p (first g) = true)
    (hrest : ∀ g ∈ gs, ∀ x ∈ rest g, p x = false) :
    (gs.flatMap fun g => first g :: rest g).filter p = gs.map first := by
  induction gs with
  | nil => rfl
  | cons g gs ih =>
    obtain ⟨hg, hgs⟩ := List.forall_mem_cons.1 hfirst
    obtain ⟨hr, hrs⟩ := List.forall_mem_cons.1 hrest
    have hnone : (rest g).filter p = [] := List.filter_eq_nil_iff.2 (by simpa using hr)
    rw [List.flatMap_cons, List.filter_append, List.filter_cons_of_pos hg, hnone, ih hgs hrs]
    rfl

theorem splitOnP_append_flatMap_cons (hfirst : ∀ g ∈ gs, p (first g) = true)
    (hrest : ∀ g ∈ gs, ∀ x ∈ rest g, p x = false) {xs : List β} (hx : ∀ x ∈ xs, p x = false) :
    (xs ++ gs.flatMap fun g => first g :: rest g).splitOnP p = xs :: gs.map rest := by
  induction gs generalizing xs with
  | nil => simpa using List.splitOnP_eq_singleton hx
  | cons g gs ih =>
    obtain ⟨hg, hgs⟩ := List.forall_mem_cons.1 hfirst
    obtain ⟨hr, hrs⟩ := List.forall_mem_cons.1 hrest
    rw [List.flatMap_cons, List.cons_append, List.splitOnP_append_cons _ _ hg, ih hgs hrs hr,
      List.splitOnP_eq_singleton hx, List.map_cons, List.singleton_append]

/-- Lists whose items agree on `f` agree on what `f` determines. -/
theorem map_eq_map_of_determined {γ : Type} {P : α → Prop} {f : α → β} {g : α → γ} {xs ys : List α}
    (hdet : ∀ x y, P x → P y → f x = f y → g x = g y) (hx : ∀ x ∈ xs, P x) (hy : ∀ y ∈ ys, P y)
    (h : xs.map f = ys.map f) : xs.map g = ys.map g := by
  induction xs generalizing ys with
  | nil => rw [List.map_eq_nil_iff.1 h.symm]
  | cons x xs ih =>
    obtain ⟨y, ys, rfl, hxy, hxs⟩ := List.map_eq_cons_iff.1 h.symm
    obtain ⟨hPx, hPxs⟩ := List.forall_mem_cons.1 hx
    obtain ⟨hPy, hPys⟩ := List.forall_mem_cons.1 hy
    rw [List.map_cons, List.map_cons, hdet x y hPx hPy hxy.symm, ih hPxs hPys hxs.symm]

end groups

namespace Diagram

variable {d e : Diagram}

theorem lines_summary (h : ∀ b ∈ d.blocks, b.WellFormed) : d.summary.lines = d.summaryLines := by
  have hspaced : ∀ l ∈ d.summaryLines, l.Spaced := by
    intro l hl
    obtain ⟨b, hb, hl⟩ := List.mem_flatMap.1 hl
    exact (h b hb).spaced_of_mem_summaryLines hl
  exact Text.lines_flatMap_feed (fun l hl => (hspaced l hl).not_mem (by decide) rfl) fun l hl =>
    Text.withoutReturn_of_not_mem ((hspaced l hl).not_mem (by decide) rfl)

theorem length_summaryLines (d : Diagram) :
    d.summaryLines.length = d.classCount + d.relationCount := by
  rw [summaryLines, classCount, relationCount]
  induction d.blocks with
  | nil => rfl
  | cons b bs ih =>
    rw [List.flatMap_cons, List.length_append, ih, ClassBlock.summaryLines, List.length_cons,
      List.length_map, List.foldr_cons, List.length_cons]
    omega

theorem filter_summaryLines (h : ∀ b ∈ d.blocks, b.WellFormed) :
    d.summaryLines.filter isClassLine = d.blocks.map (·.summaryLine) :=
  filter_flatMap_cons (fun b hb => ClassBlock.isClassLine_summaryLine (h b hb).name)
    fun b _ => b.isClassLine_relations

theorem splitOnP_summaryLines (h : ∀ b ∈ d.blocks, b.WellFormed) :
    d.summaryLines.splitOnP isClassLine =
      [] :: d.blocks.map (·.relations.map Relation.summaryLine) :=
  splitOnP_append_flatMap_cons (fun b hb => ClassBlock.isClassLine_summaryLine (h b hb).name)
    (fun b _ => b.isClassLine_relations) (List.forall_mem_nil _)

theorem figures_eq_of_summary_eq (hd : ∀ b ∈ d.blocks, b.WellFormed)
    (he : ∀ b ∈ e.blocks, b.WellFormed) (h : d.summary = e.summary) :
    d.blocks.map ClassBlock.figures = e.blocks.map ClassBlock.figures := by
  have hlines : d.blocks.map (·.summaryLine) = e.blocks.map (·.summaryLine) := by
    rw [← filter_summaryLines hd, ← lines_summary hd, h, lines_summary he, filter_summaryLines he]
  exact map_eq_map_of_determined
    (fun _ _ hb hc => ClassBlock.figures_eq_of_summaryLine_eq hb.name hc.name) hd he hlines

theorem relation_figures_eq_of_summary_eq (hd : ∀ b ∈ d.blocks, b.WellFormed)
    (he : ∀ b ∈ e.blocks, b.WellFormed) (h : d.summary = e.summary) :
    d.blocks.map (·.relations.map Relation.figures) =
      e.blocks.map (·.relations.map Relation.figures) := by
  have hlines : d.blocks.map (·.relations.map Relation.summaryLine) =
      e.blocks.map (·.relations.map Relation.summaryLine) := by
    apply (List.cons.inj (_ : [] :: _ = [] :: _)).2
    rw [← splitOnP_summaryLines hd, ← lines_summary hd, h, lines_summary he,
      splitOnP_summaryLines he]
  refine map_eq_map_of_determined (fun b c hb hc => ?_) hd he hlines
  exact map_eq_map_of_determined (fun _ _ => Relation.figures_eq_of_summaryLine_eq)
    (fun _ => hb.named) fun _ => hc.named

/-- A summary has a line for each class and for each relation, told apart by the space in front,
and it determines what the lines show. -/
theorem summary_faithful {t : Text} (h : parse t = .ok d) :
    d.summary.lines.length = d.classCount + d.relationCount ∧
    d.summary.lines.filter isClassLine = d.blocks.map (·.summaryLine) ∧
    d.summary.lines.splitOnP isClassLine =
      [] :: d.blocks.map (·.relations.map Relation.summaryLine) ∧
    (∀ b ∈ d.blocks, b.constructors.length + b.operations.length = b.methods.length) ∧
    ∀ u e, parse u = .ok e → d.summary = e.summary →
      d.blocks.map ClassBlock.figures = e.blocks.map ClassBlock.figures ∧
      d.blocks.map (·.relations.map Relation.figures) =
        e.blocks.map (·.relations.map Relation.figures) := by
  have hd := wellFormed_of_parse h
  rw [lines_summary hd]
  refine ⟨d.length_summaryLines, filter_summaryLines hd, splitOnP_summaryLines hd,
    fun b _ => b.length_constructors_add_operations, fun u e hu hs => ?_⟩
  have he := wellFormed_of_parse hu
  exact ⟨figures_eq_of_summary_eq hd he hs, relation_figures_eq_of_summary_eq hd he hs⟩

/-- Two texts with one summary. They differ in what the lines do not show: the property, and the
qualifier of the class that is extended. -/
def shapeText : Text :=
  "A <Abstract>\nextends B\n---\n- x: int\n---\n+ A()\n---".toList

def shapeBlock : ClassBlock :=
  .ofLines ⟨"A".toList, some .abstract⟩ [⟨.generalization, ["B".toList]⟩]
    [⟨"x".toList, "int".toList, .priv, false⟩] [⟨"A".toList, .pub, false, [], none⟩]

def sameShapeText : Text :=
  "A <Abstract>\nextends B <Abstract>\n---\n# y: List<K>\n---\n- A()\n---".toList

def sameShapeBlock : ClassBlock :=
  .ofLines ⟨"A".toList, some .abstract⟩ [⟨.generalization, ["B <Abstract>".toList]⟩]
    [⟨"y".toList, "List<K>".toList, .prot, false⟩] [⟨"A".toList, .priv, false, [], none⟩]

theorem summary_faithful_sameShape :
    parse shapeText = .ok ⟨[shapeBlock]⟩ ∧ parse sameShapeText = .ok ⟨[sameShapeBlock]⟩ ∧
    (⟨[shapeBlock]⟩ : Diagram).summary = (⟨[sameShapeBlock]⟩ : Diagram).summary ∧
    (⟨[shapeBlock]⟩ : Diagram).summary.lines.length = 2 ∧
    [shapeBlock].map ClassBlock.figures = [⟨"A".toList, some .abstract, 1, 1, 0⟩] ∧
    [sameShapeBlock].map ClassBlock.figures = [⟨"A".toList, some .abstract, 1, 1, 0⟩] ∧
    [shapeBlock].map (·.relations.map Relation.figures) =
      [sameShapeBlock].map (·.relations.map Relation.figures) := by
  have h : parse shapeText = .ok ⟨[shapeBlock]⟩ := by decide +kernel
  have h' : parse sameShapeText = .ok ⟨[sameShapeBlock]⟩ := by decide +kernel
  have hsummary : (⟨[shapeBlock]⟩ : Diagram).summary = (⟨[sameShapeBlock]⟩ : Diagram).summary := by
    decide +kernel
  have hfigures : [shapeBlock].map ClassBlock.figures =
      [⟨"A".toList, some .abstract, 1, 1, 0⟩] := by decide +kernel
  obtain ⟨hlength, -, -, -, hequal⟩ := summary_faithful h
  obtain ⟨hclasses, hrelations⟩ := hequal _ _ h' hsummary
  exact ⟨h, h', hsummary, hlength, hfigures, hclasses ▸ hfigures, hrelations⟩

end Diagram

end ClassNotation
