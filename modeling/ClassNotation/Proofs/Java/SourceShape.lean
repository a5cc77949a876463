import ClassNotation.Proofs.Java.SourceLines

/-! The shape of a source, line by line. Every member has one head line, the blank lines stand
apart, and each brace that is opened at the end of a line is closed. -/

namespace ClassNotation.Java

def operationHeadLine (inInterface : Bool) (m : Method) : Text :=
  if inInterface then operationHead m ++ [';'] else opened (operationHead m)

section members

/-- All member lines but those that close a body. -/
def isMemberHead (l : Text) : Bool :=
  indent.isPrefixOf l && l ≠ indent ++ ['}']

/-- Every visibility begins with this letter. -/
def Headed (l : Text) : Prop :=
  indent ++ ['p'] <+: l

variable {l : Text}

theorem Headed.isMemberHead (h : Headed l) : isMemberHead l = true := by
  obtain ⟨rest, rfl⟩ := h
  simp [Java.isMemberHead, indent]

theorem Headed.append (h : Headed l) (rest : Text) : Headed (l ++ rest) :=
  h.trans (List.prefix_append l rest)

theorem headed_keyword (v : Visibility) : Headed (indent ++ v.keyword) := by
  cases v <;> exact ⟨_, rfl⟩

theorem headed_modifiers (v : Visibility) (isStatic : Bool) :
    Headed (indent ++ modifiers v isStatic) := by
  cases isStatic with
  | true =>
    have h := (headed_keyword v).append (' ' :: staticWord)
    rwa [List.append_assoc] at h
  | false => exact headed_keyword v

theorem headed_propertyHead (p : Property) : Headed (propertyHead p) := by
  rw [propertyHead]
  exact ((headed_modifiers p.visibility p.isStatic).append _).append _

theorem headed_constructorHead (m : Method) : Headed (constructorHead m) := by
  rw [constructorHead]
  exact (((headed_keyword m.visibility).append _).append _).append _

theorem headed_operationHead (m : Method) : Headed (operationHead m) := by
  rw [operationHead]
  exact ((((headed_modifiers m.visibility m.isStatic).append _).append _).append _).append _

theorem filter_withBody {head : Text} (h : Headed head) :
    (withBody head).filter isMemberHead = [opened head] := by
  have hhead := (h.append [' ', '{']).isMemberHead
  have hclosing : isMemberHead (indent ++ ['}']) = false := by decide
  simp [withBody, opened, hhead, hclosing]

theorem filter_operationLines (inInterface : Bool) (m : Method) :
    (operationLines inInterface m).filter isMemberHead = [operationHeadLine inInterface m] := by
  cases inInterface with
  | true =>
    simp [operationLines, operationHeadLine, ((headed_operationHead m).append [';']).isMemberHead]
  | false => exact filter_withBody (headed_operationHead m)

theorem filter_groupLines {α : Type} {gap : List Text} (hgap : gap.filter isMemberHead = [])
    {lines : α → List Text} {head : α → Text}
    (h : ∀ x, (lines x).filter isMemberHead = [head x]) (xs : List α) :
    (groupLines gap (xs.map lines)).filter isMemberHead = xs.map head := by
  cases xs with
  | nil => rfl
  | cons x xs =>
    have hblank : isMemberHead [] = false := rfl
    simp [groupLines, hblank, hgap, h, List.filter_flatMap, List.flatMap_map,
      ← List.map_eq_flatMap]

theorem filter_memberLines (b : ClassBlock) :
    (memberLines b).filter isMemberHead =
      b.properties.map (propertyHead · ++ [';']) ++
        (b.methods.filter (·.name = b.name)).map (opened <| constructorHead ·) ++
        (b.methods.filter (·.name ≠ b.name)).map (operationHeadLine b.isInterface) := by
  have hgap : (if b.isInterface then [] else [[]] : List Text).filter isMemberHead = [] := by
    split <;> rfl
  have hproperty (p : Property) : [propertyHead p ++ [';']].filter isMemberHead =
      [propertyHead p ++ [';']] := by
    simp [((headed_propertyHead p).append [';']).isMemberHead]
  rw [memberLines, List.filter_append, List.filter_append, filter_groupLines rfl hproperty,
    filter_groupLines rfl fun m => filter_withBody (headed_constructorHead m),
    filter_groupLines hgap (filter_operationLines b.isInterface)]

theorem filter_sourceLines (package : Option Text) (b : ClassBlock) :
    (sourceLines package b).filter isMemberHead = (memberLines b).filter isMemberHead := by
  have hpackage : (packageLines package).filter isMemberHead = [] := by cases package <;> rfl
  have hhead : isMemberHead (opened (classHead b)) = false := rfl
  have hlast : [['}']].filter isMemberHead = [] := rfl
  rw [sourceLines, List.filter_append, List.filter_append, hpackage, hlast, List.filter_cons, hhead]
  simp

theorem length_filter_sourceLines (h : b.WellFormed) (package : Option Text) :
    ((sourceLines package b).filter isMemberHead).length =
      b.properties.length + b.methods.length := by
  rw [filter_sourceLines, filter_memberLines, ← h.constructors_eq, ← h.operations_eq,
    ← b.length_constructors_add_operations]
  simp only [List.length_append, List.length_map, Nat.add_assoc]

end members

section blank

/-- There are no two blank lines in a row, and the last line is not blank. -/
structure Spaced (lines : List Text) : Prop where
  chain : lines.IsChain fun k l => ¬ (k = [] ∧ l = [])
  last : ∀ l ∈ lines.getLast?, l ≠ []

theorem Spaced.nil : Spaced [] :=
  ⟨.nil, by simp⟩

theorem Spaced.append {u v : List Text} (hu : Spaced u) (hv : Spaced v) : Spaced (u ++ v) := by
  refine ⟨List.isChain_append.2 ⟨hu.chain, hv.chain, fun k hk _ _ h => hu.last k hk h.1⟩, ?_⟩
  intro l hl
  rw [List.getLast?_append, Option.mem_def, Option.or_eq_some_iff] at hl
  rcases hl with hl | ⟨-, hl⟩
  · exact hv.last l hl
  · exact hu.last l hl

theorem Spaced.cons {l : Text} {lines : List Text} (hl : l ≠ []) (h : Spaced lines) :
    Spaced (l :: lines) :=
  .append (u := [l]) ⟨.singleton l, by simpa using hl⟩ h

theorem Spaced.blank_cons {l : Text} {lines : List Text} (hl : l ≠ []) (h : Spaced (l :: lines)) :
    Spaced ([] :: l :: lines) :=
  ⟨List.isChain_cons_cons.2 ⟨fun he => hl he.2, h.chain⟩, h.last⟩

theorem spaced_sourceLines (package : Option Text) (b : ClassBlock) :
    Spaced (sourceLines package b) := by
  have hmembers : Spaced (memberLines b) := by
    refine memberLines_of_append .nil .append fun head hhead u hu => ?_
    have hdeclared : Spaced [head ++ [';']] := .cons (by simp) .nil
    have hbody : Spaced (withBody head) := .cons (by simp [opened]) (.cons (by simp) .nil)
    rcases List.mem_cons.1 hu with rfl | hu
    · exact ⟨hdeclared, hdeclared.blank_cons (by simp)⟩
    · obtain rfl := List.mem_singleton.1 hu
      exact ⟨hbody, hbody.blank_cons (by simp [opened])⟩
  have hclass : Spaced (opened (classHead b) :: (memberLines b ++ [['}']])) :=
    .cons (by simp [opened]) (hmembers.append (.cons (by simp) .nil))
  cases package with
  | none => exact hclass
  | some p => exact .cons (by simp) (hclass.blank_cons (by simp [opened]))

end blank

section braces

def opens (l : Text) : Bool :=
  [' ', '{'] <:+ l

def closes (l : Text) : Bool :=
  l.getLast? = some '}'

/-- No beginning has more lines that close braces than lines that open some, and as many braces
are closed as opened. -/
structure Nested (lines : List Text) : Prop where
  beginning : ∀ n, (lines.take n).countP closes ≤ (lines.take n).countP opens
  count : lines.countP closes = lines.countP opens

theorem Nested.append {u v : List Text} (hu : Nested u) (hv : Nested v) : Nested (u ++ v) := by
  refine ⟨fun n => ?_, ?_⟩
  · rw [List.take_append, List.countP_append, List.countP_append]
    exact Nat.add_le_add (hu.beginning n) (hv.beginning _)
  · rw [List.countP_append, List.countP_append, hu.count, hv.count]

theorem Nested.enclosed {first last : Text} {lines : List Text} (h : Nested lines)
    (hfirst : opens first = true) (hfirst' : closes first = false) (hlast : opens last = false)
    (hlast' : closes last = true) : Nested (first :: (lines ++ [last])) := by
  refine ⟨fun n => ?_, ?_⟩
  · cases n with
    | zero => simp
    | succ n =>
      have hlines := h.beginning n
      have hone : (([last] : List Text).take (n - lines.length)).countP closes ≤ 1 :=
        List.countP_le_length.trans (List.length_take_le' _ _)
      rw [List.take_succ_cons, List.take_append, List.countP_cons, List.countP_cons,
        List.countP_append, List.countP_append, hfirst, hfirst']
      simp only [Bool.false_eq_true, if_false, if_true]
      omega
  · have hcount := h.count
    simp [hfirst, hfirst', hlast, hlast', hcount]

theorem Nested.single {l : Text} (hopens : opens l = false) (hcloses : closes l = false) :
    Nested [l] := by
  refine ⟨fun n => ?_, by simp [hopens, hcloses]⟩
  cases n <;> simp [hopens, hcloses]

theorem opens_opened (head : Text) : opens (opened head) = true :=
  decide_eq_true (List.suffix_append head _)

theorem closes_opened (head : Text) : closes (opened head) = false := by
  simp [closes, opened]

theorem opens_concat {c : Char} (hc : c ≠ '{') (l : Text) : opens (l ++ [c]) = false := by
  refine decide_eq_false ?_
  rintro ⟨u, hu⟩
  have hlast := congrArg List.getLast? hu
  simp [hc.symm] at hlast

theorem closes_concat {c : Char} (hc : c ≠ '}') (l : Text) : closes (l ++ [c]) = false := by
  simp [closes, hc]

theorem nested_sourceLines (package : Option Text) (b : ClassBlock) :
    Nested (sourceLines package b) := by
  have hnil : Nested [] := ⟨by simp, rfl⟩
  have hblank : Nested [[]] := .single (by decide) (by decide)
  have hsemicolon (l : Text) : Nested [l ++ [';']] :=
    .single (opens_concat (by decide) l) (closes_concat (by decide) l)
  have hbody (head : Text) {lines : List Text} {close : Text} (h : Nested lines)
      (hopens : opens close = false) (hcloses : closes close = true) :
      Nested (opened head :: (lines ++ [close])) :=
    h.enclosed (opens_opened head) (closes_opened head) hopens hcloses
  have hmembers : Nested (memberLines b) := by
    refine memberLines_of_append hnil .append fun head _ u hu => ?_
    have hu : Nested u := by
      rcases List.mem_cons.1 hu with rfl | hu
      · exact hsemicolon head
      · obtain rfl := List.mem_singleton.1 hu
        exact hbody head hnil (by decide) (by decide)
    exact ⟨hu, hblank.append hu⟩
  have hpackage : Nested (packageLines package) := by
    cases package with
    | none => exact hnil
    | some p => exact (hsemicolon ("package ".toList ++ p)).append hblank
  rw [sourceLines, List.append_assoc]
  exact hpackage.append (hbody _ hmembers (by decide) (by decide))

end braces

/-- The lines of a source are those of its package and its class, of its members group by group,
and a brace. Every member has one head line, the blank lines stand apart, and each brace that is
opened at the end of a line is closed. -/
theorem source_lines {t : Text} {d : Diagram} (h : Diagram.parse t = .ok d) {b : ClassBlock}
    (hb : b ∈ d.blocks) {package : Option Text} (hp : ∀ p ∈ package, '\n' ∉ p) :
    (source package b).splitOn '\n' = sourceLines package b ∧
    (sourceLines package b).filter isMemberHead =
      b.properties.map (propertyHead · ++ [';']) ++
        (b.methods.filter (·.name = b.name)).map (opened <| constructorHead ·) ++
        (b.methods.filter (·.name ≠ b.name)).map (operationHeadLine b.isInterface) ∧
    ((sourceLines package b).filter isMemberHead).length =
      b.properties.length + b.methods.length ∧
    (∀ m ∈ b.methods, (m.result = none ↔ m.name = b.name) ∧
      (m.name = b.name → m.isStatic = false)) ∧
    (sourceLines package b).IsChain (fun k l => ¬ (k = [] ∧ l = [])) ∧
    Nested (sourceLines package b) := by
  obtain ⟨blocks, hblocks, rfl⟩ := except_map_eq_ok_iff.1 h
  obtain ⟨hw, ht⟩ := wellFormed_of_readBlocks hblocks hb
  refine ⟨splitOn_source hw ht hp, ?_, length_filter_sourceLines hw package, fun m hm => ?_,
    (spaced_sourceLines package b).chain, nested_sourceLines package b⟩
  · rw [filter_sourceLines, filter_memberLines]
  · rcases (hw.methods m hm).result with ⟨hname, hstatic, hresult⟩ | ⟨hname, type, hresult, -⟩
    · simp [hname, hstatic, hresult]
    · simp [hname, hresult]

def memberedText : Text :=
  ("A <Abstract>\nextends B\n---\n# static x: str\n- y: List<str>\n---\n" ++
    "- f(a: int, b: str): str\n+ A()\n+ static g(): void\n---\n" ++
    "I <Interface>\n---\n---\n+ h(): int\n# k(c: str): void\n---").toList

/-- A class with a static and another member of each sort that can be static. -/
def memberedBlock : ClassBlock :=
  .ofLines ⟨"A".toList, some .abstract⟩ [⟨.generalization, ["B".toList]⟩]
    [⟨"x".toList, "str".toList, .prot, true⟩, ⟨"y".toList, "List<str>".toList, .priv, false⟩]
    [⟨"f".toList, .priv, false, [⟨"a".toList, "int".toList⟩, ⟨"b".toList, "str".toList⟩],
        some "str".toList⟩,
      ⟨"A".toList, .pub, false, [], none⟩, ⟨"g".toList, .pub, true, [], some "void".toList⟩]

def memberedInterface : ClassBlock :=
  .ofLines ⟨"I".toList, some .interface⟩ [] []
    [⟨"h".toList, .pub, false, [], some "int".toList⟩,
      ⟨"k".toList, .prot, false, [⟨"c".toList, "str".toList⟩], some "void".toList⟩]

theorem source_lines_memberedBlock :
    (source (some "p".toList) memberedBlock).splitOn '\n' =
      ["package p;", "", "public abstract class A extends B \x7b", "",
        "    protected static String x;", "    private List<String> y;", "", "    public A() \x7b",
        "    \x7d", "", "    private String f(int a, String b) \x7b", "    \x7d", "",
        "    public static void g() \x7b", "    \x7d", "\x7d"].map String.toList ∧
    (source none memberedInterface).splitOn '\n' =
      ["public interface I \x7b", "", "    public int h();", "    protected void k(String c);",
        "\x7d"].map String.toList ∧
    Nested (sourceLines (some "p".toList) memberedBlock) := by
  have h : Diagram.parse memberedText = .ok ⟨[memberedBlock, memberedInterface]⟩ := by
    decide +kernel
  have hp : ∀ p ∈ some "p".toList, '\n' ∉ p := by decide
  have hnone : ∀ p ∈ (none : Option Text), '\n' ∉ p := by simp
  obtain ⟨hlines, -, -, -, -, hnested⟩ := source_lines h List.mem_cons_self hp
  obtain ⟨hinterface, -⟩ := source_lines h (List.mem_cons_of_mem _ List.mem_cons_self) hnone
  refine ⟨hlines.trans ?_, hinterface.trans ?_, hnested⟩
  · decide +kernel
  · decide +kernel

end ClassNotation.Java
