import ClassNotation.Proofs.LineFaults
import ClassNotation.Proofs.Run
import ClassNotation.Trace
import Mathlib.Data.List.Infix

/-! What is shown of the log of lines. The states of the entries are determined by the lines, and
the blocks stand behind the separators that close them. -/

namespace ClassNotation

namespace Traced

variable {ε α β : Type} (r : Traced (Except ε α)) (next : α → Traced (Except ε β))

theorem result_andThen : (r.andThen next).result = r.result.bind fun a => (next a).result := by
  rcases r with ⟨_ | _, _⟩ <;> rfl

theorem shown_andThen :
    (r.andThen next).shown = r.shown ++ match r.result with
      | .ok a => (next a).shown
      | .error _ => [] := by
  rcases r with ⟨_ | a, log⟩
  · exact (List.append_nil _).symm
  · exact List.map_append

theorem shown_within (opening : LogEntry) (r : Traced α) :
    (r.within opening).shown = opening.form :: (r.shown ++ [.closed]) := by
  rw [within, shown, List.cons_append, List.map_cons, List.map_append]
  rfl

end Traced

/-- The state behind a line that was read in a state. -/
def stateBehind (state line : Text) : Text :=
  if "---".toList.isPrefixOf line then
    if state = "CLASS".toList then "ATTR".toList
    else if state = "ATTR".toList then "METHOD".toList
    else "ROOT".toList
  else if state = "ROOT".toList then "CLASS".toList
  else state

def lineForm (number : Nat) (state text : Text) : LogForm :=
  .event "Parsing line".toList .trace
    [("line".toList, .number number), ("state".toList, .text state), ("text".toList, .text text)]

def lineForms (state : Text) : List ContentLine → List LogForm
  | [] => []
  | l :: ls => lineForm l.number state l.text :: lineForms (stateBehind state l.text) ls

def completionForm (b : ClassBlock) : LogForm :=
  .event "Class completed".toList .debug
    [("class".toList, .text b.name), ("properties".toList, .number b.properties.length),
      ("methods".toList, .number b.methods.length),
      ("relations".toList, .number b.relations.length)]

namespace LogForm

def name? : LogForm → Option Text
  | .opened name _ _ => some name
  | .event message _ _ => some message
  | .closed => none

def named (names : List Text) (f : LogForm) : Bool :=
  f.name?.any fun name => names.any (· = name)

/-- What the entries of lines are named. -/
def lineNames : List Text :=
  ["Parsing line".toList, "Class completed".toList]

def ClosesBlock (f : LogForm) : Prop :=
  ∃ number rest, f = lineForm number "METHOD".toList ("---".toList ++ rest)

/-- A block is completed right behind the separator that closes it, and nowhere else. -/
def Follows (f g : LogForm) : Prop :=
  g.named ["Class completed".toList] = true ↔ f.ClosesBlock

theorem closesBlock_lineForm (number : Nat) (p : Phase) (text : Text) :
    (lineForm number p.name text).ClosesBlock ↔ p = .methods ∧ isSeparator text = true := by
  rw [isSeparator, List.isPrefixOf_iff_prefix]
  constructor
  · rintro ⟨n, rest, h⟩
    have hname : p.name = "METHOD".toList ∧ text = "---".toList ++ rest := by
      simp only [lineForm, LogForm.event.injEq] at h
      simp_all
    obtain ⟨hname, rfl⟩ := hname
    refine ⟨?_, List.prefix_append _ _⟩
    cases p with
    | methods => rfl
    | outside | header | properties => exact absurd hname (by decide)
  · rintro ⟨rfl, rest, rfl⟩
    exact ⟨number, rest, rfl⟩

theorem not_closesBlock_of_not_named {f : LogForm}
    (h : ¬ f.named ["Parsing line".toList] = true) : ¬ f.ClosesBlock := by
  rintro ⟨number, rest, rfl⟩
  exact h rfl

end LogForm

namespace Progress

variable {s s' : Progress} {line : Text} {block? : Option ClassBlock}

theorem phase_of_declare (h : s.declare line = .ok s') (hs : isSeparator line = false) :
    s'.phase.name = stateBehind s.phase.name line := by
  have hs : ¬ "---".toList.isPrefixOf line = true := ne_true_of_eq_false hs
  cases s with
  | outside | header | properties | methods =>
    obtain ⟨_, -, rfl⟩ := except_map_eq_ok_iff.1 h
    rw [stateBehind, if_neg hs]
    rfl

theorem next_eq_ok (h : s.next line = .ok (block?, s')) :
    s'.phase.name = stateBehind s.phase.name line ∧
      (block?.isSome = true ↔ s.phase = .methods ∧ isSeparator line = true) := by
  rw [next] at h
  cases hs : isSeparator line with
  | false =>
    rw [hs, if_neg (by simp)] at h
    obtain ⟨t, ht, he⟩ := except_map_eq_ok_iff.1 h
    obtain ⟨rfl, rfl⟩ := Prod.mk.inj he
    exact ⟨phase_of_declare ht hs, by simp⟩
  | true =>
    have hs' : "---".toList.isPrefixOf line = true := hs
    rw [hs, if_pos rfl] at h
    rw [stateBehind, if_pos hs']
    cases s with
    | outside => cases h
    | header | properties | methods =>
      obtain ⟨rfl, rfl⟩ := Prod.mk.inj (Except.ok.inj h)
      exact ⟨rfl, by simp [phase]⟩

theorem not_closing_of_next_eq_error {f : Fault} (h : s.next line = .error f) :
    ¬ (s.phase = .methods ∧ isSeparator line = true) := by
  rintro ⟨hp, hs⟩
  cases s with
  | outside | header | properties => cases hp
  | methods h' rs ps ms =>
    rw [next, hs, if_pos rfl] at h
    cases h

end Progress

/-- What is shown of lines: an entry for each, and the blocks behind the lines that close them. -/
inductive Logged : Text → List ContentLine → List ClassBlock → List LogForm → Prop
  | nil (state : Text) : Logged state [] [] []
  | line {state : Text} {l : ContentLine} {ls : List ContentLine} {bs : List ClassBlock}
      {log : List LogForm} (h : ¬ (lineForm l.number state l.text).ClosesBlock)
      (hl : Logged (stateBehind state l.text) ls bs log) :
      Logged state (l :: ls) bs (lineForm l.number state l.text :: log)
  | closing {state : Text} {l : ContentLine} {ls : List ContentLine} {b : ClassBlock}
      {bs : List ClassBlock} {log : List LogForm}
      (h : (lineForm l.number state l.text).ClosesBlock)
      (hl : Logged (stateBehind state l.text) ls bs log) :
      Logged state (l :: ls) (b :: bs)
        (lineForm l.number state l.text :: completionForm b :: log)

namespace Machine

variable {m m' : Machine} {l : ContentLine} {ls : List ContentLine}

theorem result_traceLines (m : Machine) (ls : List ContentLine) :
    (m.traceLines ls).result = m.readLines ls := by
  induction ls generalizing m with
  | nil => rfl
  | cons l ls ih =>
    rw [traceLines, readLines]
    rcases m.readLine l with ⟨e | block?, m'⟩
    · rfl
    · simp only [ih m']
      cases m'.readLines ls <;> rfl

theorem shown_traceLines_of_error {e : ParseError} (h : m.readLine l = (.error e, m')) :
    (m.traceLines (l :: ls)).shown = [lineForm l.number m.phase.name l.text] := by
  simp only [traceLines, h]
  rfl

theorem shown_traceLines_of_ok {block? : Option ClassBlock}
    (h : m.readLine l = (.ok block?, m')) :
    (m.traceLines (l :: ls)).shown = lineForm l.number m.phase.name l.text ::
      (block?.toList.map completionForm ++ (m'.traceLines ls).shown) := by
  simp only [traceLines, h, Traced.shown, List.map_cons, List.map_append, List.map_map]
  rfl

end Machine

namespace Logged

variable {state : Text} {ls : List ContentLine} {bs : List ClassBlock} {log : List LogForm}

theorem of_next {s s' : Progress} {l : ContentLine} {block? : Option ClassBlock}
    (h : s.next l.text = .ok (block?, s')) (hl : Logged s'.phase.name ls bs log) :
    Logged s.phase.name (l :: ls) (block?.toList ++ bs)
      (lineForm l.number s.phase.name l.text :: (block?.toList.map completionForm ++ log)) := by
  obtain ⟨hp, hb⟩ := Progress.next_eq_ok h
  rw [← LogForm.closesBlock_lineForm l.number] at hb
  rw [hp] at hl
  cases block? with
  | none => exact .line (fun hc => by cases hb.2 hc) hl
  | some b => exact .closing (hb.1 rfl) hl

theorem of_reads {s s' : Progress} (h : Progress.Reads s (ls.map (·.text)) bs s') (n : Nat) :
    Logged s.phase.name ls bs ((s.machine n).traceLines ls).shown := by
  induction ls generalizing s n bs with
  | nil =>
    cases h
    exact .nil _
  | cons l ls ih =>
    cases h with
    | cons hx hs =>
      have hl := Machine.readLine_of_next_eq_ok hx n
      rw [Machine.shown_traceLines_of_ok hl]
      exact of_next hx (ih hs l.number)

/-- The line that is refused is logged too, and nothing behind it. -/
theorem of_stuck {s s' : Progress} {pre post : List ContentLine} {l : ContentLine} {f : Fault}
    (h : Progress.Reads s (pre.map (·.text)) bs s') (hf : s'.next l.text = .error f) (n : Nat) :
    Logged s.phase.name (pre ++ [l]) bs ((s.machine n).traceLines (pre ++ l :: post)).shown := by
  induction pre generalizing s n bs with
  | nil =>
    cases h
    have hl := Machine.readLine_of_next_eq_error hf n
    rw [List.nil_append, List.nil_append, Machine.shown_traceLines_of_error hl]
    refine .line ?_ (.nil _)
    rw [LogForm.closesBlock_lineForm]
    exact Progress.not_closing_of_next_eq_error hf
  | cons x pre ih =>
    cases h with
    | cons hx hs =>
      have hl := Machine.readLine_of_next_eq_ok hx n
      rw [List.cons_append, List.cons_append, Machine.shown_traceLines_of_ok hl]
      exact of_next hx (ih hs x.number)

theorem filter_lines (h : Logged state ls bs log) :
    log.filter (LogForm.named ["Parsing line".toList]) = lineForms state ls := by
  induction h with
  | nil => rfl
  | @line state l _ _ _ _ _ ih =>
    exact congrArg (lineForm l.number state l.text :: ·) ih
  | @closing state l _ _ _ _ _ _ ih =>
    exact congrArg (lineForm l.number state l.text :: ·) ih

theorem filter_completions (h : Logged state ls bs log) :
    log.filter (LogForm.named ["Class completed".toList]) = bs.map completionForm := by
  induction h with
  | nil => rfl
  | line _ _ ih => exact ih
  | @closing _ _ _ b _ _ _ _ ih => exact congrArg (completionForm b :: ·) ih

theorem named_of_mem (h : Logged state ls bs log) {f : LogForm} (hf : f ∈ log) :
    f.named LogForm.lineNames = true := by
  induction h with
  | nil => cases hf
  | line _ _ ih =>
    rcases List.mem_cons.1 hf with rfl | hf
    · rfl
    · exact ih hf
  | closing _ _ ih =>
    rcases List.mem_cons.1 hf with rfl | hf
    · rfl
    rcases List.mem_cons.1 hf with rfl | hf
    · rfl
    · exact ih hf

/-- The log of lines may stand behind any entry that closes no block, and in front of entries that
may stand there too. -/
theorem isChain_append (h : Logged state ls bs log) {f : LogForm} (hf : ¬ f.ClosesBlock)
    {rest : List LogForm} (hrest : ∀ f : LogForm, ¬ f.ClosesBlock →
      (f :: rest).IsChain LogForm.Follows) :
    (f :: (log ++ rest)).IsChain LogForm.Follows := by
  induction h generalizing f with
  | nil => exact hrest f hf
  | line hc _ ih =>
    exact .cons_cons (iff_of_false Bool.false_ne_true hf) (ih hc)
  | closing hc _ ih =>
    refine .cons_cons (iff_of_false Bool.false_ne_true hf) (.cons_cons (iff_of_true rfl hc) ?_)
    exact ih (LogForm.not_closesBlock_of_not_named Bool.false_ne_true)

end Logged

/-- The lines of a text that hold more than a comment, with their numbers. -/
def numberedContents (t : Text) : List ContentLine :=
  ((t.lines.zipIdx 1).map fun (line, n) => ⟨n, stripComment line⟩).filter (·.text ≠ [])

theorem contentFrom_eq (n : Nat) (lines : List Text) :
    contentFrom n lines =
      ((lines.zipIdx n).map fun (line, n) => ⟨n, stripComment line⟩).filter (·.text ≠ []) := by
  induction lines generalizing n with
  | nil => rfl
  | cons line lines ih =>
    by_cases h : stripComment line = [] <;> simp [contentFrom, h, ih]

theorem contentLines_eq (t : Text) : contentLines t = numberedContents t :=
  contentFrom_eq 1 t.lines

/-- Where the reading of a text halts: at a line, at the end inside a block, or with an answer. The
lines in front of that are read, and the line itself is refused. -/
inductive Halts (t : Text) (blocks : List ClassBlock) :
    List ContentLine → Option ContentLine → Except ParseError (List ClassBlock) → Prop
  | complete (h : numberedContents t ≠ []) : Halts t blocks (numberedContents t) none (.ok blocks)
  | empty (h : numberedContents t = []) : Halts t blocks [] none (.error ⟨0, .emptyInput⟩)
  | ending (p : Phase) :
      Halts t blocks (numberedContents t) none (.error ⟨t.lines.length, .unexpectedEnd p⟩)
  | line {read post : List ContentLine} {l : ContentLine} {f : Fault}
      (h : numberedContents t = read ++ l :: post) (hempty : f ≠ .emptyInput)
      (hend : ∀ p, f ≠ .unexpectedEnd p) : Halts t blocks read (some l) (.error ⟨l.number, f⟩)

/-- Wherever the reading halts, the log goes as far as that. -/
theorem readBlocks_logged (t : Text) :
    ∃ read refused blocks m, Machine.start.readLines read = .ok (blocks, m) ∧
      Halts t blocks read refused (readBlocks t) ∧
      Logged "ROOT".toList (read ++ refused.toList) blocks
        (Machine.start.traceLines (contentLines t)).shown := by
  rcases Progress.reads_or_stuck .outside (contentLines t) with
    ⟨bs, s, hr⟩ | ⟨pre, l, post, bs, s, f, hl, hr, hf⟩
  · obtain ⟨k, hk⟩ := Machine.readLines_of_reads hr 0
    refine ⟨contentLines t, none, bs, _, hk, ?_, ?_⟩
    · by_cases hn : contents t = []
      · have hlines := contentLines_eq_nil_iff.2 hn
        rw [readBlocks_of_contents_eq_nil hn, hlines]
        exact .empty (contentLines_eq t ▸ hlines)
      · rw [map_text_contentLines] at hr
        rw [readBlocks_of_reads hn hr, contentLines_eq]
        by_cases hp : s.phase = .outside
        · rw [if_pos hp]
          refine .complete fun hlines => hn ?_
          rw [← map_text_contentLines, contentLines_eq, hlines]
          rfl
        · rw [if_neg hp]
          exact .ending s.phase
    · rw [Option.toList_none, List.append_nil]
      exact Logged.of_reads hr 0
  · obtain ⟨k, hk⟩ := Machine.readLines_of_reads hr 0
    obtain ⟨hempty, hend⟩ := Progress.fault_of_next_ne hf
    refine ⟨pre, some l, bs, _, hk, ?_, ?_⟩
    · rw [readBlocks_of_stuck hl hr hf]
      exact .line (contentLines_eq t ▸ hl) hempty hend
    · rw [hl]
      exact Logged.of_stuck hr hf 0

end ClassNotation
