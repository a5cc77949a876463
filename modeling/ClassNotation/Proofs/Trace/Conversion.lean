import ClassNotation.Proofs.References
import ClassNotation.Proofs.Trace.Reading

/-! The log of a conversion agrees with its answer: line by line while the text is read, and class
by class while the sources are generated. -/

namespace ClassNotation

def replacementMessage : Text :=
  "Class declared twice, keeping the last block".toList

/-- What the entries of a generation are named. -/
def generationNames : List Text :=
  ["generate_sources".toList, "Generated source".toList, replacementMessage,
    "Generation completed".toList]

/-- The entries for the sources of some classes behind earlier ones. -/
def generatedForms (package : Option Text) (earlier : List ClassBlock) :
    List ClassBlock → List LogForm
  | [] => []
  | b :: bs =>
    .event "Generated source".toList .debug
        [("class".toList, .text b.name),
          ("bytes".toList, .number (String.ofList (Java.source package b)).utf8ByteSize)] ::
      (if ∃ c ∈ earlier, c.name = b.name then
          [.event replacementMessage .debug [("class".toList, .text b.name)]]
        else []) ++
      generatedForms package (earlier ++ [b]) bs

namespace Text

theorem utf8Size_eq (t : Text) : t.utf8Size = (String.ofList t).utf8ByteSize := by
  induction t with
  | nil => rfl
  | cons c t ih =>
    rw [utf8Size, List.foldr_cons, ← utf8Size, ih]
    simp

end Text

namespace Java

theorem sources_append_single (package : Option Text) (bs : List ClassBlock) (b : ClassBlock) :
    sources package (bs ++ [b]) = (sources package bs).insert b.name (source package b) := by
  rw [sources, List.map_append, TextMap.ofList, List.foldl_append]
  rfl

theorem contains_sources (package : Option Text) (bs : List ClassBlock) (name : Text) :
    (sources package bs).contains name = true ↔ ∃ b ∈ bs, b.name = name := by
  rw [TextMap.contains_iff, mem_keys_sources, List.mem_map]

end Java

section generation

variable (package : Option Text) (earlier bs : List ClassBlock)

theorem result_traceSources :
    (traceSources package (Java.sources package earlier) bs).result =
      Java.sources package (earlier ++ bs) := by
  induction bs generalizing earlier with
  | nil => rw [List.append_nil, traceSources]
  | cons b bs ih =>
    have hrest := ih (earlier ++ [b])
    rw [Java.sources_append_single, List.append_assoc] at hrest
    exact hrest

theorem shown_traceSources :
    (traceSources package (Java.sources package earlier) bs).shown =
      generatedForms package earlier bs ++
        [.event "Generation completed".toList .info
          [("file_count".toList, .number (Java.sources package (earlier ++ bs)).size)]] := by
  induction bs generalizing earlier with
  | nil =>
    rw [List.append_nil, traceSources, generatedForms, List.nil_append]
    rfl
  | cons b bs ih =>
    have hrest := ih (earlier ++ [b])
    rw [Java.sources_append_single, List.append_assoc] at hrest
    rw [traceSources, Traced.shown, List.map_cons, List.map_append, ← Traced.shown, hrest,
      generatedForms, Text.utf8Size_eq]
    simp only [Java.contains_sources]
    by_cases hn : ∃ c ∈ earlier, c.name = b.name
    · rw [if_pos hn, if_pos hn]
      rfl
    · rw [if_neg hn, if_neg hn]
      rfl

theorem named_of_mem_generatedForms {f : LogForm} (hf : f ∈ generatedForms package earlier bs) :
    f.named ["Generated source".toList, replacementMessage] = true := by
  induction bs generalizing earlier with
  | nil => cases hf
  | cons b bs ih =>
    rw [generatedForms, List.cons_append, List.mem_cons, List.mem_append] at hf
    rcases hf with rfl | hf | hf
    · rfl
    · split at hf
      · rw [List.mem_singleton.1 hf]
        rfl
      · cases hf
    · exact ih _ hf

/-- Each class adds a source or replaces one. -/
theorem size_sources_add_countP :
    (Java.sources package (earlier ++ bs)).size +
        (generatedForms package earlier bs).countP (LogForm.named [replacementMessage]) =
      (Java.sources package earlier).size + bs.length := by
  induction bs generalizing earlier with
  | nil =>
    rw [List.append_nil]
    rfl
  | cons b bs ih =>
    have hrest := ih (earlier ++ [b])
    have hsize := TextMap.size_insert (Java.sources package earlier) b.name (Java.source package b)
    rw [← Java.sources_append_single] at hsize
    rw [List.append_assoc, List.singleton_append] at hrest
    rw [generatedForms, List.cons_append, List.countP_cons_of_neg Bool.false_ne_true,
      List.countP_append, List.length_cons]
    by_cases hn : ∃ c ∈ earlier, c.name = b.name
    · have hone : [LogForm.event replacementMessage .debug
          [("class".toList, .text b.name)]].countP (LogForm.named [replacementMessage]) = 1 := rfl
      rw [if_pos ((Java.contains_sources package earlier b.name).2 hn)] at hsize
      rw [if_pos hn, hone]
      omega
    · rw [if_neg fun h => hn ((Java.contains_sources package earlier b.name).1 h)] at hsize
      rw [if_neg hn, List.countP_nil]
      omega

end generation

def completedForms : Except ParseError (List ClassBlock) → List LogForm
  | .ok bs =>
    [.event "Parsing completed".toList .info [("class_count".toList, .number bs.length)]]
  | .error _ => []

/-- What is shown behind the lines. -/
def outcomeForms (package : Option Text) : Except ParseError (List ClassBlock) → List LogForm
  | .ok bs =>
    [.event "Parsing completed".toList .info [("class_count".toList, .number bs.length)], .closed,
      .opened "generate_sources".toList .info
        [("class_count".toList, .number bs.length), ("package".toList, .text (package.getD []))]] ++
      generatedForms package [] bs ++
      [.event "Generation completed".toList .info
        [("file_count".toList, .number (Java.sources package bs).size)], .closed]
  | .error _ => [.closed]

section conversion

variable (package : Option Text) (t : Text)

theorem result_traceFinish (m : Machine) (bs : List ClassBlock) :
    (m.traceFinish bs).result = m.finish.map fun _ => bs := by
  rw [Machine.traceFinish]
  cases m.finish <;> rfl

theorem shown_traceFinish (m : Machine) (bs : List ClassBlock) :
    (m.traceFinish bs).shown = completedForms (m.traceFinish bs).result := by
  rw [Machine.traceFinish]
  cases m.finish <;> rfl

theorem result_traceBlocks : (traceBlocks t).result = readBlocks t := by
  rw [traceBlocks, Traced.within, readBlocks_eq]
  split
  · rfl
  · simp only [Traced.result_andThen, Machine.result_traceLines, result_traceFinish]

theorem shown_traceBlocks :
    (traceBlocks t).shown =
      .opened "parse_class_diagram".toList .info [("input_len".toList, .number t.utf8Size)] ::
        ((Machine.start.traceLines (contentLines t)).shown ++ completedForms (readBlocks t) ++
          [.closed]) := by
  rw [traceBlocks, Traced.shown_within, readBlocks_eq]
  split
  · rename_i hn
    rw [hn]
    rfl
  · rw [Traced.shown_andThen, Machine.result_traceLines]
    rcases Machine.start.readLines (contentLines t) with e | ⟨bs, m⟩
    · rfl
    · dsimp only
      rw [shown_traceFinish, result_traceFinish]
      rfl

theorem result_traceConversion : (traceConversion package t).result = convert package t := by
  rw [traceConversion, Traced.result_andThen, result_traceBlocks, convert]
  cases readBlocks t with
  | error e => rfl
  | ok bs => exact congrArg Except.ok (result_traceSources package [] bs)

theorem shown_traceConversion :
    (traceConversion package t).shown =
      .opened "parse_class_diagram".toList .info [("input_len".toList, .number t.utf8Size)] ::
        ((Machine.start.traceLines (contentLines t)).shown ++
          outcomeForms package (readBlocks t)) := by
  rw [traceConversion, Traced.shown_andThen, shown_traceBlocks, result_traceBlocks]
  cases readBlocks t with
  | error e => simp [completedForms, outcomeForms]
  | ok bs =>
    have hg := shown_traceSources package [] bs
    show _ ++ (Traced.within _ (traceSources package (Java.sources package []) bs)).shown = _
    rw [Traced.shown_within, hg]
    simp [completedForms, outcomeForms, LogEntry.form]

end conversion

namespace LogForm

variable {names others : List Text} {f : LogForm}

theorem named_eq_true_iff : f.named names = true ↔ ∃ n ∈ names, f.name? = some n := by
  cases hn : f.name? with
  | none => simp [named, hn]
  | some name =>
    rw [named, hn, Option.any_some, List.any_eq_true]
    refine exists_congr fun n => and_congr_right fun _ => ?_
    rw [decide_eq_true_iff, Option.some.injEq, eq_comm]

theorem named_mono (h : f.named names = true) (hsub : ∀ n ∈ names, n ∈ others) :
    f.named others = true := by
  rw [named_eq_true_iff] at h ⊢
  obtain ⟨n, hm, hn⟩ := h
  exact ⟨n, hsub n hm, hn⟩

theorem named_eq_false (h : f.named names = true) (hdisj : ∀ n ∈ names, n ∉ others) :
    f.named others = false := by
  rw [named_eq_true_iff] at h
  obtain ⟨n, hm, hn⟩ := h
  rw [← Bool.not_eq_true, named_eq_true_iff]
  rintro ⟨n', hm', hn'⟩
  obtain rfl := Option.some.inj (hn.symm.trans hn')
  exact hdisj n hm hm'

theorem filter_named_eq_nil {log : List LogForm} (h : ∀ f ∈ log, f.named names = true)
    (hdisj : ∀ n ∈ names, n ∉ others) : log.filter (named others) = [] :=
  List.filter_eq_nil_iff.2 fun f hf => by simp [named_eq_false (h f hf) hdisj]

theorem isChain_cons_of_not_named {log : List LogForm}
    (h : ∀ g ∈ log, ¬ g.named ["Parsing line".toList] = true ∧
      ¬ g.named ["Class completed".toList] = true) (hf : ¬ f.ClosesBlock) :
    (f :: log).IsChain Follows := by
  induction log generalizing f with
  | nil => exact .singleton f
  | cons g log ih =>
    obtain ⟨hline, hcompletion⟩ := h g List.mem_cons_self
    exact .cons_cons (iff_of_false hcompletion hf)
      (ih (fun x hx => h x (List.mem_cons_of_mem g hx)) (not_closesBlock_of_not_named hline))

end LogForm

/-- What is shown tells lines that are looked at and the blocks that they complete. -/
structure Narrates (log : List LogForm) (lines : List ContentLine) (blocks : List ClassBlock) :
    Prop where
  lines : log.filter (LogForm.named ["Parsing line".toList]) = lineForms "ROOT".toList lines
  completions : log.filter (LogForm.named ["Class completed".toList]) = blocks.map completionForm
  follows : log.IsChain LogForm.Follows

/-- The log of lines stands between entries of other names. -/
theorem Logged.narrates {lines : List ContentLine} {blocks : List ClassBlock}
    {log after : List LogForm} (h : Logged "ROOT".toList lines blocks log) {a : LogForm}
    (hother : ∀ f ∈ a :: after, f.named LogForm.lineNames = false) :
    Narrates (a :: (log ++ after)) lines blocks := by
  have hnot : ∀ names, (∀ n ∈ names, n ∈ LogForm.lineNames) → ∀ f ∈ a :: after,
      ¬ f.named names = true := fun names hsub f hf hn =>
    Bool.false_ne_true ((hother f hf).symm.trans (LogForm.named_mono hn hsub))
  have hline := hnot ["Parsing line".toList] (by decide)
  have hcompletion := hnot ["Class completed".toList] (by decide)
  refine ⟨?_, ?_, h.isChain_append
    (LogForm.not_closesBlock_of_not_named (hline a List.mem_cons_self)) fun f hf =>
    LogForm.isChain_cons_of_not_named (fun g hg => ?_) hf⟩
  · rw [List.filter_cons_of_neg (hline a List.mem_cons_self), List.filter_append,
      h.filter_lines, List.filter_eq_nil_iff.2 fun f hf => hline f (List.mem_cons_of_mem a hf),
      List.append_nil]
  · rw [List.filter_cons_of_neg (hcompletion a List.mem_cons_self), List.filter_append,
      h.filter_completions,
      List.filter_eq_nil_iff.2 fun f hf => hcompletion f (List.mem_cons_of_mem a hf),
      List.append_nil]
  · exact ⟨hline g (List.mem_cons_of_mem a hg), hcompletion g (List.mem_cons_of_mem a hg)⟩

/-- The lines of a log leave no trace of an end of the reading or of a generation. -/
theorem Logged.filter_append {lines : List ContentLine} {blocks : List ClassBlock}
    {log : List LogForm} {state : Text} (h : Logged state lines blocks log) (after : List LogForm)
    {names : List Text} (hdisj : ∀ n ∈ LogForm.lineNames, n ∉ names) :
    (log ++ after).filter (LogForm.named names) = after.filter (LogForm.named names) := by
  rw [List.filter_append, LogForm.filter_named_eq_nil (fun f hf => h.named_of_mem hf) hdisj,
    List.nil_append]

section outcome

variable (package : Option Text) (bs : List ClassBlock)

theorem named_lineNames_of_mem_outcomeForms {answer : Except ParseError (List ClassBlock)}
    {f : LogForm} (hf : f ∈ outcomeForms package answer) : f.named LogForm.lineNames = false := by
  cases answer with
  | error =>
    rw [List.mem_singleton.1 hf]
    rfl
  | ok bs =>
    rw [outcomeForms, List.mem_append, List.mem_append] at hf
    rcases hf with (hf | hf) | hf
    · simp only [List.mem_cons, List.not_mem_nil, or_false] at hf
      rcases hf with rfl | rfl | rfl <;> rfl
    · exact LogForm.named_eq_false (named_of_mem_generatedForms package [] bs hf) (by decide)
    · rcases List.mem_pair.1 hf with rfl | rfl <;> rfl

theorem getLast?_outcomeForms (answer : Except ParseError (List ClassBlock)) :
    (outcomeForms package answer).getLast? = some .closed := by
  cases answer with
  | error => rfl
  | ok bs =>
    rw [outcomeForms, List.getLast?_append]
    rfl

theorem filter_completed_outcomeForms :
    (outcomeForms package (.ok bs)).filter (LogForm.named ["Parsing completed".toList]) =
      [.event "Parsing completed".toList .info [("class_count".toList, .number bs.length)]] := by
  rw [outcomeForms, List.filter_append, List.filter_append, LogForm.filter_named_eq_nil
    (fun f hf => named_of_mem_generatedForms package [] bs hf) (by decide), List.append_nil]
  rfl

theorem filter_generation_outcomeForms :
    (outcomeForms package (.ok bs)).filter (LogForm.named generationNames) =
      .opened "generate_sources".toList .info
          [("class_count".toList, .number bs.length),
            ("package".toList, .text (package.getD []))] ::
        generatedForms package [] bs ++
        [.event "Generation completed".toList .info
          [("file_count".toList, .number (Java.sources package bs).size)]] := by
  have hself : (generatedForms package [] bs).filter (LogForm.named generationNames) =
      generatedForms package [] bs := List.filter_eq_self.2 fun f hf =>
    LogForm.named_mono (named_of_mem_generatedForms package [] bs hf) (by decide)
  rw [outcomeForms, List.filter_append, List.filter_append, hself]
  rfl

end outcome

/-- The log of a conversion comes with the answer of the conversion. It follows the lines of the
text as far as they are looked at and completes the blocks that they close. Only a text that is read
has an entry for the end of its reading and entries for its sources, and each class has a source or
replaces an earlier one. -/
theorem traceConversion_agrees (package : Option Text) (t : Text) :
    (traceConversion package t).result = convert package t ∧
    ∃ read refused blocks m, Machine.start.readLines read = .ok (blocks, m) ∧
      Halts t blocks read refused (readBlocks t) ∧
      Narrates (traceConversion package t).shown (read ++ refused.toList) blocks ∧
      (traceConversion package t).shown.head? = some (.opened "parse_class_diagram".toList .info
        [("input_len".toList, .number (String.ofList t).utf8ByteSize)]) ∧
      (traceConversion package t).shown.getLast? = some .closed ∧
      (∀ e, readBlocks t = .error e → convert package t = .error e ∧
        ∀ f ∈ (traceConversion package t).shown,
          f.named ("Parsing completed".toList :: generationNames) = false) ∧
      ∀ bs, readBlocks t = .ok bs → ∃ sources,
        convert package t = .ok sources ∧
        (traceConversion package t).shown.filter (LogForm.named ["Parsing completed".toList]) =
          [.event "Parsing completed".toList .info [("class_count".toList, .number bs.length)]] ∧
        (traceConversion package t).shown.filter (LogForm.named generationNames) =
          .opened "generate_sources".toList .info
              [("class_count".toList, .number bs.length),
                ("package".toList, .text (package.getD []))] ::
            generatedForms package [] bs ++
            [.event "Generation completed".toList .info
              [("file_count".toList, .number sources.size)]] ∧
        sources.size + (generatedForms package [] bs).countP (LogForm.named [replacementMessage]) =
          bs.length := by
  obtain ⟨read, refused, blocks, m, hm, hhalts, hlog⟩ := readBlocks_logged t
  rw [shown_traceConversion, Text.utf8Size_eq]
  refine ⟨result_traceConversion package t, read, refused, blocks, m, hm, hhalts,
    hlog.narrates fun f hf => ?_, rfl, ?_, fun e he => ?_, fun bs hbs => ?_⟩
  · rcases List.mem_cons.1 hf with rfl | hf
    · rfl
    · exact named_lineNames_of_mem_outcomeForms package hf
  · rw [← List.cons_append, List.getLast?_append, getLast?_outcomeForms]
    rfl
  · rw [he]
    refine ⟨by rw [convert, he]; rfl, fun f hf => ?_⟩
    rw [List.mem_cons, List.mem_append] at hf
    rcases hf with rfl | hf | hf
    · rfl
    · exact LogForm.named_eq_false (hlog.named_of_mem hf) (by decide)
    · rw [List.mem_singleton.1 hf]
      rfl
  · have hcount := size_sources_add_countP package [] bs
    have hsize : (Java.sources package []).size = 0 := rfl
    rw [hbs]
    refine ⟨Java.sources package bs, ?_, ?_, ?_, ?_⟩
    · rw [convert, hbs]
      rfl
    · rw [List.filter_cons_of_neg Bool.false_ne_true, hlog.filter_append _ (by decide),
        filter_completed_outcomeForms]
    · rw [List.filter_cons_of_neg Bool.false_ne_true, hlog.filter_append _ (by decide),
        filter_generation_outcomeForms]
    · rw [hsize, Nat.zero_add] at hcount
      exact hcount

def twiceText : Text :=
  "A // first\nextends B\n---\n- x: int\n---\n---\n\nA\n---\n---\n+ f(): int\n---\n".toList

def twiceBlocks : List ClassBlock :=
  [.ofLines ⟨"A".toList, none⟩ [⟨.generalization, ["B".toList]⟩]
      [⟨"x".toList, "int".toList, .priv, false⟩] [],
    .ofLines ⟨"A".toList, none⟩ [] [] [⟨"f".toList, .pub, false, [], some "int".toList⟩]]

def refusedText : Text :=
  "A\n---\n- x\n---\n".toList

theorem traceConversion_agrees_twiceText :
    (traceConversion (some "p".toList) twiceText).shown.filter
        (LogForm.named ["Parsing line".toList]) =
      [lineForm 1 "ROOT".toList "A".toList, lineForm 2 "CLASS".toList "extends B".toList,
        lineForm 3 "CLASS".toList "---".toList, lineForm 4 "ATTR".toList "- x: int".toList,
        lineForm 5 "ATTR".toList "---".toList, lineForm 6 "METHOD".toList "---".toList,
        lineForm 8 "ROOT".toList "A".toList, lineForm 9 "CLASS".toList "---".toList,
        lineForm 10 "ATTR".toList "---".toList, lineForm 11 "METHOD".toList "+ f(): int".toList,
        lineForm 12 "METHOD".toList "---".toList] ∧
    (traceConversion (some "p".toList) twiceText).shown.filter
        (LogForm.named ["Class completed".toList]) =
      [.event "Class completed".toList .debug
          [("class".toList, .text "A".toList), ("properties".toList, .number 1),
            ("methods".toList, .number 0), ("relations".toList, .number 1)],
        .event "Class completed".toList .debug
          [("class".toList, .text "A".toList), ("properties".toList, .number 0),
            ("methods".toList, .number 1), ("relations".toList, .number 0)]] ∧
    (traceConversion (some "p".toList) twiceText).shown.filter (LogForm.named generationNames) =
      [.opened "generate_sources".toList .info
          [("class_count".toList, .number 2), ("package".toList, .text "p".toList)],
        .event "Generated source".toList .debug
          [("class".toList, .text "A".toList), ("bytes".toList, .number 60)],
        .event "Generated source".toList .debug
          [("class".toList, .text "A".toList), ("bytes".toList, .number 58)],
        .event replacementMessage .debug [("class".toList, .text "A".toList)],
        .event "Generation completed".toList .info [("file_count".toList, .number 1)]] ∧
    (traceConversion none refusedText).shown.filter (LogForm.named ["Parsing line".toList]) =
      [lineForm 1 "ROOT".toList "A".toList, lineForm 2 "CLASS".toList "---".toList,
        lineForm 3 "ATTR".toList "- x".toList] ∧
    ∀ f ∈ (traceConversion none refusedText).shown,
      f.named ("Parsing completed".toList :: generationNames) = false := by
  have h : readBlocks twiceText = .ok twiceBlocks := by decide +kernel
  obtain ⟨-, read, refused, blocks, m, -, hhalts, hlog, -, -, -, hok⟩ :=
    traceConversion_agrees (some "p".toList) twiceText
  obtain ⟨sources, hconvert, -, hgeneration, -⟩ := hok twiceBlocks h
  have hsources : convert (some "p".toList) twiceText =
      .ok (Java.sources (some "p".toList) twiceBlocks) := by
    rw [convert, h]
    rfl
  have he : readBlocks refusedText = .error ⟨3, .malformedProperty "- x".toList⟩ := by
    decide +kernel
  have hcontents : numberedContents refusedText = [⟨1, "A".toList⟩, ⟨2, "---".toList⟩,
      ⟨3, "- x".toList⟩, ⟨4, "---".toList⟩] := by
    decide +kernel
  obtain ⟨-, read', refused', blocks', m', -, hhalts', hlog', -, -, herror, -⟩ :=
    traceConversion_agrees none refusedText
  rw [h] at hhalts
  cases hhalts
  cases hsources.symm.trans hconvert
  refine ⟨hlog.lines.trans ?_, hlog.completions.trans ?_, hgeneration.trans ?_,
    hlog'.lines.trans ?_, (herror _ he).2⟩
  · decide +kernel
  · decide +kernel
  · decide +kernel
  · generalize hr : readBlocks refusedText = answer at hhalts'
    cases hhalts' with
    | complete | empty | ending => cases he.symm.trans hr
    | @line _ post l f hl =>
      have hnumber : 3 = l.number := congrArg (·.line) (Except.error.inj (he.symm.trans hr))
      rw [hcontents] at hl
      match read', hl with
      | [_, _], hl =>
        cases hl
        rfl
      | [], hl | [_], hl | [_, _, _], hl =>
        cases hl
        cases hnumber
      | _ :: _ :: _ :: _ :: _, hl => simp at hl

end ClassNotation
