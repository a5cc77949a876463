import ClassNotation.Conversion
import ClassNotation.LogSettings

/-! Runs that log what they do. The reading of a text and the generation of its sources answer as
they do without a log, and the log follows them line by line and class by class. -/

namespace ClassNotation

inductive LogEntry where
  | readingBegun (bytes : Nat)
  | lineRead (number : Nat) (phase : Phase) (text : Text)
  | classCompleted (name : Text) (properties methods relations : Nat)
  | readingCompleted (classes : Nat)
  | generationBegun (classes : Nat) (package : Text)
  | sourceGenerated (name : Text) (bytes : Nat)
  | sourceReplaced (name : Text)
  | generationCompleted (files : Nat)
  | activityEnded
  deriving DecidableEq, Repr

inductive LogField where
  | number (n : Nat)
  | text (t : Text)
  deriving DecidableEq, Repr

/-- The shown form of an entry: an activity that opens, one that closes, or an event. -/
inductive LogForm where
  | opened (name : Text) (level : LogLevel) (fields : List (Text × LogField))
  | event (message : Text) (level : LogLevel) (fields : List (Text × LogField))
  | closed
  deriving DecidableEq, Repr

def LogEntry.form : LogEntry → LogForm
  | .readingBegun bytes =>
    .opened "parse_class_diagram".toList .info [("input_len".toList, .number bytes)]
  | .lineRead number phase text =>
    .event "Parsing line".toList .trace
      [("line".toList, .number number), ("state".toList, .text phase.name),
        ("text".toList, .text text)]
  | .classCompleted name properties methods relations =>
    .event "Class completed".toList .debug
      [("class".toList, .text name), ("properties".toList, .number properties),
        ("methods".toList, .number methods), ("relations".toList, .number relations)]
  | .readingCompleted classes =>
    .event "Parsing completed".toList .info [("class_count".toList, .number classes)]
  | .generationBegun classes package =>
    .opened "generate_sources".toList .info
      [("class_count".toList, .number classes), ("package".toList, .text package)]
  | .sourceGenerated name bytes =>
    .event "Generated source".toList .debug
      [("class".toList, .text name), ("bytes".toList, .number bytes)]
  | .sourceReplaced name =>
    .event "Class declared twice, keeping the last block".toList .debug
      [("class".toList, .text name)]
  | .generationCompleted files =>
    .event "Generation completed".toList .info [("file_count".toList, .number files)]
  | .activityEnded => .closed

def ClassBlock.completed (b : ClassBlock) : LogEntry :=
  .classCompleted b.name b.properties.length b.methods.length b.relations.length

/-- An answer, with what was logged on the way to it. -/
structure Traced (α : Type) where
  result : α
  log : List LogEntry

namespace Traced

variable {ε α β : Type}

def shown (r : Traced α) : List LogForm :=
  r.log.map LogEntry.form

def map (change : α → β) (r : Traced α) : Traced β :=
  ⟨change r.result, r.log⟩

/-- Runs as an activity, which is closed whatever the answer is. -/
def within (opening : LogEntry) (r : Traced α) : Traced α :=
  ⟨r.result, opening :: r.log ++ [.activityEnded]⟩

/-- Goes on with the answer of a success; a failure ends the run. -/
def andThen (r : Traced (Except ε α)) (next : α → Traced (Except ε β)) : Traced (Except ε β) :=
  match r with
  | ⟨.ok a, log⟩ => ⟨(next a).result, log ++ (next a).log⟩
  | ⟨.error e, log⟩ => ⟨.error e, log⟩

end Traced

def Machine.traceLines (m : Machine) :
    List ContentLine → Traced (Except ParseError (List ClassBlock × Machine))
  | [] => ⟨.ok ([], m), []⟩
  | l :: ls =>
    let entry := .lineRead l.number m.phase l.text
    match m.readLine l with
    | (.error e, _) => ⟨.error e, [entry]⟩
    | (.ok block?, m) =>
      let rest := m.traceLines ls
      ⟨rest.result.map fun (blocks, m) => (block?.toList ++ blocks, m),
        entry :: (block?.toList.map ClassBlock.completed ++ rest.log)⟩

/-- Finishes behind the blocks that were closed. -/
def Machine.traceFinish (m : Machine) (blocks : List ClassBlock) :
    Traced (Except ParseError (List ClassBlock)) :=
  match m.finish with
  | .error e => ⟨.error e, []⟩
  | .ok () => ⟨.ok blocks, [.readingCompleted blocks.length]⟩

def traceBlocks (t : Text) : Traced (Except ParseError (List ClassBlock)) :=
  .within (.readingBegun t.utf8Size) <|
    if contentLines t = [] then ⟨.error ⟨0, .emptyInput⟩, []⟩
    else (Machine.start.traceLines (contentLines t)).andThen fun (blocks, m) =>
      (m.setLine t.lines.length).traceFinish blocks

/-- Generates the sources of some blocks, behind sources that are there already. -/
def traceSources (package : Option Text) (earlier : Java.Sources) :
    List ClassBlock → Traced Java.Sources
  | [] => ⟨earlier, [.generationCompleted earlier.size]⟩
  | b :: bs =>
    let text := Java.source package b
    let rest := traceSources package (earlier.insert b.name text) bs
    ⟨rest.result, .sourceGenerated b.name text.utf8Size ::
      ((if earlier.contains b.name then [.sourceReplaced b.name] else []) ++ rest.log)⟩

def traceGeneration (package : Option Text) (blocks : List ClassBlock) : Traced Java.Sources :=
  .within (.generationBegun blocks.length (package.getD [])) <|
    traceSources package TextMap.empty blocks

/-- Reads a text and, if it can be read, generates its sources. -/
def traceConversion (package : Option Text) (t : Text) : Traced (Except ParseError Java.Sources) :=
  (traceBlocks t).andThen fun blocks => (traceGeneration package blocks).map .ok

end ClassNotation
