import ClassNotation.Line.Header
import ClassNotation.Proofs.Machine.Calls
import Mathlib.Data.List.DropRight

/-! Runs of a new machine, and what the calls of a run say of the class that is open. The machine
keeps no more and no less: its draft holds what the calls that succeeded since the last start
have added. -/

namespace ClassNotation

/-- What a caller sees of a call: its answer, and the phase behind it. -/
structure Call where
  operation : Operation
  answer : Except ParseError (Option ClassBlock)
  phase : Phase

/-- The calls that have been made on a new machine, in any order and whatever they answered. -/
inductive Run : List Call → Machine → Prop
  | new : Run [] .start
  | call {calls : List Call} {m : Machine} (h : Run calls m) (op : Operation) :
      Run (calls ++ [⟨op, (m.call op).1, (m.call op).2.phase⟩]) (m.call op).2

def history (ops : List Operation) : List Call × Machine :=
  ops.foldl (fun (calls, m) op =>
    (calls ++ [⟨op, (m.call op).1, (m.call op).2.phase⟩], (m.call op).2)) ([], .start)

theorem run_history (ops : List Operation) :
    Run (history ops).1 (history ops).2 ∧ (history ops).1.map (·.operation) = ops := by
  induction ops using List.reverseRecOn with
  | nil => exact ⟨.new, rfl⟩
  | append_singleton ops op ih =>
    rw [history, List.foldl_concat]
    refine ⟨ih.1.call op, ?_⟩
    rw [List.map_append, ← history, ih.2]
    rfl

namespace Operation

def relation? (owner : Text) : Operation → Option Relation
  | .addRelation related kind .forward => some ⟨owner, related, kind⟩
  | .addRelation related kind .inverse => some ⟨related, owner, kind⟩
  | _ => none

def related? : Operation → Option Text
  | .addRelation related _ _ => some related
  | _ => none

def property? : Operation → Option Property
  | .addProperty p => some p
  | _ => none

def method? : Operation → Option Method
  | .addMethod method => some method
  | _ => none

def line? : Operation → Option Nat
  | .setLine n => some n
  | _ => none

end Operation

def Call.started? (c : Call) : Option Header :=
  match c.operation, c.answer with
  | .startClass name qualifier, .ok _ => some ⟨name, qualifier⟩
  | _, _ => none

def lastStarted (calls : List Call) : Option Header :=
  (calls.filterMap Call.started?).getLast?

/-- The calls behind the last one that started a class. -/
def sinceStart (calls : List Call) : List Call :=
  calls.rtakeWhile (·.started?.isNone)

def successes (calls : List Call) : List Operation :=
  (calls.filter (·.answer.isOk)).map (·.operation)

/-- The number of the line that was set last, or zero. -/
def lineSet (calls : List Call) : Nat :=
  ((calls.filterMap (·.operation.line?)).getLast?).getD 0

/-- A part has been entered if some call since the last start led into its phase. -/
def Entered (calls : List Call) (part : Part) : Prop :=
  ∃ c ∈ sinceStart calls, c.phase = part.phase

section concat

variable (calls : List Call) (c : Call)

theorem lastStarted_concat : lastStarted (calls ++ [c]) = c.started?.or (lastStarted calls) := by
  cases h : c.started? <;> simp [lastStarted, h]

theorem sinceStart_concat :
    sinceStart (calls ++ [c]) = if c.started?.isNone then sinceStart calls ++ [c] else [] := by
  rw [sinceStart, List.rtakeWhile_concat]
  rfl

theorem successes_concat :
    successes (calls ++ [c]) = successes calls ++ if c.answer.isOk then [c.operation] else [] := by
  cases h : c.answer.isOk <;> simp [successes, h]

theorem lineSet_concat : lineSet (calls ++ [c]) = c.operation.line?.getD (lineSet calls) := by
  cases h : c.operation.line? <;> simp [lineSet, h]

end concat

theorem Part.phase_ne_header (part : Part) : Phase.header ≠ part.phase := by
  cases part <;> simp [Part.phase]

/-- A call that adds nothing to the open class, because it fails or by what it is. -/
def Call.Silent (c : Call) : Prop :=
  c.answer.isOk = true → (∀ owner, c.operation.relation? owner = none) ∧
    c.operation.related? = none ∧ c.operation.property? = none ∧ c.operation.method? = none

def Operation.adds : Operation → Bool
  | .addRelation .. => true
  | .addProperty _ => true
  | .addMethod _ => true
  | _ => false

theorem silent_of_adds_eq_false {op : Operation} (h : op.adds = false)
    (answer : Except ParseError (Option ClassBlock)) (p : Phase) : Call.Silent ⟨op, answer, p⟩ := by
  intro _
  cases op with
  | addRelation | addProperty | addMethod => cases h
  | _ => exact ⟨fun _ => rfl, rfl, rfl, rfl⟩

theorem silent_of_error (op : Operation) (e : ParseError) (p : Phase) :
    Call.Silent ⟨op, .error e, p⟩ :=
  fun hok => by cases hok

section filterMap

variable {α : Type}

theorem filterMap_successes_ok (f : Operation → Option α) (calls : List Call) (op : Operation)
    (p : Phase) :
    (successes (calls ++ [⟨op, .ok none, p⟩])).filterMap f =
      (successes calls).filterMap f ++ (f op).toList := by
  have hs : successes (calls ++ [⟨op, .ok none, p⟩]) = successes calls ++ [op] :=
    successes_concat calls ⟨op, .ok none, p⟩
  rw [hs, List.filterMap_append]
  cases h : f op <;> simp [h]

theorem filterMap_successes_keep {f : Operation → Option α} {calls : List Call} {c : Call}
    (hf : c.answer.isOk = true → f c.operation = none) :
    (successes (calls ++ [c])).filterMap f = (successes calls).filterMap f := by
  rw [successes_concat, List.filterMap_append]
  by_cases h : c.answer.isOk = true
  · rw [if_pos h, List.filterMap_cons_none (hf h), List.filterMap_nil, List.append_nil]
  · rw [if_neg h, List.filterMap_nil, List.append_nil]

end filterMap

namespace Draft

structure Holds (d : Draft) (calls : List Call) : Prop where
  relations : d.relations = (successes calls).filterMap (Operation.relation? d.name)
  relates : ∀ t, t ∈ d.relates ↔ t ∈ (successes calls).filterMap Operation.related?
  properties : d.properties.getD [] = (successes calls).filterMap Operation.property?
  methods : d.methods.getD [] = (successes calls).filterMap Operation.method?

variable {d : Draft} {calls : List Call} {c : Call}

theorem Holds.start (name : Text) (qualifier : Option Qualifier) :
    (Draft.start name qualifier).Holds [] := by
  refine ⟨rfl, fun t => ?_, rfl, rfl⟩
  simp [Draft.start, successes, TextSet.not_mem_empty]

theorem Holds.concat_silent (h : d.Holds calls) (hc : c.Silent) : d.Holds (calls ++ [c]) where
  relations := by
    rw [filterMap_successes_keep fun hok => (hc hok).1 d.name]
    exact h.relations
  relates := by
    rw [filterMap_successes_keep fun hok => (hc hok).2.1]
    exact h.relates
  properties := by
    rw [filterMap_successes_keep fun hok => (hc hok).2.2.1]
    exact h.properties
  methods := by
    rw [filterMap_successes_keep fun hok => (hc hok).2.2.2]
    exact h.methods

/-- The list that a part begins with when it is entered is the one that the absent part stood
for, so nothing is lost. -/
theorem Holds.enter (h : d.Holds calls) {part : Part} (hn : d.has part = false) :
    (d.enter part).Holds calls := by
  cases part with
  | properties =>
    have he : d.properties = none := by simpa [has] using hn
    have hp := h.properties
    rw [he] at hp
    exact ⟨h.relations, h.relates, hp, h.methods⟩
  | methods =>
    have he : d.methods = none := by simpa [has] using hn
    have hm := h.methods
    rw [he] at hm
    exact ⟨h.relations, h.relates, h.properties, hm⟩

theorem relation?_addRelation (owner related : Text) (kind : RelationKind) (dir : Direction) :
    Operation.relation? owner (.addRelation related kind dir) =
      some (.declaredBy owner related kind dir) := by
  cases dir <;> rfl

theorem Holds.concat_ok {d' : Draft} (h : d.Holds calls) (op : Operation) (p : Phase)
    (hname : d'.name = d.name)
    (hrelations : d'.relations = d.relations ++ (op.relation? d.name).toList)
    (hrelates : ∀ t, t ∈ d'.relates ↔ t ∈ d.relates ∨ t ∈ op.related?.toList)
    (hproperties : d'.properties.getD [] = d.properties.getD [] ++ op.property?.toList)
    (hmethods : d'.methods.getD [] = d.methods.getD [] ++ op.method?.toList) :
    d'.Holds (calls ++ [⟨op, .ok none, p⟩]) where
  relations := by rw [filterMap_successes_ok, hname, hrelations, h.relations]
  relates t := by rw [filterMap_successes_ok, List.mem_append, hrelates, h.relates]
  properties := by rw [filterMap_successes_ok, hproperties, h.properties]
  methods := by rw [filterMap_successes_ok, hmethods, h.methods]

theorem Holds.addRelation (h : d.Holds calls) (related : Text) (kind : RelationKind)
    (dir : Direction) (p : Phase) :
    (d.addRelation related kind dir).Holds
      (calls ++ [⟨.addRelation related kind dir, .ok none, p⟩]) := by
  refine h.concat_ok _ p rfl ?_ (fun t => ?_) (List.append_nil _).symm (List.append_nil _).symm
  · rw [relation?_addRelation]
    rfl
  · rw [or_comm, Operation.related?, Option.toList_some, List.mem_singleton]
    exact TextSet.mem_insert

theorem Holds.addProperty (h : d.Holds calls) (x : Property) (p : Phase) :
    (d.addProperty x).Holds (calls ++ [⟨.addProperty x, .ok none, p⟩]) :=
  h.concat_ok _ p rfl (List.append_nil _).symm (fun _ => (or_iff_left List.not_mem_nil).symm)
    rfl (List.append_nil _).symm

theorem Holds.addMethod (h : d.Holds calls) (x : Method) (p : Phase) :
    (d.addMethod x).Holds (calls ++ [⟨.addMethod x, .ok none, p⟩]) :=
  h.concat_ok _ p rfl (List.append_nil _).symm (fun _ => (or_iff_left List.not_mem_nil).symm)
    (List.append_nil _).symm rfl

theorem has_enter (d : Draft) (a b : Part) :
    (d.enter a).has b = true ↔ d.has b = true ∨ a.phase = b.phase := by
  cases a <;> cases b <;> simp [has, enter, Part.phase]

theorem has_addProperty (d : Draft) (x : Property) (part : Part) :
    (d.addProperty x).has part = true ↔ d.has part = true ∨ Phase.properties = part.phase := by
  cases part <;> simp [has, Draft.addProperty, Part.phase]

theorem has_addMethod (d : Draft) (x : Method) (part : Part) :
    (d.addMethod x).has part = true ↔ d.has part = true ∨ Phase.methods = part.phase := by
  cases part <;> simp [has, Draft.addMethod, Part.phase]

end Draft

/-- What the draft of a class has in common with the calls since the class was started. -/
structure Describes (calls : List Call) (p : Phase) (d : Draft) : Prop where
  started : lastStarted calls = some ⟨d.name, d.qualifier⟩
  holds : d.Holds (sinceStart calls)
  entered : ∀ part, d.has part = true ↔ Entered calls part
  here : ∀ part, p = part.phase → d.has part = true

theorem Describes.concat {calls : List Call} {p : Phase} {d d' : Draft} {c : Call}
    (h : Describes calls p d) (hc : c.started? = none) (hname : d'.name = d.name)
    (hqualifier : d'.qualifier = d.qualifier) (hd : d'.Holds (sinceStart calls ++ [c]))
    (hhas : ∀ part, d'.has part = true ↔ d.has part = true ∨ c.phase = part.phase) :
    Describes (calls ++ [c]) c.phase d' := by
  have hs : sinceStart (calls ++ [c]) = sinceStart calls ++ [c] := by simp [sinceStart_concat, hc]
  refine ⟨?_, hs ▸ hd, fun part => ?_, fun part hp => (hhas part).2 (.inr hp)⟩
  · rw [lastStarted_concat, hc, hname, hqualifier]
    exact h.started
  · rw [hhas, h.entered, Entered, Entered, hs]
    simp only [List.mem_append, List.mem_singleton, or_and_right, exists_or, exists_eq_left]

theorem Describes.concat_silent {calls : List Call} {p : Phase} {d : Draft} {c : Call}
    (h : Describes calls p d) (hc : c.started? = none) (hs : c.Silent)
    (hp : ∀ part, c.phase = part.phase → d.has part = true) :
    Describes (calls ++ [c]) c.phase d :=
  h.concat hc rfl rfl (h.holds.concat_silent hs) fun part =>
    ⟨.inl, fun hh => hh.elim id (hp part)⟩

theorem Describes.enter {calls : List Call} {p : Phase} {d : Draft} {part : Part} {c : Call}
    (h : Describes calls p d) (hn : d.has part = false) (hc : c.started? = none) (hs : c.Silent)
    (hp : c.phase = part.phase) : Describes (calls ++ [c]) c.phase (d.enter part) := by
  refine h.concat hc ?_ ?_ ((h.holds.concat_silent hs).enter hn) fun b => ?_
  · cases part <;> rfl
  · cases part <;> rfl
  · rw [hp]
    exact d.has_enter part b

/-- The state of a machine, as far as the calls of its run determine it. -/
structure Follows (calls : List Call) (m : Machine) : Prop where
  coherent : m.Coherent
  line : m.line = lineSet calls
  draft : ∀ d, m.draft = some d → Describes calls m.phase d

theorem describes_start (calls : List Call) (name : Text) (qualifier : Option Qualifier) :
    Describes (calls ++ [⟨.startClass name qualifier, .ok none, .header⟩]) .header
      (.start name qualifier) := by
  have hs : sinceStart (calls ++ [⟨.startClass name qualifier, .ok none, .header⟩]) = [] := by
    simp [sinceStart_concat, Call.started?]
  refine ⟨?_, ?_, fun part => ?_, fun part hp => ?_⟩
  · rw [lastStarted_concat]
    rfl
  · rw [hs]
    exact .start name qualifier
  · rw [Entered, hs]
    cases part <;> simp [Draft.start, Draft.has]
  · exact absurd hp part.phase_ne_header

theorem follows_start : Follows [] .start :=
  ⟨.outside 0, rfl, fun _ hd => by cases hd⟩

theorem started?_of_error (op : Operation) (e : ParseError) (p : Phase) :
    Call.started? ⟨op, .error e, p⟩ = none := by
  cases op <;> rfl

namespace Machine

variable {m m' : Machine} {op : Operation} {answer : Option ClassBlock} {calls : List Call}

theorem Moves.line_eq (h : Moves m op answer m') : m'.line = op.line?.getD m.line := by
  cases h <;> rfl

theorem Moves.describes (h : Moves m op answer m')
    (hd : ∀ d, m.draft = some d → Describes calls m.phase d) {d' : Draft}
    (hd' : m'.draft = some d') : Describes (calls ++ [⟨op, .ok answer, m'.phase⟩]) m'.phase d' := by
  cases h with
  | setLine _ n =>
    have h := hd d' hd'
    exact h.concat_silent rfl (silent_of_adds_eq_false rfl _ _) h.here
  | startClass n name qualifier =>
    obtain rfl := Option.some.inj hd'
    exact describes_start calls name qualifier
  | addRelation n d related kind dir =>
    obtain rfl := Option.some.inj hd'
    have h := hd d rfl
    exact h.concat rfl rfl rfl (h.holds.addRelation related kind dir .header) fun part =>
      ⟨.inl, fun hh => hh.elim id fun hp => absurd hp part.phase_ne_header⟩
  | addProperty n d x =>
    obtain rfl := Option.some.inj hd'
    have h := hd d rfl
    exact h.concat rfl rfl rfl (h.holds.addProperty x .properties) (d.has_addProperty x)
  | addMethod n d x =>
    obtain rfl := Option.some.inj hd'
    have h := hd d rfl
    exact h.concat rfl rfl rfl (h.holds.addMethod x .methods) (d.has_addMethod x)
  | leave n d =>
    obtain rfl := Option.some.inj hd'
    exact (hd d rfl).concat_silent rfl (silent_of_adds_eq_false rfl _ _) fun part hp =>
      absurd hp part.phase_ne_header
  | enter n hn | advanceToProperties n hn | advanceToMethods n hn =>
    obtain rfl := Option.some.inj hd'
    exact (hd _ rfl).enter hn rfl (silent_of_adds_eq_false rfl _ _) rfl
  | finishClass | advanceOut | finish => cases hd'

end Machine

theorem Follows.moves {calls : List Call} {m m' : Machine} {op : Operation}
    {answer : Option ClassBlock} (h : Follows calls m) (hm : m.Moves op answer m') :
    Follows (calls ++ [⟨op, .ok answer, m'.phase⟩]) m' where
  coherent := hm.coherent h.coherent
  line := by rw [lineSet_concat, hm.line_eq, h.line]
  draft _ hd' := hm.describes h.draft hd'

theorem Machine.line?_of_error (m : Machine) (op : Operation) {e : ParseError}
    (h : (m.call op).1 = .error e) : op.line? = none := by
  cases op with
  | setLine n => cases h
  | _ => rfl

/-- A call that fails adds nothing to what the machine has to remember. It may change the phase,
but not to one of a part. -/
theorem Follows.fails {calls : List Call} {m : Machine} {op : Operation} {p : Phase}
    (h : Follows calls m) (hop : op.line? = none) (e : ParseError)
    (hp : p = m.phase ∨ p = .header ∧ m.phase ≠ .outside) :
    Follows (calls ++ [⟨op, .error e, p⟩]) { m with phase := p } where
  coherent := by
    rcases hp with rfl | ⟨rfl, hm⟩
    · exact h.coherent
    · cases h.coherent with
      | outside => exact absurd rfl hm
      | inside _ n d => exact .inside (by simp) n d
  line := by rw [lineSet_concat, hop, Option.getD_none, h.line]
  draft d hd := by
    have hdescribes := h.draft d hd
    refine hdescribes.concat_silent (started?_of_error op e p) (silent_of_error op e p) ?_
    intro part hpart
    rcases hp with rfl | ⟨rfl, -⟩
    · exact hdescribes.here part hpart
    · exact absurd hpart part.phase_ne_header

theorem Follows.call {calls : List Call} {m : Machine} (h : Follows calls m) (op : Operation) :
    Follows (calls ++ [⟨op, (m.call op).1, (m.call op).2.phase⟩]) (m.call op).2 := by
  have he := Machine.effect_call h.coherent op
  have hline := @Machine.line?_of_error m op
  generalize m.call op = r at he hline ⊢
  cases he with
  | moves hm => exact h.moves hm
  | refused => exact h.fails (hline rfl) _ (.inl rfl)
  | leftProperties hop hp => exact h.fails (hline rfl) _ (.inr ⟨rfl, by simp [hp]⟩)

theorem Run.follows {calls : List Call} {m : Machine} (h : Run calls m) : Follows calls m := by
  induction h with
  | new => exact follows_start
  | call _ op ih => exact ih.call op

/-- A class that is handed over is what was said of it since it was started. -/
theorem Run.block_eq {calls : List Call} {m m' : Machine} {op : Operation} {b : ClassBlock}
    (h : Run calls m) (hb : m.call op = (.ok (some b), m')) :
    (op = .finishClass ∨ op = .advance) ∧
      lastStarted calls = some ⟨b.name, b.qualifier⟩ ∧
      b.relations = (successes (sinceStart calls)).filterMap (Operation.relation? b.name) ∧
      (∀ t, t ∈ b.relates ↔ t ∈ (successes (sinceStart calls)).filterMap Operation.related?) ∧
      b.properties = (successes (sinceStart calls)).filterMap Operation.property? ∧
      b.methods = (successes (sinceStart calls)).filterMap Operation.method? := by
  have hf := h.follows
  have he := Machine.effect_call hf.coherent op
  rw [hb] at he
  have hdraft : (op = .finishClass ∨ op = .advance) ∧ ∃ d, m.draft = some d ∧ d.finish = b := by
    cases he with
    | moves hm =>
      cases hm with
      | finishClass n d => exact ⟨.inl rfl, d, rfl, rfl⟩
      | advanceOut n d => exact ⟨.inr rfl, d, rfl, rfl⟩
  obtain ⟨hop, d, hd, rfl⟩ := hdraft
  have hdescribes := hf.draft d hd
  obtain ⟨hrelations, hrelates, hproperties, hmethods⟩ := hdescribes.holds
  exact ⟨hop, hdescribes.started, hrelations, hrelates, hproperties, hmethods⟩

/-- A second class behind a finished one, with a start and a method that are refused. -/
def secondClass : List Operation :=
  [.startClass "A".toList none, .addRelation "B".toList .generalization .forward, .finishClass,
    .startClass "C".toList (some .interface), .startClass "D".toList none,
    .addRelation "B".toList .composition .inverse, .advance,
    .addProperty ⟨"x".toList, "int".toList, .priv, false⟩,
    .addMethod ⟨"f".toList, .pub, false, [], none⟩, .leave .properties]

theorem Run.block_eq_secondClass :
    ∃ b m', (history secondClass).2.call .finishClass = (.ok (some b), m') ∧
      b.name = "C".toList ∧ b.qualifier = some .interface ∧
      b.relations = [⟨"B".toList, "C".toList, .composition⟩] ∧
      (∀ t, t ∈ b.relates ↔ t = "B".toList) ∧
      b.properties = [⟨"x".toList, "int".toList, .priv, false⟩] ∧ b.methods = [] := by
  obtain ⟨b, m', hb⟩ : ∃ b m', (history secondClass).2.call .finishClass = (.ok (some b), m') :=
    ⟨_, _, rfl⟩
  have h := (run_history secondClass).1.block_eq hb
  have hstarted : lastStarted (history secondClass).1 = some ⟨"C".toList, some .interface⟩ := rfl
  have hdone : successes (sinceStart (history secondClass).1) =
      [.addRelation "B".toList .composition .inverse, .advance,
        .addProperty ⟨"x".toList, "int".toList, .priv, false⟩, .leave .properties] := rfl
  obtain ⟨-, hheader, hrelations, hrelates, hproperties, hmethods⟩ := h
  rw [hstarted, Option.some.injEq, Header.mk.injEq] at hheader
  rw [hdone] at hrelations hrelates hproperties hmethods
  refine ⟨b, m', hb, hheader.1.symm, hheader.2.symm, ?_, fun t => ?_, hproperties, hmethods⟩
  · rw [hrelations, ← hheader.1]
    rfl
  · rw [hrelates]
    exact List.mem_singleton

end ClassNotation
