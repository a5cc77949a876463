import ClassNotation.Machine

/-! The operations of a machine as data, and what one call of them can do. A call that succeeds
makes one of a few moves. A call that fails changes nothing, except that a separator behind the
properties may leave them before it is refused. -/

namespace ClassNotation

inductive Operation where
  | setLine (n : Nat)
  | startClass (name : Text) (qualifier : Option Qualifier)
  | addRelation (related : Text) (kind : RelationKind) (direction : Direction)
  | enter (part : Part)
  | addProperty (p : Property)
  | addMethod (method : Method)
  | leave (part : Part)
  | finishClass
  | advance
  | finish

/-- The event that an operation asks the table for. -/
def Operation.event? : Operation → Option Event
  | .startClass .. => some .startClass
  | .addRelation .. => some .addRelation
  | .enter part => some part.entering
  | .addProperty _ => some .addProperty
  | .addMethod _ => some .addMethod
  | .leave part => some part.leaving
  | .finishClass => some .finishClass
  | .setLine _ => none
  | .advance => none
  | .finish => none

def Part.phase : Part → Phase
  | .properties => .properties
  | .methods => .methods

def Outcome.silent (r : Outcome Unit) : Outcome (Option ClassBlock) :=
  r.andThen fun _ m => (.ok none, m)

namespace Machine

/-- Calls an operation. Only a class that is complete is answered with its block. -/
def call (m : Machine) : Operation → Outcome (Option ClassBlock)
  | .setLine n => (.ok none, m.setLine n)
  | .startClass name qualifier => (m.startClass name qualifier).silent
  | .addRelation related kind direction => (m.addRelation related kind direction).silent
  | .enter part => (m.enter part).silent
  | .addProperty p => (m.addProperty p).silent
  | .addMethod method => (m.addMethod method).silent
  | .leave part => (m.leave part).silent
  | .finishClass => m.finishClass.andThen fun b m => (.ok (some b), m)
  | .advance => m.advance
  | .finish => (m.finish.map fun _ => none, m)

/-- The phase and the draft of a machine agree on whether a class is open. -/
inductive Coherent : Machine → Prop
  | outside (n : Nat) : Coherent ⟨.outside, n, none⟩
  | inside {p : Phase} (hp : p ≠ .outside) (n : Nat) (d : Draft) : Coherent ⟨p, n, some d⟩

inductive Moves : Machine → Operation → Option ClassBlock → Machine → Prop
  | setLine (m : Machine) (n : Nat) : Moves m (.setLine n) none (m.setLine n)
  | startClass (n : Nat) (name : Text) (qualifier : Option Qualifier) :
      Moves ⟨.outside, n, none⟩ (.startClass name qualifier) none
        ⟨.header, n, some (.start name qualifier)⟩
  | addRelation (n : Nat) (d : Draft) (related : Text) (kind : RelationKind)
      (direction : Direction) :
      Moves ⟨.header, n, some d⟩ (.addRelation related kind direction) none
        ⟨.header, n, some (d.addRelation related kind direction)⟩
  | enter (n : Nat) {d : Draft} {part : Part} (h : d.has part = false) :
      Moves ⟨.header, n, some d⟩ (.enter part) none ⟨part.phase, n, some (d.enter part)⟩
  | addProperty (n : Nat) (d : Draft) (p : Property) :
      Moves ⟨.properties, n, some d⟩ (.addProperty p) none
        ⟨.properties, n, some (d.addProperty p)⟩
  | addMethod (n : Nat) (d : Draft) (method : Method) :
      Moves ⟨.methods, n, some d⟩ (.addMethod method) none
        ⟨.methods, n, some (d.addMethod method)⟩
  | leave (n : Nat) (d : Draft) (part : Part) :
      Moves ⟨part.phase, n, some d⟩ (.leave part) none ⟨.header, n, some d⟩
  | finishClass (n : Nat) (d : Draft) :
      Moves ⟨.header, n, some d⟩ .finishClass (some d.finish) ⟨.outside, n, none⟩
  | advanceToProperties (n : Nat) {d : Draft} (h : d.has .properties = false) :
      Moves ⟨.header, n, some d⟩ .advance none ⟨.properties, n, some (d.enter .properties)⟩
  | advanceToMethods (n : Nat) {d : Draft} (h : d.has .methods = false) :
      Moves ⟨.properties, n, some d⟩ .advance none ⟨.methods, n, some (d.enter .methods)⟩
  | advanceOut (n : Nat) (d : Draft) :
      Moves ⟨.methods, n, some d⟩ .advance (some d.finish) ⟨.outside, n, none⟩
  | finish (n : Nat) : Moves ⟨.outside, n, none⟩ .finish none ⟨.outside, n, none⟩

/-- What a call answers and leaves behind. Every fault shows the line that the machine is set to. -/
inductive Effect (m : Machine) (op : Operation) : Outcome (Option ClassBlock) → Prop
  | moves {answer : Option ClassBlock} {m' : Machine} (h : Moves m op answer m') :
      Effect m op (.ok answer, m')
  | refused {f : Fault} (hf : ∀ p, f ≠ .wrongPhase .modifyClass p) :
      Effect m op (.error ⟨m.line, f⟩, m)
  | leftProperties {d : Draft} (hop : op = .advance) (hp : m.phase = .properties)
      (hd : m.draft = some d) (h : d.has .methods = true) :
      Effect m op (.error ⟨m.line, .partPresent .methods⟩, { m with phase := .header })

variable {m m' : Machine} {op : Operation} {answer : Option ClassBlock} {e : ParseError}

theorem enter_header (n : Nat) (d : Draft) (part : Part) :
    Machine.enter ⟨.header, n, some d⟩ part =
      if d.has part then (.error ⟨n, .partPresent part⟩, ⟨.header, n, some d⟩)
      else (.ok (), ⟨part.phase, n, some (d.enter part)⟩) := by
  by_cases h : d.has part = true
  · simp [Machine.enter, h, fail]
  · cases part <;> simp [Machine.enter, h] <;> rfl

theorem call_of_moves (h : Moves m op answer m') : m.call op = (.ok answer, m') := by
  cases h with
  | enter n h => simp [call, enter_header, h, Outcome.silent, Outcome.andThen]
  | leave n d part => cases part <;> rfl
  | advanceToProperties n h => simp [call, advance, enter_header, h, Outcome.andThen, Part.phase]
  | advanceToMethods n h =>
    rename_i d
    have hl : Machine.leave ⟨.properties, n, some d⟩ .properties = (.ok (), ⟨.header, n, some d⟩) :=
      rfl
    simp [call, advance, hl, enter_header, h, Outcome.andThen, Part.phase]
  | _ => rfl

theorem call_of_transition_eq_none {ev : Event} (he : op.event? = some ev)
    (h : transition m.phase ev = none) :
    m.call op = (.error ⟨m.line, .wrongPhase (.event ev) m.phase⟩, m) := by
  have hf : m.fire ev = (.error ⟨m.line, .wrongPhase (.event ev) m.phase⟩, m) := by
    simp [fire, h, fail]
  cases op with
  | setLine n => simp [Operation.event?] at he
  | advance => simp [Operation.event?] at he
  | finish => simp [Operation.event?] at he
  | enter part =>
    obtain rfl := Option.some.inj he
    have hp : m.phase ≠ .header := by
      intro hp
      cases part <;> simp [hp, Part.entering, transition] at h
    simp [call, Machine.enter, hp, hf, Outcome.silent, Outcome.andThen]
  | _ =>
    obtain rfl := Option.some.inj he
    simp [call, startClass, addRelation, addProperty, addMethod, leave, finishClass, hf,
      Outcome.silent, Outcome.andThen]

theorem exists_moves (hm : m.Coherent) {ev : Event} {p : Phase} (he : op.event? = some ev)
    (ht : transition m.phase ev = some p)
    (hnew : ∀ part, op = .enter part → ∀ d, m.draft = some d → d.has part = false) :
    ∃ answer m', Moves m op answer m' ∧ m'.phase = p := by
  obtain ⟨q, n, d?⟩ := m
  have hopen : q ≠ .outside → ∃ d, d? = some d := by
    intro hq
    cases hm with
    | outside => exact absurd rfl hq
    | inside _ _ d => exact ⟨d, rfl⟩
  cases op with
  | setLine k => simp [Operation.event?] at he
  | advance => simp [Operation.event?] at he
  | finish => simp [Operation.event?] at he
  | startClass name qualifier =>
    obtain rfl := Option.some.inj he
    cases q <;> simp [transition] at ht
    cases hm with
    | outside => exact ⟨_, _, .startClass n name qualifier, ht⟩
    | inside hq => exact absurd rfl hq
  | addRelation related kind direction =>
    obtain rfl := Option.some.inj he
    cases q <;> simp [transition] at ht
    obtain ⟨d, rfl⟩ := hopen (by simp)
    exact ⟨_, _, .addRelation n d related kind direction, ht⟩
  | enter part =>
    obtain rfl := Option.some.inj he
    cases part <;> cases q <;> simp [transition, Part.entering] at ht
    all_goals
      obtain ⟨d, rfl⟩ := hopen (by simp)
      exact ⟨_, _, .enter n (hnew _ rfl d rfl), ht⟩
  | addProperty x =>
    obtain rfl := Option.some.inj he
    cases q <;> simp [transition] at ht
    obtain ⟨d, rfl⟩ := hopen (by simp)
    exact ⟨_, _, .addProperty n d x, ht⟩
  | addMethod method =>
    obtain rfl := Option.some.inj he
    cases q <;> simp [transition] at ht
    obtain ⟨d, rfl⟩ := hopen (by simp)
    exact ⟨_, _, .addMethod n d method, ht⟩
  | leave part =>
    obtain rfl := Option.some.inj he
    obtain ⟨rfl, hp⟩ : q = part.phase ∧ .header = p := by
      cases part <;> cases q <;> simp [transition, Part.leaving] at ht <;> exact ⟨rfl, ht⟩
    obtain ⟨d, rfl⟩ := hopen (by cases part <;> simp [Part.phase])
    exact ⟨_, _, .leave n d part, hp⟩
  | finishClass =>
    obtain rfl := Option.some.inj he
    cases q <;> simp [transition] at ht
    obtain ⟨d, rfl⟩ := hopen (by simp)
    exact ⟨_, _, .finishClass n d, ht⟩

theorem Moves.transition_eq {ev : Event} (h : Moves m op answer m') (he : op.event? = some ev) :
    transition m.phase ev = some m'.phase := by
  cases h with
  | setLine => simp [Operation.event?] at he
  | advanceToProperties => simp [Operation.event?] at he
  | advanceToMethods => simp [Operation.event?] at he
  | advanceOut => simp [Operation.event?] at he
  | finish => simp [Operation.event?] at he
  | @enter n d part h =>
    obtain rfl := Option.some.inj he
    cases part <;> rfl
  | leave n d part =>
    obtain rfl := Option.some.inj he
    cases part <;> rfl
  | _ =>
    obtain rfl := Option.some.inj he
    rfl

theorem call_enter_present (n : Nat) {d : Draft} {part : Part} (h : d.has part = true) :
    Machine.call ⟨.header, n, some d⟩ (.enter part) =
      (.error ⟨n, .partPresent part⟩, ⟨.header, n, some d⟩) := by
  simp [call, enter_header, h, Outcome.silent, Outcome.andThen]

theorem call_advance_present (n : Nat) {d : Draft} (h : d.has .methods = true) :
    Machine.call ⟨.properties, n, some d⟩ .advance =
      (.error ⟨n, .partPresent .methods⟩, ⟨.header, n, some d⟩) := by
  have hl : Machine.leave ⟨.properties, n, some d⟩ .properties = (.ok (), ⟨.header, n, some d⟩) :=
    rfl
  simp [call, advance, hl, enter_header, h, Outcome.andThen]

theorem effect_call_of_event (hm : m.Coherent) {ev : Event} (he : op.event? = some ev) :
    Effect m op (m.call op) := by
  cases ht : transition m.phase ev with
  | none =>
    rw [call_of_transition_eq_none he ht]
    exact .refused (by simp)
  | some p =>
    by_cases hpresent : ∃ part d, op = .enter part ∧ m.draft = some d ∧ d.has part = true
    · obtain ⟨part, d, rfl, hd, h⟩ := hpresent
      obtain ⟨q, n, d?⟩ := m
      obtain rfl : d? = some d := hd
      obtain rfl : q = .header := by
        obtain rfl := Option.some.inj he
        cases part <;> cases q <;> simp [transition, Part.entering] at ht <;> rfl
      rw [call_enter_present n h]
      exact .refused (by simp)
    · obtain ⟨answer, m', h, -⟩ := exists_moves hm he ht fun part hop d hd =>
        Bool.eq_false_iff.2 fun h => hpresent ⟨part, d, hop, hd, h⟩
      rw [call_of_moves h]
      exact .moves h

theorem effect_call_advance (hm : m.Coherent) : Effect m .advance (m.call .advance) := by
  cases hm with
  | outside n => exact .refused (by simp)
  | @inside p hp n d =>
    cases p with
    | outside => exact absurd rfl hp
    | header =>
      by_cases h : d.has .properties = true
      · have hc : Machine.call ⟨.header, n, some d⟩ .advance =
            (.error ⟨n, .partPresent .properties⟩, ⟨.header, n, some d⟩) := by
          simp [call, advance, enter_header, h, Outcome.andThen]
        rw [hc]
        exact .refused (by simp)
      · have hm := Moves.advanceToProperties n (Bool.eq_false_iff.2 h)
        rw [call_of_moves hm]
        exact .moves hm
    | properties =>
      by_cases h : d.has .methods = true
      · rw [call_advance_present n h]
        exact .leftProperties rfl rfl rfl h
      · have hm := Moves.advanceToMethods n (Bool.eq_false_iff.2 h)
        rw [call_of_moves hm]
        exact .moves hm
    | methods => exact .moves (.advanceOut n d)

theorem effect_call (hm : m.Coherent) (op : Operation) : Effect m op (m.call op) := by
  cases he : op.event? with
  | some ev => exact effect_call_of_event hm he
  | none =>
    cases op with
    | setLine n => exact .moves (.setLine m n)
    | advance => exact effect_call_advance hm
    | finish =>
      cases hm with
      | outside n => exact .moves (.finish n)
      | @inside p hp n d =>
        have hc : Machine.call ⟨p, n, some d⟩ .finish =
            (.error ⟨n, .unexpectedEnd p⟩, ⟨p, n, some d⟩) := by
          simp [call, Machine.finish, hp, Except.map]
        rw [hc]
        exact .refused (by simp)
    | _ => simp [Operation.event?] at he

theorem exists_moves_of_isOk (hm : m.Coherent) (hok : (m.call op).1.isOk = true) :
    ∃ answer, Moves m op answer (m.call op).2 := by
  have he := effect_call hm op
  generalize m.call op = r at he hok ⊢
  cases he with
  | moves h => exact ⟨_, h⟩
  | refused => cases hok
  | leftProperties => cases hok

theorem Moves.coherent (h : Moves m op answer m') (hm : m.Coherent) : m'.Coherent := by
  cases h with
  | setLine _ n =>
    cases hm with
    | outside => exact .outside n
    | inside hp _ d => exact .inside hp n d
  | @enter n d part => exact .inside (by cases part <;> simp [Part.phase]) n _
  | finishClass | advanceOut | finish => exact .outside _
  | _ => exact .inside (by simp) _ _

end Machine

end ClassNotation
