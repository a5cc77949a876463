import ClassNotation.ClassBlock
import ClassNotation.Fault

/-! A machine that builds class blocks, one operation at a time. An operation answers with a
result and the machine after it, so what a failed operation leaves behind can be stated. -/

namespace ClassNotation

/-- The open block. A part is absent until it has been entered. -/
structure Draft where
  name : Text
  qualifier : Option Qualifier
  relations : List Relation
  relates : TextSet
  properties : Option (List Property)
  methods : Option (List Method)
  deriving DecidableEq

namespace Draft

def start (name : Text) (qualifier : Option Qualifier) : Draft :=
  ⟨name, qualifier, [], TextMap.empty, none, none⟩

def has (d : Draft) : Part → Bool
  | .properties => d.properties.isSome
  | .methods => d.methods.isSome

def enter (d : Draft) : Part → Draft
  | .properties => { d with properties := some [] }
  | .methods => { d with methods := some [] }

def addRelation (d : Draft) (related : Text) (kind : RelationKind) (direction : Direction) :
    Draft :=
  { d with
    relations := d.relations ++ [Relation.declaredBy d.name related kind direction]
    relates := TextSet.insert d.relates related }

def addProperty (d : Draft) (p : Property) : Draft :=
  { d with properties := some (d.properties.getD [] ++ [p]) }

def addMethod (d : Draft) (m : Method) : Draft :=
  { d with methods := some (d.methods.getD [] ++ [m]) }

def finish (d : Draft) : ClassBlock :=
  ⟨d.name, d.qualifier, d.properties.getD [], d.methods.getD [], d.relations, d.relates⟩

end Draft

structure Machine where
  phase : Phase
  line : Nat
  draft : Option Draft
  deriving DecidableEq

abbrev Outcome (α : Type) := Except ParseError α × Machine

/-- Goes on with the machine of a success; a failure ends the operation. -/
def Outcome.andThen {α β : Type} (r : Outcome α) (next : α → Machine → Outcome β) : Outcome β :=
  match r with
  | (.ok a, m) => next a m
  | (.error e, m) => (.error e, m)

namespace Machine

def start : Machine :=
  ⟨.outside, 0, none⟩

def setLine (m : Machine) (n : Nat) : Machine :=
  { m with line := n }

def className? (m : Machine) : Option Text :=
  m.draft.map (·.name)

/-- Refuses and changes nothing. -/
def fail {α : Type} (m : Machine) (f : Fault) : Outcome α :=
  (.error ⟨m.line, f⟩, m)

def fire (m : Machine) (e : Event) : Outcome Unit :=
  match transition m.phase e with
  | some phase => (.ok (), { m with phase := phase })
  | none => m.fail (.wrongPhase (.event e) m.phase)

def modifyDraft (m : Machine) (change : Draft → Draft) : Outcome Unit :=
  match m.draft with
  | some d => (.ok (), { m with draft := some (change d) })
  | none => m.fail (.wrongPhase .modifyClass m.phase)

def startClass (m : Machine) (name : Text) (qualifier : Option Qualifier) : Outcome Unit :=
  (m.fire .startClass).andThen fun _ m => (.ok (), { m with draft := some (.start name qualifier) })

def addRelation (m : Machine) (related : Text) (kind : RelationKind) (direction : Direction) :
    Outcome Unit :=
  (m.fire .addRelation).andThen fun _ m => m.modifyDraft (·.addRelation related kind direction)

/-- A part is entered once for each class. -/
def enter (m : Machine) (part : Part) : Outcome Unit :=
  if m.phase = .header ∧ m.draft.any (·.has part) then m.fail (.partPresent part)
  else (m.fire part.entering).andThen fun _ m => m.modifyDraft (·.enter part)

def leave (m : Machine) (part : Part) : Outcome Unit :=
  m.fire part.leaving

def addProperty (m : Machine) (p : Property) : Outcome Unit :=
  (m.fire .addProperty).andThen fun _ m => m.modifyDraft (·.addProperty p)

def addMethod (m : Machine) (method : Method) : Outcome Unit :=
  (m.fire .addMethod).andThen fun _ m => m.modifyDraft (·.addMethod method)

def finishClass (m : Machine) : Outcome ClassBlock :=
  (m.fire .finishClass).andThen fun _ m =>
    match m.draft with
    | some d => (.ok d.finish, { m with draft := none })
    | none => m.fail (.wrongPhase (.event .finishClass) .outside)

/-- Passes a separator line. Behind the header the properties begin, behind the properties the
methods, and behind the methods the class is complete. -/
def advance (m : Machine) : Outcome (Option ClassBlock) :=
  match m.phase with
  | .outside => m.fail (.wrongPhase .closeSection .outside)
  | .header => (m.enter .properties).andThen fun _ m => (.ok none, m)
  | .properties =>
    (m.leave .properties).andThen fun _ m =>
      (m.enter .methods).andThen fun _ m => (.ok none, m)
  | .methods =>
    (m.leave .methods).andThen fun _ m =>
      m.finishClass.andThen fun b m => (.ok (some b), m)

def finish (m : Machine) : Except ParseError Unit :=
  if m.phase = .outside then .ok () else .error ⟨m.line, .unexpectedEnd m.phase⟩

end Machine

end ClassNotation
