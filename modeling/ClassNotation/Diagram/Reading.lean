import ClassNotation.Diagram.Basic
import ClassNotation.Line.Header
import ClassNotation.Line.Relation
import ClassNotation.Line.Property
import ClassNotation.Line.Method
import ClassNotation.Machine

/-! Reading a diagram. Only lines with content count: each moves the machine on, as the phase
it is in reads the line, and the first fault ends the reading. -/

namespace ClassNotation

/-- What stands in front of a comment, or the whole line. -/
def beforeComment : Text → Text
  | [] => []
  | c :: t => if commentMark.isPrefixOf (c :: t) then [] else c :: beforeComment t

def stripComment (line : Text) : Text :=
  (beforeComment line).trim

def isSeparator (line : Text) : Bool :=
  separatorMark.isPrefixOf line

/-- A line that is not empty without its comment. -/
structure ContentLine where
  number : Nat
  text : Text
  deriving DecidableEq, Repr

/-- The content of some lines, of which the first has the given number. -/
def contentFrom (number : Nat) : List Text → List ContentLine
  | [] => []
  | line :: lines =>
    if stripComment line = [] then contentFrom (number + 1) lines
    else ⟨number, stripComment line⟩ :: contentFrom (number + 1) lines

def contentLines (t : Text) : List ContentLine :=
  contentFrom 1 t.lines

namespace Machine

/-- Adds relations of one kind, and stops at the first failure. -/
def addRelations (m : Machine) (kind : RelationKind) : List Text → Outcome Unit
  | [] => (.ok (), m)
  | related :: rest =>
    (m.addRelation related kind kind.direction).andThen fun _ m => m.addRelations kind rest

/-- Reads a line that is not a separator, as the phase asks for. -/
def readDeclaration (m : Machine) (line : Text) : Outcome Unit :=
  match m.phase with
  | .outside =>
    match Header.read line with
    | .ok h => m.startClass h.name h.qualifier
    | .error f => m.fail f
  | .header =>
    match RelationLine.read line with
    | .ok r => m.addRelations r.kind r.related
    | .error f => m.fail f
  | .properties =>
    match Property.read line with
    | .ok p => m.addProperty p
    | .error f => m.fail f
  | .methods =>
    match Method.read (m.className?.getD []) line with
    | .ok method => m.addMethod method
    | .error f => m.fail f

/-- Reads a line. A separator that closes a class answers with its block. -/
def readLine (m : Machine) (l : ContentLine) : Outcome (Option ClassBlock) :=
  if isSeparator l.text then (m.setLine l.number).advance
  else ((m.setLine l.number).readDeclaration l.text).andThen fun _ m => (.ok none, m)

/-- Reads lines up to the first fault, and answers with the blocks that were closed. -/
def readLines (m : Machine) : List ContentLine → Except ParseError (List ClassBlock × Machine)
  | [] => .ok ([], m)
  | l :: ls =>
    match m.readLine l with
    | (.error e, _) => .error e
    | (.ok block?, m) =>
      match m.readLines ls with
      | .error e => .error e
      | .ok (blocks, m) => .ok (block?.toList ++ blocks, m)

end Machine

/-- A text without content is refused, and so is one that ends inside a block. -/
def readBlocks (t : Text) : Except ParseError (List ClassBlock) :=
  match contentLines t with
  | [] => .error ⟨0, .emptyInput⟩
  | l :: ls =>
    match Machine.start.readLines (l :: ls) with
    | .error e => .error e
    | .ok (blocks, m) =>
      match (m.setLine t.lines.length).finish with
      | .error e => .error e
      | .ok () => .ok blocks

namespace Diagram

/-- Reads a text behind what the diagram has already. -/
def extend (d : Diagram) (t : Text) : Except ParseError Diagram :=
  (readBlocks t).map d.append

def parse (t : Text) : Except ParseError Diagram :=
  empty.extend t

/-- Reads a text into a diagram that is kept: a text that is refused leaves it as it is. -/
def readInto (d : Diagram) (t : Text) : Except ParseError Unit × Diagram :=
  match d.extend t with
  | .ok d => (.ok (), d)
  | .error e => (.error e, d)

end Diagram

end ClassNotation
