import ClassNotation.ClassBlock

/-! A diagram is the list of its class blocks. A class may be declared more than once, and a
relation may name a class that no block declares. -/

namespace ClassNotation

structure Diagram where
  blocks : List ClassBlock
  deriving DecidableEq

namespace Diagram

def empty : Diagram :=
  ⟨[]⟩

def append (d : Diagram) (blocks : List ClassBlock) : Diagram :=
  ⟨d.blocks ++ blocks⟩

def names (d : Diagram) : List Text :=
  d.blocks.map (·.name)

def find? (d : Diagram) (name : Text) : Option ClassBlock :=
  d.blocks.find? (·.name = name)

def relations (d : Diagram) : List Relation :=
  d.blocks.flatMap (·.relations)

/-- A class that is declared more than once counts as often. -/
def classCount (d : Diagram) : Nat :=
  d.blocks.length

def relationCount (d : Diagram) : Nat :=
  d.blocks.foldr (fun b n => b.relations.length + n) 0

/-- The classes that a block refers to and no block declares. -/
def missing (d : Diagram) : TextSet :=
  TextSet.ofList (((d.blocks.flatMap (TextSet.toList ·.relates)).map className).filter
    (· ∉ d.names))

end Diagram

end ClassNotation
