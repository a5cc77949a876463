import ClassNotation.TextMap
import ClassNotation.Text.Blank
import ClassNotation.Vocabulary

/-! What a diagram says about one class: its members and its relations. The set `relates`
holds the other ends of the relations as they are written in the block. -/

namespace ClassNotation

structure Parameter where
  name : Text
  type : Text
  deriving DecidableEq, Repr

structure Property where
  name : Text
  type : Text
  visibility : Visibility
  isStatic : Bool
  deriving DecidableEq, Repr

/-- A method or, without a result, a constructor. -/
structure Method where
  name : Text
  visibility : Visibility
  isStatic : Bool
  parameters : List Parameter
  result : Option Text
  deriving DecidableEq, Repr

def Method.isConstructor (m : Method) : Bool :=
  m.result.isNone

/-- A relation reads from its source to its target, whichever class declares it. -/
structure Relation where
  source : Text
  target : Text
  kind : RelationKind
  deriving DecidableEq, Repr

def Relation.declaredBy (owner related : Text) (kind : RelationKind) : Direction → Relation
  | .forward => ⟨owner, related, kind⟩
  | .inverse => ⟨related, owner, kind⟩

structure ClassBlock where
  name : Text
  qualifier : Option Qualifier
  properties : List Property
  methods : List Method
  relations : List Relation
  relates : TextSet
  deriving DecidableEq

namespace ClassBlock

def constructors (b : ClassBlock) : List Method :=
  b.methods.filter (·.isConstructor)

def operations (b : ClassBlock) : List Method :=
  b.methods.filter (!·.isConstructor)

def isInterface (b : ClassBlock) : Bool :=
  b.qualifier == some .interface

theorem length_constructors_add_operations (b : ClassBlock) :
    b.constructors.length + b.operations.length = b.methods.length := by
  simp only [constructors, operations]
  induction b.methods with
  | nil => rfl
  | cons m ms ih => cases h : m.isConstructor <;> simp [h] <;> omega

end ClassBlock

/-- The name of the class in a reference such as `Shape <Interface>`: the first word, or the
reference itself if it has none. -/
def className (reference : Text) : Text :=
  (reference.words.head?).getD reference

end ClassNotation
