import ClassNotation.Text.Basic

/-! The closed vocabularies of the notation. Each word list is stated once, and reading a
word looks it up in the list that is used for writing. -/

namespace ClassNotation

inductive Visibility where
  | pub
  | priv
  | prot
  deriving DecidableEq, Repr

namespace Visibility

def all : List Visibility :=
  [.pub, .priv, .prot]

def symbol : Visibility → Text
  | .pub => "+".toList
  | .priv => "-".toList
  | .prot => "#".toList

def keyword : Visibility → Text
  | .pub => "public".toList
  | .priv => "private".toList
  | .prot => "protected".toList

def ofSymbol? (t : Text) : Option Visibility :=
  all.find? (·.symbol = t)

theorem ofSymbol?_symbol (v : Visibility) : ofSymbol? v.symbol = some v := by
  cases v <;> rfl

theorem ofSymbol?_eq_some_iff {t : Text} {v : Visibility} :
    ofSymbol? t = some v ↔ t = v.symbol := by
  constructor
  · intro h
    rw [ofSymbol?] at h
    have := List.find?_some h
    exact (of_decide_eq_true this).symm
  · rintro rfl
    exact ofSymbol?_symbol v

end Visibility

/-- What a class header may say after the name. -/
inductive Qualifier where
  | interface
  | abstract
  deriving DecidableEq, Repr

namespace Qualifier

def all : List Qualifier :=
  [.interface, .abstract]

def token : Qualifier → Text
  | .interface => "<Interface>".toList
  | .abstract => "<Abstract>".toList

def ofToken? (t : Text) : Option Qualifier :=
  all.find? (·.token = t)

theorem ofToken?_token (q : Qualifier) : ofToken? q.token = some q := by
  cases q <;> rfl

theorem ofToken?_eq_some_iff {t : Text} {q : Qualifier} :
    ofToken? t = some q ↔ t = q.token := by
  constructor
  · intro h
    rw [ofToken?] at h
    have := List.find?_some h
    exact (of_decide_eq_true this).symm
  · rintro rfl
    exact ofToken?_token q

end Qualifier

/-- Which end of a relation the class that declares it stands on. -/
inductive Direction where
  | forward
  | inverse
  deriving DecidableEq, Repr

inductive RelationKind where
  | generalization
  | realization
  | association
  | directedAssociation
  | composition
  | aggregation
  deriving DecidableEq, Repr

namespace RelationKind

def all : List RelationKind :=
  [.generalization, .realization, .association, .directedAssociation, .composition, .aggregation]

def keyword : RelationKind → Text
  | .generalization => "extends".toList
  | .realization => "implements".toList
  | .association => "association".toList
  | .directedAssociation => "directionalAssociation".toList
  | .composition => "composes".toList
  | .aggregation => "aggregates".toList

/-- A class that composes or aggregates others is the end that their relations point to. -/
def direction : RelationKind → Direction
  | .composition => .inverse
  | .aggregation => .inverse
  | _ => .forward

def name : RelationKind → Text
  | .generalization => "generalization".toList
  | .realization => "generalizationInterface".toList
  | .association => "association".toList
  | .directedAssociation => "directionalAssociation".toList
  | .composition => "composition".toList
  | .aggregation => "aggregation".toList

def ofKeyword? (t : Text) : Option RelationKind :=
  all.find? (·.keyword = t)

theorem ofKeyword?_keyword (k : RelationKind) : ofKeyword? k.keyword = some k := by
  cases k <;> rfl

theorem ofKeyword?_eq_some_iff {t : Text} {k : RelationKind} :
    ofKeyword? t = some k ↔ t = k.keyword := by
  constructor
  · intro h
    rw [ofKeyword?] at h
    have := List.find?_some h
    exact (of_decide_eq_true this).symm
  · rintro rfl
    exact ofKeyword?_keyword k

end RelationKind

def readerName : Text :=
  "class".toList

def readerVersion : Text :=
  "0.1.0".toList

/-- Starts a comment that runs to the end of its line. -/
def commentMark : Text :=
  "//".toList

/-- Opens a line that separates the parts of a class block. -/
def separatorMark : Text :=
  "---".toList

/-- Marks a member that belongs to the class and not to its instances. -/
def staticWord : Text :=
  "static".toList

end ClassNotation
