import ClassNotation.Vocabulary

/-! Where a reader of a diagram stands relative to a class block, and the events that move
it. The table `transition` alone says which event is legal where. -/

namespace ClassNotation

inductive Phase where
  | outside
  | header
  | properties
  | methods
  deriving DecidableEq, Repr

def Phase.name : Phase → Text
  | .outside => "ROOT".toList
  | .header => "CLASS".toList
  | .properties => "ATTR".toList
  | .methods => "METHOD".toList

inductive Event where
  | startClass
  | addRelation
  | enterProperties
  | addProperty
  | leaveProperties
  | enterMethods
  | addMethod
  | leaveMethods
  | finishClass
  deriving DecidableEq, Repr

def Event.description : Event → Text
  | .startClass => "start a class".toList
  | .addRelation => "add a relation".toList
  | .enterProperties => "enter the properties section".toList
  | .addProperty => "add a property".toList
  | .leaveProperties => "leave the properties section".toList
  | .enterMethods => "enter the methods section".toList
  | .addMethod => "add a method".toList
  | .leaveMethods => "leave the methods section".toList
  | .finishClass => "finish a class".toList

/-- The phase after an event, if the event is legal. -/
def transition : Phase → Event → Option Phase
  | .outside, .startClass => some .header
  | .header, .addRelation => some .header
  | .header, .enterProperties => some .properties
  | .properties, .addProperty => some .properties
  | .properties, .leaveProperties => some .header
  | .header, .enterMethods => some .methods
  | .methods, .addMethod => some .methods
  | .methods, .leaveMethods => some .header
  | .header, .finishClass => some .outside
  | _, _ => none

inductive Part where
  | properties
  | methods
  deriving DecidableEq, Repr

namespace Part

def name : Part → Text
  | .properties => "properties".toList
  | .methods => "methods".toList

def entering : Part → Event
  | .properties => .enterProperties
  | .methods => .enterMethods

def leaving : Part → Event
  | .properties => .leaveProperties
  | .methods => .leaveMethods

end Part

/-- What may be tried in the wrong phase. -/
inductive Attempt where
  | event (e : Event)
  | closeSection
  | modifyClass
  deriving DecidableEq, Repr

def Attempt.description : Attempt → Text
  | .event e => e.description
  | .closeSection => "close a section without an open class".toList
  | .modifyClass => "modify a class without an open class".toList

end ClassNotation
