import ClassNotation.Phase

/-! The causes for which a diagram is refused, each with what its message shows. -/

namespace ClassNotation

inductive Fault where
  | wrongPhase (attempt : Attempt) (phase : Phase)
  | partPresent (part : Part)
  | unknownVisibility (symbol : Text)
  | unknownRelation (keyword : Text)
  | unknownQualifier (token : Text)
  | malformedHeader (line : Text)
  | malformedRelation (line : Text)
  | malformedProperty (line : Text)
  | malformedParameters (list : Text)
  | malformedSignature (line : Text)
  | unbalancedBrackets (type : Text)
  | missingResult (method : Text)
  | unexpectedResult (constructor : Text)
  | emptyInput
  | unexpectedEnd (phase : Phase)
  deriving DecidableEq, Repr

def Fault.message : Fault → Text
  | .wrongPhase attempt phase =>
    "cannot ".toList ++ attempt.description ++ " while in state '".toList ++ phase.name ++
      "'".toList
  | .partPresent part =>
    "the ".toList ++ part.name ++ " section is already present for this class".toList
  | .unknownVisibility symbol => "unknown visibility: ".toList ++ symbol
  | .unknownRelation keyword => "unknown relation: ".toList ++ keyword
  | .unknownQualifier token => "unknown class qualifier: ".toList ++ token
  | .malformedHeader line => "malformed class header: ".toList ++ line
  | .malformedRelation line => "malformed relation: ".toList ++ line
  | .malformedProperty line => "malformed attribute: ".toList ++ line
  | .malformedParameters list => "malformed parameter list: ".toList ++ list
  | .malformedSignature line => "malformed method signature: ".toList ++ line
  | .unbalancedBrackets type => "unbalanced generic brackets: ".toList ++ type
  | .missingResult method => "method '".toList ++ method ++ "' is missing a return type".toList
  | .unexpectedResult constructor =>
    "constructor '".toList ++ constructor ++ "' must not declare a return type".toList
  | .emptyInput => "no text found".toList
  | .unexpectedEnd phase =>
    "unexpected end of input while in state '".toList ++ phase.name ++ "'".toList

/-- A fault and the number of its line. Lines count from one. -/
structure ParseError where
  line : Nat
  fault : Fault
  deriving DecidableEq, Repr

def ParseError.message (e : ParseError) : Text :=
  "Line ".toList ++ Text.ofNat e.line ++ ": ".toList ++ e.fault.message

end ClassNotation
