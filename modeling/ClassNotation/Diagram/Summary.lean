import ClassNotation.Diagram.Basic

/-! The summary of a diagram: a line for each class, followed by an indented line for each of
its relations. -/

namespace ClassNotation

namespace ClassBlock

def summaryLine (b : ClassBlock) : Text :=
  b.name ++ (b.qualifier.map (' ' :: ·.token)).getD [] ++
    " (".toList ++ Text.ofNat b.properties.length ++
    " properties, ".toList ++ Text.ofNat b.constructors.length ++
    " constructors, ".toList ++ Text.ofNat b.operations.length ++ " methods)".toList

end ClassBlock

def Relation.summaryLine (r : Relation) : Text :=
  "  ".toList ++ className r.source ++ " --".toList ++ r.kind.name ++ "--> ".toList ++
    className r.target

namespace ClassBlock

def summaryLines (b : ClassBlock) : List Text :=
  b.summaryLine :: b.relations.map Relation.summaryLine

end ClassBlock

namespace Diagram

def summaryLines (d : Diagram) : List Text :=
  d.blocks.flatMap (·.summaryLines)

/-- Every line of a summary is closed. -/
def summary (d : Diagram) : Text :=
  d.summaryLines.flatMap (· ++ ['\n'])

end Diagram

end ClassNotation
