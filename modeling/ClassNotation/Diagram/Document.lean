import ClassNotation.Diagram.Basic
import ClassNotation.Json

/-! A diagram as a JSON document. What is absent from the model has no member. -/

namespace ClassNotation

def Visibility.toJson (v : Visibility) : Json :=
  .text v.keyword

def scopeMember (isStatic : Bool) : List (Text × Json) :=
  if isStatic then [("scope".toList, .text "class".toList)] else []

def Property.toJson (p : Property) : Json :=
  .object ([("name".toList, .text p.name), ("type".toList, .text p.type),
    ("visibility".toList, p.visibility.toJson)] ++ scopeMember p.isStatic)

def Parameter.toJson (p : Parameter) : Json :=
  .object [("name".toList, .text p.name), ("type".toList, .text p.type)]

def Method.toJson (m : Method) : Json :=
  .object ([("name".toList, .text m.name), ("visibility".toList, m.visibility.toJson)] ++
    scopeMember m.isStatic ++ [("parameters".toList, .array (m.parameters.map Parameter.toJson))] ++
    (m.result.map fun type => ("type".toList, Json.text type)).toList)

def Relation.toJson (r : Relation) : Json :=
  .object [("from".toList, .text r.source), ("to".toList, .text r.target),
    ("relationship".toList, .text r.kind.name)]

namespace ClassBlock

def contextJson (b : ClassBlock) : Json :=
  .object ([("name".toList, .text b.name)] ++
    (b.qualifier.map fun q => ("qualifier".toList, Json.text q.token)).toList ++
    [("properties".toList, .array (b.properties.map Property.toJson)),
      ("methods".toList, .array (b.methods.map Method.toJson))])

def toJson (b : ClassBlock) : Json :=
  .object [("context".toList, b.contextJson),
    ("relations".toList, .array (b.relations.map Relation.toJson)),
    ("relates".toList, .array ((TextSet.toList b.relates).map Json.text))]

end ClassBlock

def Diagram.toJson (d : Diagram) : Json :=
  .object [("classes".toList, .array (d.blocks.map ClassBlock.toJson))]

end ClassNotation
