import ClassNotation.Diagram.Basic
import ClassNotation.Java.TypeName

/-! The Java source of a class. Properties come first, then constructors, then the other
methods; each group that has members opens with a blank line. -/

namespace ClassNotation.Java

def generatorName : Text :=
  "java".toList

def generatorVersion : Text :=
  "0.1.0".toList

def fileExtension : Text :=
  "java".toList

def indent : Text :=
  "    ".toList

/-- The body of a method, which has no statements. -/
def emptyBody : Text :=
  [' ', '{', '\n'] ++ indent ++ ['}']

def modifiers (v : Visibility) (isStatic : Bool) : Text :=
  if isStatic then v.keyword ++ ' ' :: staticWord else v.keyword

def propertyText (p : Property) : Text :=
  indent ++ modifiers p.visibility p.isStatic ++ ' ' :: typeName p.type ++ ' ' :: p.name ++ [';']

def parameterText (p : Parameter) : Text :=
  typeName p.type ++ ' ' :: p.name

def parametersText (ps : List Parameter) : Text :=
  ", ".toList.intercalate (ps.map parameterText)

def methodHead (m : Method) : Text :=
  indent ++ modifiers m.visibility m.isStatic ++ ' ' :: typeName (m.result.getD "void".toList) ++
    ' ' :: m.name ++ '(' :: parametersText m.parameters ++ [')']

/-- A method of an interface is only declared. -/
def methodText (inInterface : Bool) (m : Method) : Text :=
  methodHead m ++ if inInterface then [';'] else emptyBody

def constructorText (m : Method) : Text :=
  indent ++ m.visibility.keyword ++ ' ' :: m.name ++ '(' :: parametersText m.parameters ++
    ')' :: emptyBody

def classKind : Option Qualifier → Text
  | some .interface => "interface".toList
  | some .abstract => "abstract class".toList
  | none => "class".toList

def extendsClause (r : Relation) : Text :=
  match r.kind with
  | .generalization => " extends ".toList ++ className r.target
  | _ => []

def implemented (b : ClassBlock) : List Text :=
  (b.relations.filter (·.kind = .realization)).map fun r => className r.target

def implementsClause (names : List Text) : Text :=
  if names = [] then [] else " implements ".toList ++ ", ".toList.intercalate names

def classHead (b : ClassBlock) : Text :=
  "public ".toList ++ classKind b.qualifier ++ ' ' :: b.name ++
    b.relations.flatMap extendsClause ++ implementsClause (implemented b)

def memberGroup (separator : Text) (members : List Text) : Text :=
  if members = [] then [] else '\n' :: separator.intercalate members ++ ['\n']

def packageClause (package : Option Text) : Text :=
  match package with
  | some p => "package ".toList ++ p ++ ";\n\n".toList
  | none => []

def source (package : Option Text) (b : ClassBlock) : Text :=
  packageClause package ++ classHead b ++ [' ', '{', '\n'] ++
    memberGroup "\n".toList (b.properties.map propertyText) ++
    memberGroup "\n\n".toList (b.constructors.map constructorText) ++
    memberGroup (if b.isInterface then "\n".toList else "\n\n".toList)
      (b.operations.map (methodText b.isInterface)) ++
    ['}']

abbrev Sources := TextMap Text

/-- Of two blocks of one name the later counts. -/
def sources (package : Option Text) (blocks : List ClassBlock) : Sources :=
  TextMap.ofList (blocks.map fun b => (b.name, source package b))

/-- All sources in one text, each behind a comment that names its file. -/
def listing (s : Sources) (extension : Text) : Text :=
  "\n".toList.intercalate (s.entries.map fun (name, text) =>
    "// ".toList ++ name ++ '.' :: extension ++ '\n' :: text ++ ['\n'])

end ClassNotation.Java
