import ClassNotation.Text.Letters

/-! Types as Java spells them. The notation has its own word for strings, and only a whole
identifier is that word. -/

namespace ClassNotation.Java

def spelling (identifier : Text) : Text :=
  if identifier = "str".toList then "String".toList else identifier

/-- Spells a type whose last identifier has begun with `word`. -/
def typeNameFrom (word : Text) : Text → Text
  | [] => spelling word
  | c :: t =>
    if isIdentifierChar c then typeNameFrom (word ++ [c]) t
    else spelling word ++ c :: typeNameFrom [] t

def typeName (t : Text) : Text :=
  typeNameFrom [] t

example : typeName "Map<str, str_[]>".toList = "Map<String, str_[]>".toList := by
  decide +kernel

end ClassNotation.Java
