import ClassNotation.Text.Basic

/-! JSON documents of texts, arrays and objects, with a compact and an indented form. Objects
keep their members in the order given. -/

namespace ClassNotation

inductive Json where
  | text (t : Text)
  | array (items : List Json)
  | object (members : List (Text × Json))

namespace Json

/-- The escape of a character inside quotes. Quotes, backslashes and control characters below
the blank have one. -/
def escape (c : Char) : Text :=
  if c = '"' then ['\\', '"']
  else if c = '\\' then ['\\', '\\']
  else if c = '\x08' then ['\\', 'b']
  else if c = '\t' then ['\\', 't']
  else if c = '\n' then ['\\', 'n']
  else if c = '\x0c' then ['\\', 'f']
  else if c = '\r' then ['\\', 'r']
  else if c < ' ' then
    ['\\', 'u', '0', '0', Nat.digitChar (c.toNat / 16), Nat.digitChar (c.toNat % 16)]
  else [c]

def quoted (t : Text) : Text :=
  '"' :: t.flatMap escape ++ ['"']

mutual

def compact : Json → Text
  | .text t => quoted t
  | .array items => '[' :: compactItems items ++ [']']
  | .object members => '{' :: compactMembers members ++ ['}']

def compactItems : List Json → Text
  | [] => []
  | [j] => compact j
  | j :: rest => compact j ++ ',' :: compactItems rest

def compactMembers : List (Text × Json) → Text
  | [] => []
  | [(k, j)] => quoted k ++ ':' :: compact j
  | (k, j) :: rest => quoted k ++ ':' :: compact j ++ ',' :: compactMembers rest

end

/-- A line feed and the indentation of a depth, two blanks each. -/
def newLine (depth : Nat) : Text :=
  '\n' :: List.replicate (2 * depth) ' '

mutual

/-- The indented form of a value inside `depth` others. -/
def pretty (depth : Nat) : Json → Text
  | .text t => quoted t
  | .array [] => "[]".toList
  | .array (j :: rest) =>
    '[' :: prettyItems (depth + 1) (j :: rest) ++ newLine depth ++ [']']
  | .object [] => ['{', '}']
  | .object (m :: rest) =>
    '{' :: prettyMembers (depth + 1) (m :: rest) ++ newLine depth ++ ['}']

def prettyItems (depth : Nat) : List Json → Text
  | [] => []
  | [j] => newLine depth ++ pretty depth j
  | j :: rest => newLine depth ++ pretty depth j ++ ',' :: prettyItems depth rest

def prettyMembers (depth : Nat) : List (Text × Json) → Text
  | [] => []
  | [(k, j)] => newLine depth ++ quoted k ++ ": ".toList ++ pretty depth j
  | (k, j) :: rest =>
    newLine depth ++ quoted k ++ ": ".toList ++ pretty depth j ++ ',' :: prettyMembers depth rest

end

example : quoted "a\"\\\t\x1f".toList = "\"a\\\"\\\\\\t\\u001f\"".toList := rfl

example : compact (.object [("a".toList, .array []), ("b".toList, .text [])]) =
    "\x7b\"a\":[],\"b\":\"\"\x7d".toList := rfl

example : pretty 0 (.object [("a".toList, .array [.text "x".toList])]) =
    "\x7b\n  \"a\": [\n    \"x\"\n  ]\n\x7d".toList := rfl

end Json

end ClassNotation
