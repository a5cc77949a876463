import ClassNotation.LogSettings

/-! The arguments of the command line. An option given apart from its value stays open until
another option or the end of its part of the line is reached, and is judged only then. -/

namespace ClassNotation

/-- Options that stand for themselves. -/
inductive Switch where
  | verbose
  | json
  | help
  | version
  deriving DecidableEq, Repr

/-- Options that take a value. -/
inductive Slot where
  | logLevel
  | logFormat
  | input
  | package
  | outputDirectory
  | output
  deriving DecidableEq, Repr

/-- A path must not be empty, but a package may be. -/
def Slot.accepts (s : Slot) (value : Text) : Bool :=
  match s with
  | .logLevel => (LogLevel.ofName? value).isSome
  | .logFormat => (LogFormat.ofName? value).isSome
  | .package => true
  | .input | .outputDirectory | .output => value ≠ []

inductive Verb where
  | parse
  | generate
  | validate
  | sample
  deriving DecidableEq, Repr

namespace Verb

def all : List Verb :=
  [.parse, .generate, .validate, .sample]

def name : Verb → Text
  | .parse => "parse".toList
  | .generate => "generate".toList
  | .validate => "validate".toList
  | .sample => "example".toList

def ofName? (t : Text) : Option Verb :=
  all.find? (·.name = t)

end Verb

def helpVerb : Text :=
  "help".toList

/-- Why no command is run. Asking for help or for the version is among the reasons. -/
inductive Refusal where
  | invalidValue
  | unknownArgument
  | repeatedArgument
  | unwantedValue
  | unknownVerb
  | missingVerb
  | nothingGiven
  | helpWanted
  | versionWanted
  deriving DecidableEq, Repr

def Refusal.message : Refusal → Text
  | .invalidValue => "a value is missing or not allowed".toList
  | .unknownArgument => "an argument is not known here".toList
  | .repeatedArgument => "an option is given twice".toList
  | .unwantedValue => "an option takes no value".toList
  | .unknownVerb => "the command is not known".toList
  | .missingVerb => "a command is missing".toList
  | .nothingGiven | .helpWanted => "commands: parse, generate, validate, example, help".toList
  | .versionWanted => []

def Refusal.exitCode : Refusal → Nat
  | .helpWanted | .versionWanted => 0
  | _ => 2

structure OptionName where
  long : Text
  short : Option Char
  meaning : Switch ⊕ Slot
  deriving DecidableEq, Repr

def helpOption : OptionName :=
  ⟨"help".toList, some 'h', .inl .help⟩

def inputOption : OptionName :=
  ⟨"input".toList, some 'i', .inr .input⟩

/-- The options in front of the verb, or behind one. -/
def optionNames : Option Verb → List OptionName
  | none =>
    [⟨"verbose".toList, some 'v', .inl .verbose⟩, ⟨"log-level".toList, none, .inr .logLevel⟩,
      ⟨"log-format".toList, none, .inr .logFormat⟩, helpOption,
      ⟨"version".toList, some 'V', .inl .version⟩]
  | some .parse => [inputOption, ⟨"json".toList, none, .inl .json⟩, helpOption]
  | some .generate =>
    [inputOption, ⟨"package".toList, some 'p', .inr .package⟩,
      ⟨"output-dir".toList, some 'o', .inr .outputDirectory⟩, helpOption]
  | some .validate => [inputOption, helpOption]
  | some .sample => [⟨"output".toList, some 'o', .inr .output⟩, helpOption]

def ofLong? (verb : Option Verb) (name : Text) : Option (Switch ⊕ Slot) :=
  ((optionNames verb).find? (·.long = name)).map (·.meaning)

def ofShort? (verb : Option Verb) (c : Char) : Option (Switch ⊕ Slot) :=
  ((optionNames verb).find? (·.short = some c)).map (·.meaning)

/-- What has been given, and the option that is still open, with the value that follows it. -/
structure Scan where
  switches : List Switch
  values : List (Slot × Text)
  pending : Option (Slot × Option Text)
  deriving DecidableEq, Repr

namespace Scan

def start : Scan :=
  ⟨[], [], none⟩

def fill (s : Scan) (slot : Slot) (value : Text) : Except Refusal Scan :=
  if (s.values.lookup slot).isSome then .error .repeatedArgument
  else if slot.accepts value then .ok { s with values := s.values ++ [(slot, value)] }
  else .error .invalidValue

/-- Closes the open option. -/
def settle (s : Scan) : Except Refusal Scan :=
  match s.pending with
  | none => .ok s
  | some (_, none) => .error .invalidValue
  | some (slot, some value) => { s with pending := none }.fill slot value

def flip (s : Scan) (switch : Switch) : Except Refusal Scan :=
  match switch with
  | .help => .error .helpWanted
  | .version => .error .versionWanted
  | _ =>
    if switch ∈ s.switches then .error .repeatedArgument
    else .ok { s with switches := s.switches ++ [switch] }

/-- An option with a slot, and its value if one is attached. -/
def takeSlot (s : Scan) (slot : Slot) (attached : Option Text) : Except Refusal Scan :=
  match s.settle with
  | .error r => .error r
  | .ok s =>
    match attached with
    | some value => s.fill slot value
    | none => .ok { s with pending := some (slot, none) }

def takeSwitch (s : Scan) (switch : Switch) : Except Refusal Scan :=
  match s.settle with
  | .error r => .error r
  | .ok s => s.flip switch

/-- A long option, as in `--input=file` without the dashes. -/
def takeLong (verb : Option Verb) (s : Scan) (t : Text) : Except Refusal Scan :=
  let (name, attached) :=
    match Text.cutAt? (· = '=') t with
    | some (name, value) => (name, some value)
    | none => (t, none)
  match ofLong? verb name with
  | none => .error .unknownArgument
  | some (.inr slot) => s.takeSlot slot attached
  | some (.inl switch) =>
    if attached.isSome then .error .unwantedValue else s.takeSwitch switch

/-- Short options in one argument, as in `-ifile` without the dash. The first one with a slot
takes the rest, less an equals sign in front. -/
def takeShorts (verb : Option Verb) (s : Scan) : Text → Except Refusal Scan
  | [] => .ok s
  | c :: rest =>
    match ofShort? verb c with
    | none => .error .unknownArgument
    | some (.inr slot) =>
      s.takeSlot slot (match rest with
        | [] => none
        | '=' :: value => some value
        | value => some value)
    | some (.inl switch) =>
      match s.takeSwitch switch with
      | .error r => .error r
      | .ok s => s.takeShorts verb rest

def awaitsValue (s : Scan) : Bool :=
  match s.pending with
  | some (_, none) => true
  | _ => false

def supply (s : Scan) (value : Text) : Scan :=
  { s with pending := s.pending.map fun (slot, _) => (slot, some value) }

end Scan

/-- The forms of an argument. A lone dash is a word. -/
inductive ArgumentForm where
  | dashes
  | long (t : Text)
  | shorts (t : Text)
  | word
  deriving DecidableEq, Repr

def argumentForm : Text → ArgumentForm
  | '-' :: '-' :: [] => .dashes
  | '-' :: '-' :: t => .long t
  | '-' :: c :: t => .shorts (c :: t)
  | _ => .word

/-- The verbs that words behind `help` may name. No verb has verbs of its own. -/
def helpAnswer : List Text → Refusal
  | [] => .helpWanted
  | [w] => if w = helpVerb ∨ (Verb.ofName? w).isSome then .helpWanted else .unknownVerb
  | _ => .unknownVerb

/-- The first word behind two dashes, which no part of the line has a place for. -/
def strayAnswer (verb : Option Verb) (w : Text) : Refusal :=
  if verb.isNone ∧ w ≠ helpVerb ∧ (Verb.ofName? w).isNone then .unknownVerb else .unknownArgument

/-- Reads one part of the line. In front of a verb, the part ends at the verb, and what follows
it is left. -/
def scanArguments (verb : Option Verb) :
    Scan → List Text → Except Refusal (Scan × Option (Verb × List Text))
  | s, [] => .ok (s, none)
  | s, a :: rest =>
    match argumentForm a with
    | .dashes =>
      match rest with
      | [] => .ok (s, none)
      | w :: _ => .error (strayAnswer verb w)
    | .long t =>
      match s.takeLong verb t with
      | .error r => .error r
      | .ok s => scanArguments verb s rest
    | .shorts t =>
      match s.takeShorts verb t with
      | .error r => .error r
      | .ok s => scanArguments verb s rest
    | .word =>
      if s.awaitsValue then scanArguments verb (s.supply a) rest
      else if verb.isSome then .error .unknownArgument
      else if a = helpVerb then .error (helpAnswer rest)
      else
        match Verb.ofName? a with
        | some v => .ok (s, some (v, rest))
        | none => .error .unknownVerb

inductive Task where
  | parse (input : Option Text) (json : Bool)
  | generate (input package outputDirectory : Option Text)
  | validate (input : Option Text)
  | sample (output : Option Text)
  deriving DecidableEq, Repr

structure Invocation where
  task : Task
  verbose : Bool
  logLevel : LogLevel
  logFormat : LogFormat
  deriving DecidableEq, Repr

def Scan.task (s : Scan) : Verb → Task
  | .parse => .parse (s.values.lookup .input) (.json ∈ s.switches)
  | .generate =>
    .generate (s.values.lookup .input) (s.values.lookup .package)
      (s.values.lookup .outputDirectory)
  | .validate => .validate (s.values.lookup .input)
  | .sample => .sample (s.values.lookup .output)

def readTask (verb : Verb) (args : List Text) : Except Refusal Task :=
  match scanArguments (some verb) .start args with
  | .error r => .error r
  | .ok (s, _) => s.settle.map (·.task verb)

/-- The part behind the verb is judged before the option that is open in front of it. -/
def readArguments (args : List Text) : Except Refusal Invocation :=
  match scanArguments none .start args with
  | .error r => .error r
  | .ok (s, some (verb, rest)) =>
    match readTask verb rest, s.settle with
    | .error r, _ => .error r
    | .ok _, .error r => .error r
    | .ok task, .ok s =>
      .ok ⟨task, .verbose ∈ s.switches,
        ((s.values.lookup .logLevel).bind LogLevel.ofName?).getD .warn,
        ((s.values.lookup .logFormat).bind LogFormat.ofName?).getD .compact⟩
  | .ok (s, none) =>
    match s.settle with
    | .error r => .error r
    | .ok s => if s.switches = [] ∧ s.values = [] then .error .nothingGiven else .error .missingVerb

example : readArguments ["-v".toList, "parse".toList, "-i=f".toList] =
    .ok ⟨.parse (some "f".toList) false, true, .warn, .compact⟩ := rfl

example : readArguments
    ["--log-level".toList, "loud".toList, "parse".toList, "-x".toList] =
    .error .unknownArgument := rfl

end ClassNotation
