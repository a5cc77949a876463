import ClassNotation.Proofs.BlockLines

/-! How far a block has been read. Between two lines of a text the machine is determined by the
lines of the open block, so the reading of a text can be followed without drafts and phases. -/

namespace ClassNotation

/-- What the lines of the open block have said so far, part by part. -/
inductive Progress where
  | outside
  | header (h : Header) (rs : List RelationLine)
  | properties (h : Header) (rs : List RelationLine) (ps : List Property)
  | methods (h : Header) (rs : List RelationLine) (ps : List Property) (ms : List Method)

namespace Progress

def phase : Progress → Phase
  | .outside => .outside
  | .header .. => .header
  | .properties .. => .properties
  | .methods .. => .methods

def declare (line : Text) : Progress → Except Fault Progress
  | .outside => (Header.read line).map fun h => .header h []
  | .header h rs => (RelationLine.read line).map fun r => .header h (rs ++ [r])
  | .properties h rs ps => (Property.read line).map fun p => .properties h rs (ps ++ [p])
  | .methods h rs ps ms => (Method.read h.name line).map fun m => .methods h rs ps (ms ++ [m])

def separate : Progress → Except Fault (Option ClassBlock × Progress)
  | .outside => .error (.wrongPhase .closeSection .outside)
  | .header h rs => .ok (none, .properties h rs [])
  | .properties h rs ps => .ok (none, .methods h rs ps [])
  | .methods h rs ps ms => .ok (some (.ofLines h rs ps ms), .outside)

def next (s : Progress) (line : Text) : Except Fault (Option ClassBlock × Progress) :=
  if isSeparator line then s.separate else (s.declare line).map fun s => (none, s)

def draft : Progress → Option Draft
  | .outside => none
  | .header h rs => some (draftOf h rs none none)
  | .properties h rs ps => some (draftOf h rs (some ps) none)
  | .methods h rs ps ms => some (draftOf h rs (some ps) (some ms))
where
  draftOf (h : Header) (rs : List RelationLine) (ps : Option (List Property))
      (ms : Option (List Method)) : Draft :=
    ⟨h.name, h.qualifier, statedRelations h.name rs, TextSet.ofList (rs.flatMap (·.related)), ps,
      ms⟩

def machine (s : Progress) (n : Nat) : Machine :=
  ⟨s.phase, n, s.draft⟩

end Progress

theorem TextSet.ofList_append (xs ys : List Text) :
    TextSet.ofList (xs ++ ys) = ys.foldl TextSet.insert (TextSet.ofList xs) :=
  List.foldl_append

namespace Machine

theorem addRelations_header (n : Nat) (d : Draft) (kind : RelationKind) (ts : List Text) :
    Machine.addRelations ⟨.header, n, some d⟩ kind ts =
      (.ok (), ⟨.header, n, some { d with
        relations := d.relations ++
          ts.map fun t => Relation.declaredBy d.name t kind kind.direction
        relates := ts.foldl TextSet.insert d.relates }⟩) := by
  induction ts generalizing d with
  | nil => simp [addRelations]
  | cons t ts ih =>
    have hadd : Machine.addRelation ⟨.header, n, some d⟩ t kind kind.direction =
        (.ok (), ⟨.header, n, some (d.addRelation t kind kind.direction)⟩) := rfl
    rw [addRelations, hadd, Outcome.andThen, ih]
    simp [Draft.addRelation]

theorem advance_machine (s : Progress) (n : Nat) :
    (s.machine n).advance =
      match s.separate with
      | .ok (block?, s') => (.ok block?, s'.machine n)
      | .error f => (.error ⟨n, f⟩, s.machine n) := by
  cases s <;> rfl

theorem readDeclaration_machine (s : Progress) (n : Nat) (line : Text) :
    (s.machine n).readDeclaration line =
      match s.declare line with
      | .ok s' => (.ok (), s'.machine n)
      | .error f => (.error ⟨n, f⟩, s.machine n) := by
  cases s with
  | outside =>
    simp only [readDeclaration, Progress.machine, Progress.phase, Progress.declare]
    cases Header.read line <;> rfl
  | header h rs =>
    simp only [readDeclaration, Progress.machine, Progress.phase, Progress.declare]
    cases RelationLine.read line with
    | error f => rfl
    | ok r =>
      simp [Progress.draft, Progress.draft.draftOf, addRelations_header, Except.map,
        statedRelations, Relation.stated_eq_declaredBy, TextSet.ofList_append]
  | properties h rs ps =>
    simp only [readDeclaration, Progress.machine, Progress.phase, Progress.declare]
    cases Property.read line <;> rfl
  | methods h rs ps ms =>
    have howner : ((Progress.methods h rs ps ms).machine n).className?.getD [] = h.name := rfl
    simp only [readDeclaration, howner, Progress.declare]
    simp only [Progress.machine, Progress.phase]
    cases Method.read h.name line <;> rfl

/-- A line takes the machine on as it takes the progress on. A fault is reported at its line and
leaves the open block alone. -/
theorem readLine_machine (s : Progress) (n : Nat) (l : ContentLine) :
    (s.machine n).readLine l =
      match s.next l.text with
      | .ok (block?, s') => (.ok block?, s'.machine l.number)
      | .error f => (.error ⟨l.number, f⟩, s.machine l.number) := by
  have hl : (s.machine n).setLine l.number = s.machine l.number := rfl
  rw [readLine, hl, Progress.next]
  split
  · exact advance_machine s l.number
  · rw [readDeclaration_machine]
    cases s.declare l.text <;> rfl

theorem readLine_of_next_eq_ok {s s' : Progress} {l : ContentLine} {block? : Option ClassBlock}
    (h : s.next l.text = .ok (block?, s')) (n : Nat) :
    (s.machine n).readLine l = (.ok block?, s'.machine l.number) := by
  rw [readLine_machine, h]

theorem readLine_of_next_eq_error {s : Progress} {l : ContentLine} {f : Fault}
    (h : s.next l.text = .error f) (n : Nat) :
    (s.machine n).readLine l = (.error ⟨l.number, f⟩, s.machine l.number) := by
  rw [readLine_machine, h]

end Machine

end ClassNotation
