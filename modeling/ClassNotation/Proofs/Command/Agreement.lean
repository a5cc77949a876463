import ClassNotation.Proofs.Command.Sessions
import ClassNotation.Proofs.FaultTexts

/-! What the commands do with a diagram on the input, told by the library. -/

namespace ClassNotation

def Text.IsClosed (t : Text) : Prop :=
  t = [] ∨ t.getLast? = some '\n'

namespace Text.IsClosed

variable {a b sep : Text} {parts : List Text}

theorem append_feed (t : Text) : IsClosed (t ++ ['\n']) :=
  .inr List.getLast?_concat

theorem append (ha : IsClosed a) (hb : IsClosed b) : IsClosed (a ++ b) := by
  obtain rfl | hb := hb
  · rwa [List.append_nil]
  · right
    rw [List.getLast?_append, hb, Option.some_or]

theorem flatMap_feed (ls : List Text) : IsClosed (ls.flatMap (· ++ ['\n'])) := by
  induction ls with
  | nil => exact .inl rfl
  | cons l ls ih =>
    rw [List.flatMap_cons]
    exact (append_feed l).append ih

theorem intercalate (hsep : IsClosed sep) (h : ∀ part ∈ parts, IsClosed part) :
    IsClosed (sep.intercalate parts) :=
  intercalate_of_join (.inl rfl) (fun _ _ ha hb => (ha.append hsep).append hb) h

theorem closeOutput (h : IsClosed a) : closeOutput a = a :=
  if_pos h

end Text.IsClosed

theorem Diagram.isClosed_summary (d : Diagram) : d.summary.IsClosed :=
  .flatMap_feed _

theorem Java.isClosed_listing (s : Java.Sources) (extension : Text) :
    (Java.listing s extension).IsClosed := by
  refine .intercalate (.append_feed []) fun part hpart => ?_
  obtain ⟨⟨name, text⟩, -, rfl⟩ := List.mem_map.1 hpart
  exact .append_feed _

theorem closeOutput_pretty (d : Diagram) :
    closeOutput (Json.pretty 0 d.toJson) = Json.pretty 0 d.toJson ++ ['\n'] := by
  have hlast : (Json.pretty 0 d.toJson).getLast? = some '}' := List.getLast?_concat
  refine if_neg ?_
  rw [hlast]
  rintro (hn | hn)
  · simp [hn] at hlast
  · simp at hn

namespace Session

variable {host : Host (StateM Session)} {s : Session} {path : Option Text} {text : Text}
  {d : Diagram} {e : ParseError}

section perform

variable (hpath : namedFile path = none) (hinput : s.input = .ok text)

include hpath hinput

theorem readDiagram_input :
    (readDiagram Session.host false path).run s = (.ok (Diagram.parse text), s) := by
  have hread : (readInput Session.host path).run s = (.ok text, s) := by
    unfold readInput
    rw [hpath]
    show (s.input.mapError Failure.unreadableInput, s) = _
    rw [hinput]
    rfl
  unfold readDiagram
  rw [run_bind_of_ok hread]
  rfl

section accepted

variable (hd : Diagram.parse text = .ok d)

include hd

theorem perform_parse (json : Bool) :
    (perform Session.host false (.parse path json)).run s = (.ok (), s.receive (some .output)
      (closeOutput (if json then Json.pretty 0 d.toJson else d.summary))) := by
  show (parseTask Session.host false path json).run s = _
  unfold parseTask
  rw [run_bind_of_ok (readDiagram_input hpath hinput), hd]
  rfl

theorem perform_generate (package : Option Text) :
    (perform Session.host false (.generate path package none)).run s = (.ok (),
      s.receive (some .output)
        (closeOutput (Java.listing (Java.sources package d.blocks) Java.fileExtension))) := by
  show (generateTask Session.host false path package none).run s = _
  unfold generateTask
  rw [run_bind_of_ok (readDiagram_input hpath hinput), hd]
  rfl

theorem perform_generate_directory (package : Option Text) (directory : Text) :
    ∃ r s', (perform Session.host false (.generate path package (some directory))).run s =
        (r, s') ∧
      r.isOk = (writeSources FileTree.disk directory package
        (Java.sources package d.blocks) s.tree).1.isOk ∧
      s'.tree = (writeSources FileTree.disk directory package
        (Java.sources package d.blocks) s.tree).2 := by
  obtain ⟨hresult, htree⟩ := disk_host.writeSources directory package
    (Java.sources package d.blocks) s s.tree rfl
  have hexport : (Host.attempt (writeSources Session.host.toDisk directory package
      (Java.sources package d.blocks)) Failure.export).run s =
      ((writeSources Session.host.toDisk directory package
        (Java.sources package d.blocks) s).1.mapError .export,
      (writeSources Session.host.toDisk directory package (Java.sources package d.blocks) s).2) :=
    rfl
  rw [← htree, ← hresult]
  generalize writeSources Session.host.toDisk directory package (Java.sources package d.blocks) s =
    written at hexport
  show ∃ r s', (generateTask Session.host false path package (some directory)).run s = _ ∧ _
  unfold generateTask
  rw [run_bind_of_ok (readDiagram_input hpath hinput), hd]
  obtain ⟨r, s'⟩ := written
  cases r with
  | error f => exact ⟨_, _, run_bind_of_error hexport, rfl, rfl⟩
  | ok paths => exact ⟨_, _, run_bind_of_ok hexport, rfl, rfl⟩

theorem perform_validate :
    ∃ s', (perform Session.host false (.validate path)).run s = (.ok (), s') ∧
      Alike s' (s.receive (some .output) ("✓ Valid diagram (".toList ++
        Text.ofNat d.blocks.length ++ " classes)\n".toList)) := by
  have hwarned := Mirrors.forM_left (f := fun name => Session.host.warn
    ("Warning: class '".toList ++ name ++ "' is referenced but not defined\n".toList))
    (fun _ => alike_host.warn_left _) (TextSet.toList d.missing)
  refine ⟨_, ?_, (hwarned _ _ (.refl _)).2⟩
  show (validateTask Session.host false path).run s = _
  unfold validateTask
  rw [run_bind_of_ok (readDiagram_input hpath hinput), hd]
  rfl

end accepted

section rejected

variable (he : Diagram.parse text = .error e)

include he

theorem perform_validate_rejected :
    (perform Session.host false (.validate path)).run s = (.error (.parse e),
      s.receive (some .output) ("✗ Invalid diagram: ".toList ++ e.message ++ ['\n'])) := by
  show (validateTask Session.host false path).run s = _
  unfold validateTask
  rw [run_bind_of_ok (readDiagram_input hpath hinput), he]
  rfl

theorem perform_parse_rejected (json : Bool) :
    (perform Session.host false (.parse path json)).run s = (.error (.parse e), s) := by
  show (parseTask Session.host false path json).run s = _
  unfold parseTask
  rw [run_bind_of_ok (readDiagram_input hpath hinput), he]
  rfl

theorem perform_generate_rejected (package directory : Option Text) :
    (perform Session.host false (.generate path package directory)).run s =
      (.error (.parse e), s) := by
  show (generateTask Session.host false path package directory).run s = _
  unfold generateTask
  rw [run_bind_of_ok (readDiagram_input hpath hinput), he]
  rfl

end rejected

end perform

end Session

/-- The arguments ask for a task, whatever the options in front of it. -/
def Requests (read : List Text → Except Refusal Invocation) (args : List Text) (task : Task) :
    Prop :=
  ∃ i, read args = .ok i ∧ i.task = task

namespace Session

/-- How a run ends that starts in a session: with the code, having printed the text and leaving the
tree behind. -/
structure Ends (s : Session) (r : Nat × Session) (code : Nat) (t : Text) (tree : FileTree) :
    Prop where
  code : r.1 = code
  printed : r.2.printed = s.printed ++ t
  tree : r.2.tree = tree

variable {read : List Text → Except Refusal Invocation} {host : Host (StateM Session)}
  {s s' : Session} {args : List Text} {task : Task} (hhost : Host.Alike Alike host Session.host)

include hhost

theorem runProgram_alike (h : Requests read args task) (hs : Alike s s') :
    (runProgram read host args s).1 = (invoke Session.host (quiet task) s').1 ∧
      Alike (runProgram read host args s).2 (invoke Session.host (quiet task) s').2 := by
  obtain ⟨i, hargs, rfl⟩ := h
  unfold runProgram
  rw [hargs]
  have ht : i.task = (quiet i.task).task := rfl
  exact hhost.invoke ht s s' hs

theorem runProgram_of_perform (h : Requests read args task) {r : Except Failure Unit}
    (hp : (perform Session.host false task).run { s with settings := [] } = (r, s')) :
    (runProgram read host args s).1 = (if r.isOk then 0 else 1) ∧
      Alike (runProgram read host args s).2 s' := by
  have hs : Alike s { s with settings := [] } := ⟨rfl, rfl, rfl⟩
  obtain ⟨hcode, hleft⟩ := runProgram_alike hhost h hs
  obtain ⟨hquiet, hright⟩ := invoke_quiet rfl hp
  exact ⟨hcode.trans hquiet, hleft.trans hright⟩

theorem ends_of_perform (h : Requests read args task) {r : Except Failure Unit} {t : Text}
    (hp : (perform Session.host false task).run { s with settings := [] } = (r, s'))
    (hs : Alike s' (s.receive (some .output) t)) :
    s.Ends (runProgram read host args s) (if r.isOk then 0 else 1) t s.tree := by
  obtain ⟨hcode, hend⟩ := runProgram_of_perform hhost h hp
  exact ⟨hcode, (hend.trans hs).printed, (hend.trans hs).tree⟩

end Session

section runProgram

variable (read : List Text → Except Refusal Invocation) (host : Host (StateM Session))
  (path : Option Text) (s : Session) (text : Text)

/-- What the commands answer where the library reads a diagram. -/
structure Accepts (d : Diagram) : Prop where
  summary : ∀ args, Requests read args (.parse path false) →
    s.Ends (runProgram read host args s) 0 d.summary s.tree
  json : ∀ args, Requests read args (.parse path true) →
    s.Ends (runProgram read host args s) 0 (Json.pretty 0 d.toJson ++ ['\n']) s.tree
  validated : ∀ args, Requests read args (.validate path) →
    s.Ends (runProgram read host args s) 0
      ("✓ Valid diagram (".toList ++ Text.ofNat d.blocks.length ++ " classes)\n".toList) s.tree
  converted : ∀ package, ∃ sources, convert package text = .ok sources ∧
    (∀ args, Requests read args (.generate path package none) →
      s.Ends (runProgram read host args s) 0 (Java.listing sources Java.fileExtension) s.tree) ∧
    ∀ args directory, Requests read args (.generate path package (some directory)) →
      (runProgram read host args s).1 =
        (if (writeSources FileTree.disk directory package sources s.tree).1.isOk then 0 else 1) ∧
      (runProgram read host args s).2.tree =
        (writeSources FileTree.disk directory package sources s.tree).2

/-- What they answer where the library finds a fault. -/
structure Rejects (e : ParseError) : Prop where
  oneLine : '\n' ∉ e.message
  validated : ∀ args, Requests read args (.validate path) →
    s.Ends (runProgram read host args s) 1
      ("✗ Invalid diagram: ".toList ++ e.message ++ ['\n']) s.tree
  parsed : ∀ args json, Requests read args (.parse path json) →
    s.Ends (runProgram read host args s) 1 [] s.tree
  generated : ∀ args package directory, Requests read args (.generate path package directory) →
    s.Ends (runProgram read host args s) 1 [] s.tree

variable {read host path s text} (hhost : Host.Alike Session.Alike host Session.host)
  (hpath : namedFile path = none) (hinput : s.input = .ok text)

include hhost hpath hinput

theorem accepts_of_parse {d : Diagram} (hd : Diagram.parse text = .ok d) :
    Accepts read host path s text d := by
  have hinput' : ({ s with settings := [] } : Session).input = .ok text := hinput
  refine ⟨fun args h => ?_, fun args h => ?_, fun args h => ?_, fun package => ?_⟩
  · have hp := Session.perform_parse hpath hinput' hd false
    rw [if_neg (by decide), d.isClosed_summary.closeOutput] at hp
    exact Session.ends_of_perform hhost h hp ⟨rfl, rfl, rfl⟩
  · have hp := Session.perform_parse hpath hinput' hd true
    rw [if_pos rfl, closeOutput_pretty] at hp
    exact Session.ends_of_perform hhost h hp ⟨rfl, rfl, rfl⟩
  · obtain ⟨s', hp, hs⟩ := Session.perform_validate hpath hinput' hd
    exact Session.ends_of_perform hhost h hp ⟨hs.tree, hs.input, hs.printed⟩
  · obtain ⟨blocks, hread, rfl⟩ := except_map_eq_ok_iff.1 hd
    refine ⟨Java.sources package blocks, except_map_eq_ok_iff.2 ⟨blocks, hread, rfl⟩,
      fun args h => ?_, fun args directory h => ?_⟩
    · have hp := Session.perform_generate hpath hinput' hd package
      rw [(Java.isClosed_listing _ _).closeOutput] at hp
      exact Session.ends_of_perform hhost h hp ⟨rfl, rfl, rfl⟩
    · obtain ⟨r, s', hp, hr, htree⟩ :=
        Session.perform_generate_directory hpath hinput' hd package directory
      obtain ⟨hcode, hend⟩ := Session.runProgram_of_perform hhost h hp
      rw [hr] at hcode
      exact ⟨hcode, hend.tree.trans htree⟩

theorem rejects_of_parse {e : ParseError} (he : Diagram.parse text = .error e) :
    Rejects read host path s e := by
  have hinput' : ({ s with settings := [] } : Session).input = .ok text := hinput
  have hsame : Session.Alike { s with settings := [] } (s.receive (some .output) []) :=
    ⟨rfl, rfl, (List.append_nil _).symm⟩
  refine ⟨feed_not_mem_message_of_readBlocks (except_map_eq_error_iff.1 he), fun args h => ?_,
    fun args json h => ?_, fun args package directory h => ?_⟩
  · have hp := Session.perform_validate_rejected hpath hinput' he
    exact Session.ends_of_perform hhost h hp ⟨rfl, rfl, rfl⟩
  · have hp := Session.perform_parse_rejected hpath hinput' he json
    exact Session.ends_of_perform hhost h hp hsame
  · have hp := Session.perform_generate_rejected hpath hinput' he package directory
    exact Session.ends_of_perform hhost h hp hsame

/-- The commands answer as the library does, with any reader of arguments and on a host that may log
what it likes. Of two runs with one task, in sessions with different settings or with different
options, each shows the same. -/
theorem runProgram_agrees :
    (∀ d, Diagram.parse text = .ok d → Accepts read host path s text d) ∧
    (∀ e, Diagram.parse text = .error e → Rejects read host path s e) ∧
    ∀ args args' task s', Requests read args task → Requests read args' task → Session.Alike s s' →
      (runProgram read host args s).1 = (runProgram read host args' s').1 ∧
        Session.Alike (runProgram read host args s).2 (runProgram read host args' s').2 := by
  refine ⟨fun d hd => accepts_of_parse hhost hpath hinput hd,
    fun e he => rejects_of_parse hhost hpath hinput he, fun args args' task s' h h' hs => ?_⟩
  obtain ⟨hcode, hend⟩ := Session.runProgram_alike hhost h hs
  obtain ⟨hcode', hend'⟩ := Session.runProgram_alike hhost h' (.refl s')
  exact ⟨hcode.trans hcode'.symm, hend.trans hend'.symm⟩

end runProgram

def loggingHost : Host (StateM Session) :=
  { Session.host with
    readInput := fun s => (s.input, { s with warned := s.warned ++ "DEBUG Reading\n".toList })
    startLog := fun level _ s => ((), { s with warned := s.warned ++ level ++ ['\n'] }) }

theorem alike_loggingHost : Host.Alike Session.Alike loggingHost Session.host :=
  { Session.alike_host with
    readInput := fun _ _ h => ⟨h.input, h.tree, h.input, h.printed⟩
    startLog_left := fun _ _ _ _ h => ⟨rfl, h.tree, h.input, h.printed⟩ }

def wholeSession : Session :=
  ⟨.fresh ["w".toList], .ok "A\n---\n---\n---".toList, [(logFormatVariable, "loud".toList)], [], []⟩

def cutSession : Session :=
  ⟨.fresh ["w".toList], .ok "A\n---\n---".toList, [(logFilterVariable, "trace".toList)], [], []⟩

theorem runProgram_agrees_loggingHost :
    wholeSession.Ends
      (runProgram readArguments loggingHost
        ["-v".toList, "--log-level=debug".toList, "validate".toList] wholeSession) 0
      "✓ Valid diagram (1 classes)\n".toList wholeSession.tree ∧
    cutSession.Ends (runProgram readArguments loggingHost ["validate".toList] cutSession) 1
      "✗ Invalid diagram: Line 3: unexpected end of input while in state 'METHOD'\n".toList
      cutSession.tree ∧
    (runProgram readArguments loggingHost ["-v".toList, "parse".toList] wholeSession).1 =
      (runProgram readArguments loggingHost ["parse".toList]
        { wholeSession with settings := [] }).1 := by
  have hpath : namedFile none = none := rfl
  have hwhole : wholeSession.input = .ok "A\n---\n---\n---".toList := rfl
  have hcut : cutSession.input = .ok "A\n---\n---".toList := rfl
  have hparse : Diagram.parse "A\n---\n---\n---".toList =
      .ok ⟨[.ofLines ⟨"A".toList, none⟩ [] [] []]⟩ := by decide +kernel
  have hfault : Diagram.parse "A\n---\n---".toList = .error ⟨3, .unexpectedEnd .methods⟩ := by
    decide +kernel
  obtain ⟨haccepts, -, hsame⟩ := runProgram_agrees alike_loggingHost hpath hwhole
  obtain ⟨-, hrejects, -⟩ := runProgram_agrees alike_loggingHost hpath hcut
  have hloud : Requests readArguments ["-v".toList, "--log-level=debug".toList, "validate".toList]
      (.validate none) := ⟨_, rfl, rfl⟩
  have hvalidate : Requests readArguments ["validate".toList] (.validate none) := ⟨_, rfl, rfl⟩
  have hverbose : Requests readArguments ["-v".toList, "parse".toList] (.parse none false) :=
    ⟨_, rfl, rfl⟩
  have hplain : Requests readArguments ["parse".toList] (.parse none false) := ⟨_, rfl, rfl⟩
  have hvalid := (haccepts _ hparse).validated _ hloud
  have hinvalid := (hrejects _ hfault).validated _ hvalidate
  have hcode := (hsame _ _ _ { wholeSession with settings := [] } hverbose hplain
    ⟨rfl, rfl, rfl⟩).1
  have hone : "✓ Valid diagram (".toList ++ Text.ofNat 1 ++ " classes)\n".toList =
      "✓ Valid diagram (1 classes)\n".toList := by decide +kernel
  have htold : "✗ Invalid diagram: ".toList ++
      (⟨3, .unexpectedEnd .methods⟩ : ParseError).message ++ ['\n'] =
      "✗ Invalid diagram: Line 3: unexpected end of input while in state 'METHOD'\n".toList := by
    decide +kernel
  rw [htold] at hinvalid
  rw [← hone]
  exact ⟨hvalid, hinvalid, hcode⟩

end ClassNotation
