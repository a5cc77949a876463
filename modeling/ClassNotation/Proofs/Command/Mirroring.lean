import ClassNotation.Command.Run

/-! Commands on two hosts. Where the operations of two hosts mirror each other, so do the commands,
whatever is said on request and wherever the warnings go. -/

namespace ClassNotation

section

variable {σ τ : Type}

/-- From related states two programs have one result, and they end in related states. -/
def Mirrors {α : Type} (R : σ → τ → Prop) (x : StateM σ α) (y : StateM τ α) : Prop :=
  ∀ s t, R s t → (x s).1 = (y t).1 ∧ R (x s).2 (y t).2

namespace Mirrors

variable {α β ε : Type} {R : σ → τ → Prop}

theorem pure (a : α) : Mirrors R (Pure.pure a) (Pure.pure a) :=
  fun _ _ h => ⟨rfl, h⟩

theorem symm {x : StateM σ α} {y : StateM τ α} (h : Mirrors R x y) : Mirrors (flip R) y x :=
  fun t s hst => ⟨(h s t hst).1.symm, (h s t hst).2⟩

theorem bind {x : StateM σ α} {y : StateM τ α} {f : α → StateM σ β} {g : α → StateM τ β}
    (hx : Mirrors R x y) (hf : ∀ a, Mirrors R (f a) (g a)) : Mirrors R (x >>= f) (y >>= g) := by
  intro s t h
  obtain ⟨hr, hs⟩ := hx s t h
  have hboth := hf (x s).1 (x s).2 (y t).2 hs
  rw [show (x >>= f) s = f (x s).1 (x s).2 from rfl,
    show (y >>= g) t = g (y t).1 (y t).2 from rfl, ← hr]
  exact hboth

section silent

variable {x : StateM σ Unit} {y : StateM τ Unit} (hx : Mirrors R x (Pure.pure ()))
  (hy : Mirrors R (Pure.pure ()) y)

include hx hy

theorem silent : Mirrors R x y :=
  fun s t h => ⟨rfl, (hy _ t (hx s t h).2).2⟩

/-- What is done on request does not show, whether it is asked for on one side or on both. -/
theorem request {v v' : Bool} {f : Unit → StateM σ α} {g : Unit → StateM τ α}
    (h : Mirrors R (f ()) (g ())) :
    Mirrors R (if v then x >>= f else f ()) (if v' then y >>= g else g ()) := by
  have hstep : ∀ {x : StateM σ Unit} {y : StateM τ Unit}, Mirrors R x y →
      Mirrors R (x >>= f) (y >>= g) := fun hxy => hxy.bind fun _ => h
  cases v <;> cases v'
  · exact h
  · exact hstep hy
  · exact hstep hx
  · exact hstep (hx.silent hy)

theorem requestExcept {v v' : Bool} {f : Unit → ExceptT ε (StateM σ) α}
    {g : Unit → ExceptT ε (StateM τ) α} (h : Mirrors R (f ()).run (g ()).run) :
    Mirrors R (if v then ExceptT.lift x >>= f else f ()).run
      (if v' then ExceptT.lift y >>= g else g ()).run := by
  rw [apply_ite ExceptT.run, apply_ite ExceptT.run, ExceptT.run_bind_lift, ExceptT.run_bind_lift]
  exact request hx hy h

end silent

theorem bindExcept {x : ExceptT ε (StateM σ) α} {y : ExceptT ε (StateM τ) α}
    {f : α → ExceptT ε (StateM σ) β} {g : α → ExceptT ε (StateM τ) β}
    (hx : Mirrors R x.run y.run) (hf : ∀ a, Mirrors R (f a).run (g a).run) :
    Mirrors R (x >>= f).run (y >>= g).run := by
  rw [ExceptT.run_bind, ExceptT.run_bind]
  refine hx.bind fun r => ?_
  cases r with
  | ok a => exact hf a
  | error e => exact .pure _

theorem throw (e : ε) :
    Mirrors R (throw e : ExceptT ε (StateM σ) α).run (throw e : ExceptT ε (StateM τ) α).run :=
  .pure _

theorem lift {x : StateM σ α} {y : StateM τ α} (hx : Mirrors R x y) :
    Mirrors R (ExceptT.lift x : ExceptT ε (StateM σ) α).run
      (ExceptT.lift y : ExceptT ε (StateM τ) α).run := by
  rw [ExceptT.run_lift, ExceptT.run_lift, map_eq_pure_bind, map_eq_pure_bind]
  exact hx.bind fun a => .pure _

theorem attempt {x : StateM σ (Except ε α)} {y : StateM τ (Except ε α)} (hx : Mirrors R x y)
    (failure : ε → Failure) :
    Mirrors R (Host.attempt x failure).run (Host.attempt y failure).run :=
  hx.bind fun r => .pure (r.mapError failure)

theorem keeps_bind {x : StateM σ α} {f : α → StateM σ β} {s : σ} {t : τ} (hx : R (x s).2 t)
    (hf : ∀ a s, R s t → R (f a s).2 t) : R ((x >>= f) s).2 t :=
  hf (x s).1 (x s).2 hx

theorem bind_left {x : StateM σ α} {f : α → StateM σ Unit} (hx : ∀ s t, R s t → R (x s).2 t)
    (hf : ∀ a, Mirrors R (f a) (Pure.pure ())) : Mirrors R (x >>= f) (Pure.pure ()) :=
  fun s t h => hf (x s).1 (x s).2 t (hx s t h)

theorem forM_left {f : α → StateM σ PUnit} (h : ∀ a, Mirrors R (f a) (Pure.pure ()))
    (as : List α) : Mirrors R (as.forM f) (Pure.pure ()) := by
  induction as with
  | nil => exact .pure _
  | cons a as ih => exact (h a).bind fun _ => ih

theorem forM_right {g : α → StateM τ PUnit} (h : ∀ a, Mirrors R (Pure.pure ()) (g a))
    (as : List α) : Mirrors R (Pure.pure ()) (as.forM g) :=
  (forM_left (R := flip R) (fun a => (h a).symm) as).symm

end Mirrors

structure Disk.Alike (R : σ → τ → Prop) (disk : Disk (StateM σ)) (disk' : Disk (StateM τ)) :
    Prop where
  writeFile : ∀ path content, Mirrors R (disk.writeFile path content) (disk'.writeFile path content)
  ensureDirectory : ∀ path, Mirrors R (disk.ensureDirectory path) (disk'.ensureDirectory path)

namespace Disk.Alike

variable {R : σ → τ → Prop} {disk : Disk (StateM σ)} {disk' : Disk (StateM τ)}

theorem ensureAll (h : Disk.Alike R disk disk') (paths : List Text) :
    Mirrors R (disk.ensureAll paths) (disk'.ensureAll paths) := by
  induction paths with
  | nil => exact .pure _
  | cons path above ih =>
    refine (h.ensureDirectory path).bind fun r => ?_
    split
    · refine ih.bind fun r => ?_
      cases r with
      | ok _ => exact h.ensureDirectory path
      | error f => exact .pure _
    · exact .pure _

theorem makeDirectories (h : Disk.Alike R disk disk') (path : Text) :
    Mirrors R (disk.makeDirectories path) (disk'.makeDirectories path) := by
  unfold Disk.makeDirectories
  split
  · exact .pure _
  · exact h.ensureAll _

theorem writeEntries (h : Disk.Alike R disk disk') (directory : Text)
    (entries : List (Text × Text)) :
    Mirrors R (ClassNotation.writeEntries disk directory entries)
      (ClassNotation.writeEntries disk' directory entries) := by
  induction entries with
  | nil => exact .pure _
  | cons entry rest ih =>
    obtain ⟨name, text⟩ := entry
    unfold ClassNotation.writeEntries
    split
    · refine (h.writeFile _ text).bind fun r => ?_
      cases r with
      | ok _ => exact ih.bind fun _ => .pure _
      | error f => exact .pure _
    · exact .pure _

theorem writeSources (h : Disk.Alike R disk disk') (out : Text) (package : Option Text)
    (sources : Java.Sources) :
    Mirrors R (ClassNotation.writeSources disk out package sources)
      (ClassNotation.writeSources disk' out package sources) := by
  unfold ClassNotation.writeSources
  cases packageDirectory out package with
  | error f => exact .pure _
  | ok directory =>
    refine (h.makeDirectories directory).bind fun r => ?_
    cases r with
    | ok _ => exact h.writeEntries directory _
    | error f => exact .pure _

end Disk.Alike

/-- Warnings, looking at the environment and the start of a log leave related states related, on
either host. -/
structure Host.Alike (R : σ → τ → Prop) (host : Host (StateM σ)) (host' : Host (StateM τ)) :
    Prop extends Disk.Alike R host.toDisk host'.toDisk where
  readFile : ∀ path, Mirrors R (host.readFile path) (host'.readFile path)
  readInput : Mirrors R host.readInput host'.readInput
  print : ∀ t, Mirrors R (host.print t) (host'.print t)
  warn_left : ∀ t, Mirrors R (host.warn t) (pure ())
  warn_right : ∀ t, Mirrors R (pure ()) (host'.warn t)
  environment_left : ∀ name s t, R s t → R (host.environment name s).2 t
  environment_right : ∀ name s t, R s t → R s (host'.environment name t).2
  startLog_left : ∀ level format, Mirrors R (host.startLog level format) (pure ())
  startLog_right : ∀ level format, Mirrors R (pure ()) (host'.startLog level format)

namespace Host.Alike

variable {R : σ → τ → Prop} {host : Host (StateM σ)} {host' : Host (StateM τ)}
  (h : Host.Alike R host host')

include h

theorem warn (t t' : Text) : Mirrors R (host.warn t) (host'.warn t') :=
  (h.warn_left t).silent (h.warn_right t')

theorem input (path : Option Text) :
    Mirrors R (ClassNotation.readInput host path).run (ClassNotation.readInput host' path).run := by
  unfold ClassNotation.readInput
  cases namedFile path with
  | none => exact h.readInput.attempt _
  | some path => exact (h.readFile path).attempt _

theorem output (path : Option Text) (t : Text) :
    Mirrors R (writeOutput host path t).run (writeOutput host' path t).run := by
  unfold writeOutput
  cases namedFile path with
  | none => exact (h.print _).lift
  | some path => exact (h.writeFile path t).attempt _

theorem diagram (v v' : Bool) (path : Option Text) :
    Mirrors R (readDiagram host v path).run (readDiagram host' v' path).run :=
  (h.input path).bindExcept fun _ =>
    Mirrors.requestExcept (h.warn_left _) (h.warn_right _) (.pure _)

theorem parseTask (v v' : Bool) (path : Option Text) (json : Bool) :
    Mirrors R (ClassNotation.parseTask host v path json).run
      (ClassNotation.parseTask host' v' path json).run := by
  refine (h.diagram v v' path).bindExcept fun r => ?_
  cases r with
  | error e => exact .throw _
  | ok d => exact h.output none _

theorem generateTask (v v' : Bool) (path package directory : Option Text) :
    Mirrors R (ClassNotation.generateTask host v path package directory).run
      (ClassNotation.generateTask host' v' path package directory).run := by
  refine (h.diagram v v' path).bindExcept fun r => ?_
  cases r with
  | error e => exact .throw _
  | ok d =>
    cases directory with
    | none => exact h.output none _
    | some directory =>
      refine ((h.writeSources directory package _).attempt _).bindExcept fun written => ?_
      exact Mirrors.requestExcept (.forM_left (fun _ => h.warn_left _) written)
        (.forM_right (fun _ => h.warn_right _) written) (h.print _).lift

theorem validateTask (v v' : Bool) (path : Option Text) :
    Mirrors R (ClassNotation.validateTask host v path).run
      (ClassNotation.validateTask host' v' path).run := by
  refine (h.diagram v v' path).bindExcept fun r => ?_
  cases r with
  | error e => exact (h.print _).lift.bindExcept fun _ => .throw _
  | ok d =>
    refine (h.print _).lift.bindExcept fun _ => ?_
    exact (Mirrors.silent (.forM_left (fun _ => h.warn_left _) _)
      (.forM_right (fun _ => h.warn_right _) _)).lift

theorem perform (v v' : Bool) (task : Task) :
    Mirrors R (ClassNotation.perform host v task).run
      (ClassNotation.perform host' v' task).run := by
  cases task with
  | parse path json => exact h.parseTask v v' path json
  | generate path package directory => exact h.generateTask v v' path package directory
  | validate path => exact h.validateTask v v' path
  | sample path => exact h.output path _

theorem setting_left (names : List Text) (s : σ) (t : τ) (hst : R s t) :
    R (host.setting names s).2 t := by
  induction names generalizing s with
  | nil => exact hst
  | cons name names ih =>
    rw [Host.setting]
    refine Mirrors.keeps_bind (h.environment_left name s t hst) fun value? s hs => ?_
    cases value? with
    | some value => exact hs
    | none => exact ih s hs

theorem prepareLog_left (i : Invocation) :
    Mirrors R (ClassNotation.prepareLog host i) (Pure.pure ()) := by
  unfold ClassNotation.prepareLog
  refine .bind_left (h.setting_left _) fun level => .bind_left (h.setting_left _) fun format => ?_
  dsimp only
  split
  · exact h.startLog_left _ _
  · exact h.warn_left _

theorem flip : Host.Alike (flip R) host' host where
  writeFile path content := (h.writeFile path content).symm
  ensureDirectory path := (h.ensureDirectory path).symm
  readFile path := (h.readFile path).symm
  readInput := h.readInput.symm
  print t := (h.print t).symm
  warn_left t := (h.warn_right t).symm
  warn_right t := (h.warn_left t).symm
  environment_left name t s := h.environment_right name s t
  environment_right name t s := h.environment_left name s t
  startLog_left level format := (h.startLog_right level format).symm
  startLog_right level format := (h.startLog_left level format).symm

theorem prepareLog (i i' : Invocation) :
    Mirrors R (ClassNotation.prepareLog host i) (ClassNotation.prepareLog host' i') :=
  (h.prepareLog_left i).silent (h.flip.prepareLog_left i').symm

/-- Of an invocation, only its task shows. -/
theorem invoke {i i' : Invocation} (ht : i.task = i'.task) :
    Mirrors R (ClassNotation.invoke host i) (ClassNotation.invoke host' i') := by
  refine (h.prepareLog i i').bind fun _ => ?_
  refine Mirrors.request (h.warn_left _) (h.warn_right _) ?_
  rw [ht]
  refine (h.perform i.verbose i'.verbose i'.task).bind fun r => ?_
  cases r with
  | ok _ => exact .pure _
  | error f => exact (h.warn _ _).bind fun _ => .pure _

end Host.Alike

end

end ClassNotation
