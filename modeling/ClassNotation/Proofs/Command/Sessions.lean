import ClassNotation.Proofs.Command.Mirroring

/-! Sessions as hosts. Two sessions that differ in their settings and in what they have been warned
of mirror each other, and a run on either ends as its task does on one without settings. -/

namespace ClassNotation

namespace Session

/-- Two sessions with at most different settings and different warnings. -/
structure Alike (s s' : Session) : Prop where
  tree : s.tree = s'.tree
  input : s.input = s'.input
  printed : s.printed = s'.printed

namespace Alike

variable {s s' s'' : Session}

theorem refl (s : Session) : Alike s s :=
  ⟨rfl, rfl, rfl⟩

theorem symm (h : Alike s s') : Alike s' s :=
  ⟨h.tree.symm, h.input.symm, h.printed.symm⟩

theorem trans (h : Alike s s') (h' : Alike s' s'') : Alike s s'' :=
  ⟨h.tree.trans h'.tree, h.input.trans h'.input, h.printed.trans h'.printed⟩

theorem exists_eq (h : Alike s s') :
    ∃ settings warned, s' = { s with settings := settings, warned := warned } := by
  obtain ⟨_, _, settings, _, warned⟩ := s'
  obtain ⟨rfl, rfl, rfl⟩ := h
  exact ⟨settings, warned, rfl⟩

theorem receive (h : Alike s s') (d : Option Device) (t : Text) :
    Alike (s.receive d t) (s'.receive d t) := by
  unfold Session.receive
  split
  · exact ⟨h.tree, h.input, congrArg (· ++ t) h.printed⟩
  · exact ⟨h.tree, h.input, h.printed⟩
  · exact h

end Alike

theorem tree_receive (s : Session) (d : Option Device) (t : Text) :
    (s.receive d t).tree = s.tree := by
  unfold Session.receive
  split <;> rfl

theorem alike_host : Host.Alike Alike host host where
  writeFile path content s s' h := by
    obtain ⟨settings, warned, rfl⟩ := h.exists_eq
    have hwritten : Alike { s with tree := (s.tree.writeFile path content).2 }
        { s with
          tree := (s.tree.writeFile path content).2, settings := settings, warned := warned } :=
      ⟨rfl, rfl, rfl⟩
    exact ⟨rfl, hwritten.receive (s.tree.device? path) content⟩
  ensureDirectory path s s' h := by
    obtain ⟨settings, warned, rfl⟩ := h.exists_eq
    exact ⟨rfl, rfl, rfl, rfl⟩
  readFile path s s' h := by
    obtain ⟨settings, warned, rfl⟩ := h.exists_eq
    exact ⟨rfl, h⟩
  readInput s s' h := ⟨h.input, h⟩
  print t s s' h := ⟨rfl, h.tree, h.input, congrArg (· ++ t) h.printed⟩
  warn_left t s s' h := ⟨rfl, h.tree, h.input, h.printed⟩
  warn_right t s s' h := ⟨rfl, h.tree, h.input, h.printed⟩
  environment_left _ _ _ h := h
  environment_right _ _ _ h := h
  startLog_left _ _ := .pure ()
  startLog_right _ _ := .pure ()

theorem disk_host : Disk.Alike (fun s tree => s.tree = tree) host.toDisk FileTree.disk where
  writeFile path content s tree h := by
    subst h
    exact ⟨rfl, tree_receive _ _ _⟩
  ensureDirectory path s tree h := by
    subst h
    exact ⟨rfl, rfl⟩

end Session

section bind

variable {σ ε α β : Type} {s s' : σ}

theorem bind_of_eq {x : StateM σ α} {f : α → StateM σ β} {a : α} (h : x s = (a, s')) :
    (x >>= f) s = f a s' := by
  have hbind : (x >>= f) s = f (x s).1 (x s).2 := rfl
  rw [hbind, h]

variable {x : ExceptT ε (StateM σ) α} {f : α → ExceptT ε (StateM σ) β}

theorem run_bind_of_ok {a : α} (h : x.run s = (.ok a, s')) : (x >>= f).run s = (f a).run s' := by
  rw [ExceptT.run_bind, bind_of_eq h]

theorem run_bind_of_error {e : ε} (h : x.run s = (.error e, s')) :
    (x >>= f).run s = (.error e, s') := by
  rw [ExceptT.run_bind, bind_of_eq h]
  rfl

end bind

namespace Session

/-- The task alone, without anything that is said on request. -/
def quiet (task : Task) : Invocation :=
  ⟨task, false, .warn, .compact⟩

variable {s s' : Session} {task : Task}

theorem prepareLog_quiet (task : Task) (hs : s.settings = []) :
    prepareLog host (quiet task) s = ((), s) := by
  obtain ⟨tree, input, settings, printed, warned⟩ := s
  obtain rfl : settings = [] := hs
  rfl

theorem invoke_quiet {r : Except Failure Unit} (hs : s.settings = [])
    (h : (perform host false task).run s = (r, s')) :
    (invoke host (quiet task) s).1 = (if r.isOk then 0 else 1) ∧
      Alike (invoke host (quiet task) s).2 s' := by
  unfold invoke
  rw [bind_of_eq (prepareLog_quiet task hs)]
  show (((perform host false task).run >>= _) s).1 = _ ∧
    Alike (((perform host false task).run >>= _) s).2 _
  rw [bind_of_eq h]
  cases r with
  | ok _ => exact ⟨rfl, .refl s'⟩
  | error f => exact ⟨rfl, rfl, rfl, rfl⟩

end Session

end ClassNotation
