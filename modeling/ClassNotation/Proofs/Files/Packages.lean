import ClassNotation.Proofs.Files.Directories

/-! The directory of a package. It lies below the output directory by one name for each part of the
package, and no other package has it. -/

namespace ClassNotation

theorem isSafeName_iff {n : Text} :
    isSafeName n = true ↔ n ≠ [] ∧ n ≠ ".".toList ∧ n ≠ "..".toList ∧
      ∀ c ∈ n, c ≠ '/' ∧ c ≠ '\\' ∧ isBlank c = false := by
  simp only [isSafeName, Bool.and_eq_true, decide_eq_true_eq, Bool.not_eq_true', List.any_eq_false,
    Bool.or_eq_true, not_or, Bool.not_eq_true, and_assoc]

/-- The names of the directories of a package. -/
def packageParts : Option Text → List Text
  | none => []
  | some p => p.splitOn '.'

/-- A part that can name a directory. -/
structure Text.IsPackagePart (s : Text) : Prop where
  nonempty : s ≠ []
  plain : ∀ c ∈ s, c ≠ '/' ∧ c ≠ '\\' ∧ isBlank c = false

section packageDirectory

variable {out : Text} {package : Option Text}

theorem packageDirectory_of_safe (h : ∀ s ∈ packageParts package, isSafeName s = true) :
    packageDirectory out package = .ok ((packageParts package).foldl joinPath out) := by
  cases package with
  | none => rfl
  | some p =>
    have hall : (p.splitOn '.').all isSafeName = true := List.all_eq_true.2 h
    simp only [packageDirectory, hall, if_true]
    rfl

theorem packageDirectory_of_unsafe {p s : Text} (hs : s ∈ p.splitOn '.')
    (h : isSafeName s = false) : packageDirectory out (some p) = .error (.invalidPackage p) := by
  have hall : (p.splitOn '.').all isSafeName = false :=
    List.all_eq_false.2 ⟨s, hs, by simp [h]⟩
  simp only [packageDirectory, hall, Bool.false_eq_true, if_false]

theorem isSafeName_of_mem_splitOn {p s : Text} (hs : s ∈ p.splitOn '.') :
    isSafeName s = true ↔ s.IsPackagePart := by
  have hdot : '.' ∉ s := (Text.mem_splitOn hs).2
  rw [isSafeName_iff]
  constructor
  · rintro ⟨hne, -, -, hplain⟩
    exact ⟨hne, hplain⟩
  · rintro ⟨hne, hplain⟩
    refine ⟨hne, ?_, ?_, hplain⟩
    · rintro rfl
      simp at hdot
    · rintro rfl
      simp at hdot

theorem isSafeName_of_mem_packageParts {s : Text} (hs : s ∈ packageParts package) :
    isSafeName s = true ↔ s.IsPackagePart := by
  cases package with
  | none => cases hs
  | some p => exact isSafeName_of_mem_splitOn hs

theorem packageParts_injective : Function.Injective packageParts := by
  intro package package' h
  have hjoin : ∀ p : Text, ['.'].intercalate (packageParts (some p)) = p :=
    fun p => List.intercalate_splitOn '.'
  have hne : ∀ p : Text, packageParts (some p) ≠ [] := fun p => List.splitOn_ne_nil '.' p
  cases package with
  | none =>
    cases package' with
    | none => rfl
    | some p' => exact absurd h.symm (hne p')
  | some p =>
    cases package' with
    | none => exact absurd h (hne p)
    | some p' => rw [← hjoin p, ← hjoin p', h]

/-- Either every part can name a directory, or the package is refused. -/
theorem packageDirectory_cases (out : Text) (package : Option Text) :
    (∀ s ∈ packageParts package, s.IsPackagePart) ∧
      packageDirectory out package = .ok ((packageParts package).foldl joinPath out) ∨
    (∃ s ∈ packageParts package, ¬ s.IsPackagePart) ∧
      ∃ p ∈ package, packageDirectory out package = .error (.invalidPackage p) := by
  by_cases h : ∀ s ∈ packageParts package, s.IsPackagePart
  · refine .inl ⟨h, packageDirectory_of_safe fun s hs => ?_⟩
    exact (isSafeName_of_mem_packageParts hs).2 (h s hs)
  · simp only [not_forall] at h
    obtain ⟨s, hs, hpart⟩ := h
    cases package with
    | none => cases hs
    | some p =>
      refine .inr ⟨⟨s, hs, hpart⟩, p, rfl, packageDirectory_of_unsafe hs ?_⟩
      rwa [Bool.eq_false_iff, Ne, isSafeName_of_mem_splitOn hs]

theorem of_packageDirectory {path : Text} (h : packageDirectory out package = .ok path) :
    (∀ s ∈ packageParts package, isSafeName s = true) ∧
      path = (packageParts package).foldl joinPath out := by
  rcases packageDirectory_cases out package with ⟨hparts, he⟩ | ⟨-, p, -, he⟩
  · refine ⟨fun s hs => (isSafeName_of_mem_packageParts hs).2 (hparts s hs), ?_⟩
    exact Except.ok.inj (h.symm.trans he)
  · rw [he] at h
    cases h

end packageDirectory

/-- Goes on from a directory along a path. One that starts at the root leaves the directory. -/
def pushPath (directory path : Text) : Text :=
  if path.head? = some '/' then path else joinPath directory path

inductive PathStep where
  | root
  | current
  | parent
  | name (n : Text)
  deriving DecidableEq

def PathStep.ofName (n : Text) : PathStep :=
  if n = ".".toList then .current else if n = "..".toList then .parent else .name n

/-- The steps of a path. A name `.` counts only at the start of a path that is not absolute. -/
def pathSteps (t : Text) : List PathStep :=
  if t.head? = some '/' then
    .root :: ((FilePath.namesOf t).filter (· ≠ ".".toList)).map .ofName
  else (FilePath.withoutDots (FilePath.namesOf t)).map .ofName

section pathSteps

variable {names : List Text}

theorem foldl_pushPath (d : Text) (h : ∀ n ∈ names, '/' ∉ n) :
    names.foldl pushPath d = names.foldl joinPath d := by
  induction names generalizing d with
  | nil => rfl
  | cons n names ih =>
    obtain ⟨hn, hrest⟩ := List.forall_mem_cons.1 h
    have hhead : n.head? ≠ some '/' := fun hs => hn (List.mem_of_head? hs)
    rw [List.foldl_cons, List.foldl_cons, pushPath, if_neg hhead, ih _ hrest]

theorem PathStep.map_ofName (h : ∀ n ∈ names, n ≠ ".".toList ∧ n ≠ "..".toList) :
    names.map ofName = names.map name := by
  refine List.map_congr_left fun n hn => ?_
  rw [ofName, if_neg (h n hn).1, if_neg (h n hn).2]

theorem pathSteps_foldl_joinPath (d : Text) (h : ∀ n ∈ names, isSafeName n = true) :
    pathSteps (names.foldl joinPath d) = pathSteps d ++ names.map .name := by
  have hnames : ∀ n ∈ names, n ≠ [] ∧ '/' ∉ n := by
    intro n hn
    obtain ⟨hne, -, -, hplain⟩ := isSafeName_iff.1 (h n hn)
    exact ⟨hne, fun hs => (hplain _ hs).1 rfl⟩
  have hdots : ∀ n ∈ names, n ≠ ".".toList ∧ n ≠ "..".toList := by
    intro n hn
    obtain ⟨-, hdot, hdots, -⟩ := isSafeName_iff.1 (h n hn)
    exact ⟨hdot, hdots⟩
  have hfilter : names.filter (· ≠ ".".toList) = names :=
    List.filter_eq_self.2 fun n hn => by simpa using (hdots n hn).1
  have hsteps := PathStep.map_ofName hdots
  rw [pathSteps, pathSteps, FilePath.namesOf_foldl_joinPath d hnames]
  simp only [FilePath.head?_foldl_joinPath d hnames]
  split
  · rw [List.filter_append, hfilter, List.map_append, hsteps, List.cons_append]
  · rw [FilePath.withoutDots_append _ fun n hn => (hdots n hn).1, List.map_append, hsteps]

end pathSteps

/-- A package has a directory exactly if each of its parts can name one, and else it is refused.
Its steps are those of the output directory and then the parts, which make up the package again, so
no other package has the same. -/
theorem packageDirectory_mirrors (out : Text) (package : Option Text) :
    ((∃ path, packageDirectory out package = .ok path) ↔
      ∀ s ∈ packageParts package, s.IsPackagePart) ∧
    (∀ f, packageDirectory out package = .error f ↔
      (∃ s ∈ packageParts package, ¬ s.IsPackagePart) ∧ ∃ p ∈ package, f = .invalidPackage p) ∧
    ∀ path, packageDirectory out package = .ok path →
      path = (packageParts package).foldl pushPath out ∧
      pathSteps path = pathSteps out ++ (packageParts package).map .name ∧
      (∀ s ∈ packageParts package, s.head? ≠ some '/' ∧ s ≠ ".".toList ∧ s ≠ "..".toList) ∧
      (∀ p ∈ package, ['.'].intercalate (packageParts package) = p) ∧
      ∀ package' path', packageDirectory out package' = .ok path' →
        pathSteps path' = pathSteps path → package' = package := by
  refine ⟨⟨?_, fun hparts => ?_⟩, fun f => ⟨fun h => ?_, ?_⟩, fun path h => ?_⟩
  · rintro ⟨path, h⟩ s hs
    exact (isSafeName_of_mem_packageParts hs).1 ((of_packageDirectory h).1 s hs)
  · exact ⟨_, packageDirectory_of_safe fun s hs =>
      (isSafeName_of_mem_packageParts hs).2 (hparts s hs)⟩
  · rcases packageDirectory_cases out package with ⟨-, he⟩ | ⟨hpart, p, hp, he⟩
    · rw [he] at h
      cases h
    · exact ⟨hpart, p, hp, Except.error.inj (h.symm.trans he)⟩
  · rintro ⟨⟨s, hs, hpart⟩, p, rfl, rfl⟩
    refine packageDirectory_of_unsafe hs ?_
    rwa [Bool.eq_false_iff, Ne, isSafeName_of_mem_packageParts hs]
  · obtain ⟨hsafe, rfl⟩ := of_packageDirectory h
    have hslash : ∀ s ∈ packageParts package, '/' ∉ s := fun s hs hm =>
      ((isSafeName_iff.1 (hsafe s hs)).2.2.2 _ hm).1 rfl
    have hsteps := pathSteps_foldl_joinPath out hsafe
    refine ⟨(foldl_pushPath out hslash).symm, hsteps, fun s hs => ?_, ?_, ?_⟩
    · obtain ⟨-, hdot, hdots, -⟩ := isSafeName_iff.1 (hsafe s hs)
      exact ⟨fun hh => hslash s hs (List.mem_of_head? hh), hdot, hdots⟩
    · rintro p rfl
      exact List.intercalate_splitOn '.'
    · intro package' path' h' he
      obtain ⟨hsafe', rfl⟩ := of_packageDirectory h'
      rw [pathSteps_foldl_joinPath out hsafe', hsteps] at he
      have hname : Function.Injective PathStep.name := fun _ _ hn => PathStep.name.inj hn
      exact packageParts_injective (List.map_injective_iff.2 hname (List.append_cancel_left he))

/-- The output directory is beside the working directory and ends in a slash. -/
theorem packageDirectory_mirrors_nested :
    packageDirectory "../out/".toList (some "br.edu".toList) = .ok "../out/br/edu".toList ∧
    pathSteps "../out/br/edu".toList =
      [.parent, .name "out".toList, .name "br".toList, .name "edu".toList] ∧
    packageDirectory "../out/".toList (some "br/../edu".toList) =
      .error (.invalidPackage "br/../edu".toList) ∧
    pathSteps "../out/edu".toList ≠ pathSteps "../out/br/edu".toList := by
  have h : packageDirectory "../out/".toList (some "br.edu".toList) =
      .ok "../out/br/edu".toList := by decide
  have h' : packageDirectory "../out/".toList (some "edu".toList) = .ok "../out/edu".toList := by
    decide
  have hslash : ¬ Text.IsPackagePart "br/".toList := fun hp => (hp.plain '/' (by decide)).1 rfl
  obtain ⟨-, -, hok⟩ := packageDirectory_mirrors "../out/".toList (some "br.edu".toList)
  obtain ⟨-, hsteps, -, -, hunique⟩ := hok _ h
  obtain ⟨-, hrefused, -⟩ := packageDirectory_mirrors "../out/".toList (some "br/../edu".toList)
  refine ⟨h, hsteps.trans (by decide), (hrefused _).2 ⟨⟨_, by decide, hslash⟩, _, rfl, rfl⟩, ?_⟩
  exact mt (hunique _ _ h') (by decide)

end ClassNotation
