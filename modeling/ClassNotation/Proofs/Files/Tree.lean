import ClassNotation.Proofs.Files.Paths

/-! What a tree of files holds after an entry has been put into it, and where names lead in it. A
path may be looked up in two parts: the names that lead to a directory, and those behind it. -/

namespace ClassNotation

/-- A name for an entry of a directory. -/
structure Text.IsEntryName (n : Text) : Prop extends n.IsPathName where
  dot : n ≠ ".".toList
  dots : n ≠ "..".toList

namespace Place

def Proper (p : Place) : Prop :=
  ∀ n ∈ p, n ≠ [] ∧ '/' ∉ n

variable {p q : Place}

theorem Proper.append (hp : p.Proper) (hq : q.Proper) : Proper (p ++ q) :=
  List.forall_mem_append.2 ⟨hp, hq⟩

theorem proper_of_entryNames (h : ∀ n ∈ p, n.IsEntryName) : p.Proper :=
  fun n hn => ⟨(h n hn).nonempty, (h n hn).slash⟩

theorem Proper.append_single (hp : p.Proper) {n : Text} (hn : n.IsEntryName) :
    Proper (p ++ [n]) :=
  hp.append (proper_of_entryNames (by simpa using hn))

theorem Proper.splitOn_key (hp : p.Proper) (hne : p ≠ []) : p.key.splitOn '/' = p :=
  List.splitOn_intercalate '/' (fun n hn => (hp n hn).2) hne

theorem Proper.key_ne_nil (hp : p.Proper) (hne : p ≠ []) : p.key ≠ [] := by
  intro hk
  have hs := hp.splitOn_key hne
  rw [hk] at hs
  exact (hp [] (by rw [← hs]; simp)).1 rfl

theorem Proper.eq_of_key_eq (hp : p.Proper) (hq : q.Proper) (h : p.key = q.key) : p = q := by
  have hnil : key [] = [] := rfl
  by_cases hpn : p = []
  · by_cases hqn : q = []
    · rw [hpn, hqn]
    · rw [hpn, hnil] at h
      exact absurd h.symm (hq.key_ne_nil hqn)
  · by_cases hqn : q = []
    · rw [hqn, hnil] at h
      exact absurd h (hp.key_ne_nil hpn)
    · rw [← hp.splitOn_key hpn, ← hq.splitOn_key hqn, h]

theorem child_of_entryName (p : Place) {n : Text} (h : n.IsEntryName) : p.child n = p ++ [n] := by
  rw [child, if_neg h.dot, if_neg h.dots]

end Place

namespace FileTree

variable {tree tree' : FileTree}

def put (tree : FileTree) (p : Place) (e : Entry) : FileTree :=
  { tree with entries := tree.entries.insert p.key e }

def putAll (tree : FileTree) (es : List (Place × Entry)) : FileTree :=
  es.foldl (fun tree e => tree.put e.1 e.2) tree

theorem putAll_append (tree : FileTree) (xs ys : List (Place × Entry)) :
    tree.putAll (xs ++ ys) = (tree.putAll xs).putAll ys :=
  List.foldl_append

/-- Nothing that is there in a tree is another in the next. -/
structure Keeps (tree tree' : FileTree) : Prop where
  limits : tree'.limits = tree.limits
  workingDirectory : tree'.workingDirectory = tree.workingDirectory
  entry : ∀ p e, tree.entry? p = some e → tree'.entry? p = some e

theorem Keeps.refl (tree : FileTree) : tree.Keeps tree :=
  ⟨rfl, rfl, fun _ _ h => h⟩

theorem Keeps.trans {tree'' : FileTree} (h : tree.Keeps tree') (h' : tree'.Keeps tree'') :
    tree.Keeps tree'' :=
  ⟨h'.limits.trans h.limits, h'.workingDirectory.trans h.workingDirectory,
    fun p e he => h'.entry p e (h.entry p e he)⟩

section put

variable {p q : Place} {e : Entry}

theorem entry?_of_ne_nil (hne : p ≠ []) : tree.entry? p = tree.entries.get? p.key :=
  if_neg hne

theorem entry?_put (hne : p ≠ []) (hp : p.Proper) (hq : q.Proper) :
    FileTree.entry? (tree.put p e) q = if q = p then some e else tree.entry? q := by
  by_cases hqn : q = []
  · subst q
    rw [if_neg (fun he => hne he.symm)]
    rfl
  · have hkey : q.key = p.key ↔ q = p :=
      ⟨fun hk => hq.eq_of_key_eq hp hk, fun he => congrArg Place.key he⟩
    rw [entry?_of_ne_nil hqn, entry?_of_ne_nil hqn, put, TextMap.get?_insert]
    simp only [hkey]

theorem keeps_put (hne : p ≠ []) (hnone : tree.entry? p = none) : tree.Keeps (tree.put p e) := by
  refine ⟨rfl, rfl, fun q f hq => ?_⟩
  by_cases hqn : q = []
  · subst q
    exact hq
  · rw [entry?_of_ne_nil hne] at hnone
    rw [entry?_of_ne_nil hqn] at hq ⊢
    have hkey : q.key ≠ p.key := by
      intro hk
      rw [hk, hnone] at hq
      cases hq
    rw [put, TextMap.get?_insert, if_neg hkey, hq]

theorem entry?_putAll_of_not_mem {es : List (Place × Entry)}
    (hes : ∀ x ∈ es, x.1 ≠ [] ∧ x.1.Proper) (hq : q.Proper) (hn : q ∉ es.map (·.1)) :
    FileTree.entry? (tree.putAll es) q = tree.entry? q := by
  induction es generalizing tree with
  | nil => rfl
  | cons x es ih =>
    obtain ⟨⟨hxn, hxp⟩, hrest⟩ := List.forall_mem_cons.1 hes
    rw [List.map_cons, List.mem_cons, not_or] at hn
    have hx : FileTree.entry? (tree.put x.1 x.2) q = tree.entry? q := by
      rw [entry?_put hxn hxp hq, if_neg hn.1]
    rw [← hx]
    exact ih hrest hn.2

theorem entry?_putAll_of_mem {es : List (Place × Entry)}
    (hes : ∀ x ∈ es, x.1 ≠ [] ∧ x.1.Proper) (hd : (es.map (·.1)).Nodup) (hm : (q, e) ∈ es) :
    FileTree.entry? (tree.putAll es) q = some e := by
  induction es generalizing tree with
  | nil => cases hm
  | cons x es ih =>
    obtain ⟨⟨hxn, hxp⟩, hrest⟩ := List.forall_mem_cons.1 hes
    obtain ⟨hx, hd⟩ := List.nodup_cons.1 hd
    rcases List.mem_cons.1 hm with rfl | hm
    · show FileTree.entry? ((tree.put q e).putAll es) q = some e
      rw [entry?_putAll_of_not_mem hrest hxp hx, entry?_put hxn hxp hxp, if_pos rfl]
    · exact ih hrest hd hm

/-- Of the entries that are put into a tree, all are there if no two have one place. -/
theorem entry?_putAll_iff {es : List (Place × Entry)} (hes : ∀ x ∈ es, x.1 ≠ [] ∧ x.1.Proper)
    (hd : (es.map (·.1)).Nodup) (hq : q.Proper) :
    FileTree.entry? (tree.putAll es) q = some e ↔
      (q, e) ∈ es ∨ (q ∉ es.map (·.1) ∧ tree.entry? q = some e) := by
  by_cases hm : q ∈ es.map (·.1)
  · obtain ⟨⟨p, f⟩, hx, rfl⟩ := List.mem_map.1 hm
    constructor
    · intro he
      rw [entry?_putAll_of_mem hes hd hx, Option.some.injEq] at he
      exact .inl (he ▸ hx)
    · rintro (he | ⟨hn, -⟩)
      · exact entry?_putAll_of_mem hes hd he
      · exact absurd hm hn
  · rw [entry?_putAll_of_not_mem hes hq hm]
    constructor
    · intro he
      exact .inr ⟨hm, he⟩
    · rintro (he | ⟨-, he⟩)
      · exact absurd (List.mem_map_of_mem he) hm
      · exact he

end put

section walk

variable {p q base dir : Place} {n : Text} {names rel : List Text} {f : FileFault}

theorem walk_cons_of_directory (hs : tree.step p n = .ok q) (he : tree.entry? q = some .directory)
    (rest : List Text) : tree.walk p (n :: rest) = tree.walk q rest := by
  simp only [walk, hs, he]

theorem walk_cons_of_missing (hs : tree.step p n = .ok q) (he : tree.entry? q = none)
    (rest : List Text) : tree.walk p (n :: rest) = .error .notFound := by
  simp only [walk, hs, he]

theorem walk_cons_eq_ok {rest : List Text} (h : tree.walk p (n :: rest) = .ok q) :
    ∃ r, tree.step p n = .ok r ∧ tree.entry? r = some .directory ∧ tree.walk r rest = .ok q := by
  cases hs : tree.step p n with
  | error f => simp only [walk, hs, reduceCtorEq] at h
  | ok r =>
    cases he : tree.entry? r with
    | none => simp only [walk, hs, he, reduceCtorEq] at h
    | some e =>
      cases e with
      | directory =>
        rw [walk_cons_of_directory hs he] at h
        exact ⟨r, rfl, he, h⟩
      | file | device => simp only [walk, hs, he, reduceCtorEq] at h

theorem walk_append_of_ok (h : tree.walk p names = .ok q) (rest : List Text) :
    tree.walk p (names ++ rest) = tree.walk q rest := by
  induction names generalizing p with
  | nil =>
    cases h
    rfl
  | cons n names ih =>
    obtain ⟨r, hs, he, hw⟩ := walk_cons_eq_ok h
    rw [List.cons_append, walk_cons_of_directory hs he, ih hw]

theorem Keeps.walk (hk : tree.Keeps tree') (h : tree.walk p names = .ok q) :
    tree'.walk p names = .ok q := by
  induction names generalizing p with
  | nil => exact h
  | cons n names ih =>
    obtain ⟨r, hs, he, hw⟩ := walk_cons_eq_ok h
    have hs' : tree'.step p n = .ok r := by rw [step, hk.limits, ← step, hs]
    rw [walk_cons_of_directory hs' (hk.entry r _ he), ih hw]

theorem step_of_unlimited (hl : tree.limits = .unlimited) (p : Place) (n : Text) :
    tree.step p n = .ok (p.child n) := by
  rw [step, hl]
  rfl

theorem step_of_entryName (hl : tree.limits = .unlimited) (p : Place) (hn : n.IsEntryName) :
    tree.step p n = .ok (p ++ [n]) := by
  rw [step_of_unlimited hl, p.child_of_entryName hn]

/-- A name that stands for the directory itself may be left out. -/
theorem walk_filter_dot (hl : tree.limits = .unlimited) (h : tree.walk p names = .ok q) :
    tree.walk p (names.filter (· ≠ ".".toList)) = .ok q := by
  induction names generalizing p with
  | nil => exact h
  | cons n names ih =>
    obtain ⟨r, hs, he, hw⟩ := walk_cons_eq_ok h
    by_cases hn : n = ".".toList
    · rw [step_of_unlimited hl, Place.child, if_pos hn] at hs
      cases hs
      rw [List.filter_cons_of_neg (by simp [hn])]
      exact ih hw
    · rw [List.filter_cons_of_pos (by simpa using hn), walk_cons_of_directory hs he]
      exact ih hw

theorem walk_of_directories (hl : tree.limits = .unlimited) (hrel : ∀ n ∈ rel, n.IsEntryName)
    (h : ∀ front, front ≠ [] → front <+: rel → tree.entry? (base ++ front) = some .directory) :
    tree.walk base rel = .ok (base ++ rel) := by
  induction rel generalizing base with
  | nil => rw [List.append_nil]; rfl
  | cons n rel ih =>
    obtain ⟨hn, hrest⟩ := List.forall_mem_cons.1 hrel
    have hs := step_of_entryName hl base hn
    have he : tree.entry? (base ++ [n]) = some .directory := h [n] (by simp) (by simp)
    rw [walk_cons_of_directory hs he, ih hrest, List.append_assoc, List.singleton_append]
    intro front _ hf
    rw [List.append_assoc]
    exact h (n :: front) (by simp) (List.cons_prefix_cons.2 ⟨rfl, hf⟩)

end walk

/-- Where a path is looked up from. -/
def origin (tree : FileTree) (isAbsolute : Bool) : Place :=
  if isAbsolute then [] else tree.workingDirectory

/-- A path whose first names lead to a directory, and whose other ones are looked up there. -/
def Approaches (tree : FileTree) (text : Text) (base : Place) (rel : List Text) : Prop :=
  ∃ path front, FilePath.read tree.limits text = .ok path ∧ path.names = front ++ rel ∧
    path.endsInSlash = false ∧ tree.walk (tree.origin path.isAbsolute) front = .ok base

section Approaches

variable {text : Text} {base dir : Place} {n : Text} {rel : List Text}

theorem Approaches.keeps (h : tree.Approaches text base rel) (hk : tree.Keeps tree') :
    tree'.Approaches text base rel := by
  obtain ⟨path, front, hread, hnames, hslash, hw⟩ := h
  refine ⟨path, front, by rw [hk.limits, hread], hnames, hslash, ?_⟩
  rw [origin, hk.workingDirectory]
  exact hk.walk hw

theorem Approaches.walk (h : tree.Approaches text base (rel ++ [n]))
    (hw : tree.walk base rel = .ok dir) : tree.Approaches text dir [n] := by
  obtain ⟨path, front, hread, hnames, hslash, hfront⟩ := h
  refine ⟨path, front ++ rel, hread, by rw [hnames, List.append_assoc], hslash, ?_⟩
  rw [walk_append_of_ok hfront, hw]

theorem Approaches.locate (h : tree.Approaches text dir [n]) (hl : tree.limits = .unlimited)
    (hn : n.IsEntryName) :
    ∃ path, FilePath.read tree.limits text = .ok path ∧ path.endsInSlash = false ∧
      tree.directoryOf path = .ok dir ∧ tree.locate path = .ok (dir ++ [n]) := by
  obtain ⟨path, front, hread, hnames, hslash, hw⟩ := h
  have hd : tree.directoryOf path = .ok dir := by
    rw [directoryOf, hnames, List.dropLast_concat]
    exact hw
  refine ⟨path, hread, hslash, hd, ?_⟩
  rw [FileTree.locate, hd, hnames, List.getLast?_concat]
  exact step_of_entryName hl dir hn

/-- A directory that is there already is left as it is. -/
theorem ensureDirectory_of_there {path : FilePath}
    (hread : FilePath.read tree.limits text = .ok path)
    (hloc : tree.locate path = .ok dir) (hd : tree.entry? dir = some .directory) :
    tree.ensureDirectory text = (.ok (), tree) := by
  have hmake : tree.makeDirectory path = .error .alreadyThere := by
    simp only [makeDirectory, hloc, hd]
  have hthere : tree.isDirectory path = true := by
    simp only [isDirectory, lookUp, hloc, hd]
  simp only [ensureDirectory, hread, hmake, hthere, and_self, if_true]

/-- A new directory in one that is there. -/
theorem ensureDirectory_of_new (h : tree.Approaches text dir [n]) (hl : tree.limits = .unlimited)
    (hn : n.IsEntryName) (hnew : tree.entry? (dir ++ [n]) = none) :
    tree.ensureDirectory text = (.ok (), tree.put (dir ++ [n]) .directory) := by
  obtain ⟨path, hread, -, -, hloc⟩ := h.locate hl hn
  have hmake : tree.makeDirectory path = .ok (tree.put (dir ++ [n]) .directory) := by
    simp only [makeDirectory, hloc, hnew]
    rfl
  simp only [ensureDirectory, hread, hmake]

theorem ensureDirectory_of_missing {m : Text} (h : tree.Approaches text base (m :: (rel ++ [n])))
    (hl : tree.limits = .unlimited) (hm : m.IsEntryName)
    (hmissing : tree.entry? (base ++ [m]) = none) :
    tree.ensureDirectory text = (.error .notFound, tree) := by
  obtain ⟨path, front, hread, hnames, -, hw⟩ := h
  have hd : tree.directoryOf path = .error .notFound := by
    rw [directoryOf, hnames, ← List.cons_append, ← List.append_assoc, List.dropLast_concat]
    show tree.walk (tree.origin path.isAbsolute) (front ++ m :: rel) = .error .notFound
    rw [walk_append_of_ok hw, walk_cons_of_missing (step_of_entryName hl base hm) hmissing]
  have hmake : tree.makeDirectory path = .error .notFound := by
    simp only [makeDirectory, locate, hd]
  simp only [ensureDirectory, hread, hmake]
  rfl

/-- A new file in a directory that is there. -/
theorem writeFile_of_new (h : tree.Approaches text dir [n]) (hl : tree.limits = .unlimited)
    (hn : n.IsEntryName) (hnew : tree.entry? (dir ++ [n]) = none) (content : Text) :
    tree.writeFile text content = (.ok (), tree.put (dir ++ [n]) (.file content)) := by
  obtain ⟨path, hread, hslash, hd, hloc⟩ := h.locate hl hn
  have hwrite : tree.write path content = .ok (tree.put (dir ++ [n]) (.file content)) := by
    simp only [write, hd, hslash, hloc, hnew]
    rfl
  simp only [writeFile, hread, hwrite]

theorem readFile_of_there (h : tree.Approaches text dir [n]) (hl : tree.limits = .unlimited)
    (hn : n.IsEntryName) {content : Text}
    (hthere : tree.entry? (dir ++ [n]) = some (.file content)) :
    tree.readFile text = .ok content := by
  obtain ⟨path, hread, hslash, -, hloc⟩ := h.locate hl hn
  have hlook : tree.lookUp path = .ok (.file content) := by
    simp only [lookUp, hloc, hthere, hslash, Bool.false_eq_true, if_false]
  simp only [readFile, hread, contentOf, hlook]

theorem writeFile_of_nul (h : '\x00' ∈ text) (content : Text) :
    tree.writeFile text content = (.error .nulInPath, tree) := by
  rw [writeFile, FilePath.read, if_pos h]

end Approaches

end FileTree

end ClassNotation
