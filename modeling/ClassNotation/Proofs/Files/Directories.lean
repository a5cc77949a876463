import ClassNotation.Proofs.Files.Tree
import ClassNotation.Proofs.Text.Parts
import Mathlib.Data.List.Induction

/-! Directories that are made one in another. In an empty directory the longest path fails first,
then the one above it, and on the way back each of them is made. -/

namespace ClassNotation

namespace Place

/-- The places on the way from a place along names. -/
def branch (p : Place) : List Text → List Place
  | [] => []
  | n :: names => (p ++ [n]) :: branch (p ++ [n]) names

variable {p q : Place} {names : List Text}

theorem mem_branch_iff :
    q ∈ p.branch names ↔ ∃ front, front ≠ [] ∧ front <+: names ∧ q = p ++ front := by
  induction names generalizing p with
  | nil =>
    constructor
    · intro h
      cases h
    · rintro ⟨front, hne, hf, -⟩
      exact absurd (List.prefix_nil.1 hf) hne
  | cons n names ih =>
    rw [branch, List.mem_cons, ih]
    constructor
    · rintro (rfl | ⟨front, -, hf, rfl⟩)
      · exact ⟨[n], by simp, by simp, rfl⟩
      · exact ⟨n :: front, by simp, List.cons_prefix_cons.2 ⟨rfl, hf⟩, by simp⟩
    · rintro ⟨front, hne, hf, rfl⟩
      cases front with
      | nil => exact absurd rfl hne
      | cons m front =>
        obtain ⟨rfl, hrest⟩ := List.cons_prefix_cons.1 hf
        by_cases hfn : front = []
        · exact .inl (by rw [hfn])
        · exact .inr ⟨front, hfn, hrest, by simp⟩

theorem branch_append_single (p : Place) (names : List Text) (n : Text) :
    p.branch (names ++ [n]) = p.branch names ++ [p ++ (names ++ [n])] := by
  induction names generalizing p with
  | nil => rfl
  | cons m names ih =>
    rw [List.cons_append, branch, branch, ih, List.cons_append, List.append_assoc]
    rfl

theorem length_le_of_mem_branch (h : q ∈ p.branch names) :
    p.length < q.length ∧ q.length ≤ p.length + names.length := by
  obtain ⟨front, hne, hf, rfl⟩ := mem_branch_iff.1 h
  have hl := List.length_pos_iff.2 hne
  have hle := hf.length_le
  rw [List.length_append]
  omega

theorem nodup_branch (p : Place) (names : List Text) : (p.branch names).Nodup := by
  induction names generalizing p with
  | nil => exact List.nodup_nil
  | cons n names ih =>
    refine List.nodup_cons.2 ⟨fun hm => ?_, ih _⟩
    have hl := (length_le_of_mem_branch hm).1
    omega

theorem Proper.of_mem_branch (hp : p.Proper) (hn : Proper names) (h : q ∈ p.branch names) :
    q ≠ [] ∧ q.Proper := by
  obtain ⟨front, hne, hf, rfl⟩ := mem_branch_iff.1 h
  exact ⟨by simp [hne], hp.append fun n hm => hn n (hf.subset hm)⟩

end Place

namespace FilePath

def withoutDots (names : List Text) : List Text :=
  names.take 1 ++ (names.drop 1).filter (· ≠ ".".toList)

theorem withoutDots_append (front : List Text) {names : List Text}
    (h : ∀ n ∈ names, n ≠ ".".toList) :
    withoutDots (front ++ names) = withoutDots front ++ names := by
  have hnames : names.filter (· ≠ ".".toList) = names :=
    List.filter_eq_self.2 fun n hn => by simpa using h n hn
  cases front with
  | nil =>
    cases names with
    | nil => rfl
    | cons n names =>
      rw [List.filter_cons_of_pos (by simpa using h n (by simp))] at hnames
      show n :: names.filter (· ≠ ".".toList) = n :: names
      exact hnames
  | cons m front =>
    show m :: (front ++ names).filter (· ≠ ".".toList) =
      m :: (front.filter (· ≠ ".".toList) ++ names)
    rw [List.filter_append, hnames]

theorem mem_of_mem_withoutDots {names : List Text} {n : Text} (h : n ∈ withoutDots names) :
    n ∈ names := by
  rcases List.mem_append.1 h with h | h
  · exact List.mem_of_mem_take h
  · exact List.mem_of_mem_drop (List.mem_filter.1 h).1

theorem shorter_cons (n : Text) {rest : List Text} (h : rest ≠ []) :
    shorter (n :: rest) = rest :: shorter rest := by
  cases rest with
  | nil => exact absurd rfl h
  | cons => rfl

theorem isPathName_of_mem_namesOf {t n : Text} (hnul : '\x00' ∉ t) (h : n ∈ namesOf t) :
    n.IsPathName := by
  obtain ⟨hm, hne⟩ := List.mem_filter.1 h
  obtain ⟨hi, hs⟩ := Text.mem_splitOn hm
  exact ⟨by simpa using hne, hs, fun hx => hnul (hi.subset hx)⟩

end FilePath

namespace FileTree

variable {tree : FileTree}

theorem walk_withoutDots {p q : Place} {names : List Text} (hl : tree.limits = .unlimited)
    (h : tree.walk p names = .ok q) : tree.walk p (FilePath.withoutDots names) = .ok q := by
  cases names with
  | nil => exact h
  | cons n names =>
    obtain ⟨r, hs, he, hw⟩ := walk_cons_eq_ok h
    show tree.walk p (n :: names.filter (· ≠ ".".toList)) = .ok q
    rw [walk_cons_of_directory hs he, walk_filter_dot hl hw]

/-- A path that is located at a directory leads there. -/
theorem walk_of_locate {path : FilePath} {p : Place} (h : tree.locate path = .ok p)
    (hd : tree.entry? p = some .directory) :
    tree.walk (tree.origin path.isAbsolute) path.names = .ok p := by
  cases hw : tree.directoryOf path with
  | error f => simp only [locate, hw, reduceCtorEq] at h
  | ok dir =>
    rw [locate, hw] at h
    rcases List.eq_nil_or_concat path.names with hn | ⟨front, n, hn⟩
    · rw [directoryOf, hn] at hw
      rw [hn] at h ⊢
      rw [← h]
      exact hw
    · rw [List.concat_eq_append] at hn
      rw [directoryOf, hn, List.dropLast_concat] at hw
      rw [hn, List.getLast?_concat] at h
      rw [hn, origin, walk_append_of_ok hw, walk_cons_of_directory h hd]
      rfl

/-- A path to a directory with nothing in it. The empty path is the working directory. -/
structure IsEmptyDirectory (tree : FileTree) (out : Text) (base : Place) : Prop where
  limits : tree.limits = .unlimited
  located : (out = [] ∧ base = tree.workingDirectory) ∨
    ∃ path, FilePath.read .unlimited out = .ok path ∧ tree.locate path = .ok base
  directory : tree.entry? base = some .directory
  proper : base.Proper
  empty : ∀ names, names ≠ [] → Place.Proper names → tree.entry? (base ++ names) = none

theorem isEmptyDirectory_fresh {p : Place} (hp : p.Proper) : (fresh p).IsEmptyDirectory [] p := by
  refine ⟨rfl, .inl ⟨rfl, rfl⟩, ?_, hp, fun names hne hn => ?_⟩
  · by_cases hpn : p = []
    · rw [hpn]
      rfl
    · have hl := List.length_pos_iff.2 hpn
      have hkey : p.key ∈ (fresh p).entries.keys := by
        refine TextMap.mem_keys_ofList.2 ?_
        rw [List.map_map]
        refine List.mem_map.2 ⟨p.length - 1, List.mem_range.2 (by omega), ?_⟩
        show Place.key (p.take (p.length - 1 + 1)) = p.key
        rw [Nat.sub_add_cancel hl, List.take_length]
      obtain ⟨e, he⟩ := TextMap.mem_keys_iff.1 hkey
      obtain ⟨i, -, hi⟩ := List.mem_map.1 (TextMap.mem_of_get?_ofList he)
      rw [entry?_of_ne_nil hpn, he, (Prod.mk.inj hi).2]
  · rw [entry?_of_ne_nil (by simp [hne])]
    refine Option.eq_none_iff_forall_ne_some.2 fun e he => ?_
    obtain ⟨i, -, hi⟩ := List.mem_map.1 (TextMap.mem_of_get?_ofList he)
    have hproper : Place.Proper (p.take (i + 1)) := fun n hm => hp n (List.mem_of_mem_take hm)
    have htake := hproper.eq_of_key_eq (hp.append hn) (Prod.mk.inj hi).1
    have hlength := congrArg List.length htake
    have hpos := List.length_pos_iff.2 hne
    rw [List.length_take, List.length_append] at hlength
    omega

def directories (base : Place) (names : List Text) : List (Place × Entry) :=
  (base.branch names).map (·, .directory)

theorem limits_putAll (tree : FileTree) (es : List (Place × Entry)) :
    (tree.putAll es).limits = tree.limits := by
  induction es generalizing tree with
  | nil => rfl
  | cons x es ih => exact ih (tree.put x.1 x.2)

theorem keeps_putAll {es : List (Place × Entry)} (hes : ∀ x ∈ es, x.1 ≠ [] ∧ x.1.Proper)
    (hd : (es.map (·.1)).Nodup) (hnew : ∀ x ∈ es, tree.entry? x.1 = none) :
    tree.Keeps (tree.putAll es) := by
  induction es generalizing tree with
  | nil => exact .refl tree
  | cons x es ih =>
    obtain ⟨⟨hxn, hxp⟩, hrest⟩ := List.forall_mem_cons.1 hes
    obtain ⟨hx, hd⟩ := List.nodup_cons.1 hd
    obtain ⟨hxnew, hrestnew⟩ := List.forall_mem_cons.1 hnew
    refine (keeps_put hxn hxnew).trans (ih hrest hd fun y hy => ?_)
    have hne : y.1 ≠ x.1 := fun he => hx (List.mem_map.2 ⟨y, hy, he⟩)
    rw [entry?_put hxn hxp (hrest y hy).2, if_neg hne, hrestnew y hy]

namespace IsEmptyDirectory

variable {out text : Text} {base : Place} {names : List Text}

theorem nul (h : tree.IsEmptyDirectory out base) : '\x00' ∉ out := by
  rcases h.located with ⟨rfl, -⟩ | ⟨path, hread, -⟩
  · simp
  · intro hnul
    rw [FilePath.read, if_pos hnul] at hread
    cases hread

theorem walk (h : tree.IsEmptyDirectory out base) :
    tree.walk (tree.origin (out.head? = some '/')) (FilePath.namesOf out) = .ok base := by
  rcases h.located with ⟨rfl, rfl⟩ | ⟨path, hread, hloc⟩
  · rfl
  · have hne : out ≠ [] := by
      rintro rfl
      cases hread
    rw [FilePath.read_unlimited h.nul hne] at hread
    obtain rfl := Except.ok.inj hread
    exact walk_of_locate hloc h.directory

theorem approaches_joined (h : tree.IsEmptyDirectory out base) (hne : names ≠ [])
    (hnames : ∀ n ∈ names, n.IsPathName) :
    tree.Approaches (names.foldl joinPath out) base names :=
  ⟨_, FilePath.namesOf out, by rw [h.limits, FilePath.read_foldl_joinPath h.nul hne hnames], rfl,
    rfl, h.walk⟩

theorem approaches_joined_single (h : tree.IsEmptyDirectory out base)
    (hnames : ∀ n ∈ names, n.IsEntryName) {n : Text} (hn : n.IsEntryName) :
    tree.Approaches (joinPath (names.foldl joinPath out) n) base (names ++ [n]) := by
  have hpath : ∀ m ∈ names ++ [n], m.IsPathName := List.forall_mem_append.2
    ⟨fun m hm => (hnames m hm).toIsPathName, by simpa using hn.toIsPathName⟩
  have hjoined := h.approaches_joined (by simp) hpath
  rw [List.foldl_append] at hjoined
  exact hjoined

/-- The text of a path above one that is joined from names. -/
def textAbove (out : Text) (rest : List Text) : Text :=
  FilePath.toText ⟨out.head? = some '/', rest.reverse, false⟩

theorem directoriesAbove_joined (h : tree.IsEmptyDirectory out base) (hne : names ≠ [])
    (hnames : ∀ n ∈ names, n.IsEntryName) :
    Disk.directoriesAbove (names.foldl joinPath out) =
      (FilePath.shorter (names.reverse ++
        (FilePath.withoutDots (FilePath.namesOf out)).reverse)).map (textAbove out) := by
  have hread := FilePath.read_foldl_joinPath h.nul hne fun n hn => (hnames n hn).toIsPathName
  have hdots := FilePath.withoutDots_append (FilePath.namesOf out) fun n hn => (hnames n hn).dot
  rw [← List.reverse_append, ← hdots, Disk.directoriesAbove, hread]
  exact List.map_map

theorem approaches_above (h : tree.IsEmptyDirectory out base) (hne : names ≠ [])
    (hnames : ∀ n ∈ names, n.IsEntryName) :
    tree.Approaches (textAbove out
      (names.reverse ++ (FilePath.withoutDots (FilePath.namesOf out)).reverse)) base names := by
  have hpath : ∀ n ∈ FilePath.withoutDots (FilePath.namesOf out) ++ names, n.IsPathName := by
    intro n hn
    rcases List.mem_append.1 hn with hn | hn
    · exact FilePath.isPathName_of_mem_namesOf h.nul (FilePath.mem_of_mem_withoutDots hn)
    · exact (hnames n hn).toIsPathName
  rw [← List.reverse_append, textAbove, List.reverse_reverse]
  refine ⟨⟨out.head? = some '/', _, false⟩, FilePath.withoutDots (FilePath.namesOf out), ?_, rfl,
    rfl, walk_withoutDots h.limits h.walk⟩
  rw [h.limits, FilePath.read_toText (by simp [hne]) hpath]

theorem new_of_mem_branch (h : tree.IsEmptyDirectory out base)
    (hnames : ∀ n ∈ names, n.IsEntryName) {p : Place} (hp : p ∈ base.branch names) :
    tree.entry? p = none := by
  obtain ⟨front, hne, hf, rfl⟩ := Place.mem_branch_iff.1 hp
  exact h.empty front hne (Place.proper_of_entryNames fun n hn => hnames n (hf.subset hn))

end IsEmptyDirectory

section directories

variable {out text : Text} {base : Place} {names : List Text}

theorem proper_directories (hb : base.Proper) (hnames : ∀ n ∈ names, n.IsEntryName) :
    ∀ x ∈ directories base names, x.1 ≠ [] ∧ x.1.Proper := by
  intro x hx
  obtain ⟨p, hp, rfl⟩ := List.mem_map.1 hx
  exact hb.of_mem_branch (Place.proper_of_entryNames hnames) hp

theorem map_fst_directories (base : Place) (names : List Text) :
    (directories base names).map (·.1) = base.branch names := by
  rw [directories, List.map_map]
  exact List.map_id _

theorem directories_append_single (base : Place) (names : List Text) (n : Text) :
    directories base (names ++ [n]) =
      directories base names ++ [(base ++ names ++ [n], .directory)] := by
  rw [directories, Place.branch_append_single, List.map_append, ← directories, List.append_assoc]
  rfl

theorem IsEmptyDirectory.keeps_directories (h : tree.IsEmptyDirectory out base)
    (hnames : ∀ n ∈ names, n.IsEntryName) : tree.Keeps (tree.putAll (directories base names)) := by
  refine keeps_putAll (proper_directories h.proper hnames) ?_ fun x hx => ?_
  · rw [map_fst_directories]
    exact Place.nodup_branch base names
  · obtain ⟨p, hp, rfl⟩ := List.mem_map.1 hx
    exact h.new_of_mem_branch hnames hp

theorem IsEmptyDirectory.walk_directories (h : tree.IsEmptyDirectory out base)
    (hnames : ∀ n ∈ names, n.IsEntryName) :
    (tree.putAll (directories base names)).walk base names = .ok (base ++ names) := by
  refine walk_of_directories ((limits_putAll _ _).trans h.limits) hnames fun front hne hf => ?_
  refine entry?_putAll_of_mem (proper_directories h.proper hnames) ?_ ?_
  · rw [map_fst_directories]
    exact Place.nodup_branch base names
  · exact List.mem_map_of_mem (Place.mem_branch_iff.2 ⟨front, hne, hf, rfl⟩)

/-- Behind the last of the directories there is nothing yet. -/
theorem IsEmptyDirectory.new_behind_directories (h : tree.IsEmptyDirectory out base)
    (hnames : ∀ n ∈ names, n.IsEntryName) {n : Text} (hn : n.IsEntryName) :
    FileTree.entry? (tree.putAll (directories base names)) (base ++ names ++ [n]) = none := by
  have hp : Place.Proper (names ++ [n]) := by
    refine Place.proper_of_entryNames fun m hm => ?_
    rcases List.mem_append.1 hm with hm | hm
    · exact hnames m hm
    · exact List.mem_singleton.1 hm ▸ hn
  rw [List.append_assoc, entry?_putAll_of_not_mem (proper_directories h.proper hnames)
    (h.proper.append hp), h.empty _ (by simp) hp]
  rw [map_fst_directories]
  intro hm
  have hl := (Place.length_le_of_mem_branch hm).2
  rw [List.length_append, List.length_append, List.length_singleton] at hl
  omega

theorem ensureAll_of_ok {tree' : FileTree} (h : tree.ensureDirectory text = (.ok (), tree'))
    (above : List Text) : disk.ensureAll (text :: above) tree = (.ok (), tree') := by
  have hrun : disk.ensureDirectory text tree = (.ok (), tree') := h
  simp only [Disk.ensureAll, bind, StateT.bind, hrun]
  rfl

theorem ensureAll_of_missing {tree' : FileTree} {above : List Text}
    (h : tree.ensureDirectory text = (.error .notFound, tree))
    (habove : disk.ensureAll above tree = (.ok (), tree')) :
    disk.ensureAll (text :: above) tree = tree'.ensureDirectory text := by
  have hrun : disk.ensureDirectory text tree = (.error .notFound, tree) := h
  simp only [Disk.ensureAll, bind, StateT.bind, hrun, habove]
  rfl

/-- The directories along names are made in an empty one, whatever path leads to the last. -/
theorem IsEmptyDirectory.ensureAll_above (h : tree.IsEmptyDirectory out base) (hne : names ≠ [])
    (hnames : ∀ n ∈ names, n.IsEntryName) (ht : tree.Approaches text base names) :
    disk.ensureAll (text :: (FilePath.shorter (names.reverse ++
        (FilePath.withoutDots (FilePath.namesOf out)).reverse)).map (textAbove out)) tree =
      (.ok (), tree.putAll (directories base names)) := by
  induction names using List.reverseRecOn generalizing text with
  | nil => exact absurd rfl hne
  | append_singleton front n ih =>
    obtain ⟨hfront, hn⟩ := List.forall_mem_append.1 hnames
    have hn : n.IsEntryName := hn n (by simp)
    by_cases hfn : front = []
    · subst front
      have hnew := h.empty [n] (by simp) (Place.proper_of_entryNames hnames)
      exact ensureAll_of_ok (ensureDirectory_of_new ht h.limits hn hnew) _
    · have habove := ih hfn hfront (h.approaches_above hfn hfront)
      have hmissing : tree.ensureDirectory text = (.error .notFound, tree) := by
        cases front with
        | nil => exact absurd rfl hfn
        | cons m front =>
          have hm := hfront m (by simp)
          have hnone := h.empty [m] (by simp) (Place.proper_of_entryNames (by simpa using hm))
          exact ensureDirectory_of_missing ht h.limits hm hnone
      have hkeeps := h.keeps_directories hfront
      have hmade := ensureDirectory_of_new ((ht.keeps hkeeps).walk (h.walk_directories hfront))
        (hkeeps.limits.trans h.limits) hn (h.new_behind_directories hfront hn)
      rw [List.reverse_concat, List.cons_append, FilePath.shorter_cons n (by simp [hfn]),
        List.map_cons, ensureAll_of_missing hmissing habove, hmade, directories_append_single,
        putAll_append]
      rfl

theorem IsEmptyDirectory.makeDirectories_joined (h : tree.IsEmptyDirectory out base)
    (hnames : ∀ n ∈ names, n.IsEntryName) :
    disk.makeDirectories (names.foldl joinPath out) tree =
      (.ok (), tree.putAll (directories base names)) := by
  by_cases hne : names = []
  · subst names
    rw [List.foldl_nil, Disk.makeDirectories]
    rcases h.located with ⟨rfl, -⟩ | ⟨path, hread, hloc⟩
    · rfl
    · have hout : out ≠ [] := by
        rintro rfl
        cases hread
      rw [if_neg hout]
      exact ensureAll_of_ok (ensureDirectory_of_there (by rw [h.limits, hread]) hloc h.directory) _
  · have hpath : ∀ n ∈ names, n.IsPathName := fun n hn => (hnames n hn).toIsPathName
    rw [Disk.makeDirectories, if_neg (FilePath.foldl_joinPath_ne_nil out hne hpath),
      h.directoriesAbove_joined hne hnames]
    exact h.ensureAll_above hne hnames (h.approaches_joined hne hpath)

end directories

end FileTree

end ClassNotation
