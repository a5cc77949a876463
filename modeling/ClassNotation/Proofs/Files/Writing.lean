import ClassNotation.Proofs.Files.Packages
import ClassNotation.Proofs.References
import Mathlib.Data.List.Nodup

/-! Sources that are written into an empty directory. What is there afterwards is the directories
of the package and the files in front of the first name that is no name of a file. -/

namespace ClassNotation

/-- A name that the file of a class may have in front of its extension. -/
structure Text.IsFileName (n : Text) : Prop where
  nonempty : n ≠ []
  dot : n ≠ ".".toList
  dots : n ≠ "..".toList
  plain : ∀ c ∈ n, c ≠ '/' ∧ c ≠ '\\' ∧ isBlank c = false ∧ c ≠ '\x00'

namespace Text

variable {n : Text}

theorem isFileName_iff : n.IsFileName ↔ isSafeName n = true ∧ '\x00' ∉ n := by
  rw [isSafeName_iff]
  constructor
  · intro h
    refine ⟨⟨h.nonempty, h.dot, h.dots, fun c hc => ?_⟩, fun hnul => ?_⟩
    · obtain ⟨hs, hb, hw, -⟩ := h.plain c hc
      exact ⟨hs, hb, hw⟩
    · exact (h.plain _ hnul).2.2.2 rfl
  · rintro ⟨⟨hne, hdot, hdots, hplain⟩, hnul⟩
    refine ⟨hne, hdot, hdots, fun c hc => ?_⟩
    obtain ⟨hs, hb, hw⟩ := hplain c hc
    exact ⟨hs, hb, hw, fun he => hnul (he ▸ hc)⟩

theorem isEntryName_of_isSafeName (h : isSafeName n = true) (hnul : '\x00' ∉ n) :
    n.IsEntryName := by
  obtain ⟨hne, hdot, hdots, hplain⟩ := isSafeName_iff.1 h
  exact ⟨⟨hne, fun hs => (hplain _ hs).1 rfl, hnul⟩, hdot, hdots⟩

end Text

/-- The name of the file of a class. -/
def fileName (n : Text) : Text :=
  n ++ '.' :: Java.fileExtension

def sourcePath (directory n : Text) : Text :=
  joinPath directory (fileName n)

theorem fileName_injective : Function.Injective fileName :=
  fun _ _ h => List.append_cancel_right h

theorem sourcePath_injective (directory : Text) : Function.Injective (sourcePath directory) :=
  (joinPath_right_injective directory).comp fileName_injective

theorem isEntryName_fileName {n : Text} (h : n.IsFileName) : (fileName n).IsEntryName := by
  have hlength : (fileName n).length = n.length + 5 := List.length_append
  have hmem : ∀ c, c ∉ ".java".toList → c ∉ n → c ∉ fileName n :=
    fun c hext hn hc => (List.mem_append.1 hc).elim hn hext
  refine ⟨⟨fun he => ?_, hmem _ (by decide) fun hs => (h.plain _ hs).1 rfl,
    hmem _ (by decide) fun hs => (h.plain _ hs).2.2.2 rfl⟩, fun he => ?_, fun he => ?_⟩
  · rw [he] at hlength
    simp at hlength
  · rw [he] at hlength
    simp at hlength
  · rw [he] at hlength
    simp at hlength

section packageParts

variable {package : Option Text}

theorem isEntryName_of_mem_packageParts (hnul : ∀ p, package = some p → '\x00' ∉ p)
    (h : ∀ s ∈ packageParts package, isSafeName s = true) :
    ∀ s ∈ packageParts package, s.IsEntryName := by
  intro s hs
  refine Text.isEntryName_of_isSafeName (h s hs) fun hx => ?_
  cases package with
  | none => cases hs
  | some p => exact hnul p rfl ((Text.mem_splitOn hs).1.subset hx)

end packageParts

namespace FileTree

variable {tree : FileTree}

/-- Files for sources in a directory. -/
def files (place : Place) (sources : List (Text × Text)) : List (Place × Entry) :=
  sources.map fun s => (place ++ [fileName s.1], .file s.2)

section writeEntries

variable {directory name text : Text} {rest : List (Text × Text)}

theorem writeEntries_of_written {tree' : FileTree} (h : isSafeName name = true)
    (hw : tree.writeFile (sourcePath directory name) text = (.ok (), tree')) :
    writeEntries disk directory ((name, text) :: rest) tree =
      ((writeEntries disk directory rest tree').1.map (sourcePath directory name :: ·),
        (writeEntries disk directory rest tree').2) := by
  have hrun : disk.writeFile (joinPath directory (name ++ '.' :: Java.fileExtension)) text tree =
      (.ok (), tree') := hw
  simp only [writeEntries, h, if_true, bind, StateT.bind, hrun]
  rfl

theorem writeEntries_of_refused {f : FileFault} (h : isSafeName name = true)
    (hw : tree.writeFile (sourcePath directory name) text = (.error f, tree)) :
    writeEntries disk directory ((name, text) :: rest) tree = (.error (.file f), tree) := by
  have hrun : disk.writeFile (joinPath directory (name ++ '.' :: Java.fileExtension)) text tree =
      (.error f, tree) := hw
  simp only [writeEntries, h, if_true, bind, StateT.bind, hrun]
  rfl

theorem writeEntries_of_unsafe (h : isSafeName name = false) :
    writeEntries disk directory ((name, text) :: rest) tree =
      (.error (.invalidClassName name), tree) := by
  simp only [writeEntries, h, Bool.false_eq_true, if_false]
  rfl

/-- The files of some sources are written one after another, and those behind them come next. -/
theorem writeEntries_append {place : Place} {sources : List (Text × Text)}
    (hl : tree.limits = .unlimited) (hp : place.Proper)
    (happroach : ∀ n, n.IsEntryName → tree.Approaches (joinPath directory n) place [n])
    (hnames : ∀ s ∈ sources, s.1.IsFileName) (hd : (sources.map (·.1)).Nodup)
    (hnew : ∀ s ∈ sources, tree.entry? (place ++ [fileName s.1]) = none)
    {answer : Except ExportFault (List Text)} {tree' : FileTree}
    (hrun : writeEntries disk directory rest (tree.putAll (files place sources)) =
      (answer, tree')) :
    writeEntries disk directory (sources ++ rest) tree =
      (answer.map (sources.map (fun s => sourcePath directory s.1) ++ ·), tree') := by
  induction sources generalizing tree answer with
  | nil =>
    rw [List.nil_append]
    cases answer <;> exact hrun
  | cons s sources ih =>
    obtain ⟨hs, hrest⟩ := List.forall_mem_cons.1 hnames
    obtain ⟨hsd, hd⟩ := List.nodup_cons.1 hd
    obtain ⟨hsnew, hrestnew⟩ := List.forall_mem_cons.1 hnew
    have hentry := isEntryName_fileName hs
    have hwritten := writeFile_of_new (happroach _ hentry) hl hentry hsnew s.2
    have hkeeps : tree.Keeps (tree.put (place ++ [fileName s.1]) (.file s.2)) :=
      keeps_put (by simp) hsnew
    have hstill : ∀ r ∈ sources, FileTree.entry? (tree.put (place ++ [fileName s.1]) (.file s.2))
        (place ++ [fileName r.1]) = none := by
      intro r hr
      have hne : place ++ [fileName r.1] ≠ place ++ [fileName s.1] := by
        intro he
        have hname := List.singleton_inj.1 (List.append_cancel_left he)
        exact hsd (List.mem_map.2 ⟨r, hr, fileName_injective hname⟩)
      rw [entry?_put (by simp) (hp.append_single hentry)
        (hp.append_single (isEntryName_fileName (hrest r hr))), if_neg hne, hrestnew r hr]
    have htail := ih (hkeeps.limits.trans hl) (fun n hn => (happroach n hn).keeps hkeeps) hrest hd
      hstill hrun
    rw [List.cons_append, writeEntries_of_written (Text.isFileName_iff.1 hs).1 hwritten, htail]
    cases answer <;> rfl

end writeEntries

/-- What has come into a directory: directories one in another, and files in the last of them. -/
structure Exported (before after : FileTree) (base : Place) (parts : List Text)
    (sources : List (Text × Text)) : Prop where
  below : ∀ names, Place.Proper names → ∀ e, after.entry? (base ++ names) = some e ↔
    (names <+: parts ∧ e = .directory) ∨
      ∃ s ∈ sources, names = parts ++ [fileName s.1] ∧ e = .file s.2
  elsewhere : ∀ p, Place.Proper p → ¬ base <+: p → after.entry? p = before.entry? p

section exports

variable {out : Text} {base : Place} {package : Option Text} {parts : List Text}
  {sources : List (Text × Text)}

def exports (base : Place) (parts : List Text) (sources : List (Text × Text)) :
    List (Place × Entry) :=
  directories base parts ++ files (base ++ parts) sources

theorem mem_exports_iff {p : Place} {e : Entry} :
    (p, e) ∈ exports base parts sources ↔
      (∃ front, front ≠ [] ∧ front <+: parts ∧ p = base ++ front ∧ e = .directory) ∨
        ∃ s ∈ sources, p = base ++ (parts ++ [fileName s.1]) ∧ e = .file s.2 := by
  rw [exports, List.mem_append]
  refine or_congr ?_ ?_
  · rw [directories, List.mem_map]
    constructor
    · rintro ⟨q, hq, he⟩
      obtain ⟨rfl, rfl⟩ := Prod.mk.inj he
      obtain ⟨front, hne, hf, rfl⟩ := Place.mem_branch_iff.1 hq
      exact ⟨front, hne, hf, rfl, rfl⟩
    · rintro ⟨front, hne, hf, rfl, rfl⟩
      exact ⟨_, Place.mem_branch_iff.2 ⟨front, hne, hf, rfl⟩, rfl⟩
  · rw [files, List.mem_map]
    constructor
    · rintro ⟨s, hs, he⟩
      obtain ⟨rfl, rfl⟩ := Prod.mk.inj he
      exact ⟨s, hs, List.append_assoc _ _ _, rfl⟩
    · rintro ⟨s, hs, rfl, rfl⟩
      exact ⟨s, hs, by rw [List.append_assoc]⟩

theorem proper_exports (hb : base.Proper) (hparts : ∀ n ∈ parts, n.IsEntryName)
    (hnames : ∀ s ∈ sources, s.1.IsFileName) :
    ∀ x ∈ exports base parts sources, x.1 ≠ [] ∧ x.1.Proper := by
  refine List.forall_mem_append.2 ⟨proper_directories hb hparts, fun x hx => ?_⟩
  obtain ⟨s, hs, rfl⟩ := List.mem_map.1 hx
  have hp : Place.Proper (base ++ parts) := hb.append (Place.proper_of_entryNames hparts)
  exact ⟨by simp, hp.append_single (isEntryName_fileName (hnames s hs))⟩

theorem nodup_exports (base : Place) (parts : List Text) (hd : (sources.map (·.1)).Nodup) :
    ((exports base parts sources).map (·.1)).Nodup := by
  have hfiles : (files (base ++ parts) sources).map (·.1) =
      (sources.map (·.1)).map fun n => base ++ parts ++ [fileName n] := by
    rw [files, List.map_map, List.map_map]
    rfl
  have hinjective : Function.Injective fun n => base ++ parts ++ [fileName n] :=
    fun m n he => fileName_injective (List.singleton_inj.1 (List.append_cancel_left he))
  rw [exports, List.map_append, map_fst_directories, hfiles]
  refine List.nodup_append.2 ⟨Place.nodup_branch base parts, hd.map hinjective,
    fun p hp q hq he => ?_⟩
  obtain ⟨n, -, rfl⟩ := List.mem_map.1 hq
  have hl := (Place.length_le_of_mem_branch hp).2
  rw [he, List.length_append, List.length_append, List.length_singleton] at hl
  omega

theorem not_mem_exports (base : Place) (parts : List Text) (sources : List (Text × Text)) :
    base ∉ (exports base parts sources).map (·.1) := by
  intro hm
  obtain ⟨⟨p, e⟩, hx, he⟩ := List.mem_map.1 hm
  rcases mem_exports_iff.1 hx with ⟨front, hne, -, rfl, -⟩ | ⟨s, -, rfl, -⟩
  · exact hne (List.append_right_eq_self.1 he)
  · have hnil := List.append_right_eq_self.1 he
    simp at hnil

theorem IsEmptyDirectory.exported (h : tree.IsEmptyDirectory out base)
    (hparts : ∀ n ∈ parts, n.IsEntryName) (hnames : ∀ s ∈ sources, s.1.IsFileName)
    (hd : (sources.map (·.1)).Nodup) :
    Exported tree (tree.putAll (exports base parts sources)) base parts sources := by
  have hproper := proper_exports h.proper hparts hnames
  constructor
  · intro names hn e
    rw [entry?_putAll_iff hproper (nodup_exports base parts hd) (h.proper.append hn)]
    constructor
    · rintro (hx | ⟨-, hx⟩)
      · rcases mem_exports_iff.1 hx with ⟨front, -, hf, hp, rfl⟩ | ⟨s, hs, hp, rfl⟩
        · exact .inl ⟨List.append_cancel_left hp ▸ hf, rfl⟩
        · exact .inr ⟨s, hs, List.append_cancel_left hp, rfl⟩
      · by_cases hne : names = []
        · subst names
          rw [List.append_nil, h.directory, Option.some.injEq] at hx
          exact .inl ⟨List.nil_prefix, hx.symm⟩
        · rw [h.empty names hne hn] at hx
          cases hx
    · rintro (⟨hf, rfl⟩ | ⟨s, hs, rfl, rfl⟩)
      · by_cases hne : names = []
        · subst names
          rw [List.append_nil]
          exact .inr ⟨not_mem_exports base parts sources, h.directory⟩
        · exact .inl (mem_exports_iff.2 (.inl ⟨names, hne, hf, rfl, rfl⟩))
      · exact .inl (mem_exports_iff.2 (.inr ⟨s, hs, rfl, rfl⟩))
  · intro p hp hbase
    refine entry?_putAll_of_not_mem hproper hp fun hm => ?_
    obtain ⟨⟨q, f⟩, hx, rfl⟩ := List.mem_map.1 hm
    rcases mem_exports_iff.1 hx with ⟨front, -, -, rfl, -⟩ | ⟨s, -, rfl, -⟩
    · exact hbase (List.prefix_append _ _)
    · exact hbase (List.prefix_append _ _)

theorem IsEmptyDirectory.keeps_exports (h : tree.IsEmptyDirectory out base)
    (hparts : ∀ n ∈ parts, n.IsEntryName) (hnames : ∀ s ∈ sources, s.1.IsFileName)
    (hd : (sources.map (·.1)).Nodup) : tree.Keeps (tree.putAll (exports base parts sources)) := by
  refine keeps_putAll (proper_exports h.proper hparts hnames) (nodup_exports base parts hd) ?_
  rintro ⟨p, e⟩ hx
  have hproper := Place.proper_of_entryNames hparts
  rcases mem_exports_iff.1 hx with ⟨front, hne, hf, rfl, -⟩ | ⟨s, hs, rfl, -⟩
  · exact h.empty front hne fun n hn => hproper n (hf.subset hn)
  · exact h.empty _ (by simp) (hproper.append_single (isEntryName_fileName (hnames s hs)))

/-- The path of a source leads to its file. -/
theorem IsEmptyDirectory.readFile_exports (h : tree.IsEmptyDirectory out base)
    (hparts : ∀ n ∈ parts, n.IsEntryName) (hnames : ∀ s ∈ sources, s.1.IsFileName)
    (hd : (sources.map (·.1)).Nodup) (s : Text × Text) (hs : s ∈ sources) :
    (tree.putAll (exports base parts sources)).readFile
      (sourcePath (parts.foldl joinPath out) s.1) = .ok s.2 := by
  have hkeeps := h.keeps_exports hparts hnames hd
  have hlimits := hkeeps.limits.trans h.limits
  have hproper := proper_exports h.proper hparts hnames
  have hnodup := nodup_exports base parts hd
  have hentry := isEntryName_fileName (hnames s hs)
  have hwalk : (tree.putAll (exports base parts sources)).walk base parts =
      .ok (base ++ parts) :=
    walk_of_directories hlimits hparts fun front hne hf =>
      entry?_putAll_of_mem hproper hnodup (mem_exports_iff.2 (.inl ⟨front, hne, hf, rfl, rfl⟩))
  have hpath := ((h.approaches_joined_single hparts hentry).keeps hkeeps).walk hwalk
  refine readFile_of_there hpath hlimits hentry (entry?_putAll_of_mem hproper hnodup ?_)
  exact mem_exports_iff.2 (.inr ⟨s, hs, List.append_assoc _ _ _, rfl⟩)

/-- The directories of a package are made, and the sources in front of the others are written. How
it goes on with the others is up to them. -/
theorem IsEmptyDirectory.writeSources_append (h : tree.IsEmptyDirectory out base)
    (hsafe : ∀ s ∈ packageParts package, isSafeName s = true)
    (hparts : ∀ s ∈ packageParts package, s.IsEntryName) {all : Java.Sources}
    {rest : List (Text × Text)} (hall : all.entries = sources ++ rest)
    (hnames : ∀ s ∈ sources, s.1.IsFileName) {answer : Except ExportFault (List Text)}
    (hrun : ∀ after : FileTree,
      writeEntries disk ((packageParts package).foldl joinPath out) rest after =
        (answer, after)) :
    writeSources disk out package all tree =
      (answer.map (sources.map (fun s => sourcePath
        ((packageParts package).foldl joinPath out) s.1) ++ ·),
      tree.putAll (exports base (packageParts package) sources)) := by
  have hmade := h.makeDirectories_joined hparts
  have hkeeps := h.keeps_directories hparts
  have hplace : Place.Proper (base ++ packageParts package) :=
    h.proper.append (Place.proper_of_entryNames hparts)
  have happroach : ∀ n, n.IsEntryName →
      (tree.putAll (directories base (packageParts package))).Approaches
        (joinPath ((packageParts package).foldl joinPath out) n)
        (base ++ packageParts package) [n] := fun n hn =>
    ((h.approaches_joined_single hparts hn).keeps hkeeps).walk (h.walk_directories hparts)
  have hwritten := writeEntries_append (hkeeps.limits.trans h.limits) hplace happroach hnames
    (TextMap.nodup_of_entries_eq_append hall)
    (fun s hs => h.new_behind_directories hparts (isEntryName_fileName (hnames s hs)))
    (hrun _)
  rw [← hall, ← putAll_append] at hwritten
  simp only [writeSources, packageDirectory_of_safe hsafe, bind, StateT.bind, hmade]
  exact hwritten

end exports

end FileTree

theorem writeEntries_of_not_isFileName {directory n text : Text} (h : ¬ n.IsFileName)
    (rest : List (Text × Text)) (tree : FileTree) :
    writeEntries FileTree.disk directory ((n, text) :: rest) tree =
      (.error (if isSafeName n then .file .nulInPath else .invalidClassName n), tree) := by
  cases hs : isSafeName n with
  | false => exact FileTree.writeEntries_of_unsafe hs
  | true =>
    have hnul : '\x00' ∈ n := by
      refine Classical.byContradiction fun hnul => h (Text.isFileName_iff.2 ⟨hs, hnul⟩)
    have hpath : '\x00' ∈ sourcePath directory n :=
      nul_mem_joinPath_iff.2 (.inr (List.mem_append_left _ hnul))
    exact FileTree.writeEntries_of_refused hs (FileTree.writeFile_of_nul hpath text)

theorem exists_first_not_isFileName {sources : List (Text × Text)}
    (h : ¬ ∀ s ∈ sources, s.1.IsFileName) :
    ∃ written n text unwritten, sources = written ++ (n, text) :: unwritten ∧
      (∀ s ∈ written, s.1.IsFileName) ∧ ¬ n.IsFileName := by
  induction sources with
  | nil => exact absurd (fun s hs => absurd hs List.not_mem_nil) h
  | cons s sources ih =>
    by_cases hs : s.1.IsFileName
    · have hrest : ¬ ∀ r ∈ sources, r.1.IsFileName :=
        fun hrest => h (List.forall_mem_cons.2 ⟨hs, hrest⟩)
      obtain ⟨written, n, text, unwritten, rfl, hwritten, hn⟩ := ih hrest
      exact ⟨s :: written, n, text, unwritten, rfl, List.forall_mem_cons.2 ⟨hs, hwritten⟩, hn⟩
    · exact ⟨[], s.1, s.2, sources, rfl, List.forall_mem_nil _, hs⟩

/-- Of the names that a diagram gives its classes, some are no names of files. -/
theorem ClassBlock.WellFormed.isFileName_iff {b : ClassBlock} (h : b.WellFormed) :
    b.name.IsFileName ↔ b.name ≠ ".".toList ∧ b.name ≠ "..".toList ∧ '/' ∉ b.name ∧
      '\\' ∉ b.name ∧ '\x00' ∉ b.name := by
  obtain ⟨hne, hblank⟩ := Text.isName_iff.1 h.name
  constructor
  · intro hf
    exact ⟨hf.dot, hf.dots, fun hc => (hf.plain _ hc).1 rfl, fun hc => (hf.plain _ hc).2.1 rfl,
      fun hc => (hf.plain _ hc).2.2.2 rfl⟩
  · rintro ⟨hdot, hdots, hslash, hback, hnul⟩
    refine ⟨hne, hdot, hdots, fun c hc => ⟨?_, ?_, hblank c hc, ?_⟩⟩
    · rintro rfl
      exact hslash hc
    · rintro rfl
      exact hback hc
    · rintro rfl
      exact hnul hc

section

variable {tree : FileTree} {out : Text} {base : Place} {package : Option Text}

theorem writeSources_of_isFileName (h : tree.IsEmptyDirectory out base)
    (hnul : ∀ p, package = some p → '\x00' ∉ p)
    (hsafe : ∀ s ∈ packageParts package, isSafeName s = true) {sources : Java.Sources}
    (hnames : ∀ n ∈ sources.keys, n.IsFileName) :
    ∃ after, writeSources FileTree.disk out package sources tree =
        (.ok (sources.keys.map (sourcePath ((packageParts package).foldl joinPath out))), after) ∧
      tree.Exported after base (packageParts package) sources.entries ∧
      ∀ s ∈ sources.entries,
        after.readFile (sourcePath ((packageParts package).foldl joinPath out) s.1) = .ok s.2 := by
  have hparts := isEntryName_of_mem_packageParts hnul hsafe
  have hentries : ∀ s ∈ sources.entries, s.1.IsFileName :=
    fun s hs => hnames s.1 (List.mem_map_of_mem hs)
  refine ⟨_, ?_, h.exported hparts hentries sources.nodup_keys,
    h.readFile_exports hparts hentries sources.nodup_keys⟩
  have hpaths : sources.entries.map (fun s => sourcePath
      ((packageParts package).foldl joinPath out) s.1) ++ [] =
        sources.keys.map (sourcePath ((packageParts package).foldl joinPath out)) := by
    rw [List.append_nil, TextMap.keys, List.map_map]
    rfl
  rw [h.writeSources_append hsafe hparts (List.append_nil _).symm hentries fun _ => rfl, ← hpaths]
  rfl

theorem writeSources_of_not_isFileName (h : tree.IsEmptyDirectory out base)
    (hnul : ∀ p, package = some p → '\x00' ∉ p)
    (hsafe : ∀ s ∈ packageParts package, isSafeName s = true) {sources : Java.Sources}
    {written unwritten : List (Text × Text)} {n text : Text}
    (hall : sources.entries = written ++ (n, text) :: unwritten)
    (hwritten : ∀ s ∈ written, s.1.IsFileName) (hn : ¬ n.IsFileName) :
    ∃ after, writeSources FileTree.disk out package sources tree =
        (.error (if isSafeName n then .file .nulInPath else .invalidClassName n), after) ∧
      tree.Exported after base (packageParts package) written ∧
      ∀ s ∈ written,
        after.readFile (sourcePath ((packageParts package).foldl joinPath out) s.1) = .ok s.2 := by
  have hd := TextMap.nodup_of_entries_eq_append hall
  have hparts := isEntryName_of_mem_packageParts hnul hsafe
  refine ⟨_, ?_, h.exported hparts hwritten hd, h.readFile_exports hparts hwritten hd⟩
  exact h.writeSources_append hsafe hparts hall hwritten fun after =>
    writeEntries_of_not_isFileName hn unwritten after

/-- What is written into an empty directory, whatever the names of the sources are. Of the classes
of a text that has been read, all are written unless the name of one of them leads elsewhere. -/
theorem writeSources_exact (h : tree.IsEmptyDirectory out base)
    (hnul : ∀ p, package = some p → '\x00' ∉ p) :
    (∀ p, package = some p → (∃ s ∈ p.splitOn '.', isSafeName s = false) → ∀ sources,
      writeSources FileTree.disk out package sources tree = (.error (.invalidPackage p), tree)) ∧
    ((∀ s ∈ packageParts package, isSafeName s = true) →
      ∃ directory, packageDirectory out package = .ok directory ∧
      (∀ sources : Java.Sources, (∀ n ∈ sources.keys, n.IsFileName) →
        (sources.keys.map (sourcePath directory)).Nodup ∧
        ∃ after, writeSources FileTree.disk out package sources tree =
            (.ok (sources.keys.map (sourcePath directory)), after) ∧
          tree.Exported after base (packageParts package) sources.entries ∧
          ∀ s ∈ sources.entries, after.readFile (sourcePath directory s.1) = .ok s.2) ∧
      (∀ (sources : Java.Sources) written n text unwritten,
        sources.entries = written ++ (n, text) :: unwritten →
        (∀ s ∈ written, s.1.IsFileName) → ¬ n.IsFileName →
        ∃ after, writeSources FileTree.disk out package sources tree =
            (.error (if isSafeName n then .file .nulInPath else .invalidClassName n), after) ∧
          tree.Exported after base (packageParts package) written ∧
          ∀ s ∈ written, after.readFile (sourcePath directory s.1) = .ok s.2) ∧
      ∀ t blocks, readBlocks t = .ok blocks → ∀ stated,
        ((∃ paths, (writeSources FileTree.disk out package (Java.sources stated blocks) tree).1 =
            .ok paths) ↔
          ∀ b ∈ blocks, b.name ≠ ".".toList ∧ b.name ≠ "..".toList ∧ '/' ∉ b.name ∧
            '\\' ∉ b.name ∧ '\x00' ∉ b.name)) := by
  refine ⟨?_, fun hsafe => ⟨_, packageDirectory_of_safe hsafe, fun sources hnames => ?_,
    fun sources written n text unwritten => writeSources_of_not_isFileName h hnul hsafe,
    fun t blocks hread stated => ?_⟩⟩
  · rintro p rfl ⟨s, hs, hunsafe⟩ sources
    simp only [writeSources, packageDirectory_of_unsafe hs hunsafe]
    rfl
  · exact ⟨sources.nodup_keys.map (sourcePath_injective _),
      writeSources_of_isFileName h hnul hsafe hnames⟩
  · have hname : ∀ b ∈ blocks, (b.name.IsFileName ↔ _) := fun b hb =>
      (wellFormed_of_readBlocks hread hb).1.isFileName_iff
    constructor
    · rintro ⟨paths, hok⟩ b hb
      refine (hname b hb).1 (Classical.byContradiction fun hn => ?_)
      have hsome : ¬ ∀ s ∈ (Java.sources stated blocks).entries, s.1.IsFileName := by
        intro hall
        obtain ⟨s, hs, he⟩ := List.mem_map.1 (Java.mem_keys_sources.2 (List.mem_map_of_mem hb))
        exact hn (he ▸ hall s hs)
      obtain ⟨written, n, text, unwritten, hall, hwritten, hfirst⟩ :=
        exists_first_not_isFileName hsome
      obtain ⟨after, hrun, -⟩ := writeSources_of_not_isFileName h hnul hsafe hall hwritten hfirst
      rw [hrun] at hok
      cases hok
    · intro hall
      have hkeys : ∀ n ∈ (Java.sources stated blocks).keys, n.IsFileName := by
        intro n hn
        obtain ⟨b, hb, rfl⟩ := List.mem_map.1 (Java.mem_keys_sources.1 hn)
        exact (hname b hb).2 (hall b hb)
      obtain ⟨after, hrun, -⟩ := writeSources_of_isFileName h hnul hsafe hkeys
      exact ⟨_, congrArg Prod.fst hrun⟩

end

/-- Of three classes the second has a name that is no part of a path, and of a diagram the only
class has one with a slash. -/
theorem writeSources_exact_fresh :
    (∃ after, writeSources FileTree.disk [] (some "p.q".toList)
        (TextMap.ofList [("A".toList, "a".toList), ("B\x00".toList, "b".toList),
          ("C".toList, "c".toList)]) (.fresh ["w".toList]) = (.error (.file .nulInPath), after) ∧
      FileTree.Exported (.fresh ["w".toList]) after ["w".toList] ["p".toList, "q".toList]
        [("A".toList, "a".toList)] ∧
      after.readFile "p/q/A.java".toList = .ok "a".toList) ∧
    readBlocks "A/B\n---\n---\n---".toList = .ok [.ofLines ⟨"A/B".toList, none⟩ [] [] []] ∧
    ¬ ∃ paths, (writeSources FileTree.disk [] (some "p.q".toList)
      (Java.sources none [.ofLines ⟨"A/B".toList, none⟩ [] [] []])
      (.fresh ["w".toList])).1 = .ok paths := by
  have hfresh := FileTree.isEmptyDirectory_fresh
    (show Place.Proper ["w".toList] by simp [Place.Proper])
  have hnul : ∀ p, some "p.q".toList = some p → '\x00' ∉ p := by
    rintro p ⟨⟩
    decide
  have hread : readBlocks "A/B\n---\n---\n---".toList =
      .ok [.ofLines ⟨"A/B".toList, none⟩ [] [] []] := by decide +kernel
  obtain ⟨directory, hdirectory, -, hstopped, hdiagram⟩ :=
    (writeSources_exact hfresh hnul).2 (by decide)
  obtain rfl : "p/q".toList = directory := Except.ok.inj hdirectory
  have hwritten : ∀ s ∈ [("A".toList, "a".toList)], Text.IsFileName s.1 := by
    intro s hs
    rw [List.mem_singleton.1 hs]
    exact Text.isFileName_iff.2 (by decide)
  obtain ⟨after, hrun, hexported, hfile⟩ := hstopped
    (TextMap.ofList [("A".toList, "a".toList), ("B\x00".toList, "b".toList),
      ("C".toList, "c".toList)]) [("A".toList, "a".toList)] "B\x00".toList "b".toList
    [("C".toList, "c".toList)] (by decide) hwritten
    fun hn => (Text.isFileName_iff.1 hn).2 (by decide)
  refine ⟨⟨after, hrun, hexported, hfile _ List.mem_cons_self⟩, hread, fun hok => ?_⟩
  obtain ⟨-, -, hslash, -⟩ := (hdiagram _ _ hread none).1 hok _ List.mem_cons_self
  exact hslash (by decide)

end ClassNotation
