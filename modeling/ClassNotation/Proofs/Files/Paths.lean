import ClassNotation.Export
import ClassNotation.Proofs.Text.Parts
import Mathlib.Data.List.Basic

/-! The names of a path. A path that is joined from names has them behind the names of the path in
front, and so has the text of a path that was read. -/

namespace ClassNotation

/-- A name that a path can have between its slashes. -/
structure Text.IsPathName (n : Text) : Prop where
  nonempty : n ≠ []
  slash : '/' ∉ n
  nul : '\x00' ∉ n

theorem Text.IsPathName.getLast? {n : Text} (h : n.IsPathName) : n.getLast? ≠ some '/' :=
  fun hl => h.slash (List.mem_of_getLast? hl)

section joinPath

variable {d n : Text}

theorem joinPath_of_open (h : d = [] ∨ d.getLast? = some '/') : joinPath d n = d ++ n := by
  rw [joinPath, if_pos h]

theorem joinPath_of_closed (hne : d ≠ []) (hl : d.getLast? ≠ some '/') :
    joinPath d n = d ++ '/' :: n := by
  rw [joinPath, if_neg (by simp [hne, hl])]

theorem getLast?_joinPath (h : n ≠ []) : (joinPath d n).getLast? = n.getLast? := by
  rw [joinPath]
  split
  · rw [List.getLast?_append, List.getLast?_eq_some_getLast h]
    rfl
  · rw [List.getLast?_append, List.getLast?_cons, List.getLast?_eq_some_getLast h]
    rfl

theorem joinPath_ne_nil (h : n ≠ []) : joinPath d n ≠ [] := by
  intro he
  have hl : (joinPath d n).getLast? = n.getLast? := getLast?_joinPath h
  rw [he, List.getLast?_nil] at hl
  exact h (List.getLast?_eq_none_iff.1 hl.symm)

theorem joinPath_right_injective (d : Text) : Function.Injective (joinPath d) := by
  intro m n h
  unfold joinPath at h
  split at h
  · exact List.append_cancel_left h
  · exact (List.cons.inj (List.append_cancel_left h)).2

theorem nul_mem_joinPath_iff : '\x00' ∈ joinPath d n ↔ '\x00' ∈ d ∨ '\x00' ∈ n := by
  rw [joinPath]
  split <;> simp

theorem head?_joinPath (h : '/' ∉ n) :
    (joinPath d n).head? = some '/' ↔ d.head? = some '/' := by
  cases d with
  | nil =>
    rw [joinPath_of_open (.inl rfl), List.nil_append]
    exact ⟨fun hh => absurd (List.mem_of_head? hh) h, fun hh => by cases hh⟩
  | cons c d =>
    rw [joinPath]
    split <;> simp

end joinPath

namespace FilePath

/-- The names between the slashes of a text. -/
def namesOf (t : Text) : List Text :=
  (t.splitOn '/').filter (· ≠ [])

theorem read_unlimited {t : Text} (hnul : '\x00' ∉ t) (hne : t ≠ []) :
    read .unlimited t = .ok ⟨t.head? = some '/', namesOf t, t.getLast? = some '/'⟩ := by
  rw [read, if_neg hnul, if_neg hne]
  rfl

theorem namesOf_append_slash (a b : Text) : namesOf (a ++ '/' :: b) = namesOf a ++ namesOf b := by
  rw [namesOf, List.splitOn_append_cons_self, List.filter_append, ← namesOf, ← namesOf]

theorem namesOf_single {n : Text} (hne : n ≠ []) (hs : '/' ∉ n) : namesOf n = [n] := by
  rw [namesOf, List.splitOn_eq_singleton hs]
  simp [hne]

theorem namesOf_joinPath (d : Text) {n : Text} (hne : n ≠ []) (hs : '/' ∉ n) :
    namesOf (joinPath d n) = namesOf d ++ [n] := by
  have hn := namesOf_single hne hs
  by_cases hd : d = []
  · subst d
    rw [joinPath_of_open (.inl rfl), List.nil_append, hn]
    rfl
  by_cases hl : d.getLast? = some '/'
  · obtain ⟨d, rfl⟩ := List.getLast?_eq_some_iff.1 hl
    have hempty : namesOf [] = [] := rfl
    rw [joinPath_of_open (.inr hl), List.append_assoc, List.singleton_append,
      namesOf_append_slash, namesOf_append_slash, hn, hempty, List.append_nil]
  · rw [joinPath_of_closed hd hl, namesOf_append_slash, hn]

section foldl

variable {names : List Text}

theorem namesOf_foldl_joinPath (d : Text) (h : ∀ n ∈ names, n ≠ [] ∧ '/' ∉ n) :
    namesOf (names.foldl joinPath d) = namesOf d ++ names := by
  induction names generalizing d with
  | nil => exact (List.append_nil _).symm
  | cons n names ih =>
    obtain ⟨⟨hne, hs⟩, hrest⟩ := List.forall_mem_cons.1 h
    rw [List.foldl_cons, ih _ hrest, namesOf_joinPath d hne hs, List.append_assoc]
    rfl

theorem head?_foldl_joinPath (d : Text) (h : ∀ n ∈ names, n ≠ [] ∧ '/' ∉ n) :
    (names.foldl joinPath d).head? = some '/' ↔ d.head? = some '/' := by
  induction names generalizing d with
  | nil => rfl
  | cons n names ih =>
    obtain ⟨hn, hrest⟩ := List.forall_mem_cons.1 h
    rw [List.foldl_cons, ih _ hrest, head?_joinPath hn.2]

theorem nul_not_mem_foldl_joinPath {d : Text} (hd : '\x00' ∉ d)
    (h : ∀ n ∈ names, n.IsPathName) : '\x00' ∉ names.foldl joinPath d := by
  induction names generalizing d with
  | nil => exact hd
  | cons n names ih =>
    obtain ⟨hn, hrest⟩ := List.forall_mem_cons.1 h
    refine ih ?_ hrest
    rw [nul_mem_joinPath_iff, not_or]
    exact ⟨hd, hn.nul⟩

theorem foldl_joinPath_ne_nil (d : Text) (hne : names ≠ []) (h : ∀ n ∈ names, n.IsPathName) :
    names.foldl joinPath d ≠ [] := by
  obtain ⟨front, n, rfl⟩ := (List.eq_nil_or_concat names).resolve_left hne
  rw [List.concat_eq_append] at h ⊢
  rw [List.foldl_append]
  exact joinPath_ne_nil (h n (by simp)).nonempty

/-- A path that is joined from names is read back with them. -/
theorem read_foldl_joinPath {d : Text} (hd : '\x00' ∉ d) (hne : names ≠ [])
    (h : ∀ n ∈ names, n.IsPathName) :
    read .unlimited (names.foldl joinPath d) =
      .ok ⟨d.head? = some '/', namesOf d ++ names, false⟩ := by
  have hnonempty := foldl_joinPath_ne_nil d hne h
  obtain ⟨front, n, rfl⟩ := (List.eq_nil_or_concat names).resolve_left hne
  rw [List.concat_eq_append] at h hnonempty ⊢
  have hn := h n (by simp)
  have hlast : ((front ++ [n]).foldl joinPath d).getLast? ≠ some '/' := by
    rw [List.foldl_append]
    show (joinPath _ n).getLast? ≠ some '/'
    rw [getLast?_joinPath hn.nonempty]
    exact hn.getLast?
  have hnames : ∀ m ∈ front ++ [n], m ≠ [] ∧ '/' ∉ m := fun m hm =>
    ⟨(h m hm).nonempty, (h m hm).slash⟩
  rw [read_unlimited (nul_not_mem_foldl_joinPath hd h) hnonempty, namesOf_foldl_joinPath d hnames]
  simp only [head?_foldl_joinPath d hnames, hlast, decide_false]

theorem foldl_joinPath_of_closed {d : Text} (hd : d ≠ []) (hl : d.getLast? ≠ some '/')
    (h : ∀ n ∈ names, n.IsPathName) :
    names.foldl joinPath d = d ++ names.flatMap ('/' :: ·) := by
  induction names generalizing d with
  | nil => exact (List.append_nil d).symm
  | cons n names ih =>
    obtain ⟨hn, hrest⟩ := List.forall_mem_cons.1 h
    have hlast : (joinPath d n).getLast? ≠ some '/' := by
      rw [getLast?_joinPath hn.nonempty]
      exact hn.getLast?
    rw [List.foldl_cons, ih (joinPath_ne_nil hn.nonempty) hlast hrest, joinPath_of_closed hd hl,
      List.flatMap_cons, List.append_assoc]

theorem intercalate_slash (n : Text) (names : List Text) :
    "/".toList.intercalate (n :: names) = n ++ names.flatMap ('/' :: ·) :=
  Text.intercalate_cons ['/'] n names

end foldl

theorem toText_eq_foldl_joinPath {p : FilePath} (hne : p.names ≠ [])
    (h : ∀ n ∈ p.names, n.IsPathName) :
    p.toText = p.names.foldl joinPath (if p.isAbsolute then ['/'] else []) := by
  obtain ⟨isAbsolute, names, endsInSlash⟩ := p
  cases names with
  | nil => exact absurd rfl hne
  | cons n names =>
    obtain ⟨hn, hrest⟩ := List.forall_mem_cons.1 h
    have hopen : joinPath (if isAbsolute then ['/'] else []) n =
        (if isAbsolute then ['/'] else []) ++ n := by
      refine joinPath_of_open ?_
      cases isAbsolute <;> simp
    have hlast : (joinPath (if isAbsolute then ['/'] else []) n).getLast? ≠ some '/' := by
      rw [getLast?_joinPath hn.nonempty]
      exact hn.getLast?
    rw [List.foldl_cons, foldl_joinPath_of_closed (joinPath_ne_nil hn.nonempty) hlast hrest,
      hopen, toText, intercalate_slash, List.append_assoc]

/-- The text of a path is read back as the path, but for a slash at its end. -/
theorem read_toText {p : FilePath} (hne : p.names ≠ []) (h : ∀ n ∈ p.names, n.IsPathName) :
    read .unlimited p.toText = .ok { p with endsInSlash := false } := by
  rw [toText_eq_foldl_joinPath hne h]
  obtain ⟨isAbsolute, names, endsInSlash⟩ := p
  cases isAbsolute with
  | false => exact read_foldl_joinPath (by simp) hne h
  | true => exact read_foldl_joinPath (by simp) hne h

end FilePath

end ClassNotation
