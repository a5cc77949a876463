import ClassNotation.Conversion
import ClassNotation.Proofs.Joining
import ClassNotation.Proofs.References

/-! The sources of blocks that are put behind one another: what the blocks in front generate,
overridden by what those behind do. So only blocks of one name depend on their order. -/

namespace ClassNotation

namespace TextMap

variable {α β : Type}

/-- The entries of both maps. Where both have a key, the second counts. -/
def override (m n : TextMap α) : TextMap α :=
  ofList (m.entries ++ n.entries)

def map (f : α → β) (m : TextMap α) : TextMap β :=
  ⟨m.entries.map fun (k, v) => (k, f v), List.Pairwise.map _ (fun _ _ h => h) m.increasing⟩

theorem get?_ofList_of_nodup {es : List (Text × α)} (h : (es.map (·.1)).Nodup) {k : Text} {v : α} :
    (ofList es).get? k = some v ↔ (k, v) ∈ es := by
  have hreverse : (es.reverse.map (·.1)).Nodup := ((List.reverse_perm es).map _).nodup_iff.2 h
  rw [get?_ofList, lookup_eq_some_iff hreverse, List.mem_reverse]

theorem ofList_eq_of_perm {es fs : List (Text × α)} (h : es.Perm fs)
    (hn : (fs.map (·.1)).Nodup) : ofList es = ofList fs := by
  have hn' : (es.map (·.1)).Nodup := (h.map _).nodup_iff.2 hn
  refine ext_get? fun k => Option.ext fun v => ?_
  rw [get?_ofList_of_nodup hn, get?_ofList_of_nodup hn', h.mem_iff]

theorem get?_ofList_entries (m : TextMap α) (k : Text) : (ofList m.entries).get? k = m.get? k :=
  Option.ext fun _ => (get?_ofList_of_nodup m.nodup_keys).trans get?_eq_some_iff.symm

theorem get?_override (m n : TextMap α) (k : Text) :
    (m.override n).get? k = (n.get? k).or (m.get? k) := by
  rw [override, get?_ofList, List.reverse_append, List.lookup_append, ← get?_ofList, ← get?_ofList,
    get?_ofList_entries, get?_ofList_entries]

theorem get?_eq_none_iff {m : TextMap α} {k : Text} : m.get? k = none ↔ k ∉ m.keys := by
  rw [mem_keys_iff, Option.eq_none_iff_forall_ne_some, not_exists]

theorem override_comm {m n : TextMap α} (h : ∀ k ∈ m.keys, k ∉ n.keys) :
    m.override n = n.override m := by
  refine ext_get? fun k => ?_
  rw [get?_override, get?_override]
  by_cases hk : k ∈ m.keys
  · rw [get?_eq_none_iff.2 (h k hk), Option.none_or, Option.or_none]
  · rw [get?_eq_none_iff.2 hk, Option.none_or, Option.or_none]

theorem get?_map (f : α → β) (m : TextMap α) (k : Text) : (m.map f).get? k = (m.get? k).map f := by
  show (m.entries.map fun (l, v) => (l, f v)).lookup k = (m.entries.lookup k).map f
  induction m.entries with
  | nil => rfl
  | cons e es ih =>
    obtain ⟨l, v⟩ := e
    rw [List.map_cons, lookup_cons_ite, lookup_cons_ite, ih]
    split <;> rfl

end TextMap

namespace Java

theorem sources_append (package : Option Text) (xs ys : List ClassBlock) :
    sources package (xs ++ ys) = (sources package xs).override (sources package ys) := by
  refine TextMap.ext_get? fun k => ?_
  rw [TextMap.get?_override]
  simp only [sources, TextMap.get?_ofList, List.map_append, List.reverse_append,
    List.lookup_append]

/-- Of the blocks of one name the last has the source. -/
theorem get?_sources (package : Option Text) (bs : List ClassBlock) (name : Text) :
    (sources package bs).get? name =
      (bs.filter (·.name = name)).getLast?.map (source package) := by
  induction bs using List.reverseRecOn with
  | nil => rfl
  | append_singleton bs b ih =>
    have hlast : (sources package [b]).get? name =
        if name = b.name then some (source package b) else none :=
      TextMap.get?_insert TextMap.empty b.name name (source package b)
    rw [sources_append, TextMap.get?_override, hlast, ih, List.filter_append]
    by_cases hb : b.name = name
    · simp [hb]
    · simp [hb, Ne.symm hb]

theorem sources_eq_of_perm (package : Option Text) {xs ys : List ClassBlock} (h : xs.Perm ys)
    (hn : (ys.map (·.name)).Nodup) : sources package xs = sources package ys := by
  refine TextMap.ofList_eq_of_perm (h.map _) ?_
  rw [List.map_map]
  exact hn

theorem source_eq_append (package : Option Text) (b : ClassBlock) :
    source package b = packageClause package ++ source none b := by
  have hnone : packageClause none = [] := rfl
  simp only [source, List.append_assoc, hnone, List.nil_append]

theorem sources_some (p : Text) (bs : List ClassBlock) :
    sources (some p) bs =
      (sources none bs).map ("package ".toList ++ p ++ ";\n\n".toList ++ ·) := by
  refine TextMap.ext_get? fun k => ?_
  rw [TextMap.get?_map, get?_sources, get?_sources, Option.map_map]
  exact congrArg (Option.map · _) (funext (source_eq_append (some p)))

end Java

section texts

variable (package : Option Text) {a b : Text} {xs ys : List ClassBlock}

theorem convert_joined (ha : readBlocks a = .ok xs) (hb : readBlocks b = .ok ys) :
    convert package (a ++ '\n' :: b) =
      .ok ((Java.sources package xs).override (Java.sources package ys)) := by
  rw [convert, readBlocks_joined ha, hb, ← Java.sources_append]
  rfl

theorem convert_joined_comm (ha : readBlocks a = .ok xs) (hb : readBlocks b = .ok ys)
    (h : ∀ n ∈ xs.map (·.name), n ∉ ys.map (·.name)) :
    convert package (b ++ '\n' :: a) =
      .ok ((Java.sources package xs).override (Java.sources package ys)) := by
  rw [convert_joined package hb ha, TextMap.override_comm]
  intro n hys hxs
  exact h n (Java.mem_keys_sources.1 hxs) (Java.mem_keys_sources.1 hys)

end texts

/-- Sources are merged as blocks are put behind one another: the last block of a name has the
source, where a look-up in the diagram finds the first. Without two blocks of one name the order
counts for nothing, in a list of blocks and between texts that are joined. A package only stands in
front of each source. -/
theorem Java.sources_merged (package : Option Text) (xs ys : List ClassBlock) :
    sources package (xs ++ ys) = (sources package xs).override (sources package ys) ∧
    (∀ name, name ∈ (sources package xs).keys ↔ ∃ b ∈ xs, b.name = name) ∧
    (∀ name, (sources package xs).get? name =
      (xs.filter (·.name = name)).getLast?.map (source package)) ∧
    (∀ name, (Diagram.mk xs).find? name = (xs.filter (·.name = name)).head?) ∧
    ((xs.map (·.name)).Nodup → ∀ zs, zs.Perm xs → sources package zs = sources package xs) ∧
    (∀ p, sources (some p) xs =
      (sources none xs).map ("package ".toList ++ p ++ ";\n\n".toList ++ ·)) ∧
    ∀ a b d e, Diagram.parse a = .ok d → Diagram.parse b = .ok e →
      (∀ n ∈ d.names, n ∉ e.names) →
      ∃ s, convert package (a ++ '\n' :: b) = .ok s ∧
        convert package (b ++ '\n' :: a) = .ok s := by
  refine ⟨sources_append package xs ys, fun name => ?_, get?_sources package xs, fun name => ?_,
    fun hn zs hz => sources_eq_of_perm package hz hn, fun p => sources_some p xs, ?_⟩
  · rw [mem_keys_sources, List.mem_map]
  · exact List.head?_filter.symm
  · intro a b d e hd he hdisjoint
    obtain ⟨as, ha, rfl⟩ := except_map_eq_ok_iff.1 hd
    obtain ⟨bs, hb, rfl⟩ := except_map_eq_ok_iff.1 he
    exact ⟨_, convert_joined package ha hb, convert_joined_comm package ha hb hdisjoint⟩

/-- A class and one that refers to it, as blocks and as texts. -/
theorem Java.sources_merged_twoClasses :
    sources (some "p".toList) [.ofLines ⟨"B".toList, none⟩ [] [] [],
        .ofLines ⟨"A".toList, some .interface⟩ [] [] []] =
      sources (some "p".toList) [.ofLines ⟨"A".toList, some .interface⟩ [] [] [],
        .ofLines ⟨"B".toList, none⟩ [] [] []] ∧
    ∃ s,
      convert (some "p".toList) "A\n---\n---\n---\nB\nextends A\n---\n---\n---".toList = .ok s ∧
      convert (some "p".toList) "B\nextends A\n---\n---\n---\nA\n---\n---\n---".toList = .ok s := by
  obtain ⟨-, -, -, -, hperm, -, hjoined⟩ := sources_merged (some "p".toList)
    [.ofLines ⟨"A".toList, some .interface⟩ [] [] [], .ofLines ⟨"B".toList, none⟩ [] [] []] []
  refine ⟨hperm (by decide) _ (.swap _ _ _), ?_⟩
  exact hjoined "A\n---\n---\n---".toList "B\nextends A\n---\n---\n---".toList
    ⟨[.ofLines ⟨"A".toList, none⟩ [] [] []]⟩
    ⟨[.ofLines ⟨"B".toList, none⟩ [⟨.generalization, ["A".toList]⟩] [] []]⟩
    (by decide +kernel) (by decide +kernel) (by decide +kernel)

end ClassNotation
