import ClassNotation.Text.Basic

/-! Maps and sets with texts as keys, kept in increasing order. A map is determined by what
it answers for each key, so equal contents are equal maps and list the same way. -/

namespace ClassNotation

theorem Text.lt_of_not_lt {a b : Text} (hne : a ≠ b) (h : ¬ a < b) : b < a :=
  Classical.byContradiction fun h' => hne (Std.Trichotomous.trichotomous a b h h')

structure TextMap (α : Type) where
  entries : List (Text × α)
  increasing : entries.Pairwise fun a b => a.1 < b.1
  deriving DecidableEq

namespace TextMap

variable {α : Type}

def empty : TextMap α :=
  ⟨[], List.Pairwise.nil⟩

def insertEntry (k : Text) (v : α) : List (Text × α) → List (Text × α)
  | [] => [(k, v)]
  | (l, w) :: rest =>
    if k = l then (k, v) :: rest
    else if k < l then (k, v) :: (l, w) :: rest
    else (l, w) :: insertEntry k v rest

theorem mem_insertEntry {k : Text} {v : α} {es : List (Text × α)} {e : Text × α}
    (h : e ∈ insertEntry k v es) : e = (k, v) ∨ e ∈ es := by
  induction es with
  | nil => simpa [insertEntry] using h
  | cons x rest ih =>
    obtain ⟨l, w⟩ := x
    simp only [insertEntry] at h
    split at h
    · rcases List.mem_cons.1 h with h | h
      · exact .inl h
      · exact .inr (List.mem_cons_of_mem _ h)
    · split at h
      · exact List.mem_cons.1 h
      · rcases List.mem_cons.1 h with h | h
        · exact .inr (h ▸ List.mem_cons_self)
        · exact (ih h).imp id (List.mem_cons_of_mem _)

theorem pairwise_insertEntry (k : Text) (v : α) {es : List (Text × α)}
    (h : es.Pairwise fun a b => a.1 < b.1) :
    (insertEntry k v es).Pairwise fun a b => a.1 < b.1 := by
  induction es with
  | nil => exact List.pairwise_singleton _ _
  | cons x rest ih =>
    obtain ⟨l, w⟩ := x
    obtain ⟨hl, hr⟩ := List.pairwise_cons.1 h
    simp only [insertEntry]
    split
    · subst k
      exact List.pairwise_cons.2 ⟨hl, hr⟩
    · split
      · rename_i hk
        refine List.pairwise_cons.2 ⟨fun e he => ?_, h⟩
        rcases List.mem_cons.1 he with rfl | he
        · exact hk
        · exact List.lt_trans hk (hl e he)
      · rename_i hne hk
        refine List.pairwise_cons.2 ⟨fun e he => ?_, ih hr⟩
        rcases mem_insertEntry he with rfl | he
        · exact Text.lt_of_not_lt hne hk
        · exact hl e he

/-- A later value for a key replaces the earlier one. -/
def insert (m : TextMap α) (k : Text) (v : α) : TextMap α :=
  ⟨insertEntry k v m.entries, pairwise_insertEntry k v m.increasing⟩

def get? (m : TextMap α) (k : Text) : Option α :=
  m.entries.lookup k

def contains (m : TextMap α) (k : Text) : Bool :=
  (m.get? k).isSome

def keys (m : TextMap α) : List Text :=
  m.entries.map (·.1)

def size (m : TextMap α) : Nat :=
  m.entries.length

/-- Of two entries with one key the later counts. -/
def ofList (es : List (Text × α)) : TextMap α :=
  es.foldl (fun m (k, v) => m.insert k v) empty

theorem lookup_cons_ite (k l : Text) (v : α) (es : List (Text × α)) :
    ((l, v) :: es).lookup k = if k = l then some v else es.lookup k := by
  by_cases h : k = l
  · subst k
    simp
  · have hb : (k == l) = false := beq_eq_false_iff_ne.2 h
    rw [List.lookup_cons, hb, if_neg h]

theorem lookup_insertEntry (k l : Text) (v : α) (es : List (Text × α)) :
    (insertEntry k v es).lookup l = if l = k then some v else es.lookup l := by
  induction es with
  | nil => simp [insertEntry, lookup_cons_ite]
  | cons x rest ih =>
    obtain ⟨j, w⟩ := x
    simp only [insertEntry]
    split
    · subst j
      by_cases h : l = k <;> simp [lookup_cons_ite, h]
    · split
      · simp [lookup_cons_ite]
      · rename_i hne hk
        by_cases h : l = k
        · subst l
          simp [lookup_cons_ite, hne, ih]
        · simp [lookup_cons_ite, ih, h]

theorem get?_insert (m : TextMap α) (k l : Text) (v : α) :
    (m.insert k v).get? l = if l = k then some v else m.get? l :=
  lookup_insertEntry k l v m.entries

theorem get?_empty (k : Text) : (empty : TextMap α).get? k = none := rfl

theorem nodup_of_increasing {es : List (Text × α)} (h : es.Pairwise fun a b => a.1 < b.1) :
    (es.map (·.1)).Nodup := by
  refine List.Pairwise.map _ (fun a b hab => ?_) h
  exact fun he => List.lt_irrefl b.1 (he ▸ hab)

theorem nodup_keys (m : TextMap α) : m.keys.Nodup :=
  nodup_of_increasing m.increasing

theorem lookup_eq_some_iff {es : List (Text × α)} (h : (es.map (·.1)).Nodup) {k : Text} {v : α} :
    es.lookup k = some v ↔ (k, v) ∈ es := by
  induction es with
  | nil => simp
  | cons x rest ih =>
    obtain ⟨l, w⟩ := x
    obtain ⟨hl, hr⟩ := List.nodup_cons.1 h
    rw [lookup_cons_ite, List.mem_cons]
    by_cases e : k = l
    · subst k
      have hn : (l, v) ∉ rest := fun hm => hl (List.mem_map.2 ⟨(l, v), hm, rfl⟩)
      simp [hn, eq_comm]
    · simp [e, ih hr]

theorem get?_eq_some_iff {m : TextMap α} {k : Text} {v : α} :
    m.get? k = some v ↔ (k, v) ∈ m.entries :=
  lookup_eq_some_iff m.nodup_keys

theorem mem_keys_iff {m : TextMap α} {k : Text} : k ∈ m.keys ↔ ∃ v, m.get? k = some v := by
  simp [keys, get?_eq_some_iff]

theorem get?_foldl_insert (es : List (Text × α)) (m : TextMap α) (k : Text) :
    (es.foldl (fun m (k, v) => m.insert k v) m).get? k = (es.reverse.lookup k).or (m.get? k) := by
  induction es generalizing m with
  | nil => rfl
  | cons e es ih =>
    obtain ⟨l, v⟩ := e
    rw [List.foldl_cons, ih, get?_insert, List.reverse_cons, List.lookup_append, lookup_cons_ite]
    by_cases h : k = l
    · simp [h]
    · simp [h]

/-- Of the entries for a key the last counts. -/
theorem get?_ofList (es : List (Text × α)) (k : Text) :
    (ofList es).get? k = es.reverse.lookup k := by
  rw [ofList, get?_foldl_insert, get?_empty, Option.or_none]

theorem length_insertEntry (k : Text) (v : α) {es : List (Text × α)}
    (h : es.Pairwise fun a b => a.1 < b.1) :
    (insertEntry k v es).length = es.length + if (es.lookup k).isSome then 0 else 1 := by
  induction es with
  | nil => rfl
  | cons x rest ih =>
    obtain ⟨l, w⟩ := x
    obtain ⟨hl, hr⟩ := List.pairwise_cons.1 h
    rw [insertEntry, lookup_cons_ite]
    split
    · rfl
    · split
      · rename_i hk
        have hn : rest.lookup k = none := by
          refine List.lookup_eq_none_iff.2 fun e he => ?_
          have hlt := List.lt_trans hk (hl e he)
          exact bne_iff_ne.2 fun hke => List.lt_irrefl _ (hke ▸ hlt)
        rw [hn]
        rfl
      · rw [List.length_cons, ih hr, List.length_cons]
        omega

theorem size_insert (m : TextMap α) (k : Text) (v : α) :
    (m.insert k v).size = m.size + if m.contains k then 0 else 1 :=
  length_insertEntry k v m.increasing

theorem contains_iff {m : TextMap α} {k : Text} : m.contains k = true ↔ k ∈ m.keys := by
  rw [contains, Option.isSome_iff_exists, mem_keys_iff]

theorem mem_of_lookup_eq_some {es : List (Text × α)} {k : Text} {v : α}
    (h : es.lookup k = some v) : (k, v) ∈ es := by
  obtain ⟨xs, ys, rfl, -⟩ := List.lookup_eq_some_iff.1 h
  simp

theorem mem_of_get?_ofList {es : List (Text × α)} {k : Text} {v : α}
    (h : (ofList es).get? k = some v) : (k, v) ∈ es := by
  rw [get?_ofList] at h
  exact List.mem_reverse.1 (mem_of_lookup_eq_some h)

theorem mem_keys_ofList {es : List (Text × α)} {k : Text} :
    k ∈ (ofList es).keys ↔ k ∈ es.map (·.1) := by
  rw [mem_keys_iff]
  constructor
  · rintro ⟨v, h⟩
    exact List.mem_map_of_mem (mem_of_get?_ofList h)
  · intro h
    rw [get?_ofList]
    refine Option.ne_none_iff_exists'.1 fun hn => ?_
    obtain ⟨e, he, rfl⟩ := List.mem_map.1 h
    have hne := List.lookup_eq_none_iff.1 hn e (List.mem_reverse.2 he)
    simp at hne

theorem nodup_of_entries_eq_append {m : TextMap α} {xs ys : List (Text × α)}
    (h : m.entries = xs ++ ys) : (xs.map (·.1)).Nodup := by
  have hkeys := m.nodup_keys
  rw [keys, h, List.map_append] at hkeys
  exact (List.nodup_append.1 hkeys).1

theorem eq_of_mem_iff {xs ys : List (Text × α)} (hx : xs.Pairwise fun a b => a.1 < b.1)
    (hy : ys.Pairwise fun a b => a.1 < b.1) (h : ∀ e, e ∈ xs ↔ e ∈ ys) : xs = ys := by
  induction xs generalizing ys with
  | nil =>
    cases ys with
    | nil => rfl
    | cons y ys => exact absurd ((h y).2 List.mem_cons_self) (by simp)
  | cons x xs ih =>
    cases ys with
    | nil => exact absurd ((h x).1 List.mem_cons_self) (by simp)
    | cons y ys =>
      obtain ⟨hx1, hx2⟩ := List.pairwise_cons.1 hx
      obtain ⟨hy1, hy2⟩ := List.pairwise_cons.1 hy
      have hxy : x = y := by
        rcases List.mem_cons.1 ((h x).1 List.mem_cons_self) with e | e
        · exact e
        rcases List.mem_cons.1 ((h y).2 List.mem_cons_self) with e' | e'
        · exact e'.symm
        · exact absurd (hy1 x e) (List.lt_asymm (hx1 y e'))
      subst y
      congr 1
      refine ih hx2 hy2 fun e => ?_
      constructor
      · intro he
        rcases List.mem_cons.1 ((h e).1 (List.mem_cons_of_mem _ he)) with e' | e'
        · subst e
          exact absurd (hx1 _ he) (List.lt_irrefl _)
        · exact e'
      · intro he
        rcases List.mem_cons.1 ((h e).2 (List.mem_cons_of_mem _ he)) with e' | e'
        · subst e
          exact absurd (hy1 _ he) (List.lt_irrefl _)
        · exact e'

theorem ext_get? {m n : TextMap α} (h : ∀ k, m.get? k = n.get? k) : m = n := by
  obtain ⟨xs, hx⟩ := m
  obtain ⟨ys, hy⟩ := n
  congr
  refine eq_of_mem_iff hx hy fun ⟨k, v⟩ => ?_
  rw [← lookup_eq_some_iff (nodup_of_increasing hx), ← lookup_eq_some_iff (nodup_of_increasing hy)]
  exact Eq.to_iff (congrArg (· = some v) (h k))

end TextMap

/-- A set of texts, listed in increasing order. -/
abbrev TextSet := TextMap Unit

namespace TextSet

def insert (s : TextSet) (t : Text) : TextSet :=
  TextMap.insert s t ()

def ofList (ts : List Text) : TextSet :=
  ts.foldl insert TextMap.empty

def toList (s : TextSet) : List Text :=
  TextMap.keys s

instance : Membership Text TextSet :=
  ⟨fun s t => TextMap.get? s t = some ()⟩

theorem not_mem_empty (t : Text) : t ∉ (TextMap.empty : TextSet) := by
  show ¬ TextMap.get? TextMap.empty t = some ()
  simp [TextMap.get?_empty]

theorem mem_insert {s : TextSet} {t u : Text} : u ∈ insert s t ↔ u = t ∨ u ∈ s := by
  show TextMap.get? (TextMap.insert s t ()) u = some () ↔ u = t ∨ TextMap.get? s u = some ()
  rw [TextMap.get?_insert]
  by_cases h : u = t <;> simp [h]

theorem mem_toList {s : TextSet} {t : Text} : t ∈ toList s ↔ t ∈ s := by
  show t ∈ TextMap.keys s ↔ TextMap.get? s t = some ()
  rw [TextMap.get?_eq_some_iff]
  simp only [TextMap.keys, List.mem_map, Prod.exists, exists_and_right, exists_eq_right]
  exact ⟨fun ⟨_, h⟩ => h, fun h => ⟨(), h⟩⟩

theorem mem_foldl_insert {ts : List Text} {s : TextSet} {t : Text} :
    t ∈ ts.foldl insert s ↔ t ∈ ts ∨ t ∈ s := by
  induction ts generalizing s with
  | nil => simp
  | cons u ts ih => rw [List.foldl_cons, ih, mem_insert, List.mem_cons, or_left_comm, or_assoc]

theorem mem_ofList {ts : List Text} {t : Text} : t ∈ ofList ts ↔ t ∈ ts := by
  rw [ofList, mem_foldl_insert]
  simp [not_mem_empty]

example : toList (ofList ["b".toList, "a".toList, "é".toList, "b".toList]) =
    ["a".toList, "b".toList, "é".toList] := by decide

end TextSet

end ClassNotation
