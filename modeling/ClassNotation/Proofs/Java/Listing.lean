import ClassNotation.Conversion
import ClassNotation.Proofs.Java.SourceLines
import Mathlib.Data.List.DropRight

/-! The listing of sources, read back. Nothing that a diagram generates holds the mark of a comment,
so the lines that start with one are the headings of the listing and nothing else. -/

namespace ClassNotation.Java

def headingMark : Text :=
  commentMark ++ [' ']

def isHeading (l : Text) : Bool :=
  headingMark.isPrefixOf l

/-- The lines in front of the first heading, and each heading with the lines behind it. -/
def cutAtHeadings : List Text → List Text × List (Text × List Text)
  | [] => ([], [])
  | l :: ls =>
    let (front, sections) := cutAtHeadings ls
    if isHeading l then ([], (l, front) :: sections) else (l :: front, sections)

/-- What a heading of the listing says, and the text between it and the blank line that ends its
section. -/
def readSection (extension : Text) (heading : Text) (lines : List Text) : Text × Text :=
  ((heading.drop headingMark.length).rdrop (extension.length + 1),
    ['\n'].intercalate lines.dropLast)

def readListing (extension : Text) (text : Text) : List (Text × Text) :=
  (cutAtHeadings (text.splitOn '\n')).2.map fun (heading, lines) =>
    readSection extension heading lines

def heading (extension name : Text) : Text :=
  headingMark ++ name ++ '.' :: extension

section reading

variable {extension : Text}

theorem isHeading_heading (name : Text) : isHeading (heading extension name) = true := by
  simp [isHeading, heading, headingMark, commentMark]

theorem cutAtHeadings_append {ls : List Text} (h : ∀ l ∈ ls, isHeading l = false)
    (rest : List Text) :
    cutAtHeadings (ls ++ rest) = (ls ++ (cutAtHeadings rest).1, (cutAtHeadings rest).2) := by
  induction ls with
  | nil => rfl
  | cons l ls ih =>
    obtain ⟨hl, hls⟩ := List.forall_mem_cons.1 h
    simp [cutAtHeadings, ih hls, hl]

theorem cutAtHeadings_flatMap {α : Type} {head : α → Text} {body : α → List Text} {es : List α}
    (hhead : ∀ e ∈ es, isHeading (head e) = true)
    (hbody : ∀ e ∈ es, ∀ l ∈ body e, isHeading l = false) :
    cutAtHeadings (es.flatMap fun e => head e :: body e) =
      ([], es.map fun e => (head e, body e)) := by
  induction es with
  | nil => rfl
  | cons e es ih =>
    obtain ⟨he, hes⟩ := List.forall_mem_cons.1 hhead
    obtain ⟨hl, hls⟩ := List.forall_mem_cons.1 hbody
    rw [List.flatMap_cons, List.cons_append, cutAtHeadings, cutAtHeadings_append hl, ih hes hls]
    simp [he]

theorem readSection_heading (name text : Text) :
    readSection extension (heading extension name) (text.splitOn '\n' ++ [[]]) = (name, text) := by
  have hname : ((heading extension name).drop headingMark.length).rdrop (extension.length + 1) =
      name := by
    rw [heading, List.append_assoc, List.drop_left]
    exact List.rdrop_append_length
  rw [readSection, hname, List.dropLast_concat, List.intercalate_splitOn]

theorem isHeading_of_mem_splitOn {text l : Text} (h : ¬ commentMark <:+: text)
    (hl : l ∈ text.splitOn '\n') : isHeading l = false := by
  rw [Bool.eq_false_iff]
  intro hm
  have hmark : commentMark <:+: l :=
    ((List.prefix_append commentMark [' ']).trans (List.isPrefixOf_iff_prefix.1 hm)).isInfix
  exact h (hmark.trans (Text.mem_splitOn hl).1)

theorem splitOn_listing {s : Sources} (hn : s.entries ≠ []) (hx : '\n' ∉ extension)
    (h : ∀ e ∈ s.entries, '\n' ∉ e.1) :
    (listing s extension).splitOn '\n' =
      s.entries.flatMap fun e => heading extension e.1 :: (e.2.splitOn '\n' ++ [[]]) := by
  have hentries : listing s extension =
      ['\n'].intercalate (s.entries.map fun e => heading extension e.1 ++ '\n' :: e.2 ++ ['\n']) :=
    rfl
  rw [hentries, Text.splitOn_intercalate '\n' (by simpa using hn), List.flatMap_map]
  refine List.flatMap_congr fun e he => ?_
  have hname := h e he
  have hheading : '\n' ∉ heading extension e.1 := by
    simp [heading, headingMark, commentMark, hname, hx]
  rw [List.splitOn_append_cons_self, List.splitOn_append_cons_self,
    List.splitOn_eq_singleton hheading]
  rfl

theorem readListing_listing {s : Sources} (hx : '\n' ∉ extension)
    (h : ∀ e ∈ s.entries, '\n' ∉ e.1 ∧ ¬ commentMark <:+: e.2) :
    readListing extension (listing s extension) = s.entries := by
  by_cases hn : s.entries = []
  · have hempty : listing s extension = [] := by simp [listing, hn]
    rw [hempty, hn]
    rfl
  · have hbody : ∀ e ∈ s.entries, ∀ l ∈ e.2.splitOn '\n' ++ [[]], isHeading l = false := by
      intro e he
      have hblank : isHeading [] = false := rfl
      exact List.forall_mem_append.2 ⟨fun l => isHeading_of_mem_splitOn (h e he).2,
        by simpa using hblank⟩
    rw [readListing, splitOn_listing hn hx fun e he => (h e he).1,
      cutAtHeadings_flatMap (fun e _ => isHeading_heading e.1) hbody, List.map_map]
    refine (List.map_congr_left fun e _ => ?_).trans s.entries.map_id
    exact readSection_heading e.1 e.2

end reading

section marks

theorem commentMark_not_isInfix_source {b : ClassBlock} (hw : b.WellFormed)
    (ht : ∀ t ∈ b.texts, t.Plain) {package : Option Text}
    (hp : ∀ p ∈ package, ¬ commentMark <:+: p) : ¬ commentMark <:+: source package b := by
  have hnil : ([] : Text).IsChain fun a b => ¬ (a = '/' ∧ b = '/') := .nil
  have hpackage : ∀ l ∈ packageLines package, l.IsChain fun a b => ¬ (a = '/' ∧ b = '/') := by
    cases package with
    | none => exact List.forall_mem_nil _
    | some p =>
      have hslashes := not_isInfix_commentMark_iff.1 (hp p rfl)
      have hline : ("package".toList ++ ' ' :: p ++ ';' :: []).IsChain
          fun a b => ¬ (a = '/' ∧ b = '/') := by
        rw [slashes_append_cons (by decide), slashes_append_cons (by decide)]
        exact ⟨⟨slashes_of_not_mem (by decide), hslashes⟩, hnil⟩
      exact List.forall_mem_cons.2 ⟨hline, List.forall_mem_singleton.2 hnil⟩
  rw [not_isInfix_commentMark_iff, source_eq_intercalate hw package, sourceLines_eq_append]
  exact slashes_intercalate_feed (List.forall_mem_append.2
    ⟨hpackage, fun l hl => (plain_sourceLines ht l hl).slashes⟩)

theorem of_mem_entries_sources {package : Option Text} {blocks : List ClassBlock}
    {e : Text × Text} (h : e ∈ (sources package blocks).entries) :
    ∃ b ∈ blocks, b.name = e.1 ∧ source package b = e.2 :=
  of_get?_sources (TextMap.get?_eq_some_iff.2 h)

theorem of_mem_entries_convert {package : Option Text} (hp : ∀ p ∈ package, ¬ commentMark <:+: p)
    {t : Text} {s : Sources} (h : convert package t = .ok s) {e : Text × Text}
    (he : e ∈ s.entries) : e.1.Plain ∧ ¬ commentMark <:+: e.2 := by
  obtain ⟨blocks, hblocks, rfl⟩ := except_map_eq_ok_iff.1 h
  obtain ⟨b, hb, hname, hsource⟩ := of_mem_entries_sources he
  obtain ⟨hw, ht⟩ := wellFormed_of_readBlocks hblocks hb
  obtain ⟨hplain, -⟩ := ClassBlock.forall_texts_iff.1 ht
  exact ⟨hname ▸ hplain, hsource ▸ commentMark_not_isInfix_source hw ht hp⟩

end marks

/-- No name and no source holds the mark of a comment, so the listing can be read back, and no other
sources have the same. -/
theorem listing_read {package : Option Text} (hp : ∀ p ∈ package, ¬ commentMark <:+: p)
    {t : Text} {s : Sources} (h : convert package t = .ok s) :
    (∀ e ∈ s.entries, ¬ commentMark <:+: e.1 ∧ ¬ commentMark <:+: e.2) ∧
    readListing fileExtension (listing s fileExtension) = s.entries ∧
    ∀ u s', convert package u = .ok s' →
      listing s' fileExtension = listing s fileExtension → s' = s := by
  have hread {u : Text} {s' : Sources} (h' : convert package u = .ok s') :
      readListing fileExtension (listing s' fileExtension) = s'.entries := by
    refine readListing_listing (by decide) fun e he => ?_
    obtain ⟨hname, hsource⟩ := of_mem_entries_convert hp h' he
    exact ⟨hname.feed, hsource⟩
  refine ⟨fun e he => ?_, hread h, fun u s' h' hl => ?_⟩
  · obtain ⟨hname, hsource⟩ := of_mem_entries_convert hp h he
    exact ⟨not_isInfix_commentMark_iff.2 hname.slashes, hsource⟩
  · have hentries : s'.entries = s.entries := by rw [← hread h', ← hread h, hl]
    cases s'
    cases s
    cases hentries
    rfl

def twoSources : Sources :=
  sources (some "p".toList)
    [.ofLines ⟨"B".toList, none⟩ [] [] [], .ofLines ⟨"A".toList, some .interface⟩ [] [] []]

/-- Two classes in a package, and a text that declares them in the other order. -/
theorem listing_read_twoSources :
    listing twoSources fileExtension =
      ("// A.java\npackage p;\n\npublic interface A \x7b\n\x7d\n\n" ++
        "// B.java\npackage p;\n\npublic class B \x7b\n\x7d\n").toList ∧
    readListing fileExtension (listing twoSources fileExtension) = twoSources.entries ∧
    sources (some "p".toList) [.ofLines ⟨"A".toList, some .interface⟩ [] [] [],
      .ofLines ⟨"B".toList, none⟩ [] [] []] = twoSources := by
  have hp : ∀ p ∈ some "p".toList, ¬ commentMark <:+: p := by decide
  have h : convert (some "p".toList) "B\n---\n---\n---\nA <Interface>\n---\n---\n---".toList =
      .ok twoSources := by decide +kernel
  obtain ⟨-, hread, hunique⟩ := listing_read hp h
  refine ⟨by decide +kernel, hread, hunique
    "A <Interface>\n---\n---\n---\nB\n---\n---\n---".toList _ ?_ ?_⟩
  · decide +kernel
  · decide +kernel

end ClassNotation.Java
