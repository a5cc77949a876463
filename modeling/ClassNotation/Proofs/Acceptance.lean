import ClassNotation.Proofs.Line.Relation
import ClassNotation.Proofs.Run

/-! What is accepted. The texts that can be read are those whose contents are cut into blocks,
and the result lists what each block declares. -/

namespace ClassNotation

namespace Progress

/-- The lines of the open block, read part by part. -/
inductive Opened : Progress → List Text → Prop
  | outside : Opened .outside []
  | header {first : Text} {xs : List Text} {h : Header} {rs : List RelationLine}
      (hfirst : isSeparator first = false) (hh : Header.read first = .ok h)
      (hrs : Declares RelationLine.read xs rs) : Opened (.header h rs) (first :: xs)
  | properties {sep : Text} {xs ys : List Text} {h : Header} {rs : List RelationLine}
      {ps : List Property} (hx : Opened (.header h rs) xs) (hsep : isSeparator sep = true)
      (hps : Declares Property.read ys ps) : Opened (.properties h rs ps) (xs ++ sep :: ys)
  | methods {sep : Text} {xs ys : List Text} {h : Header} {rs : List RelationLine}
      {ps : List Property} {ms : List Method} (hx : Opened (.properties h rs ps) xs)
      (hsep : isSeparator sep = true) (hms : Declares (Method.read h.name) ys ms) :
      Opened (.methods h rs ps ms) (xs ++ sep :: ys)

def Continues (s : Progress) (lines : List Text) : Option ClassBlock → Prop
  | none => s.Opened lines
  | some b => BlockLines lines b ∧ s = .outside

variable {s s' : Progress} {xs : List Text} {bs : List ClassBlock}

theorem Opened.declare {line : Text} (h : Opened s xs) (hl : isSeparator line = false)
    (hd : s.declare line = .ok s') : Opened s' (xs ++ [line]) := by
  cases h with
  | outside =>
    obtain ⟨h, hr, rfl⟩ := except_map_eq_ok_iff.1 hd
    exact .header hl hr .nil
  | header hfirst hh hrs =>
    obtain ⟨r, hr, rfl⟩ := except_map_eq_ok_iff.1 hd
    exact .header hfirst hh (hrs.append (.single hl hr))
  | properties hx hsep hps =>
    obtain ⟨p, hr, rfl⟩ := except_map_eq_ok_iff.1 hd
    rw [List.append_assoc]
    exact .properties hx hsep (hps.append (.single hl hr))
  | methods hx hsep hms =>
    obtain ⟨m, hr, rfl⟩ := except_map_eq_ok_iff.1 hd
    rw [List.append_assoc]
    exact .methods hx hsep (hms.append (.single hl hr))

theorem Opened.separate {line : Text} {block? : Option ClassBlock} (h : Opened s xs)
    (hl : isSeparator line = true) (hd : s.separate = .ok (block?, s')) :
    s'.Continues (xs ++ [line]) block? := by
  cases h with
  | outside => simp [Progress.separate] at hd
  | header hfirst hh hrs =>
    obtain ⟨rfl, rfl⟩ := Prod.mk.inj (Except.ok.inj hd)
    exact .properties (.header hfirst hh hrs) hl .nil
  | properties hx hsep hps =>
    obtain ⟨rfl, rfl⟩ := Prod.mk.inj (Except.ok.inj hd)
    exact .methods (.properties hx hsep hps) hl .nil
  | methods hx hsep₂ hms =>
    obtain ⟨rfl, rfl⟩ := Prod.mk.inj (Except.ok.inj hd)
    cases hx with
    | properties hx hsep₁ hps =>
      cases hx with
      | header hfirst hh hrs =>
        exact ⟨.intro hfirst hh hrs hsep₁ hps hsep₂ hms hl fun _ => TextSet.mem_ofList_related, rfl⟩

theorem Opened.next {line : Text} {block? : Option ClassBlock} (h : Opened s xs)
    (hn : s.next line = .ok (block?, s')) : s'.Continues (xs ++ [line]) block? := by
  rw [Progress.next] at hn
  by_cases hl : isSeparator line = true
  · rw [if_pos hl] at hn
    exact h.separate hl hn
  · rw [if_neg hl] at hn
    obtain ⟨s₁, hd, he⟩ := except_map_eq_ok_iff.1 hn
    obtain ⟨rfl, rfl⟩ := Prod.mk.inj he
    exact h.declare (Bool.eq_false_iff.2 hl) hd

/-- Lines that are read are blocks, one for each block completed, and the lines of the block that
is open at the end. -/
theorem Reads.exists_groups {pre : List Text} (h : Reads s xs bs s') (hp : Opened s pre) :
    ∃ groups rest, pre ++ xs = groups.flatten ++ rest ∧ List.Forall₂ BlockLines groups bs ∧
      Opened s' rest := by
  induction h generalizing pre with
  | nil => exact ⟨[], pre, by simp, .nil, hp⟩
  | @cons _ _ _ line lines block? blocks hn _ ih =>
    have ho := hp.next hn
    cases block? with
    | none =>
      obtain ⟨groups, rest, he, hg, hr⟩ := ih ho
      exact ⟨groups, rest, by simpa using he, hg, hr⟩
    | some b =>
      obtain ⟨hb, rfl⟩ := ho
      obtain ⟨groups, rest, he, hg, hr⟩ := ih .outside
      rw [List.nil_append] at he
      exact ⟨(pre ++ [line]) :: groups, rest, by simp [he], .cons hb hg, hr⟩

theorem reads_of_declares {α : Type} {read : Text → Except Fault α} {collect : List α → Progress}
    (hc : ∀ line as, (collect as).declare line = (read line).map fun a => collect (as ++ [a]))
    {lines : List Text} {values : List α} (h : Declares read lines values) (as : List α) :
    Reads (collect as) lines [] (collect (as ++ values)) := by
  induction h generalizing as with
  | nil =>
    rw [List.append_nil]
    exact .nil _
  | @cons line a lines values hl _ ih =>
    have hn : (collect as).next line = .ok (none, collect (as ++ [a])) := by
      simp [Progress.next, hl.1, hc, hl.2, Except.map]
    have hr := Reads.cons hn (ih (as ++ [a]))
    simpa using hr

theorem reads_separator {line : Text} {block? : Option ClassBlock} (hl : isSeparator line = true)
    (hs : s.separate = .ok (block?, s')) : Reads s [line] block?.toList s' := by
  have hn : s.next line = .ok (block?, s') := by rw [Progress.next, if_pos hl, hs]
  exact .single hn

theorem reads_of_blockLines {b : ClassBlock} (h : BlockLines xs b) :
    Reads .outside xs [b] .outside := by
  cases h with
  | @intro first _ _ _ _ _ _ h rs ps ms _ hfirst hh hrs hsep₁ hps hsep₂ hms hsep₃ hrelates =>
    obtain rfl := TextSet.eq_ofList_related hrelates
    have hn : Progress.outside.next first = .ok (none, .header h []) := by
      simp [Progress.next, hfirst, Progress.declare, hh, Except.map]
    have hr : Reads (.header h []) _ [] (.header h rs) := reads_of_declares (fun _ _ => rfl) hrs []
    have hp : Reads (.properties h rs []) _ [] (.properties h rs ps) :=
      reads_of_declares (fun _ _ => rfl) hps []
    have hm : Reads (.methods h rs ps []) _ [] (.methods h rs ps ms) :=
      reads_of_declares (fun _ _ => rfl) hms []
    have hheader := (Reads.single hn).append hr
    have hproperties := hheader.append ((reads_separator hsep₁ rfl).append hp)
    have hmethods := hproperties.append ((reads_separator hsep₂ rfl).append hm)
    have hall := hmethods.append (reads_separator hsep₃ rfl)
    simpa [ClassBlock.ofLines] using hall

theorem reads_flatten {groups : List (List Text)} (h : List.Forall₂ BlockLines groups bs) :
    Reads .outside groups.flatten bs .outside := by
  induction h with
  | nil => exact .nil _
  | cons hb _ ih => exact (reads_of_blockLines hb).append ih

end Progress

theorem exists_groups_of_readBlocks {t : Text} {blocks : List ClassBlock}
    (h : readBlocks t = .ok blocks) :
    ∃ groups, contents t = groups.flatten ∧ List.Forall₂ BlockLines groups blocks := by
  obtain ⟨-, hr⟩ := readBlocks_eq_ok_iff_reads.1 h
  obtain ⟨groups, rest, he, hg, ho⟩ := hr.exists_groups .outside
  cases ho
  rw [List.nil_append, List.append_nil] at he
  exact ⟨groups, he, hg⟩

theorem readBlocks_of_groups {t : Text} {blocks : List ClassBlock} {groups : List (List Text)}
    (hn : blocks ≠ []) (he : contents t = groups.flatten)
    (hg : List.Forall₂ BlockLines groups blocks) : readBlocks t = .ok blocks := by
  refine readBlocks_eq_ok_iff_reads.2 ⟨?_, he ▸ Progress.reads_flatten hg⟩
  cases hg with
  | nil => exact absurd rfl hn
  | cons hb _ =>
    rw [he, List.flatten_cons]
    exact List.append_ne_nil_of_left_ne_nil hb.ne_nil _

theorem readBlocks_ne_nil {t : Text} {blocks : List ClassBlock} (h : readBlocks t = .ok blocks) :
    blocks ≠ [] := by
  obtain ⟨groups, he, hg⟩ := exists_groups_of_readBlocks h
  rintro rfl
  cases hg
  exact (readBlocks_eq_ok_iff_reads.1 h).1 he

/-- A text can be read exactly if its contents are the lines of blocks, one after another, and then
these blocks are the result. The kind of a relation line is that of the word it begins with. -/
theorem readBlocks_eq_ok_iff {t : Text} {blocks : List ClassBlock} :
    (readBlocks t = .ok blocks ↔
      blocks ≠ [] ∧
        ∃ groups, contents t = groups.flatten ∧ List.Forall₂ BlockLines groups blocks) ∧
    ∀ line r, RelationLine.read line = .ok r → (line.firstWord, r.kind) ∈ relationKeywords := by
  refine ⟨⟨fun h => ?_, ?_⟩, fun _ _ => RelationLine.keyword_of_read⟩
  · exact ⟨readBlocks_ne_nil h, exists_groups_of_readBlocks h⟩
  · rintro ⟨hn, groups, he, hg⟩
    exact readBlocks_of_groups hn he hg

/-- Two classes, of which the first has relations in both directions. -/
def relatedText : Text :=
  ("B <Interface> // b\n\nextends A, C\ncomposes D\n---\n+ x: int\n--- y\n---\n" ++
    "A\n---\n---\n---").toList

def relatedBlock : ClassBlock :=
  ⟨"B".toList, some .interface, [⟨"x".toList, "int".toList, .pub, false⟩], [],
    [⟨"B".toList, "A".toList, .generalization⟩, ⟨"B".toList, "C".toList, .generalization⟩,
      ⟨"D".toList, "B".toList, .composition⟩],
    TextSet.ofList ["A".toList, "C".toList, "D".toList]⟩

theorem readBlocks_eq_ok_iff_relatedText :
    readBlocks relatedText =
      .ok [relatedBlock, ⟨"A".toList, none, [], [], [], TextMap.empty⟩] := by
  have hcontents : contents relatedText =
      [["B <Interface>", "extends A, C", "composes D", "---", "+ x: int", "--- y", "---"].map
        String.toList, ["A", "---", "---", "---"].map String.toList].flatten := by decide +kernel
  have hmark : isSeparator separatorMark = true := rfl
  have hcut : isSeparator "--- y".toList = true := rfl
  have hheader : Header.read "B <Interface>".toList = .ok ⟨"B".toList, some .interface⟩ := rfl
  have hplain : Header.read "A".toList = .ok ⟨"A".toList, none⟩ := rfl
  have hforward : Declares RelationLine.read ["extends A, C".toList]
      [⟨.generalization, ["A".toList, "C".toList]⟩] := .single rfl rfl
  have hinverse : Declares RelationLine.read ["composes D".toList]
      [⟨.composition, ["D".toList]⟩] := .single rfl rfl
  have hproperty : Declares Property.read ["+ x: int".toList]
      [⟨"x".toList, "int".toList, .pub, false⟩] := .single rfl rfl
  have hfirst := BlockLines.intro rfl hheader (hforward.append hinverse) hmark hproperty hcut .nil
    hmark fun _ => TextSet.mem_ofList_related
  have hsecond := BlockLines.intro rfl hplain .nil hmark .nil hmark .nil hmark
    fun _ => TextSet.mem_ofList_related
  exact readBlocks_eq_ok_iff.1.2 ⟨by simp, _, hcontents, .cons hfirst (.cons hsecond .nil)⟩

end ClassNotation
