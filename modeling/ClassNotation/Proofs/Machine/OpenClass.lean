import ClassNotation.Proofs.Acceptance
import ClassNotation.Proofs.Line.Header
import ClassNotation.Proofs.Machine.History

/-! A class is open in every phase but the one outside of classes. The faults that guard against
anything else never arise, and a method is always read as one of the class that is open. -/

namespace ClassNotation

theorem Outcome.andThen_eq_ok {α β : Type} {r : Outcome α} {next : α → Machine → Outcome β} {b : β}
    {m' : Machine} (h : r.andThen next = (.ok b, m')) :
    ∃ a m, r = (.ok a, m) ∧ next a m = (.ok b, m') := by
  obtain ⟨_ | a, m⟩ := r
  · cases h
  · exact ⟨a, m, rfl, h⟩

namespace Machine

variable {m m' : Machine}

def Reachable (m : Machine) : Prop :=
  ∃ calls, Run calls m

theorem Reachable.coherent (h : m.Reachable) : m.Coherent :=
  h.choose_spec.follows.coherent

theorem Reachable.call (h : m.Reachable) (op : Operation) : (m.call op).2.Reachable := by
  obtain ⟨calls, h⟩ := h
  exact ⟨_, h.call op⟩

theorem Reachable.of_silent {r : Outcome Unit} (h : r.silent.2.Reachable) (hr : r = (.ok (), m')) :
    m'.Reachable := by
  subst hr
  exact h

theorem Reachable.addRelations (h : m.Reachable) {kind : RelationKind} {ts : List Text}
    (hr : m.addRelations kind ts = (.ok (), m')) : m'.Reachable := by
  induction ts generalizing m with
  | nil =>
    obtain rfl : m = m' := congrArg Prod.snd hr
    exact h
  | cons t ts ih =>
    obtain ⟨_, m₁, hadd, hrest⟩ := Outcome.andThen_eq_ok hr
    exact ih (.of_silent (h.call (.addRelation t kind kind.direction)) hadd) hrest

theorem Reachable.readDeclaration (h : m.Reachable) {line : Text}
    (hr : m.readDeclaration line = (.ok (), m')) : m'.Reachable := by
  rw [Machine.readDeclaration] at hr
  split at hr
  · split at hr
    · rename_i header _
      exact .of_silent (h.call (.startClass header.name header.qualifier)) hr
    · cases hr
  · split at hr
    · exact h.addRelations hr
    · cases hr
  · split at hr
    · rename_i p _
      exact .of_silent (h.call (.addProperty p)) hr
    · cases hr
  · split at hr
    · rename_i method _
      exact .of_silent (h.call (.addMethod method)) hr
    · cases hr

theorem Reachable.readLine (h : m.Reachable) {l : ContentLine} {block? : Option ClassBlock}
    (hr : m.readLine l = (.ok block?, m')) : m'.Reachable := by
  have hset : (m.setLine l.number).Reachable := h.call (.setLine l.number)
  rw [Machine.readLine] at hr
  split at hr
  · have hadvance := hset.call .advance
    rw [Machine.call, hr] at hadvance
    exact hadvance
  · obtain ⟨_, m₁, hd, he⟩ := Outcome.andThen_eq_ok hr
    obtain rfl : m₁ = m' := congrArg Prod.snd he
    exact hset.readDeclaration hd

/-- A reading makes nothing but calls. -/
theorem Reachable.readLines (h : m.Reachable) {ls : List ContentLine} {bs : List ClassBlock}
    (hr : m.readLines ls = .ok (bs, m')) : m'.Reachable := by
  induction ls generalizing m bs with
  | nil =>
    obtain rfl : m = m' := congrArg Prod.snd (Except.ok.inj hr)
    exact h
  | cons l ls ih =>
    rw [Machine.readLines] at hr
    split at hr
    · cases hr
    · rename_i block? m₁ hl
      split at hr
      · cases hr
      · rename_i blocks m₂ hls
        obtain rfl : m₂ = m' := congrArg Prod.snd (Except.ok.inj hr)
        exact ih (h.readLine hl) hls

theorem draft_isSome_of_fire (hm : m.Coherent) {ev : Event} (hev : ev ≠ .startClass)
    (hf : m.fire ev = (.ok (), m')) : m'.draft.isSome = true := by
  cases hm with
  | outside n => cases ev <;> first | exact absurd rfl hev | cases hf
  | @inside p hp n d =>
    rw [fire] at hf
    split at hf
    · obtain rfl := congrArg Prod.snd hf
      rfl
    · cases hf

theorem Coherent.isSome_draft_iff (hm : m.Coherent) :
    m.draft.isSome = true ↔ m.phase ≠ .outside := by
  cases hm with
  | outside => simp
  | inside hp => simp [hp]

theorem Coherent.call_ne_modifyClass (hm : m.Coherent) (op : Operation) (n : Nat) (p : Phase) :
    (m.call op).1 ≠ .error ⟨n, .wrongPhase .modifyClass p⟩ := by
  intro h
  have he := effect_call hm op
  generalize m.call op = r at he h
  cases he with
  | moves => cases h
  | refused hf =>
    obtain ⟨-, rfl⟩ := ParseError.mk.inj (Except.error.inj h)
    exact hf p rfl
  | leftProperties => cases h

theorem Coherent.finishClass (hm : m.Coherent) {p : Phase}
    (ht : transition m.phase .finishClass = some p) :
    ∃ d, m.draft = some d ∧
      m.finishClass = (.ok d.finish, { m with phase := .outside, draft := none }) := by
  cases hm with
  | outside => cases ht
  | @inside q hq n d =>
    cases q <;> first | exact ⟨d, rfl, rfl⟩ | cases ht

end Machine

theorem Progress.Opened.isName {s : Progress} {ls : List Text} (h : s.Opened ls) {d : Draft}
    (hd : s.draft = some d) : d.name.isName = true := by
  have hheader : ∀ {h : Header} {rs : List RelationLine} {xs : List Text},
      (Progress.header h rs).Opened xs → h.name.isName = true := by
    intro h rs xs ho
    cases ho with
    | header hfirst hh hrs => exact (Header.isName_of_read hh).2
  cases h with
  | outside => cases hd
  | header hfirst hh hrs =>
    obtain rfl := Option.some.inj hd
    exact (Header.isName_of_read hh).2
  | properties hx hsep hps =>
    obtain rfl := Option.some.inj hd
    exact hheader hx
  | methods hx hsep hms =>
    obtain rfl := Option.some.inj hd
    cases hx with
    | properties hx => exact hheader hx

theorem isName_of_readLines {ls : List ContentLine} {bs : List ClassBlock} {m : Machine} {d : Draft}
    (h : Machine.start.readLines ls = .ok (bs, m)) (hd : m.draft = some d) :
    d.name.isName = true := by
  obtain ⟨s, k, hr, rfl⟩ := Machine.reads_of_readLines (s := .outside) (n := 0) h
  obtain ⟨groups, rest, -, -, ho⟩ := hr.exists_groups .outside
  exact ho.isName hd

theorem readLine_methods {m : Machine} {d : Draft} {l : ContentLine} (hp : m.phase = .methods)
    (hd : m.draft = some d) (hl : isSeparator l.text = false) :
    m.readLine l =
      match Method.read d.name l.text with
      | .ok method =>
        ((m.setLine l.number).addMethod method).andThen fun _ m => (.ok none, m)
      | .error f => (m.setLine l.number).fail f := by
  obtain ⟨p, n, d?⟩ := m
  obtain rfl : p = .methods := hp
  obtain rfl : d? = some d := hd
  rw [Machine.readLine, if_neg (by simp [hl])]
  have howner : (Machine.setLine ⟨.methods, n, some d⟩ l.number).className?.getD [] = d.name := rfl
  simp only [Machine.readDeclaration, howner]
  simp only [Machine.setLine]
  cases Method.read d.name l.text <;> rfl

/-- A class is open exactly inside a block, after every run and within every reading. -/
theorem draft_isSome_iff_phase_ne_outside :
    (∀ calls m, Run calls m →
      (m.draft.isSome = true ↔ m.phase ≠ .outside) ∧
      (∀ ev m', ev ≠ .startClass → m.fire ev = (.ok (), m') → m'.draft.isSome = true) ∧
      (∀ op n p, (m.call op).1 ≠ .error ⟨n, .wrongPhase .modifyClass p⟩) ∧
      (∀ p, transition m.phase .finishClass = some p → ∃ d, m.draft = some d ∧
        m.finishClass = (.ok d.finish, { m with phase := .outside, draft := none }))) ∧
    (∀ t pre l post blocks m, contentLines t = pre ++ l :: post →
      Machine.start.readLines pre = .ok (blocks, m) →
      (∃ calls, Run calls m) ∧
      (m.phase = .methods → ∃ d, m.draft = some d ∧ d.name ≠ [] ∧
        (isSeparator l.text = false →
          m.readLine l =
            match Method.read d.name l.text with
            | .ok method =>
              ((m.setLine l.number).addMethod method).andThen fun _ m => (.ok none, m)
            | .error f => (m.setLine l.number).fail f))) := by
  constructor
  · intro calls m h
    have hm := h.follows.coherent
    exact ⟨hm.isSome_draft_iff, fun _ _ => Machine.draft_isSome_of_fire hm, hm.call_ne_modifyClass,
      fun _ => hm.finishClass⟩
  · intro t pre l post blocks m _ hr
    have hreach : m.Reachable := Machine.Reachable.readLines ⟨[], .new⟩ hr
    refine ⟨hreach, fun hp => ?_⟩
    have hopen := hreach.coherent.isSome_draft_iff.2 (by simp [hp])
    obtain ⟨d, hd⟩ := Option.isSome_iff_exists.1 hopen
    have hname := (Text.isName_iff.1 (isName_of_readLines hr hd)).1
    exact ⟨d, hd, hname, readLine_methods hp hd⟩

def openedTwice : List Operation :=
  [.startClass "A".toList none, .advance, .startClass "B".toList none, .leave .properties]

theorem draft_isSome_iff_phase_ne_outside_constructor :
    (history openedTwice).2.draft.isSome = true ∧
    ∃ blocks m d, Machine.start.readLines
        [⟨1, "A".toList⟩, ⟨2, "---".toList⟩, ⟨4, "---".toList⟩] = .ok (blocks, m) ∧
      m.draft = some d ∧ d.name ≠ [] ∧
      m.readLine ⟨5, "+ A()".toList⟩ =
        match Method.read d.name "+ A()".toList with
        | .ok method => ((m.setLine 5).addMethod method).andThen fun _ m => (.ok none, m)
        | .error f => (m.setLine 5).fail f := by
  obtain ⟨hrun, hread⟩ := draft_isSome_iff_phase_ne_outside
  obtain ⟨hopen, -⟩ := hrun _ _ (run_history openedTwice).1
  obtain ⟨blocks, m, hm, hp⟩ : ∃ blocks m, Machine.start.readLines
      [⟨1, "A".toList⟩, ⟨2, "---".toList⟩, ⟨4, "---".toList⟩] = .ok (blocks, m) ∧
      m.phase = .methods := ⟨_, _, rfl, rfl⟩
  obtain ⟨-, hmethods⟩ := hread "A\n---\n\n---\n+ A()".toList _ ⟨5, "+ A()".toList⟩ [] blocks m
    (by decide) hm
  obtain ⟨d, hd, hname, hline⟩ := hmethods hp
  exact ⟨hopen.2 (by decide), blocks, m, d, hm, hd, hname, hline (by decide)⟩

end ClassNotation
