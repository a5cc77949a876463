import ClassNotation.Proofs.Machine.History

/-! The operations against the table of transitions. An operation succeeds where the table allows
its event and its part has not been entered yet, and a failure leaves the machine as it was, with
one exception. -/

namespace ClassNotation

variable {calls : List Call} {m m' : Machine} {op : Operation}

theorem Machine.Moves.not_entered {answer : Option ClassBlock} {part : Part}
    (hm : m.Moves (.enter part) answer m') (h : Follows calls m) : ¬ Entered calls part := by
  cases hm with
  | enter n hn =>
    rw [← (h.draft _ rfl).entered, hn]
    exact Bool.false_ne_true

theorem Follows.isOk_call_iff (h : Follows calls m) {ev : Event} (he : op.event? = some ev) :
    (m.call op).1.isOk = true ↔
      (transition m.phase ev).isSome = true ∧ ∀ part, op = .enter part → ¬ Entered calls part := by
  constructor
  · intro hok
    obtain ⟨answer, hm⟩ := Machine.exists_moves_of_isOk h.coherent hok
    refine ⟨by rw [hm.transition_eq he]; rfl, ?_⟩
    rintro part rfl
    exact hm.not_entered h
  · rintro ⟨ht, hnew⟩
    obtain ⟨p, hp⟩ := Option.isSome_iff_exists.1 ht
    have hhas : ∀ part, op = .enter part → ∀ d, m.draft = some d → d.has part = false := by
      intro part hop d hd
      have hn := hnew part hop
      rw [← (h.draft d hd).entered] at hn
      exact Bool.eq_false_iff.2 hn
    obtain ⟨answer, m', hm, -⟩ := Machine.exists_moves h.coherent he hp hhas
    rw [Machine.call_of_moves hm]
    rfl

theorem Follows.transition_of_isOk (h : Follows calls m) {ev : Event} (he : op.event? = some ev)
    (hok : (m.call op).1.isOk = true) : transition m.phase ev = some (m.call op).2.phase := by
  obtain ⟨answer, hm⟩ := Machine.exists_moves_of_isOk h.coherent hok
  exact hm.transition_eq he

theorem Follows.call_advance_entered (h : Follows calls m) (hp : m.phase = .properties)
    (hentered : Entered calls .methods) :
    m.call .advance =
      (.error ⟨lineSet calls, .partPresent .methods⟩, { m with phase := .header }) := by
  rw [← h.line]
  have hd := h.draft
  cases h.coherent with
  | outside => cases hp
  | inside _ n d =>
    obtain rfl := hp
    exact Machine.call_advance_present n (((hd d rfl).entered .methods).2 hentered)

theorem Follows.of_call_eq_error (h : Follows calls m) {e : ParseError}
    (hc : m.call op = (.error e, m')) :
    e.line = lineSet calls ∧
      (m' = m ∨ op = .advance ∧ m.phase = .properties ∧ Entered calls .methods) := by
  have heffect := Machine.effect_call h.coherent op
  rw [hc] at heffect
  cases heffect with
  | refused => exact ⟨h.line, .inl rfl⟩
  | leftProperties hop hp hd hhas =>
    exact ⟨h.line, .inr ⟨hop, hp, ((h.draft _ hd).entered .methods).1 hhas⟩⟩

/-- The operations refine the table, and a failure changes nothing, unless a separator behind the
properties would enter the methods a second time. -/
theorem Run.call_refines_transition (h : Run calls m) (op : Operation) :
    (∀ ev, op.event? = some ev →
      ((m.call op).1.isOk = true ↔
        (transition m.phase ev).isSome = true ∧
          ∀ part, op = .enter part → ¬ Entered calls part) ∧
      ((m.call op).1.isOk = true → transition m.phase ev = some (m.call op).2.phase)) ∧
    (∀ e m', m.call op = (.error e, m') →
      e.line = lineSet calls ∧
        (¬ (op = .advance ∧ m.phase = .properties ∧ Entered calls .methods) → m' = m)) ∧
    (op = .advance → m.phase = .properties → Entered calls .methods →
      m.call op =
        (.error ⟨lineSet calls, .partPresent .methods⟩, { m with phase := .header })) := by
  have hf := h.follows
  refine ⟨fun ev he => ⟨hf.isOk_call_iff he, hf.transition_of_isOk he⟩, fun e m' hc => ?_, ?_⟩
  · obtain ⟨hline, hm⟩ := hf.of_call_eq_error hc
    exact ⟨hline, fun hn => hm.resolve_right hn⟩
  · rintro rfl hp hentered
    exact hf.call_advance_entered hp hentered

/-- The methods of this class are entered before its properties, so that a separator has nowhere
to lead. -/
def methodsFirst : List Operation :=
  [.startClass "A".toList none, .enter .methods, .leave .methods, .enter .properties, .setLine 7]

theorem Run.call_refines_transition_methodsFirst :
    (history methodsFirst).2.call .advance =
      (.error ⟨7, .partPresent .methods⟩,
        ⟨.header, 7, some ⟨"A".toList, none, [], TextMap.empty, some [], some []⟩⟩) ∧
    ((history methodsFirst).2.call (.addMethod ⟨"f".toList, .pub, false, [], none⟩)).2 =
      (history methodsFirst).2 := by
  have h := (run_history methodsFirst).1
  have hentered : Entered (history methodsFirst).1 .methods :=
    ⟨⟨.enter .methods, .ok none, .methods⟩, List.mem_of_mem_head? rfl, rfl⟩
  obtain ⟨-, -, hadvance⟩ := h.call_refines_transition .advance
  obtain ⟨-, hfails, -⟩ :=
    h.call_refines_transition (.addMethod ⟨"f".toList, .pub, false, [], none⟩)
  exact ⟨hadvance rfl rfl hentered, (hfails _ _ rfl).2 (by simp)⟩

end ClassNotation
