import DirtyRegion.Change.Run
import DirtyRegion.Proofs.Report

/-!
# Consumers — what each taken change tells

A producer edits a text and reports every edit; a consumer takes what is gathered whenever it likes.
The takes cut the edits into cycles: `Event.cycles`. `Gathered es c` is the invariant of a cycle:
the change `c` has gathered the edits `es` and nothing from before, apart from its version.

Main statements: `Gathered.edit` and `gathered_take` (each event keeps the invariant),
`Gathered.reports` (what a cycle's take tells) and `takings_report`, which says it of all takes.
-/

namespace DirtyRegion

/-- What happens: the producer makes and reports an edit, or the consumer takes what is gathered. -/
inductive Event (α : Type) where
  | edit (e : Edit α)
  | take

/-- The text at one take, and the edits from there to the next. -/
structure Cycle (α : Type) where
  before : List α
  edits : List (Edit α)

variable {α : Type}

section Defs

/-- The edits among events. -/
def Event.edits : List (Event α) → List (Edit α)
  | [] => []
  | edit e :: events => e :: edits events
  | take :: events => edits events

/-- What the event does to the gathering change. -/
def Event.step : Event α → Except SpanError Step
  | edit e => e.change.map .combine
  | take => .ok .take

/-- The cycles that takes end, where the first began with `cs` and `es` were its edits so far. -/
def Event.cycles : List α → List (Edit α) → List (Event α) → List (Cycle α)
  | _, _, [] => []
  | cs, es, edit e :: events => cycles cs (es ++ [e]) events
  | cs, es, take :: events => ⟨cs, es⟩ :: cycles (Edit.edited cs es) [] events

/-- The text at the take that ends the cycle. -/
def Cycle.after (y : Cycle α) : List α :=
  Edit.edited y.before y.edits

/-- `c` begins where the text of the cycle begins to differ, is empty only if nothing happened, and
has the spans that the edits of the cycle alone lead to. -/
structure Cycle.Reports (y : Cycle α) (c : Change) : Prop where
  before_start : c.before.start.toNat = Edit.leastStart y.edits
  after_start : c.after.start.toNat = Edit.leastStart y.edits
  le_before : Edit.leastStart y.edits ≤ y.before.length
  le_after : Edit.leastStart y.edits ≤ y.after.length
  same_start : y.before.take (Edit.leastStart y.edits) = y.after.take (Edit.leastStart y.edits)
  isEmpty_iff : c.isEmpty = true ↔ ∀ e ∈ y.edits, e.size = 0
  same_text : c.isEmpty = true → y.before = y.after
  own_spans : ∃ d, Change.blank.gatherEdits y.edits = .ok d ∧
    c.before = d.before ∧ c.after = d.after

/-- `c` began empty at some version and has gathered the reports of `es` since. -/
def Gathered (es : List (Edit α)) (c : Change) : Prop :=
  ∃ (v : Version) (xs : List Extent), List.Forall₂ Edit.Names es xs ∧
    c.toExtent = xs.foldl Extent.combine ⟨v, .empty, .empty⟩

end Defs

/-! ### One event -/

section Events

variable {es : List (Edit α)} {e : Edit α} {c d : Change} {cs : List α}

theorem gathered_blank : Gathered ([] : List (Edit α)) Change.blank :=
  ⟨0, [], .nil, rfl⟩

/-- Whatever was gathered, a take leaves nothing of it but the version. -/
theorem gathered_take (c : Change) : Gathered ([] : List (Edit α)) c.take.2 :=
  ⟨c.version, [], .nil, rfl⟩

theorem Gathered.edit (h : Gathered es c) (hd : e.Names d.toExtent) :
    Gathered (es ++ [e]) (c.combine d) := by
  obtain ⟨v, xs, hnames, hfold⟩ := h
  refine ⟨v, xs ++ [d.toExtent], List.rel_append hnames (.cons hd .nil), ?_⟩
  rw [Change.toExtent_combine, hfold, List.foldl_append, List.foldl_cons, List.foldl_nil]

theorem Gathered.encloses (h : Gathered es c) : Edit.Encloses es c.toExtent := by
  obtain ⟨v, xs, hnames, hfold⟩ := h
  rw [hfold]
  exact Extent.encloses_gathered hnames rfl rfl

theorem Gathered.isEmpty_iff (h : Gathered es c) :
    c.isEmpty = true ↔ ∀ e ∈ es, e.size = 0 := by
  obtain ⟨v, xs, hnames, hfold⟩ := h
  rw [hfold]
  exact Extent.isEmpty_gathered_iff hnames (Extent.isEmpty_reset v)

/-- Edits alone decide the spans of what gathered them. -/
theorem Gathered.spans_eq (h : Gathered es c) (h' : Gathered es d) :
    c.before = d.before ∧ c.after = d.after := by
  have hc := h.encloses
  have hd := h'.encloses
  constructor
  · exact Span.ext_toNat (hc.before_start.trans hd.before_start.symm)
      (hc.before_stop.trans hd.before_stop.symm)
  · exact Span.ext_toNat (hc.after_start.trans hd.after_start.symm)
      (hc.after_stop.trans hd.after_stop.symm)

/-- **One cycle.** What has gathered valid edits tells right where they begin to change the text. -/
theorem Gathered.reports (h : Gathered es c) (hvalid : Edit.Valid offsetCount cs es) :
    Cycle.Reports ⟨cs, es⟩ c := by
  obtain ⟨hlen, htake⟩ := Edit.take_leastStart hvalid
  obtain ⟨d, xs, hd, hnames, hfold⟩ :=
    Change.gatherEdits_of_valid (Nat.le_refl _) hvalid Change.blank
  have hown : Gathered es d := ⟨0, xs, hnames, hfold⟩
  exact {
    before_start := h.encloses.before_start
    after_start := h.encloses.after_start
    le_before := Edit.leastStart_le_length hvalid
    le_after := hlen
    same_start := htake.symm
    isEmpty_iff := h.isEmpty_iff
    same_text := fun hempty => (Edit.edited_of_idle (h.isEmpty_iff.mp hempty) cs).symm
    own_spans := ⟨d, hd, h.spans_eq hown⟩ }

end Events

/-! ### Runs of events -/

section Runs

variable {cs : List α} {es : List (Edit α)} {c : Change} {events : List (Event α)}

theorem mapM_step_cons {v : Event α} {s : Step} {steps : List Step} (hv : v.step = .ok s)
    (hsteps : events.mapM Event.step = .ok steps) :
    (v :: events).mapM Event.step = .ok (s :: steps) := by
  rw [List.mapM_cons, hv, hsteps]
  rfl

/-- Events from the middle of a cycle on: every take reports its cycle. -/
theorem Gathered.reports_takings (h : Gathered es c) (hpast : Edit.Valid offsetCount cs es)
    (hrest : Edit.Valid offsetCount (Edit.edited cs es) (Event.edits events)) :
    ∃ steps, events.mapM Event.step = .ok steps ∧
      List.Forall₂ Cycle.Reports (Event.cycles cs es events) (c.takings steps) := by
  -- The edits of the cycle so far run along; a take hands its text and no edits to the next cycle.
  induction events generalizing cs es c with
  | nil => exact ⟨[], rfl, .nil⟩
  | cons v events ih =>
    cases v with
    | edit e =>
      rw [Event.edits] at hrest
      obtain ⟨hlen, hfit, hrest⟩ := hrest
      obtain ⟨d, hd, hnames⟩ := Edit.change_of_fits hfit hlen hrest.length_lt
      have hnow : Edit.Valid offsetCount cs (es ++ [e]) :=
        Edit.valid_append.mpr ⟨hpast, hlen, hfit, hrest.length_lt⟩
      rw [← Edit.edited_nil (e.splice _), ← Edit.edited_cons, ← Edit.edited_append] at hrest
      obtain ⟨steps, hsteps, hall⟩ := ih (h.edit hnames) hnow hrest
      have hstep : (Event.edit e).step = .ok (.combine d) := by
        rw [Event.step, hd]
        rfl
      exact ⟨.combine d :: steps, mapM_step_cons hstep hsteps, hall⟩
    | take =>
      rw [Event.edits] at hrest
      obtain ⟨steps, hsteps, hall⟩ := ih (gathered_take c) hpast.length_edited_lt hrest
      exact ⟨.take :: steps, mapM_step_cons rfl hsteps, .cons (h.reports hpast) hall⟩

/-- **Every take.** Edits of a text are reported and gathered, and takes come between them in any
way. All edits are reported, and each taken change tells right where the text of its cycle begins to
differ, is empty only if it does not, and has nothing of earlier cycles in its spans. -/
theorem takings_report (hvalid : Edit.Valid offsetCount cs (Event.edits events)) :
    ∃ steps, events.mapM Event.step = .ok steps ∧
      List.Forall₂ Cycle.Reports (Event.cycles cs [] events) (Change.blank.takings steps) :=
  gathered_blank.reports_takings hvalid.length_lt hvalid

/-- In `ab`, a character comes on either side of `b`; after a take, `b` goes; after another, there
is an idle edit; after a third, nothing. -/
def fourCycles : List (Event Char) :=
  [.edit (.put 1 0 'x' 4), .edit (.put 3 0 'y' 2), .take, .edit (.erase 2 1 7), .take,
    .edit (.erase 0 0 9), .take, .take]

theorem fourCycles_takings_report :
    Edit.Valid offsetCount ['a', 'b'] (Event.edits fourCycles) ∧
      ∃ steps, fourCycles.mapM Event.step = .ok steps ∧
        List.Forall₂ Cycle.Reports (Event.cycles ['a', 'b'] [] fourCycles)
          (Change.blank.takings steps) := by
  have hvalid : Edit.Valid offsetCount ['a', 'b'] (Event.edits fourCycles) := by decide
  exact ⟨hvalid, takings_report hvalid⟩

end Runs

end DirtyRegion
