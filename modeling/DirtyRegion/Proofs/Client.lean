import Mathlib.Data.Nat.Notation
import Mathlib.Data.Option.NAry
import DirtyRegion.Proofs.Bare

/-!
# Clients — what any sequence of calls can bring about

A client holds spans and changes, and every call makes one more or alters a change that it holds.
A call names what it works on by its place among the `Holdings`, and a call that is refused or names
nothing leaves the holdings as they were. `Holdings.run` does calls on spans and changes,
`Holdings.run?` does the same calls on bare ones, where it stops without a result as soon as a
subtraction wraps.

Main statements: `step?_bare` (one call on bare holdings does what it does on the others),
`run?_bare` (so does a sequence of calls) and `held_spans_proper`, by which no sequence of calls
makes a span that runs backwards.
-/

namespace DirtyRegion

/-- The spans and changes that a client holds, in the order in which they came. -/
structure Holdings (σ κ : Type) where
  spans : List σ
  changes : List κ

/-- What a client can call. A number is the place of a span or of a change among the holdings. -/
inductive Call where
  /-- A span comes from a recipe. -/
  | make (r : Span.Recipe)
  | cover (s t : ℕ)
  /-- The first span of a change is held on its own, too. -/
  | before (c : ℕ)
  /-- The second span of a change is held on its own, too. -/
  | after (c : ℕ)
  | blank
  | edit (start old new : Offset)
  | editBetween (start old new : Offset) (before after : Snapshot)
  | between (c : ℕ) (before after : Snapshot)
  /-- A change comes from its parts. -/
  | literal (version : Version) (before after : ℕ) (beforeText afterText : Option Snapshot)
  | withVersion (c : ℕ) (version : Version)
  | attach (c : ℕ) (before after : Snapshot)
  | clear (c : ℕ)
  /-- The first change gathers the second one. -/
  | combine (c d : ℕ)
  /-- What the first change becomes when it gathers the second one is held beside both. -/
  | union (c d : ℕ)
  | take (c : ℕ)
  | copy (c : ℕ)

namespace Holdings

variable {σ κ : Type}

def start : Holdings σ κ := ⟨[], []⟩

def addSpan? (w : Holdings σ κ) : Option σ → Holdings σ κ
  | some s => { w with spans := w.spans ++ [s] }
  | none => w

def addChange? (w : Holdings σ κ) : Option κ → Holdings σ κ
  | some c => { w with changes := w.changes ++ [c] }
  | none => w

/-- Puts a change, if there is one, in the place of another. -/
def setChange? (w : Holdings σ κ) (i : ℕ) : Option κ → Holdings σ κ
  | some c => { w with changes := w.changes.set i c }
  | none => w

end Holdings

abbrev Client := Holdings Span Change

abbrev BareClient := Holdings BareSpan BareChange

namespace Holdings

section Defs

def step (w : Client) : Call → Client
  | .make r => w.addSpan? r.make.toOption
  | .cover s t => w.addSpan? (Option.map₂ Span.cover w.spans[s]? w.spans[t]?)
  | .before c => w.addSpan? (w.changes[c]?.map (·.before))
  | .after c => w.addSpan? (w.changes[c]?.map (·.after))
  | .blank => w.addChange? (some .blank)
  | .edit start old new => w.addChange? (Change.ofEdit start old new).toOption
  | .editBetween start old new before after =>
    w.addChange? (Change.ofEditBetween start old new before after).toOption
  | .between c before after => w.addChange? (w.changes[c]?.map (·.between before after))
  | .literal version before after beforeText afterText =>
    w.addChange? (Option.map₂ (fun s t => ⟨⟨version, s, t⟩, beforeText, afterText⟩)
      w.spans[before]? w.spans[after]?)
  | .withVersion c version => w.setChange? c (w.changes[c]?.map (·.withVersion version))
  | .attach c before after => w.setChange? c (w.changes[c]?.map (·.attach before after))
  | .clear c => w.setChange? c (w.changes[c]?.map (·.clear))
  | .combine c d => w.setChange? c (Option.map₂ Change.combine w.changes[c]? w.changes[d]?)
  | .union c d => w.addChange? (Option.map₂ Change.combine w.changes[c]? w.changes[d]?)
  | .take c =>
    (w.setChange? c (w.changes[c]?.map (·.take.2))).addChange? (w.changes[c]?.map (·.take.1))
  | .copy c => w.addChange? w.changes[c]?

def run (w : Client) (calls : List Call) : Client :=
  calls.foldl step w

/-- The spans that the client holds, those in its changes among them. -/
def allSpans (w : Client) : List Span :=
  w.spans ++ w.changes.flatMap fun c => [c.before, c.after]

/-- The holdings without the promise of their spans. -/
def bare (w : Client) : BareClient :=
  ⟨w.spans.map Span.bare, w.changes.map Change.bare⟩

/-- Gathers one change into another where both are held, unless a subtraction wraps. -/
def gather? : Option BareChange → Option BareChange → Option (Option BareChange)
  | some c, some d => (c.combine? d).map some
  | _, _ => some none

def step? (w : BareClient) : Call → Option BareClient
  | .make r => some (w.addSpan? (BareSpan.make r).toOption)
  | .cover s t => some (w.addSpan? (Option.map₂ BareSpan.cover w.spans[s]? w.spans[t]?))
  | .before c => some (w.addSpan? (w.changes[c]?.map (·.before)))
  | .after c => some (w.addSpan? (w.changes[c]?.map (·.after)))
  | .blank => some (w.addChange? (some .blank))
  | .edit start old new => some (w.addChange? (BareChange.ofEdit start old new).toOption)
  | .editBetween start old new before after =>
    some (w.addChange? ((BareChange.ofEdit start old new).map (·.attach before after)).toOption)
  | .between c before after =>
    (gather? (some .blank) w.changes[c]?).map fun d => w.addChange? (d.map (·.attach before after))
  | .literal version before after beforeText afterText =>
    some (w.addChange? (Option.map₂ (fun s t => ⟨version, s, t, beforeText, afterText⟩)
      w.spans[before]? w.spans[after]?))
  | .withVersion c version => some (w.setChange? c (w.changes[c]?.map (·.withVersion version)))
  | .attach c before after => some (w.setChange? c (w.changes[c]?.map (·.attach before after)))
  | .clear c => some (w.setChange? c (w.changes[c]?.map (·.clear)))
  | .combine c d => (gather? w.changes[c]? w.changes[d]?).map (w.setChange? c)
  | .union c d => (gather? w.changes[c]? w.changes[d]?).map w.addChange?
  | .take c =>
    some ((w.setChange? c (w.changes[c]?.map (·.take.2))).addChange?
      (w.changes[c]?.map (·.take.1)))
  | .copy c => some (w.addChange? w.changes[c]?)

/-- Does calls from the left, up to the first subtraction that wraps. -/
def run? (w : BareClient) (calls : List Call) : Option BareClient :=
  calls.foldlM step? w

def allBareSpans (w : BareClient) : List BareSpan :=
  w.spans ++ w.changes.flatMap fun c => [c.before, c.after]

end Defs

/-! ### One call -/

section Steps

variable (w : Client)

theorem getElem?_spans_bare (i : ℕ) : w.bare.spans[i]? = w.spans[i]?.map Span.bare :=
  List.getElem?_map

theorem getElem?_changes_bare (i : ℕ) : w.bare.changes[i]? = w.changes[i]?.map Change.bare :=
  List.getElem?_map

theorem bare_addSpan? (s : Option Span) :
    (w.addSpan? s).bare = w.bare.addSpan? (s.map Span.bare) := by
  cases s <;> simp [Holdings.addSpan?, bare]

theorem bare_addChange? (c : Option Change) :
    (w.addChange? c).bare = w.bare.addChange? (c.map Change.bare) := by
  cases c <;> simp [Holdings.addChange?, bare]

theorem bare_setChange? (i : ℕ) (c : Option Change) :
    (w.setChange? i c).bare = w.bare.setChange? i (c.map Change.bare) := by
  cases c <;> simp [Holdings.setChange?, bare, List.map_set]

/-- A span that is read off a held change. -/
theorem bare_addSpan?_map {f : Change → Span} {g : BareChange → BareSpan}
    (h : ∀ c, (f c).bare = g c.bare) (i : ℕ) :
    (w.addSpan? (w.changes[i]?.map f)).bare = w.bare.addSpan? (w.bare.changes[i]?.map g) := by
  have hcomp : Span.bare ∘ f = g ∘ Change.bare := funext h
  rw [bare_addSpan?, getElem?_changes_bare, Option.map_map, Option.map_map, hcomp]

/-- A change that is altered where it is held. -/
theorem bare_setChange?_map {f : Change → Change} {g : BareChange → BareChange}
    (h : ∀ c, (f c).bare = g c.bare) (i : ℕ) :
    (w.setChange? i (w.changes[i]?.map f)).bare =
      w.bare.setChange? i (w.bare.changes[i]?.map g) := by
  have hcomp : Change.bare ∘ f = g ∘ Change.bare := funext h
  rw [bare_setChange?, getElem?_changes_bare, Option.map_map, Option.map_map, hcomp]

/-- Gathering held changes never lacks a result. -/
theorem gather?_bare (c d : Option Change) :
    gather? (c.map Change.bare) (d.map Change.bare) =
      some ((Option.map₂ Change.combine c d).map Change.bare) := by
  cases c with
  | none => rfl
  | some c =>
    cases d with
    | none => rfl
    | some d =>
      show (c.bare.combine? d.bare).map some = _
      rw [BareChange.combine?_bare]
      rfl

/-- **One call.** On bare holdings a call does what it does on the others, and nothing wraps. -/
theorem step?_bare (call : Call) : w.bare.step? call = some (w.step call).bare := by
  cases call with
  | make r =>
    rw [step, bare_addSpan?, ← toOption_map, ← BareSpan.make_eq]
    rfl
  | cover s t =>
    have hcover : ∀ s t : Span, (s.cover t).bare = s.bare.cover t.bare := BareSpan.bare_cover
    rw [step, bare_addSpan?, Option.map_map₂_distrib hcover, ← getElem?_spans_bare,
      ← getElem?_spans_bare]
    rfl
  | before c => exact congrArg some (w.bare_addSpan?_map (fun _ => rfl) c).symm
  | after c => exact congrArg some (w.bare_addSpan?_map (fun _ => rfl) c).symm
  | blank => rw [step, bare_addChange?]; rfl
  | edit start old new =>
    rw [step, bare_addChange?, ← toOption_map, ← BareChange.ofEdit_eq]
    rfl
  | editBetween start old new before after =>
    rw [step, bare_addChange?, step?, BareChange.ofEdit_eq, Change.ofEditBetween]
    cases Change.ofEdit start old new <;> rfl
  | between c before after =>
    -- A change between two texts is a blank change that gathers and is bound.
    have hblank : some BareChange.blank = (some Change.blank).map Change.bare := rfl
    rw [step, bare_addChange?, step?, getElem?_changes_bare, hblank, gather?_bare]
    cases w.changes[c]? <;> rfl
  | literal version before after beforeText afterText =>
    rw [step, bare_addChange?, step?, getElem?_spans_bare, getElem?_spans_bare]
    cases w.spans[before]? <;> cases w.spans[after]? <;> rfl
  | withVersion c version => exact congrArg some (w.bare_setChange?_map (fun _ => rfl) c).symm
  | attach c before after => exact congrArg some (w.bare_setChange?_map (fun _ => rfl) c).symm
  | clear c => exact congrArg some (w.bare_setChange?_map (fun _ => rfl) c).symm
  | combine c d =>
    rw [step, bare_setChange?, step?, getElem?_changes_bare, getElem?_changes_bare,
      gather?_bare]
    rfl
  | union c d =>
    rw [step, bare_addChange?, step?, getElem?_changes_bare, getElem?_changes_bare,
      gather?_bare]
    rfl
  | take c =>
    rw [step, bare_addChange?, bare_setChange?, step?, getElem?_changes_bare]
    cases w.changes[c]? <;> rfl
  | copy c =>
    rw [step, bare_addChange?, ← getElem?_changes_bare]
    rfl

end Steps

/-! ### Sequences of calls -/

/-- **Any sequence of calls** on bare holdings does what it does on the others, and nothing wraps. -/
theorem run?_bare (w : Client) (calls : List Call) : w.bare.run? calls = some (w.run calls).bare := by
  induction calls generalizing w with
  | nil => rfl
  | cons call calls ih =>
    show (w.bare.step? call).bind _ = _
    rw [step?_bare, Option.bind_some]
    exact ih (w.step call)

theorem allSpans_bare (w : Client) : w.bare.allBareSpans = w.allSpans.map Span.bare := by
  simp only [bare, allBareSpans, allSpans, List.map_append, List.flatMap_map, List.map_flatMap]
  rfl

/-- **No span ever runs backwards.** A client starts with nothing and does any sequence of calls, some
of which may be refused. With two plain words for each span the calls come to the same as with spans,
so no length wraps on the way, and all bounds that are held then are in order. Each span is empty
only between equal bounds, and its bounds give it again, as its start and its length do. No length
wraps, either, that is asked for when a change is tested, gathers another or tells its distance. -/
theorem held_spans_proper (calls : List Call) :
    let w := run start calls
    run? start calls = some w.bare ∧
      (∀ s ∈ w.bare.allBareSpans, s.Proper) ∧
      (∀ s ∈ w.allSpans, s.bare.length? = some s.length ∧
        (s.isEmpty = true ↔ s.start = s.stop) ∧ Span.ofBounds s.start s.stop = .ok s ∧
          Span.ofLength s.start s.length = .ok s) ∧
      ∀ c ∈ w.changes, c.bare.isEmpty? = some c.isEmpty ∧ c.bare.shift? = some c.shift? ∧
        ∀ d ∈ w.changes, c.bare.combine? d.bare = some (c.combine d).bare := by
  intro w
  refine ⟨run?_bare start calls, ?_, ?_, ?_⟩
  · intro s hs
    rw [allSpans_bare] at hs
    obtain ⟨t, -, rfl⟩ := List.mem_map.mp hs
    exact BareSpan.proper_bare t
  · intro s _
    exact ⟨BareSpan.length?_bare s, Span.isEmpty_iff, s.ofBounds_start_stop, s.ofLength_start_length⟩
  · intro c _
    exact ⟨BareChange.isEmpty?_bare c, BareChange.shift?_bare c, fun d _ =>
      BareChange.combine?_bare c d⟩

/-- A span, one that would run backwards, one that would be too long and one that ends at the last
offset; the cover of those that there are, in a change that gathers an insertion and is taken away;
and a call on a change that is not there. -/
def callsWithRefusals : List Call :=
  [.make (.bounds 2 6), .make (.bounds 6 2), .make (.length 18446744073709551615 1),
    .make (.length 18446744073709551614 1), .cover 0 1, .literal 3 2 0 none none, .edit 4 0 5,
    .combine 0 1, .take 0, .clear 7]

theorem callsWithRefusals_spans_proper :
    run? start callsWithRefusals = some (run start callsWithRefusals).bare ∧
      BareSpan.mk 2 9 ∈ (run start callsWithRefusals).bare.allBareSpans ∧ BareSpan.Proper ⟨2, 9⟩ ∧
      ∃ s ∈ (run start callsWithRefusals).allSpans, s.stop = 18446744073709551615 ∧ s.start = 2 ∧
        Span.ofLength s.start s.length = .ok s := by
  obtain ⟨hrun, hproper, hspans, -⟩ := held_spans_proper callsWithRefusals
  have hnew : BareSpan.mk 2 9 ∈ (run start callsWithRefusals).bare.allBareSpans := by decide
  have hlong : ∃ s ∈ (run start callsWithRefusals).allSpans,
      s.stop = 18446744073709551615 ∧ s.start = 2 := by decide
  obtain ⟨s, hs, hstop, hstart⟩ := hlong
  obtain ⟨-, -, -, hlength⟩ := hspans s hs
  exact ⟨hrun, hnew, hproper _ hnew, s, hs, hstop, hstart, hlength⟩

end Holdings

end DirtyRegion
