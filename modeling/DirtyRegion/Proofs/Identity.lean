import Mathlib.Data.List.Forall2
import DirtyRegion.Change.Run
import DirtyRegion.Proofs.Batch
import DirtyRegion.Proofs.Client
import DirtyRegion.Session.Basic

/-!
# Identity — where it matters which snapshot a change holds

Changes are compared by the numbers of their snapshots and shown by what the snapshots hold. Two
clients do the same calls on changes that match one by one.

- `Appearance` is all that a change shows of itself, `Holdings.journal` the entries of calls.
- `Change.Alike` relates changes with the same extent and the same texts, whatever snapshots hold
  them.
- `Change.Retold` relates a change to one with another snapshot of the same text.
- `Change.Respected` says of a relation that no operation leaves it; `Holdings.Matched` carries it to
  clients.

Main statements: `respected_beq` and `respected_alike` (equality and likeness are respected),
`Matched.step` and `Matched.run` (so matching clients stay so, and leave the same entries),
`Alike.appearance_eq` (like changes show the same), `Matched.run_of_stored` (so do equal changes
whose texts are in one store), and `identity_decides_equality_alone`.
-/

namespace DirtyRegion

/-- Snapshots that may be missing are the same when their numbers are. -/
theorem Snapshot.beq_option_iff {s t : Option Snapshot} :
    (s == t) = true ↔ s.map Snapshot.id = t.map Snapshot.id := by
  cases s <;> cases t <;> simp [Snapshot.beq_iff]

/-- All that a change shows of itself. -/
structure Appearance where
  isEmpty : Bool
  shift : Option Int
  showing : Showing
  /-- The fields of the change on one line. -/
  line : String
  /-- The fields of the change over several lines. -/
  block : String

namespace Change

section Defs

def appearance (c : Change) : Appearance :=
  ⟨c.isEmpty, c.shift?, c.showing, c.outline.line, c.outline.block⟩

/-- The characters of the earlier text. -/
def beforeChars (c : Change) : Option (List Char) :=
  c.beforeText.map LawfulTextSource.toList

/-- The characters of the later text. -/
def afterChars (c : Change) : Option (List Char) :=
  c.afterText.map LawfulTextSource.toList

/-- The same extent between the same texts, in whatever snapshots. -/
structure Alike (c d : Change) : Prop where
  extent : c.toExtent = d.toExtent
  before : c.beforeChars = d.beforeChars
  after : c.afterChars = d.afterChars

/-- One snapshot of the change gives way to another one with the same text. -/
inductive Retold (c : Change) : Change → Prop where
  | before {s t : Snapshot} (held : c.beforeText = some s) (other : (s == t) = false)
      (text : LawfulTextSource.toList t = LawfulTextSource.toList s) :
      Retold c { c with beforeText := some t }
  | after {s t : Snapshot} (held : c.afterText = some s) (other : (s == t) = false)
      (text : LawfulTextSource.toList t = LawfulTextSource.toList s) :
      Retold c { c with afterText := some t }

/-- Every snapshot of the change holds the text that a store has under its number. -/
structure Stored (store : ℕ → List Char) (c : Change) : Prop where
  before : ∀ s ∈ c.beforeText, LawfulTextSource.toList s = store s.id
  after : ∀ s ∈ c.afterText, LawfulTextSource.toList s = store s.id

/-- A relation between changes of the same extent that no operation on both of them leaves. -/
structure Respected (R : Change → Change → Prop) : Prop where
  refl : ∀ c, R c c
  extent : ∀ {c d}, R c d → c.toExtent = d.toExtent
  withVersion : ∀ {c d}, R c d → ∀ v, R (c.withVersion v) (d.withVersion v)
  attach : ∀ {c d}, R c d → ∀ s t, R (c.attach s t) (d.attach s t)
  combine : ∀ {c d c' d'}, R c d → R c' d' → R (c.combine c') (d.combine d')

end Defs

/-! ### Equality -/

/-- Changes are equal when extents and the numbers of snapshots are. -/
theorem beq_iff_ids {c d : Change} :
    (c == d) = true ↔
      c.toExtent = d.toExtent ∧ c.beforeText.map Snapshot.id = d.beforeText.map Snapshot.id ∧
        c.afterText.map Snapshot.id = d.afterText.map Snapshot.id := by
  rw [beq_iff, Snapshot.beq_option_iff, Snapshot.beq_option_iff]

instance : EquivBEq Change where
  rfl := beq_iff_ids.mpr ⟨rfl, rfl, rfl⟩
  symm h := by
    obtain ⟨hextent, hbefore, hafter⟩ := beq_iff_ids.mp h
    exact beq_iff_ids.mpr ⟨hextent.symm, hbefore.symm, hafter.symm⟩
  trans h₁ h₂ := by
    obtain ⟨hextent₁, hbefore₁, hafter₁⟩ := beq_iff_ids.mp h₁
    obtain ⟨hextent₂, hbefore₂, hafter₂⟩ := beq_iff_ids.mp h₂
    exact beq_iff_ids.mpr ⟨hextent₁.trans hextent₂, hbefore₁.trans hbefore₂,
      hafter₁.trans hafter₂⟩

theorem respected_beq : Respected (fun c d => (c == d) = true) where
  refl _ := BEq.rfl
  extent h := (beq_iff_ids.mp h).1
  withVersion h v := by
    obtain ⟨hextent, hbefore, hafter⟩ := beq_iff_ids.mp h
    refine beq_iff_ids.mpr ⟨?_, hbefore, hafter⟩
    exact congrArg (fun e : Extent => { e with version := v }) hextent
  attach h _ _ := beq_iff_ids.mpr ⟨(beq_iff_ids.mp h).1, rfl, rfl⟩
  combine h h' := by
    obtain ⟨hextent, hbefore, hafter⟩ := beq_iff_ids.mp h
    refine beq_iff_ids.mpr ⟨?_, hbefore, hafter⟩
    rw [toExtent_combine, toExtent_combine, hextent, (beq_iff_ids.mp h').1]

/-! ### Likeness -/

theorem respected_alike : Respected Alike where
  refl _ := ⟨rfl, rfl, rfl⟩
  extent h := h.extent
  withVersion h v :=
    ⟨congrArg (fun e : Extent => { e with version := v }) h.extent, h.before, h.after⟩
  attach h _ _ := ⟨h.extent, rfl, rfl⟩
  combine h h' := by
    refine ⟨?_, h.before, h.after⟩
    rw [toExtent_combine, toExtent_combine, h.extent, h'.extent]

theorem map_length_texts (text : Option Snapshot) :
    text.map Snapshot.length = (text.map LawfulTextSource.toList).map List.length := by
  cases text with
  | none => rfl
  | some s => exact congrArg some (LawfulTextSource.length_eq s)

theorem slice_texts (text : Option Snapshot) (r : Span) :
    text.bind (TextSource.text? · r) =
      (text.map LawfulTextSource.toList).bind fun cs => (r.select? cs).map String.ofList := by
  cases text with
  | none => rfl
  | some s => exact LawfulTextSource.text?_eq s r

/-- **What a change shows** depends on its extent and on the characters of its texts alone. -/
theorem Alike.appearance_eq {c d : Change} (h : Alike c d) : c.appearance = d.appearance := by
  obtain ⟨hextent, hbefore, hafter⟩ := h
  have hbeforeLength : c.beforeText.map Snapshot.length = d.beforeText.map Snapshot.length := by
    rw [map_length_texts, map_length_texts]
    exact congrArg _ hbefore
  have hafterLength : c.afterText.map Snapshot.length = d.afterText.map Snapshot.length := by
    rw [map_length_texts, map_length_texts]
    exact congrArg _ hafter
  have hbeforeSlice : c.beforeSlice? = d.beforeSlice? := by
    rw [beforeSlice?, beforeSlice?, slice_texts, slice_texts, hextent]
    exact congrArg (Option.bind · _) hbefore
  have hafterSlice : c.afterSlice? = d.afterSlice? := by
    rw [afterSlice?, afterSlice?, slice_texts, slice_texts, hextent]
    exact congrArg (Option.bind · _) hafter
  have houtline : c.outline = d.outline := by
    rw [outline, outline, hextent, hbeforeLength, hafterLength]
  have hshowing : c.showing = d.showing := by
    rw [showing, showing, hextent, houtline, hbeforeSlice, hafterSlice]
  rw [appearance, appearance, hextent, houtline, hshowing]

theorem chars_eq_of_ids {store : ℕ → List Char} {s t : Option Snapshot}
    (hs : ∀ x ∈ s, LawfulTextSource.toList x = store x.id)
    (ht : ∀ x ∈ t, LawfulTextSource.toList x = store x.id)
    (h : s.map Snapshot.id = t.map Snapshot.id) :
    s.map LawfulTextSource.toList = t.map LawfulTextSource.toList := by
  have hstore : ∀ {u : Option Snapshot}, (∀ x ∈ u, LawfulTextSource.toList x = store x.id) →
      u.map LawfulTextSource.toList = (u.map Snapshot.id).map store := by
    intro u hu
    rw [Option.map_map]
    exact Option.map_congr hu
  rw [hstore hs, hstore ht, h]

/-- Where a number stands for one text, equal changes are alike. -/
theorem Alike.of_beq {store : ℕ → List Char} {c d : Change} (hc : c.Stored store)
    (hd : d.Stored store) (h : (c == d) = true) : Alike c d := by
  obtain ⟨hextent, hbefore, hafter⟩ := beq_iff_ids.mp h
  exact ⟨hextent, chars_eq_of_ids hc.before hd.before hbefore,
    chars_eq_of_ids hc.after hd.after hafter⟩

theorem Retold.alike {c d : Change} (h : Retold c d) : Alike c d := by
  cases h with
  | before held _ text =>
    refine ⟨rfl, ?_, rfl⟩
    rw [beforeChars, beforeChars, held, Option.map_some, Option.map_some, text]
  | after held _ text =>
    refine ⟨rfl, rfl, ?_⟩
    rw [afterChars, afterChars, held, Option.map_some, Option.map_some, text]

theorem Retold.beq_eq_false {c d : Change} (h : Retold c d) : (c == d) = false := by
  rw [← Bool.not_eq_true, beq_iff]
  rintro ⟨-, hbefore, hafter⟩
  cases h with
  | before held other _ =>
    rw [held] at hbefore
    exact absurd (other.symm.trans hbefore) Bool.false_ne_true
  | after held other _ =>
    rw [held] at hafter
    exact absurd (other.symm.trans hafter) Bool.false_ne_true

/-! ### Operations made of others -/

section Respected

variable {R : Change → Change → Prop} {c d : Change}

theorem Respected.clear (hR : Respected R) (h : R c d) : R c.clear d.clear := by
  have hversion : c.version = d.version := congrArg Extent.version (hR.extent h)
  rw [Change.clear, Change.clear, hversion]
  exact hR.refl _

theorem Respected.between (hR : Respected R) (h : R c d) (s t : Snapshot) :
    R (c.between s t) (d.between s t) :=
  hR.attach (hR.combine (hR.refl blank) h) s t

theorem Respected.and {S : Change → Change → Prop} (hR : Respected R) (hS : Respected S) :
    Respected (fun c d => R c d ∧ S c d) where
  refl c := ⟨hR.refl c, hS.refl c⟩
  extent h := hR.extent h.1
  withVersion h v := ⟨hR.withVersion h.1 v, hS.withVersion h.2 v⟩
  attach h s t := ⟨hR.attach h.1 s t, hS.attach h.2 s t⟩
  combine h h' := ⟨hR.combine h.1 h'.1, hS.combine h.2 h'.2⟩

/-- An entry speaks of extents alone. -/
theorem entry_eq (h : c.toExtent = d.toExtent) (s : Step) : s.entry c = s.entry d := by
  cases s <;> simp [Step.entry, take, h]

theorem journal_singleton (c : Change) (s : Step) : c.journal [s] = [s.entry c] := rfl

theorem entry_combine_eq {c' d' : Change} (h : c.toExtent = d.toExtent)
    (h' : c'.toExtent = d'.toExtent) : (Step.combine c').entry c = (Step.combine d').entry d := by
  rw [Step.entry, Step.entry, h, h']

end Respected

end Change

namespace Holdings

section Defs

/-- The entries that a call leaves. -/
def entries (w : Client) : Call → List Entry
  | .editBetween start old new before after =>
    match Change.ofEdit start old new with
    | .ok c => c.journal [.attach before after]
    | .error _ => []
  | .between c before after => held c fun c => Change.blank.journal (c.betweenSteps before after)
  | .attach c before after => held c (·.journal [.attach before after])
  | .clear c => held c (·.journal [.clear])
  | .combine c d | .union c d => held c fun c => held d fun d => c.journal [.combine d]
  | .take c => held c (·.journal [.take])
  | _ => []
where
  /-- The entries of something done to a held change. -/
  held (c : ℕ) (f : Change → List Entry) : List Entry :=
    (w.changes[c]?.map f).getD []

/-- The entries of calls from the left. -/
def journal (w : Client) : List Call → List Entry
  | [] => []
  | call :: calls => w.entries call ++ journal (w.step call) calls

/-- The two clients hold the same spans, and changes that are related one by one. -/
structure Matched (R : Change → Change → Prop) (w w' : Client) : Prop where
  spans : w.spans = w'.spans
  changes : List.Forall₂ R w.changes w'.changes

end Defs

namespace Matched

variable {R : Change → Change → Prop} {w w' : Client}

theorem addSpan? (h : Matched R w w') (s : Option Span) :
    Matched R (w.addSpan? s) (w'.addSpan? s) := by
  cases s with
  | none => exact h
  | some s => exact ⟨congrArg (· ++ [s]) h.spans, h.changes⟩

theorem addChange? (h : Matched R w w') {c d : Option Change} (hcd : Option.Rel R c d) :
    Matched R (w.addChange? c) (w'.addChange? d) := by
  cases hcd with
  | none => exact h
  | some hcd => exact ⟨h.spans, List.rel_append h.changes (.cons hcd .nil)⟩

theorem getElem? (h : Matched R w w') (i : ℕ) : Option.Rel R w.changes[i]? w'.changes[i]? := by
  have hchanges := h.changes
  generalize w.changes = cs, w'.changes = ds at hchanges
  induction hchanges generalizing i with
  | nil => exact .none
  | cons hcd _ ih =>
    cases i with
    | zero => exact .some hcd
    | succ i => exact ih i

theorem setChange? (h : Matched R w w') (i : ℕ) {c d : Option Change} (hcd : Option.Rel R c d) :
    Matched R (w.setChange? i c) (w'.setChange? i d) := by
  cases hcd with
  | none => exact h
  | @some c d hcd =>
    refine ⟨h.spans, ?_⟩
    show List.Forall₂ R (w.changes.set i c) (w'.changes.set i d)
    have hchanges := h.changes
    generalize w.changes = cs, w'.changes = ds at hchanges
    induction hchanges generalizing i with
    | nil => exact .nil
    | cons hhead htail ih =>
      cases i with
      | zero => exact .cons hcd htail
      | succ i => exact .cons hhead (ih i)

theorem rel_refl (hR : Change.Respected R) (c : Option Change) : Option.Rel R c c := by
  cases c with
  | none => exact .none
  | some c => exact .some (hR.refl c)

theorem rel_map {S : Change → Change → Prop} {f g : Change → Change} {c d : Option Change}
    (h : Option.Rel R c d) (hfg : ∀ {c d}, R c d → S (f c) (g d)) :
    Option.Rel S (c.map f) (d.map g) := by
  cases h with
  | none => exact .none
  | some h => exact .some (hfg h)

theorem rel_combine (hR : Change.Respected R) {c d c' d' : Option Change} (h : Option.Rel R c d)
    (h' : Option.Rel R c' d') :
    Option.Rel R (Option.map₂ Change.combine c c') (Option.map₂ Change.combine d d') := by
  cases h with
  | none => exact .none
  | some h =>
    cases h' with
    | none => exact .none
    | some h' => exact .some (hR.combine h h')

/-- What is the same of related changes is the same of the changes held at one place. -/
theorem map_getElem?_eq {α : Type} {f g : Change → α} (h : Matched R w w') (i : ℕ)
    (hfg : ∀ {c d}, R c d → f c = g d) : w.changes[i]?.map f = w'.changes[i]?.map g := by
  have hrel := h.getElem? i
  generalize w.changes[i]? = c, w'.changes[i]? = d at hrel
  cases hrel with
  | none => rfl
  | some hcd => exact congrArg some (hfg hcd)

/-- **One call.** Matching clients still match after the same call. -/
theorem step (hR : Change.Respected R) (h : Matched R w w') (call : Call) :
    Matched R (w.step call) (w'.step call) := by
  cases call with
  | make r => exact h.addSpan? _
  | cover s t =>
    rw [Holdings.step, Holdings.step, h.spans]
    exact h.addSpan? _
  | before c =>
    have hspan := h.map_getElem?_eq c fun hcd => congrArg Extent.before (hR.extent hcd)
    rw [Holdings.step, Holdings.step, hspan]
    exact h.addSpan? _
  | after c =>
    have hspan := h.map_getElem?_eq c fun hcd => congrArg Extent.after (hR.extent hcd)
    rw [Holdings.step, Holdings.step, hspan]
    exact h.addSpan? _
  | blank => exact h.addChange? (.some (hR.refl _))
  | edit start old new => exact h.addChange? (rel_refl hR _)
  | editBetween start old new before after => exact h.addChange? (rel_refl hR _)
  | between c before after =>
    exact h.addChange? (rel_map (h.getElem? c) fun hcd => hR.between hcd before after)
  | literal version before after beforeText afterText =>
    rw [Holdings.step, Holdings.step, h.spans]
    exact h.addChange? (rel_refl hR _)
  | withVersion c version =>
    exact h.setChange? c (rel_map (h.getElem? c) fun hcd => hR.withVersion hcd version)
  | attach c before after =>
    exact h.setChange? c (rel_map (h.getElem? c) fun hcd => hR.attach hcd before after)
  | clear c => exact h.setChange? c (rel_map (h.getElem? c) hR.clear)
  | combine c d => exact h.setChange? c (rel_combine hR (h.getElem? c) (h.getElem? d))
  | union c d => exact h.addChange? (rel_combine hR (h.getElem? c) (h.getElem? d))
  | take c =>
    -- A take leaves behind what a clear does.
    exact (h.setChange? c (rel_map (h.getElem? c) hR.clear)).addChange?
      (rel_map (h.getElem? c) id)
  | copy c => exact h.addChange? (h.getElem? c)

theorem held_eq {i : ℕ} {f g : Change → List Entry} (h : Matched R w w')
    (hfg : ∀ {c d}, R c d → f c = g d) : entries.held w i f = entries.held w' i g := by
  rw [entries.held, entries.held, h.map_getElem?_eq i hfg]

/-- Matching clients leave the same entries of the same call. -/
theorem entries_eq (hR : Change.Respected R) (h : Matched R w w') (call : Call) :
    w.entries call = w'.entries call := by
  have hone : ∀ (i : ℕ) (s : Step), entries.held w i (·.journal [s]) =
      entries.held w' i (·.journal [s]) := by
    intro i s
    refine h.held_eq fun hcd => ?_
    rw [Change.journal_singleton, Change.journal_singleton, Change.entry_eq (hR.extent hcd)]
  have htwo : ∀ i j : ℕ,
      entries.held w i (fun c => entries.held w j fun d => c.journal [.combine d]) =
        entries.held w' i (fun c => entries.held w' j fun d => c.journal [.combine d]) := by
    intro i j
    refine h.held_eq fun hcd => h.held_eq fun hcd' => ?_
    rw [Change.journal_singleton, Change.journal_singleton,
      Change.entry_combine_eq (hR.extent hcd) (hR.extent hcd')]
  cases call with
  | between c before after =>
    refine h.held_eq fun {c d} hcd => ?_
    -- A blank change gathers the one that is held, and then the texts are attached to what it is.
    have hgathered := hR.extent (hR.combine (hR.refl .blank) hcd)
    show [(Step.combine c).entry .blank, (Step.attach before after).entry (Change.blank.combine c)] =
      [(Step.combine d).entry .blank, (Step.attach before after).entry (Change.blank.combine d)]
    rw [Change.entry_eq hgathered, Change.entry_combine_eq rfl (hR.extent hcd)]
  | attach c before after => exact hone c (.attach before after)
  | clear c => exact hone c .clear
  | combine c d => exact htwo c d
  | union c d => exact htwo c d
  | take c => exact hone c .take
  -- No other call leaves an entry that depends on a held change.
  | _ => rfl

/-- **A sequence of calls.** Matching clients match at the end and leave the same entries. -/
theorem run (hR : Change.Respected R) (h : Matched R w w') (calls : List Call) :
    Matched R (w.run calls) (w'.run calls) ∧ w.journal calls = w'.journal calls := by
  induction calls generalizing w w' with
  | nil => exact ⟨h, rfl⟩
  | cons call calls ih =>
    obtain ⟨hlast, hjournal⟩ := ih (h.step hR call)
    refine ⟨hlast, ?_⟩
    rw [journal, journal, h.entries_eq hR call, hjournal]

theorem with_alike {store : ℕ → List Char} (h : Matched (fun c d => (c == d) = true) w w')
    (hstored : ∀ c ∈ w.changes ++ w'.changes, c.Stored store) :
    Matched (fun c d => (c == d) = true ∧ c.Alike d) w w' := by
  refine ⟨h.spans, ?_⟩
  obtain ⟨hlength, hequal⟩ := List.forall₂_iff_zip.mp h.changes
  refine List.forall₂_iff_zip.mpr ⟨hlength, fun {c d} hmem => ?_⟩
  obtain ⟨hc, hd⟩ := List.of_mem_zip hmem
  have hcd := hequal hmem
  exact ⟨hcd, .of_beq (hstored c (List.mem_append_left _ hc))
    (hstored d (List.mem_append_right _ hd)) hcd⟩

theorem mono {S : Change → Change → Prop} (h : Matched R w w')
    (hRS : ∀ {c d}, R c d → S c d) : Matched S w w' :=
  ⟨h.spans, h.changes.imp fun _ _ => hRS⟩

/-- Clients whose changes are equal and in one store still have equal changes after the same calls,
and these show the same. -/
theorem run_of_stored {store : ℕ → List Char}
    (h : Matched (fun c d => (c == d) = true) w w')
    (hstored : ∀ c ∈ w.changes ++ w'.changes, c.Stored store) (calls : List Call) :
    Matched (fun c d => (c == d) = true ∧ c.appearance = d.appearance)
        (w.run calls) (w'.run calls) ∧
      w.journal calls = w'.journal calls := by
  have hmatched := h.with_alike hstored
  obtain ⟨hlast, hjournal⟩ := hmatched.run (Change.respected_beq.and Change.respected_alike) calls
  exact ⟨hlast.mono fun hcd => ⟨hcd.1, hcd.2.appearance_eq⟩, hjournal⟩

end Matched

/-- **Where identity matters.** Equality of changes is an equivalence. Two clients with equal changes,
where a number stands for one text, have equal changes after the same calls, and these show the
same and leave the same entries. If one change of a client gets another snapshot with the same text,
it is no longer equal to what it was, but after the same calls all changes still show what they would
have shown, and leave the same entries. -/
theorem identity_decides_equality_alone :
    ((∀ c : Change, (c == c) = true) ∧
      (∀ c d : Change, (c == d) = true → (d == c) = true) ∧
      ∀ c d e : Change, (c == d) = true → (d == e) = true → (c == e) = true) ∧
    (∀ (store : ℕ → List Char) (w w' : Client) (calls : List Call),
      (∀ c ∈ w.changes ++ w'.changes, c.Stored store) →
      Matched (fun c d => (c == d) = true) w w' →
        Matched (fun c d => (c == d) = true ∧ c.appearance = d.appearance)
            (w.run calls) (w'.run calls) ∧
          w.journal calls = w'.journal calls) ∧
    ∀ c d : Change, c.Retold d → (c == d) = false ∧
      ∀ (spans : List Span) (before after : List Change) (calls : List Call),
        let w : Client := ⟨spans, before ++ c :: after⟩
        let w' : Client := ⟨spans, before ++ d :: after⟩
        Matched (fun c d => c.appearance = d.appearance) (w.run calls) (w'.run calls) ∧
          w.journal calls = w'.journal calls := by
  refine ⟨⟨fun _ => BEq.rfl, fun _ _ => BEq.symm, fun _ _ _ => BEq.trans⟩, ?_, ?_⟩
  · intro store w w' calls hstored hequal
    exact hequal.run_of_stored hstored calls
  · intro c d hretold
    refine ⟨hretold.beq_eq_false, ?_⟩
    intro spans before after calls w w'
    have hrefl : ∀ cs : List Change, List.Forall₂ Change.Alike cs cs :=
      fun cs => List.forall₂_same.mpr fun x _ => Change.respected_alike.refl x
    have hmatched : Matched Change.Alike w w' :=
      ⟨rfl, List.rel_append (hrefl before) (.cons hretold.alike (hrefl after))⟩
    obtain ⟨hlast, hjournal⟩ := hmatched.run Change.respected_alike calls
    exact ⟨hlast.mono Change.Alike.appearance_eq, hjournal⟩

/-- Four characters as a string. -/
def plainWord : Snapshot := ⟨0, .plain "añb🚀"⟩

/-- The same characters as a rope of two chunks. -/
def ropeWord : Snapshot := ⟨1, .rope ((Rope.chunk ['a', 'ñ']).append (Rope.chunk ['b', '🚀']))⟩

def rewording : Change := (Change.ofEditAt 3 1 2 1).attach plainWord plainWord

def rewordingOfRope : Change := { rewording with beforeText := some ropeWord }

/-- A change gathers an edit and then itself, is taken away and gathered into a copy, and comes
between other texts; one call names a change that is not there. -/
def reworkings : List Call :=
  [.edit 1 2 1, .combine 0 1, .combine 0 0, .copy 0, .take 0, .union 3 2, .attach 2 ropeWord plainWord,
    .between 3 plainWord ropeWord, .clear 1, .take 9]

theorem reworkings_matched :
    rewording.Retold rewordingOfRope ∧ (rewording == rewordingOfRope) = false ∧
      Matched (fun c d => c.appearance = d.appearance)
        (run ⟨[], [rewording]⟩ reworkings) (run ⟨[], [rewordingOfRope]⟩ reworkings) ∧
      (∀ c ∈ [rewording] ++ [rewording.between plainWord plainWord],
        c.Stored fun _ => "añb🚀".toList) ∧
      (rewording == rewording.between plainWord plainWord) = true ∧
      Matched (fun c d => (c == d) = true ∧ c.appearance = d.appearance)
        (run ⟨[], [rewording]⟩ reworkings)
        (run ⟨[], [rewording.between plainWord plainWord]⟩ reworkings) ∧
      (journal ⟨[], [rewording]⟩ reworkings).length = 8 := by
  obtain ⟨-, hequal, hretold⟩ := identity_decides_equality_alone
  have hrope : rewording.Retold rewordingOfRope := .before rfl (by decide) (by decide)
  have hstored : ∀ c ∈ [rewording] ++ [rewording.between plainWord plainWord],
      c.Stored fun _ => "añb🚀".toList := by
    simp only [List.cons_append, List.nil_append, List.mem_cons, List.not_mem_nil, or_false]
    rintro c (rfl | rfl) <;> constructor <;> rintro s ⟨⟩ <;> rfl
  have hbetween : (rewording == rewording.between plainWord plainWord) = true := by decide
  obtain ⟨hother, hlike⟩ := hretold rewording rewordingOfRope hrope
  refine ⟨hrope, hother, (hlike [] [] [] reworkings).1, hstored, hbetween, ?_, by decide⟩
  exact (hequal _ ⟨[], [rewording]⟩ ⟨[], [rewording.between plainWord plainWord]⟩ reworkings hstored
    ⟨rfl, .cons hbetween .nil⟩).1

end Holdings

end DirtyRegion
