import DirtyRegion.Change.Basic
import DirtyRegion.Span.Recipe

/-!
# Bare spans — what is left of a span without its promise

A `Span` cannot run backwards, for its type says so. A `BareSpan` is two words and no more, and a
`BareChange` is a change over bare spans. Their operations are the plain ones on words, and the one
that could go wrong says when: `BareSpan.length?` has no result where the subtraction would wrap,
and neither has anything that asks for a length on its way.

`Span.bare` and `Change.bare` forget the promise. Main statements: each operation on bare values
does to forgotten values what the operation on spans and changes does, and it never lacks a result
(`make_eq`, `length?_bare`, `combine?_bare`, `shift?_bare`).
-/

namespace DirtyRegion

theorem map_mapError {ε ε' α β : Type} (f : α → β) (g : ε → ε') (r : Except ε α) :
    (r.map f).mapError g = (r.mapError g).map f := by
  cases r <;> rfl

theorem toOption_map {ε α β : Type} (f : α → β) (r : Except ε α) :
    (r.map f).toOption = r.toOption.map f := by
  cases r <;> rfl

/-- Two bounds that need not be in order. -/
structure BareSpan where
  start : Offset
  stop : Offset
  deriving DecidableEq, Repr

/-- A change over bare spans. -/
structure BareChange where
  version : Version
  before : BareSpan
  after : BareSpan
  beforeText : Option Snapshot
  afterText : Option Snapshot

/-- The two bounds of a span. -/
def Span.bare (s : Span) : BareSpan :=
  ⟨s.start, s.stop⟩

/-- The change with the bounds of its spans. -/
def Change.bare (c : Change) : BareChange :=
  ⟨c.version, c.before.bare, c.after.bare, c.beforeText, c.afterText⟩

namespace BareSpan

section Defs

def ofBounds (start stop : Offset) : Except SpanError BareSpan :=
  if stop < start then .error (.endBeforeStart start stop) else .ok ⟨start, stop⟩

def ofLength (start length : Offset) : Except SpanError BareSpan :=
  match Offset.ofNat? (start.toNat + length.toNat) with
  | some stop => .ok ⟨start, stop⟩
  | none => .error (.lengthOverflow start length)

/-- The bounds that a JSON text denotes. -/
def read (text : String) : Except Json.Fault BareSpan := do
  let (bounds, rest) ← Json.readBounds text.toList
  let s ← (ofBounds bounds.1 bounds.2).mapError fun e => .unfit (.noSpan e)
  if Json.skipBlanks rest = [] then .ok s else .error .malformed

def make : Span.Recipe → Except Refusal BareSpan
  | .empty => .ok ⟨0, 0⟩
  | .bounds start stop => (ofBounds start stop).mapError .noSpan
  | .pair p => (ofBounds p.1 p.2).mapError .noSpan
  | .length start n => (ofLength start n).mapError .noSpan
  | .json text => (read text).mapError .unread

def cover (s t : BareSpan) : BareSpan :=
  ⟨min s.start t.start, max s.stop t.stop⟩

/-- The difference of the two bounds, unless it wraps. -/
def length? (s : BareSpan) : Option Offset :=
  if s.stop < s.start then none else some (s.stop - s.start)

def isEmpty? (s : BareSpan) : Option Bool :=
  s.length?.map (· == 0)

/-- The bounds are in order, their difference does not wrap and is zero only between equal bounds,
and the bounds, or the first one and the difference, give the same bounds again. -/
structure Proper (s : BareSpan) : Prop where
  start_le_stop : s.start.toNat ≤ s.stop.toNat
  stop_lt : s.stop.toNat < offsetCount
  length : ∃ n, s.length? = some n ∧ n.toNat = s.stop.toNat - s.start.toNat ∧
    ofLength s.start n = .ok s
  isEmpty : s.isEmpty? = some (decide (s.start = s.stop))
  rebuilt : ofBounds s.start s.stop = .ok s

end Defs

/-! ### Building bare spans -/

theorem ofBounds_eq (start stop : Offset) :
    ofBounds start stop = (Span.ofBounds start stop).map Span.bare := by
  unfold ofBounds
  by_cases h : stop < start
  · rw [if_pos h, Span.ofBounds_of_lt h]
    rfl
  · rw [if_neg h, Span.ofBounds_of_le (UInt64.not_lt.mp h)]
    rfl

theorem ofLength_eq (start length : Offset) :
    ofLength start length = (Span.ofLength start length).map Span.bare := by
  unfold ofLength
  by_cases h : start.toNat + length.toNat < offsetCount
  · have hsum : Offset.ofNat? (start.toNat + length.toNat) = some (start + length) :=
      Offset.ofNat?_eq_some_iff.mpr (Offset.toNat_add_of_lt h)
    rw [hsum, Span.ofLength_of_lt h]
    rfl
  · have hnone : Offset.ofNat? (start.toNat + length.toNat) = none :=
      Offset.ofNat?_eq_none_iff.mpr (Nat.not_lt.mp h)
    rw [hnone, Span.ofLength_of_le (Nat.not_lt.mp h)]
    rfl

/-- Reading JSON checks the two bounds before it looks at what follows, with or without promise. -/
theorem read_eq (text : String) : read text = (Json.readSpan text).map Span.bare := by
  unfold read Json.readSpan
  cases Json.readBounds text.toList with
  | error e => rfl
  | ok r =>
    obtain ⟨bounds, rest⟩ := r
    show ((ofBounds bounds.1 bounds.2).mapError _ >>= _) =
      Except.map Span.bare (Json.checkBounds bounds >>= _)
    rw [ofBounds_eq, Json.checkBounds, Span.ofPair]
    cases Span.ofBounds bounds.1 bounds.2 with
    | error e => rfl
    | ok s =>
      show (if _ then _ else _) = Except.map Span.bare (if _ then _ else _)
      split <;> rfl

/-- **Every way to a span** gives the bounds of the span, or the same refusal. -/
theorem make_eq (r : Span.Recipe) : make r = r.make.map Span.bare := by
  cases r with
  | empty => rfl
  | bounds start stop => exact (congrArg _ (ofBounds_eq start stop)).trans (map_mapError ..)
  | pair p => exact (congrArg _ (ofBounds_eq p.1 p.2)).trans (map_mapError ..)
  | length start n => exact (congrArg _ (ofLength_eq start n)).trans (map_mapError ..)
  | json text => exact (congrArg _ (read_eq text)).trans (map_mapError ..)

/-! ### Using bare spans -/

theorem length?_bare (s : Span) : s.bare.length? = some s.length :=
  if_neg (UInt64.not_lt.mpr s.start_le_stop)

theorem isEmpty?_bare (s : Span) : s.bare.isEmpty? = some s.isEmpty := by
  rw [isEmpty?, length?_bare]
  rfl

theorem bare_cover (s t : Span) : (s.cover t).bare = s.bare.cover t.bare := rfl

/-- The promise is all that bare bounds need. -/
theorem proper_bare (s : Span) : s.bare.Proper := by
  have hbounds := congrArg (Except.map Span.bare) s.ofBounds_start_stop
  have hlength := congrArg (Except.map Span.bare) s.ofLength_start_length
  refine ⟨s.toNat_start_le_stop, s.toNat_stop_lt, ?_, ?_, ?_⟩
  · exact ⟨s.length, length?_bare s, s.toNat_length, (ofLength_eq _ _).trans hlength⟩
  · rw [isEmpty?_bare]
    congr 1
    rw [Bool.eq_iff_iff, Span.isEmpty_iff, decide_eq_true_iff]
    rfl
  · exact (ofBounds_eq _ _).trans hbounds

end BareSpan

namespace BareChange

section Defs

def blank : BareChange :=
  ⟨0, ⟨0, 0⟩, ⟨0, 0⟩, none, none⟩

def ofEdit (start old new : Offset) : Except SpanError BareChange := do
  let before ← BareSpan.ofLength start old
  let after ← BareSpan.ofLength start new
  .ok ⟨0, before, after, none, none⟩

def withVersion (c : BareChange) (v : Version) : BareChange :=
  { c with version := v }

def attach (c : BareChange) (before after : Snapshot) : BareChange :=
  { c with beforeText := some before, afterText := some after }

def clear (c : BareChange) : BareChange :=
  { c with before := ⟨0, 0⟩, after := ⟨0, 0⟩, beforeText := none, afterText := none }

def take (c : BareChange) : BareChange × BareChange :=
  (c, blank.withVersion c.version)

/-- Neither span holds a character. The second one is looked at only if the first one is empty. -/
def isEmpty? (c : BareChange) : Option Bool := do
  if ← c.before.isEmpty? then c.after.isEmpty? else some false

def combine? (c other : BareChange) : Option BareChange := do
  if ← other.isEmpty? then
    some c
  else if ← c.isEmpty? then
    some { c with
      version := max c.version other.version
      before := other.before
      after := other.after }
  else
    some { c with
      version := max c.version other.version
      before := c.before.cover other.before
      after := c.after.cover other.after }

/-- The distance by which text after the change moves. The later span is looked at only if the
earlier length is a signed number. -/
def shift? (c : BareChange) : Option (Option Int) := do
  match Offset.signed? (← c.before.length?).toNat with
  | none => some none
  | some old =>
    let new ← c.after.length?
    some ((Offset.signed? new.toNat).bind fun new => Offset.signed? (new - old))

end Defs

/-! ### Bare changes as changes -/

theorem ofEdit_eq (start old new : Offset) :
    ofEdit start old new = (Change.ofEdit start old new).map Change.bare := by
  unfold ofEdit Change.ofEdit Extent.ofEdit
  rw [BareSpan.ofLength_eq, BareSpan.ofLength_eq]
  cases Span.ofLength start old with
  | error e => rfl
  | ok before =>
    cases Span.ofLength start new with
    | error e => rfl
    | ok after => rfl

theorem isEmpty?_bare (c : Change) : c.bare.isEmpty? = some c.isEmpty := by
  show (c.before.bare.isEmpty? >>= fun b => if b then c.after.bare.isEmpty? else some false) = _
  rw [BareSpan.isEmpty?_bare, BareSpan.isEmpty?_bare, Extent.isEmpty]
  cases c.before.isEmpty <;> rfl

/-- **Gathering** two changes asks for no length that wraps, and gathers their bounds. -/
theorem combine?_bare (c d : Change) : c.bare.combine? d.bare = some (c.combine d).bare := by
  unfold combine?
  rw [isEmpty?_bare, isEmpty?_bare]
  show (if d.isEmpty then some c.bare else if c.isEmpty then _ else _) = some (c.combine d).bare
  unfold Change.combine
  cases hd : d.isEmpty with
  | true =>
    rw [Extent.combine_of_ignored _ hd]
    rfl
  | false =>
    cases hc : c.isEmpty with
    | true =>
      rw [Extent.combine_of_adopted hd hc]
      rfl
    | false =>
      rw [Extent.combine_of_covered hd hc]
      rfl

theorem shift?_bare (c : Change) : c.bare.shift? = some c.shift? := by
  have hbefore : c.bare.before.length? = some c.before.length := BareSpan.length?_bare c.before
  have hafter : c.bare.after.length? = some c.after.length := BareSpan.length?_bare c.after
  unfold shift? Extent.shift?
  rw [hbefore, hafter, Option.bind_eq_bind, Option.bind_some]
  cases Offset.signed? c.before.length.toNat with
  | none => rfl
  | some old =>
    show (some c.after.length).bind _ = some ((some old).bind _)
    rw [Option.bind_some, Option.bind_some]
    rfl

end BareChange

end DirtyRegion
