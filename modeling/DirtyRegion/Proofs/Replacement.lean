import DirtyRegion.Proofs.Report
import DirtyRegion.Proofs.Slice

/-!
# Replacements — many parts of one text replaced at once

A `Replacement` names a span of one text, what comes in its place, and the span where that stands
in the text after all replacements. `Plan cs rs` says that the old spans are in order in `cs`, do
not overlap, and that each new span is moved by the growth of the replacements before it.

`Aligned i j rs` carries the same along a list: it says where the text between two replacements
comes to stand. Idle replacements leave no trace (`replaceFrom_active`, `Aligned.active`), so hulls
need only be looked at where nothing is idle.

Main statements: `Aligned.hulls_start` and `Aligned.hulls_stop`, by which both texts agree before the
hulls and behind them.
-/

namespace DirtyRegion

/-- A span of one text and what replaces it, with the span where that stands in the end. -/
structure Replacement (α : Type) where
  old : Span
  new : Span
  text : List α
  stop_new : new.stop.toNat = new.start.toNat + text.length

namespace Replacement

variable {α : Type}

section Defs

/-- Nothing goes and nothing comes. -/
def isIdle (r : Replacement α) : Bool :=
  r.old.isEmpty && r.text.isEmpty

/-- The replacements that are not idle. -/
def active (rs : List (Replacement α)) : List (Replacement α) :=
  rs.filter fun r => !r.isIdle

/-- By how many characters replacements make a text longer. -/
def growth : List (Replacement α) → ℤ
  | [] => 0
  | r :: rs => (r.text.length : ℤ) - r.old.length.toNat + growth rs

/-- What stands from the character `i` of `cs` on when all later spans are replaced at once. -/
def replaceFrom (cs : List α) : ℕ → List (Replacement α) → List α
  | i, [] => cs.drop i
  | i, r :: rs =>
    (cs.take r.old.start.toNat).drop i ++ r.text ++ replaceFrom cs r.old.stop.toNat rs

/-- The text with all spans replaced at once. -/
def replaceAll (cs : List α) (rs : List (Replacement α)) : List α :=
  replaceFrom cs 0 rs

/-- Replacements of separate parts of `cs`, from left to right. -/
structure Plan (cs : List α) (rs : List (Replacement α)) : Prop where
  ordered : rs.Pairwise fun a b => a.old.stop.toNat ≤ b.old.start.toNat
  inside : ∀ r ∈ rs, r.old.stop.toNat ≤ cs.length
  placed : ∀ (k : ℕ) (hk : k < rs.length),
    (rs[k].new.start.toNat : ℤ) = rs[k].old.start.toNat + growth (rs.take k)

instance {cs : List α} {rs : List (Replacement α)} : Decidable (Plan cs rs) :=
  decidable_of_iff
    ((rs.Pairwise fun a b => a.old.stop.toNat ≤ b.old.start.toNat) ∧
      (∀ r ∈ rs, r.old.stop.toNat ≤ cs.length) ∧
      ∀ (k : ℕ) (hk : k < rs.length),
        (rs[k].new.start.toNat : ℤ) = rs[k].old.start.toNat + growth (rs.take k))
    ⟨fun ⟨hord, hin, hplaced⟩ => ⟨hord, hin, hplaced⟩,
      fun ⟨hord, hin, hplaced⟩ => ⟨hord, hin, hplaced⟩⟩

/-- The character `i` of the old text comes to stand at `j`, and all old spans lie at or behind it
and move along with the text between them. -/
def Aligned : ℕ → ℕ → List (Replacement α) → Prop
  | _, _, [] => True
  | i, j, r :: rs =>
    i ≤ r.old.start.toNat ∧ r.new.start.toNat + i = r.old.start.toNat + j ∧
      Aligned r.old.stop.toNat r.new.stop.toNat rs

end Defs

/-! ### From plans to aligned lists -/

section Aligned

variable {i j : ℕ} {r : Replacement α} {rs : List (Replacement α)}

theorem aligned_of_placed (hord : rs.Pairwise fun a b => a.old.stop.toNat ≤ b.old.start.toNat)
    (hi : ∀ r ∈ rs, i ≤ r.old.start.toNat)
    (hplaced : ∀ (k : ℕ) (hk : k < rs.length), (rs[k].new.start.toNat : ℤ) =
      rs[k].old.start.toNat + ((j : ℤ) - i) + growth (rs.take k)) :
    Aligned i j rs := by
  -- The distance from `i` to `j` is by how much the text has grown before the rest of the list.
  induction rs generalizing i j with
  | nil => trivial
  | cons r rs ih =>
    obtain ⟨hfirst, hrest⟩ := List.pairwise_cons.mp hord
    have hr := hplaced 0 (Nat.zero_lt_succ _)
    have hstart := hi r List.mem_cons_self
    have hold := r.old.toNat_length
    have hle := r.old.toNat_start_le_stop
    have hnew := r.stop_new
    rw [List.take_zero, growth, List.getElem_cons_zero] at hr
    refine ⟨hstart, by omega, ih hrest hfirst ?_⟩
    intro k hk
    have hk := hplaced (k + 1) (Nat.succ_lt_succ hk)
    rw [List.take_succ_cons, growth, List.getElem_cons_succ] at hk
    omega

theorem Plan.aligned {cs : List α} (h : Plan cs rs) : Aligned 0 0 rs :=
  aligned_of_placed h.ordered (fun _ _ => Nat.zero_le _) fun k hk => by
    rw [h.placed k hk]
    simp

/-- An aligned list is aligned with respect to any earlier pair of places. -/
theorem Aligned.back {i' j' : ℕ} (h : Aligned i j rs) (hi : i' ≤ i) (hj : j + i' = i + j') :
    Aligned i' j' rs := by
  cases rs with
  | nil => trivial
  | cons r rs =>
    obtain ⟨hstart, hplace, hrest⟩ := h
    exact ⟨by omega, by omega, hrest⟩

theorem Aligned.le_of_mem (h : Aligned i j rs) {q : Replacement α} (hq : q ∈ rs) :
    i ≤ q.old.start.toNat ∧ j ≤ q.new.start.toNat := by
  induction rs generalizing i j with
  | nil => cases hq
  | cons r rs ih =>
    obtain ⟨hstart, hplace, hrest⟩ := h
    rcases List.mem_cons.mp hq with rfl | hq
    · exact ⟨hstart, by omega⟩
    · obtain ⟨hold, hnew⟩ := ih hrest hq
      have := r.old.toNat_start_le_stop
      have := r.stop_new
      exact ⟨by omega, by omega⟩

/-- Nothing begins before the first replacement. -/
theorem Aligned.first_le_start {q : Replacement α} (h : Aligned i j (r :: rs)) (hq : q ∈ r :: rs) :
    r.old.start.toNat ≤ q.old.start.toNat ∧ r.new.start.toNat ≤ q.new.start.toNat := by
  have hself : Aligned r.old.start.toNat r.new.start.toNat (r :: rs) :=
    ⟨Nat.le_refl _, Nat.add_comm _ _, h.2.2⟩
  exact hself.le_of_mem hq

/-- Nothing ends behind the last replacement. -/
theorem Aligned.stop_le_last {init : List (Replacement α)} {last q : Replacement α}
    (h : Aligned i j (init ++ [last])) (hq : q ∈ init ++ [last]) :
    q.old.stop.toNat ≤ last.old.stop.toNat ∧ q.new.stop.toNat ≤ last.new.stop.toNat := by
  induction init generalizing i j with
  | nil =>
    obtain rfl := List.mem_singleton.mp hq
    exact ⟨Nat.le_refl _, Nat.le_refl _⟩
  | cons r init ih =>
    obtain ⟨-, -, hrest⟩ := h
    rcases List.mem_cons.mp hq with rfl | hq
    · obtain ⟨hold, hnew⟩ := hrest.le_of_mem (List.mem_append_right init List.mem_cons_self)
      have := last.old.toNat_start_le_stop
      have := last.new.toNat_start_le_stop
      exact ⟨by omega, by omega⟩
    · exact ih hrest hq

end Aligned

/-! ### Idle replacements -/

section Idle

variable {i i' j : ℕ} {r : Replacement α} {rs : List (Replacement α)} {cs : List α}

theorem isIdle_iff : r.isIdle = true ↔ r.old.start.toNat = r.old.stop.toNat ∧ r.text = [] := by
  rw [isIdle, Bool.and_eq_true, Span.isEmpty_iff, List.isEmpty_iff, ← UInt64.toNat_inj]

theorem isIdle_eq (r : Replacement α) : r.isIdle = (r.old.isEmpty && r.new.isEmpty) := by
  have hnew : r.text.isEmpty = r.new.isEmpty := by
    rw [Bool.eq_iff_iff, List.isEmpty_iff, Span.isEmpty_iff, ← UInt64.toNat_inj, r.stop_new,
      ← List.length_eq_zero_iff]
    omega
  rw [isIdle, hnew]

theorem active_cons_of_isIdle (h : r.isIdle = true) : active (r :: rs) = active rs := by
  simp [active, h]

theorem active_cons (h : r.isIdle = false) : active (r :: rs) = r :: active rs := by
  simp [active, h]

theorem mem_of_mem_active {q : Replacement α} (h : q ∈ active rs) : q ∈ rs :=
  List.mem_of_mem_filter h

theorem Aligned.active (h : Aligned i j rs) : Aligned i j (active rs) := by
  induction rs generalizing i j with
  | nil => exact h
  | cons r rs ih =>
    obtain ⟨hstart, hplace, hrest⟩ := h
    cases hr : r.isIdle with
    | true =>
      obtain ⟨hold, htext⟩ := isIdle_iff.mp hr
      have hnew := r.stop_new
      rw [htext, List.length_nil] at hnew
      rw [active_cons_of_isIdle hr]
      -- The places of an idle replacement are as far apart as those before it.
      exact (ih hrest).back (by omega) (by omega)
    | false =>
      rw [active_cons hr]
      exact ⟨hstart, hplace, ih hrest⟩

theorem drop_take_append_drop (cs : List α) (h : i' ≤ i) :
    (cs.take i).drop i' ++ cs.drop i = cs.drop i' := by
  have hdrop : cs.drop i = (cs.drop i').drop (i - i') := by
    rw [List.drop_drop, Nat.add_sub_cancel' h]
  rw [List.drop_take, hdrop, List.take_append_drop]

/-- The text between an earlier place and the first old span is kept. -/
theorem Aligned.replaceFrom_back (h : Aligned i j rs) (hi : i' ≤ i) :
    (cs.take i).drop i' ++ replaceFrom cs i rs = replaceFrom cs i' rs := by
  cases rs with
  | nil => exact drop_take_append_drop cs hi
  | cons r rs =>
    have hgap := drop_take_append_drop (cs.take r.old.start.toNat) hi
    rw [List.take_take, Nat.min_eq_left h.1] at hgap
    rw [replaceFrom, replaceFrom, ← List.append_assoc, ← List.append_assoc, hgap]

/-- Idle replacements leave no trace in the text. -/
theorem replaceFrom_active (h : Aligned i j rs) :
    replaceFrom cs i (active rs) = replaceFrom cs i rs := by
  induction rs generalizing i j with
  | nil => rfl
  | cons r rs ih =>
    obtain ⟨hstart, -, hrest⟩ := h
    cases hr : r.isIdle with
    | true =>
      obtain ⟨hold, htext⟩ := isIdle_iff.mp hr
      have hback : (cs.take r.old.stop.toNat).drop i ++
          replaceFrom cs r.old.stop.toNat (active rs) = replaceFrom cs i (active rs) :=
        hrest.active.replaceFrom_back (by omega)
      rw [active_cons_of_isIdle hr, replaceFrom, htext, List.append_nil, hold, ← ih hrest, hback]
    | false =>
      rw [active_cons hr, replaceFrom, replaceFrom, ih hrest]

theorem replaceFrom_of_active_eq_nil (h : Aligned i j rs) (ha : Replacement.active rs = []) :
    replaceFrom cs i rs = cs.drop i := by
  rw [← replaceFrom_active h, ha, replaceFrom]

end Idle

/-! ### Both ends of the hulls -/

section Ends

variable {i j : ℕ} {r last : Replacement α} {rs init : List (Replacement α)} {cs : List α}

/-- The text before the first replacement stays where it is. -/
theorem take_replaceFrom (h : Aligned 0 0 (r :: rs)) (hr : r.old.stop.toNat ≤ cs.length) :
    r.old.start.toNat = r.new.start.toNat ∧
      cs.take r.old.start.toNat = (replaceFrom cs 0 (r :: rs)).take r.new.start.toNat := by
  obtain ⟨-, hplace, -⟩ := h
  have hle := r.old.toNat_start_le_stop
  have hlen : (cs.take r.old.start.toNat).length = r.old.start.toNat := by
    rw [List.length_take]
    omega
  refine ⟨by omega, ?_⟩
  rw [replaceFrom, List.drop_zero, List.append_assoc, List.take_left' (by omega)]

/-- The text behind the last replacement moves as a whole. -/
theorem replaceFrom_concat (h : Aligned i j (init ++ [last]))
    (hin : ∀ r ∈ init ++ [last], r.old.stop.toNat ≤ cs.length) :
    ∃ mid, replaceFrom cs i (init ++ [last]) = mid ++ cs.drop last.old.stop.toNat ∧
      mid.length + j = last.new.stop.toNat := by
  induction init generalizing i j with
  | nil =>
    obtain ⟨hstart, hplace, -⟩ := h
    have hle := last.old.toNat_start_le_stop
    have hnew := last.stop_new
    have hlast := hin last List.mem_cons_self
    refine ⟨(cs.take last.old.start.toNat).drop i ++ last.text, rfl, ?_⟩
    rw [List.length_append, List.length_drop, List.length_take]
    omega
  | cons r init ih =>
    obtain ⟨hstart, hplace, hrest⟩ := h
    have hle := r.old.toNat_start_le_stop
    have hnew := r.stop_new
    have hr := hin r List.mem_cons_self
    obtain ⟨mid, hmid, hlen⟩ := ih hrest fun q hq => hin q (List.mem_cons_of_mem _ hq)
    refine ⟨(cs.take r.old.start.toNat).drop i ++ r.text ++ mid, ?_, ?_⟩
    · rw [List.cons_append, replaceFrom, hmid]
      simp only [List.append_assoc]
    · rw [List.length_append, List.length_append, List.length_drop, List.length_take]
      omega

theorem sameRest_last (h : Aligned 0 0 (init ++ [last]))
    (hin : ∀ r ∈ init ++ [last], r.old.stop.toNat ≤ cs.length) :
    SameRest last.old.stop.toNat last.new.stop.toNat cs (replaceFrom cs 0 (init ++ [last])) := by
  obtain ⟨mid, hmid, hlen⟩ := replaceFrom_concat h hin
  rw [hmid]
  refine ⟨hin last (List.mem_append_right init List.mem_cons_self), ?_, ?_⟩
  · rw [List.length_append]
    omega
  · rw [List.drop_left' (by omega)]

/-- The hull of the old spans and the hull of the new ones begin with the first replacement. -/
theorem Aligned.hulls_start {b a : Span} (h : Aligned 0 0 rs) (hne : rs ≠ [])
    (hin : ∀ r ∈ rs, r.old.stop.toNat ≤ cs.length) (hb : b.IsHull (rs.map (·.old)))
    (ha : a.IsHull (rs.map (·.new))) :
    b.start = a.start ∧ cs.take b.start.toNat = (replaceFrom cs 0 rs).take a.start.toNat := by
  obtain ⟨r, rs, rfl⟩ := List.exists_cons_of_ne_nil hne
  have hr : r ∈ r :: rs := List.mem_cons_self
  have hbs : b.start.toNat = r.old.start.toNat := by
    refine hb.start_eq (List.mem_map_of_mem hr) (List.forall_mem_map.mpr ?_)
    intro q hq
    exact (h.first_le_start hq).1
  have has : a.start.toNat = r.new.start.toNat := by
    refine ha.start_eq (List.mem_map_of_mem hr) (List.forall_mem_map.mpr ?_)
    intro q hq
    exact (h.first_le_start hq).2
  obtain ⟨hstart, htake⟩ := take_replaceFrom h (hin r hr)
  refine ⟨UInt64.toNat.inj (by omega), ?_⟩
  rw [hbs, has, htake]

/-- The hull of the old spans and the hull of the new ones end with the last replacement. -/
theorem Aligned.hulls_stop {b a : Span} (h : Aligned 0 0 rs) (hne : rs ≠ [])
    (hin : ∀ r ∈ rs, r.old.stop.toNat ≤ cs.length) (hb : b.IsHull (rs.map (·.old)))
    (ha : a.IsHull (rs.map (·.new))) :
    SameRest b.stop.toNat a.stop.toNat cs (replaceFrom cs 0 rs) := by
  obtain ⟨init, last, rfl⟩ := (List.eq_nil_or_concat' rs).resolve_left hne
  have hlast : last ∈ init ++ [last] := List.mem_append_right init List.mem_cons_self
  have hbs : b.stop.toNat = last.old.stop.toNat := by
    refine hb.stop_eq (List.mem_map_of_mem hlast) (List.forall_mem_map.mpr ?_)
    intro q hq
    exact (h.stop_le_last hq).1
  have has : a.stop.toNat = last.new.stop.toNat := by
    refine ha.stop_eq (List.mem_map_of_mem hlast) (List.forall_mem_map.mpr ?_)
    intro q hq
    exact (h.stop_le_last hq).2
  rw [hbs, has]
  exact sameRest_last h hin

end Ends

end Replacement

end DirtyRegion
