import Mathlib.Data.List.Basic
import Mathlib.Tactic.ByContra
import Mathlib.Tactic.Set
import DirtyRegion.Proofs.Edit
import DirtyRegion.Proofs.Slice

/-!
# Origins — where the characters after a burst of edits come from

Edits move characters without looking at them. So a burst can be run on labels in place of
characters: `Edit.origins n es` runs it on the numbers `0` to `n - 1`, with no number for what the
edits bring. Every text of `n` characters goes the way of its labels (`edited_map`).

Main statements: `sameRest_edited` and `sameRest_of_map`, by which a burst leaves the end of every
text alone exactly if it leaves the end of the labels alone.
-/

namespace DirtyRegion

namespace Edit

variable {α β γ : Type}

section Defs

/-- The edit with each character replaced by its image. -/
def map (f : α → β) (e : Edit α) : Edit β :=
  ⟨e.start, e.old, e.text.map f, e.version, by simpa using e.length_text_lt⟩

/-- All of an edit but its characters. -/
def shape (e : Edit α) : Edit Unit :=
  e.map fun _ => ()

/-- For each character after a burst its number in the text of `n` characters before. -/
def origins (n : ℕ) (es : List (Edit α)) : List (Option ℕ) :=
  edited ((List.range n).map some) (es.map (map fun _ => none))

end Defs

/-! ### Edits do not look at characters -/

theorem map_comp_map (f : α → β) (g : β → γ) : map g ∘ map f = map (g ∘ f) := by
  funext e
  simp [map]

theorem shape_comp_map (f : α → β) : shape ∘ map f = shape :=
  map_comp_map f fun _ => ()

theorem map_comp_shape (f : Unit → β) : map f ∘ (shape : Edit α → Edit Unit) = map fun _ => f () :=
  map_comp_map _ f

theorem splice_map (f : α → β) (e : Edit α) (cs : List α) :
    (e.map f).splice (cs.map f) = (e.splice cs).map f := by
  simp [splice, map]

theorem edited_map (f : α → β) (es : List (Edit α)) (cs : List α) :
    edited (cs.map f) (es.map (map f)) = (edited cs es).map f := by
  induction es generalizing cs with
  | nil => rfl
  | cons e es ih => rw [List.map_cons, edited_cons, splice_map, ih, edited_cons]

theorem valid_map (f : α → β) {limit : ℕ} {es : List (Edit α)} {cs : List α} :
    Valid limit (cs.map f) (es.map (map f)) ↔ Valid limit cs es := by
  induction es generalizing cs with
  | nil => simp [Valid]
  | cons e es ih => rw [List.map_cons, Valid, Valid, splice_map, ih, List.length_map, Fits, Fits,
      List.length_map, map]

/-- Origins depend on the shapes of the edits alone. -/
theorem origins_of_shape {n : ℕ} {es : List (Edit α)} {es' : List (Edit β)}
    (h : es.map shape = es'.map shape) : origins n es = origins n es' := by
  have hmap := congrArg (List.map (map fun _ => (none : Option ℕ))) h
  rw [List.map_map, List.map_map, map_comp_shape, map_comp_shape] at hmap
  exact congrArg (edited _) hmap

/-! ### Labels decide what is left alone -/

section Rest

variable {i j : ℕ}

theorem map_label_eq {l : List (ℕ ⊕ α)} {ks : List ℕ}
    (h : l.map (Sum.elim some fun _ => none) = ks.map some) : l = ks.map Sum.inl := by
  induction l generalizing ks with
  | nil =>
    rw [List.map_nil, eq_comm, List.map_eq_nil_iff] at h
    rw [h, List.map_nil]
  | cons x l ih =>
    cases ks with
    | nil => simp at h
    | cons k ks =>
      rw [List.map_cons, List.map_cons, List.cons.injEq] at h
      cases x with
      | inl m =>
        obtain rfl := Option.some.inj h.1
        rw [ih h.2, List.map_cons]
      | inr a => cases h.1

theorem map_getElem?_range (cs : List α) :
    (List.range cs.length).map (fun k => cs[k]?) = cs.map some := by
  apply List.ext_getElem
  · simp
  · intro k h₁ h₂
    simp at h₁
    simp [h₁]

/-- **From labels to texts.** A text whose labels go on alike goes on alike. -/
theorem sameRest_edited {cs : List α} {es : List (Edit α)}
    (h : SameRest i j (origins cs.length ([] : List (Edit α))) (origins cs.length es)) :
    SameRest i j cs (edited cs es) := by
  -- One run has both kinds of label: the number of an old character, the character that came.
  set tags : List (ℕ ⊕ α) := (List.range cs.length).map Sum.inl with htags
  set run : List (ℕ ⊕ α) := edited tags (es.map (map Sum.inr)) with hrun
  have hlabel : origins cs.length es = run.map (Sum.elim some fun _ => none) := by
    rw [hrun, ← edited_map, htags, List.map_map, List.map_map, map_comp_map]
    rfl
  have hread : (edited cs es).map some = run.map (Sum.elim (fun k => cs[k]?) some) := by
    rw [hrun, ← edited_map, ← edited_map, htags, List.map_map, List.map_map, map_comp_map,
      ← map_getElem?_range]
    rfl
  obtain ⟨hi, hj, hdrop⟩ := h
  rw [hlabel] at hj hdrop
  rw [origins, List.map_nil, edited_nil] at hi hdrop
  have hlen : (edited cs es).length = run.length := by
    simpa using congrArg List.length hread
  rw [← List.map_drop, ← List.map_drop] at hdrop
  have hrest : run.drop j = ((List.range cs.length).drop i).map Sum.inl := map_label_eq hdrop.symm
  refine ⟨by simpa using hi, by simpa [hlen] using hj, ?_⟩
  have hsome : (cs.drop i).map some = ((edited cs es).drop j).map some := by
    rw [List.map_drop, List.map_drop, hread, ← map_getElem?_range, ← List.map_drop, ← List.map_drop,
      hrest, List.map_map]
    rfl
  exact List.map_injective_iff.mpr (fun _ _ => Option.some.inj) hsome

/-- **From texts to labels.** Two letters are enough to tell any two lists of labels apart. -/
theorem sameRest_of_map [DecidableEq α] {l l' : List α} {a b : β} (hab : a ≠ b)
    (h : ∀ f : α → β, SameRest i j (l.map f) (l'.map f)) : SameRest i j l l' := by
  obtain ⟨hi, hj, hdrop⟩ := h fun _ => a
  have hlen := congrArg List.length hdrop
  rw [List.length_map] at hi hj
  refine ⟨hi, hj, List.ext_getElem (by simpa using hlen) ?_⟩
  intro k hk hk'
  -- Spell the label at `k` with one letter, and all others with the other one.
  have hmark := (h fun x => if x = (l.drop i)[k] then a else b).2.2
  rw [← List.map_drop, ← List.map_drop] at hmark
  have hat := List.getElem_of_eq hmark (by simpa using hk)
  rw [List.getElem_map, List.getElem_map, if_pos rfl] at hat
  by_contra hne
  rw [if_neg (Ne.symm hne)] at hat
  exact hab hat

end Rest

end Edit

end DirtyRegion
