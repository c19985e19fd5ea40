import Mathlib.Data.Nat.Notation
import DirtyRegion.Extent

/-!
# Edits — what producers do to a text

An `Edit` puts characters in the place of others. It is described by offsets into the text it meets,
so the edits of a burst speak of different texts: `edited cs es` applies them one after another, and
`Valid limit cs es` says that each lies in the text it meets and that all these texts are shorter
than `limit`. The alphabet is a parameter, since nothing an edit does depends on the characters.

Main statements: `take_edited` (a burst keeps the text before all its starts), `leastStart_le` and
`leastStart_le_length`, by which the least start of a burst is such a place.
-/

namespace DirtyRegion

/-- An edit of a text: from `start` on, `old` characters go and those of `text` come. -/
structure Edit (α : Type) where
  start : Offset
  old : Offset
  text : List α
  version : Version
  length_text_lt : text.length < offsetCount

namespace Edit

variable {α β : Type}

section Defs

/-- Characters go and none come. -/
def erase (start old : Offset) (v : Version) : Edit α :=
  ⟨start, old, [], v, show 0 < offsetCount by decide⟩

/-- One character comes in the place of others. -/
def put (start old : Offset) (a : α) (v : Version) : Edit α :=
  ⟨start, old, [a], v, show 1 < offsetCount by decide⟩

/-- The number of characters that come, as an offset. -/
def inserted (e : Edit α) : Offset :=
  UInt64.ofNat e.text.length

/-- How many characters go or come. An edit of size zero is idle. -/
def size (e : Edit α) : ℕ :=
  e.old.toNat + e.text.length

def Fits (e : Edit α) (cs : List α) : Prop :=
  e.start.toNat + e.old.toNat ≤ cs.length

def splice (e : Edit α) (cs : List α) : List α :=
  cs.take e.start.toNat ++ e.text ++ cs.drop (e.start.toNat + e.old.toNat)

/-- The text after edits one after another. -/
def edited (cs : List α) (es : List (Edit α)) : List α :=
  es.foldl (fun cs e => e.splice cs) cs

/-- Every edit lies in the text it meets, and no text on the way has `limit` characters. -/
def Valid (limit : ℕ) : List α → List (Edit α) → Prop
  | cs, [] => cs.length < limit
  | cs, e :: es => cs.length < limit ∧ e.Fits cs ∧ Valid limit (e.splice cs) es

/-- Whether a burst is valid can be computed. -/
instance decidableValid (limit : ℕ) :
    ∀ (cs : List α) (es : List (Edit α)), Decidable (Valid limit cs es)
  | cs, [] => inferInstanceAs (Decidable (cs.length < limit))
  | cs, e :: es =>
    have := decidableValid limit (e.splice cs) es
    inferInstanceAs (Decidable (cs.length < limit ∧ e.start.toNat + e.old.toNat ≤ cs.length ∧ _))

/-- The edits that are not idle. -/
def active (es : List (Edit α)) : List (Edit α) :=
  es.filter (0 < ·.size)

/-- The least start among the active edits, and zero if there is none. -/
def leastStart (es : List (Edit α)) : ℕ :=
  ((active es).map fun e => e.start.toNat).min?.getD 0

/-- The greatest end of what goes in an active edit, and zero if there is none. -/
def oldEnd (es : List (Edit α)) : ℕ :=
  ((active es).map fun e => e.start.toNat + e.old.toNat).max?.getD 0

/-- The greatest end of what comes in an active edit, and zero if there is none. -/
def newEnd (es : List (Edit α)) : ℕ :=
  ((active es).map fun e => e.start.toNat + e.text.length).max?.getD 0

end Defs

/-! ### One edit -/

theorem toNat_inserted (e : Edit α) : e.inserted.toNat = e.text.length :=
  UInt64.toNat_ofNat_of_lt' e.length_text_lt

theorem splice_of_idle {e : Edit α} (h : e.size = 0) (cs : List α) : e.splice cs = cs := by
  obtain ⟨ho, ht⟩ := Nat.add_eq_zero_iff.mp h
  rw [splice, List.length_eq_zero_iff.mp ht, ho, List.append_nil, Nat.add_zero,
    List.take_append_drop]

theorem length_splice {e : Edit α} {cs : List α} (h : e.Fits cs) :
    (e.splice cs).length + e.old.toNat = cs.length + e.text.length := by
  unfold Fits at h
  simp only [splice, List.length_append, List.length_take, List.length_drop]
  omega

theorem take_splice {e : Edit α} {cs : List α} (h : e.Fits cs) {k : ℕ} (hk : k ≤ e.start.toNat) :
    (e.splice cs).take k = cs.take k := by
  unfold Fits at h
  have hlen : k ≤ (cs.take e.start.toNat).length := by
    rw [List.length_take]
    omega
  rw [splice, List.append_assoc, List.take_append_of_le_length hlen, List.take_take,
    Nat.min_eq_left hk]

/-! ### Bursts of edits -/

section Bursts

variable {limit : ℕ} {cs : List α} {es : List (Edit α)} {xs : List Extent}

@[simp] theorem edited_nil (cs : List α) : edited cs [] = cs := rfl

@[simp] theorem edited_cons (cs : List α) (e : Edit α) (es : List (Edit α)) :
    edited cs (e :: es) = edited (e.splice cs) es := rfl

theorem edited_append (cs : List α) (es es' : List (Edit α)) :
    edited cs (es ++ es') = edited (edited cs es) es' :=
  List.foldl_append

theorem Valid.length_lt (h : Valid limit cs es) : cs.length < limit := by
  cases es with
  | nil => exact h
  | cons e es => exact h.1

theorem Valid.length_edited_lt (h : Valid limit cs es) : (edited cs es).length < limit := by
  induction es generalizing cs with
  | nil => exact h
  | cons e es ih => exact ih h.2.2

theorem valid_append {es' : List (Edit α)} :
    Valid limit cs (es ++ es') ↔ Valid limit cs es ∧ Valid limit (edited cs es) es' := by
  induction es generalizing cs with
  | nil => exact ⟨fun h => ⟨h.length_lt, h⟩, fun h => h.2⟩
  | cons e es ih => simp only [List.cons_append, Valid, edited_cons, ih, and_assoc]

/-- No edit of a burst touches text before all their starts. -/
theorem take_edited (h : Valid limit cs es) {k : ℕ} (hk : k ≤ cs.length)
    (hes : ∀ e ∈ es, 0 < e.size → k ≤ e.start.toNat) :
    k ≤ (edited cs es).length ∧ (edited cs es).take k = cs.take k := by
  induction es generalizing cs with
  | nil => exact ⟨hk, rfl⟩
  | cons e es ih =>
    obtain ⟨-, hfit, hrest⟩ := h
    have hstep : k ≤ (e.splice cs).length ∧ (e.splice cs).take k = cs.take k := by
      -- An idle edit may well start before the character `k`, but then it changes nothing there.
      by_cases hidle : e.size = 0
      · rw [splice_of_idle hidle]
        exact ⟨hk, rfl⟩
      · have hstart := hes e List.mem_cons_self (Nat.pos_of_ne_zero hidle)
        have htake := take_splice hfit hstart
        have hlen := congrArg List.length htake
        rw [List.length_take, List.length_take] at hlen
        exact ⟨by omega, htake⟩
    obtain ⟨hlen, htake⟩ := ih hrest hstep.1 fun x hx => hes x (List.mem_cons_of_mem _ hx)
    exact ⟨hlen, htake.trans hstep.2⟩

/-! ### The least start -/

theorem leastStart_le {e : Edit α} (he : e ∈ es) (hsize : 0 < e.size) :
    leastStart es ≤ e.start.toNat := by
  have hmem : e.start.toNat ∈ (active es).map fun e => e.start.toNat :=
    List.mem_map_of_mem (List.mem_filter.mpr ⟨he, decide_eq_true hsize⟩)
  exact List.min?_getD_le_of_mem hmem

theorem leastStart_cons_of_idle {e : Edit α} (h : e.size = 0) (es : List (Edit α)) :
    leastStart (e :: es) = leastStart es := by
  rw [leastStart, active, List.filter_cons_of_neg (by simp [h]), leastStart, active]

theorem leastStart_le_length (h : Valid limit cs es) : leastStart es ≤ cs.length := by
  induction es generalizing cs with
  | nil => exact Nat.zero_le _
  | cons e es ih =>
    obtain ⟨-, hfit, hrest⟩ := h
    by_cases hidle : e.size = 0
    · rw [splice_of_idle hidle] at hrest
      rw [leastStart_cons_of_idle hidle]
      exact ih hrest
    · have hle : leastStart (e :: es) ≤ e.start.toNat :=
        leastStart_le List.mem_cons_self (Nat.pos_of_ne_zero hidle)
      unfold Fits at hfit
      omega

/-- The text before the least start stays as it is. -/
theorem take_leastStart (h : Valid limit cs es) :
    leastStart es ≤ (edited cs es).length ∧
      (edited cs es).take (leastStart es) = cs.take (leastStart es) :=
  take_edited h (leastStart_le_length h) fun _ he hsize => leastStart_le he hsize

theorem edited_of_idle (h : ∀ e ∈ es, e.size = 0) (cs : List α) : edited cs es = cs := by
  induction es generalizing cs with
  | nil => rfl
  | cons e es ih =>
    rw [edited_cons, splice_of_idle (h e List.mem_cons_self),
      ih fun x hx => h x (List.mem_cons_of_mem _ hx)]

end Bursts

end Edit

end DirtyRegion
