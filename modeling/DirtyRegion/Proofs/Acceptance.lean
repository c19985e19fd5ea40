import Mathlib.Data.List.Permutation
import DirtyRegion.Proofs.Members
import DirtyRegion.Span.Lemmas

/-!
# Acceptance — the texts that denote a span

`readSpan` gives a span for the texts of the grammar and for no others. The proof follows the
readers: an array is two offsets with their marks, an object is its members, and what comes behind
the closing bracket is left to the reader of the whole text.

Main statements: `readArray_eq_ok_iff`, `readObject_eq_ok_iff`, `readBounds_eq_ok_iff`, and from them
`denotes_of_readSpan` and `readSpan_of_denotes`.
-/

namespace DirtyRegion.Json

variable {cs rest : List Char} {f : Field} {n start stop : Offset}

/-! ### Arrays -/

theorem readOffset_skipBlanks (cs : List Char) : readOffset (skipBlanks cs) = readOffset cs := by
  unfold readOffset
  rw [skipBlanks_skipBlanks]

/-- Where an offset is read, there is a digit after the blanks. -/
theorem skipBlanks_of_readOffset (h : readOffset cs = .ok (n, rest)) :
    ∃ d tail, skipBlanks cs = d :: tail ∧ d.isDigit = true := by
  obtain ⟨ws, ds, hws, hds, -, rfl⟩ := readOffset_eq_ok_iff.mp h
  obtain ⟨d, ds', rfl, hd⟩ := hds.exists_cons
  exact ⟨d, ds' ++ rest, skipBlanks_blanks hws (by rintro c ⟨⟩; exact isBlank_of_isDigit hd), hd⟩

theorem readArray_of_readOffset {cs₁ cs₂ cs₃ : List Char} (h₁ : readOffset cs = .ok (start, cs₁))
    (hcomma : skipBlanks cs₁ = ',' :: cs₂) (h₂ : readOffset cs₂ = .ok (stop, cs₃))
    (hclose : skipBlanks cs₃ = ']' :: rest) :
    readArray cs = .ok ((start, stop), rest) := by
  obtain ⟨d, tail, hskip, hd⟩ := skipBlanks_of_readOffset h₁
  unfold readArray
  split
  · rename_i heq
    rw [hskip] at heq
    cases heq
    cases hd
  · rw [readOffset_skipBlanks, h₁]
    simp only [bind, Except.bind, hcomma, h₂, hclose]

theorem exists_of_readArray (h : readArray cs = .ok ((start, stop), rest)) :
    ∃ cs₁ cs₂ cs₃, readOffset cs = .ok (start, cs₁) ∧ skipBlanks cs₁ = ',' :: cs₂ ∧
      readOffset cs₂ = .ok (stop, cs₃) ∧ skipBlanks cs₃ = ']' :: rest := by
  unfold readArray at h
  split at h
  · cases h
  · rw [readOffset_skipBlanks, bind_eq_ok_iff] at h
    obtain ⟨⟨start', cs₁⟩, h₁, h⟩ := h
    dsimp only at h
    split at h
    · cases h
    · rename_i cs₂ hcomma
      rw [bind_eq_ok_iff] at h
      obtain ⟨⟨stop', cs₃⟩, h₂, h⟩ := h
      dsimp only at h
      split at h
      · rename_i hclose
        cases h
        exact ⟨cs₁, cs₂, cs₃, h₁, hcomma, h₂, hclose⟩
      · cases h
    · cases h

/-- An array is read exactly if two offsets stand in it. -/
theorem readArray_eq_ok_iff :
    readArray cs = .ok ((start, stop), rest) ↔
      ∃ a b, Padded (OffsetLiteral start) a ∧ Padded (OffsetLiteral stop) b ∧
        cs = a ++ ',' :: (b ++ ']' :: rest) := by
  have hmarks : isMark ',' = true ∧ isMark ']' = true := by decide
  constructor
  · intro h
    obtain ⟨cs₁, cs₂, cs₃, h₁, hcomma, h₂, hclose⟩ := exists_of_readArray h
    obtain ⟨a, ha, rfl⟩ := (readOffset_mark_iff hmarks.1).mp ⟨cs₁, h₁, hcomma⟩
    obtain ⟨b, hb, rfl⟩ := (readOffset_mark_iff hmarks.2).mp ⟨cs₃, h₂, hclose⟩
    exact ⟨a, b, ha, hb, rfl⟩
  · rintro ⟨a, b, ha, hb, rfl⟩
    obtain ⟨cs₁, h₁, hcomma⟩ := (readOffset_mark_iff hmarks.1).mpr ⟨a, ha, rfl⟩
    obtain ⟨cs₃, h₂, hclose⟩ := (readOffset_mark_iff hmarks.2).mpr ⟨b, hb, rfl⟩
    exact readArray_of_readOffset h₁ hcomma h₂ hclose

/-! ### Objects -/

theorem memberValue_eq_ok_iff {members : List (Field × Offset)} :
    memberValue members f = .ok n ↔ members.lookup f = some n := by
  unfold memberValue
  split
  · rename_i h
    simp [h]
  · rename_i m h
    simp [h]

/-- Where both fields are found among members with fields of their own, there are no more of them. -/
theorem perm_of_lookup {members : List (Field × Offset)} (hnodup : (members.map Prod.fst).Nodup)
    (hstart : members.lookup .start = some start) (hstop : members.lookup .stop = some stop) :
    members.Perm [(.start, start), (.stop, stop)] := by
  -- There are two fields in all, so two members with fields of their own are all that there can be.
  have hsub : [(.start, start), (.stop, stop)] ⊆ members :=
    List.cons_subset.mpr ⟨mem_of_lookup hstart,
      List.cons_subset.mpr ⟨mem_of_lookup hstop, List.nil_subset _⟩⟩
  have hfields : members.map Prod.fst ⊆ [.start, .stop] := by
    rintro (_ | _) _ <;> simp
  have hlength : members.length ≤ 2 := by
    have h := (List.subperm_of_subset hnodup hfields).length_le
    rwa [List.length_map] at h
  exact ((List.subperm_of_subset (by simp) hsub).perm_of_length_le hlength).symm

theorem lookup_of_perm {members : List (Field × Offset)}
    (h : members.Perm [(.start, start), (.stop, stop)]) :
    members.lookup .start = some start ∧ members.lookup .stop = some stop := by
  rcases List.perm_pair.mp h with rfl | rfl <;> exact ⟨rfl, rfl⟩

theorem readObject_of_readMembers {cs' : List Char} {members : List (Field × Offset)}
    (hquote : skipBlanks cs = '"' :: cs')
    (hread : readMembers [.start, .stop] [] cs' = .ok (members, rest))
    (hstart : members.lookup .start = some start) (hstop : members.lookup .stop = some stop) :
    readObject cs = .ok ((start, stop), rest) := by
  unfold readObject
  simp only [hquote, hread, bind, Except.bind, memberValue_eq_ok_iff.mpr hstart,
    memberValue_eq_ok_iff.mpr hstop]

theorem exists_of_readObject (h : readObject cs = .ok ((start, stop), rest)) :
    ∃ cs' members, skipBlanks cs = '"' :: cs' ∧
      readMembers [.start, .stop] [] cs' = .ok (members, rest) ∧
        members.lookup .start = some start ∧ members.lookup .stop = some stop := by
  unfold readObject at h
  dsimp only at h
  split at h
  · cases h
  · rename_i cs' hquote
    obtain ⟨⟨members, rest'⟩, hmembers, h⟩ := bind_eq_ok_iff.mp h
    obtain ⟨start', hstart, h⟩ := bind_eq_ok_iff.mp h
    obtain ⟨stop', hstop, h⟩ := bind_eq_ok_iff.mp h
    cases h
    exact ⟨cs', members, hquote, hmembers, memberValue_eq_ok_iff.mp hstart,
      memberValue_eq_ok_iff.mp hstop⟩
  · cases h

/-- An object is read exactly if it has two members with the two fields. -/
theorem readObject_eq_ok_iff :
    readObject cs = .ok ((start, stop), rest) ↔
      ∃ members text, Members members text ∧ members.Perm [("start", start), ("end", stop)] ∧
        cs = text ++ '\x7d' :: rest := by
  have hfree : [Field.start, Field.stop].Nodup := by decide
  constructor
  · intro h
    obtain ⟨cs', members, hquote, hread, hstart, hstop⟩ := exists_of_readObject h
    obtain ⟨ws, hws, rfl⟩ := (skipBlanks_eq_cons_iff (by decide)).mp hquote
    obtain ⟨fs, text, hfs, hnodup, -, rfl, he⟩ := exists_members_of_readMembers hfree hread
    rw [List.append_nil] at hstart hstop
    have hnodup' : (fs.reverse.map Prod.fst).Nodup := by
      rw [List.map_reverse]
      exact List.nodup_reverse.mpr hnodup
    have hperm := (List.reverse_perm fs).symm.trans (perm_of_lookup hnodup' hstart hstop)
    refine ⟨fs.map named, ws ++ text, hfs.blanks_append hws, hperm.map named, ?_⟩
    rw [he, List.append_assoc]
  · rintro ⟨members, text, hmembers, hperm, rfl⟩
    obtain ⟨fs, rfl, hfs⟩ : ∃ fs : List (Field × Offset), members = fs.map named ∧
        fs.Perm [(.start, start), (.stop, stop)] := by
      rcases List.perm_pair.mp hperm with rfl | rfl
      · exact ⟨[(.start, start), (.stop, stop)], rfl, .refl _⟩
      · exact ⟨[(.stop, stop), (.start, start)], rfl, .swap ..⟩
    obtain ⟨ws, text', hws, rfl, hquoted⟩ := hmembers.exists_quote
    have hnodup : (fs.map Prod.fst).Nodup := (hfs.map Prod.fst).nodup_iff.mpr hfree
    have hmem : ∀ p ∈ fs, p.1 ∈ [Field.start, Field.stop] := by
      rintro ⟨_ | _, n⟩ _ <;> simp
    have hread : readMembers [.start, .stop] [] (text' ++ '\x7d' :: rest) =
        .ok (fs.reverse ++ [], rest) := readMembers_of_members hfree hquoted hnodup hmem rfl
    rw [List.append_nil] at hread
    obtain ⟨hstart, hstop⟩ := lookup_of_perm ((List.reverse_perm fs).trans hfs)
    refine readObject_of_readMembers ?_ hread hstart hstop
    exact (skipBlanks_eq_cons_iff (by decide)).mpr ⟨ws, hws, by simp⟩

/-! ### Whole texts -/

theorem readBounds_eq_ok_iff :
    readBounds cs = .ok ((start, stop), rest) ↔
      ∃ ws core, Blanks ws ∧ Denotes start stop core ∧ cs = ws ++ (core ++ rest) := by
  constructor
  · intro h
    obtain ⟨ws, hws, hcs⟩ := exists_blanks cs
    unfold readBounds at h
    split at h
    · rename_i cs' hopen
      obtain ⟨a, b, ha, hb, rfl⟩ := readArray_eq_ok_iff.mp h
      exact ⟨ws, _, hws, .array ha hb, by rw [hcs, hopen]; simp⟩
    · rename_i cs' hopen
      obtain ⟨members, text, hmembers, hperm, rfl⟩ := readObject_eq_ok_iff.mp h
      exact ⟨ws, _, hws, .object hmembers hperm, by rw [hcs, hopen]; simp⟩
    · split at h <;> cases h
  · rintro ⟨ws, core, hws, hcore, rfl⟩
    unfold readBounds
    cases hcore with
    | array ha hb =>
      rename_i a b
      have hopen : skipBlanks (ws ++ ('[' :: (a ++ ',' :: (b ++ [']'])) ++ rest)) =
          '[' :: (a ++ ',' :: (b ++ ']' :: rest)) :=
        (skipBlanks_eq_cons_iff (by decide)).mpr ⟨ws, hws, by simp⟩
      rw [hopen]
      exact readArray_eq_ok_iff.mpr ⟨a, b, ha, hb, rfl⟩
    | object hmembers hperm =>
      rename_i members text
      have hopen : skipBlanks (ws ++ ('\x7b' :: (text ++ ['\x7d']) ++ rest)) =
          '\x7b' :: (text ++ '\x7d' :: rest) :=
        (skipBlanks_eq_cons_iff (by decide)).mpr ⟨ws, hws, by simp⟩
      rw [hopen]
      exact readObject_eq_ok_iff.mpr ⟨members, text, hmembers, hperm, rfl⟩

theorem checkBounds_eq_ok_iff {r : Span} :
    checkBounds (start, stop) = .ok r ↔ ∃ h : start ≤ stop, r = ⟨start, stop, h⟩ := by
  unfold checkBounds Span.ofPair Span.ofBounds
  split
  · rename_i h
    constructor
    · intro hr
      cases hr
      exact ⟨h, rfl⟩
    · rintro ⟨-, rfl⟩
      rfl
  · rename_i h
    constructor
    · intro hr
      cases hr
    · rintro ⟨hle, -⟩
      exact absurd hle h

theorem denotes_of_readSpan {t : String} {r : Span} (h : readSpan t = .ok r) :
    Padded (Denotes r.start r.stop) t.toList := by
  unfold readSpan at h
  obtain ⟨⟨⟨start, stop⟩, rest⟩, hread, h⟩ := bind_eq_ok_iff.mp h
  obtain ⟨span, hcheck, h⟩ := bind_eq_ok_iff.mp h
  split at h
  · rename_i hblank
    cases h
    obtain ⟨-, rfl⟩ := checkBounds_eq_ok_iff.mp hcheck
    obtain ⟨ws, core, hws, hcore, he⟩ := readBounds_eq_ok_iff.mp hread
    rw [he]
    exact .mk hws hcore (skipBlanks_eq_nil_iff.mp hblank)
  · cases h

/-- A text in the grammar is read to its end, so that all that is left to do is to check the bounds
that it denotes. -/
theorem readSpan_eq_checkBounds {t : String} (h : Padded (Denotes start stop) t.toList) :
    readSpan t = checkBounds (start, stop) := by
  unfold readSpan
  generalize t.toList = cs at h
  obtain ⟨hws, hcore, hback⟩ := h
  rename_i ws core back
  have hread : readBounds (ws ++ (core ++ back)) = .ok ((start, stop), back) :=
    readBounds_eq_ok_iff.mpr ⟨ws, core, hws, hcore, rfl⟩
  rw [hread]
  show (checkBounds (start, stop) >>= fun r => if skipBlanks back = [] then .ok r else _) = _
  cases checkBounds (start, stop) with
  | error e => rfl
  | ok r => exact if_pos (skipBlanks_eq_nil_iff.mpr hback)

theorem readSpan_of_denotes {t : String} {r : Span}
    (h : Padded (Denotes r.start r.stop) t.toList) : readSpan t = .ok r := by
  rw [readSpan_eq_checkBounds h]
  exact checkBounds_eq_ok_iff.mpr ⟨r.start_le_stop, rfl⟩

/-- **A text denotes a span exactly if the grammar says so**: it is an array of two offsets or an
object with the two fields, with blanks wherever they may stand, and the bounds do not run
backwards. -/
theorem readSpan_eq_ok_iff (t : String) (r : Span) :
    readSpan t = .ok r ↔ ∃ start stop, Padded (Denotes start stop) t.toList ∧
      ∃ h : start ≤ stop, r = ⟨start, stop, h⟩ := by
  constructor
  · intro h
    exact ⟨r.start, r.stop, denotes_of_readSpan h, r.start_le_stop, rfl⟩
  · rintro ⟨start, stop, hdenotes, hle, rfl⟩
    exact readSpan_of_denotes hdenotes

end DirtyRegion.Json
