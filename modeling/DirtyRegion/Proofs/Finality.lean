import DirtyRegion.Proofs.Acceptance
import DirtyRegion.Proofs.Continuation

/-!
# Finality — the first fault of a text is its last

Reading stops at the first part that cannot belong to a span, so nothing that follows can mend or
change the fault. A span, on the other hand, is read up to its closing bracket, so that no shorter
text stands for it, and only blanks may follow.

- `readSecond` is what an array is read with after its first offset.
- `closeObject` takes the two bounds from the members of an object that has closed.

Main statements: `readArray_persists`, `readMembers_persists`, `readObject_persists`,
`readBounds_persists` and `readSpan_persists`, each for a fault with more text behind it, and
`faults_are_final`.
-/

namespace DirtyRegion.Json

variable {cs rest u : List Char} {n start stop : Offset} {f : Field} {m : Mismatch}

/-! ### Arrays -/

/-- The closing bracket behind the bounds of an array. -/
def readClose (bounds : Offset × Offset) (cs : List Char) :
    Except Fault ((Offset × Offset) × List Char) :=
  match skipBlanks cs with
  | ']' :: rest => .ok (bounds, rest)
  | _ => .error .malformed

/-- What stands in an array behind its first offset. -/
def readSecond (start : Offset) (cs : List Char) : Except Fault ((Offset × Offset) × List Char) :=
  match skipBlanks cs with
  | ']' :: _ => .error (.unfit (.wrongLength 1))
  | ',' :: cs => readOffset cs >>= fun r => readClose (start, r.1) r.2
  | _ => .error .malformed

theorem readArray_of_close (h : skipBlanks cs = ']' :: rest) :
    readArray cs = .error (.unfit (.wrongLength 0)) := by
  unfold readArray
  rw [h]
  rfl

/-- An array that does not close at once is read offset by offset. -/
theorem readArray_eq (h : (skipBlanks cs).head? ≠ some ']') :
    readArray cs = readOffset cs >>= fun r => readSecond r.1 r.2 := by
  unfold readArray
  split
  · rename_i hclose
    rw [hclose] at h
    exact absurd rfl h
  · rw [readOffset_skipBlanks]
    rfl

theorem suffix_of_readOffset (h : readOffset cs = .ok (n, rest)) : rest <:+ cs := by
  obtain ⟨ws, ds, -, -, -, rfl⟩ := readOffset_eq_ok_iff.mp h
  exact (List.suffix_append ds rest).trans (List.suffix_append ws _)

theorem readClose_of_close {bounds : Offset × Offset} (h : skipBlanks cs = ']' :: rest) :
    readClose bounds cs = .ok (bounds, rest) := by
  unfold readClose
  rw [h]
  rfl

theorem readClose_of_comma {bounds : Offset × Offset} (h : skipBlanks cs = ',' :: rest) :
    readClose bounds cs = .error .malformed := by
  unfold readClose
  rw [h]
  rfl

theorem readClose_ne_unfit (bounds : Offset × Offset) (cs : List Char) (m : Mismatch) :
    readClose bounds cs ≠ .error (.unfit m) := by
  unfold readClose
  split <;> exact nofun

theorem readSecond_of_close (h : skipBlanks cs = ']' :: rest) :
    readSecond start cs = .error (.unfit (.wrongLength 1)) := by
  unfold readSecond
  rw [h]
  rfl

theorem readSecond_of_comma (h : skipBlanks cs = ',' :: rest) :
    readSecond start cs = readOffset rest >>= fun r => readClose (start, r.1) r.2 := by
  unfold readSecond
  rw [h]
  rfl

theorem readSecond_persists (h : readSecond start cs = .error (.unfit m)) (u : List Char) :
    Persists m (Joins cs u) (readSecond start (cs ++ u)) := by
  unfold readSecond at h
  split at h
  · rename_i hclose
    rw [readSecond_of_close (skipBlanks_continue hclose u)]
    exact .of_error h
  · rename_i cs' hcomma
    rw [readSecond_of_comma (skipBlanks_continue hcomma u)]
    cases hread : readOffset cs' with
    | error e =>
      rw [hread] at h
      cases h
      have hpersists := (readOffset_persists hread u).mono fun hu : Joins cs u =>
        hu.of_suffix (suffix_of_skipBlanks hcomma)
      exact hpersists.bind _
    | ok r =>
      rw [hread] at h
      exact absurd h (readClose_ne_unfit _ r.2 m)
  · cases h

/-- A reader that did not fail for want of text has something left to look at. -/
theorem readSecond_ne_nil (h : readSecond start cs = .error (.unfit m)) : cs ≠ [] := by
  rintro rfl
  cases h

theorem readArray_persists (h : readArray cs = .error (.unfit m)) (u : List Char) :
    Persists m (Joins cs u) (readArray (cs ++ u)) := by
  cases hskip : skipBlanks cs with
  | nil =>
    rw [readArray_eq (by rw [hskip]; exact nofun), ← readOffset_skipBlanks, hskip] at h
    cases h
  | cons c tail =>
    have hskip' := skipBlanks_continue hskip u
    by_cases hclose : c = ']'
    · subst hclose
      rw [readArray_of_close hskip] at h
      rw [readArray_of_close hskip', h]
      exact .of_error rfl
    have hhead : (c :: tail).head? ≠ some ']' := fun he => hclose (Option.some.inj he)
    rw [readArray_eq (by rwa [hskip])] at h
    rw [readArray_eq (by rw [hskip']; exact hhead)]
    cases hread : readOffset cs with
    | error e =>
      rw [hread] at h
      cases h
      exact (readOffset_persists hread u).bind _
    | ok r =>
      rw [hread] at h
      have hsecond : readSecond r.1 r.2 = .error (.unfit m) := h
      -- The first offset was read, and since something stands behind it, it does not run on.
      have hne := readSecond_ne_nil hsecond
      rw [readOffset_continue hread fun hnil => absurd hnil hne]
      exact (readSecond_persists hsecond u).mono fun hu =>
        hu.of_suffix (suffix_of_readOffset hread)

/-! ### Members -/

theorem readKey_continue (h : readKey cs = .ok (f, rest)) (u : List Char) :
    readKey (cs ++ u) = .ok (f, rest ++ u) := by
  obtain ⟨w, hw, rfl⟩ := readKey_eq_ok_iff.mp h
  exact readKey_eq_ok_iff.mpr ⟨w, hw, by simp⟩

/-- A key is read to its closing quote before it is found unknown. -/
theorem readKey_unfit_continue (h : readKey cs = .error (.unfit m)) (u : List Char) :
    readKey (cs ++ u) = .error (.unfit m) := by
  unfold readKey at h ⊢
  split at h
  · cases h
  · rename_i key rest hread
    rw [readText_continue hread]
    dsimp only
    split at h
    · exact h
    · cases h

theorem suffix_of_readKey (h : readKey cs = .ok (f, rest)) : rest <:+ cs := by
  obtain ⟨w, -, rfl⟩ := readKey_eq_ok_iff.mp h
  exact (List.suffix_cons '"' rest).trans (List.suffix_append w _)

theorem readMemberValue_continue (h : readMemberValue cs = .ok (n, rest))
    (hu : rest = [] → NumberStops u) : readMemberValue (cs ++ u) = .ok (n, rest ++ u) := by
  obtain ⟨ws, cs', hws, rfl, hread⟩ := readMemberValue_eq_ok_iff.mp h
  exact readMemberValue_eq_ok_iff.mpr
    ⟨ws, cs' ++ u, hws, by simp, readOffset_continue hread hu⟩

theorem suffix_of_readMemberValue (h : readMemberValue cs = .ok (n, rest)) : rest <:+ cs := by
  obtain ⟨ws, cs', -, rfl, hread⟩ := readMemberValue_eq_ok_iff.mp h
  have hcolon := (List.suffix_cons ':' cs').trans (List.suffix_append ws _)
  exact (suffix_of_readOffset hread).trans hcolon

theorem readMemberValue_persists (h : readMemberValue cs = .error (.unfit m)) (u : List Char) :
    Persists m (Joins cs u) (readMemberValue (cs ++ u)) := by
  unfold readMemberValue at h
  split at h
  · rename_i cs' hcolon
    have hvalue : readMemberValue (cs ++ u) = readOffset (cs' ++ u) := by
      unfold readMemberValue
      rw [skipBlanks_continue hcolon u]
      rfl
    rw [hvalue]
    exact (readOffset_persists h u).mono fun hu => hu.of_suffix (suffix_of_skipBlanks hcolon)
  · cases h

/-- Members that were read up to the brace are read as before. -/
theorem readMembers_continue {free : List Field} {got members : List (Field × Offset)}
    (hfree : free.Nodup) (h : readMembers free got cs = .ok (members, rest)) (u : List Char) :
    readMembers free got (cs ++ u) = .ok (members, rest ++ u) := by
  obtain ⟨fs, text, hfs, hnodup, hmem, rfl, he⟩ := exists_members_of_readMembers hfree h
  refine readMembers_of_members hfree hfs hnodup hmem ?_
  rw [← List.cons_append, he, List.append_assoc]
  rfl

theorem readMembers_persists {free : List Field} {got : List (Field × Offset)}
    (h : readMembers free got cs = .error (.unfit m)) (u : List Char) :
    Persists m (Joins cs u) (readMembers free got (cs ++ u)) := by
  fun_induction readMembers free got cs with
  | case1 free got cs e hkey =>
    cases h
    rw [readMembers, readKey_unfit_continue hkey u]
    exact .of_error rfl
  | case2 free got cs f cs₁ hkey hf e hvalue =>
    cases h
    obtain ⟨e', he', hm⟩ := readMemberValue_persists hvalue u
    rw [readMembers, readKey_continue hkey u]
    simp only [dif_pos hf, he']
    exact ⟨e', rfl, fun hu => hm (hu.of_suffix (suffix_of_readKey hkey))⟩
  | case4 free got cs f cs₁ hkey hf n cs₂ hvalue cs₃ hcomma cs₄ hquote ih =>
    have hvalue' := readMemberValue_continue (u := u) hvalue fun hnil => by
      rw [hnil] at hcomma
      cases hcomma
    have hsuffix : cs₄ <:+ cs :=
      (suffix_of_skipBlanks hquote).trans <| (suffix_of_skipBlanks hcomma).trans <|
        (suffix_of_readMemberValue hvalue).trans (suffix_of_readKey hkey)
    rw [readMembers, readKey_continue hkey u]
    simp only [dif_pos hf, hvalue', skipBlanks_continue hcomma u, skipBlanks_continue hquote u]
    exact (ih h).mono fun hu => hu.of_suffix hsuffix
  | case7 free got cs f cs₁ hkey hf =>
    cases h
    rw [readMembers, readKey_continue hkey u]
    simp only [dif_neg hf]
    exact .of_error rfl
  -- Elsewhere the members are read, or the text is malformed.
  | case3 | case5 | case6 => cases h

/-! ### Objects -/

/-- The bounds among the members of an object, beside what follows the object. -/
def closeObject (r : List (Field × Offset) × List Char) :
    Except Fault ((Offset × Offset) × List Char) := do
  let start ← memberValue r.1 .start
  let stop ← memberValue r.1 .stop
  .ok ((start, stop), r.2)

theorem readObject_of_close (h : skipBlanks cs = '\x7d' :: rest) :
    readObject cs = closeObject ([], rest) := by
  unfold readObject
  rw [h]
  rfl

theorem readObject_of_quote (h : skipBlanks cs = '"' :: rest) :
    readObject cs = readMembers [.start, .stop] [] rest >>= closeObject := by
  unfold readObject
  rw [h]
  rfl

/-- What is missing among members does not depend on what follows them. -/
theorem closeObject_continue {members : List (Field × Offset)}
    (h : closeObject (members, rest) = .error (.unfit m)) (u : List Char) :
    closeObject (members, rest ++ u) = .error (.unfit m) := by
  unfold closeObject at h ⊢
  cases hstart : memberValue members .start with
  | error e =>
    rw [hstart] at h
    exact h
  | ok start =>
    rw [hstart] at h
    cases hstop : memberValue members .stop with
    | error e =>
      rw [hstop] at h
      exact h
    | ok stop =>
      rw [hstop] at h
      cases h

theorem readObject_persists (h : readObject cs = .error (.unfit m)) (u : List Char) :
    Persists m (Joins cs u) (readObject (cs ++ u)) := by
  have hfree : [Field.start, Field.stop].Nodup := by decide
  unfold readObject at h
  dsimp only at h
  split at h
  · rename_i rest hclose
    have hbounds : closeObject ([], rest) = .error (.unfit m) := h
    rw [readObject_of_close (skipBlanks_continue hclose u)]
    exact .of_error (closeObject_continue hbounds u)
  · rename_i cs' hquote
    rw [readObject_of_quote (skipBlanks_continue hquote u)]
    cases hread : readMembers [.start, .stop] [] cs' with
    | error e =>
      rw [hread] at h
      cases h
      have hpersists := (readMembers_persists hread u).mono fun hu : Joins cs u =>
        hu.of_suffix (suffix_of_skipBlanks hquote)
      exact hpersists.bind _
    | ok r =>
      rw [hread] at h
      rw [readMembers_continue hfree hread u]
      exact .of_error (closeObject_continue h u)
  · cases h

/-! ### Whole texts -/

theorem readBounds_of_bracket (h : skipBlanks cs = '[' :: rest) :
    readBounds cs = readArray rest := by
  unfold readBounds
  rw [h]
  rfl

theorem readBounds_of_brace (h : skipBlanks cs = '\x7b' :: rest) :
    readBounds cs = readObject rest := by
  unfold readBounds
  rw [h]
  rfl

/-- A text that opens neither an array nor an object is no span, whatever it is. -/
theorem readBounds_of_other {c : Char} {tail : List Char} (hskip : skipBlanks cs = c :: tail)
    (hbracket : c ≠ '[') (hbrace : c ≠ '\x7b') :
    readBounds cs = .error ((readScalar (c :: tail)).elim .malformed fun r =>
      .unfit (.wrongType r.1 .span)) := by
  unfold readBounds
  rw [hskip]
  split
  · rename_i hopen
    exact absurd (List.cons.inj hopen).1 hbracket
  · rename_i hopen
    exact absurd (List.cons.inj hopen).1 hbrace
  · cases readScalar (c :: tail) <;> rfl

theorem readBounds_continue {bounds : Offset × Offset} (h : readBounds cs = .ok (bounds, rest))
    (u : List Char) : readBounds (cs ++ u) = .ok (bounds, rest ++ u) := by
  obtain ⟨ws, core, hws, hcore, rfl⟩ := readBounds_eq_ok_iff.mp h
  exact readBounds_eq_ok_iff.mpr ⟨ws, core, hws, hcore, by simp⟩

theorem readBounds_persists (h : readBounds cs = .error (.unfit m)) (u : List Char) :
    Persists m (Joins cs u) (readBounds (cs ++ u)) := by
  unfold readBounds at h
  split at h
  · rename_i tail hopen
    rw [readBounds_of_bracket (skipBlanks_continue hopen u)]
    exact (readArray_persists h u).mono fun hu => hu.of_suffix (suffix_of_skipBlanks hopen)
  · rename_i tail hopen
    rw [readBounds_of_brace (skipBlanks_continue hopen u)]
    exact (readObject_persists h u).mono fun hu => hu.of_suffix (suffix_of_skipBlanks hopen)
  · rename_i hsequence hmap
    split at h
    · cases h
    · rename_i found rest hscalar
      cases h
      obtain ⟨c, tail, heq⟩ := List.exists_cons_of_ne_nil fun hnil : skipBlanks cs = [] => by
        rw [hnil] at hscalar
        cases hscalar
      have hbracket : c ≠ '[' := fun hc => hsequence tail (hc ▸ heq)
      have hbrace : c ≠ '\x7b' := fun hc => hmap tail (hc ▸ heq)
      -- Whatever scalar stands there now, it is no span.
      refine ⟨_, readBounds_of_other (skipBlanks_continue heq u) hbracket hbrace, fun hu => ?_⟩
      rw [heq] at hscalar
      have hjoins := hu.of_suffix (heq ▸ List.dropWhile_suffix isBlank : c :: tail <:+ cs)
      rw [← List.cons_append, readScalar_continue hscalar hjoins]
      rfl

/-- What the bounds of a text come to, with what follows them. -/
def closeSpan (r : (Offset × Offset) × List Char) : Except Fault Span := do
  let span ← checkBounds r.1
  if skipBlanks r.2 = [] then .ok span else .error .malformed

theorem readSpan_eq (t : String) : readSpan t = readBounds t.toList >>= closeSpan := rfl

theorem closeSpan_eq_ok_iff {bounds : Offset × Offset} {r : Span} :
    closeSpan (bounds, rest) = .ok r ↔ checkBounds bounds = .ok r ∧ Blanks rest := by
  rw [closeSpan, bind_eq_ok_iff, ← skipBlanks_eq_nil_iff]
  constructor
  · rintro ⟨s, hcheck, h⟩
    split at h
    · rename_i hblank
      cases h
      exact ⟨hcheck, hblank⟩
    · cases h
  · rintro ⟨hcheck, hblank⟩
    exact ⟨r, hcheck, if_pos hblank⟩

/-- Where bounds are in order, the only fault left is what follows them. -/
theorem closeSpan_of_not_blanks {bounds : Offset × Offset} {r : Span}
    (hcheck : checkBounds bounds = .ok r) (h : ¬ Blanks rest) :
    closeSpan (bounds, rest) = .error .malformed := by
  rw [closeSpan, hcheck]
  exact if_neg fun hskip => h (skipBlanks_eq_nil_iff.mp hskip)

theorem closeSpan_continue {bounds : Offset × Offset}
    (h : closeSpan (bounds, rest) = .error (.unfit m)) (u : List Char) :
    closeSpan (bounds, rest ++ u) = .error (.unfit m) := by
  cases hcheck : checkBounds bounds with
  | error e =>
    rw [closeSpan, hcheck] at h ⊢
    exact h
  | ok s =>
    by_cases hblank : Blanks rest
    · rw [closeSpan_eq_ok_iff.mpr ⟨hcheck, hblank⟩] at h
      cases h
    · rw [closeSpan_of_not_blanks hcheck hblank] at h
      cases h

/-- **A fault is not mended by more text**, and it stays the same where the texts join. -/
theorem readSpan_persists {t : String} (h : readSpan t = .error (.unfit m)) (u : String) :
    Persists m (Joins t.toList u.toList) (readSpan (t ++ u)) := by
  rw [readSpan_eq] at h
  rw [readSpan_eq, String.toList_append]
  cases hread : readBounds t.toList with
  | error e =>
    rw [hread] at h
    cases h
    exact (readBounds_persists hread u.toList).bind _
  | ok r =>
    rw [hread] at h
    rw [readBounds_continue hread u.toList]
    exact .of_error (closeSpan_continue h u.toList)

/-! ### Texts of a span -/

/-- What denotes bounds ends with a closing bracket. -/
theorem Denotes.exists_close (h : Denotes start stop cs) :
    ∃ front close, cs = front ++ [close] ∧ (close = ']' ∨ close = '\x7d') := by
  cases h with
  | @array a b ha hb => exact ⟨'[' :: (a ++ ',' :: b), ']', by simp, .inl rfl⟩
  | @object members text hmembers hperm => exact ⟨'\x7b' :: text, '\x7d', rfl, .inr rfl⟩

theorem readSpan_continue_of_blanks {t u : String} {r : Span} (h : readSpan t = .ok r)
    (hu : Blanks u.toList) : readSpan (t ++ u) = .ok r := by
  rw [readSpan_eq] at h
  obtain ⟨⟨bounds, rest⟩, hread, hclose⟩ := bind_eq_ok_iff.mp h
  obtain ⟨hcheck, hblank⟩ := closeSpan_eq_ok_iff.mp hclose
  rw [readSpan_eq, String.toList_append, readBounds_continue hread]
  exact closeSpan_eq_ok_iff.mpr ⟨hcheck, hblank.append hu⟩

theorem readSpan_continue_of_not_blanks {t u : String} {r : Span} (h : readSpan t = .ok r)
    (hu : ¬ Blanks u.toList) : readSpan (t ++ u) = .error .malformed := by
  rw [readSpan_eq] at h
  obtain ⟨⟨bounds, rest⟩, hread, hclose⟩ := bind_eq_ok_iff.mp h
  obtain ⟨hcheck, -⟩ := closeSpan_eq_ok_iff.mp hclose
  rw [readSpan_eq, String.toList_append, readBounds_continue hread]
  refine closeSpan_of_not_blanks hcheck fun hblank => hu ?_
  exact fun c hc => hblank c (List.mem_append_right _ hc)

/-- What is left of a text of a span before its last bracket is malformed. -/
theorem readSpan_of_cut {p q : String} {r : Span} (h : readSpan (p ++ q) = .ok r)
    (hq : ∃ c ∈ q.toList, isBlank c = false) : readSpan p = .error .malformed := by
  cases hp : readSpan p with
  | error e =>
    cases e with
    | malformed => rfl
    | unfit m => exact absurd h ((readSpan_persists hp q).ne_ok r)
  -- If the first part denoted a span by itself, only blanks could follow it.
  | ok s =>
    obtain ⟨c, hc, hblank⟩ := hq
    have hnot : ¬ Blanks q.toList := fun hq => by
      rw [isBlank_eq_true_iff.mpr (hq c hc)] at hblank
      cases hblank
    rw [readSpan_continue_of_not_blanks hp hnot] at h
    cases h

/-- **Faults are final.** A part of a text that cannot belong to a span is reported whatever follows
it, as long as no number runs on, and no text that goes on with it denotes a span. A text that
denotes a span has a closing bracket with nothing but blanks behind. Whatever stops before this
bracket is malformed. More blanks leave the text with its span, and anything else that follows makes
it malformed. -/
theorem faults_are_final :
    (∀ (t u : String) (m : Mismatch), readSpan t = .error (.unfit m) →
      (Joins t.toList u.toList → readSpan (t ++ u) = .error (.unfit m)) ∧
        ∀ r, readSpan (t ++ u) ≠ .ok r) ∧
      ∀ (t : String) (r : Span), readSpan t = .ok r →
        (∃ front close back, t.toList = front ++ close :: back ∧ (close = ']' ∨ close = '\x7d') ∧
          Blanks back ∧ ∀ p, p <+: front → readSpan (String.ofList p) = .error .malformed) ∧
        ∀ u : String, (Blanks u.toList → readSpan (t ++ u) = .ok r) ∧
          (¬ Blanks u.toList → readSpan (t ++ u) = .error .malformed) := by
  constructor
  · intro t u m h
    have hpersists := readSpan_persists h u
    exact ⟨hpersists.eq_error, hpersists.ne_ok⟩
  · intro t r h
    refine ⟨?_, fun u => ⟨readSpan_continue_of_blanks h, readSpan_continue_of_not_blanks h⟩⟩
    have hdenotes := denotes_of_readSpan h
    generalize ht : t.toList = cs at hdenotes
    obtain ⟨hws, hcore, hback⟩ := hdenotes
    rename_i ws core back
    obtain ⟨front, close, rfl, hclose⟩ := hcore.exists_close
    refine ⟨ws ++ front, close, back, by simp, hclose, hback, ?_⟩
    rintro p ⟨q, hpq⟩
    have hcut : t = String.ofList p ++ String.ofList (q ++ close :: back) := by
      rw [← String.toList_inj, ht, String.toList_append, String.toList_ofList,
        String.toList_ofList, ← List.append_assoc p, hpq]
      simp
    rw [hcut] at h
    refine readSpan_of_cut h ⟨close, by simp, ?_⟩
    rcases hclose with rfl | rfl <;> decide

/-- A text with a negative bound and a text of a span, each with more text behind it, and the second
one cut short. -/
theorem bounds_are_final :
    readSpan "\x7b\"end\":-1" = .error (.unfit (.belowZero 1)) ∧
      Joins "\x7b\"end\":-1".toList ", 5]".toList ∧
      readSpan "\x7b\"end\":-1, 5]" = .error (.unfit (.belowZero 1)) ∧
      (∀ r, readSpan "\x7b\"end\":-12\x7d" ≠ .ok r) ∧
      (∃ r, readSpan "[2, 6]" = .ok r ∧ readSpan "[2, 6]\n\t" = .ok r) ∧
      readSpan "[2, 6]]" = .error .malformed := by
  obtain ⟨hfault, hspan⟩ := faults_are_final
  have hnegative : readSpan "\x7b\"end\":-1" = .error (.unfit (.belowZero 1)) := by
    decide +kernel
  have hread : readSpan "[2, 6]" = .ok ⟨2, 6, by decide⟩ := by decide +kernel
  have hjoins : Joins "\x7b\"end\":-1".toList ", 5]".toList := by
    refine .inr ?_
    rintro c ⟨⟩
    decide
  refine ⟨hnegative, hjoins, (hfault _ ", 5]" _ hnegative).1 hjoins, (hfault _ "2\x7d" _ hnegative).2,
    ⟨_, hread, ((hspan _ _ hread).2 "\n\t").1 (by simp [Blanks])⟩,
    ((hspan _ _ hread).2 "]").2 (by simp [Blanks])⟩

end DirtyRegion.Json
