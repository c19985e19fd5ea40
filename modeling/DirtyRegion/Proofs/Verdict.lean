import Mathlib.Data.Set.List
import DirtyRegion.Proofs.Finality
import DirtyRegion.Proofs.Writing

/-!
# Verdicts — which of several faults is reported

An object may have members with any keys, any number of them, and an array any number of offsets.
Such a text may have several faults at once: a key that is no field, a key that comes again, a field
that is missing, bounds in the wrong order. Which of them is reported is said here of the members and
the offsets alone, and not of how they are read.

- `Verdict` is what a reader of a text is told, with its message in full.
- `RangeVerdict`, `ObjectVerdict`, `ArrayVerdict` say which verdict is due.

Main statements: `readBounds_of_unknown`, `readBounds_of_repeated` and `exists_readBounds_of_sound`
for objects, `readBounds_of_short` and `readBounds_of_more` for arrays, and
`first_fault_is_reported`.
-/

namespace DirtyRegion.Json

variable {cs rest text ws : List Char} {key : String} {f : Field} {n start stop : Offset}
  {members before after : List (String × Offset)} {values : List Offset}

/-! ### Verdicts -/

/-- What is told of a text: its span, the message about a part that cannot belong to a span, or no
more than that it is malformed. -/
inductive Verdict where
  | span (s : Span)
  | unfit (message : String)
  | malformed
  deriving DecidableEq, Repr

def Verdict.ofReading : Except Fault Span → Verdict
  | .ok s => span s
  | .error .malformed => malformed
  | .error (.unfit m) => unfit m.message

/-- The verdict on a text. -/
def verdict (t : String) : Verdict :=
  .ofReading (readSpan t)

/-- The verdict on two bounds: the message of `Span.ofBounds` if they run backwards. -/
inductive RangeVerdict (start stop : Offset) : Verdict → Prop
  | backwards {e : SpanError} (h : stop < start) (he : Span.ofBounds start stop = .error e) :
      RangeVerdict start stop (.unfit e.message)
  | forwards (h : start ≤ stop) : RangeVerdict start stop (.span ⟨start, stop, h⟩)

/-- The members are fields, and no field comes twice. -/
structure Sound (members : List (String × Offset)) : Prop where
  known : ∀ p ∈ members, p.1 = "start" ∨ p.1 = "end"
  nodup : (members.map Prod.fst).Nodup

/-- The verdict on an object: the first member that is no field or repeats one is decisive. Without
such a member the first missing field is, and the bounds come last. -/
inductive ObjectVerdict : List (String × Offset) → Verdict → Prop
  | unknown {before after : List (String × Offset)} {key : String} {n : Offset}
      (hbefore : Sound before) (hstart : key ≠ "start") (hend : key ≠ "end") :
      ObjectVerdict (before ++ (key, n) :: after)
        (.unfit ("unknown field `" ++ key ++ "`, expected `start` or `end`"))
  | duplicate {before after : List (String × Offset)} {key : String} {n : Offset}
      (hbefore : Sound before) (hkey : key ∈ before.map Prod.fst) :
      ObjectVerdict (before ++ (key, n) :: after) (.unfit ("duplicate field `" ++ key ++ "`"))
  | noStart {members : List (String × Offset)} (h : Sound members)
      (hstart : "start" ∉ members.map Prod.fst) :
      ObjectVerdict members (.unfit "missing field `start`")
  | noEnd {members : List (String × Offset)} (h : Sound members)
      (hstart : "start" ∈ members.map Prod.fst) (hend : "end" ∉ members.map Prod.fst) :
      ObjectVerdict members (.unfit "missing field `end`")
  | bounds {members : List (String × Offset)} {start stop : Offset} {v : Verdict}
      (h : Sound members) (hstart : ("start", start) ∈ members) (hend : ("end", stop) ∈ members)
      (hv : RangeVerdict start stop v) : ObjectVerdict members v

/-- The verdict on an array: the number of its offsets is decisive, and the bounds come last. -/
inductive ArrayVerdict : List Offset → Verdict → Prop
  | short {values : List Offset} (h : values.length < 2) :
      ArrayVerdict values
        (.unfit ("invalid length " ++ values.length.repr ++ ", expected struct Range"))
  | surplus {values : List Offset} (h : 2 < values.length) : ArrayVerdict values .malformed
  | bounds {start stop : Offset} {v : Verdict} (hv : RangeVerdict start stop v) :
      ArrayVerdict [start, stop] v

/-! ### Sound members -/

theorem Field.key_injective : Function.Injective Field.key := by
  rintro (_ | _) (_ | _) h
  · rfl
  · exact absurd h (by decide)
  · exact absurd h (by decide)
  · rfl

theorem named_injective : Function.Injective named := by
  rintro ⟨f, n⟩ ⟨g, m⟩ h
  have hfield : f = g := Field.key_injective (congrArg Prod.fst h)
  have hvalue : n = m := congrArg Prod.snd h
  rw [hfield, hvalue]

theorem map_fst_named (fs : List (Field × Offset)) :
    (fs.map named).map Prod.fst = (fs.map Prod.fst).map Field.key := by
  rw [List.map_map, List.map_map]
  rfl

/-- Sound members are fields of their own. -/
theorem Sound.exists_fields (h : Sound members) :
    ∃ fs : List (Field × Offset), fs.map named = members ∧ (fs.map Prod.fst).Nodup := by
  have hrange : members ∈ Set.range (List.map named) := by
    rw [Set.range_list_map]
    rintro ⟨key, n⟩ hp
    rcases h.known _ hp with hkey | hkey
    · exact ⟨(.start, n), congrArg (·, n) hkey.symm⟩
    · exact ⟨(.stop, n), congrArg (·, n) hkey.symm⟩
  obtain ⟨fs, rfl⟩ := hrange
  have hnodup := h.nodup
  rw [map_fst_named] at hnodup
  exact ⟨fs, rfl, hnodup.of_map⟩

theorem sound_nil : Sound [] :=
  ⟨nofun, List.nodup_nil⟩

theorem Sound.concat (h : Sound members) (hkey : key = "start" ∨ key = "end")
    (hfresh : key ∉ members.map Prod.fst) : Sound (members ++ [(key, n)]) where
  known p hp := by
    rcases List.mem_append.mp hp with hp | hp
    · exact h.known p hp
    · rw [List.mem_singleton.mp hp]
      exact hkey
  nodup := by
    rw [List.map_append, List.map_singleton, List.nodup_append]
    refine ⟨h.nodup, List.nodup_singleton key, ?_⟩
    rintro k hk k' hk' rfl
    rw [List.mem_singleton.mp hk'] at hk
    exact hfresh hk

/-- Members are sound, or there is a first one with which they cease to be. -/
theorem sound_or_exists_fault (members : List (String × Offset)) :
    Sound members ∨ ∃ before key n after, members = before ++ (key, n) :: after ∧ Sound before ∧
      (key ≠ "start" ∧ key ≠ "end" ∨ key ∈ before.map Prod.fst) := by
  induction members using List.reverseRecOn with
  | nil => exact .inl sound_nil
  | append_singleton members p ih =>
    obtain ⟨key, n⟩ := p
    -- The last member can only be the first fault where there was none before.
    rcases ih with hsound | ⟨before, key', n', after, rfl, hbefore, hfault⟩
    · by_cases hfresh : key ∈ members.map Prod.fst
      · exact .inr ⟨members, key, n, [], rfl, hsound, .inr hfresh⟩
      by_cases hkey : key = "start" ∨ key = "end"
      · exact .inl (hsound.concat hkey hfresh)
      · exact .inr ⟨members, key, n, [], rfl, hsound, .inl (not_or.mp hkey)⟩
    · exact .inr ⟨before, key', n', after ++ [(key, n)], by simp, hbefore, hfault⟩

theorem RangeVerdict.exists (start stop : Offset) : ∃ v, RangeVerdict start stop v := by
  rcases UInt64.lt_or_le stop start with h | h
  · exact ⟨_, .backwards h (Span.ofBounds_of_lt h)⟩
  · exact ⟨_, .forwards h⟩

/-- There is a verdict on every object. -/
theorem ObjectVerdict.exists (members : List (String × Offset)) :
    ∃ v, ObjectVerdict members v := by
  rcases sound_or_exists_fault members with h | ⟨before, key, n, after, rfl, hbefore, hfault⟩
  · by_cases hstart : "start" ∈ members.map Prod.fst
    · by_cases hend : "end" ∈ members.map Prod.fst
      · obtain ⟨⟨_, start⟩, hmem, rfl⟩ := List.mem_map.mp hstart
        obtain ⟨⟨_, stop⟩, hmem', rfl⟩ := List.mem_map.mp hend
        obtain ⟨v, hv⟩ := RangeVerdict.exists start stop
        exact ⟨v, .bounds h hmem hmem' hv⟩
      · exact ⟨_, .noEnd h hstart hend⟩
    · exact ⟨_, .noStart h hstart⟩
  · rcases hfault with ⟨hstart, hend⟩ | hkey
    · exact ⟨_, .unknown hbefore hstart hend⟩
    · exact ⟨_, .duplicate hbefore hkey⟩

/-- There is a verdict on every array. -/
theorem ArrayVerdict.exists (values : List Offset) : ∃ v, ArrayVerdict values v := by
  rcases Nat.lt_trichotomy values.length 2 with h | h | h
  · exact ⟨_, .short h⟩
  · obtain ⟨start, stop, rfl⟩ := List.length_eq_two.mp h
    obtain ⟨v, hv⟩ := RangeVerdict.exists start stop
    exact ⟨v, .bounds hv⟩
  · exact ⟨_, .surplus h⟩

/-! ### Members as they are read -/

/-- The key of the first of several members. -/
theorem Members.exists_spells (h : Members ((key, n) :: members) text)
    (he : '"' :: cs = text ++ rest) :
    ∃ w tail, Spells w key.toList ∧ cs = w ++ '"' :: tail := by
  obtain ⟨m, tail, hm, he⟩ : ∃ m tail, Padded (Member key n) m ∧ '"' :: cs = m ++ tail := by
    rcases members_cons_iff.mp h with ⟨-, hm⟩ | ⟨m, cs', hm, -, rfl⟩
    · exact ⟨text, rest, hm, he⟩
    · exact ⟨m, _, hm, he.trans (List.append_assoc ..)⟩
  obtain ⟨hfront, hmember, hback⟩ := hm
  rename_i front m' back
  obtain rfl : front = [] := hfront.eq_nil (by decide) (he.trans (List.append_assoc ..))
  obtain ⟨hkey, -, -, -⟩ := hmember
  rename_i w ws ws' ds
  exact ⟨w, ws ++ ':' :: (ws' ++ ds) ++ back ++ tail, hkey, by simpa using he⟩

theorem readKey_of_unknown {w : List Char} (hw : Spells w key.toList)
    (h : Field.ofKey? key = none) (rest : List Char) :
    readKey (w ++ '"' :: rest) = .error (.unfit (.unknownField key)) := by
  rw [readKey, readText_append hw]
  simp only [String.ofList_toList, h]

/-- The reading goes on behind members with fields of their own. None of these fields is free any
more. -/
theorem exists_readMembers_append {free : List Field} {fs : List (Field × Offset)}
    (got : List (Field × Offset)) (hfree : free.Nodup)
    (h : Members (fs.map named ++ after) text) (hafter : after ≠ [])
    (hnodup : (fs.map Prod.fst).Nodup) (hmem : ∀ p ∈ fs, p.1 ∈ free)
    (he : '"' :: cs = text ++ '\x7d' :: rest) :
    ∃ free' got' cs' text', readMembers free got cs = readMembers free' got' cs' ∧
      free' ⊆ free ∧ (∀ p ∈ fs, p.1 ∉ free') ∧ Members after text' ∧
        '"' :: cs' = text' ++ '\x7d' :: rest := by
  induction fs generalizing free got cs text with
  | nil => exact ⟨free, got, cs, text, rfl, List.Subset.refl _, nofun, h, he⟩
  | cons p fs ih =>
    obtain ⟨f, n⟩ := p
    have hf : f ∈ free := hmem _ (List.mem_cons_self ..)
    rcases members_cons_iff.mp h with ⟨hnil, -⟩ | ⟨m, text', hm, hs, rfl⟩
    · exact absurd (List.append_eq_nil_iff.mp hnil).2 hafter
    obtain ⟨cs₁, text₁, hs', he₁, hmore⟩ := exists_readMembers_more got hf hm hs he
    have hmem' := mem_erase_of_nodup hnodup hmem
    obtain ⟨free', got', cs', text'', hread, hsub, hgone, hrest, he'⟩ :=
      ih ((f, n) :: got) (hfree.erase f) hs' (List.nodup_cons.mp hnodup).2 hmem' he₁
    refine ⟨free', got', cs', text'', hmore.trans hread, ?_, ?_, hrest, he'⟩
    · exact fun g hg => List.mem_of_mem_erase (hsub hg)
    · rintro p (_ | ⟨_, hp⟩)
      · exact fun hfree' => hfree.not_mem_erase (hsub hfree')
      · exact hgone p hp

theorem mem_start_stop (f : Field) : f ∈ [Field.start, Field.stop] := by
  cases f <;> simp

theorem readMembers_of_unknown (h : Members (before ++ (key, n) :: after) ('"' :: text))
    (hbefore : Sound before) (hkey : Field.ofKey? key = none) (rest : List Char) :
    readMembers [.start, .stop] [] (text ++ '\x7d' :: rest) =
      .error (.unfit (.unknownField key)) := by
  obtain ⟨fs, rfl, hnodup⟩ := hbefore.exists_fields
  have he : '"' :: (text ++ '\x7d' :: rest) = '"' :: text ++ '\x7d' :: rest := rfl
  obtain ⟨free, got, cs, text', hread, -, -, hrest, he'⟩ :=
    exists_readMembers_append [] (by decide) h (List.cons_ne_nil _ _) hnodup
      (fun p _ => mem_start_stop p.1) he
  obtain ⟨w, tail, hw, rfl⟩ := hrest.exists_spells he'
  rw [hread, readMembers, readKey_of_unknown hw hkey]

theorem readMembers_of_repeated (h : Members (before ++ (f.key, n) :: after) ('"' :: text))
    (hbefore : Sound before) (hf : f.key ∈ before.map Prod.fst) (rest : List Char) :
    readMembers [.start, .stop] [] (text ++ '\x7d' :: rest) =
      .error (.unfit (.duplicateField f)) := by
  obtain ⟨fs, rfl, hnodup⟩ := hbefore.exists_fields
  rw [map_fst_named, List.mem_map_of_injective Field.key_injective] at hf
  have he : '"' :: (text ++ '\x7d' :: rest) = '"' :: text ++ '\x7d' :: rest := rfl
  obtain ⟨free, got, cs, text', hread, -, hgone, hrest, he'⟩ :=
    exists_readMembers_append [] (by decide) h (List.cons_ne_nil _ _) hnodup
      (fun p _ => mem_start_stop p.1) he
  obtain ⟨w, tail, hw, rfl⟩ := hrest.exists_spells he'
  obtain ⟨p, hp, rfl⟩ := List.mem_map.mp hf
  rw [hread, readMembers, readKey_eq_ok_iff.mpr ⟨w, hw, rfl⟩]
  exact dif_neg (hgone p hp)

/-- Sound members are all read. -/
theorem exists_readMembers_of_sound (h : Members members ('"' :: text)) (hsound : Sound members)
    (rest : List Char) :
    ∃ got : List (Field × Offset), (got.map Prod.fst).Nodup ∧
      (∀ f n, (f, n) ∈ got ↔ (f.key, n) ∈ members) ∧
        readMembers [.start, .stop] [] (text ++ '\x7d' :: rest) = .ok (got, rest) := by
  obtain ⟨fs, rfl, hnodup⟩ := hsound.exists_fields
  have he : '"' :: (text ++ '\x7d' :: rest) = '"' :: text ++ '\x7d' :: rest := rfl
  refine ⟨fs.reverse, ?_, fun f n => ?_, ?_⟩
  · rw [List.map_reverse]
    exact List.nodup_reverse.mpr hnodup
  · rw [List.mem_reverse]
    exact (List.mem_map_of_injective named_injective).symm
  · rw [readMembers_of_members (by decide) h hnodup (fun p _ => mem_start_stop p.1) he,
      List.append_nil]

/-! ### Objects as they are read -/

/-- An object is read member by member, unless it has none. -/
theorem readBounds_of_object {core : List Char} (hws : Blanks ws) (h : ObjectText members core)
    (rest : List Char) :
    (members = [] ∧ readBounds (ws ++ (core ++ rest)) = closeObject ([], rest)) ∨
      ∃ text, Members members ('"' :: text) ∧ readBounds (ws ++ (core ++ rest)) =
        readMembers [.start, .stop] [] (text ++ '\x7d' :: rest) >>= closeObject := by
  cases h with
  | @empty ws' hws' =>
    have hopen : skipBlanks (ws ++ ('\x7b' :: (ws' ++ ['\x7d']) ++ rest)) =
        '\x7b' :: (ws' ++ '\x7d' :: rest) :=
      (skipBlanks_eq_cons_iff (by decide)).mpr ⟨ws, hws, by simp⟩
    have hclose := (skipBlanks_eq_cons_iff (by decide)).mpr
      ⟨ws', hws', Eq.refl (ws' ++ '\x7d' :: rest)⟩
    rw [readBounds_of_brace hopen, readObject_of_close hclose]
    exact .inl ⟨rfl, rfl⟩
  | @members _ text hmembers =>
    obtain ⟨ws', text', hws', rfl, hquoted⟩ := hmembers.exists_quote
    have hopen : skipBlanks (ws ++ ('\x7b' :: (ws' ++ '"' :: text' ++ ['\x7d']) ++ rest)) =
        '\x7b' :: (ws' ++ '"' :: (text' ++ '\x7d' :: rest)) :=
      (skipBlanks_eq_cons_iff (by decide)).mpr ⟨ws, hws, by simp⟩
    have hquote := (skipBlanks_eq_cons_iff (by decide)).mpr
      ⟨ws', hws', Eq.refl (ws' ++ '"' :: (text' ++ '\x7d' :: rest))⟩
    rw [readBounds_of_brace hopen, readObject_of_quote hquote]
    exact .inr ⟨text', hquoted, rfl⟩

/-- The members in front of a fault are there for the reader as well. -/
theorem readBounds_of_members {core : List Char} (hws : Blanks ws) (h : ObjectText members core)
    (hne : members ≠ []) (rest : List Char) :
    ∃ text, Members members ('"' :: text) ∧ readBounds (ws ++ (core ++ rest)) =
      readMembers [.start, .stop] [] (text ++ '\x7d' :: rest) >>= closeObject := by
  rcases readBounds_of_object hws h rest with ⟨hnil, -⟩ | hmembers
  · exact absurd hnil hne
  · exact hmembers

theorem readBounds_of_unknown {core : List Char} (hws : Blanks ws)
    (h : ObjectText (before ++ (key, n) :: after) core) (hbefore : Sound before)
    (hkey : Field.ofKey? key = none) (rest : List Char) :
    readBounds (ws ++ (core ++ rest)) = .error (.unfit (.unknownField key)) := by
  obtain ⟨text, hmembers, hread⟩ := readBounds_of_members hws h (by simp) rest
  rw [hread, readMembers_of_unknown hmembers hbefore hkey]
  rfl

theorem readBounds_of_repeated {core : List Char} (hws : Blanks ws)
    (h : ObjectText (before ++ (f.key, n) :: after) core) (hbefore : Sound before)
    (hf : f.key ∈ before.map Prod.fst) (rest : List Char) :
    readBounds (ws ++ (core ++ rest)) = .error (.unfit (.duplicateField f)) := by
  obtain ⟨text, hmembers, hread⟩ := readBounds_of_members hws h (by simp) rest
  rw [hread, readMembers_of_repeated hmembers hbefore hf]
  rfl

/-- Sound members are looked up where the object closes. -/
theorem exists_readBounds_of_sound {core : List Char} (hws : Blanks ws)
    (h : ObjectText members core) (hsound : Sound members) (rest : List Char) :
    ∃ got : List (Field × Offset), (got.map Prod.fst).Nodup ∧
      (∀ f n, (f, n) ∈ got ↔ (f.key, n) ∈ members) ∧
        readBounds (ws ++ (core ++ rest)) = closeObject (got, rest) := by
  rcases readBounds_of_object hws h rest with ⟨rfl, hread⟩ | ⟨text, hmembers, hread⟩
  · exact ⟨[], List.nodup_nil, fun f n => by simp, hread⟩
  · obtain ⟨got, hnodup, hgot, hmore⟩ := exists_readMembers_of_sound hmembers hsound rest
    rw [hmore] at hread
    exact ⟨got, hnodup, hgot, hread⟩

theorem memberValue_of_mem {got : List (Field × Offset)} (hnodup : (got.map Prod.fst).Nodup)
    (h : (f, n) ∈ got) : memberValue got f = .ok n := by
  rw [memberValue_eq_ok_iff]
  cases hlookup : got.lookup f with
  | none =>
    have hne := List.lookup_eq_none_iff.mp hlookup _ h
    simp at hne
  | some m =>
    have heq := List.inj_on_of_nodup_map hnodup (mem_of_lookup hlookup) h rfl
    rw [(Prod.mk.inj heq).2]

theorem memberValue_of_not_mem {got : List (Field × Offset)} (h : ∀ n, (f, n) ∉ got) :
    memberValue got f = .error (.unfit (.missingField f)) := by
  unfold memberValue
  split
  · rfl
  · rename_i n hlookup
    exact absurd (mem_of_lookup hlookup) (h n)

theorem closeObject_of_bounds {got : List (Field × Offset)}
    (hstart : memberValue got .start = .ok start) (hstop : memberValue got .stop = .ok stop)
    (rest : List Char) : closeObject (got, rest) = .ok ((start, stop), rest) := by
  simp only [closeObject, hstart, hstop, bind, Except.bind]

theorem closeObject_of_no_start {got : List (Field × Offset)} (h : ∀ n, (.start, n) ∉ got)
    (rest : List Char) : closeObject (got, rest) = .error (.unfit (.missingField .start)) := by
  simp only [closeObject, memberValue_of_not_mem h, bind, Except.bind]

theorem closeObject_of_no_stop {got : List (Field × Offset)}
    (hstart : memberValue got .start = .ok start) (h : ∀ n, (.stop, n) ∉ got) (rest : List Char) :
    closeObject (got, rest) = .error (.unfit (.missingField .stop)) := by
  simp only [closeObject, hstart, memberValue_of_not_mem h, bind, Except.bind]

/-! ### Arrays as they are read -/

theorem elements_cons_iff :
    Elements (n :: values) text ↔
      (values = [] ∧ Padded (OffsetLiteral n) text) ∨
        ∃ a cs, Padded (OffsetLiteral n) a ∧ Elements values cs ∧ text = a ++ ',' :: cs := by
  constructor
  · intro h
    cases h with
    | last h => exact .inl ⟨rfl, h⟩
    | more h hs => exact .inr ⟨_, _, h, hs, rfl⟩
  · rintro (⟨rfl, h⟩ | ⟨a, cs, h, hs, rfl⟩)
    · exact .last h
    · exact .more h hs

theorem not_elements_nil : ¬ Elements [] text :=
  nofun

/-- An offset is read together with what follows it: the bracket, or a comma and more offsets. -/
theorem exists_readOffset_element (h : Elements (n :: values) text) (rest : List Char) :
    ∃ cs, readOffset (text ++ ']' :: rest) = .ok (n, cs) ∧
      (values = [] ∧ skipBlanks cs = ']' :: rest ∨
        ∃ text', Elements values text' ∧ skipBlanks cs = ',' :: (text' ++ ']' :: rest)) := by
  have hmarks : isMark ',' = true ∧ isMark ']' = true := by decide
  rcases elements_cons_iff.mp h with ⟨hnil, hn⟩ | ⟨a, text', hn, hs, rfl⟩
  · obtain ⟨cs, hread, hclose⟩ := (readOffset_mark_iff hmarks.2).mpr ⟨text, hn, rfl⟩
    exact ⟨cs, hread, .inl ⟨hnil, hclose⟩⟩
  · have he : a ++ ',' :: text' ++ ']' :: rest = a ++ ',' :: (text' ++ ']' :: rest) := by simp
    obtain ⟨cs, hread, hcomma⟩ := (readOffset_mark_iff hmarks.1).mpr ⟨a, hn, he⟩
    exact ⟨cs, hread, .inr ⟨text', hs, hcomma⟩⟩

/-- Where the first offset is read, the array does not close at once. -/
theorem readArray_of_first (h : readOffset cs = .ok (n, rest)) :
    readArray cs = readSecond n rest := by
  obtain ⟨d, tail, hskip, hd⟩ := skipBlanks_of_readOffset h
  have hhead : (skipBlanks cs).head? ≠ some ']' := by
    rw [hskip]
    rintro ⟨⟩
    cases hd
  rw [readArray_eq hhead, h]
  rfl

/-- An array of one offset fails where it closes. -/
theorem readArray_of_one (h : Elements [n] text) (rest : List Char) :
    readArray (text ++ ']' :: rest) = .error (.unfit (.wrongLength 1)) := by
  obtain ⟨cs, hread, ⟨-, hclose⟩ | ⟨text', hs, -⟩⟩ := exists_readOffset_element h rest
  · rw [readArray_of_first hread, readSecond_of_close hclose]
  · exact absurd hs not_elements_nil

/-- The array has to close behind its second offset, whatever the two offsets are. -/
theorem readArray_of_more (h : Elements (start :: stop :: values) text) (rest : List Char) :
    readArray (text ++ ']' :: rest) =
      if values = [] then .ok ((start, stop), rest) else .error .malformed := by
  obtain ⟨cs, hread, ⟨hnil, -⟩ | ⟨text', hs, hcomma⟩⟩ := exists_readOffset_element h rest
  · exact absurd hnil (List.cons_ne_nil _ _)
  obtain ⟨cs', hread', hnext⟩ := exists_readOffset_element hs rest
  have hsecond : readArray (text ++ ']' :: rest) = readClose (start, stop) cs' := by
    rw [readArray_of_first hread, readSecond_of_comma hcomma, hread']
    rfl
  rw [hsecond]
  rcases hnext with ⟨rfl, hclose⟩ | ⟨text'', hs', hcomma'⟩
  · rw [readClose_of_close hclose, if_pos rfl]
  · rw [readClose_of_comma hcomma', if_neg]
    rintro rfl
    exact not_elements_nil hs'

/-- The brackets of an array stand around its offsets. -/
theorem readBounds_of_array {core : List Char} (hws : Blanks ws) (h : ArrayText values core)
    (rest : List Char) :
    ∃ text, (values = [] ∧ Blanks text ∨ Elements values text) ∧
      readBounds (ws ++ (core ++ rest)) = readArray (text ++ ']' :: rest) := by
  obtain ⟨text, htext, rfl⟩ :
      ∃ text, (values = [] ∧ Blanks text ∨ Elements values text) ∧
        core = '[' :: (text ++ [']']) := by
    cases h with
    | empty h => exact ⟨_, .inl ⟨rfl, h⟩, rfl⟩
    | elements h => exact ⟨_, .inr h, rfl⟩
  have hopen : skipBlanks (ws ++ ('[' :: (text ++ [']']) ++ rest)) =
      '[' :: (text ++ ']' :: rest) :=
    (skipBlanks_eq_cons_iff (by decide)).mpr ⟨ws, hws, by simp⟩
  exact ⟨text, htext, readBounds_of_bracket hopen⟩

theorem readBounds_of_short {core : List Char} (hws : Blanks ws) (h : ArrayText values core)
    (hlength : values.length < 2) (rest : List Char) :
    readBounds (ws ++ (core ++ rest)) = .error (.unfit (.wrongLength values.length)) := by
  obtain ⟨text, htext, hread⟩ := readBounds_of_array hws h rest
  rw [hread]
  rcases htext with ⟨rfl, hblank⟩ | helements
  · exact readArray_of_close ((skipBlanks_eq_cons_iff (by decide)).mpr ⟨text, hblank, rfl⟩)
  match values, hlength with
  | [], _ => exact absurd helements not_elements_nil
  | [n], _ => exact readArray_of_one helements rest

theorem readBounds_of_more {core : List Char} (hws : Blanks ws)
    (h : ArrayText (start :: stop :: values) core) (rest : List Char) :
    readBounds (ws ++ (core ++ rest)) =
      if values = [] then .ok ((start, stop), rest) else .error .malformed := by
  obtain ⟨text, ⟨hnil, -⟩ | helements, hread⟩ := readBounds_of_array hws h rest
  · exact absurd hnil (List.cons_ne_nil _ _)
  · rw [hread, readArray_of_more helements]

/-! ### Whole texts -/

theorem verdict_of_error {t : String} {e : Fault} (h : readBounds t.toList = .error e) :
    verdict t = .ofReading (.error e) := by
  rw [verdict, readSpan_eq, h]
  rfl

/-- Where the bounds are read, all that is left to decide is their order. -/
theorem verdict_of_bounds {t : String} {v : Verdict}
    (h : readBounds t.toList = .ok ((start, stop), rest)) (hrest : Blanks rest)
    (hv : RangeVerdict start stop v) : verdict t = v := by
  have hclose : verdict t = .ofReading (closeSpan ((start, stop), rest)) := by
    rw [verdict, readSpan_eq, h]
    rfl
  rw [hclose]
  cases hv with
  | @backwards e hlt he =>
    have hcheck : checkBounds (start, stop) = .error (.unfit (.noSpan e)) := by
      rw [checkBounds, Span.ofPair, he]
      rfl
    rw [closeSpan, hcheck]
    rfl
  | forwards hle =>
    rw [closeSpan_eq_ok_iff.mpr ⟨checkBounds_eq_ok_iff.mpr ⟨hle, rfl⟩, hrest⟩]
    rfl

theorem Field.ofKey?_eq_none (hstart : key ≠ "start") (hend : key ≠ "end") :
    Field.ofKey? key = none :=
  (if_neg hstart).trans (if_neg hend)

theorem verdict_of_object {t : String} {v : Verdict} (h : Padded (ObjectText members) t.toList)
    (hv : ObjectVerdict members v) : verdict t = v := by
  generalize ht : t.toList = cs at h
  obtain ⟨hws, hcore, hback⟩ := h
  rename_i ws core back
  cases hv with
  | unknown hbefore hstart hend =>
    exact verdict_of_error
      (ht ▸ readBounds_of_unknown hws hcore hbefore (Field.ofKey?_eq_none hstart hend) back)
  -- A key that repeats one of the sound members is that of a field.
  | duplicate hbefore hkey =>
    obtain ⟨p, hp, rfl⟩ := List.mem_map.mp hkey
    obtain ⟨f, hf⟩ : ∃ f : Field, p.1 = f.key :=
      (hbefore.known p hp).elim (fun h => ⟨.start, h⟩) fun h => ⟨.stop, h⟩
    rw [hf] at hcore hkey ⊢
    exact verdict_of_error (ht ▸ readBounds_of_repeated hws hcore hbefore hkey back)
  | noStart hsound hstart =>
    obtain ⟨got, -, hgot, hread⟩ := exists_readBounds_of_sound hws hcore hsound back
    have hno : ∀ n, (Field.start, n) ∉ got := fun n hn =>
      hstart (List.mem_map.mpr ⟨_, (hgot _ _).mp hn, rfl⟩)
    rw [closeObject_of_no_start hno, ← ht] at hread
    exact verdict_of_error hread
  | noEnd hsound hstart hend =>
    obtain ⟨got, hnodup, hgot, hread⟩ := exists_readBounds_of_sound hws hcore hsound back
    obtain ⟨⟨_, start⟩, hp, rfl⟩ := List.mem_map.mp hstart
    have hno : ∀ n, (Field.stop, n) ∉ got := fun n hn =>
      hend (List.mem_map.mpr ⟨_, (hgot _ _).mp hn, rfl⟩)
    have hvalue := memberValue_of_mem hnodup ((hgot .start start).mpr hp)
    rw [closeObject_of_no_stop hvalue hno, ← ht] at hread
    exact verdict_of_error hread
  | bounds hsound hstart hend hrange =>
    obtain ⟨got, hnodup, hgot, hread⟩ := exists_readBounds_of_sound hws hcore hsound back
    have hfirst := memberValue_of_mem hnodup ((hgot .start _).mpr hstart)
    have hsecond := memberValue_of_mem hnodup ((hgot .stop _).mpr hend)
    rw [closeObject_of_bounds hfirst hsecond, ← ht] at hread
    exact verdict_of_bounds hread hback hrange

theorem message_wrongLength (n : Nat) :
    (Mismatch.wrongLength n).message = "invalid length " ++ n.repr ++ ", expected struct Range" :=
  String.append_assoc ..

theorem verdict_of_array {t : String} {v : Verdict} (h : Padded (ArrayText values) t.toList)
    (hv : ArrayVerdict values v) : verdict t = v := by
  generalize ht : t.toList = cs at h
  obtain ⟨hws, hcore, hback⟩ := h
  rename_i ws core back
  cases hv with
  | short hlength =>
    rw [← message_wrongLength]
    exact verdict_of_error (ht ▸ readBounds_of_short hws hcore hlength back)
  | surplus hlength =>
    match values, hlength with
    | start :: stop :: n :: values, _ =>
      have hread := readBounds_of_more hws hcore back
      rw [if_neg (List.cons_ne_nil _ _), ← ht] at hread
      exact verdict_of_error hread
  | bounds hrange =>
    have hread := readBounds_of_more hws hcore back
    rw [if_pos rfl, ← ht] at hread
    exact verdict_of_bounds hread hback hrange

/-- **The first fault is reported.** Members with any keys and any offsets can be written as an
object, and offsets as an array. However they are written, the verdict on the object is the one that
is due to its members, and the verdict on the array the one that is due to its offsets. There is just
one that is due. -/
theorem first_fault_is_reported :
    (∀ members, (∃ t : String, Padded (ObjectText members) t.toList) ∧
      ∀ t : String, Padded (ObjectText members) t.toList →
        ∀ v, verdict t = v ↔ ObjectVerdict members v) ∧
      ∀ values, (∃ t : String, Padded (ArrayText values) t.toList) ∧
        ∀ t : String, Padded (ArrayText values) t.toList →
          ∀ v, verdict t = v ↔ ArrayVerdict values v := by
  constructor
  · intro members
    refine ⟨exists_object members, fun t h v => ⟨?_, verdict_of_object h⟩⟩
    obtain ⟨due, hdue⟩ := ObjectVerdict.exists members
    rintro rfl
    rwa [verdict_of_object h hdue]
  · intro values
    refine ⟨exists_array values, fun t h v => ⟨?_, verdict_of_array h⟩⟩
    obtain ⟨due, hdue⟩ := ArrayVerdict.exists values
    rintro rfl
    rwa [verdict_of_array h hdue]

/-- A field that comes again, in another spelling, before a key that is no field. -/
def crowded : String :=
  "\x7b\"end\":1,\"\\u0065nd\":2,\"x\":3\x7d"

theorem crowded_first_fault_is_reported :
    Padded (ObjectText [("end", 1), ("end", 2), ("x", 3)]) crowded.toList ∧
      verdict crowded = .unfit "duplicate field `end`" ∧
        Padded (ArrayText [6, 2, 9]) "[6,2,9]".toList ∧ verdict "[6,2,9]" = .malformed := by
  obtain ⟨hobject, harray⟩ := first_fault_is_reported
  have hcrowded : ObjectText [("end", 1), ("end", 2), ("x", 3)] crowded.toList := by
    have h0 : HexDigit '0' 0 := .inl rfl
    have h6 : HexDigit '6' 6 := .inl rfl
    have h5 : HexDigit '5' 5 := .inl rfl
    have he : Spelling ['\\', 'u', '0', '0', '6', '5'] 'e' := .hex (.mk h0 h0 h6 h5)
    have hnd : Spells ['n', 'd'] ['n', 'd'] := spells_self (by simp)
    have hspelled : Spells ['\\', 'u', '0', '0', '6', '5', 'n', 'd'] "end".toList := .cons he hnd
    have hx : Spells "x".toList "x".toList := spells_self (by simp)
    have hmembers := Members.more (member_of_spells (spells_key .stop) 1)
      (.more (member_of_spells hspelled 2) (.last (member_of_spells hx 3)))
    exact .members hmembers
  have hlong : ArrayText [6, 2, 9] "[6,2,9]".toList :=
    .elements (.more (.of_core (offsetLiteral_repr 6)) (.more (.of_core (offsetLiteral_repr 2))
      (.last (.of_core (offsetLiteral_repr 9)))))
  have hbefore : Sound [("end", 1)] := ⟨by decide, by decide⟩
  refine ⟨.of_core hcrowded, ?_, .of_core hlong, ?_⟩
  · exact ((hobject _).2 _ (.of_core hcrowded) _).mpr (.duplicate hbefore (by decide))
  · exact ((harray _).2 _ (.of_core hlong) _).mpr (.surplus (by decide))

end DirtyRegion.Json
