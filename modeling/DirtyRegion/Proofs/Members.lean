import DirtyRegion.Json.Span
import DirtyRegion.Proofs.Spelling
import DirtyRegion.Proofs.Token

/-!
# Members — what stands between two braces as it is read

A reader of members keeps the fields that have not come yet, so that none comes twice. It is held
against the grammar in both directions: one member with the mark behind it, and from that by
recursion all of them up to the closing brace.

Main statements: `readMember_mark_iff` for one member, `readMembers_of_members` and
`exists_members_of_readMembers` for all.
-/

namespace DirtyRegion.Json

variable {cs rest text ws : List Char} {f : Field} {n : Offset}

/-! ### One member -/

theorem Field.ofKey?_eq_some_iff {key : String} : Field.ofKey? key = some f ↔ key = f.key := by
  have hne : Field.start.key ≠ Field.stop.key := by decide
  unfold Field.ofKey?
  split
  · rename_i h
    subst h
    cases f <;> simp [hne]
  split
  · rename_i h
    subst h
    cases f <;> simp [hne.symm]
  · cases f <;> simp_all

theorem readKey_eq_ok_iff :
    readKey cs = .ok (f, rest) ↔ ∃ w, Spells w f.key.toList ∧ cs = w ++ '"' :: rest := by
  constructor
  · intro h
    unfold readKey at h
    split at h
    · cases h
    · rename_i key rest' hread
      split at h
      · cases h
      · rename_i f' hkey
        cases h
        obtain ⟨w, hw, rfl⟩ := readText_eq_some_iff.mp hread
        rw [← Field.ofKey?_eq_some_iff.mp hkey, String.toList_ofList]
        exact ⟨w, hw, rfl⟩
  · rintro ⟨w, hw, rfl⟩
    have hkey : Field.ofKey? (String.ofList f.key.toList) = some f :=
      Field.ofKey?_eq_some_iff.mpr String.ofList_toList
    rw [readKey, readText_append hw]
    simp only [hkey]

theorem readMemberValue_eq_ok_iff :
    readMemberValue cs = .ok (n, rest) ↔
      ∃ ws cs', Blanks ws ∧ cs = ws ++ ':' :: cs' ∧ readOffset cs' = .ok (n, rest) := by
  unfold readMemberValue
  constructor
  · intro h
    split at h
    · rename_i cs' hcolon
      obtain ⟨ws, hws, rfl⟩ := (skipBlanks_eq_cons_iff (by decide)).mp hcolon
      exact ⟨ws, cs', hws, rfl, h⟩
    · cases h
  · rintro ⟨ws, cs', hws, rfl, h⟩
    rw [(skipBlanks_eq_cons_iff (by decide)).mpr ⟨ws, hws, rfl⟩]
    exact h

/-- A member and the mark behind it are read exactly if a member stands before the mark. -/
theorem readMember_mark_iff {p : Char} (hp : isMark p = true) :
    (∃ cs₁ cs₂, readKey cs = .ok (f, cs₁) ∧ readMemberValue cs₁ = .ok (n, cs₂) ∧
        skipBlanks cs₂ = p :: rest) ↔
      ∃ m, Padded (Member f.key n) m ∧ '"' :: cs = m ++ p :: rest := by
  constructor
  · rintro ⟨cs₁, cs₂, hkey, hvalue, hskip⟩
    obtain ⟨w, hw, rfl⟩ := readKey_eq_ok_iff.mp hkey
    obtain ⟨ws, cs', hws, rfl, hread⟩ := readMemberValue_eq_ok_iff.mp hvalue
    obtain ⟨-, ⟨hws', hds, hback⟩, rfl⟩ := (readOffset_mark_iff hp).mp ⟨cs₂, hread, hskip⟩
    have hmember : Member f.key n _ := .mk hw hws hws' hds
    exact ⟨_, .mk blanks_nil hmember hback, by simp⟩
  · rintro ⟨-, ⟨hfront, ⟨hw, hws, hws', hds⟩, hback⟩, he⟩
    rename_i front back w ws ws' ds
    obtain rfl : front = [] := hfront.eq_nil (by decide) (he.trans (List.append_assoc ..))
    obtain ⟨cs₂, hread, hskip⟩ := (readOffset_mark_iff hp).mpr
      ⟨_, .mk hws' hds hback, Eq.refl (ws' ++ (ds ++ back) ++ p :: rest)⟩
    refine ⟨ws ++ ':' :: (ws' ++ (ds ++ back) ++ p :: rest), cs₂, ?_, ?_, hskip⟩
    · exact readKey_eq_ok_iff.mpr ⟨w, hw, by simpa using he⟩
    · exact readMemberValue_eq_ok_iff.mpr ⟨ws, _, hws, rfl, hread⟩

/-! ### All members -/

theorem Members.blanks_append {members : List (String × Offset)} (hws : Blanks ws)
    (h : Members members cs) : Members members (ws ++ cs) := by
  cases h with
  | last h => exact .last (h.blanks_append hws)
  | more h hs =>
    rw [← List.append_assoc]
    exact .more (h.blanks_append hws) hs

/-- Members begin with a quote, after blanks. -/
theorem Members.exists_quote {members : List (String × Offset)} (h : Members members cs) :
    ∃ ws cs', Blanks ws ∧ cs = ws ++ '"' :: cs' ∧ Members members ('"' :: cs') := by
  cases h with
  | last h =>
    obtain ⟨hfront, hmember, hback⟩ := h
    have hpadded := Padded.mk blanks_nil hmember hback
    cases hmember
    exact ⟨_, _, hfront, rfl, .last hpadded⟩
  | more h hs =>
    obtain ⟨hfront, hmember, hback⟩ := h
    have hpadded := Padded.mk blanks_nil hmember hback
    cases hmember
    exact ⟨_, _, hfront, List.append_assoc .., .more hpadded hs⟩

theorem members_cons_iff {key : String} {members : List (String × Offset)} :
    Members ((key, n) :: members) text ↔
      (members = [] ∧ Padded (Member key n) text) ∨
        ∃ m cs, Padded (Member key n) m ∧ Members members cs ∧ text = m ++ ',' :: cs := by
  constructor
  · intro h
    cases h with
    | last h => exact .inl ⟨rfl, h⟩
    | more h hs => exact .inr ⟨_, _, h, hs, rfl⟩
  · rintro (⟨rfl, h⟩ | ⟨m, cs, h, hs, rfl⟩)
    · exact .last h
    · exact .more h hs

/-- A member as the reader keeps it, with its key spelled out. -/
def named (p : Field × Offset) : String × Offset :=
  (p.1.key, p.2)

/-- A member of a free field is read together with its comma, and the reading goes on with the
members behind it. -/
theorem exists_readMembers_more {free : List Field} {members : List (String × Offset)}
    {m : List Char} (got : List (Field × Offset)) (hf : f ∈ free)
    (hm : Padded (Member f.key n) m) (hs : Members members text)
    (he : '"' :: cs = m ++ ',' :: text ++ '\x7d' :: rest) :
    ∃ cs' text', Members members text' ∧ '"' :: cs' = text' ++ '\x7d' :: rest ∧
      readMembers free got cs = readMembers (free.erase f) ((f, n) :: got) cs' := by
  obtain ⟨ws, tail, hws, rfl, hs'⟩ := hs.exists_quote
  simp only [List.append_assoc, List.cons_append] at he
  obtain ⟨cs₁, cs₂, hkey, hvalue, hcomma⟩ := (readMember_mark_iff (by decide)).mpr ⟨m, hm, he⟩
  have hquote := (skipBlanks_eq_cons_iff (by decide)).mpr
    ⟨ws, hws, Eq.refl (ws ++ '"' :: (tail ++ '\x7d' :: rest))⟩
  refine ⟨tail ++ '\x7d' :: rest, _, hs', rfl, ?_⟩
  rw [readMembers, hkey]
  simp only [dif_pos hf, hvalue, hcomma, hquote]

/-- Other fields than the first one are still free after it. -/
theorem mem_erase_of_nodup {free : List Field} {fs : List (Field × Offset)}
    (hnodup : (((f, n) :: fs).map Prod.fst).Nodup) (hmem : ∀ p ∈ (f, n) :: fs, p.1 ∈ free) :
    ∀ p ∈ fs, p.1 ∈ free.erase f := by
  intro p hp
  have hne : p.1 ≠ f := by
    rintro rfl
    exact (List.nodup_cons.mp hnodup).1 (List.mem_map.mpr ⟨p, hp, rfl⟩)
  exact (List.mem_erase_of_ne hne).mpr (hmem p (List.mem_cons_of_mem _ hp))

/-- Members with fields of their own among the free ones are read. -/
theorem readMembers_of_members {free : List Field} {got fs : List (Field × Offset)}
    (hfree : free.Nodup) (h : Members (fs.map named) text) (hnodup : (fs.map Prod.fst).Nodup)
    (hmem : ∀ p ∈ fs, p.1 ∈ free) (he : '"' :: cs = text ++ '\x7d' :: rest) :
    readMembers free got cs = .ok (fs.reverse ++ got, rest) := by
  induction fs generalizing free got cs text with
  | nil => nomatch h
  | cons p fs ih =>
    obtain ⟨f, n⟩ := p
    have hf : f ∈ free := hmem _ (List.mem_cons_self ..)
    simp only [List.map_cons, named] at h
    rcases members_cons_iff.mp h with ⟨hnil, hm⟩ | ⟨m, text', hm, hs, rfl⟩
    · obtain rfl := List.map_eq_nil_iff.mp hnil
      obtain ⟨cs₁, cs₂, hkey, hvalue, hclose⟩ :=
        (readMember_mark_iff (by decide)).mpr ⟨text, hm, he⟩
      rw [readMembers, hkey]
      simp only [dif_pos hf, hvalue, hclose]
      rfl
    · obtain ⟨cs', text'', hs', he', hread⟩ := exists_readMembers_more got hf hm hs he
      have hmem' := mem_erase_of_nodup hnodup hmem
      rw [hread, ih (hfree.erase f) hs' (List.nodup_cons.mp hnodup).2 hmem' he',
        List.reverse_cons, List.append_assoc]
      rfl

/-- Whatever is read are members with fields of their own among the free ones. -/
theorem exists_members_of_readMembers {free : List Field} {got members : List (Field × Offset)}
    (hfree : free.Nodup) (h : readMembers free got cs = .ok (members, rest)) :
    ∃ (fs : List (Field × Offset)) (text : List Char), Members (fs.map named) text ∧
      (fs.map Prod.fst).Nodup ∧ (∀ p ∈ fs, p.1 ∈ free) ∧ members = fs.reverse ++ got ∧
        '"' :: cs = text ++ '\x7d' :: rest := by
  fun_induction readMembers free got cs with
  | case3 free got cs f cs₁ hkey hf n cs₂ hvalue rest' hclose =>
    cases h
    obtain ⟨m, hm, he⟩ :=
      (readMember_mark_iff (by decide)).mp ⟨cs₁, cs₂, hkey, hvalue, hclose⟩
    exact ⟨[(f, n)], m, .last hm, by simp, by simpa using hf, rfl, he⟩
  | case4 free got cs f cs₁ hkey hf n cs₂ hvalue cs₃ hcomma cs₄ hquote ih =>
    obtain ⟨m, hm, he⟩ :=
      (readMember_mark_iff (by decide)).mp ⟨cs₁, cs₂, hkey, hvalue, hcomma⟩
    obtain ⟨ws, hws, rfl⟩ := (skipBlanks_eq_cons_iff (by decide)).mp hquote
    obtain ⟨fs, text, hfs, hnodup, hmem, rfl, he'⟩ := ih (hfree.erase f) h
    have hfresh : f ∉ fs.map Prod.fst := by
      intro hmap
      obtain ⟨p, hp, rfl⟩ := List.mem_map.mp hmap
      exact hfree.not_mem_erase (hmem p hp)
    have hall : Members (((f, n) :: fs).map named) (m ++ ',' :: (ws ++ text)) :=
      .more hm (hfs.blanks_append hws)
    refine ⟨(f, n) :: fs, m ++ ',' :: (ws ++ text), hall, ?_, ?_, ?_, ?_⟩
    · exact List.nodup_cons.mpr ⟨hfresh, hnodup⟩
    · rintro p (_ | ⟨_, hp⟩)
      · exact hf
      · exact List.mem_of_mem_erase (hmem p hp)
    · simp
    · rw [he, he']
      simp
  -- Everywhere else the reading stops at a fault.
  | case1 | case2 | case5 | case6 | case7 => cases h

end DirtyRegion.Json
