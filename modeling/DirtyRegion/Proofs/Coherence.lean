import DirtyRegion.Proofs.Correspondence

/-!
# Coherence — in a session a number stands for one snapshot

A session numbers a new snapshot by the names bound so far. So the numbers of the snapshots that it
knows are below that, no two of them share one, and a change holds none that the session does not
know. Within a session two snapshots of one number therefore have one text, and changes that are
equal speak of the same texts.

Only two commands bind names of snapshots. Which texts the changes hold is read off the calls of a
client that follows the session: calls bring no texts but those that the session has names for.

- `Session.Knows`, `Session.KnowsTexts`, `Session.KnowsAll` say that a session has a name for a
  snapshot, for two texts, or for all texts that a client holds.
- `Session.Coherent` is the invariant.

Main statements: `Coherent.exec` for one command, `Coherent.run` for a sequence of them, and
`Coherent.exists_store`, by which all texts that the session knows are in one store. So
`alike_of_beq` and `matched_run` hold without a word about stores.
-/

namespace DirtyRegion.Session

variable {s : Session} {c : Change} {t : Snapshot} {name : String} {w : Client} {place : Places}
  {command : Command} {e : Effect}

section Defs

/-- The snapshot has a name. -/
def Knows (s : Session) (t : Snapshot) : Prop :=
  ∃ name, (name, t) ∈ s.snapshots

/-- Of two texts that may be missing, those that are there have names. -/
structure KnowsTexts (s : Session) (p : Option Snapshot × Option Snapshot) : Prop where
  before : ∀ t ∈ p.1, s.Knows t
  after : ∀ t ∈ p.2, s.Knows t

/-- The texts of all changes that the client holds have names. -/
def KnowsAll (s : Session) (w : Client) : Prop :=
  ∀ c ∈ w.changes, s.KnowsTexts c.texts

/-- The numbers of snapshots count names, and no two snapshots share one. -/
structure Coherent (s : Session) : Prop where
  id_lt : ∀ t, s.Knows t → t.id < s.snapshots.length
  eq_of_id : ∀ t u, s.Knows t → s.Knows u → t.id = u.id → t = u

end Defs

/-! ### What has a name -/

theorem knows_of_snapshot (h : s.snapshot name = .ok t) : s.Knows t := by
  unfold snapshot at h
  split at h
  · rename_i hlookup
    cases h
    exact ⟨name, mem_of_lookup hlookup⟩
  · cases h

theorem knows_of_snapshotOrNone {names : Option String} {texts : Option Snapshot}
    (h : s.snapshotOrNone names = .ok texts) : ∀ t ∈ texts, s.Knows t := by
  cases names with
  | none =>
    cases h
    exact nofun
  | some name =>
    intro t ht
    cases hname : s.snapshot name with
    | error f =>
      rw [snapshotOrNone, hname] at h
      cases h
    | ok u =>
      rw [snapshotOrNone, hname] at h
      cases h
      cases ht
      exact knows_of_snapshot hname

/-! ### Binding names -/

theorem knows_bindSnapshot {u : Snapshot} :
    (s.bindSnapshot name t).Knows u ↔ s.Knows u ∨ u = t := by
  simp only [Knows, bindSnapshot, List.mem_append, List.mem_singleton, Prod.mk.injEq]
  constructor
  · rintro ⟨other, h | ⟨-, rfl⟩⟩
    · exact .inl ⟨other, h⟩
    · exact .inr rfl
  · rintro (⟨other, h⟩ | rfl)
    · exact ⟨other, .inl h⟩
    · exact ⟨name, .inr ⟨rfl, rfl⟩⟩

theorem length_bindSnapshot (s : Session) (name : String) (t : Snapshot) :
    (s.bindSnapshot name t).snapshots.length = s.snapshots.length + 1 := by
  simp [bindSnapshot]

/-- A snapshot that the session knows may get one more name. -/
theorem Coherent.bindSnapshot_of_knows (hs : Coherent s) (name : String) (ht : s.Knows t) :
    Coherent (s.bindSnapshot name t) := by
  have hknown : ∀ u, (s.bindSnapshot name t).Knows u → s.Knows u := by
    intro u hu
    rcases knows_bindSnapshot.mp hu with hu | rfl
    · exact hu
    · exact ht
  constructor
  · intro u hu
    rw [length_bindSnapshot]
    exact Nat.lt_succ_of_lt (hs.id_lt u (hknown u hu))
  · intro u v hu hv
    exact hs.eq_of_id u v (hknown u hu) (hknown v hv)

/-- A snapshot may get its first name if its number comes after all others. -/
theorem Coherent.bindSnapshot_of_id (hs : Coherent s) (name : String)
    (ht : t.id = s.snapshots.length) : Coherent (s.bindSnapshot name t) := by
  constructor
  · intro u hu
    rw [length_bindSnapshot]
    rcases knows_bindSnapshot.mp hu with hu | rfl
    · exact Nat.lt_succ_of_lt (hs.id_lt u hu)
    · exact ht ▸ Nat.lt_succ_self _
  · intro u v hu hv hid
    rcases knows_bindSnapshot.mp hu with hku | rfl
    · rcases knows_bindSnapshot.mp hv with hkv | rfl
      · exact hs.eq_of_id u v hku hkv hid
      · have hlt := hs.id_lt u hku
        omega
    · rcases knows_bindSnapshot.mp hv with hkv | rfl
      · have hlt := hs.id_lt v hkv
        omega
      · rfl

/-! ### Commands -/

/-- A command binds the name of one snapshot, which is new or has a name already, or none. -/
theorem Succeeds.snapshots {s' : Session} {journal : List Entry}
    (h : s.Succeeds command s' journal) :
    (∃ name t, s' = s.bindSnapshot name t ∧ (t.id = s.snapshots.length ∨ s.Knows t)) ∨
      s'.snapshots = s.snapshots := by
  cases h with
  | snap name content => exact .inl ⟨name, _, rfl, .inl rfl⟩
  | «alias» name ht => exact .inl ⟨name, _, rfl, .inr (knows_of_snapshot ht)⟩
  -- All other commands look at names of snapshots at most.
  | _ => exact .inr rfl

/-- What has a name keeps it. -/
theorem Knows.exec (ht : s.Knows t) (he : s.exec command = .ok e) : e.session.Knows t := by
  rcases (succeeds_of_exec he).snapshots with ⟨name, u, hsession, -⟩ | hsame
  · rw [hsession]
    exact knows_bindSnapshot.mpr (.inl ht)
  · obtain ⟨name, hname⟩ := ht
    exact ⟨name, hsame ▸ hname⟩

/-- Every command leaves the session coherent. -/
theorem Coherent.exec (hs : Coherent s) (he : s.exec command = .ok e) : Coherent e.session := by
  rcases (succeeds_of_exec he).snapshots with ⟨name, t, hsession, hnew | hknown⟩ | hsame
  · rw [hsession]
    exact hs.bindSnapshot_of_id name hnew
  · rw [hsession]
    exact hs.bindSnapshot_of_knows name hknown
  · have hback : ∀ t, e.session.Knows t → s.Knows t := fun t ⟨name, h⟩ => ⟨name, hsame ▸ h⟩
    constructor
    · intro t ht
      rw [hsame]
      exact hs.id_lt t (hback t ht)
    · intro t u ht hu
      exact hs.eq_of_id t u (hback t ht) (hback u hu)

theorem coherent_start : Coherent start := by
  constructor
  · rintro t ⟨name, ⟨⟩⟩
  · rintro t u ⟨name, ⟨⟩⟩

/-- Every sequence of commands leaves the session coherent. -/
theorem Coherent.run (hs : Coherent s) (commands : List Command) :
    Coherent (s.run commands).1 := by
  induction commands generalizing s with
  | nil => exact hs
  | cons command commands ih =>
    show Coherent ((s.step command).1.run commands).1
    cases h : s.exec command with
    | error f =>
      rw [step_of_error h]
      exact ih hs
    | ok e =>
      rw [step_of_ok h]
      exact ih (hs.exec h)

/-! ### Calls of a client that follows -/

theorem exists_of_mem_callsOn {α : Type} {x y : Except Failure α} {f : α → α → List Call}
    {call : Call} (h : call ∈ callsOn x y f) : ∃ b a, x = .ok b ∧ y = .ok a ∧ call ∈ f b a := by
  unfold callsOn at h
  split at h
  · exact ⟨_, _, rfl, rfl, h⟩
  · cases h

theorem knowsTexts_none (s : Session) : s.KnowsTexts (none, none) := by
  constructor <;> rintro t ⟨⟩

theorem knowsTexts_of_snapshot {before after : String} {b a : Snapshot}
    (hb : s.snapshot before = .ok b) (ha : s.snapshot after = .ok a) :
    s.KnowsTexts (some b, some a) := by
  constructor <;> rintro t ⟨⟩
  · exact knows_of_snapshot hb
  · exact knows_of_snapshot ha

/-- The calls for a command bring no texts but those that the session has names for. -/
theorem knowsTexts_of_mem_calls {n : ℕ} {call : Call} (hcall : call ∈ s.calls place n command) :
    ∀ p ∈ call.texts?, s.KnowsTexts p := by
  cases command with
  | editBetween name start old new before after =>
    obtain ⟨b, a, hb, ha, hcall⟩ := exists_of_mem_callsOn hcall
    obtain rfl := List.mem_singleton.mp hcall
    rintro p ⟨⟩
    exact knowsTexts_of_snapshot hb ha
  | between name source before after =>
    obtain ⟨b, a, hb, ha, hcall⟩ := exists_of_mem_callsOn hcall
    obtain rfl := List.mem_singleton.mp hcall
    rintro p ⟨⟩
    exact knowsTexts_of_snapshot hb ha
  | attach name before after =>
    obtain ⟨b, a, hb, ha, hcall⟩ := exists_of_mem_callsOn hcall
    obtain rfl := List.mem_singleton.mp hcall
    rintro p ⟨⟩
    exact knowsTexts_of_snapshot hb ha
  | literal name version before after beforeText afterText =>
    obtain ⟨b, a, hb, ha, hcall⟩ := exists_of_mem_callsOn hcall
    simp only [List.mem_cons, List.not_mem_nil, or_false] at hcall
    rcases hcall with rfl | rfl | rfl
    · rintro p ⟨⟩
    · rintro p ⟨⟩
    · rintro p ⟨⟩
      exact ⟨knows_of_snapshotOrNone hb, knows_of_snapshotOrNone ha⟩
  | _ =>
    -- No other command names a text, and neither do its calls.
    simp_all [calls, Call.texts?]

/-- A client that follows a session comes to hold no texts but those that the session knows. -/
theorem KnowsAll.exec (hw : s.KnowsAll w) (he : s.exec command = .ok e) :
    e.session.KnowsAll (w.run (s.calls place w.spans.length command)) := by
  intro c hc
  obtain ⟨hbefore, hafter⟩ := Holdings.forall_texts_run (knowsTexts_none s) hw
    (fun call hcall => knowsTexts_of_mem_calls hcall) c hc
  exact ⟨fun t ht => (hbefore t ht).exec he, fun t ht => (hafter t ht).exec he⟩

theorem KnowsAll.run (hw : s.KnowsAll w) (commands : List Command) :
    (s.run commands).1.KnowsAll (w.run (s.translate place w commands)) := by
  induction commands generalizing place w s with
  | nil => exact hw
  | cons command commands ih =>
    cases he : s.exec command with
    | error f =>
      rw [translate, he, Session.run, step_of_error he]
      exact ih hw
    | ok e =>
      rw [translate, he, Session.run, step_of_ok he]
      dsimp only
      rw [Holdings.run_append]
      exact ih (hw.exec he)

/-! ### One store -/

/-- The texts of all snapshots of a coherent session are in one store. -/
theorem Coherent.exists_store (hs : Coherent s) :
    ∃ store : ℕ → List Char, ∀ t, s.Knows t → LawfulTextSource.toList t = store t.id := by
  classical
  -- A number that no snapshot has may stand for anything.
  let store (id : ℕ) : List Char :=
    if h : ∃ t, s.Knows t ∧ t.id = id then LawfulTextSource.toList h.choose else []
  refine ⟨store, fun t ht => ?_⟩
  have h : ∃ u, s.Knows u ∧ u.id = t.id := ⟨t, ht, rfl⟩
  rw [show store t.id = LawfulTextSource.toList h.choose from dif_pos h,
    hs.eq_of_id _ _ h.choose_spec.1 ht h.choose_spec.2]

theorem stored_of_knowsTexts {store : ℕ → List Char}
    (hstore : ∀ t, s.Knows t → LawfulTextSource.toList t = store t.id)
    (hc : s.KnowsTexts c.texts) : c.Stored store :=
  ⟨fun t ht => hstore t (hc.before t ht), fun t ht => hstore t (hc.after t ht)⟩

/-- A client that holds what a new session comes to have holds no texts that it does not know. -/
theorem knowsAll_run (commands : List Command) :
    (start.run commands).1.KnowsAll
      (Holdings.run Holdings.start (start.translate place Holdings.start commands)) := by
  have hstart : start.KnowsAll Holdings.start := by rintro c ⟨⟩
  exact hstart.run commands

theorem knowsTexts_of_change (commands : List Command)
    (hc : (start.run commands).1.change name = .ok c) :
    (start.run commands).1.KnowsTexts c.texts := by
  obtain ⟨⟨last, hfollows⟩, -⟩ := (Holdings.follows_start fun _ => 0).run commands
  exact knowsAll_run commands c (List.mem_of_getElem? (hfollows.getElem? hc))

/-- **In a session equality of changes is no accident of numbers**: whatever commands came before,
changes that are equal speak of the same extent and the same texts. -/
theorem alike_of_beq (commands : List Command) {left right : String} {c d : Change}
    (hc : (start.run commands).1.change left = .ok c)
    (hd : (start.run commands).1.change right = .ok d) (h : (c == d) = true) : c.Alike d := by
  obtain ⟨store, hstore⟩ := (coherent_start.run commands).exists_store
  exact .of_beq (stored_of_knowsTexts hstore (knowsTexts_of_change commands hc))
    (stored_of_knowsTexts hstore (knowsTexts_of_change commands hd)) h

/-- **Equal changes of a session can stand for each other.** Two clients hold texts of one session
only, and changes that are equal one by one. After the same calls their changes are still equal and
show the same, and the calls have left the same entries. -/
theorem matched_run (commands : List Command) {w' : Client}
    (hw : (start.run commands).1.KnowsAll w) (hw' : (start.run commands).1.KnowsAll w')
    (h : Holdings.Matched (fun c d => (c == d) = true) w w') (calls : List Call) :
    Holdings.Matched (fun c d => (c == d) = true ∧ c.appearance = d.appearance)
        (w.run calls) (w'.run calls) ∧
      w.journal calls = w'.journal calls := by
  obtain ⟨store, hstore⟩ := (coherent_start.run commands).exists_store
  have hstored : ∀ c ∈ w.changes ++ w'.changes, c.Stored store := by
    intro c hc
    rcases List.mem_append.mp hc with hc | hc
    · exact stored_of_knowsTexts hstore (hw c hc)
    · exact stored_of_knowsTexts hstore (hw' c hc)
  exact h.run_of_stored hstored calls

end DirtyRegion.Session
