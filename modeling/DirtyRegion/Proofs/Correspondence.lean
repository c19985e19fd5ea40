import Mathlib.Logic.Function.Basic
import DirtyRegion.Proofs.Identity
import DirtyRegion.Session.Success

/-!
# Correspondence — a session is a client with names

A session does its commands on names, a client does its calls on places. For each command there are
calls that do the same, and a client that does them holds the changes of the session, each in the
place that goes with its name. What is known of calls is then known of commands.

- `Places` has a place for each name, and `Places.after` says where a command puts what it makes.
- `Session.calls` are the calls for one command, `Session.translate` those for a sequence of them.
- `Holdings.Follows` says that a client holds what the session has.

Main statements: `Follows.succeeds` (one command and its calls), `Follows.run` (a sequence), and
`run_translate`, by which a new session is the client of its calls, with the same entries, also if
each span is two plain words. `forall_texts_run` says which texts can be held after calls.
-/

namespace DirtyRegion

/-- Under the name of each change, its place among the changes that a client holds. -/
abbrev Places := String → ℕ

section Defs

/-- The places after a command, where `n` changes were held before it. What a command makes comes
behind all that is held, and what it alters stays where it is. -/
def Places.after (place : Places) (n : ℕ) : Command → Places
  | .blank name | .edit name .. | .editBetween name .. | .between name .. | .literal name ..
  | .union name .. | .take name _ | .copy name _ => Function.update place name n
  | .withVersion .. | .attach .. | .clear .. | .combine .. => place
  | .snap .. | .alias .. | .ask .. | .compare .. | .present .. => place

namespace Session

/-- The calls on two texts, if both are there. -/
def callsOn {α : Type} (before after : Except Failure α) (f : α → α → List Call) : List Call :=
  match before, after with
  | .ok b, .ok a => f b a
  | _, _ => []

/-- The calls that do a command, where `n` spans are held. -/
def calls (s : Session) (place : Places) (n : ℕ) : Command → List Call
  | .blank _ => [.blank]
  | .edit _ start old new => [.edit start old new]
  | .editBetween _ start old new before after =>
    callsOn (s.snapshot before) (s.snapshot after) fun b a => [.editBetween start old new b a]
  | .between _ source before after =>
    callsOn (s.snapshot before) (s.snapshot after) fun b a => [.between (place source) b a]
  | .literal _ version before after beforeText afterText =>
    callsOn (s.snapshotOrNone beforeText) (s.snapshotOrNone afterText) fun b a =>
      [.make before, .make after, .literal version n (n + 1) b a]
  | .withVersion name version => [.withVersion (place name) version]
  | .attach name before after =>
    callsOn (s.snapshot before) (s.snapshot after) fun b a => [.attach (place name) b a]
  | .clear name => [.clear (place name)]
  | .combine name other => [.combine (place name) (place other)]
  | .union _ left right => [.union (place left) (place right)]
  | .take _ source => [.take (place source)]
  | .copy _ source => [.copy (place source)]
  | .snap .. | .alias .. | .ask .. | .compare .. | .present .. => []

/-- The calls that do commands from the left. A command that fails is done by none. -/
def translate (s : Session) (place : Places) (w : Client) : List Command → List Call
  | [] => []
  | command :: rest =>
    match s.exec command with
    | .ok e =>
      let calls := s.calls place w.spans.length command
      calls ++ e.session.translate (place.after w.changes.length command) (w.run calls) rest
    | .error _ => s.translate place w rest

end Session

/-- The client holds each change of the session in the place of its name, and the changes of two
names in two places. -/
structure Holdings.Follows (place : Places) (w : Client) (s : Session) : Prop where
  held : ∀ p ∈ s.changes, w.changes[place p.1]? = some p.2
  apart : ∀ p ∈ s.changes, ∀ q ∈ s.changes, place p.1 = place q.1 → p.1 = q.1

/-- The two texts of a change, the earlier one first. -/
def Change.texts (c : Change) : Option Snapshot × Option Snapshot :=
  (c.beforeText, c.afterText)

/-- The two texts that a call brings with it. -/
def Call.texts? : Call → Option (Option Snapshot × Option Snapshot)
  | .editBetween _ _ _ b a | .between _ b a | .attach _ b a => some (some b, some a)
  | .literal _ _ _ b a => some (b, a)
  | _ => none

end Defs

theorem Session.mem_of_change {s : Session} {name : String} {c : Change}
    (h : s.change name = .ok c) : (name, c) ∈ s.changes := by
  unfold change at h
  split at h
  · rename_i hlookup
    cases h
    exact mem_of_lookup hlookup
  · cases h

theorem Session.callsOn_ok {α : Type} {x y : Except Failure α} {a b : α} (hx : x = .ok a)
    (hy : y = .ok b) (f : α → α → List Call) : callsOn x y f = f a b := by
  rw [hx, hy, callsOn]

namespace Holdings

/-! ### Calls from the left -/

theorem run_append (w : Client) (xs ys : List Call) : w.run (xs ++ ys) = (w.run xs).run ys :=
  List.foldl_append

theorem journal_append (w : Client) (xs ys : List Call) :
    w.journal (xs ++ ys) = w.journal xs ++ (w.run xs).journal ys := by
  induction xs generalizing w with
  | nil => rfl
  | cons call xs ih =>
    rw [List.cons_append, journal, journal, ih, List.append_assoc]
    rfl

theorem run_single (w : Client) (call : Call) : w.run [call] = w.step call := rfl

theorem journal_single (w : Client) (call : Call) : w.journal [call] = w.entries call :=
  List.append_nil _

theorem held_of_getElem? {w : Client} {i : ℕ} {c : Change} (h : w.changes[i]? = some c)
    (f : Change → List Entry) : entries.held w i f = f c := by
  rw [entries.held, h, Option.map_some, Option.getD_some]

/-- Two spans that come in front of the change that is put together from them. -/
theorem changes_run_literal (w : Client) {r r' : Span.Recipe} {s t : Span} (hs : r.make = .ok s)
    (ht : r'.make = .ok t) (version : Version) (b a : Option Snapshot) :
    (w.run [.make r, .make r', .literal version w.spans.length (w.spans.length + 1) b a]).changes =
      (w.addChange? (some ⟨⟨version, s, t⟩, b, a⟩)).changes := by
  simp [run, step, addSpan?, addChange?, hs, ht, Except.toOption]

/-! ### Places -/

namespace Follows

variable {place : Places} {w w' : Client} {s s' : Session} {name : String} {c : Change}

theorem of_changes (h : Follows place w s) (hw : w'.changes = w.changes)
    (hs : s'.changes = s.changes) : Follows place w' s' := by
  constructor
  · rw [hw, hs]
    exact h.held
  · rw [hs]
    exact h.apart

theorem getElem? (h : Follows place w s) (hc : s.change name = .ok c) :
    w.changes[place name]? = some c :=
  h.held _ (Session.mem_of_change hc)

theorem lt_length (h : Follows place w s) {p : String × Change} (hp : p ∈ s.changes) :
    place p.1 < w.changes.length := by
  obtain ⟨hlt, -⟩ := List.getElem?_eq_some_iff.mp (h.held p hp)
  exact hlt

theorem mem_bindChange_iff {p : String × Change} :
    p ∈ (s.bindChange name c).changes ↔ p = (name, c) ∨ p ∈ s.changes ∧ p.1 ≠ name := by
  simp [Session.bindChange]

/-- A change that a client comes to hold gets a name. -/
theorem add (h : Follows place w s) (name : String) (c : Change) :
    Follows (Function.update place name w.changes.length) (w.addChange? (some c))
      (s.bindChange name c) := by
  constructor
  · intro p hp
    rcases mem_bindChange_iff.mp hp with rfl | ⟨hp, hne⟩
    · simp [addChange?]
    · rw [Function.update_of_ne hne, ← h.held p hp]
      exact List.getElem?_append_left (h.lt_length hp)
  · -- The new place is behind all places that a name had before.
    intro p hp q hq
    rcases mem_bindChange_iff.mp hp with rfl | ⟨hp, hne⟩
    · rcases mem_bindChange_iff.mp hq with rfl | ⟨hq, hne'⟩
      · simp
      · have hlt := h.lt_length hq
        simp [Function.update_of_ne hne']
        omega
    · have hlt := h.lt_length hp
      rcases mem_bindChange_iff.mp hq with rfl | ⟨hq, hne'⟩
      · simp [Function.update_of_ne hne]
        omega
      · rw [Function.update_of_ne hne, Function.update_of_ne hne']
        exact h.apart p hp q hq

/-- A change that is altered where it is held is altered under its name alone. -/
theorem set (h : Follows place w s) (hc : s.change name = .ok c) (d : Change) :
    Follows place (w.setChange? (place name) (some d)) (s.bindChange name d) := by
  have hmem := Session.mem_of_change hc
  have hname : ∀ p ∈ (s.bindChange name d).changes, ∃ q ∈ s.changes, q.1 = p.1 := by
    intro p hp
    rcases mem_bindChange_iff.mp hp with rfl | ⟨hp, -⟩
    · exact ⟨_, hmem, rfl⟩
    · exact ⟨p, hp, rfl⟩
  constructor
  · intro p hp
    rcases mem_bindChange_iff.mp hp with rfl | ⟨hp, hne⟩
    · exact List.getElem?_set_self (h.lt_length hmem)
    · have hplace : place name ≠ place p.1 := fun heq => hne (h.apart _ hmem p hp heq).symm
      rw [← h.held p hp]
      exact List.getElem?_set_ne hplace
  · intro p hp q hq heq
    obtain ⟨p', hp', hp'name⟩ := hname p hp
    obtain ⟨q', hq', hq'name⟩ := hname q hq
    rw [← hp'name, ← hq'name] at heq ⊢
    exact h.apart p' hp' q' hq' heq

/-! ### Commands -/

/-- **One command.** The calls for a command that succeeds bring the client to where the command
brings the session, and leave the same entries. -/
theorem succeeds {command : Command} {journal : List Entry} (h : Follows place w s)
    (hs : s.Succeeds command s' journal) :
    Follows (place.after w.changes.length command)
        (w.run (s.calls place w.spans.length command)) s' ∧
      w.journal (s.calls place w.spans.length command) = journal := by
  cases hs with
  -- Commands that leave all changes as they are stand for no call.
  | snap name content => exact ⟨h.of_changes rfl rfl, rfl⟩
  | «alias» name ht => exact ⟨h.of_changes rfl rfl, rfl⟩
  | ask ht ha => exact ⟨h, rfl⟩
  | compare hc hd => exact ⟨h, rfl⟩
  | present hc => exact ⟨h, rfl⟩
  -- What a command makes, of nothing or of other changes, comes last.
  | blank name => exact ⟨h.add name .blank, rfl⟩
  | edit name hc =>
    rw [Session.calls, run_single, step, hc]
    exact ⟨h.add name _, rfl⟩
  | editBetween name hb ha hc =>
    rw [Session.calls, Session.callsOn_ok hb ha, run_single, journal_single, step, entries,
      Change.ofEditBetween, hc]
    exact ⟨h.add name _, rfl⟩
  | between name hc hb ha =>
    rw [Session.calls, Session.callsOn_ok hb ha, run_single, journal_single, step, entries,
      held_of_getElem? (h.getElem? hc), h.getElem? hc]
    exact ⟨h.add name _, rfl⟩
  | @literal _ _ _ _ r r' b a name version hr hr' hb ha =>
    have hmade := h.add name ⟨⟨version, r, r'⟩, b, a⟩
    rw [Session.calls, Session.callsOn_ok hb ha]
    exact ⟨hmade.of_changes (w.changes_run_literal hr hr' version b a) rfl, rfl⟩
  | union name hc hd =>
    rw [Session.calls, run_single, journal_single, step, entries,
      held_of_getElem? (h.getElem? hc), held_of_getElem? (h.getElem? hd), h.getElem? hc,
      h.getElem? hd]
    exact ⟨h.add name _, rfl⟩
  | copy name hc =>
    rw [Session.calls, run_single, step, h.getElem? hc]
    exact ⟨h.add name _, rfl⟩
  -- What a command alters stays in its place.
  | withVersion version hc =>
    rw [Session.calls, run_single, step, h.getElem? hc]
    exact ⟨h.set hc _, rfl⟩
  | attach hc hb ha =>
    rw [Session.calls, Session.callsOn_ok hb ha, run_single, journal_single, step, entries,
      held_of_getElem? (h.getElem? hc), h.getElem? hc]
    exact ⟨h.set hc _, rfl⟩
  | clear hc =>
    rw [Session.calls, run_single, journal_single, step, entries,
      held_of_getElem? (h.getElem? hc), h.getElem? hc]
    exact ⟨h.set hc _, rfl⟩
  | combine hc hd =>
    rw [Session.calls, run_single, journal_single, step, entries,
      held_of_getElem? (h.getElem? hc), held_of_getElem? (h.getElem? hd), h.getElem? hc,
      h.getElem? hd]
    exact ⟨h.set hc _, rfl⟩
  -- What is taken away comes last, and what is left behind stays in its place, under its old name
  -- unless both names are the same.
  | @take source c name hc =>
    have hlength : (w.setChange? (place source) (some c.take.2)).changes.length =
        w.changes.length := List.length_set
    have htaken := (h.set hc c.take.2).add name c.take.1
    rw [hlength] at htaken
    rw [Session.calls, run_single, journal_single, step, entries,
      held_of_getElem? (h.getElem? hc), h.getElem? hc]
    exact ⟨htaken, rfl⟩

/-- **A sequence of commands.** The client does the calls for the commands that succeed, one command
after the other, and follows the session to its end. -/
theorem run (h : Follows place w s) (commands : List Command) :
    (∃ last, Follows last (w.run (s.translate place w commands)) (s.run commands).1) ∧
      w.journal (s.translate place w commands) = (s.run commands).2.flatMap (·.journal) := by
  induction commands generalizing place w s with
  | nil => exact ⟨⟨place, h⟩, rfl⟩
  | cons command commands ih =>
    cases he : s.exec command with
    | error f =>
      rw [Session.translate, he, Session.run, Session.step_of_error he]
      exact ih h
    | ok e =>
      obtain ⟨hnext, hentries⟩ := h.succeeds (Session.succeeds_of_exec he)
      obtain ⟨hlast, hjournal⟩ := ih hnext
      rw [Session.translate, he, Session.run, Session.step_of_ok he]
      dsimp only
      rw [run_append, journal_append, hentries, hjournal]
      exact ⟨hlast, rfl⟩

end Follows

theorem follows_start (place : Places) : Follows place start Session.start := by
  constructor
  · rintro p ⟨⟩
  · rintro p ⟨⟩

/-- **A session is a client with names.** Whatever commands are done in a new session, a new client
that does their calls holds every change of the session in the place of its name, and the calls leave
the entries that the commands leave. With two plain words for each span they come to the same, and
nothing wraps. -/
theorem run_translate (commands : List Command) :
    let calls := Session.start.translate (fun _ => 0) start commands
    (∃ place, Follows place (run start calls) (Session.start.run commands).1) ∧
      journal start calls = (Session.start.run commands).2.flatMap (·.journal) ∧
        run? start calls = some (run start calls).bare := by
  intro calls
  obtain ⟨hfollows, hjournal⟩ := (follows_start fun _ => 0).run commands
  exact ⟨hfollows, hjournal, run?_bare start calls⟩

/-! ### Texts of a client -/

section Texts

variable {w : Client} {Q : Change → Prop} {P : Option Snapshot × Option Snapshot → Prop}

theorem changes_addSpan? (w : Client) (s : Option Span) : (w.addSpan? s).changes = w.changes := by
  cases s <;> rfl

theorem forall_addChange? (hw : ∀ c ∈ w.changes, Q c) {o : Option Change} (ho : ∀ c ∈ o, Q c) :
    ∀ c ∈ (w.addChange? o).changes, Q c := by
  cases o with
  | none => exact hw
  | some d =>
    intro c hc
    rcases List.mem_append.mp hc with hc | hc
    · exact hw c hc
    · rw [List.mem_singleton.mp hc]
      exact ho d rfl

theorem forall_setChange? (hw : ∀ c ∈ w.changes, Q c) (i : ℕ) {o : Option Change}
    (ho : ∀ c ∈ o, Q c) : ∀ c ∈ (w.setChange? i o).changes, Q c := by
  cases o with
  | none => exact hw
  | some d =>
    intro c hc
    rcases List.mem_or_eq_of_mem_set hc with hc | rfl
    · exact hw c hc
    · exact ho c rfl

theorem forall_map_getElem? (hw : ∀ c ∈ w.changes, Q c) (i : ℕ) {f : Change → Change}
    (hf : ∀ c, Q c → Q (f c)) : ∀ c ∈ w.changes[i]?.map f, Q c := by
  intro c hc
  obtain ⟨d, hd, rfl⟩ := Option.map_eq_some_iff.mp hc
  exact hf d (hw d (List.mem_of_getElem? hd))

/-- Gathering keeps the texts of the change that gathers. -/
theorem forall_map₂_combine (hw : ∀ c ∈ w.changes, P c.texts) (i j : ℕ) :
    ∀ c ∈ Option.map₂ Change.combine w.changes[i]? w.changes[j]?, P c.texts := by
  intro c hc
  obtain ⟨a, b, ha, -, rfl⟩ := Option.mem_map₂_iff.mp hc
  exact hw a (List.mem_of_getElem? ha)

theorem toOption_eq_some_iff {ε α : Type} {r : Except ε α} {a : α} :
    r.toOption = some a ↔ r = .ok a := by
  cases r <;> simp [Except.toOption]

theorem texts_of_ofEdit {start old new : Offset} {c : Change}
    (h : Change.ofEdit start old new = .ok c) : c.texts = (none, none) := by
  obtain ⟨e, -, rfl⟩ := Change.ofEdit_eq_ok_iff.mp h
  rfl

/-- Whatever holds of no texts, of the texts that a call brings and of those that are held before it
holds of the texts that are held after it. -/
theorem forall_texts_step (hnone : P (none, none)) (hw : ∀ c ∈ w.changes, P c.texts) {call : Call}
    (hcall : ∀ t ∈ call.texts?, P t) : ∀ c ∈ (w.step call).changes, P c.texts := by
  cases call with
  | make r =>
    rw [step, changes_addSpan?]
    exact hw
  | cover s t =>
    rw [step, changes_addSpan?]
    exact hw
  | before c =>
    rw [step, changes_addSpan?]
    exact hw
  | after c =>
    rw [step, changes_addSpan?]
    exact hw
  | blank =>
    refine forall_addChange? hw ?_
    rintro c ⟨⟩
    exact hnone
  | edit start old new =>
    refine forall_addChange? hw fun c hc => ?_
    rw [texts_of_ofEdit (toOption_eq_some_iff.mp hc)]
    exact hnone
  | editBetween start old new before after =>
    refine forall_addChange? hw fun c hc => ?_
    obtain ⟨d, -, rfl⟩ := map_eq_ok_iff.mp (toOption_eq_some_iff.mp hc)
    exact hcall _ rfl
  | between c before after =>
    exact forall_addChange? hw (forall_map_getElem? hw c fun d _ => hcall _ rfl)
  | literal version before after beforeText afterText =>
    refine forall_addChange? hw fun c hc => ?_
    obtain ⟨s, t, -, -, rfl⟩ := Option.mem_map₂_iff.mp hc
    exact hcall _ rfl
  | withVersion c version =>
    exact forall_setChange? hw c (forall_map_getElem? hw c fun d hd => hd)
  | attach c before after =>
    exact forall_setChange? hw c (forall_map_getElem? hw c fun d _ => hcall _ rfl)
  | clear c => exact forall_setChange? hw c (forall_map_getElem? hw c fun d _ => hnone)
  | combine c d => exact forall_setChange? hw c (forall_map₂_combine hw c d)
  | union c d => exact forall_addChange? hw (forall_map₂_combine hw c d)
  | take c =>
    -- What is left behind has no texts, and what is taken has those that it had.
    have hleft : ∀ d ∈ (w.setChange? c (w.changes[c]?.map (·.take.2))).changes, P d.texts :=
      forall_setChange? hw c (forall_map_getElem? hw c fun d _ => hnone)
    exact forall_addChange? hleft (forall_map_getElem? hw c fun d hd => hd)
  | copy c => exact forall_addChange? hw fun d hd => hw d (List.mem_of_getElem? hd)

theorem forall_texts_run (hnone : P (none, none)) (hw : ∀ c ∈ w.changes, P c.texts)
    {calls : List Call} (hcalls : ∀ call ∈ calls, ∀ t ∈ call.texts?, P t) :
    ∀ c ∈ (w.run calls).changes, P c.texts := by
  induction calls generalizing w with
  | nil => exact hw
  | cons call calls ih =>
    have hstep := forall_texts_step hnone hw (hcalls call (List.mem_cons_self ..))
    exact ih hstep fun call' hcall => hcalls call' (List.mem_cons_of_mem _ hcall)

end Texts

end Holdings

end DirtyRegion
