import Mathlib.Data.Nat.Notation
import DirtyRegion.Proofs.Batch
import DirtyRegion.Proofs.Reader
import DirtyRegion.Session.Success

/-!
# Replay — the journal holds all there is to know of an extent

A run leaves one line for each step. Whoever has the lines alone reads them with `Entry.read?` and
follows the run with `Entry.replay`: lines that say what was gathered move the extent on, and lines
that say what the extent was are no news.

- `Change.lines` are the texts of a journal, `Session.emitted` those that one command leaves.
- `replay?` is the extent that the lines of a run from the blank extent lead to.
- `Entry.Shows` says how much of the extent before a step stands in the entry of that step.
- `Session.Does`, `Session.DoesAll` relate the steps on one change to the commands of a session that
  do them.

Main statements: `Entry.replay_entry` and `Entry.shows_entry` for one step, `Change.replayFrom?_lines`
and `Session.DoesAll.run` for runs, and `Change.journal_replays`, which puts them together.
-/

namespace DirtyRegion

section Defs

/-- The extent after a step, by the extent before it and the entry of the step. -/
def Entry.replay (e : Extent) : Entry → Extent
  | .attaching _ _ _ => e
  | .clearing _ => ⟨e.version, .empty, .empty⟩
  | .ignoring _ => e
  | .adopting other => { other with version := max e.version other.version }
  | .combined other extent => { extent with version := max e.version other.version }
  | .took _ => ⟨e.version, .empty, .empty⟩

/-- The extent that the entry names as the changing one is that before the step, as far as the step
has not moved it on. -/
def Entry.Shows (e : Extent) : Entry → Prop
  | .attaching extent _ _ => extent = e
  | .clearing extent => extent = e
  | .ignoring _ => True
  | .adopting _ => True
  | .combined _ extent => extent.version = e.version
  | .took extent => extent = e

/-- The extent after lines from the left, if each of them is the text of an entry. -/
def replayFrom? (e : Extent) (lines : List String) : Option Extent :=
  lines.foldlM (fun e line => (Entry.read? line).map (Entry.replay e)) e

/-- The extent that the lines of a run from the blank extent lead to. -/
def replay? (lines : List String) : Option Extent :=
  replayFrom? .blank lines

/-- The texts of the entries of steps from the left. -/
def Change.lines (c : Change) (steps : List Step) : List String :=
  (c.journal steps).map Entry.text

/-- The texts of the entries that a command leaves. -/
def Session.emitted (s : Session) (command : Command) : Except Failure (List String) :=
  (s.exec command).map fun effect => effect.journal.map Entry.text

/-- The command does the step on the change under a name. -/
inductive Session.Does (s : Session) (name : String) : Step → Command → Prop where
  | combine {other : String} {c : Change} (h : s.change other = .ok c) :
      Does s name (.combine c) (.combine name other)
  | attach {before after : String} {b a : Snapshot} (hb : s.snapshot before = .ok b)
      (ha : s.snapshot after = .ok a) : Does s name (.attach b a) (.attach name before after)
  | clear : Does s name .clear (.clear name)
  /-- The change that is taken away goes to another name. -/
  | take {target : String} (h : target ≠ name) : Does s name .take (.take target name)

/-- The commands do the steps on the change under a name, each in the session that it meets. -/
inductive Session.DoesAll (name : String) : Session → List Step → List Command → Prop where
  | nil (s : Session) : DoesAll name s [] []
  | cons {s : Session} {step : Step} {command : Command} {steps : List Step}
      {commands : List Command} (h : s.Does name step command)
      (hs : DoesAll name (s.step command).1 steps commands) :
      DoesAll name s (step :: steps) (command :: commands)

end Defs

/-! ### One step -/

/-- The entry of gathering says what the extent becomes. -/
theorem Entry.replay_ofCombine (e other : Extent) :
    Entry.replay e (.ofCombine e other) = e.combine other := by
  unfold Entry.ofCombine Extent.combine
  cases e.reception other <;> rfl

/-- The extent after a step is that which the entry of the step leads to. -/
theorem Entry.replay_entry (c : Change) (s : Step) :
    (s.entry c).replay c.toExtent = (s.apply c).toExtent := by
  cases s with
  | combine other => exact Entry.replay_ofCombine c.toExtent other.toExtent
  | attach before after => rfl
  | clear => rfl
  | take => rfl

theorem Entry.shows_entry (c : Change) (s : Step) : (s.entry c).Shows c.toExtent := by
  cases s with
  | combine other =>
    show (Entry.ofCombine c.toExtent other.toExtent).Shows c.toExtent
    unfold Entry.ofCombine
    cases c.toExtent.reception other.toExtent <;> trivial
  | attach before after => rfl
  | clear => rfl
  | take => rfl

/-! ### Commands that do a step -/

/-- A command that does a step leaves the entry of the step, and the change after the step under
the name. -/
theorem Session.Does.exec {s : Session} {name : String} {c : Change} {step : Step}
    {command : Command} (h : s.Does name step command) (hc : s.change name = .ok c) :
    ∃ e, s.exec command = .ok e ∧ e.journal = [step.entry c] ∧
      e.session.change name = .ok (step.apply c) := by
  cases h with
  | combine hd =>
    obtain ⟨outcome, he⟩ := exec_eq_ok_iff.mpr (.combine hc hd)
    exact ⟨_, he, rfl, change_bindChange_self s name _⟩
  | attach hb ha =>
    obtain ⟨outcome, he⟩ := exec_eq_ok_iff.mpr (.attach hc hb ha)
    exact ⟨_, he, rfl, change_bindChange_self s name _⟩
  | clear =>
    obtain ⟨outcome, he⟩ := exec_eq_ok_iff.mpr (.clear hc)
    exact ⟨_, he, rfl, change_bindChange_self s name _⟩
  -- The change that is taken away must not cover up the one that is left behind.
  | @take target hne =>
    obtain ⟨outcome, he⟩ := exec_eq_ok_iff.mpr (.take target hc)
    refine ⟨_, he, rfl, ?_⟩
    rw [change_bindChange_of_ne _ _ hne.symm]
    exact change_bindChange_self s name _

/-- Commands that do steps leave one line for each, and the change after the steps. -/
theorem Session.DoesAll.run {s : Session} {name : String} {c : Change} {steps : List Step}
    {commands : List Command} (h : DoesAll name s steps commands) (hc : s.change name = .ok c) :
    (s.run commands).2.map (fun reply => reply.journal.map Entry.text) =
        (c.lines steps).map ([·]) ∧
      (s.run commands).1.change name = .ok (c.run steps) := by
  induction h generalizing c with
  | nil s => exact ⟨rfl, hc⟩
  | @cons s step command steps commands hdoes _ ih =>
    obtain ⟨e, hexec, hjournal, hchange⟩ := hdoes.exec hc
    rw [step_of_ok hexec] at ih
    obtain ⟨hlines, hlast⟩ := ih hchange
    have hrun : s.run (command :: commands) =
        ((e.session.run commands).1, ⟨.ok e.outcome, e.journal⟩ :: (e.session.run commands).2) := by
      rw [Session.run, step_of_ok hexec]
    rw [hrun]
    refine ⟨?_, hlast⟩
    rw [List.map_cons, hlines, hjournal]
    rfl

/-! ### Steps inside of one command -/

/-- A union leaves what its gathering leaves, whichever name it goes to. -/
theorem Session.emitted_union (s : Session) (name left right : String) :
    s.emitted (.union name left right) = s.emitted (.combine left right) := by
  simp only [emitted, exec]
  cases s.change left with
  | error f => rfl
  | ok c =>
    cases s.change right with
    | error f => rfl
    | ok d => rfl

/-- A change between two texts leaves what its gathering and then its attaching leave. -/
theorem Session.emitted_between (s : Session) (name source before after : String) :
    s.emitted (.between name source before after) = (do
      let c ← s.change source
      let b ← s.snapshot before
      let a ← s.snapshot after
      .ok (Change.blank.lines [.combine c] ++ (Change.blank.combine c).lines [.attach b a])) := by
  simp only [emitted, exec]
  cases s.change source with
  | error f => rfl
  | ok c =>
    cases s.snapshot before with
    | error f => rfl
    | ok b =>
      cases s.snapshot after with
      | error f => rfl
      | ok a => rfl

/-! ### Runs -/

/-- The first lines of a run are those of its first steps. -/
theorem Change.take_lines (c : Change) (steps : List Step) (k : ℕ) :
    (c.lines steps).take k = c.lines (steps.take k) := by
  induction steps generalizing c k with
  | nil => rw [List.take_nil, lines, journal, List.map_nil, List.take_nil]
  | cons s steps ih =>
    cases k with
    | zero => rfl
    | succ k => exact congrArg (List.cons (s.entry c).text) (ih (s.apply c) k)

theorem Change.getElem?_lines (c : Change) (steps : List Step) (k : ℕ) :
    (c.lines steps)[k]? = steps[k]?.map fun s => (s.entry (c.run (steps.take k))).text := by
  induction steps generalizing c k with
  | nil => rfl
  | cons s steps ih =>
    cases k with
    | zero => rfl
    | succ k => exact ih (s.apply c) k

/-- Lines followed from the extent before a run lead to the extent after it. -/
theorem Change.replayFrom?_lines (c : Change) (steps : List Step) :
    replayFrom? c.toExtent (c.lines steps) = some (c.run steps).toExtent := by
  induction steps generalizing c with
  | nil => rfl
  | cons s steps ih =>
    have hread : (Entry.read? (s.entry c).text).map (Entry.replay c.toExtent) =
        some (s.apply c).toExtent := by
      rw [Entry.read?_text, Option.map_some, Entry.replay_entry]
    show ((Entry.read? (s.entry c).text).map (Entry.replay c.toExtent)).bind
      (replayFrom? · ((s.apply c).lines steps)) = _
    rw [hread, Option.bind_some, ih]
    rfl

example : replay? ["Adopting v3 old=[2, 6) new=[2, 9) into empty accumulator",
    "Combined v2 old=[0, 1) new=[0, 0) into v3 old=[0, 6) new=[0, 9)"] =
    some ⟨3, ⟨0, 6, by decide⟩, ⟨0, 9, by decide⟩⟩ := by decide

/-- **The journal of a run tells the run.** Every step leaves one line, as does the command that does
it in a session. The first lines lead from the blank extent to the extent after as many steps, and
the next line is read back, as an entry that shows this extent as far as its step has not moved it
on. A union leaves the line of its gathering, and a change between two texts the lines of its
gathering and its attaching. -/
theorem Change.journal_replays (steps : List Step) :
    (∀ k : ℕ, (blank.lines steps)[k]? =
        steps[k]?.map fun s => (s.entry (blank.run (steps.take k))).text) ∧
      (∀ (s : Session) (name : String) (commands : List Command), s.change name = .ok blank →
        s.DoesAll name steps commands →
          (s.run commands).2.map (fun reply => reply.journal.map Entry.text) =
              (blank.lines steps).map ([·]) ∧
            (s.run commands).1.change name = .ok (blank.run steps)) ∧
      (∀ k, replay? ((blank.lines steps).take k) = some (blank.run (steps.take k)).toExtent) ∧
      (∀ k : ℕ, ∀ line ∈ (blank.lines steps)[k]?, ∃ extent entry,
        replay? ((blank.lines steps).take k) = some extent ∧
          Entry.read? line = some entry ∧ entry.Shows extent) ∧
      ∀ (s : Session) (name left right before after : String),
        s.emitted (.union name left right) = s.emitted (.combine left right) ∧
          s.emitted (.between name left before after) = (do
            let c ← s.change left
            let b ← s.snapshot before
            let a ← s.snapshot after
            .ok (blank.lines [.combine c] ++ (blank.combine c).lines [.attach b a])) := by
  refine ⟨getElem?_lines blank steps, ?_, ?_, ?_, ?_⟩
  · intro s name commands hblank hdoes
    exact hdoes.run hblank
  · intro k
    rw [take_lines]
    exact replayFrom?_lines blank _
  · intro k line hline
    rw [getElem?_lines, Option.mem_def, Option.map_eq_some_iff] at hline
    obtain ⟨s, -, rfl⟩ := hline
    refine ⟨(blank.run (steps.take k)).toExtent, _, ?_, Entry.read?_text _, Entry.shows_entry _ s⟩
    rw [take_lines]
    exact replayFrom?_lines blank _
  · intro s name left right before after
    exact ⟨s.emitted_union name left right, s.emitted_between name left before after⟩

def page : Snapshot := ⟨0, .plain "añb"⟩

/-- A page, an edit, and a blank change to gather it in. -/
def pageSession : Session :=
  ⟨[("page", page)], [("edit", .ofEditAt 3 1 2 1), ("pending", .blank)]⟩

/-- The edit is gathered and taken away, what was taken is gathered twice, and all is dropped. -/
def handoverSteps : List Step :=
  let taken := (Change.ofEditAt 3 1 2 1).attach page page
  [.combine (.ofEditAt 3 1 2 1), .attach page page, .take, .combine taken, .combine taken, .clear]

def handoverCommands : List Command :=
  [.combine "pending" "edit", .attach "pending" "page" "page", .take "taken" "pending",
    .combine "pending" "taken", .combine "pending" "taken", .clear "pending"]

theorem handoverCommands_lines_eq :
    pageSession.change "pending" = .ok .blank ∧
      pageSession.DoesAll "pending" handoverSteps handoverCommands ∧
      (pageSession.run handoverCommands).2.map (fun reply => reply.journal.map Entry.text) =
        (Change.blank.lines handoverSteps).map ([·]) := by
  have hblank : pageSession.change "pending" = .ok .blank := rfl
  have hdoes : pageSession.DoesAll "pending" handoverSteps handoverCommands :=
    .cons (.combine rfl) <| .cons (.attach rfl rfl) <| .cons (.take (by decide)) <|
      .cons (.combine rfl) <| .cons (.combine rfl) <| .cons .clear <| .nil _
  obtain ⟨-, hlines, -⟩ := Change.journal_replays handoverSteps
  exact ⟨hblank, hdoes, (hlines pageSession "pending" handoverCommands hblank hdoes).1⟩

end DirtyRegion
