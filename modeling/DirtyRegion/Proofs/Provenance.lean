import Mathlib.Data.Nat.Notation
import Mathlib.Logic.Function.Basic
import DirtyRegion.Session.Success

/-!
# Provenance — which command gave a change its texts

A change gets its two texts together, from one command that supplies both. From there they go where
the change goes: they stay when it gathers others, and they go along when it is copied or taken away.
The history of a session is written down beside it, as a `Provenance` that has the place of such a
command under the name of each change.

- `Session.Supplies` relates a command to the two texts that it names.
- `Provenance.after` is what a command makes of the provenance, `Session.provenance` what a run of
  commands does.
- `Session.Sourced` says that the texts of a change are those of a given command, or that there are
  none.

Main statements: `Traced.exec` for one command, `traced_run` for a run, and
`texts_come_from_one_command`, by which no session mixes texts unless a literal change does.
-/

namespace DirtyRegion

/-- Under the name of each change, the place in the run of the command that its texts came with. -/
abbrev Provenance := String → Option ℕ

section Defs

/-- The two changes have the same texts, or both have none. -/
structure Change.SameTexts (c d : Change) : Prop where
  before : c.beforeText = d.beforeText
  after : c.afterText = d.afterText

/-- The command puts a change together part by part. -/
def Command.isLiteral : Command → Bool
  | .literal .. => true
  | _ => false

/-- The provenance after a command that was done in place `i` of a run. -/
def Provenance.after (p : Provenance) (i : ℕ) : Command → Provenance
  | .blank name | .edit name .. | .clear name | .literal name .. => Function.update p name none
  | .editBetween name .. | .between name .. | .attach name .. => Function.update p name (some i)
  | .union name source _ | .copy name source => Function.update p name (p source)
  | .take name source => Function.update (Function.update p source none) name (p source)
  | .withVersion .. | .combine .. => p
  | .snap .. | .alias .. | .ask .. | .compare .. | .present .. => p

namespace Session

variable (s : Session)

/-- The command puts a change between two texts. -/
inductive Supplies : Command → Snapshot → Snapshot → Prop where
  | editBetween {before after : String} {b a : Snapshot} (name : String) (start old new : Offset)
      (hb : s.snapshot before = .ok b) (ha : s.snapshot after = .ok a) :
      Supplies (.editBetween name start old new before after) b a
  | between {before after : String} {b a : Snapshot} (name source : String)
      (hb : s.snapshot before = .ok b) (ha : s.snapshot after = .ok a) :
      Supplies (.between name source before after) b a
  | attach {before after : String} {b a : Snapshot} (name : String)
      (hb : s.snapshot before = .ok b) (ha : s.snapshot after = .ok a) :
      Supplies (.attach name before after) b a

/-- The provenance after commands from the left, where the first of them has place `i`. A command
that fails leaves it as it was. -/
def provenanceFrom (s : Session) (i : ℕ) (p : Provenance) : List Command → Provenance
  | [] => p
  | c :: rest =>
    let next := match s.exec c with
      | .ok _ => p.after i c
      | .error _ => p
    provenanceFrom (s.step c).1 (i + 1) next rest

/-- The provenance after commands in a new session. -/
def provenance (commands : List Command) : Provenance :=
  provenanceFrom start 0 (fun _ => none) commands

/-- The change has the texts that the command in a given place supplied when it was done, and no
texts where no place is given. -/
def Sourced (commands : List Command) (c : Change) : Option ℕ → Prop
  | none => c.beforeText = none ∧ c.afterText = none
  | some i => ∃ command before after effect, commands[i]? = some command ∧
      (start.run (commands.take i)).1.exec command = .ok effect ∧
        (start.run (commands.take i)).1.Supplies command before after ∧
          c.beforeText = some before ∧ c.afterText = some after

/-- Every change has the texts that its provenance says. -/
def Traced (commands : List Command) (s : Session) (p : Provenance) : Prop :=
  ∀ name c, s.change name = .ok c → Sourced commands c (p name)

end Session

end Defs

namespace Session

variable {s : Session} {p : Provenance} {commands : List Command} {c d : Change} {name : String}

/-! ### Sources -/

theorem Sourced.of_sameTexts {o : Option ℕ} (h : Sourced commands c o) (hd : d.SameTexts c) :
    Sourced commands d o := by
  cases o with
  | none => exact ⟨hd.before.trans h.1, hd.after.trans h.2⟩
  | some i =>
    obtain ⟨command, b, a, e, hi, he, hsupplies, hb, ha⟩ := h
    exact ⟨command, b, a, e, hi, he, hsupplies, hd.before.trans hb, hd.after.trans ha⟩

/-- Later commands do not alter what earlier ones supplied. -/
theorem Sourced.append {o : Option ℕ} (h : Sourced commands c o) (later : List Command) :
    Sourced (commands ++ later) c o := by
  cases o with
  | none => exact h
  | some i =>
    obtain ⟨command, b, a, e, hi, he, hsupplies, hb, ha⟩ := h
    have hlt : i < commands.length := (List.getElem?_eq_some_iff.mp hi).1
    have htake : (commands ++ later).take i = commands.take i :=
      List.take_append_of_le_length (Nat.le_of_lt hlt)
    rw [← htake] at he hsupplies
    exact ⟨command, b, a, e, (List.getElem?_append_left hlt).trans hi, he, hsupplies, hb, ha⟩

/-- What a command supplies is the source of the change that it attaches it to. -/
theorem sourced_attach {command : Command} {b a : Snapshot} {e : Effect}
    (he : (start.run commands).1.exec command = .ok e)
    (h : (start.run commands).1.Supplies command b a) (c : Change) :
    Sourced (commands ++ [command]) (c.attach b a) (some commands.length) := by
  have htake : (commands ++ [command]).take commands.length = commands := List.take_left
  rw [← htake] at he h
  exact ⟨command, b, a, e, List.getElem?_concat_length, he, h, rfl, rfl⟩

/-! ### Binding names -/

theorem Traced.append (h : Traced commands s p) (later : List Command) :
    Traced (commands ++ later) s p :=
  fun name c hc => (h name c hc).append later

theorem Traced.bindChange (h : Traced commands s p) (name : String) {o : Option ℕ}
    (hc : Sourced commands c o) :
    Traced commands (s.bindChange name c) (Function.update p name o) := by
  intro other d hd
  by_cases hne : other = name
  · subst hne
    rw [change_bindChange_self] at hd
    cases hd
    rwa [Function.update_self]
  · rw [change_bindChange_of_ne _ _ hne] at hd
    rw [Function.update_of_ne hne]
    exact h other d hd

/-- A change that is altered where it is and keeps its texts keeps its provenance. -/
theorem Traced.bindChange_self (h : Traced commands s p) (hc : s.change name = .ok c)
    (hd : d.SameTexts c) : Traced commands (s.bindChange name d) p := by
  have hd := h.bindChange name ((h name c hc).of_sameTexts hd)
  rwa [Function.update_eq_self] at hd

/-! ### Commands -/

/-- An edit has no texts. -/
theorem sourced_of_ofEdit {start old new : Offset} (h : Change.ofEdit start old new = .ok c) :
    Sourced commands c none := by
  obtain ⟨e, -, rfl⟩ := Change.ofEdit_eq_ok_iff.mp h
  exact ⟨rfl, rfl⟩

theorem sourced_blank (v : Version) : Sourced commands (Change.blank.withVersion v) none :=
  ⟨rfl, rfl⟩

/-- Every command but a literal change keeps the provenance true. -/
theorem Traced.exec (h : Traced commands (start.run commands).1 p) {command : Command}
    (hliteral : command.isLiteral = false) {e : Effect}
    (he : (start.run commands).1.exec command = .ok e) :
    Traced (commands ++ [command]) e.session (p.after commands.length command) := by
  have hp := h.append [command]
  have hattach {b a : Snapshot} := sourced_attach he (b := b) (a := a)
  have hdone := succeeds_of_exec he
  generalize e.session = s', e.journal = journal at hdone ⊢
  cases hdone with
  | literal => cases hliteral
  -- Only these three name texts: what they supply has its source here.
  | editBetween name hb ha hc =>
    exact hp.bindChange name (hattach (.editBetween name _ _ _ hb ha) _)
  | @between source _ _ _ _ c name hc hb ha =>
    exact hp.bindChange name (hattach (.between name source hb ha) (Change.blank.combine c))
  | attach hc hb ha => exact hp.bindChange _ (hattach (.attach _ hb ha) _)
  -- A change that is new or has been reset has no texts.
  | blank name => exact hp.bindChange name (sourced_blank 0)
  | edit name hc => exact hp.bindChange name (sourced_of_ofEdit hc)
  | clear hc => exact hp.bindChange _ (sourced_blank _)
  -- A change that is altered where it is keeps its texts.
  | withVersion version hc => exact hp.bindChange_self hc ⟨rfl, rfl⟩
  | combine hc hd => exact hp.bindChange_self hc ⟨rfl, rfl⟩
  -- A change under a new name has the texts of the one that it comes from, and the rest of a change
  -- that is taken away has none, under the old name.
  | union name hc hd => exact hp.bindChange name ((hp _ _ hc).of_sameTexts ⟨rfl, rfl⟩)
  | copy name hc => exact hp.bindChange name (hp _ _ hc)
  | take name hc =>
    exact (hp.bindChange _ (sourced_blank _)).bindChange name (hp _ _ hc)
  | snap | «alias» | ask | compare | present => exact hp

/-! ### Runs -/

theorem run_concat (s : Session) (commands : List Command) (command : Command) :
    (s.run (commands ++ [command])).1 = ((s.run commands).1.step command).1 := by
  rw [run_append]
  rfl

/-- A provenance that is true after some commands is true after more of them. -/
theorem Traced.run (h : Traced commands (start.run commands).1 p) {later : List Command}
    (hliteral : ∀ c ∈ later, c.isLiteral = false) :
    Traced (commands ++ later) (start.run (commands ++ later)).1
      (provenanceFrom (start.run commands).1 commands.length p later) := by
  induction later generalizing commands p with
  | nil =>
    rw [List.append_nil]
    exact h
  | cons command later ih =>
    have hstep : Traced (commands ++ [command]) (start.run (commands ++ [command])).1
        (match (start.run commands).1.exec command with
          | .ok _ => p.after commands.length command
          | .error _ => p) := by
      rw [run_concat]
      cases he : (start.run commands).1.exec command with
      | ok e =>
        rw [step_of_ok he]
        exact h.exec (hliteral command (List.mem_cons_self ..)) he
      | error f =>
        rw [step_of_error he]
        exact h.append [command]
    have hrun := ih hstep fun c hc => hliteral c (List.mem_cons_of_mem _ hc)
    rwa [run_concat, List.length_append, List.append_assoc] at hrun

theorem traced_run (hliteral : ∀ c ∈ commands, c.isLiteral = false) :
    Traced commands (start.run commands).1 (provenance commands) := by
  have hstart : Traced [] (start.run []).1 fun _ => none := nofun
  exact hstart.run hliteral

theorem change_of_exec_union {left right : String} {e : Effect}
    (h : s.exec (.union name left right) = .ok e) :
    ∃ c d, s.change left = .ok c ∧ s.change right = .ok d ∧
      e.session.change name = .ok (c.combine d) := by
  have hdone := succeeds_of_exec h
  generalize e.session = s', e.journal = journal at hdone ⊢
  cases hdone with
  | union name hc hd => exact ⟨_, _, hc, hd, change_bindChange_self s name _⟩

/-- A change that gathers in place is what its union with the other becomes under its own name. -/
theorem change_of_exec_combine {other : String} {e : Effect}
    (h : s.exec (.combine name other) = .ok e) :
    ∃ c d, s.change name = .ok c ∧ s.change other = .ok d ∧
      e.session.change name = .ok (c.combine d) := by
  have hunion : s.exec (.union name name other) = .ok e := h
  exact change_of_exec_union hunion

/-- **Texts come in pairs.** Whatever commands were done in a session, as long as no change was put
together part by part, each change has either no texts at all or the two that one command supplied,
the earlier one first. Its provenance is the place of this command. Gathering, in place or under
another name, gives a change with the texts of the one that gathers. -/
theorem texts_come_from_one_command (commands : List Command)
    (hliteral : ∀ c ∈ commands, c.isLiteral = false) :
    (∀ name c, (start.run commands).1.change name = .ok c →
      (provenance commands name = none ∧ c.beforeText = none ∧ c.afterText = none) ∨
        ∃ i command before after effect, provenance commands name = some i ∧
          commands[i]? = some command ∧
            (start.run (commands.take i)).1.exec command = .ok effect ∧
              (start.run (commands.take i)).1.Supplies command before after ∧
                c.beforeText = some before ∧ c.afterText = some after) ∧
      (∀ (s : Session) (name other : String) (e : Effect), s.exec (.combine name other) = .ok e →
        ∃ c d, s.change name = .ok c ∧ e.session.change name = .ok d ∧ d.SameTexts c) ∧
      ∀ (s : Session) (name left right : String) (e : Effect),
        s.exec (.union name left right) = .ok e →
          ∃ c d, s.change left = .ok c ∧ e.session.change name = .ok d ∧ d.SameTexts c := by
  refine ⟨?_, ?_, ?_⟩
  · intro name c hc
    have hsourced := traced_run hliteral name c hc
    cases hp : provenance commands name with
    | none =>
      rw [hp] at hsourced
      exact .inl ⟨rfl, hsourced⟩
    | some i =>
      rw [hp] at hsourced
      obtain ⟨command, b, a, e, hi, he, hsupplies, hb, ha⟩ := hsourced
      exact .inr ⟨i, command, b, a, e, rfl, hi, he, hsupplies, hb, ha⟩
  · intro s name other e he
    obtain ⟨c, d, hc, -, hname⟩ := change_of_exec_combine he
    exact ⟨c, c.combine d, hc, hname, c.beforeText_combine d, c.afterText_combine d⟩
  · intro s name left right e he
    obtain ⟨c, d, hc, -, hname⟩ := change_of_exec_union he
    exact ⟨c, c.combine d, hc, hname, c.beforeText_combine d, c.afterText_combine d⟩

/-- An edit between two texts is gathered by a change between two others, this one is taken away
and comes between two more, and the edit is not made again, for it would be too long. -/
def relay : List Command :=
  [.snap "old" (.plain "añb"), .snap "new" (.plain "ab"), .snap "last" (.plain "b"),
    .editBetween "edit" 1 1 0 "old" "new", .blank "pending", .attach "pending" "new" "last",
    .combine "pending" "edit", .union "both" "edit" "pending", .take "taken" "pending",
    .between "again" "taken" "last" "old", .editBetween "edit" 18446744073709551615 1 0 "old" "old",
    .copy "kept" "edit", .clear "both"]

theorem relay_texts_come_from_one_command :
    (∀ c ∈ relay, c.isLiteral = false) ∧ provenance relay "taken" = some 5 ∧
      provenance relay "pending" = none ∧ provenance relay "kept" = some 3 ∧
        ∃ c before after, (start.run relay).1.change "taken" = .ok c ∧
          (start.run (relay.take 5)).1.Supplies (.attach "pending" "new" "last") before after ∧
            c.beforeText = some before ∧ c.afterText = some after := by
  have hliteral : ∀ c ∈ relay, c.isLiteral = false := by decide
  have htaken : provenance relay "taken" = some 5 := rfl
  obtain ⟨c, hc⟩ : ∃ c, (start.run relay).1.change "taken" = .ok c := ⟨_, rfl⟩
  refine ⟨hliteral, htaken, rfl, rfl, c, ?_⟩
  rcases (texts_come_from_one_command relay hliteral).1 "taken" c hc with ⟨hnone, -⟩ | h
  · rw [htaken] at hnone
    cases hnone
  · obtain ⟨i, command, before, after, e, hi, hcommand, -, hsupplies, htexts⟩ := h
    rw [htaken] at hi
    cases hi
    cases hcommand
    exact ⟨before, after, hc, hsupplies, htexts⟩

end Session

end DirtyRegion
