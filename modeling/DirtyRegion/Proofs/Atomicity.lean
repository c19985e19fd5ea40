import DirtyRegion.Proofs.Binding
import DirtyRegion.Session.Command

/-!
# Atomicity — the change of an edit is made as a whole or not at all

An edit is refused when the end of what goes or the end of what comes is no offset. The two ends are
checked one after the other, so the first one that is no offset is the one that is named.

- `Overflows start old new e` says that an edit is refused with the error `e`.
- `EditRequest` is the request for the change of an edit under a name, with two texts or without.
- `Work` is work on a session and its entries, step by step, where a step that fails takes nothing
  back. `EditRequest.work` does a request in this way.

Main statements: `Change.ofEdit_eq_error_iff`, `EditRequest.run_work` (step by step, a request comes to
what `Session.exec` makes of it at once), `Session.run_refused` (a command that fails leaves no trace
in a run) and `edits_are_atomic`.
-/

namespace DirtyRegion

section Defs

/-- An edit is refused: what goes ends at no offset, or else what comes does. -/
inductive Overflows (start old new : Offset) : SpanError → Prop where
  | old (h : offsetCount ≤ start.toNat + old.toNat) :
    Overflows start old new (.lengthOverflow start old)
  | new (hold : start.toNat + old.toNat < offsetCount)
    (hnew : offsetCount ≤ start.toNat + new.toNat) :
    Overflows start old new (.lengthOverflow start new)

/-- The change has what an edit gives it: two spans from `start` on, and nothing else. -/
structure Change.IsEdit (start old new : Offset) (c : Change) : Prop where
  before_start : c.before.start = start
  before_stop : c.before.stop.toNat = start.toNat + old.toNat
  after_start : c.after.start = start
  after_stop : c.after.stop.toNat = start.toNat + new.toNat
  version : c.version = 0
  beforeText : c.beforeText = none
  afterText : c.afterText = none
  isEmpty_iff : c.isEmpty = true ↔ old = 0 ∧ new = 0

/-- A session with the entries that were left in it so far. -/
structure Ledger where
  session : Session
  journal : List Entry

/-- Work on a ledger. A step may fail, and what was done before it stays done. -/
abbrev Work := ExceptT Failure (StateM Ledger)

namespace Work

/-- Looks at the session. -/
def look {α : Type} (f : Session → Except Failure α) : Work α :=
  fun w => (f w.session, w)

def write (e : Entry) : Work Unit :=
  fun w => (.ok (), { w with journal := w.journal ++ [e] })

def store (name : String) (c : Change) : Work Unit :=
  fun w => (.ok (), { w with session := w.session.bindChange name c })

/-- The change of an edit, one span after the other. -/
def edit (start old new : Offset) : Work Change := do
  let before ← look fun _ => Session.spanning (Span.ofLength start old)
  let after ← look fun _ => Session.spanning (Span.ofLength start new)
  return .ofExtent ⟨0, before, after⟩

end Work

/-- A request for the change of an edit. -/
structure EditRequest where
  /-- The name that the change gets. -/
  name : String
  start : Offset
  old : Offset
  new : Offset
  /-- The names of the two texts that the change is attached to, if there are any. -/
  texts : Option (String × String)

namespace EditRequest

def command (k : EditRequest) : Command :=
  match k.texts with
  | none => .edit k.name k.start k.old k.new
  | some (before, after) => .editBetween k.name k.start k.old k.new before after

/-- The request done step by step: the texts are looked up, the spans are made, the attaching is
written down, and the change gets its name. -/
def work (k : EditRequest) : Work Unit :=
  match k.texts with
  | none => do
    let c ← Work.edit k.start k.old k.new
    Work.store k.name c
  | some (before, after) => do
    let b ← Work.look (·.snapshot before)
    let a ← Work.look (·.snapshot after)
    let c ← Work.edit k.start k.old k.new
    Work.write ((Step.attach b a).entry c)
    Work.store k.name (c.attach b a)

/-- The texts of the request have names in the session. -/
def Ready (k : EditRequest) (s : Session) : Prop :=
  ∀ p ∈ k.texts, (∃ b, s.snapshot p.1 = .ok b) ∧ ∃ a, s.snapshot p.2 = .ok a

end EditRequest

end Defs

/-! ### Which edits are refused -/

section Edits

variable {start old new : Offset} {e : SpanError} {c : Change}

/-- Both ends are offsets, or there is an error. -/
theorem lt_or_overflows (start old new : Offset) :
    (start.toNat + old.toNat < offsetCount ∧ start.toNat + new.toNat < offsetCount) ∨
      ∃ e, Overflows start old new e := by
  rcases Nat.lt_or_ge (start.toNat + old.toNat) offsetCount with hold | hold
  · rcases Nat.lt_or_ge (start.toNat + new.toNat) offsetCount with hnew | hnew
    · exact .inl ⟨hold, hnew⟩
    · exact .inr ⟨_, .new hold hnew⟩
  · exact .inr ⟨_, .old hold⟩

theorem Extent.ofEdit_of_overflows (h : Overflows start old new e) :
    ofEdit start old new = .error e := by
  cases h with
  | old h =>
    rw [ofEdit, Span.ofLength_of_le h]
    rfl
  | new hold hnew =>
    rw [ofEdit, Span.ofLength_of_lt hold, Span.ofLength_of_le hnew]
    rfl

namespace Change

theorem ofEdit_of_overflows (h : Overflows start old new e) : ofEdit start old new = .error e := by
  rw [ofEdit, Extent.ofEdit_of_overflows h]
  rfl

theorem isEdit_of_ofEdit (h : ofEdit start old new = .ok c) : c.IsEdit start old new := by
  obtain ⟨x, hx, rfl⟩ := ofEdit_eq_ok_iff.mp h
  obtain ⟨hversion, hbefore, hafter⟩ := Extent.ofEdit_eq_ok_iff.mp hx
  obtain ⟨hbs, hbe⟩ := Span.ofLength_eq_ok_iff.mp hbefore
  obtain ⟨has, hae⟩ := Span.ofLength_eq_ok_iff.mp hafter
  exact ⟨hbs, hbe, has, hae, hversion, rfl, rfl, Extent.isEmpty_of_ofEdit hx⟩

/-- **An edit is refused** exactly if an end is no offset, and with the error for the first such. -/
theorem ofEdit_eq_error_iff : ofEdit start old new = .error e ↔ Overflows start old new e := by
  refine ⟨?_, ofEdit_of_overflows⟩
  intro h
  rcases lt_or_overflows start old new with ⟨hold, hnew⟩ | ⟨e', he'⟩
  · rw [ofEdit, Extent.ofEdit_of_lt hold hnew] at h
    cases h
  · rw [ofEdit_of_overflows he'] at h
    cases h
    exact he'

theorem exists_ofEdit_iff :
    (∃ c, ofEdit start old new = .ok c) ↔
      start.toNat + max old.toNat new.toNat < offsetCount := by
  constructor
  · rintro ⟨c, hc⟩
    have hedit := isEdit_of_ofEdit hc
    have hbefore := hedit.before_stop ▸ c.before.toNat_stop_lt
    have hafter := hedit.after_stop ▸ c.after.toNat_stop_lt
    omega
  · intro h
    have hold : start.toNat + old.toNat < offsetCount := by omega
    have hnew : start.toNat + new.toNat < offsetCount := by omega
    exact ⟨_, ofEdit_eq_ok_iff.mpr ⟨_, Extent.ofEdit_of_lt hold hnew, rfl⟩⟩

/-- Texts play no part in what is refused. -/
theorem ofEditBetween_eq_error_iff {before after : Snapshot} :
    ofEditBetween start old new before after = .error e ↔ Overflows start old new e := by
  rw [← ofEdit_eq_error_iff, ofEditBetween]
  cases ofEdit start old new with
  | error e' => rfl
  | ok c => constructor <;> intro h <;> cases h

end Change

end Edits

/-! ### Step by step -/

namespace Work

variable {α β : Type}

/-- After a look the work goes on with the ledger as it was, or ends with it. -/
theorem run_look_bind (f : Session → Except Failure α) (g : α → Work β) (w : Ledger) :
    (look f >>= g).run.run w = match f w.session with
      | .ok a => (g a).run.run w
      | .error e => (.error e, w) := by
  have hlook : (look f).run.run w = (f w.session, w) := rfl
  rw [ExceptT.run_bind, StateT.run_bind, hlook]
  cases f w.session <;> rfl

/-- Making the spans of an edit is no more than two looks. -/
theorem run_edit_bind (start old new : Offset) (g : Change → Work β) (w : Ledger) :
    (edit start old new >>= g).run.run w = match Session.spanning (Change.ofEdit start old new) with
      | .ok c => (g c).run.run w
      | .error e => (.error e, w) := by
  rw [edit, bind_assoc, run_look_bind, Change.ofEdit, Extent.ofEdit]
  cases Span.ofLength start old with
  | error e => rfl
  | ok before =>
    dsimp only [Session.spanning, Except.mapError]
    rw [bind_assoc, run_look_bind]
    cases Span.ofLength start new with
    | error e => rfl
    | ok after => rfl

end Work

/-- **Step by step or at once.** A request comes to the same either way: where it fails, no step has
left anything behind that would have to be taken back. -/
theorem EditRequest.run_work (k : EditRequest) (w : Ledger) :
    k.work.run.run w = match w.session.exec k.command with
      | .ok effect => (.ok (), ⟨effect.session, w.journal ++ effect.journal⟩)
      | .error f => (.error f, w) := by
  obtain ⟨name, start, old, new, texts⟩ := k
  cases texts with
  | none =>
    simp only [work, command, Session.exec]
    rw [Work.run_edit_bind]
    cases Change.ofEdit start old new with
    | error e => rfl
    | ok c =>
      have hjournal : w.journal = w.journal ++ [] := (List.append_nil _).symm
      exact congrArg (fun j => (Except.ok (), Ledger.mk (w.session.bindChange name c) j)) hjournal
  | some p =>
    obtain ⟨before, after⟩ := p
    simp only [work, command, Session.exec]
    -- The texts are looked up first, so a missing one fails the request before its spans do.
    rw [Work.run_look_bind]
    cases w.session.snapshot before with
    | error f => rfl
    | ok b =>
      dsimp only
      rw [Work.run_look_bind]
      cases w.session.snapshot after with
      | error f => rfl
      | ok a =>
        dsimp only
        rw [Work.run_edit_bind]
        cases Change.ofEdit start old new with
        | error e => rfl
        | ok c => rfl

/-! ### Requests in a session -/

namespace EditRequest

variable {k : EditRequest} {s : Session} {e : SpanError} {f : Failure} {effect : Effect}

/-- Once the texts are there, a request hangs on its edit alone. -/
theorem exec_eq (h : k.Ready s) :
    ∃ finish : Change → Effect,
      s.exec k.command = (Session.spanning (Change.ofEdit k.start k.old k.new)).map finish ∧
        ∀ c, ((finish c).journal = [] ↔ k.texts = none) ∧
          ∃ d, (finish c).session = s.bindChange k.name d ∧ d.toExtent = c.toExtent := by
  obtain ⟨name, start, old, new, texts⟩ := k
  cases texts with
  | none => exact ⟨fun c => s.stored name c [], rfl, fun c => ⟨by simp [Session.stored], c, rfl, rfl⟩⟩
  | some p =>
    obtain ⟨before, after⟩ := p
    obtain ⟨⟨b, hb⟩, a, ha⟩ := h (before, after) rfl
    refine ⟨fun c => s.ran name c [.attach b a], ?_, fun c => ⟨?_, c.attach b a, rfl, rfl⟩⟩
    · simp only [command, Session.exec, hb, ha]
      rfl
    · simp [Session.ran, Session.stored, Change.journal]

theorem exec_eq_error_iff (h : k.Ready s) :
    s.exec k.command = .error f ↔
      ∃ e, Overflows k.start k.old k.new e ∧ f = .refused (.noSpan e) := by
  obtain ⟨finish, hexec, -⟩ := exec_eq h
  simp only [hexec, ← Change.ofEdit_eq_error_iff]
  cases Change.ofEdit k.start k.old k.new with
  | error e => simp [Session.spanning, Except.mapError, Except.map, eq_comm]
  | ok c => simp [Session.spanning, Except.mapError, Except.map]

/-- A request that succeeds gives its name to a change with the spans of its edit, and leaves an entry
if it has texts to attach. -/
theorem exists_of_exec (h : k.Ready s) (he : s.exec k.command = .ok effect) :
    (effect.journal = [] ↔ k.texts = none) ∧
      ∃ c d, Change.ofEdit k.start k.old k.new = .ok c ∧
        effect.session = s.bindChange k.name d ∧ d.toExtent = c.toExtent := by
  obtain ⟨finish, hexec, hfinish⟩ := exec_eq h
  rw [hexec, map_eq_ok_iff] at he
  obtain ⟨c, hc, rfl⟩ := he
  obtain ⟨hjournal, d, hsession, hextent⟩ := hfinish c
  exact ⟨hjournal, c, d, Session.spanning_eq_ok_iff.mp hc, hsession, hextent⟩

end EditRequest

/-- **A command that fails leaves no trace** in a run but its own reply: all other commands answer as
they do without it, and the session is the same in the end. -/
theorem Session.run_refused {s : Session} {earlier later : List Command} {command : Command}
    {f : Failure} (h : (s.run earlier).1.exec command = .error f) :
    ∃ last before after, s.run (earlier ++ later) = (last, before ++ after) ∧
      before.length = earlier.length ∧
        s.run (earlier ++ command :: later) = (last, before ++ ⟨.error f, []⟩ :: after) := by
  refine ⟨_, _, _, run_append s earlier later, length_replies s earlier, ?_⟩
  rw [run_append, run, step_of_error h]

/-- **An edit is made as a whole or not at all.** There is a change of an edit exactly if its greater
end is an offset. Then it has the two spans of the edit and nothing else, and otherwise the error
names the first end that is no offset; two texts make no difference to that. A request in a session
whose texts are there fails for this reason alone, and if it does not fail, it binds its name, with an
entry exactly if there are texts to attach. A request that fails has the session and the entries that
were there before, also if it is done step by step, and in a run of commands only its own reply shows
that it was there. -/
theorem edits_are_atomic :
    (∀ start old new : Offset,
      ((∃ c, Change.ofEdit start old new = .ok c) ↔
        start.toNat + max old.toNat new.toNat < offsetCount) ∧
      (∀ c, Change.ofEdit start old new = .ok c → c.IsEdit start old new) ∧
      (∀ e, Change.ofEdit start old new = .error e ↔ Overflows start old new e) ∧
      ∀ (before after : Snapshot) (e : SpanError),
        Change.ofEditBetween start old new before after = .error e ↔
          Change.ofEdit start old new = .error e) ∧
    (∀ (k : EditRequest) (s : Session), k.Ready s →
      (∀ f, s.exec k.command = .error f ↔
        ∃ e, Overflows k.start k.old k.new e ∧ f = .refused (.noSpan e)) ∧
      ∀ effect, s.exec k.command = .ok effect →
        (effect.journal = [] ↔ k.texts = none) ∧
          ∃ c d, Change.ofEdit k.start k.old k.new = .ok c ∧
            effect.session = s.bindChange k.name d ∧ d.toExtent = c.toExtent) ∧
    (∀ (k : EditRequest) (w : Ledger) (f : Failure), w.session.exec k.command = .error f →
      k.work.run.run w = (.error f, w) ∧
        w.session.step k.command = (w.session, ⟨.error f, []⟩)) ∧
    ∀ (k : EditRequest) (s : Session) (earlier later : List Command) (f : Failure),
      (s.run earlier).1.exec k.command = .error f →
        (s.run (earlier ++ [k.command])).1 = (s.run earlier).1 ∧
        ∃ last before after, s.run (earlier ++ later) = (last, before ++ after) ∧
          before.length = earlier.length ∧
            s.run (earlier ++ k.command :: later) = (last, before ++ ⟨.error f, []⟩ :: after) := by
  refine ⟨?_, ?_, ?_, ?_⟩
  · intro start old new
    refine ⟨Change.exists_ofEdit_iff, fun c => Change.isEdit_of_ofEdit,
      fun e => Change.ofEdit_eq_error_iff, fun before after e => ?_⟩
    rw [Change.ofEditBetween_eq_error_iff, Change.ofEdit_eq_error_iff]
  · intro k s h
    exact ⟨fun f => EditRequest.exec_eq_error_iff h, fun effect => EditRequest.exists_of_exec h⟩
  · intro k w f h
    refine ⟨?_, Session.step_of_error h⟩
    rw [EditRequest.run_work, h]
  · intro k s earlier later f h
    refine ⟨?_, Session.run_refused h⟩
    rw [Session.run_append, Session.run, Session.step_of_error h]
    rfl

/-- A session with one text, and with a change under the name that is asked for below. -/
def drafting : Session :=
  (Session.start.bindSnapshot "page" ⟨0, .plain "draft"⟩).bindChange "draft"
    (Change.blank.withVersion 3)

/-- A request for an edit of the page from the last offset but one on. -/
def atTheLimit (old new : Offset) : EditRequest :=
  ⟨"draft", 18446744073709551614, old, new, some ("page", "page")⟩

/-- One character is no longer than what is left at the limit, and two are. Where both ends are no
offsets, the one of what goes is named, and the draft stays as it was. -/
theorem atTheLimit_edits_are_atomic :
    (∃ c, Change.ofEdit 18446744073709551614 1 1 = .ok c ∧
      c.IsEdit 18446744073709551614 1 1) ∧
    (atTheLimit 2 3).Ready drafting ∧
    drafting.exec (atTheLimit 2 3).command =
      .error (.refused (.noSpan (.lengthOverflow 18446744073709551614 2))) ∧
    drafting.exec (atTheLimit 1 3).command =
      .error (.refused (.noSpan (.lengthOverflow 18446744073709551614 3))) ∧
    (∃ effect, drafting.exec (atTheLimit 1 1).command = .ok effect ∧ effect.journal ≠ []) ∧
    (atTheLimit 2 3).work.run.run ⟨drafting, []⟩ =
      (.error (.refused (.noSpan (.lengthOverflow 18446744073709551614 2))), ⟨drafting, []⟩) ∧
    (drafting.run [(atTheLimit 2 3).command]).1.change "draft" =
      .ok (Change.blank.withVersion 3) := by
  obtain ⟨hedit, hrequest, hwork, hrun⟩ := edits_are_atomic
  have hready : ∀ old new, (atTheLimit old new).Ready drafting := by
    rintro old new p hp
    obtain rfl := Option.some.inj hp
    exact ⟨⟨_, rfl⟩, _, rfl⟩
  have hold := ((hrequest _ _ (hready 2 3)).1 _).mpr ⟨_, .old (by decide), rfl⟩
  have hnew := ((hrequest _ _ (hready 1 3)).1 _).mpr ⟨_, .new (by decide) (by decide), rfl⟩
  obtain ⟨c, hc⟩ := (hedit 18446744073709551614 1 1).1.mpr (by decide)
  refine ⟨⟨c, hc, (hedit _ _ _).2.1 c hc⟩, hready 2 3, hold, hnew, ?_, ?_, ?_⟩
  · refine ⟨_, rfl, ?_⟩
    rw [Ne, ((hrequest _ _ (hready 1 1)).2 _ rfl).1]
    exact nofun
  · exact (hwork (atTheLimit 2 3) ⟨drafting, []⟩ _ hold).1
  · have hkept := (hrun (atTheLimit 2 3) drafting [] [] _ hold).1
    rw [List.nil_append] at hkept
    rw [hkept]
    exact Session.change_bindChange_self _ _ _

end DirtyRegion
