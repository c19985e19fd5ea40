import DirtyRegion.Change.Run
import DirtyRegion.Session.Basic

/-!
# Commands — what can be done in a session

A `Command` names its snapshots and changes. `Session.exec` does one command and gives the session
after it, an `Outcome`, and the journal entries that it left; or it fails, and then there is no
session after it. `Session.run` does commands from the left and goes on with the old session after
a failure.

Main statements: `step_of_error`, a failing command changes nothing and leaves no entry, and
`run_append`, which cuts a run in two.
-/

namespace DirtyRegion

/-- What can be done in a session. A command that makes or alters a change starts with the name that
the change has afterwards. -/
inductive Command where
  | snap (name : String) (content : Content)
  | alias (name target : String)
  | ask (snapshot : String) (query : Query)
  | blank (name : String)
  | edit (name : String) (start old new : Offset)
  | editBetween (name : String) (start old new : Offset) (before after : String)
  /-- A change gathered into an empty one, between two texts, gets a name. -/
  | between (name source before after : String)
  /-- A change given part by part gets a name. -/
  | literal (name : String) (version : Version) (before after : Span.Recipe)
      (beforeText afterText : Option String)
  | withVersion (name : String) (version : Version)
  | attach (name before after : String)
  | clear (name : String)
  | combine (name other : String)
  /-- What one change becomes when it gathers another gets a name. -/
  | union (name left right : String)
  /-- A change is taken away and gets a name. -/
  | take (name source : String)
  | copy (name source : String)
  /-- Two changes are compared, both ways round. -/
  | compare (left right : String)
  | present (name : String)

/-- What a command answers. -/
inductive Outcome where
  | length (n : Nat)
  | answer (a : Query.Answer)
  | view (v : View)
  /-- The change taken away and the change left behind. -/
  | taken (taken left : View)
  /-- Whether the first change equals the second, and the second the first. -/
  | equal (forth back : Bool)
  | showing (s : Showing)

/-- What a command brought about. -/
structure Effect where
  session : Session
  outcome : Outcome
  journal : List Entry

namespace Session

/-- A change under a name, as it is shown afterwards. -/
def stored (s : Session) (name : String) (c : Change) (journal : List Entry) : Effect :=
  ⟨s.bindChange name c, .view (s.view c), journal⟩

/-- A change that steps were done on, under a name. -/
def ran (s : Session) (name : String) (c : Change) (steps : List Step) : Effect :=
  s.stored name (c.run steps) (c.journal steps)

/-- Reads a result that fails for want of a span. -/
def spanning {α : Type} (r : Except SpanError α) : Except Failure α :=
  r.mapError fun e => .refused (.noSpan e)

def exec (s : Session) : Command → Except Failure Effect
  | .snap name content =>
    let t := s.freshSnapshot content
    .ok ⟨s.bindSnapshot name t, .length t.length, []⟩
  | .alias name target => do
    let t ← s.snapshot target
    .ok ⟨s.bindSnapshot name t, .length t.length, []⟩
  | .ask snapshot query => do
    let t ← s.snapshot snapshot
    let a ← spanning (query.ask t)
    .ok ⟨s, .answer a, []⟩
  | .blank name => .ok (s.stored name .blank [])
  | .edit name start old new => do
    let c ← spanning (Change.ofEdit start old new)
    .ok (s.stored name c [])
  | .editBetween name start old new before after => do
    let b ← s.snapshot before
    let a ← s.snapshot after
    let c ← spanning (Change.ofEdit start old new)
    .ok (s.ran name c [.attach b a])
  | .between name source before after => do
    let c ← s.change source
    let b ← s.snapshot before
    let a ← s.snapshot after
    .ok (s.ran name .blank (c.betweenSteps b a))
  | .literal name version before after beforeText afterText => do
    let before ← before.make.mapError .refused
    let after ← after.make.mapError .refused
    let b ← s.snapshotOrNone beforeText
    let a ← s.snapshotOrNone afterText
    .ok (s.stored name ⟨⟨version, before, after⟩, b, a⟩ [])
  | .withVersion name version => do
    let c ← s.change name
    .ok (s.stored name (c.withVersion version) [])
  | .attach name before after => do
    let c ← s.change name
    let b ← s.snapshot before
    let a ← s.snapshot after
    .ok (s.ran name c [.attach b a])
  | .clear name => do
    let c ← s.change name
    .ok (s.ran name c [.clear])
  | .combine name other => do
    let c ← s.change name
    let d ← s.change other
    .ok (s.ran name c [.combine d])
  | .union name left right => do
    let c ← s.change left
    let d ← s.change right
    .ok (s.ran name c [.combine d])
  | .take name source => do
    let c ← s.change source
    let (taken, left) := c.take
    -- The two names may be the same, and then it stands for what was taken.
    let after := (s.bindChange source left).bindChange name taken
    let last ← after.change source
    .ok ⟨after, .taken (after.view taken) (after.view last), c.journal [.take]⟩
  | .copy name source => do
    let c ← s.change source
    .ok (s.stored name c [])
  | .compare left right => do
    let c ← s.change left
    let d ← s.change right
    .ok ⟨s, .equal (c == d) (d == c), []⟩
  | .present name => do
    let c ← s.change name
    .ok ⟨s, .showing c.showing, []⟩

/-- What a command in a session answers, and the entries that it left. -/
structure Reply where
  result : Except Failure Outcome
  journal : List Entry

/-- Does one command, and goes on with the old session if it fails. -/
def step (s : Session) (c : Command) : Session × Reply :=
  match s.exec c with
  | .ok e => (e.session, ⟨.ok e.outcome, e.journal⟩)
  | .error f => (s, ⟨.error f, []⟩)

/-- Does commands from the left. -/
def run (s : Session) : List Command → Session × List Reply
  | [] => (s, [])
  | c :: rest =>
    let (next, reply) := s.step c
    let (last, replies) := next.run rest
    (last, reply :: replies)

/-! ### Failures -/

theorem spanning_eq_ok_iff {α : Type} {r : Except SpanError α} {a : α} :
    spanning r = .ok a ↔ r = .ok a :=
  mapError_eq_ok_iff

/-- A failing command changes nothing and leaves no entry. -/
theorem step_of_error {s : Session} {c : Command} {f : Failure} (h : s.exec c = .error f) :
    s.step c = (s, ⟨.error f, []⟩) := by
  simp [step, h]

theorem step_of_ok {s : Session} {c : Command} {e : Effect} (h : s.exec c = .ok e) :
    s.step c = (e.session, ⟨.ok e.outcome, e.journal⟩) := by
  simp [step, h]

/-! ### Cutting a run in two -/

theorem run_append (s : Session) (xs ys : List Command) :
    s.run (xs ++ ys) =
      (((s.run xs).1.run ys).1, (s.run xs).2 ++ ((s.run xs).1.run ys).2) := by
  induction xs generalizing s with
  | nil => rfl
  | cons c xs ih => simp [run, ih]

/-- Every command is answered. -/
theorem length_replies (s : Session) (commands : List Command) :
    (s.run commands).2.length = commands.length := by
  induction commands generalizing s with
  | nil => rfl
  | cons c commands ih => simp [run, ih]

end Session

end DirtyRegion
