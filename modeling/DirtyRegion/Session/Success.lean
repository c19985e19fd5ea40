import DirtyRegion.Session.Command
import DirtyRegion.Span.Lemmas

/-!
# Successes — all that a command can do in a session

`Session.Succeeds` relates a command to the session after it and the entries that it leaves, one rule
for each command, with all that the command needs as premises. `exec_eq_ok_iff` says that this is
what `Session.exec` does, so that proofs about commands that succeed need not open it.
-/

namespace DirtyRegion.Session

/-- The command does not fail, and there are this session and these entries after it. -/
inductive Succeeds (s : Session) : Command → Session → List Entry → Prop where
  | snap (name : String) (content : Content) :
      Succeeds s (.snap name content) (s.bindSnapshot name (s.freshSnapshot content)) []
  | alias {target : String} {t : Snapshot} (name : String) (ht : s.snapshot target = .ok t) :
      Succeeds s (.alias name target) (s.bindSnapshot name t) []
  | ask {snapshot : String} {query : Query} {t : Snapshot} {a : Query.Answer}
      (ht : s.snapshot snapshot = .ok t) (ha : query.ask t = .ok a) :
      Succeeds s (.ask snapshot query) s []
  | blank (name : String) : Succeeds s (.blank name) (s.bindChange name .blank) []
  | edit {start old new : Offset} {c : Change} (name : String)
      (hc : Change.ofEdit start old new = .ok c) :
      Succeeds s (.edit name start old new) (s.bindChange name c) []
  | editBetween {start old new : Offset} {before after : String} {b a : Snapshot} {c : Change}
      (name : String) (hb : s.snapshot before = .ok b) (ha : s.snapshot after = .ok a)
      (hc : Change.ofEdit start old new = .ok c) :
      Succeeds s (.editBetween name start old new before after) (s.bindChange name (c.attach b a))
        (c.journal [.attach b a])
  | between {source before after : String} {b a : Snapshot} {c : Change} (name : String)
      (hc : s.change source = .ok c) (hb : s.snapshot before = .ok b)
      (ha : s.snapshot after = .ok a) :
      Succeeds s (.between name source before after) (s.bindChange name (c.between b a))
        (Change.blank.journal (c.betweenSteps b a))
  | literal {before after : Span.Recipe} {beforeText afterText : Option String} {r r' : Span}
      {b a : Option Snapshot} (name : String) (version : Version) (hr : before.make = .ok r)
      (hr' : after.make = .ok r') (hb : s.snapshotOrNone beforeText = .ok b)
      (ha : s.snapshotOrNone afterText = .ok a) :
      Succeeds s (.literal name version before after beforeText afterText)
        (s.bindChange name ⟨⟨version, r, r'⟩, b, a⟩) []
  | withVersion {name : String} {c : Change} (version : Version) (hc : s.change name = .ok c) :
      Succeeds s (.withVersion name version) (s.bindChange name (c.withVersion version)) []
  | attach {name before after : String} {b a : Snapshot} {c : Change} (hc : s.change name = .ok c)
      (hb : s.snapshot before = .ok b) (ha : s.snapshot after = .ok a) :
      Succeeds s (.attach name before after) (s.bindChange name (c.attach b a))
        (c.journal [.attach b a])
  | clear {name : String} {c : Change} (hc : s.change name = .ok c) :
      Succeeds s (.clear name) (s.bindChange name c.clear) (c.journal [.clear])
  | combine {name other : String} {c d : Change} (hc : s.change name = .ok c)
      (hd : s.change other = .ok d) :
      Succeeds s (.combine name other) (s.bindChange name (c.combine d)) (c.journal [.combine d])
  | union {left right : String} {c d : Change} (name : String) (hc : s.change left = .ok c)
      (hd : s.change right = .ok d) :
      Succeeds s (.union name left right) (s.bindChange name (c.combine d))
        (c.journal [.combine d])
  | take {source : String} {c : Change} (name : String) (hc : s.change source = .ok c) :
      Succeeds s (.take name source) ((s.bindChange source c.take.2).bindChange name c.take.1)
        (c.journal [.take])
  | copy {source : String} {c : Change} (name : String) (hc : s.change source = .ok c) :
      Succeeds s (.copy name source) (s.bindChange name c) []
  | compare {left right : String} {c d : Change} (hc : s.change left = .ok c)
      (hd : s.change right = .ok d) : Succeeds s (.compare left right) s []
  | present {name : String} {c : Change} (hc : s.change name = .ok c) :
      Succeeds s (.present name) s []

variable {s s' : Session} {command : Command} {journal : List Entry}

/-- A name that a change was taken from means a change afterwards, too. -/
theorem exists_change_of_take (s : Session) (name source : String) (taken left : Change) :
    ∃ c, ((s.bindChange source left).bindChange name taken).change source = .ok c := by
  by_cases h : source = name
  · subst h
    exact ⟨taken, change_bindChange_self _ _ _⟩
  · exact ⟨left, (change_bindChange_of_ne _ _ h).trans (change_bindChange_self _ _ _)⟩

theorem succeeds_of_exec {e : Effect} (h : s.exec command = .ok e) :
    s.Succeeds command e.session e.journal := by
  cases command <;> simp only [exec, bind_eq_ok_iff] at h
  case snap name content =>
    cases h
    exact .snap name content
  case «alias» name target =>
    obtain ⟨t, ht, h⟩ := h
    cases h
    exact .alias name ht
  case ask snapshot query =>
    obtain ⟨t, ht, a, ha, h⟩ := h
    cases h
    exact .ask ht (spanning_eq_ok_iff.mp ha)
  case blank name =>
    cases h
    exact .blank name
  case edit name start old new =>
    obtain ⟨c, hc, h⟩ := h
    cases h
    exact .edit name (spanning_eq_ok_iff.mp hc)
  case editBetween name start old new before after =>
    obtain ⟨b, hb, a, ha, c, hc, h⟩ := h
    cases h
    exact .editBetween name hb ha (spanning_eq_ok_iff.mp hc)
  case between name source before after =>
    obtain ⟨c, hc, b, hb, a, ha, h⟩ := h
    cases h
    exact .between name hc hb ha
  case literal name version before after beforeText afterText =>
    obtain ⟨r, hr, r', hr', b, hb, a, ha, h⟩ := h
    cases h
    exact .literal name version (mapError_eq_ok_iff.mp hr) (mapError_eq_ok_iff.mp hr') hb ha
  case withVersion name version =>
    obtain ⟨c, hc, h⟩ := h
    cases h
    exact .withVersion version hc
  case attach name before after =>
    obtain ⟨c, hc, b, hb, a, ha, h⟩ := h
    cases h
    exact .attach hc hb ha
  case clear name =>
    obtain ⟨c, hc, h⟩ := h
    cases h
    exact .clear hc
  case combine name other =>
    obtain ⟨c, hc, d, hd, h⟩ := h
    cases h
    exact .combine hc hd
  case union name left right =>
    obtain ⟨c, hc, d, hd, h⟩ := h
    cases h
    exact .union name hc hd
  case take name source =>
    -- What the command shows of the change left behind plays no part here.
    obtain ⟨c, hc, last, -, h⟩ := h
    cases h
    exact .take name hc
  case copy name source =>
    obtain ⟨c, hc, h⟩ := h
    cases h
    exact .copy name hc
  case compare left right =>
    obtain ⟨c, hc, d, hd, h⟩ := h
    cases h
    exact .compare hc hd
  case present name =>
    obtain ⟨c, hc, h⟩ := h
    cases h
    exact .present hc

/-- **What commands do.** A command succeeds by its rule and by no other. -/
theorem exec_eq_ok_iff :
    (∃ outcome, s.exec command = .ok ⟨s', outcome, journal⟩) ↔ s.Succeeds command s' journal := by
  constructor
  · rintro ⟨outcome, h⟩
    exact succeeds_of_exec h
  · intro h
    cases h <;> simp only [exec, bind_eq_ok_iff]
    case snap name content => exact ⟨_, rfl⟩
    case «alias» name ht => exact ⟨_, _, ht, rfl⟩
    case ask ht ha => exact ⟨_, _, ht, _, spanning_eq_ok_iff.mpr ha, rfl⟩
    case blank name => exact ⟨_, rfl⟩
    case edit name hc => exact ⟨_, _, spanning_eq_ok_iff.mpr hc, rfl⟩
    case editBetween name hb ha hc => exact ⟨_, _, hb, _, ha, _, spanning_eq_ok_iff.mpr hc, rfl⟩
    case between name hc hb ha => exact ⟨_, _, hc, _, hb, _, ha, rfl⟩
    case literal name version hr hr' hb ha =>
      exact ⟨_, _, mapError_eq_ok_iff.mpr hr, _, mapError_eq_ok_iff.mpr hr', _, hb, _, ha, rfl⟩
    case withVersion version hc => exact ⟨_, _, hc, rfl⟩
    case attach hc hb ha => exact ⟨_, _, hc, _, hb, _, ha, rfl⟩
    case clear hc => exact ⟨_, _, hc, rfl⟩
    case combine hc hd => exact ⟨_, _, hc, _, hd, rfl⟩
    case union name hc hd => exact ⟨_, _, hc, _, hd, rfl⟩
    case take name hc =>
      obtain ⟨last, hlast⟩ := exists_change_of_take s name _ _ _
      exact ⟨_, _, hc, last, hlast, rfl⟩
    case copy name hc => exact ⟨_, _, hc, rfl⟩
    case compare hc hd => exact ⟨_, _, hc, _, hd, rfl⟩
    case present hc => exact ⟨_, _, hc, rfl⟩

end DirtyRegion.Session
