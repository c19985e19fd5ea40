import DirtyRegion.Span.Basic

/-!
# Sweeps — spans taken in one after another

A `Sweep` takes in spans one at a time. It keeps the cover of all spans so far and the different
spans it has met, each once and in the order of their first coming. `Sweep.add` also reports what
the new span did: the new cover, whether the span met the old one, and whether it was new.
-/

namespace DirtyRegion

/-- The spans taken in so far. -/
structure Sweep where
  /-- The cover of all spans so far, if there was one. -/
  cover? : Option Span
  /-- The different spans so far, in the order of their first coming. -/
  seen : List Span
  deriving DecidableEq, Repr

namespace Sweep

/-- What taking in one span did. -/
structure Report where
  /-- The cover of all spans up to and with this one. -/
  cover : Span
  /-- The span shares an offset with the cover before it; `none` for the first span. -/
  hit : Option Bool
  /-- The span had not come before. -/
  fresh : Bool
  deriving DecidableEq, Repr

def start : Sweep := ⟨none, []⟩

/-- The cover when `r` comes after the cover `c`. -/
def extend (c : Option Span) (r : Span) : Span :=
  match c with
  | none => r
  | some s => s.cover r

def add (w : Sweep) (r : Span) : Sweep × Report :=
  let cover := extend w.cover? r
  let fresh := !w.seen.contains r
  (⟨some cover, if fresh then w.seen ++ [r] else w.seen⟩,
    ⟨cover, w.cover?.map (·.intersects r), fresh⟩)

/-- Takes in spans from the left, where some attempts bring an error in place of a span. Each
attempt is answered, and an error leaves the sweep as it is. -/
def run {ε : Type} : Sweep → List (Except ε Span) → Sweep × List (Except ε Report)
  | w, [] => (w, [])
  | w, .error e :: rest =>
    let (last, reports) := run w rest
    (last, .error e :: reports)
  | w, .ok r :: rest =>
    let (next, report) := w.add r
    let (last, reports) := run next rest
    (last, .ok report :: reports)

def distinct (w : Sweep) : Nat :=
  w.seen.length

end Sweep

end DirtyRegion
