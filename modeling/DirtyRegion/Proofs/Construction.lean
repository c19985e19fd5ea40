import DirtyRegion.Proofs.NormalForm

/-!
# Construction — all ways to a span agree

Two bounds can be given one after the other, as a pair, or in a JSON text, and a span can also be
given by its start and its length. Bounds are compared and a sum is checked, so the ways do not fail
alike; but they agree on which spans there are, and a sum that wraps would give bounds that every
other way refuses.

- `Json.plainTexts` are the ways to write two bounds in JSON without blanks.
- `Span.EveryWay start stop r` says that `r` is what all ways to give two bounds come to.

Main statements: `everyWay` (the one comparison decides), `ofLength_eq_ofBounds` (so it does for a
sum that is an offset) and `ways_agree`.
-/

namespace DirtyRegion

namespace Json

/-- Two bounds in JSON without blanks: an object, with its keys in either order, and an array. -/
def plainTexts (start stop : Offset) : List String :=
  ["\x7b\"start\":" ++ start.toNat.repr ++ ",\"end\":" ++ stop.toNat.repr ++ "\x7d",
    "\x7b\"end\":" ++ stop.toNat.repr ++ ",\"start\":" ++ start.toNat.repr ++ "\x7d",
    "[" ++ start.toNat.repr ++ "," ++ stop.toNat.repr ++ "]"]

theorem denotes_plainTexts {start stop : Offset} {t : String} (h : t ∈ plainTexts start stop) :
    Denotes start stop t.toList := by
  simp only [plainTexts, List.mem_cons, List.not_mem_nil, or_false] at h
  rcases h with rfl | rfl | rfl
  · have hobject := Denotes.object (members_of_fields .start .stop start stop) (.refl _)
    simpa [Field.key] using hobject
  · have hobject := Denotes.object (members_of_fields .stop .start stop start) (.swap ..)
    simpa [Field.key] using hobject
  · have harray := Denotes.array (.of_core (offsetLiteral_repr start))
      (.of_core (offsetLiteral_repr stop))
    simpa using harray

end Json

namespace Span

/-- All ways to give two bounds come to `r`: one after the other, as a pair, and in every JSON text
that denotes them. -/
structure EveryWay (start stop : Offset) (r : Except SpanError Span) : Prop where
  bounds : ofBounds start stop = r
  pair : ofPair (start, stop) = r
  json : ∀ t : String, Json.Padded (Json.Denotes start stop) t.toList →
    Json.readSpan t = r.mapError fun e => .unfit (.noSpan e)

variable {start stop n : Offset}

/-! ### Two bounds -/

/-- The comparison of the bounds decides for all ways. -/
theorem everyWay (start stop : Offset) : EveryWay start stop (ofBounds start stop) where
  bounds := rfl
  pair := rfl
  json _ h := Json.readSpan_eq_checkBounds h

theorem everyWay_of_le (h : start ≤ stop) : EveryWay start stop (.ok ⟨start, stop, h⟩) :=
  ofBounds_of_le h ▸ everyWay start stop

theorem everyWay_of_lt (h : stop < start) :
    EveryWay start stop (.error (.endBeforeStart start stop)) :=
  ofBounds_of_lt h ▸ everyWay start stop

/-! ### A start and a length -/

/-- A length comes to the same as the bounds that it leads to, if there are such bounds. -/
theorem ofLength_eq_ofBounds (h : start.toNat + n.toNat < offsetCount) :
    ofLength start n = ofBounds start (start + n) := by
  rw [ofLength_of_lt h, ofBounds_of_le (Offset.le_add_of_lt h)]

/-- **All ways to a span agree.** Two bounds give the same span one after the other, as a pair and in
JSON, and are the bounds of that span, unless they run backwards; then all ways name them as the
cause, and JSON does so in the words of the cause. A start and a length give the span of that length
up to their sum if the sum is an offset. If it is not, they are named as the cause, and the bounds
with the wrapped sum would have been refused as well. -/
theorem ways_agree :
    (∀ start stop : Offset,
      (∀ t ∈ Json.plainTexts start stop, Json.Padded (Json.Denotes start stop) t.toList) ∧
      (start ≤ stop → ∃ r : Span, r.bounds = (start, stop) ∧ EveryWay start stop (.ok r)) ∧
      (stop < start → ∃ e, e = SpanError.endBeforeStart start stop ∧
        EveryWay start stop (.error e) ∧ (Json.Mismatch.noSpan e).message = e.message)) ∧
    ∀ start n : Offset,
      (start.toNat + n.toNat < offsetCount → ∃ r stop, ofLength start n = .ok r ∧ r.length = n ∧
        stop.toNat = start.toNat + n.toNat ∧ EveryWay start stop (.ok r)) ∧
      (offsetCount ≤ start.toNat + n.toNat →
        ofLength start n = .error (.lengthOverflow start n) ∧
        ∃ stop, stop.toNat = (start.toNat + n.toNat) % offsetCount ∧
          EveryWay start stop (.error (.endBeforeStart start stop))) := by
  constructor
  · intro start stop
    refine ⟨fun t ht => .of_core (Json.denotes_plainTexts ht), ?_, ?_⟩
    · intro h
      exact ⟨_, rfl, everyWay_of_le h⟩
    · intro h
      exact ⟨_, rfl, everyWay_of_lt h, rfl⟩
  · intro start n
    constructor
    · intro h
      have hok := ofLength_of_lt h
      have hbounds : ofBounds start (start + n) = _ := (ofLength_eq_ofBounds h).symm.trans hok
      exact ⟨_, _, hok, length_of_ofLength hok, Offset.toNat_add_of_lt h,
        hbounds ▸ everyWay start (start + n)⟩
    · intro h
      exact ⟨ofLength_of_le h, _, Offset.toNat_add_mod start n,
        everyWay_of_lt (Offset.add_lt_of_le h)⟩

/-- Bounds in order, the same bounds backwards, and the last offset with one character behind it. -/
theorem ways_agree_at_the_ends :
    (∃ r : Span, r.bounds = (2, 9) ∧ ofPair (2, 9) = .ok r ∧
      Json.readSpan "\x7b\"end\":9,\"start\":2\x7d" = .ok r) ∧
    (∃ e, Json.readSpan "[9,2]" = .error (.unfit (.noSpan e)) ∧ ofBounds 9 2 = .error e ∧
      (Json.Mismatch.noSpan e).message = "invalid range: end 2 is before start 9") ∧
    (∃ r : Span, ofLength 18446744073709551615 0 = .ok r ∧ r.length = 0) ∧
    ofLength 18446744073709551615 1 = .error (.lengthOverflow 18446744073709551615 1) ∧
    ∃ stop : Offset, stop.toNat = 0 ∧
      ofBounds 18446744073709551615 stop = .error (.endBeforeStart 18446744073709551615 stop) := by
  obtain ⟨hbounds, hlength⟩ := ways_agree
  obtain ⟨htexts, hforth, -⟩ := hbounds 2 9
  obtain ⟨htexts', -, hback⟩ := hbounds 9 2
  obtain ⟨r, hr, hway⟩ := hforth (by decide)
  obtain ⟨e, rfl, hway', hmessage⟩ := hback (by decide)
  obtain ⟨q, -, hq, hqlength, -, -⟩ := (hlength 18446744073709551615 0).1 (by decide)
  obtain ⟨hover, stop, hstop, hwrapped⟩ := (hlength 18446744073709551615 1).2 (by decide)
  refine ⟨⟨r, hr, hway.pair, ?_⟩, ⟨_, ?_, hway'.bounds, hmessage⟩, ⟨q, hq, hqlength⟩, hover,
    stop, hstop, hwrapped.bounds⟩
  · exact hway.json _ (htexts _ (by decide))
  · exact hway'.json _ (htexts' _ (by decide))

end Span

end DirtyRegion
