import TypedVariant.Proofs.Signature.Reading
import TypedVariant.Signature.Cursor

/-!
# Reading from a cursor

A cursor that stands inside its text reads what the reader takes from the letters
behind it, and stands in front of what the reader has left.
-/

namespace TypedVariant.Signature.Cursor

variable {rules : Rules} {depth : Int} {simple : Bool} {c after : Cursor}

/-- A cursor inside its text has the letters from its position on before it. -/
theorem upcoming_of_nonneg (hstart : 0 ≤ c.position) :
    c.upcoming = c.text.toList.drop c.position.toNat := by
  simp [upcoming, remaining, Int.not_lt.mpr hstart]

theorem not_isOutside_of_nonneg (hstart : 0 ≤ c.position) : c.isOutside = false := by
  simp only [isOutside, decide_eq_false_iff_not]
  omega

/-- A cursor that stands before the letters of an admitted type reads that type. -/
theorem read_of_upcoming {type : SigType} {rest : List Char}
    (hstart : 0 ≤ c.position) (hadmits : Admits rules depth simple type)
    (hupcoming : c.upcoming = type.letters ++ rest) :
    c.read rules depth simple = (.ok type, c.advance rest) := by
  have hfits : ¬ rules.maxDepth < depth := Int.not_lt.mpr hadmits.depth_le
  rw [read, if_neg hfits, not_isOutside_of_nonneg hstart, hupcoming, readOne_letters hadmits]
  rfl

/-- A cursor that takes letters stands behind them, and they lie between its positions. -/
theorem advance_letters {letters rest : List Char} (hstart : 0 ≤ c.position)
    (hupcoming : c.upcoming = letters ++ rest) :
    (c.advance rest).position = c.position + letters.length ∧
      (c.text.toList.take (c.advance rest).position.toNat).drop c.position.toNat = letters := by
  have hposition : (c.advance rest).position = c.position + letters.length := by
    simp only [advance, hupcoming, List.length_append]
    omega
  refine ⟨hposition, ?_⟩
  have htake : (c.advance rest).position.toNat - c.position.toNat = letters.length := by omega
  rw [List.drop_take, htake, ← upcoming_of_nonneg hstart, hupcoming, List.take_left]

/-- A cursor that fails to read refuses its depth at once, or stops where the reader does. -/
theorem read_eq_error {e : Error} (hstart : 0 ≤ c.position)
    (hread : c.read rules depth simple = (.error e, after)) :
    (e = .tooDeep rules.maxDepth ∧ after = c) ∨
      ∃ refusal left, readOne rules depth simple (c.text.toList.drop c.position.toNat) =
          (.error refusal, left) ∧
        e = refusal.error rules.maxDepth c.text ∧ after = c.advance left := by
  unfold read at hread
  split at hread
  next =>
    obtain ⟨rfl, rfl⟩ : .tooDeep rules.maxDepth = e ∧ c = after := by simpa using hread
    exact .inl ⟨rfl, rfl⟩
  next =>
    rw [not_isOutside_of_nonneg hstart, upcoming_of_nonneg hstart] at hread
    cases hone : readOne rules depth simple (c.text.toList.drop c.position.toNat) with
    | mk outcome left =>
        cases outcome with
        | ok type => simp [hone, Except.mapError] at hread
        | error refusal =>
            obtain ⟨rfl, rfl⟩ : refusal.error rules.maxDepth c.text = e ∧
                c.advance left = after := by simpa [hone, Except.mapError] using hread
            exact .inr ⟨refusal, left, rfl, rfl, rfl⟩

end TypedVariant.Signature.Cursor
