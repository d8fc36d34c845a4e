import TypedVariant.Proofs.Double.Nearest
import TypedVariant.Proofs.Native.Sameness
import TypedVariant.Proofs.Text.Numeral
import TypedVariant.Proofs.Variant.Building

/-!
# Which numbers make variants

Conversions to numbers are lenient about kinds and the comparison behind them is not: it
is exact, and holds between numbers alone. So an integer constructor answers by the number
that a value is, whatever its kind, and each value has one of three outcomes. The double
constructor would do the same if the value that is no number were equal to itself; as it is
not, a buffer or view that spells it is let through.
-/

namespace TypedVariant

namespace Native

variable {x : Native} {z : Int}

/-! ## Integers -/

/-- The number that a truth value, an integer or a finite double is. -/
def numericValue? : Native → Option ℚ
  | bool value => some (if value then 1 else 0)
  | int value => some value
  | double value => value.value?
  | _ => none

/-- The comparison behind a conversion holds exactly for the integer that the value is. -/
theorem isNumber_iff : x.isNumber z = true ↔ x.numericValue? = some (z : ℚ) := by
  have hwhole (w : Int) : (z == w) = true ↔ some (w : ℚ) = some (z : ℚ) := by
    rw [beq_iff_eq, Option.some_inj, Int.cast_inj, eq_comm]
  cases x with
  | bool value =>
      rw [numericValue?, show (if value then (1 : ℚ) else 0) = ((if value then 1 else 0 : Int) : ℚ)
        by cases value <;> simp]
      exact hwhole _
  | int value => exact hwhole value
  | double value => exact beq_iff_eq.trans Double.value?_eq_intCast_iff.symm
  | _ => exact iff_of_false Bool.false_ne_true (Option.some_ne_none _).symm

theorem toInt?_of_isNumber (hnumber : x.isNumber z = true) : x.toInt? = some z := by
  cases x with
  | bool value =>
      obtain rfl := beq_iff_eq.mp hnumber
      rfl
  | int value =>
      obtain rfl := beq_iff_eq.mp hnumber
      rfl
  | double value => exact Double.truncate?_of_whole? (beq_iff_eq.mp hnumber)
  | _ => cases hnumber

theorem asInteger_of_numericValue? (code : IntegerCode) (hvalue : x.numericValue? = some (z : ℚ)) :
    x.asInteger code =
      if z < code.low ∨ code.high < z then .error (.integerRange code) else .ok z := by
  have hnumber := isNumber_iff.mpr hvalue
  rw [asInteger, toInt?_of_isNumber hnumber]
  dsimp only
  rw [hnumber, if_neg (by decide)]

/-- Text, bytes and everything else that is no integer is refused, whatever it converts to. -/
theorem asInteger_of_not_integer (code : IntegerCode)
    (hvalue : ∀ z : Int, x.numericValue? ≠ some (z : ℚ)) :
    (x.asInteger code).mapError Error.kind = .error .unsupportedValue := by
  unfold asInteger
  split
  next => rfl
  next z _ =>
    have hnumber : x.isNumber z = false := by
      rw [← Bool.not_eq_true, isNumber_iff]
      exact hvalue z
    rw [hnumber, if_pos (by rfl)]
    rfl

/-! ## Doubles -/

/-- The double that a value holds exactly: a double itself, and of a truth value or an integer the
one that is this number, where zero is the positive one. -/
def HoldsDouble (x : Native) (d : Double) : Prop :=
  match x.number? with
  | some (.real value) => d = value
  | some (.whole z) => d.value? = some (z : ℚ) ∧ (z = 0 → d = .zero)
  | none => False

/-- An integer that rounds to infinity. -/
def ExceedsDoubles (x : Native) : Prop :=
  ∃ z : Int, x.number? = some (.whole z) ∧ Double.overflowBound ≤ z.natAbs

/-- A buffer or view whose bytes spell the value that is no number. -/
def SpellsNaN : Native → Prop
  | blob .growable data | blob .view data => Numeral.SpellsNaN (charsOf data)
  | _ => False

theorem ofInt_eq_ok_iff {d : Double} :
    asDouble.ofInt x z = .ok d ↔ d.value? = some (z : ℚ) ∧ (z = 0 → d = .zero) := by
  rw [Double.value?_eq_intCast_iff]
  constructor
  · intro hd
    have hwhole := whole?_of_ofNearest hd
    refine ⟨hwhole, ?_⟩
    rintro rfl
    rw [asDouble.ofInt, Double.ofInt?_of_whole? Double.whole?_zero (fun _ => rfl),
      asDouble.ofNearest, if_pos Double.whole?_zero] at hd
    exact (Except.ok.inj hd).symm
  · rintro ⟨hwhole, hzero⟩
    rw [asDouble.ofInt, Double.ofInt?_of_whole? hwhole hzero, asDouble.ofNearest, if_pos hwhole]

/-- An integer is refused for its range exactly if it rounds to infinity, and else because the
double that it rounds to is another number. -/
theorem kind_of_ofInt {e : Error} (hrefused : asDouble.ofInt x z = .error e) :
    e.kind = if Double.overflowBound ≤ z.natAbs then .valueRange else .unsupportedValue := by
  rw [asDouble.ofInt] at hrefused
  cases hnearest : Double.ofInt? z with
  | none =>
      rw [hnearest] at hrefused
      obtain rfl := Except.error.inj hrefused
      rw [if_pos (Double.ofInt?_eq_none_iff.mp hnearest), Error.kind]
  | some nearest =>
      have hbelow : ¬Double.overflowBound ≤ z.natAbs := by
        rw [← Double.ofInt?_eq_none_iff, hnearest]
        exact Option.some_ne_none _
      rw [hnearest, asDouble.ofNearest] at hrefused
      split_ifs at hrefused
      obtain rfl := Except.error.inj hrefused
      rw [if_neg hbelow, Error.kind]

theorem not_ofInt_eq_ok_of_exceeds {d : Double} (hexceeds : Double.overflowBound ≤ z.natAbs) :
    asDouble.ofInt x z ≠ .ok d := by
  rw [asDouble.ofInt, Double.ofInt?_eq_none_iff.mpr hexceeds]
  intro hd
  cases hd

/-- Of the doubles that bytes can spell, only the one that is no number passes. -/
theorem ofNumeral_of_not_spelled {data : List UInt8} (hspells : ¬Numeral.SpellsNaN (charsOf data)) :
    (asDouble.ofNumeral x data).mapError Error.kind = .error .unsupportedValue := by
  unfold asDouble.ofNumeral
  split
  next => rfl
  next value hvalue =>
    rw [← Numeral.exists_isNaN_double?_iff] at hspells
    rw [if_neg (fun hnan => hspells ⟨value, hvalue, hnan⟩)]
    rfl

theorem asDouble_of_whole (hnumber : x.number? = some (.whole z)) :
    x.asDouble = asDouble.ofInt x z := by
  cases x <;> cases hnumber <;> rfl

theorem asDouble_of_real {d : Double} (hnumber : x.number? = some (.real d)) :
    x.asDouble = .ok d := by
  cases x <;> cases hnumber
  rfl

theorem asDouble_of_no_number (hnumber : x.number? = none) (hspells : ¬x.SpellsNaN) :
    x.asDouble.mapError Error.kind = .error .unsupportedValue := by
  cases x with
  | bool | int | double => cases hnumber
  | blob kind data =>
      cases kind with
      | fixed => rfl
      | growable | view => exact ofNumeral_of_not_spelled hspells
  | _ => rfl

end Native

namespace Variant

/-! ## Outcomes -/

/-- What an integer constructor answers depends on nothing but the number that a value is. It makes
the integer of a number in the range of the code, and its two kinds of errors tell numbers outside
the range from all that is no integer. -/
theorem integers_hold_numbers (code : IntegerCode) (x : Native) :
    (∀ v, ofInteger code x = .ok v ↔
      ∃ z : Int, x.numericValue? = some (z : ℚ) ∧ code.Holds z ∧ v = integer code z) ∧
    ((ofInteger code x).mapError Error.kind = .error .valueRange ↔
      ∃ z : Int, x.numericValue? = some (z : ℚ) ∧ ¬code.Holds z) ∧
    ((ofInteger code x).mapError Error.kind = .error .unsupportedValue ↔
      ∀ z : Int, x.numericValue? ≠ some (z : ℚ)) := by
  -- The three conditions exclude one another, since a value is at most one integer.
  by_cases hinteger : ∃ z : Int, x.numericValue? = some (z : ℚ)
  · obtain ⟨z, hz⟩ := hinteger
    have hunique (w : Int) : x.numericValue? = some (w : ℚ) ↔ w = z := by
      rw [hz, Option.some_inj, Int.cast_inj, eq_comm]
    have hsome : ¬∀ w : Int, x.numericValue? ≠ some (w : ℚ) := fun hnone => hnone z hz
    simp only [hunique, exists_eq_left, iff_false_intro hsome, ofInteger,
      Native.asInteger_of_numericValue? code hz]
    by_cases hrange : z < code.low ∨ code.high < z
    · have hholds : ¬code.Holds z := fun ⟨hlow, hhigh⟩ => by omega
      simp [hrange, hholds, Except.map, Except.mapError, Error.kind]
    · have hholds : code.Holds z := ⟨by omega, by omega⟩
      simp [hrange, hholds, Except.map, Except.mapError, eq_comm]
  · rw [not_exists] at hinteger
    obtain ⟨e, hanswer, hkind⟩ :=
      mapError_eq_error_iff.mp (Native.asInteger_of_not_integer code hinteger)
    simp [ofInteger, hanswer, Except.map, Except.mapError, hinteger, hkind]

/-- The double constructor makes the double that a value holds exactly, and its two kinds of errors
tell integers that round to infinity from everything else. -/
theorem doubles_hold_numbers {x : Native} (hspells : ¬x.SpellsNaN) :
    (∀ v, ofDouble x = .ok v ↔ ∃ d, x.HoldsDouble d ∧ v = double d) ∧
    ((ofDouble x).mapError Error.kind = .error .valueRange ↔ x.ExceedsDoubles) ∧
    ((ofDouble x).mapError Error.kind = .error .unsupportedValue ↔
      (∀ d, ¬x.HoldsDouble d) ∧ ¬x.ExceedsDoubles) := by
  cases hnumber : x.number? with
  | none =>
      obtain ⟨e, hanswer, hkind⟩ :=
        mapError_eq_error_iff.mp (Native.asDouble_of_no_number hnumber hspells)
      simp [ofDouble, hanswer, Except.map, Except.mapError, hkind, Native.HoldsDouble,
        Native.ExceedsDoubles, hnumber]
  | some number =>
      cases number with
      | real d =>
          simp [ofDouble, Native.asDouble_of_real hnumber, Except.map, Except.mapError,
            Native.HoldsDouble, Native.ExceedsDoubles, hnumber, eq_comm]
      | whole z =>
          have hholds (d : Double) : x.HoldsDouble d ↔ Native.asDouble.ofInt x z = .ok d := by
            rw [Native.ofInt_eq_ok_iff, Native.HoldsDouble, hnumber]
          have hexceeds : x.ExceedsDoubles ↔ Double.overflowBound ≤ z.natAbs := by
            simp [Native.ExceedsDoubles, hnumber]
          rw [ofDouble, Native.asDouble_of_whole hnumber, hexceeds]
          simp only [hholds]
          cases hanswer : Native.asDouble.ofInt x z with
          | ok d =>
              have hbelow : ¬Double.overflowBound ≤ z.natAbs := fun hbound =>
                Native.not_ofInt_eq_ok_of_exceeds hbound hanswer
              simp [Except.map, Except.mapError, hbelow, eq_comm]
          | error e =>
              have hkind := Native.kind_of_ofInt hanswer
              simp only [Except.map, Except.mapError, hkind]
              split_ifs with hbound <;> simp [hbound]

theorem doubles_hold_numbers_infinity_text :
    ¬(Native.blob .growable [105, 110, 102]).SpellsNaN ∧
      (ofDouble (.blob .growable [105, 110, 102])).mapError Error.kind = .error .unsupportedValue := by
  have hspells : ¬(Native.blob .growable [105, 110, 102]).SpellsNaN := by
    change ¬Numeral.SpellsNaN (Native.charsOf [105, 110, 102])
    decide
  refine ⟨hspells, (doubles_hold_numbers hspells).2.2.mpr ⟨fun d hd => hd, ?_⟩⟩
  rintro ⟨z, hz, -⟩
  cases hz

/-- What is excluded there is let through. -/
theorem exists_nan_of_spellsNaN {x : Native} (hspells : x.SpellsNaN) :
    ∃ mark, ofDouble x = .ok (double (.nan mark)) := by
  cases x with
  | blob kind data =>
      cases kind with
      | fixed => cases hspells
      | growable | view =>
          obtain ⟨value, hvalue, hnan⟩ := Numeral.exists_isNaN_double?_iff.mpr hspells
          refine ⟨Native.spelledMark data, ?_⟩
          rw [ofDouble, Native.asDouble, Native.asDouble.ofNumeral, hvalue]
          dsimp only
          rw [if_pos hnan]
          rfl
  | _ => cases hspells

/-- The buffer of the three letters of "nan" holds no double, but it makes one. -/
theorem spelled_nan_makes_double :
    (∀ d, ¬(Native.blob .growable [110, 97, 110]).HoldsDouble d) ∧
      ofDouble (.blob .growable [110, 97, 110]) =
        .ok (double (.nan (Native.spelledMark [110, 97, 110]))) := by
  refine ⟨fun d hd => hd, ?_⟩
  rfl

end Variant

end TypedVariant
