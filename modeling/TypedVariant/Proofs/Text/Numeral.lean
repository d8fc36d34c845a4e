import Mathlib.Algebra.Ring.Int.Defs
import Mathlib.Algebra.Ring.Nat
import Mathlib.Data.List.Basic
import Mathlib.Tactic.SplitIfs
import TypedVariant.Text.Numeral

/-!
# Numerals of no number and of long integers

Rounding never ends in the value that is no number. So a numeral stands for it only by
its name, in letters of either case, perhaps behind a sign and between blanks. The limit
of digits is one of size: integers below its power of ten keep it.
-/

namespace TypedVariant

namespace Double

variable {negative : Bool}

@[simp]
theorem isNaN_ofScaled (significand shift : Nat) :
    (ofScaled negative significand shift).isNaN = false := by
  unfold ofScaled
  split_ifs <;> rfl

@[simp]
theorem isNaN_ofRatio (num den : Nat) : (ofRatio negative num den).isNaN = false := by
  unfold ofRatio
  dsimp only
  split_ifs <;> exact isNaN_ofScaled _ _

@[simp]
theorem isNaN_ofDecimal (digits : Nat) (exponent : Int) :
    (ofDecimal negative digits exponent).isNaN = false := by
  unfold ofDecimal
  split_ifs <;> first | rfl | exact isNaN_ofRatio _ _

end Double

namespace Numeral

/-! ## The limit of digits -/

theorem isOverlong_eq_false_iff {z : Int} :
    isOverlong z = false ↔ z.natAbs < 10 ^ digitLimit := by
  rw [isOverlong, decide_eq_false_iff_not, Nat.not_lt, digitCount]
  exact Nat.length_toDigits_le_iff (by decide) (by decide)

theorem isOverlong_iff {z : Int} : isOverlong z = true ↔ 10 ^ digitLimit ≤ z.natAbs := by
  rw [← Nat.not_lt, ← isOverlong_eq_false_iff, Bool.not_eq_false]

theorem isOverlong_pow : isOverlong (10 ^ digitLimit) = true := by
  simp [isOverlong_iff, Int.natAbs_pow]

/-- The integers that fit into machine words are far from the limit. -/
theorem isOverlong_eq_false_of_word {z : Int} (hlow : -(2 ^ 64) ≤ z) (hhigh : z ≤ 2 ^ 64) :
    isOverlong z = false := by
  have hword : 2 ^ 64 < 10 ^ 20 := by decide
  have hlimit : 10 ^ 20 ≤ 10 ^ digitLimit := Nat.pow_le_pow_right (by decide) (by decide)
  exact isOverlong_eq_false_iff.mpr (by omega)

/-! ## The name of no number -/

variable {cs joined : List Char}

theorem isNaN_of_fraction? {negative : Bool} {value : Double}
    (hvalue : fraction? negative cs = some value) : value.isNaN = false := by
  unfold fraction? at hvalue
  grind [Double.isNaN_ofDecimal]

/-- The characters are the name of the value that is no number, in letters of either case. -/
def NamesNaN (cs : List Char) : Prop :=
  cs.map Char.toLower = ['n', 'a', 'n']

/-- The characters spell the value that is no number: its name, perhaps behind a sign, and with
blanks around it or not. -/
def SpellsNaN (cs : List Char) : Prop :=
  NamesNaN (takeSign (Text.strip Text.isAsciiBlank cs)).2

instance (cs : List Char) : Decidable (SpellsNaN cs) :=
  inferInstanceAs (Decidable (_ = _))

/-- The letters of the name are neither digits nor underscores. -/
theorem NamesNaN.isLetter (hname : NamesNaN cs) : ∀ c ∈ cs, c.isDigit = false ∧ c ≠ '_' := by
  intro c hc
  have hmem : c.toLower = 'n' ∨ c.toLower = 'a' := by
    have := hname ▸ List.mem_map_of_mem hc
    grind
  have hcode : 65 ≤ c.toNat ∧ c.toNat ≠ 95 := by
    unfold Char.toLower at hmem
    split at hmem
    next hupper =>
        have hlow : 65 ≤ c.toNat := UInt32.le_iff_toNat_le.mp hupper.1
        have hhigh : c.toNat ≤ 90 := UInt32.le_iff_toNat_le.mp hupper.2
        omega
    next => rcases hmem with rfl | rfl <;> decide
  constructor
  · have hdigit : ¬c.val ≤ '9'.val := fun hle => by
      have : c.toNat ≤ 57 := UInt32.le_iff_toNat_le.mp hle
      omega
    rw [Char.isDigit, Bool.and_eq_false_iff]
    exact .inr (decide_eq_false hdigit)
  · rintro rfl
    exact hcode.2 rfl

/-- Neither is a sign in front of the name. -/
theorem NamesNaN.isPlain (hname : NamesNaN (takeSign cs).2) :
    ∀ c ∈ cs, c.isDigit = false ∧ c ≠ '_' := by
  have hletters := hname.isLetter
  unfold takeSign at hletters
  split at hletters
  next => exact List.forall_mem_cons.mpr ⟨by decide, hletters⟩
  next => exact List.forall_mem_cons.mpr ⟨by decide, hletters⟩
  next => exact hletters

/-- Where no digits are left, no underscores were removed. -/
theorem eq_of_joinDigits (hjoined : joinDigits cs = some joined)
    (hdigits : ∀ c ∈ joined, c.isDigit = false) : joined = cs := by
  fun_induction joinDigits cs generalizing joined with
  | case1 => exact (Option.some.inj hjoined).symm
  | case2 => simp at hjoined
  | case3 c d rest _ hboth ih =>
      obtain ⟨others, -, rfl⟩ := Option.map_eq_some_iff.mp hjoined
      simp [hdigits c List.mem_cons_self] at hboth
  | case4 => simp at hjoined
  | case5 c rest _ _ ih =>
      obtain ⟨others, hothers, rfl⟩ := Option.map_eq_some_iff.mp hjoined
      rw [ih hothers (List.forall_mem_cons.mp hdigits).2]

theorem joinDigits_eq_self (hplain : '_' ∉ cs) : joinDigits cs = some cs := by
  fun_induction joinDigits cs with
  | case1 => rfl
  | case2 => simp at hplain
  | case3 => simp at hplain
  | case4 => simp at hplain
  | case5 c rest _ _ ih => rw [ih (List.not_mem_of_not_mem_cons hplain), Option.map_some]

theorem double?_of_joinDigits
    (hjoined : joinDigits (Text.strip Text.isAsciiBlank cs) = some joined) :
    double? cs =
      let name := String.ofList ((takeSign joined).2.map Char.toLower)
      if name = "nan" then some (.nan 0)
      else if name = "inf" ∨ name = "infinity" then some (.infinity (takeSign joined).1)
      else fraction? (takeSign joined).1 (takeSign joined).2 := by
  rw [double?, hjoined]
  rfl

/-- A numeral stands for the value that is no number exactly if it spells it. -/
theorem exists_isNaN_double?_iff :
    (∃ value, double? cs = some value ∧ value.isNaN = true) ↔ SpellsNaN cs := by
  have hname (body : List Char) :
      String.ofList (body.map Char.toLower) = "nan" ↔ NamesNaN body := by
    rw [← String.toList_inj, String.toList_ofList]
    rfl
  constructor
  · rintro ⟨value, hvalue, hnan⟩
    cases hjoined : joinDigits (Text.strip Text.isAsciiBlank cs) with
    | none => simp [double?, hjoined] at hvalue
    | some joined =>
        rw [double?_of_joinDigits hjoined] at hvalue
        dsimp only at hvalue
        split_ifs at hvalue with hspelled
        · rw [hname] at hspelled
          obtain rfl := eq_of_joinDigits hjoined (fun c hc => (hspelled.isPlain c hc).1)
          exact hspelled
        · obtain rfl := Option.some.inj hvalue
          simp [Double.isNaN] at hnan
        · simp [isNaN_of_fraction? hvalue] at hnan
  · intro hspelled
    have hplain : '_' ∉ Text.strip Text.isAsciiBlank cs := fun hmem =>
      (NamesNaN.isPlain hspelled _ hmem).2 rfl
    refine ⟨.nan 0, ?_, rfl⟩
    rw [double?_of_joinDigits (joinDigits_eq_self hplain)]
    exact if_pos ((hname _).mpr hspelled)

end Numeral

end TypedVariant
