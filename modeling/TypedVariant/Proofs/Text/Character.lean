import Mathlib.Data.List.DropRight
import TypedVariant.Text.Character

/-!
# Letters, digits and stripped text

The classes of characters of ASCII as ranges, and the range that all of them lie in. Text without
blanks at its ends is what stripping leaves, and stays as it is when it is stripped again. Blanks
put around it are taken off.
-/

namespace TypedVariant.Text

variable {c : Char} {text front back : List Char}

theorem isUpper_iff : c.isUpper = true ↔ 'A' ≤ c ∧ c ≤ 'Z' :=
  decide_eq_true_iff

theorem isLower_iff : c.isLower = true ↔ 'a' ≤ c ∧ c ≤ 'z' := by
  change (decide ('a' ≤ c) && decide (c ≤ 'z')) = true ↔ _
  rw [Bool.and_eq_true, decide_eq_true_iff, decide_eq_true_iff]

theorem isAlphanum_iff : c.isAlphanum = true ↔
    ('A' ≤ c ∧ c ≤ 'Z') ∨ ('a' ≤ c ∧ c ≤ 'z') ∨ ('0' ≤ c ∧ c ≤ '9') := by
  change (c.isUpper || c.isLower || c.isDigit) = true ↔ _
  rw [Bool.or_eq_true, Bool.or_eq_true, isUpper_iff, isLower_iff, Char.isDigit_iff_toNat, or_assoc]
  rfl

theorem isAlphanum_of_isAlpha (hc : c.isAlpha = true) : c.isAlphanum = true := by
  change (c.isAlpha || c.isDigit) = true
  rw [hc, Bool.true_or]

/-- The codes of letters and digits, from the zero to the small z. -/
theorem toNat_of_isAlphanum (hc : c.isAlphanum = true) : 0x30 ≤ c.toNat ∧ c.toNat ≤ 0x7A := by
  obtain ⟨hlow, hhigh⟩ | ⟨hlow, hhigh⟩ | ⟨hlow, hhigh⟩ := isAlphanum_iff.mp hc
  · exact ⟨Nat.le_trans (by decide) hlow, Nat.le_trans hhigh (by decide)⟩
  · exact ⟨Nat.le_trans (by decide) hlow, Nat.le_trans hhigh (by decide)⟩
  · exact ⟨hlow, Nat.le_trans hhigh (by decide)⟩

/-- No blank stands at either end. -/
def HasBareEnds (text : List Char) : Prop :=
  (∀ c ∈ text.head?, isBlank c = false) ∧ ∀ c ∈ text.getLast?, isBlank c = false

theorem hasBareEnds_of_all (hall : text.all (!isBlank ·) = true) : HasBareEnds text := by
  have hbare : ∀ c ∈ text, isBlank c = false := by simpa using hall
  exact ⟨fun c hc => hbare c (List.mem_of_mem_head? hc),
    fun c hc => hbare c (List.mem_of_mem_getLast? hc)⟩

theorem strip_of_hasBareEnds (hends : HasBareEnds text) : strip isBlank text = text := by
  have hfront : text.dropWhile isBlank = text := by
    cases text with
    | nil => rfl
    | cons c rest => rw [List.dropWhile_cons_of_neg (by simpa using hends.1 c rfl)]
  rw [strip, hfront]
  refine List.rdropWhile_eq_self_iff.mpr fun hne => ?_
  simpa using hends.2 _ (List.getLast?_eq_getLast_of_ne_nil hne)

theorem hasBareEnds_strip (text : List Char) : HasBareEnds (strip isBlank text) := by
  change HasBareEnds ((text.dropWhile isBlank).rdropWhile isBlank)
  constructor
  · -- What is left begins as the text does once it is stripped in front.
    intro c hc
    obtain ⟨rest, hrest⟩ := List.rdropWhile_prefix isBlank (l := text.dropWhile isBlank)
    have hfront : (text.dropWhile isBlank).head? = some c := by
      rw [← hrest, List.head?_append, Option.or_of_isSome (Option.isSome_of_mem hc)]
      exact hc
    have hnot := List.head?_dropWhile_not isBlank text
    rw [hfront] at hnot
    exact hnot
  · intro c hc
    obtain ⟨hne, rfl⟩ := List.mem_getLast?_eq_getLast hc
    simpa using List.rdropWhile_last_not isBlank (text.dropWhile isBlank) hne

theorem trim_trim (s : String) : trim (trim s) = trim s := by
  rw [trim, trim, String.toList_ofList, strip_of_hasBareEnds (hasBareEnds_strip _)]

theorem mem_of_mem_strip (hc : c ∈ strip isBlank text) : c ∈ text :=
  (List.dropWhile_suffix _).subset ((List.rdropWhile_prefix isBlank _).subset hc)

theorem isBlank_of_mem_space : ∀ c ∈ [' '], isBlank c = true :=
  List.forall_mem_singleton.mpr rfl

/-- The blanks around a text are taken off, and no more. -/
theorem strip_between (hfront : ∀ c ∈ front, isBlank c = true)
    (hback : ∀ c ∈ back, isBlank c = true)
    (hends : HasBareEnds text) : strip isBlank (front ++ (text ++ back)) = text := by
  have hopen : strip isBlank (text ++ back) = strip isBlank text := by
    cases text with
    | nil => simp [strip, dropWhileEnd, List.dropWhile_eq_nil_iff.mpr hback]
    | cons c rest =>
        have hc : ¬isBlank c = true := by simpa using hends.1 c rfl
        have hreverse : ∀ c ∈ back.reverse, isBlank c = true := by simpa using hback
        rw [strip, strip, List.cons_append, List.dropWhile_cons_of_neg hc,
          List.dropWhile_cons_of_neg hc, dropWhileEnd, dropWhileEnd, ← List.cons_append,
          List.reverse_append, List.dropWhile_append_of_pos hreverse]
  calc strip isBlank (front ++ (text ++ back))
      = strip isBlank (text ++ back) := by
        rw [strip, strip, List.dropWhile_append_of_pos hfront]
    _ = strip isBlank text := hopen
    _ = text := strip_of_hasBareEnds hends

end TypedVariant.Text
