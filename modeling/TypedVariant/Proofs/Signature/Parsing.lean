import TypedVariant.Proofs.Attempt
import TypedVariant.Proofs.Signature.Reading

/-!
# Parsing decides the grammar

A text is parsed exactly when the grammar derives it and the derived type nests
within the limit. Reading is a function of the text, so no text has two
derivations, and no complete type goes on where another has ended.
-/

namespace TypedVariant

open SigType

namespace SigType

/-- Two types that begin the same text are the same, and leave the same of it. -/
theorem letters_append_inj {wildcards : Bool} {type other : SigType} {rest left : List Char}
    (htype : type.WellFormed wildcards) (hother : other.WellFormed wildcards)
    (htext : type.letters ++ rest = other.letters ++ left) : type = other ∧ rest = left := by
  -- Both are read off the same text under rules that admit both.
  let rules : Signature.Rules := ⟨wildcards, (type.nesting + other.nesting : Nat)⟩
  have hadmits : Signature.Admits rules 0 false type :=
    ⟨htype, by simp only [rules]; omega, by simp⟩
  have hadmitsOther : Signature.Admits rules 0 false other :=
    ⟨hother, by simp only [rules]; omega, by simp⟩
  have hread := Signature.readOne_letters hadmits rest
  rw [htext, Signature.readOne_letters hadmitsOther left] at hread
  simpa [eq_comm] using hread

theorem letters_inj {wildcards : Bool} {type other : SigType}
    (htype : type.WellFormed wildcards) (hother : other.WellFormed wildcards)
    (htext : type.letters = other.letters) : type = other :=
  (letters_append_inj htype hother (congrArg (· ++ []) htext)).1

theorem text_inj {wildcards : Bool} {type other : SigType} (htype : type.WellFormed wildcards)
    (hother : other.WellFormed wildcards) (htext : type.text = other.text) : type = other := by
  apply letters_inj htype hother
  rw [← toList_text, htext, toList_text]

theorem WellFormed.letters_ne_nil {wildcards : Bool} {type : SigType}
    (hwf : type.WellFormed wildcards) : type.letters ≠ [] := by
  cases hwf <;> simp [letters]

end SigType

namespace Signature

/-- A text is read as a whole exactly when it is the text of an admitted type. -/
theorem readWhole_eq_ok_iff {rules : Rules} {tail : Error} {text : String} {type : SigType} :
    readWhole rules tail text = .ok type ↔
      Admits rules 0 false type ∧ text.toList = type.letters := by
  have hread : readOne rules 0 false text.toList = (.ok type, []) ↔
      Admits rules 0 false type ∧ text.toList = type.letters ++ [] := readOne_eq_ok_iff
  rw [List.append_nil] at hread
  rw [← hread, readWhole]
  rcases readOne rules 0 false text.toList with ⟨_ | found, _ | ⟨c, rest⟩⟩ <;> simp

/-- No type has an empty text. -/
theorem isEmpty_of_toList_eq {wildcards : Bool} {text : String} {type : SigType}
    (hwf : type.WellFormed wildcards) (htext : text.toList = type.letters) :
    text.isEmpty = false := by
  cases hempty : text.isEmpty with
  | false => rfl
  | true =>
      rw [String.isEmpty_iff.mp hempty] at htext
      exact absurd htext.symm hwf.letters_ne_nil

/-- Refusing the empty text first changes nothing. -/
theorem readNonempty_eq_ok_iff {rules : Rules} {empty tail : Error} {text : String}
    {type : SigType} :
    (if text.isEmpty then .error empty else readWhole rules tail text) = .ok type ↔
      Admits rules 0 false type ∧ text.toList = type.letters := by
  split
  next hempty =>
    constructor
    · simp
    · rintro ⟨hadmits, htext⟩
      simp [isEmpty_of_toList_eq hadmits.wellFormed htext] at hempty
  next => exact readWhole_eq_ok_iff

theorem parse_eq_ok_iff {maxDepth : Int} {text : String} {type : SigType} :
    parse maxDepth text = .ok type ↔
      Admits ⟨false, maxDepth⟩ 0 false type ∧ text.toList = type.letters :=
  readNonempty_eq_ok_iff

theorem parsePattern_eq_ok_iff {maxDepth : Int} {text : String} {type : SigType} :
    parsePattern maxDepth text = .ok type ↔
      Admits ⟨true, maxDepth⟩ 0 false type ∧ text.toList = type.letters :=
  readNonempty_eq_ok_iff

theorem parse_text {maxDepth : Int} {type : SigType} (hwf : type.WellFormed false)
    (hnesting : (type.nesting : Int) ≤ maxDepth) : parse maxDepth type.text = .ok type :=
  parse_eq_ok_iff.mpr ⟨admits_zero_iff.mpr ⟨hwf, hnesting⟩, type.toList_text⟩

theorem parsePattern_text {maxDepth : Int} {type : SigType} (hwf : type.WellFormed true)
    (hnesting : (type.nesting : Int) ≤ maxDepth) : parsePattern maxDepth type.text = .ok type :=
  parsePattern_eq_ok_iff.mpr ⟨admits_zero_iff.mpr ⟨hwf, hnesting⟩, type.toList_text⟩

/-- What a parser answers with is written back as the text it was given. -/
theorem text_eq_of_toList_eq {text : String} {type : SigType}
    (htext : text.toList = type.letters) : type.text = text := by
  rw [SigType.text, ← htext, String.ofList_toList]

@[simp]
theorem readAll_nil {rules : Rules} {depth : Int} : readAll rules depth [] = .ok [] := by
  rw [readAll]
  rfl

/-- A text that does not end at once holds a type and what is read behind it. -/
theorem readAll_of_ne_nil {rules : Rules} {depth : Int} {text : List Char} (hne : text ≠ []) :
    readAll rules depth text = (readOne rules depth false text).1 >>= fun type =>
      (readAll rules depth (readOne rules depth false text).2).map (type :: ·) := by
  rw [readAll, if_neg (by simpa using hne)]
  split
  next refusal hfirst => simp only [hfirst]; rfl
  next type hfirst => simp only [hfirst]; rfl

/-- The parsers decide the grammar of signatures and that of patterns. A text has at most one
derivation, whatever its depth; the type it spells is written back as the same text, and a
signature spells a definite type. -/
theorem parsing_decides_grammar (maxDepth : Int) (text : String) :
    (∀ type, parse maxDepth text = .ok type ↔
      IsCompleteType false type text.toList ∧ (type.nesting : Int) ≤ maxDepth) ∧
    (∀ type, parsePattern maxDepth text = .ok type ↔
      IsCompleteType true type text.toList ∧ (type.nesting : Int) ≤ maxDepth) ∧
    (∀ wildcards type other, IsCompleteType wildcards type text.toList →
      IsCompleteType wildcards other text.toList → type = other) ∧
    (∀ type, parse maxDepth text = .ok type → type.text = text ∧ type.isDefinite = true) ∧
    (∀ type, parsePattern maxDepth text = .ok type → type.text = text) := by
  refine ⟨fun type => ?_, fun type => ?_, fun wildcards type other htype hother => ?_,
    fun type hparse => ?_, fun type hparse => ?_⟩
  · rw [parse_eq_ok_iff, admits_zero_iff, isCompleteType_iff, and_right_comm]
  · rw [parsePattern_eq_ok_iff, admits_zero_iff, isCompleteType_iff, and_right_comm]
  · rw [isCompleteType_iff] at htype hother
    exact letters_inj htype.1 hother.1 (htype.2.symm.trans hother.2)
  · obtain ⟨hadmits, htext⟩ := parse_eq_ok_iff.mp hparse
    exact ⟨text_eq_of_toList_eq htext, hadmits.wellFormed.isDefinite⟩
  · exact text_eq_of_toList_eq (parsePattern_eq_ok_iff.mp hparse).2

/-- A dictionary of strings inside a tuple, at the very limit of its depth. -/
theorem parsing_decides_grammar_nested :
    (∃ type, parse 3 "(sa{sv})" = .ok type ∧ type.text = "(sa{sv})") ∧
      IsCompleteType true (.array (.dictEntry (.wildcard .anyBasic) (.wildcard .anyType)))
        "a{?*}".toList := by
  have hparse : parse 3 "(sa{sv})" = .ok (.tuple [.basic (.text .string),
      .array (.dictEntry (.basic (.text .string)) .variant)]) := by rfl
  have hpattern : parsePattern 2 "a{?*}" =
      .ok (.array (.dictEntry (.wildcard .anyBasic) (.wildcard .anyType))) := by rfl
  exact ⟨⟨_, hparse, ((parsing_decides_grammar 3 _).2.2.2.1 _ hparse).1⟩,
    ((parsing_decides_grammar 2 _).2.1 _).mp hpattern |>.1⟩

end Signature

end TypedVariant
