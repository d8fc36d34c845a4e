import TypedVariant.Proofs.Attempt
import TypedVariant.Proofs.Signature.Grammar
import TypedVariant.Proofs.Text.Numeral
import TypedVariant.Variant.Build

/-!
# What the basic constructors make

Each basic constructor that succeeds makes a variant of its own code, whose
content lies in the range of the code. A value that is already what the code
describes is taken as it is. The type string of a tuple is put together from
those of its members.
-/

namespace TypedVariant

/-- The texts that a constructor of text takes. -/
def TextCode.Accepts (code : TextCode) (text : String) : Prop :=
  text.toList.contains '\x00' = false ∧ Variant.checkText code text = .ok ()

/-- The integers of a code. -/
def IntegerCode.Holds (code : IntegerCode) (value : Int) : Prop :=
  code.low ≤ value ∧ value ≤ code.high

/-- What a code holds can be written. -/
theorem IntegerCode.Holds.isOverlong_eq_false {code : IntegerCode} {value : Int}
    (hholds : code.Holds value) : Numeral.isOverlong value = false := by
  have hlow : ∀ code : IntegerCode, -(2 ^ 64) ≤ code.low := by rintro ⟨⟩ <;> decide
  have hhigh : ∀ code : IntegerCode, code.high ≤ 2 ^ 64 := by rintro ⟨⟩ <;> decide
  exact Numeral.isOverlong_eq_false_of_word (Int.le_trans (hlow code) hholds.1)
    (Int.le_trans hholds.2 (hhigh code))

namespace Variant

theorem ofText_eq_ok_iff {code : TextCode} {x : Native} {v : Variant} :
    ofText code x = .ok v ↔
      ∃ value, x = .text value ∧ code.Accepts value ∧ v = .text code value := by
  constructor
  · intro hbuilt
    cases x with
    | text value =>
        refine ⟨value, rfl, ?_⟩
        rw [ofText] at hbuilt
        split at hbuilt
        next => simp [bind_eq_ok_iff] at hbuilt
        next hnul =>
          obtain ⟨u, hcheck, hv⟩ := bind_eq_ok_iff.mp hbuilt
          exact ⟨⟨by simpa using hnul, hcheck⟩, (Except.ok.inj hv).symm⟩
    | _ => simp [ofText] at hbuilt
  · rintro ⟨value, rfl, ⟨hnul, hcheck⟩, rfl⟩
    rw [ofText, hnul, hcheck]
    rfl

theorem holds_of_asInteger {code : IntegerCode} {x : Native} {value : Int}
    (hvalue : x.asInteger code = .ok value) : code.Holds value := by
  unfold Native.asInteger at hvalue
  split at hvalue
  next => simp at hvalue
  next z _ =>
    split_ifs at hvalue with hnumber hrange
    obtain rfl := Except.ok.inj hvalue
    rw [not_or, Int.not_lt, Int.not_lt] at hrange
    exact hrange

theorem asInteger_int {code : IntegerCode} {value : Int} (hvalue : code.Holds value) :
    (Native.int value).asInteger code = .ok value := by
  have hnumber : (Native.int value).isNumber value = true := by
    simp [Native.isNumber, Native.number?, Native.Number.equal]
  have hrange : ¬(value < code.low ∨ code.high < value) := by
    rw [not_or, Int.not_lt, Int.not_lt]
    exact hvalue
  simp [Native.asInteger, Native.toInt?, hnumber, hrange]

/-- A basic constructor makes a variant of its code. -/
theorem typeLetters_ofBasic {code : BasicCode} {x : Native} {v : Variant}
    (hbuilt : ofBasic code x = .ok v) : v.typeLetters = [code.letter] := by
  cases code with
  | boolean =>
      obtain rfl := Except.ok.inj hbuilt
      rfl
  | integer code =>
      obtain ⟨value, -, rfl⟩ := map_eq_ok_iff.mp hbuilt
      rfl
  | double =>
      obtain ⟨value, -, rfl⟩ := map_eq_ok_iff.mp hbuilt
      rfl
  | text code =>
      obtain ⟨value, -, -, rfl⟩ := ofText_eq_ok_iff.mp hbuilt
      rfl

theorem ofStrings_eq_ok_iff {strings : List Native} {v : Variant} :
    ofStrings strings = .ok v ↔
      ∃ values : List String, strings = values.map .text ∧
        (∀ value ∈ values, TextCode.string.Accepts value) ∧
        v = .array "s" (values.map (.text .string)) := by
  rw [ofStrings, map_eq_ok_iff]
  simp only [mapM_eq_ok_iff, ofText_eq_ok_iff]
  constructor
  · rintro ⟨items, ⟨parts, rfl, rfl, hparts⟩, rfl⟩
    obtain ⟨values, rfl, hvalues⟩ :
        ∃ values : List String,
          parts = values.map (fun value => (Native.text value, text .string value)) ∧
            ∀ value ∈ values, TextCode.string.Accepts value := by
      apply exists_eq_map
      intro part hpart
      obtain ⟨value, hitem, haccepts, hv⟩ := hparts part hpart
      exact ⟨value, haccepts, Prod.ext hitem hv⟩
    exact ⟨values, by simp, hvalues, by simp⟩
  · rintro ⟨values, rfl, hvalues, rfl⟩
    let parts : List (Native × Variant) :=
      values.map (fun value => (.text value, .text .string value))
    refine ⟨parts.map Prod.snd, ⟨parts, ?_, rfl, ?_⟩, ?_⟩
    · simp [parts]
    · simpa [parts] using hvalues
    · simp [parts]

/-- Children of one type are an array, or a blob if they are bytes. -/
theorem arrayOf_of_typeString {children : List Variant} {text : String}
    (hchildren : ∀ child ∈ children, child.typeString = text) :
    arrayOf text children =
      .ok (if text = "y" then bytes (byteValues children) else array text children) := by
  have hfind : children.find? (fun child => child.typeString != text) = none := by
    rw [List.find?_eq_none]
    intro child hchild
    simp [hchildren child hchild]
  rw [arrayOf, hfind]

theorem typeLettersAll_eq_flatMap (items : List Variant) :
    typeLettersAll items = items.flatMap typeLetters := by
  induction items with
  | nil => rfl
  | cons v rest ih => simp [typeLettersAll, ih]

/-- Members that write the texts of types make a tuple that writes the text of their tuple. -/
theorem typeLetters_tuple {α : Type} {parts : List α} {member : α → Variant} {type : α → SigType}
    (hparts : ∀ part ∈ parts, (member part).typeLetters = (type part).letters) :
    (tuple (parts.map member)).typeLetters = (SigType.tuple (parts.map type)).letters := by
  have hletters : (parts.map member).flatMap typeLetters =
      (parts.map type).flatMap SigType.letters := by
    rw [List.flatMap_map, List.flatMap_map]
    exact List.flatMap_congr hparts
  rw [typeLetters, typeLettersAll_eq_flatMap, hletters, SigType.letters,
    SigType.lettersAll_eq_flatMap]

end Variant

end TypedVariant
