import TypedVariant.Proofs.Signature.Parsing

/-!
# The types that a pattern stands for

A pattern is compared with a type as a tree, but what it means is a set of texts: each
of its wildcards may be replaced by the text of a type. The texts that come from a
pattern in this way are the texts of the types that it covers, and since no text spells
two types, the comparison of trees decides whether one text comes from the other.
-/

namespace TypedVariant

/-- What may be put in the place of a letter of a pattern: in that of a wildcard the text of a type
that it stands for, and in that of any other letter the letter itself. -/
inductive Replaces : Char → List Char → Prop
  | anyType {type : SigType} {part : List Char} (htype : IsCompleteType false type part) :
      Replaces '*' part
  | anyBasic (code : BasicCode) : Replaces '?' [code.letter]
  | anyTuple {members : List SigType} {part : List Char}
      (htype : IsCompleteType false (.tuple members) part) : Replaces 'r' part
  | letter {c : Char} (hletter : ∀ kind : Wildcard, c ≠ kind.letter) : Replaces c [c]

/-- The texts that come from a pattern when its letters are replaced one by one, each occurrence on
its own. -/
inductive Fills : List Char → List Char → Prop
  | nil : Fills [] []
  | cons {c : Char} {pattern part text : List Char} (hpart : Replaces c part)
      (hrest : Fills pattern text) : Fills (c :: pattern) (part ++ text)

-- What is covered is told by the two types at hand, case by case, in all that follows.
attribute [local simp] SigType.covers SigType.coversAll

theorem Wildcard.letter_injective {kind other : Wildcard} (hletter : kind.letter = other.letter) :
    kind = other := by
  cases kind <;> cases other <;> first | rfl | simp [letter] at hletter

theorem replaces_iff_of_ne {c : Char} (hletter : ∀ kind : Wildcard, c ≠ kind.letter)
    {part : List Char} : Replaces c part ↔ part = [c] := by
  constructor
  · intro hreplaces
    cases hreplaces with
    | anyType => exact absurd rfl (hletter .anyType)
    | anyBasic => exact absurd rfl (hletter .anyBasic)
    | anyTuple => exact absurd rfl (hletter .anyTuple)
    | letter => rfl
  · rintro rfl
    exact .letter hletter

/-- A wildcard is replaced by the texts of the types that it covers. -/
theorem replaces_wildcard_iff {kind : Wildcard} {part : List Char} :
    Replaces kind.letter part ↔
      ∃ type : SigType, type.WellFormed false ∧ (SigType.wildcard kind).covers type = true ∧
        part = type.letters := by
  constructor
  · intro hreplaces
    generalize hc : kind.letter = c at hreplaces
    cases hreplaces with
    | letter hletter => exact absurd hc.symm (hletter kind)
    | anyType htype =>
        obtain ⟨hwf, hpart⟩ := SigType.isCompleteType_iff.mp htype
        obtain rfl : kind = .anyType := Wildcard.letter_injective hc
        exact ⟨_, hwf, rfl, hpart⟩
    | anyBasic code =>
        obtain rfl : kind = .anyBasic := Wildcard.letter_injective hc
        exact ⟨.basic code, .basic code, rfl, rfl⟩
    | anyTuple htype =>
        obtain ⟨hwf, hpart⟩ := SigType.isCompleteType_iff.mp htype
        obtain rfl : kind = .anyTuple := Wildcard.letter_injective hc
        exact ⟨_, hwf, rfl, hpart⟩
  · rintro ⟨type, hwf, hcovers, rfl⟩
    cases kind with
    | anyType => exact .anyType (SigType.isCompleteType_iff.mpr ⟨hwf, rfl⟩)
    | anyBasic =>
        cases hwf with
        | basic code => exact .anyBasic code
        | _ => simp at hcovers
    | anyTuple =>
        cases hwf with
        | tuple hmembers => exact .anyTuple (SigType.isCompleteType_iff.mpr ⟨.tuple hmembers, rfl⟩)
        | _ => simp at hcovers

namespace Fills

theorem nil_iff {text : List Char} : Fills [] text ↔ text = [] := by
  constructor
  · rintro ⟨⟩
    rfl
  · rintro rfl
    exact .nil

theorem cons_iff {c : Char} {pattern text : List Char} :
    Fills (c :: pattern) text ↔
      ∃ part rest, Replaces c part ∧ Fills pattern rest ∧ text = part ++ rest := by
  constructor
  · rintro ⟨⟩
    next part rest hpart hrest => exact ⟨part, rest, hpart, hrest, rfl⟩
  · rintro ⟨part, rest, hpart, hrest, rfl⟩
    exact .cons hpart hrest

theorem singleton_iff {c : Char} {text : List Char} : Fills [c] text ↔ Replaces c text := by
  simp [cons_iff, nil_iff]

/-- A letter that is no wildcard is kept. -/
theorem letter_cons_iff {c : Char} (hletter : ∀ kind : Wildcard, c ≠ kind.letter)
    {pattern text : List Char} :
    Fills (c :: pattern) text ↔ ∃ rest, Fills pattern rest ∧ text = c :: rest := by
  simp [cons_iff, replaces_iff_of_ne hletter]

theorem append_iff {front back text : List Char} :
    Fills (front ++ back) text ↔
      ∃ first last, Fills front first ∧ Fills back last ∧ text = first ++ last := by
  induction front generalizing text with
  | nil => simp [nil_iff]
  | cons c rest ih =>
      simp only [List.cons_append, cons_iff, ih]
      constructor
      · rintro ⟨part, _, hpart, ⟨first, last, hfirst, hlast, rfl⟩, rfl⟩
        exact ⟨_, last, ⟨part, first, hpart, hfirst, rfl⟩, hlast, (List.append_assoc ..).symm⟩
      · rintro ⟨_, last, ⟨part, first, hpart, hfirst, rfl⟩, hlast, rfl⟩
        exact ⟨part, _, hpart, ⟨first, last, hfirst, hlast, rfl⟩, List.append_assoc ..⟩

/-- A pattern without wildcards stands for itself alone. -/
theorem iff_eq {pattern text : List Char}
    (hletters : ∀ kind : Wildcard, kind.letter ∉ pattern) : Fills pattern text ↔ text = pattern := by
  induction pattern generalizing text with
  | nil => exact nil_iff
  | cons c rest ih =>
      have hfirst (kind : Wildcard) : c ≠ kind.letter :=
        fun h => hletters kind (h ▸ List.mem_cons_self)
      have hrest (kind : Wildcard) : kind.letter ∉ rest :=
        fun h => hletters kind (List.mem_cons_of_mem c h)
      simp [letter_cons_iff hfirst, ih hrest]

end Fills

theorem bracket_ne_wildcard {c : Char} (hc : c ∈ ['v', 'm', 'a', '(', ')', '{', '}'])
    (kind : Wildcard) : c ≠ kind.letter := by
  rintro rfl
  cases kind <;> simp [Wildcard.letter] at hc

/-- No basic code is written like a wildcard. -/
theorem BasicCode.letter_ne_wildcard (code : BasicCode) (kind : Wildcard) :
    code.letter ≠ kind.letter := by
  intro hletter
  have hcode := BasicCode.ofLetter?_letter code
  cases kind <;> simp [hletter, Wildcard.letter, ofLetter?] at hcode

namespace SigType

/-! ## What a pattern covers -/

theorem covers_basic_iff {code : BasicCode} {type : SigType} :
    (basic code).covers type = true ↔ type = .basic code := by
  cases type with
  | basic other =>
      rw [covers, beq_iff_eq, basic.injEq]
      exact eq_comm
  | _ => simp

theorem covers_variant_iff {type : SigType} : variant.covers type = true ↔ type = .variant := by
  cases type <;> simp

theorem covers_maybe_iff {element type : SigType} :
    (maybe element).covers type = true ↔
      ∃ inner, type = .maybe inner ∧ element.covers inner = true := by
  cases type <;> simp

theorem covers_array_iff {element type : SigType} :
    (array element).covers type = true ↔
      ∃ inner, type = .array inner ∧ element.covers inner = true := by
  cases type <;> simp

theorem covers_tuple_iff {members : List SigType} {type : SigType} :
    (tuple members).covers type = true ↔
      ∃ types, type = .tuple types ∧ coversAll members types = true := by
  cases type <;> simp

theorem covers_dictEntry_iff {key value type : SigType} :
    (dictEntry key value).covers type = true ↔
      ∃ k v, type = .dictEntry k v ∧ key.covers k = true ∧ value.covers v = true := by
  cases type <;> simp

/-- A pattern that may stand for a key covers basic types alone. -/
theorem isBasic_of_covers {pattern type : SigType} (hwf : pattern.WellFormed true)
    (hbasic : pattern.isBasic = true) (hcovers : pattern.covers type = true) :
    type.isBasic = true := by
  cases hwf with
  | basic code =>
      obtain rfl := covers_basic_iff.mp hcovers
      rfl
  | @wildcard kind =>
      cases kind with
      | anyBasic => cases type <;> simp_all [isBasic]
      | anyType | anyTuple => simp [isBasic] at hbasic
  | variant | maybe _ | array _ | tuple _ | dictEntry _ _ _ => simp [isBasic] at hbasic

/-! ## The texts of the types that are covered -/

/-- The texts that come from a pattern are those of the types that it covers. -/
def StandsFor (pattern : SigType) : Prop :=
  ∀ text, Fills pattern.letters text ↔
    ∃ type : SigType, type.WellFormed false ∧ pattern.covers type = true ∧ text = type.letters

theorem fills_lettersAll_iff {patterns : List SigType}
    (hpatterns : ∀ pattern ∈ patterns, pattern.StandsFor) {text : List Char} :
    Fills (lettersAll patterns) text ↔
      ∃ types : List SigType, (∀ type ∈ types, type.WellFormed false) ∧
        coversAll patterns types = true ∧ text = lettersAll types := by
  induction patterns generalizing text with
  | nil =>
      rw [lettersAll, Fills.nil_iff]
      constructor
      · rintro rfl
        exact ⟨[], by simp, rfl, rfl⟩
      · rintro ⟨_ | ⟨type, rest⟩, -, hcovers, rfl⟩
        · rfl
        · simp at hcovers
  | cons pattern others ih =>
      obtain ⟨hpattern, hothers⟩ := List.forall_mem_cons.mp hpatterns
      rw [lettersAll, Fills.append_iff]
      simp only [hpattern _, ih hothers]
      constructor
      · rintro ⟨_, _, ⟨type, hwf, hcovers, rfl⟩, ⟨types, hwfs, hcoversAll, rfl⟩, rfl⟩
        exact ⟨type :: types, List.forall_mem_cons.mpr ⟨hwf, hwfs⟩,
          by simp [hcovers, hcoversAll], rfl⟩
      · rintro ⟨_ | ⟨type, types⟩, hwfs, hcovers, rfl⟩
        · simp at hcovers
        · obtain ⟨hwf, hwfs⟩ := List.forall_mem_cons.mp hwfs
          rw [coversAll, Bool.and_eq_true] at hcovers
          exact ⟨_, _, ⟨type, hwf, hcovers.1, rfl⟩, ⟨types, hwfs, hcovers.2, rfl⟩, rfl⟩

/-- A pattern of one letter that is no wildcard stands for itself. -/
theorem standsFor_letter {pattern : SigType} {c : Char}
    (hletter : ∀ kind : Wildcard, c ≠ kind.letter)
    (hletters : pattern.letters = [c]) (hwf : pattern.WellFormed false)
    (hcovers : ∀ type, pattern.covers type = true ↔ type = pattern) : pattern.StandsFor := by
  intro text
  simp only [hletters, Fills.singleton_iff, replaces_iff_of_ne hletter, hcovers]
  constructor
  · rintro rfl
    exact ⟨pattern, hwf, rfl, hletters.symm⟩
  · rintro ⟨_, -, rfl, rfl⟩
    exact hletters

/-- A pattern that puts a letter in front of its element stands for the types that put it in front
of one for which the element stands. -/
theorem standsFor_element {former : SigType → SigType} {element : SigType} {c : Char}
    (hletter : ∀ kind : Wildcard, c ≠ kind.letter)
    (hletters : ∀ type, (former type).letters = c :: type.letters)
    (hwf : ∀ type, (former type).WellFormed false ↔ type.WellFormed false)
    (hcovers : ∀ type, (former element).covers type = true ↔
      ∃ inner, type = former inner ∧ element.covers inner = true)
    (helement : element.StandsFor) : (former element).StandsFor := by
  intro text
  simp only [hletters, Fills.letter_cons_iff hletter, helement _, hcovers]
  constructor
  · rintro ⟨_, ⟨inner, hinner, hcovered, rfl⟩, rfl⟩
    exact ⟨former inner, (hwf inner).mpr hinner, ⟨inner, rfl, hcovered⟩, (hletters inner).symm⟩
  · rintro ⟨_, hinner, ⟨inner, rfl, hcovered⟩, rfl⟩
    exact ⟨_, ⟨inner, (hwf inner).mp hinner, hcovered, rfl⟩, hletters inner⟩

theorem standsFor_tuple {members : List SigType}
    (hmembers : ∀ member ∈ members, member.StandsFor) : (tuple members).StandsFor := by
  intro text
  -- The brackets are kept, so a text that comes from the pattern splits where the pattern does.
  rw [letters, Fills.letter_cons_iff (bracket_ne_wildcard (by simp))]
  simp only [Fills.append_iff, fills_lettersAll_iff hmembers, Fills.singleton_iff,
    replaces_iff_of_ne (bracket_ne_wildcard (show ')' ∈ _ by simp)), covers_tuple_iff]
  constructor
  · rintro ⟨_, ⟨_, _, ⟨types, hwfs, hcovers, rfl⟩, rfl, rfl⟩, rfl⟩
    exact ⟨.tuple types, .tuple hwfs, ⟨types, rfl, hcovers⟩, rfl⟩
  · rintro ⟨_, hwf, ⟨types, rfl, hcovers⟩, rfl⟩
    cases hwf with
    | tuple hwfs => exact ⟨_, ⟨_, _, ⟨types, hwfs, hcovers, rfl⟩, rfl, rfl⟩, rfl⟩

theorem standsFor_dictEntry {key value : SigType} (hbasic : key.isBasic = true)
    (hwf : key.WellFormed true) (hkey : key.StandsFor) (hvalue : value.StandsFor) :
    (dictEntry key value).StandsFor := by
  intro text
  rw [letters, Fills.letter_cons_iff (bracket_ne_wildcard (by simp))]
  simp only [Fills.append_iff, hkey _, hvalue _, Fills.singleton_iff,
    replaces_iff_of_ne (bracket_ne_wildcard (show '}' ∈ _ by simp)), covers_dictEntry_iff]
  constructor
  · rintro ⟨_, ⟨_, _, ⟨k, hk, hcoversKey, rfl⟩,
      ⟨_, _, ⟨v, hv, hcoversValue, rfl⟩, rfl, rfl⟩, rfl⟩, rfl⟩
    exact ⟨.dictEntry k v, .dictEntry (isBasic_of_covers hwf hbasic hcoversKey) hk hv,
      ⟨k, v, rfl, hcoversKey, hcoversValue⟩, rfl⟩
  · rintro ⟨_, hentry, ⟨k, v, rfl, hcoversKey, hcoversValue⟩, rfl⟩
    cases hentry with
    | dictEntry _ hk hv =>
        exact ⟨_, ⟨_, _, ⟨k, hk, hcoversKey, rfl⟩,
          ⟨_, _, ⟨v, hv, hcoversValue, rfl⟩, rfl, rfl⟩, rfl⟩, rfl⟩

theorem wellFormed_maybe_iff {wildcards : Bool} {element : SigType} :
    (maybe element).WellFormed wildcards ↔ element.WellFormed wildcards := by
  constructor
  · intro hwf
    cases hwf with
    | maybe helement => exact helement
  · exact .maybe

theorem wellFormed_array_iff {wildcards : Bool} {element : SigType} :
    (array element).WellFormed wildcards ↔ element.WellFormed wildcards := by
  constructor
  · intro hwf
    cases hwf with
    | array helement => exact helement
  · exact .array

/-- Every pattern stands for the types that it covers. -/
theorem standsFor_of_wellFormed {pattern : SigType} (hwf : pattern.WellFormed true) :
    pattern.StandsFor := by
  induction hwf with
  | basic code =>
      exact standsFor_letter code.letter_ne_wildcard rfl (.basic code) (fun _ => covers_basic_iff)
  | variant =>
      exact standsFor_letter (bracket_ne_wildcard (by simp)) rfl .variant
        (fun _ => covers_variant_iff)
  | maybe _ ih =>
      exact standsFor_element (bracket_ne_wildcard (by simp)) (fun _ => rfl)
        (fun _ => wellFormed_maybe_iff) (fun _ => covers_maybe_iff) ih
  | array _ ih =>
      exact standsFor_element (bracket_ne_wildcard (by simp)) (fun _ => rfl)
        (fun _ => wellFormed_array_iff) (fun _ => covers_array_iff) ih
  | tuple _ ih => exact standsFor_tuple ih
  | dictEntry hbasic hkey _ ihkey ihvalue => exact standsFor_dictEntry hbasic hkey ihkey ihvalue
  | wildcard =>
      -- What replaces a wildcard was said in terms of texts; here it meets what is covered.
      intro text
      rw [letters, Fills.singleton_iff, replaces_wildcard_iff]

end SigType

namespace Signature

/-- Two texts that are read are compared by the types that they spell. -/
theorem typeMatches_texts {maxDepth : Int} {text pattern : String} {type shape : SigType}
    (htype : parse maxDepth text = .ok type) (hshape : parsePattern maxDepth pattern = .ok shape) :
    typeMatches maxDepth (.text text) (.text pattern) = .ok (shape.covers type) := by
  rw [typeMatches, typeOf, patternOf, htype, hshape]
  rfl

/-- Types are covered exactly when their texts come from that of the pattern. -/
theorem covers_iff_fills {shape type : SigType} (hshape : shape.WellFormed true)
    (htype : type.WellFormed false) :
    shape.covers type = true ↔ Fills shape.letters type.letters := by
  rw [SigType.standsFor_of_wellFormed hshape]
  constructor
  · intro hcovers
    exact ⟨type, htype, hcovers, rfl⟩
  · rintro ⟨other, hother, hcovers, hletters⟩
    rwa [SigType.letters_inj htype hother hletters]

/-- A signature and a pattern that are both accepted match exactly when the signature comes from the
pattern by replacing its wildcards, each occurrence on its own: `*` by the text of any type, `?` by
a basic code and `r` by the text of a tuple. Without wildcards a pattern matches itself alone. -/
theorem matching_is_replacement {maxDepth : Int} {text pattern : String} {type shape : SigType}
    (htype : parse maxDepth text = .ok type) (hshape : parsePattern maxDepth pattern = .ok shape) :
    ∃ answer, typeMatches maxDepth (.text text) (.text pattern) = .ok answer ∧
      (answer = true ↔ Fills pattern.toList text.toList) ∧
      ((∀ kind : Wildcard, kind.letter ∉ pattern.toList) → (answer = true ↔ text = pattern)) := by
  obtain ⟨hadmits, htext⟩ := parse_eq_ok_iff.mp htype
  obtain ⟨hadmitsShape, hpattern⟩ := parsePattern_eq_ok_iff.mp hshape
  have hfills : shape.covers type = true ↔ Fills pattern.toList text.toList := by
    rw [htext, hpattern]
    exact covers_iff_fills hadmitsShape.wellFormed hadmits.wellFormed
  refine ⟨_, typeMatches_texts htype hshape, hfills, fun hletters => ?_⟩
  rw [hfills, Fills.iff_eq hletters, String.toList_inj]

/-- A dictionary with strings as its keys matches the pattern of all dictionaries, and so its text
comes from that pattern. -/
theorem matching_is_replacement_dictionary :
    typeMatches 8 (.text "a{sv}") (.text "a{?*}") = .ok true ∧
      Fills "a{?*}".toList "a{sv}".toList := by
  have htype : parse 8 "a{sv}" =
      .ok (.array (.dictEntry (.basic (.text .string)) .variant)) := by rfl
  have hshape : parsePattern 8 "a{?*}" =
      .ok (.array (.dictEntry (.wildcard .anyBasic) (.wildcard .anyType))) := by rfl
  have hmatches : typeMatches 8 (.text "a{sv}") (.text "a{?*}") = .ok true := by rfl
  obtain ⟨answer, hanswer, hfills, -⟩ := matching_is_replacement htype hshape
  obtain rfl : answer = true := Except.ok.inj (hanswer.symm.trans hmatches)
  exact ⟨hmatches, hfills.mp rfl⟩

end Signature

end TypedVariant
