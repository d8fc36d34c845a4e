import Mathlib.Data.List.Basic
import TypedVariant.Signature.Type

/-!
# The grammar of types

The productions say which texts are complete types and which type each of them
spells. A pattern may hold three more letters. The derived types are exactly the
well-formed ones, and the text of a derivation is the text of its type, so later
modules speak of well-formed types and their letters instead of derivations.
-/

namespace TypedVariant

/-- The texts of basic types. A pattern may have `?` in the place of one. -/
inductive IsBasicType (wildcards : Bool) : SigType → List Char → Prop
  | code (code : BasicCode) : IsBasicType wildcards (.basic code) [code.letter]
  | any (hallowed : wildcards = true) : IsBasicType wildcards (.wildcard .anyBasic) ['?']

/-- The texts of complete types. The members of a tuple are any number of complete types, each
with its text; the key of a dictionary entry is a basic type. -/
inductive IsCompleteType (wildcards : Bool) : SigType → List Char → Prop
  | basic {type : SigType} {text : List Char} (hbasic : IsBasicType wildcards type text) :
      IsCompleteType wildcards type text
  | variant : IsCompleteType wildcards .variant ['v']
  | maybe {element : SigType} {text : List Char}
      (helement : IsCompleteType wildcards element text) :
      IsCompleteType wildcards (.maybe element) ('m' :: text)
  | array {element : SigType} {text : List Char}
      (helement : IsCompleteType wildcards element text) :
      IsCompleteType wildcards (.array element) ('a' :: text)
  | tuple (members : List (SigType × List Char))
      (hmembers : ∀ member ∈ members, IsCompleteType wildcards member.1 member.2) :
      IsCompleteType wildcards (.tuple (members.map Prod.fst))
        ('(' :: (members.flatMap Prod.snd ++ [')']))
  | dictEntry {key value : SigType} {keyText valueText : List Char}
      (hkey : IsBasicType wildcards key keyText)
      (hvalue : IsCompleteType wildcards value valueText) :
      IsCompleteType wildcards (.dictEntry key value)
        ('{' :: (keyText ++ (valueText ++ ['}'])))
  | anyType (hallowed : wildcards = true) : IsCompleteType wildcards (.wildcard .anyType) ['*']
  | anyTuple (hallowed : wildcards = true) : IsCompleteType wildcards (.wildcard .anyTuple) ['r']

namespace SigType

/-- A type that text can spell: its keys are basic, its codes listed, and it holds wildcards only
where they are allowed. -/
inductive WellFormed (wildcards : Bool) : SigType → Prop
  | basic (code : BasicCode) : WellFormed wildcards (.basic code)
  | variant : WellFormed wildcards .variant
  | maybe {element : SigType} (helement : WellFormed wildcards element) :
      WellFormed wildcards (.maybe element)
  | array {element : SigType} (helement : WellFormed wildcards element) :
      WellFormed wildcards (.array element)
  | tuple {members : List SigType} (hmembers : ∀ member ∈ members, WellFormed wildcards member) :
      WellFormed wildcards (.tuple members)
  | dictEntry {key value : SigType} (hbasic : key.isBasic = true)
      (hkey : WellFormed wildcards key) (hvalue : WellFormed wildcards value) :
      WellFormed wildcards (.dictEntry key value)
  | wildcard {kind : Wildcard} (hallowed : wildcards = true) :
      WellFormed wildcards (.wildcard kind)

mutual

/-- How deep a type nests: a type without children not at all, any other one level deeper than its
deepest child. -/
def nesting : SigType → Nat
  | maybe element => element.nesting + 1
  | array element => element.nesting + 1
  | tuple members => nestingBelow members
  | dictEntry key value => max key.nesting value.nesting + 1
  | basic _ | variant | wildcard _ | unlisted _ | unlistedWildcard _ => 0

/-- One level more than the deepest of several types; none at all if there are none. -/
def nestingBelow : List SigType → Nat
  | [] => 0
  | type :: rest => max (type.nesting + 1) (nestingBelow rest)

end

theorem nestingBelow_le_iff {members : List SigType} {n : Nat} :
    nestingBelow members ≤ n ↔ ∀ member ∈ members, member.nesting + 1 ≤ n := by
  induction members with
  | nil => simp [nestingBelow]
  | cons type rest ih => simp only [nestingBelow, Nat.max_le, ih, List.forall_mem_cons]

theorem nesting_lt_nestingBelow {members : List SigType} {member : SigType}
    (hmember : member ∈ members) : member.nesting < nestingBelow members :=
  nestingBelow_le_iff.mp (Nat.le_refl _) member hmember

theorem nestingBelow_drop_le (members : List SigType) (n : Nat) :
    nestingBelow (members.drop n) ≤ nestingBelow members :=
  nestingBelow_le_iff.mpr (fun _ hmember => nesting_lt_nestingBelow (List.mem_of_mem_drop hmember))

@[simp]
theorem toList_text (type : SigType) : type.text.toList = type.letters :=
  String.toList_ofList

theorem lettersAll_eq_flatMap (types : List SigType) :
    lettersAll types = types.flatMap letters := by
  induction types with
  | nil => rfl
  | cons type rest ih => simp [lettersAll, ih]

theorem lettersAll_append (front back : List SigType) :
    lettersAll (front ++ back) = lettersAll front ++ lettersAll back := by
  simp [lettersAll_eq_flatMap]

/-- The basic types among the well-formed ones are those of the production of basic types. -/
theorem isBasicType_iff {wildcards : Bool} {type : SigType} {text : List Char} :
    IsBasicType wildcards type text ↔
      type.WellFormed wildcards ∧ type.isBasic = true ∧ text = type.letters := by
  constructor
  · intro h
    cases h with
    | code code => exact ⟨.basic code, rfl, rfl⟩
    | any hallowed => exact ⟨.wildcard hallowed, rfl, rfl⟩
  · rintro ⟨hwf, hbasic, rfl⟩
    cases hwf with
    | basic code => exact .code code
    | @wildcard kind hallowed =>
        cases kind with
        | anyBasic => exact .any hallowed
        | anyType | anyTuple => simp [isBasic] at hbasic
    | variant | maybe _ | array _ | tuple _ | dictEntry _ _ _ => simp [isBasic] at hbasic

/-- The members of a tuple with their texts, when each is well-formed. -/
theorem isCompleteType_tuple {wildcards : Bool} {members : List SigType}
    (hmembers : ∀ member ∈ members, IsCompleteType wildcards member member.letters) :
    IsCompleteType wildcards (.tuple members) (SigType.tuple members).letters := by
  have h := IsCompleteType.tuple (members.map (fun member => (member, member.letters)))
    (by simpa using hmembers)
  simpa [letters, lettersAll_eq_flatMap, List.flatMap_map, Function.comp_def] using h

/-- The grammar derives the well-formed types, each from its own text alone. -/
theorem isCompleteType_iff {wildcards : Bool} {type : SigType} {text : List Char} :
    IsCompleteType wildcards type text ↔
      type.WellFormed wildcards ∧ text = type.letters := by
  constructor
  · intro h
    induction h with
    | basic hbasic =>
        obtain ⟨hwf, -, htext⟩ := isBasicType_iff.mp hbasic
        exact ⟨hwf, htext⟩
    | variant => exact ⟨.variant, rfl⟩
    | maybe _ ih => exact ⟨.maybe ih.1, by rw [ih.2, letters]⟩
    | array _ ih => exact ⟨.array ih.1, by rw [ih.2, letters]⟩
    | tuple members _ ih =>
        -- The texts of the members are those of their types, so are the two joined together.
        refine ⟨.tuple ?_, ?_⟩
        · intro member hmember
          obtain ⟨part, hpart, rfl⟩ := List.mem_map.mp hmember
          exact (ih part hpart).1
        · have htexts : members.flatMap Prod.snd = (members.map Prod.fst).flatMap letters := by
            rw [List.flatMap_map]
            exact List.flatMap_congr (fun part hpart => (ih part hpart).2)
          rw [letters, lettersAll_eq_flatMap, htexts]
    | dictEntry hkey _ ih =>
        obtain ⟨hwf, hbasic, htext⟩ := isBasicType_iff.mp hkey
        exact ⟨.dictEntry hbasic hwf ih.1, by rw [htext, ih.2, letters]⟩
    | anyType hallowed | anyTuple hallowed => exact ⟨.wildcard hallowed, rfl⟩
  · rintro ⟨hwf, rfl⟩
    induction hwf with
    | basic code => exact .basic (.code code)
    | variant => exact .variant
    | maybe _ ih => exact .maybe ih
    | array _ ih => exact .array ih
    | tuple _ ih => exact isCompleteType_tuple ih
    | dictEntry hbasic hkey _ _ ih =>
        exact .dictEntry (isBasicType_iff.mpr ⟨hkey, hbasic, rfl⟩) ih
    | @wildcard kind hallowed =>
        cases kind with
        | anyType => exact .anyType hallowed
        | anyBasic => exact .basic (.any hallowed)
        | anyTuple => exact .anyTuple hallowed

theorem allDefinite_iff {types : List SigType} :
    allDefinite types = true ↔ ∀ type ∈ types, type.isDefinite = true := by
  induction types with
  | nil => simp [allDefinite]
  | cons type rest ih => simp [allDefinite, ih]

/-- What text spells without wildcards is definite. -/
theorem WellFormed.isDefinite {type : SigType} (hwf : type.WellFormed false) :
    type.isDefinite = true := by
  induction hwf with
  | basic | variant => rfl
  | maybe _ ih | array _ ih => exact ih
  | tuple _ ih => exact allDefinite_iff.mpr ih
  | dictEntry _ _ _ ihkey ihvalue => simp [SigType.isDefinite, ihkey, ihvalue]
  | wildcard hallowed => simp at hallowed

/-- A definite type is spelled without wildcards, even by a pattern. -/
theorem WellFormed.of_isDefinite {wildcards : Bool} {type : SigType}
    (hwf : type.WellFormed wildcards) (hdefinite : type.isDefinite = true) :
    type.WellFormed false := by
  induction hwf with
  | basic code => exact .basic code
  | variant => exact .variant
  | maybe _ ih => exact .maybe (ih hdefinite)
  | array _ ih => exact .array (ih hdefinite)
  | tuple _ ih =>
      apply WellFormed.tuple
      intro member hmember
      exact ih member hmember (allDefinite_iff.mp hdefinite member hmember)
  | dictEntry hbasic _ _ ihkey ihvalue =>
      rw [SigType.isDefinite, Bool.and_eq_true] at hdefinite
      exact .dictEntry hbasic (ihkey hdefinite.1) (ihvalue hdefinite.2)
  | wildcard => simp [SigType.isDefinite] at hdefinite

/-- A basic type without wildcards is that of a code. -/
theorem WellFormed.exists_code_of_isBasic {type : SigType} (hwf : type.WellFormed false)
    (hbasic : type.isBasic = true) : ∃ code, type = .basic code := by
  cases hwf with
  | basic code => exact ⟨code, rfl⟩
  | wildcard hallowed => simp at hallowed
  | variant | maybe _ | array _ | tuple _ | dictEntry _ _ _ => simp [isBasic] at hbasic

end SigType

end TypedVariant
