import TypedVariant.Proofs.Signature.Parsing
import TypedVariant.Proofs.Variant.Building

/-!
# Types one behind the other

No complete type goes on where another has ended, so types need nothing between them:
the texts of any number of them, joined together, are read as the same types again.
Valid sequences can therefore be joined, and a variant that holds a signature holds
a text of this kind.
-/

namespace TypedVariant

namespace SigType

/-- The texts of several types, joined together. -/
def sequenceText (types : List SigType) : String :=
  String.join (types.map text)

/-- Definite types that nest within the limit. -/
def AllWithin (maxDepth : Int) (types : List SigType) : Prop :=
  ∀ type ∈ types, type.WellFormed false ∧ (type.nesting : Int) ≤ maxDepth

@[simp]
theorem toList_sequenceText (types : List SigType) :
    (sequenceText types).toList = lettersAll types := by
  rw [sequenceText, String.toList_join, List.flatMap_map, lettersAll_eq_flatMap]
  simp only [toList_text]

theorem sequenceText_append (front back : List SigType) :
    sequenceText (front ++ back) = sequenceText front ++ sequenceText back := by
  rw [← String.toList_inj, String.toList_append]
  simp only [toList_sequenceText, lettersAll_append]

theorem AllWithin.append {maxDepth : Int} {front back : List SigType}
    (hfront : AllWithin maxDepth front) (hback : AllWithin maxDepth back) :
    AllWithin maxDepth (front ++ back) :=
  List.forall_mem_append.mpr ⟨hfront, hback⟩

end SigType

namespace Signature

open SigType

theorem readAll_cons_eq_ok_iff {rules : Rules} {depth : Int} {text : List Char} (hne : text ≠ [])
    {first : SigType} {others : List SigType} :
    readAll rules depth text = .ok (first :: others) ↔
      ∃ left, readOne rules depth false text = (.ok first, left) ∧
        readAll rules depth left = .ok others := by
  rw [readAll_of_ne_nil hne, bind_eq_ok_iff]
  simp only [map_eq_ok_iff, List.cons.injEq]
  constructor
  · rintro ⟨type, htype, rest, hrest, rfl, rfl⟩
    exact ⟨_, Prod.ext htype rfl, hrest⟩
  · rintro ⟨left, hfirst, hothers⟩
    rw [hfirst]
    exact ⟨first, rfl, others, hothers, rfl, rfl⟩

/-- A text is read up to its end exactly when it is the text of admitted types, one behind the
other. -/
theorem readAll_eq_ok_iff {rules : Rules} {depth : Int} {text : List Char}
    {types : List SigType} :
    readAll rules depth text = .ok types ↔
      (∀ type ∈ types, Admits rules depth false type) ∧ text = SigType.lettersAll types := by
  -- The first type is read off alone, and the others lie in what it leaves, so the text varies.
  induction types generalizing text with
  | nil =>
      by_cases hne : text = []
      · simp [hne, SigType.lettersAll]
      · simp [readAll_of_ne_nil hne, bind_eq_ok_iff, map_eq_ok_iff, SigType.lettersAll, hne]
  | cons first others ih =>
      by_cases hne : text = []
      · constructor
        · simp [hne]
        · rintro ⟨hadmits, htext⟩
          rw [hne, SigType.lettersAll, List.nil_eq_append_iff] at htext
          exact absurd htext.1 (hadmits first List.mem_cons_self).wellFormed.letters_ne_nil
      · simp only [readAll_cons_eq_ok_iff hne, readOne_eq_ok_iff, ih, List.forall_mem_cons,
          SigType.lettersAll]
        constructor
        · rintro ⟨left, ⟨hfirst, rfl⟩, hothers, rfl⟩
          exact ⟨⟨hfirst, hothers⟩, rfl⟩
        · rintro ⟨⟨hfirst, hothers⟩, htext⟩
          exact ⟨_, ⟨hfirst, htext⟩, hothers, rfl⟩

/-- A text is a sequence of types in one way at most, and only of types within the limit. -/
theorem parseAll_eq_ok_iff {maxDepth : Int} {text : String} {types : List SigType} :
    parseAll maxDepth text = .ok types ↔ AllWithin maxDepth types ∧ text = sequenceText types := by
  have hread : parseAll maxDepth text = .ok types ↔
      readAll ⟨false, maxDepth⟩ 0 text.toList = .ok types := by
    rw [parseAll]
    cases readAll ⟨false, maxDepth⟩ 0 text.toList <;> simp [Except.mapError]
  rw [hread, readAll_eq_ok_iff, ← toList_sequenceText, String.toList_inj]
  simp only [admits_zero_iff, AllWithin]

/-- A valid sequence is the text of types within the default depth. -/
theorem isValidSequence_iff {text : String} :
    isValidSequence text = true ↔
      ∃ types, AllWithin defaultMaxDepth types ∧ text = sequenceText types := by
  simp only [← parseAll_eq_ok_iff, isValidSequence]
  cases parseAll defaultMaxDepth text <;> simp [Except.isOk, Except.toBool]

/-- Valid sequences joined together are one. -/
theorem isValidSequence_append {front back : String} (hfront : isValidSequence front = true)
    (hback : isValidSequence back = true) : isValidSequence (front ++ back) = true := by
  obtain ⟨first, hfirst, rfl⟩ := isValidSequence_iff.mp hfront
  obtain ⟨last, hlast, rfl⟩ := isValidSequence_iff.mp hback
  rw [isValidSequence_iff]
  exact ⟨first ++ last, hfirst.append hlast, (sequenceText_append first last).symm⟩

/-- The texts that may stand in a variant as a signature. -/
theorem accepts_signature_iff {text : String} :
    TextCode.signature.Accepts text ↔
      '\x00' ∉ text.toList ∧ text.length ≤ Variant.maxSignatureLength ∧
        ∃ types, AllWithin defaultMaxDepth types ∧ text = sequenceText types := by
  rw [← isValidSequence_iff, TextCode.Accepts]
  simp [Variant.checkText]

/-- The texts of definite types, joined together, are read as exactly these types; and a text that
is read as several types is theirs joined together. So valid sequences can be joined, and a variant
holds as a signature just the texts of this kind that are short enough and free of NUL. -/
theorem sequences_decode_uniquely (maxDepth : Int) :
    (∀ types, AllWithin maxDepth types → parseAll maxDepth (sequenceText types) = .ok types) ∧
    (∀ text types, parseAll maxDepth text = .ok types →
      sequenceText types = text ∧ AllWithin maxDepth types) ∧
    (∀ front back, isValidSequence front = true → isValidSequence back = true →
      isValidSequence (front ++ back) = true) ∧
    (∀ x v, Variant.ofText .signature x = .ok v ↔
      ∃ text, x = .text text ∧ v = .text .signature text ∧ '\x00' ∉ text.toList ∧
        text.length ≤ 255 ∧ ∃ types, AllWithin defaultMaxDepth types ∧ text = sequenceText types) := by
  refine ⟨fun types hwithin => ?_, fun text types hparse => ?_, fun front back => ?_,
    fun x v => ?_⟩
  · exact parseAll_eq_ok_iff.mpr ⟨hwithin, rfl⟩
  · obtain ⟨hwithin, rfl⟩ := parseAll_eq_ok_iff.mp hparse
    exact ⟨rfl, hwithin⟩
  · exact isValidSequence_append
  · simp only [Variant.ofText_eq_ok_iff, accepts_signature_iff]
    constructor
    · rintro ⟨text, rfl, haccepts, rfl⟩
      exact ⟨text, rfl, rfl, haccepts⟩
    · rintro ⟨text, rfl, rfl, haccepts⟩
      exact ⟨text, rfl, haccepts, rfl⟩

/-- A number and a list of strings are told apart again, and may be followed by the same. -/
theorem sequences_decode_uniquely_pair :
    parseAll 1 "ias" = .ok [.basic (.integer .int32), .array (.basic (.text .string))] ∧
      parseAll (-1) "" = .ok [] ∧ isValidSequence ("ias" ++ "ias") = true := by
  have hwithin {maxDepth : Int} (hlimit : 1 ≤ maxDepth) :
      AllWithin maxDepth [.basic (.integer .int32), .array (.basic (.text .string))] :=
    List.forall_mem_cons.mpr ⟨⟨.basic _, Int.le_trans (by decide) hlimit⟩,
      List.forall_mem_singleton.mpr ⟨.array (.basic _), hlimit⟩⟩
  have hread := (sequences_decode_uniquely 1).1 _ (hwithin (Int.le_refl 1))
  have hdefault := (sequences_decode_uniquely defaultMaxDepth).1 _ (hwithin (by decide))
  have hvalid : isValidSequence "ias" = true := congrArg Except.isOk hdefault
  exact ⟨hread, (sequences_decode_uniquely (-1)).1 [] (List.forall_mem_nil _),
    (sequences_decode_uniquely 1).2.2.1 _ _ hvalid hvalid⟩

end Signature

end TypedVariant
