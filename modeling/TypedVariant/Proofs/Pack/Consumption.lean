import TypedVariant.Pack.Value
import TypedVariant.Proofs.Pack.Derivation
import TypedVariant.Proofs.Signature.Cursor

/-!
# What packing takes from a signature

Packing goes through the text of a signature on its own, led by the value, yet it
takes exactly what reading would take there: one complete type, which is the type
of the variant it makes.
-/

namespace TypedVariant

namespace Signature.Cursor

variable {settings : Settings} {depth : Int} {simple : Bool} {c after : Cursor}

theorem exists_packValue_of_pack [Codecs] {x : Native} {v : Variant} (hstart : 0 ≤ c.position)
    (hpack : c.pack settings depth simple x = (.ok v, after)) :
    ∃ rest, Pack.packValue settings c.text depth simple c.upcoming x = (.ok v, rest) ∧
      after = c.advance rest := by
  unfold pack at hpack
  split at hpack
  next => simp at hpack
  next =>
    rw [not_isOutside_of_nonneg hstart] at hpack
    cases hvalue : Pack.packValue settings c.text depth simple c.upcoming x with
    | mk outcome rest =>
        obtain ⟨rfl, rfl⟩ : outcome = .ok v ∧ c.advance rest = after := by
          simpa [hvalue] using hpack
        exact ⟨rest, rfl, rfl⟩

end Signature.Cursor

/-- Packing a text as a whole succeeds on the text of an admitted type alone. -/
theorem packText_eq_ok_iff [Codecs] {settings : Settings} {signature : String} {x : Native}
    {v : Variant} :
    packText settings signature x = .ok v ↔
      ∃ type, Signature.parse settings.maxDepth signature = .ok type ∧
        Pack.Packs settings 0 type x v := by
  have hpack : Pack.packValue settings signature 0 false signature.toList x = (.ok v, []) ↔
      ∃ type, Signature.parse settings.maxDepth signature = .ok type ∧
        Pack.Packs settings 0 type x v := by
    simp only [Pack.packValue_eq_ok_iff, Pack.TakesType, List.append_nil,
      Signature.parse_eq_ok_iff, and_assoc]
  rw [← hpack, packText]
  split
  next hempty =>
    constructor
    · simp
    · intro hvalue
      obtain ⟨type, hparse, -⟩ := hpack.mp hvalue
      obtain ⟨hadmits, htext⟩ := Signature.parse_eq_ok_iff.mp hparse
      simp [Signature.isEmpty_of_toList_eq hadmits.wellFormed htext] at hempty
  next =>
    rcases Pack.packValue settings signature 0 false signature.toList x with
      ⟨_ | found, _ | ⟨c, rest⟩⟩ <;> simp

/-- From any position of a signature, packing takes the text of one type and reading takes the same
text with the same type. A signature that is packed as a whole is therefore the text of a single
type within the limit, and it is the type string of the variant. -/
theorem packing_takes_one_type [Codecs] (settings : Settings) :
    (∀ (depth : Int) (simple : Bool) (c after : Signature.Cursor) (x : Native) (v : Variant),
      0 ≤ c.position → c.position ≤ c.text.length →
      c.pack settings depth simple x = (.ok v, after) →
        c.position < after.position ∧ after.position ≤ c.text.length ∧
        (c.text.toList.take after.position.toNat).drop c.position.toNat = v.typeLetters ∧
        ∃ type, c.read ⟨false, settings.maxDepth⟩ depth simple = (.ok type, after) ∧
          type.text = v.typeString) ∧
    (∀ (signature : String) (x : Native) (v : Variant),
      pack settings (.text signature) x = .ok v →
        (∃ type, Signature.parse settings.maxDepth signature = .ok type) ∧
        v.typeString = signature) := by
  refine ⟨?_, ?_⟩
  · intro depth simple c after x v hstart hend hpack
    obtain ⟨rest, hvalue, rfl⟩ := Signature.Cursor.exists_packValue_of_pack hstart hpack
    obtain ⟨type, hadmits, hupcoming, hpacks⟩ := Pack.packValue_eq_ok_iff.mp hvalue
    obtain ⟨hposition, hbetween⟩ := Signature.Cursor.advance_letters hstart hupcoming
    have hletters := hpacks.typeLetters
    -- The position moves on, since no type has an empty text.
    have htaken : 0 < type.letters.length :=
      List.length_pos_iff.mpr hadmits.wellFormed.letters_ne_nil
    have hlength : type.letters.length + rest.length = c.text.length - c.position.toNat := by
      rw [← List.length_append, ← hupcoming, Signature.Cursor.upcoming_of_nonneg hstart,
        List.length_drop, String.length_toList]
    refine ⟨by omega, by omega, hbetween.trans hletters.symm, type,
      Signature.Cursor.read_of_upcoming hstart hadmits hupcoming, ?_⟩
    rw [SigType.text, Variant.typeString, hletters]
  · intro signature x v hpack
    obtain ⟨type, hparse, hpacks⟩ := packText_eq_ok_iff.mp hpack
    refine ⟨⟨type, hparse⟩, ?_⟩
    rw [Variant.typeString, hpacks.typeLetters, ← (Signature.parse_eq_ok_iff.mp hparse).2,
      String.ofList_toList]

section

open scoped Standard

/-- The array between two strings, and nothing of the string behind it. -/
theorem packing_takes_one_type_array :
    (0 : Int) ≤ 1 ∧ (1 : Int) ≤ "sass".length ∧
      (⟨"sass", 1⟩ : Signature.Cursor).pack {} 0 false (.list [.text "a", .text "b"]) =
        (.ok (.array "s" [.text .string "a", .text .string "b"]), ⟨"sass", 3⟩) ∧
      ("sass".toList.take 3).drop 1 = ['a', 's'] := by
  have hpack : (⟨"sass", 1⟩ : Signature.Cursor).pack {} 0 false (.list [.text "a", .text "b"]) =
      (.ok (.array "s" [.text .string "a", .text .string "b"]), ⟨"sass", 3⟩) := by
    have hpacks : Pack.Packs {} 0 (.array (.basic (.text .string))) (.list [.text "a", .text "b"])
        (.array "s" [.text .string "a", .text .string "b"]) := .flat rfl
    have hadmits : Signature.Admits ⟨false, defaultMaxDepth⟩ 0 false
        (.array (.basic (.text .string))) := ⟨.array (.basic _), by decide, by simp⟩
    rw [Signature.Cursor.pack, if_neg (by decide), Signature.Cursor.not_isOutside_of_nonneg
      (by decide)]
    have hvalue := Pack.packsThrough_of_packs hpacks false hadmits "sass" ['s']
    have hupcoming : (⟨"sass", 1⟩ : Signature.Cursor).upcoming = ['a', 's', 's'] := by rfl
    rw [hupcoming]
    simp only [SigType.letters, BasicCode.letter, TextCode.letter, List.cons_append,
      List.nil_append] at hvalue
    rw [hvalue]
    rfl
  have h := (packing_takes_one_type {}).1 0 false _ _ _ _ (by decide) (by decide) hpack
  exact ⟨by decide, by decide, hpack, h.2.2.1⟩

end

end TypedVariant
