import Mathlib
import TypedVariant.Proofs.Text.Parts
import TypedVariant.Proofs.Text.Quoted
import TypedVariant.Proofs.Variant.Building
import TypedVariant.Variant.Printer

/-!
# Printed literals

Numbers and blobs are told apart from each other and from what follows them: a number
ends where a mark stands, a byte has two digits, and a blob is quoted text or a list of
bytes. The word that annotations put before a literal is that of its code.
-/

namespace TypedVariant.Variant

open Text

variable {u w : List Char}

/-! ## Annotations -/

@[simp]
theorem typed_false (type literal : List Char) : typed false type literal = literal := by
  rfl

/-- The same word before two literals leaves them to be compared. -/
theorem annotated_append_cancel {annotate : Bool} {word? : Option String}
    {literal other : List Char}
    (h : annotated annotate word? literal ++ u = annotated annotate word? other ++ w) :
    literal ++ u = other ++ w := by
  unfold annotated at h
  split at h
  next => simpa using h
  next => exact h

/-! ## Numbers -/

/-- A number is written with digits, after a sign or without one. -/
theorem exists_digits (value : Int) : ∃ digits : List Char, digits ≠ [] ∧
    (∀ c ∈ digits, c.isDigit = true) ∧
    ((toString value).toList = digits ∨ (toString value).toList = '-' :: digits) := by
  have hdigits (n : Nat) : ∀ c ∈ Nat.toDigits 10 n, c.isDigit = true :=
    fun c hc => Nat.isDigit_of_mem_toDigits (by decide) (by decide) hc
  cases value with
  | ofNat n =>
      refine ⟨Nat.toDigits 10 n, Nat.toDigits_ne_nil, hdigits n, .inl ?_⟩
      simp [Int.toString_eq_repr, Int.repr, Nat.repr]
  | negSucc n =>
      refine ⟨Nat.toDigits 10 (n + 1), Nat.toDigits_ne_nil, hdigits _, .inr ?_⟩
      simp [Int.toString_eq_repr, Int.repr, Nat.repr]

theorem integerLiteral_of_ne_byte {code : IntegerCode} (hbyte : code ≠ .byte) (value : Int) :
    integerLiteral code value = (toString value).toList := by
  cases code <;> first | rfl | exact absurd rfl hbyte

/-- The letters that numbers are written with. -/
def IsNumeral (c : Char) : Prop :=
  c = '-' ∨ c.isDigit = true

theorem isNumeral_of_mem_toString {value : Int} : ∀ c ∈ (toString value).toList, IsNumeral c := by
  obtain ⟨digits, -, hdigits, hvalue | hvalue⟩ := exists_digits value
  · rw [hvalue]
    exact fun c hc => .inr (hdigits c hc)
  · rw [hvalue, List.forall_mem_cons]
    exact ⟨.inl rfl, fun c hc => .inr (hdigits c hc)⟩

theorem not_mem_closingMarks_of_isNumeral {c : Char} (hc : IsNumeral c) : c ∉ closingMarks := by
  intro hmark
  have hmarks : ∀ mark ∈ closingMarks, mark ≠ '-' ∧ mark.isDigit = false := by
    simp [closingMarks, Char.isDigit]
  obtain ⟨hsign, hdigit⟩ := hmarks c hmark
  obtain rfl | hc := hc
  · exact hsign rfl
  · simp [hdigit] at hc

theorem exists_integerLiteral_cons (code : IntegerCode) (value : Int) :
    ∃ c rest, integerLiteral code value = c :: rest ∧ IsNumeral c := by
  by_cases hbyte : code = .byte
  · subst hbyte
    exact ⟨_, _, rfl, .inr (by decide)⟩
  · rw [integerLiteral_of_ne_byte hbyte]
    obtain ⟨digits, hne, -, hvalue⟩ := exists_digits value
    cases hletters : (toString value).toList with
    | nil =>
        obtain hvalue | hvalue := hvalue
        · exact absurd (hvalue.symm.trans hletters) hne
        · cases hvalue.symm.trans hletters
    | cons c rest =>
        have hmem : c ∈ (toString value).toList := by
          rw [hletters]
          exact List.mem_cons_self
        exact ⟨c, rest, rfl, isNumeral_of_mem_toString c hmem⟩

theorem byteLiteral_append_inj {n m : Nat} (hn : n < 256) (hm : m < 256)
    (h : byteLiteral n ++ u = byteLiteral m ++ w) : n = m ∧ u = w := by
  simp only [byteLiteral, List.cons_append, List.cons.injEq, true_and] at h
  have hpow : Nat.pow 16 2 = 256 := by rfl
  exact hex_append_inj (hn.trans_eq hpow.symm) (hm.trans_eq hpow.symm) h

/-- Integers of one code are told apart. -/
theorem splits_integerLiteral {code : IntegerCode} {a b : Int} (ha : code.Holds a)
    (hb : code.Holds b) : Splits (integerLiteral code) a b := by
  intro u w hu hw h
  by_cases hbyte : code = .byte
  · subst hbyte
    obtain ⟨halow, hahigh⟩ := ha
    obtain ⟨hblow, hbhigh⟩ := hb
    simp only [IntegerCode.low, IntegerCode.high] at halow hahigh hblow hbhigh
    obtain ⟨hvalue, rfl⟩ := byteLiteral_append_inj (by omega) (by omega) h
    exact ⟨by omega, rfl⟩
  · rw [integerLiteral_of_ne_byte hbyte, integerLiteral_of_ne_byte hbyte] at h
    obtain ⟨hvalue, rfl⟩ := run_append_inj
      (fun c hc => not_mem_closingMarks_of_isNumeral (isNumeral_of_mem_toString c hc))
      (fun c hc => not_mem_closingMarks_of_isNumeral (isNumeral_of_mem_toString c hc)) hu hw h
    rw [String.toList_inj, Int.toString_eq_repr, Int.toString_eq_repr] at hvalue
    exact ⟨Int.repr_inj.mp hvalue, rfl⟩

/-! ## Blobs -/

def byteLetter (b : UInt8) : Char :=
  Char.ofNat b.toNat

theorem byteLetter_injective : Function.Injective byteLetter := by
  intro a b h
  have htoNat (c : UInt8) : (byteLetter c).toNat = c.toNat := by
    have hc := c.toNat_lt
    rw [byteLetter, Char.toNat_ofNat, if_pos (.inl (by omega))]
  rw [← UInt8.toNat_inj, ← htoNat a, ← htoNat b, h]

/-- What is printed as text ends in a NUL, which is left out. -/
theorem exists_of_isPrintableBlob {blob : List UInt8} (hprintable : isPrintableBlob blob = true) :
    blob = blob.dropLast ++ [0] := by
  unfold isPrintableBlob at hprintable
  split at hprintable
  next last body hreverse =>
    obtain rfl : last = 0 := by simpa using (Bool.and_eq_true_iff.mp hprintable).1
    obtain rfl : blob = body.reverse ++ [0] := by simpa using congrArg List.reverse hreverse
    simp
  next => cases hprintable

variable {annotate : Bool} {blob other : List UInt8}

/-- A blob that is printed as text has no annotation. -/
theorem printBlob_text (hprintable : isPrintableBlob blob = true) :
    printBlob annotate blob = 'b' :: Text.Quoted.encode (blob.dropLast.map byteLetter) := by
  rw [printBlob, if_pos hprintable]
  rfl

/-- Blobs that are not printed as text are lists of bytes, with a word before the first one that
needs no annotations to be there. -/
theorem printBlob_cons {b : UInt8} {rest : List UInt8}
    (hplain : isPrintableBlob (b :: rest) = false) :
    printBlob annotate (b :: rest) = "[byte ".toList ++
      (listed (fun c : UInt8 => byteLiteral c.toNat) (fun c => byteLiteral c.toNat)
        (b :: rest) ++ [']']) := by
  rw [printBlob, hplain, List.map_cons]
  dsimp only
  rw [intercalate_cons_map, listed]
  simp

theorem splits_byteLiteral (b c : UInt8) : Splits (fun b : UInt8 => byteLiteral b.toNat) b c := by
  intro u w _ _ h
  obtain ⟨hnumber, rfl⟩ := byteLiteral_append_inj b.toNat_lt c.toNat_lt h
  exact ⟨UInt8.toNat_inj.mp hnumber, rfl⟩

/-- Two blobs that are printed as text are told apart. -/
theorem splits_printBlob_text (hblob : isPrintableBlob blob = true)
    (hother : isPrintableBlob other = true) : Splits (printBlob annotate) blob other := by
  intro u w _ _ h
  rw [printBlob_text hblob, printBlob_text hother] at h
  obtain ⟨hbody, rfl⟩ := Text.Quoted.encode_append_inj (List.cons_eq_cons.mp h).2
  have hsame := List.map_injective_iff.mpr byteLetter_injective hbody
  refine ⟨?_, rfl⟩
  rw [exists_of_isPrintableBlob hblob, hsame, ← exists_of_isPrintableBlob hother]

/-- Two lists of bytes are told apart. -/
theorem splits_printBlob_list {b c : UInt8} {rest others : List UInt8}
    (hblob : isPrintableBlob (b :: rest) = false) (hother : isPrintableBlob (c :: others) = false) :
    Splits (printBlob annotate) (b :: rest) (c :: others) := by
  intro u w hu hw h
  rw [printBlob_cons hblob, printBlob_cons hother] at h
  have hbegins (d : UInt8) : BeginsBesides ']' (byteLiteral d.toNat) := ⟨_, _, rfl, by decide⟩
  apply listed_append_inj (by decide : ']' ∈ closingMarks) (by decide)
    (splitInStep_of_forall (fun b _ c _ => splits_byteLiteral b c)).fromFirst
    (fun d _ => hbegins d) (fun d _ => hbegins d)
  simpa using h

end TypedVariant.Variant
