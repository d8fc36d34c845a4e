import Mathlib.Data.List.Forall2
import TypedVariant.Text.Quoted

/-!
# Reading quoted text back

Quoted text is read by the quote that it begins with: escapes are resolved one by one
up to the first quote that is not escaped, and an escape that stands for nothing is
refused. What is read in this way is told by a relation between characters and the
ways to write them between quotes. Whatever was quoted is read back, and what follows
the closing quote is left, so two quoted texts with anything behind them are equal only
if the texts and what follows are.
-/

namespace TypedVariant.Text

/-! ## Hexadecimal numbers -/

/-- The number that hexadecimal digits spell. -/
def hexNumber (digits : List Char) : Nat :=
  digits.foldl (fun n c => 16 * n + (hexValue? c).getD 0) 0

theorem hexValue?_hexDigit {n : Nat} (hn : n < 16) : hexValue? (hexDigit n) = some n := by
  revert n
  decide

theorem length_hex (width n : Nat) : (hex width n).length = width := by
  induction width generalizing n with
  | zero => rfl
  | succ width ih => rw [hex, List.length_append, ih, List.length_singleton]

theorem hexNumber_hex {width n : Nat} (hn : n < Nat.pow 16 width) :
    hexNumber (hex width n) = n := by
  induction width generalizing n with
  | zero =>
      obtain rfl : n = 0 := Nat.lt_one_iff.mp hn
      rfl
  | succ width ih =>
      change n < Nat.pow 16 width * 16 at hn
      have hhigh : hexNumber (hex width (n / 16)) = n / 16 := ih (by omega)
      rw [hexNumber] at hhigh
      rw [hexNumber, hex, List.foldl_append, hhigh, List.foldl_cons, List.foldl_nil,
        hexValue?_hexDigit (Nat.mod_lt n (by decide)), Option.getD_some, Nat.div_add_mod]

theorem isSome_hexValue?_of_mem_hex {width n : Nat} {d : Char} (hd : d ∈ hex width n) :
    (hexValue? d).isSome := by
  induction width generalizing n with
  | zero => cases hd
  | succ width ih =>
      obtain hhigh | hlow := List.mem_append.mp hd
      · exact ih hhigh
      · rw [List.mem_singleton.mp hlow, hexValue?_hexDigit (Nat.mod_lt n (by decide))]
        rfl

/-- Numbers in a fixed number of digits are told apart, and from what follows. -/
theorem hex_append_inj {width n m : Nat} {u w : List Char} (hn : n < Nat.pow 16 width)
    (hm : m < Nat.pow 16 width) (h : hex width n ++ u = hex width m ++ w) : n = m ∧ u = w := by
  obtain ⟨hdigits, hrest⟩ := List.append_inj h (by rw [length_hex, length_hex])
  have hnumber := congrArg hexNumber hdigits
  rw [hexNumber_hex hn, hexNumber_hex hm] at hnumber
  exact ⟨hnumber, hrest⟩

namespace Quoted

/-! ## Escapes -/

/-- Whether a character serves as a quote. -/
def IsQuote (quote : Char) : Prop :=
  quote = '\x27' ∨ quote = '"'

instance (quote : Char) : Decidable (IsQuote quote) :=
  inferInstanceAs (Decidable (_ ∨ _))

theorem isQuote_quoteOf (text : List Char) : IsQuote (quoteOf text) := by
  unfold quoteOf
  split
  next => exact .inr rfl
  next => exact .inl rfl

/-- The character that a letter behind a backslash stands for. -/
def unescaped? : Char → Option Char
  | '\\' => some '\\'
  | 'a' => some '\x07'
  | 'b' => some '\x08'
  | 'f' => some '\x0c'
  | 'n' => some '\n'
  | 'r' => some '\r'
  | 't' => some '\t'
  | 'v' => some '\x0b'
  | _ => none

/-- The ways to write a character between quotes: as it is, unless it is the quote or a backslash,
or behind a backslash. There the quote stands for itself, a letter for its character, and `u` with
four hexadecimal digits for the character of that number. -/
inductive Writes (quote : Char) : Char → List Char → Prop
  | plain {c : Char} (hquote : c ≠ quote) (hbackslash : c ≠ '\\') : Writes quote c [c]
  | quote : Writes quote quote ['\\', quote]
  | letter {c letter : Char} (hletter : unescaped? letter = some c) :
      Writes quote c ['\\', letter]
  | number {c : Char} {digits : List Char} (hlength : digits.length = 4)
      (hdigits : ∀ d ∈ digits, (hexValue? d).isSome) (hnumber : hexNumber digits = c.toNat) :
      Writes quote c ('\\' :: 'u' :: digits)

/-- The character whose number four hexadecimal digits spell. -/
def numbered? (digits : List Char) : Option Char :=
  let c := Char.ofNat (hexNumber digits)
  if digits.length = 4 ∧ digits.all (hexValue? · |>.isSome) ∧ hexNumber digits = c.toNat then some c
  else none

/-- Reads one character, which may be escaped, and leaves the rest. -/
def resolve (quote : Char) : List Char → Option (Char × List Char)
  | '\\' :: 'u' :: rest => (numbered? (rest.take 4)).map (·, rest.drop 4)
  | '\\' :: c :: rest => if c = quote then some (c, rest) else (unescaped? c).map (·, rest)
  | ['\\'] => none
  | c :: rest => some (c, rest)
  | [] => none

variable {quote c d : Char} {text rest digits written : List Char}

theorem numbered?_eq_some_iff : numbered? digits = some c ↔
    digits.length = 4 ∧ (∀ d ∈ digits, (hexValue? d).isSome) ∧ hexNumber digits = c.toNat := by
  unfold numbered?
  constructor
  · intro h
    dsimp only at h
    split_ifs at h with hspelled
    obtain rfl := Option.some.inj h
    exact ⟨hspelled.1, List.all_eq_true.mp hspelled.2.1, hspelled.2.2⟩
  · rintro ⟨hlength, hdigits, hnumber⟩
    dsimp only
    rw [hnumber, Char.ofNat_toNat, if_pos ⟨hlength, List.all_eq_true.mpr hdigits, rfl⟩]

theorem unescaped?_eq_none_of_isQuote (hquote : IsQuote quote) : unescaped? quote = none := by
  obtain rfl | rfl := hquote <;> rfl

theorem ne_backslash_of_isQuote (hquote : IsQuote quote) : quote ≠ '\\' := by
  obtain rfl | rfl := hquote <;> decide

theorem resolve_escape (hc : c ≠ 'u') : resolve quote ('\\' :: c :: rest) =
    if c = quote then some (c, rest) else (unescaped? c).map (·, rest) := by
  rw [resolve]
  simp [hc]

theorem resolve_of_ne_backslash (hc : c ≠ '\\') :
    resolve quote (c :: rest) = some (c, rest) := by
  rw [resolve] <;> simp [hc]

theorem Writes.exists_cons (hquote : IsQuote quote) (hwrites : Writes quote c written) :
    ∃ first others, written = first :: others ∧ first ≠ quote := by
  have hbackslash := (ne_backslash_of_isQuote hquote).symm
  cases hwrites with
  | plain hplain => exact ⟨_, _, rfl, hplain⟩
  | quote => exact ⟨_, _, rfl, hbackslash⟩
  | letter => exact ⟨_, _, rfl, hbackslash⟩
  | number => exact ⟨_, _, rfl, hbackslash⟩

/-- A character is read from each of the ways to write it, whatever follows. -/
theorem Writes.resolve (hquote : IsQuote quote) (hwrites : Writes quote c written)
    (rest : List Char) : resolve quote (written ++ rest) = some (c, rest) := by
  cases hwrites with
  | plain _ hbackslash => exact resolve_of_ne_backslash hbackslash
  | quote =>
      have hu : quote ≠ 'u' := by
        obtain rfl | rfl := hquote <;> decide
      exact (resolve_escape hu).trans (if_pos rfl)
  | @letter _ letter hletter =>
      have hu : letter ≠ 'u' := by
        rintro rfl
        cases hletter
      have hne : letter ≠ quote := by
        rintro rfl
        cases hletter.symm.trans (unescaped?_eq_none_of_isQuote hquote)
      rw [List.cons_append, List.cons_append, List.nil_append, resolve_escape hu, if_neg hne,
        hletter, Option.map_some]
  | number hlength hdigits hnumber =>
      have hspelled := numbered?_eq_some_iff.mpr ⟨hlength, hdigits, hnumber⟩
      rw [List.cons_append, List.cons_append, Quoted.resolve, List.take_left' hlength,
        List.drop_left' hlength, hspelled, Option.map_some]

/-- What is read where no quote stands is written there. -/
theorem exists_writes_of_resolve (hhead : text.head? ≠ some quote)
    (hresolve : resolve quote text = some (c, rest)) :
    ∃ written, Writes quote c written ∧ text = written ++ rest := by
  -- The branches are those of the reader, in its order: a number, another escape, and plain text.
  unfold resolve at hresolve
  split at hresolve
  next left =>
    obtain ⟨d, hspelled, hread⟩ := Option.map_eq_some_iff.mp hresolve
    obtain ⟨rfl, rfl⟩ := Prod.mk.inj hread
    obtain ⟨hlength, hdigits, hnumber⟩ := numbered?_eq_some_iff.mp hspelled
    refine ⟨_, .number hlength hdigits hnumber, ?_⟩
    rw [List.cons_append, List.cons_append, List.take_append_drop]
  next d left _ =>
    split_ifs at hresolve with hd
    · obtain ⟨rfl, rfl⟩ := Prod.mk.inj (Option.some.inj hresolve)
      subst hd
      exact ⟨_, .quote, rfl⟩
    · obtain ⟨e, hletter, hread⟩ := Option.map_eq_some_iff.mp hresolve
      obtain ⟨rfl, rfl⟩ := Prod.mk.inj hread
      exact ⟨_, .letter hletter, rfl⟩
  next => cases hresolve
  next d left _ hescape hlone =>
    obtain ⟨rfl, rfl⟩ := Prod.mk.inj (Option.some.inj hresolve)
    have hplain : d ≠ quote := by
      rintro rfl
      exact hhead rfl
    have hbackslash : d ≠ '\\' := by
      rintro rfl
      cases left with
      | nil => exact hlone rfl rfl
      | cons e left => exact hescape e left rfl rfl
    exact ⟨_, .plain hplain hbackslash, rfl⟩
  next => cases hresolve

theorem length_of_resolve (hresolve : resolve quote text = some (c, rest)) :
    rest.length < text.length := by
  unfold resolve at hresolve
  split at hresolve
  next left =>
    obtain ⟨d, -, hread⟩ := Option.map_eq_some_iff.mp hresolve
    obtain ⟨rfl, rfl⟩ := Prod.mk.inj hread
    simp only [List.length_drop, List.length_cons]
    omega
  next d left _ =>
    have hleft : left = rest := by
      split_ifs at hresolve
      · exact (Prod.mk.inj (Option.some.inj hresolve)).2
      · obtain ⟨e, -, hread⟩ := Option.map_eq_some_iff.mp hresolve
        exact (Prod.mk.inj hread).2
    subst hleft
    exact Nat.lt_succ_of_lt (Nat.lt_succ_self _)
  next => cases hresolve
  next =>
    obtain ⟨rfl, rfl⟩ := Prod.mk.inj (Option.some.inj hresolve)
    exact Nat.lt_succ_self _
  next => cases hresolve

/-! ## Whole texts -/

/-- Reads text up to the closing quote, and leaves the rest. -/
def readBody (quote : Char) (text : List Char) : Option (List Char × List Char) :=
  if text.head? = some quote then some ([], text.tail)
  else
    match _hresolve : resolve quote text with
    | none => none
    | some (c, left) => (readBody quote left).map (fun (body, rest) => (c :: body, rest))
termination_by text.length
decreasing_by exact length_of_resolve _hresolve

/-- Reads quoted text by the quote that it begins with, and leaves what follows it. -/
def unquote : List Char → Option (List Char × List Char)
  | [] => none
  | quote :: rest => if IsQuote quote then readBody quote rest else none

variable {body : List Char} {parts : List (List Char)}

/-- Characters are read one by one up to the first quote that is not escaped. -/
theorem readBody_of_writes (hquote : IsQuote quote)
    (hparts : List.Forall₂ (Writes quote) body parts) (rest : List Char) :
    readBody quote (parts.flatten ++ quote :: rest) = some (body, rest) := by
  induction hparts with
  | nil =>
      rw [readBody]
      simp
  | @cons c written body parts hwrites _ ih =>
      -- No way of writing begins with the quote, so the text does not end here.
      obtain ⟨first, others, hfirst, hne⟩ := hwrites.exists_cons hquote
      have hread := hwrites.resolve hquote (parts.flatten ++ quote :: rest)
      rw [readBody, List.flatten_cons, List.append_assoc, hread]
      rw [if_neg (by simpa [hfirst] using hne)]
      simp [ih]

theorem exists_writes_of_readBody (hread : readBody quote text = some (body, rest)) :
    ∃ parts, List.Forall₂ (Writes quote) body parts ∧
      text = parts.flatten ++ quote :: rest := by
  induction text using readBody.induct quote generalizing body with
  | case1 text hhead =>
      rw [readBody, if_pos hhead] at hread
      obtain ⟨rfl, rfl⟩ := Prod.mk.inj (Option.some.inj hread)
      exact ⟨[], .nil, (List.cons_head?_tail hhead).symm⟩
  | case2 text hhead hresolve =>
      rw [readBody, if_neg hhead, hresolve] at hread
      cases hread
  | case3 text hhead c left hresolve ih =>
      rw [readBody, if_neg hhead, hresolve] at hread
      obtain ⟨⟨others, last⟩, hothers, hwhole⟩ := Option.map_eq_some_iff.mp hread
      obtain ⟨rfl, rfl⟩ := Prod.mk.inj hwhole
      obtain ⟨written, hwrites, rfl⟩ := exists_writes_of_resolve hhead hresolve
      obtain ⟨parts, hparts, rfl⟩ := ih hothers
      exact ⟨written :: parts, .cons hwrites hparts, by simp⟩

/-- A quoted text stands between two quotes of one kind, each of its characters written in one of
the ways in which it may be. -/
theorem unquote_eq_some_iff : unquote text = some (body, rest) ↔
    ∃ quote parts, IsQuote quote ∧ List.Forall₂ (Writes quote) body parts ∧
      text = quote :: (parts.flatten ++ quote :: rest) := by
  constructor
  · intro h
    cases text with
    | nil => cases h
    | cons quote left =>
        rw [unquote] at h
        split_ifs at h with hquote
        obtain ⟨parts, hparts, rfl⟩ := exists_writes_of_readBody h
        exact ⟨quote, parts, hquote, hparts, rfl⟩
  · rintro ⟨quote, parts, hquote, hparts, rfl⟩
    rw [unquote, if_pos hquote]
    exact readBody_of_writes hquote hparts rest

/-! ## What is written is read -/

/-- An escape letter stands for the character that has it. -/
theorem unescaped?_escapeLetter {letter : Char} (hletter : escapeLetter? c = some letter) :
    unescaped? letter = some c := by
  unfold escapeLetter? at hletter
  split at hletter <;> cases hletter <;> rfl

theorem writes_encodeChar (quote c : Char) : Writes quote c (encodeChar quote c) := by
  unfold encodeChar
  split
  next hc =>
    subst hc
    exact .quote
  next hc =>
    split
    next letter hletter => exact .letter (unescaped?_escapeLetter hletter)
    next hnone =>
      split
      next hcontrol =>
        have hsmall : c.toNat < 65536 := by omega
        exact .number (length_hex 4 c.toNat) (fun d => isSome_hexValue?_of_mem_hex)
          (hexNumber_hex hsmall)
      next =>
        refine .plain hc ?_
        rintro rfl
        cases hnone

/-- Quoted text is read back, and what follows it is left. -/
theorem unquote_encode (text rest : List Char) :
    unquote (encode text ++ rest) = some (text, rest) := by
  have hparts : List.Forall₂ (Writes (quoteOf text)) text (text.map (encodeChar (quoteOf text))) :=
    List.forall₂_map_right_iff.mpr
      (List.forall₂_same.mpr fun c _ => writes_encodeChar (quoteOf text) c)
  refine unquote_eq_some_iff.mpr ⟨_, _, isQuote_quoteOf text, hparts, ?_⟩
  rw [encode, List.flatMap_def]
  simp

/-- Quoted texts are told apart, and from what follows them. -/
theorem encode_append_inj {text other u w : List Char}
    (h : encode text ++ u = encode other ++ w) : text = other ∧ u = w := by
  have hread := unquote_encode text u
  rw [h, unquote_encode] at hread
  simpa [eq_comm] using hread

end Quoted

/-- Text between quotes is read up to the first quote that is not escaped, and the escapes in it
are those for which there is a way of writing. Whatever was quoted is read back, whatever follows it
is left, and no quoted text goes on as another. -/
theorem quoted_text_is_self_delimiting :
    (∀ text body rest : List Char, Quoted.unquote text = some (body, rest) ↔
      ∃ quote parts, Quoted.IsQuote quote ∧ List.Forall₂ (Quoted.Writes quote) body parts ∧
        text = quote :: (parts.flatten ++ quote :: rest)) ∧
      (∀ t w : String, Quoted.unquote (quoted t ++ w).toList = some (t.toList, w.toList)) ∧
      Function.Injective quoted ∧
      ∀ t u : String, (quoted t).toList <+: (quoted u).toList ↔ t = u := by
  have hbegins : ∀ t u : String, (quoted t).toList <+: (quoted u).toList → t = u := by
    rintro t u ⟨rest, hrest⟩
    rw [quoted, quoted, String.toList_ofList, String.toList_ofList] at hrest
    have hsame : Quoted.encode t.toList ++ rest = Quoted.encode u.toList ++ [] := by
      rw [hrest, List.append_nil]
    exact String.toList_inj.mp (Quoted.encode_append_inj hsame).1
  refine ⟨fun text body rest => Quoted.unquote_eq_some_iff, fun t w => ?_, fun t u h => ?_,
    fun t u => ⟨hbegins t u, ?_⟩⟩
  · rw [String.toList_append, quoted, String.toList_ofList]
    exact Quoted.unquote_encode t.toList w.toList
  · exact hbegins t u (h ▸ List.prefix_refl _)
  · rintro rfl
    exact List.prefix_refl _

/-- Between single quotes no double quote may be escaped, nor any character by less than four
digits. -/
example : Quoted.unquote "'it\\'s\\u000a' on".toList = some ("it's\n".toList, " on".toList) ∧
    Quoted.unquote "'\\\"'".toList = none ∧ Quoted.unquote "'\\ua'".toList = none := by
  decide +kernel

end TypedVariant.Text
