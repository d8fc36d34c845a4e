import TypedVariant.Json.Reader
import TypedVariant.Json.Writer
import TypedVariant.Proofs.Text.Parts

/-!
# Written tokens are read back

What the reader expects and the text that is left are its whole state: fuel and positions only
bound its steps and name places in refusals. From one state to the next leads a token at the front
of the text. Written strings are read as the texts that they were written for, with every escape
undone, and written integers as the integers, as long as a mark or nothing stands behind them.
-/

namespace TypedVariant.Json

variable {expecting next last : Expecting} {text left rest : List Char} {token : Token}

/-! ## Steps of the reader -/

/-- Reading on from one state comes to the same as reading on from a later one, with any fuel that
is enough for the text. -/
def Leads (expecting : Expecting) (text : List Char) (next : Expecting) (left : List Char) : Prop :=
  ∀ length fuel position, text.length ≤ fuel → ∃ fuel' position', left.length ≤ fuel' ∧
    readTokens length expecting (tokensWithin fuel position text) =
      readTokens length next (tokensWithin fuel' position' left)

theorem Leads.trans (hfirst : Leads expecting text next left) (hlast : Leads next left last rest) :
    Leads expecting text last rest := by
  intro length fuel position hfuel
  obtain ⟨fuel', position', hfuel', hfirst⟩ := hfirst length fuel position hfuel
  obtain ⟨fuel'', position'', hfuel'', hlast⟩ := hlast length fuel' position' hfuel'
  exact ⟨fuel'', position'', hfuel'', hfirst.trans hlast⟩

/-- A token stands at the front of a text, wherever the text begins. -/
def StartsWith (text : List Char) (token : Token) (left : List Char) : Prop :=
  ∃ c rest, text = c :: rest ∧ isBlank c = false ∧ left.length ≤ rest.length ∧
    ∀ position, scanToken position c rest = (token, left)

/-- A token that fits is never one of those that are kept for their faults. -/
theorem readTokens_cons (hadvance : advance expecting token = .ok next) (length position : Nat)
    (tokens : List (Token × Nat)) :
    readTokens length expecting ((token, position) :: tokens) = readTokens length next tokens := by
  have hgood : ∀ fault, token ≠ .badString fault := by
    rintro fault rfl
    cases expecting <;> cases hadvance
  rw [readTokens]
  · rw [hadvance]
  · exact fun fault hbad => absurd hbad (hgood fault)

theorem leads_of_startsWith (hstarts : StartsWith text token left)
    (hadvance : advance expecting token = .ok next) : Leads expecting text next left := by
  obtain ⟨c, rest, rfl, hblank, hlength, hscan⟩ := hstarts
  intro length fuel position hfuel
  cases fuel with
  | zero => simp at hfuel
  | succ fuel =>
      refine ⟨fuel, position + ((c :: rest).length - left.length), ?_, ?_⟩
      · simp only [List.length_cons] at hfuel
        omega
      · rw [tokensWithin, hblank, if_neg (by simp), hscan]
        exact readTokens_cons hadvance length position _

theorem startsWith_mark {c : Char} {mark : Mark} (hmark : markOf? c = some mark)
    (hblank : isBlank c = false) : StartsWith (c :: text) (.mark mark) text :=
  ⟨c, text, rfl, hblank, Nat.le_refl _, fun position => by rw [scanToken, hmark]⟩

/-! ## Strings -/

/-- The four digits of a control character make its code. -/
theorem exists_hex_of_control {n : Nat} (hn : n < 0x20) :
    ∃ a b c d, Text.hex 4 n = [a, b, c, d] ∧ unit? a b c d = some n := by
  refine ⟨_, _, _, _, rfl, ?_⟩
  revert n
  decide

theorem partnerOf_of_control {n : Nat} (hn : n < 0x20) (text : List Char) :
    partnerOf n text = .missing := by
  unfold partnerOf
  split
  next => rw [if_neg (by omega)]
  next => rfl

/-- A written character is read back. Something follows it, the closing quote at the latest. -/
theorem scanString_writeChar (start position : Nat) (c : Char) (htext : text ≠ []) :
    ∃ position', scanString start position (writeChar c ++ text) =
      consChar c (scanString start position' text) := by
  obtain ⟨e, rest, rfl⟩ := List.exists_cons_of_ne_nil htext
  unfold writeChar
  split
  -- Seven characters have an escape of a letter: two marks and five controls.
  iterate 7 exact ⟨_, by simp [scanString, escaped?]; rfl⟩
  next hquote hbackslash _ _ _ _ _ =>
    split
    next hcontrol =>
      obtain ⟨a, b, c', d, hhex, hunit⟩ := exists_hex_of_control hcontrol
      refine ⟨position + 6, ?_⟩
      rw [hhex]
      simp only [List.cons_append, List.nil_append]
      have hunitChar : unitChar c.toNat = c := by
        rw [unitChar, if_neg (by omega), Char.ofNat_toNat]
      rw [scanString, hunit]
      dsimp only
      rw [partnerOf_of_control hcontrol, hunitChar]
    next hplain =>
      refine ⟨position + 1, ?_⟩
      rw [List.singleton_append, scanString, if_neg hplain]
      all_goals simp [show c ≠ '"' from hquote, show c ≠ '\\' from hbackslash]

/-- A written text is read back up to the quote behind it. -/
theorem scanString_written (start position : Nat) (value rest : List Char) :
    scanString start position (value.flatMap writeChar ++ '"' :: rest) = .ok (value, rest) := by
  induction value generalizing position with
  | nil => rw [List.flatMap_nil, List.nil_append, scanString]
  | cons c value ih =>
      rw [List.flatMap_cons, List.append_assoc]
      have hfollowed : value.flatMap writeChar ++ '"' :: rest ≠ [] := by simp
      obtain ⟨position', hscan⟩ := scanString_writeChar start position c hfollowed
      rw [hscan, ih, consChar]

theorem startsWith_string (value rest : List Char) :
    StartsWith (writeString value ++ rest) (.string value) rest := by
  refine ⟨'"', value.flatMap writeChar ++ '"' :: rest, by simp [writeString], by decide, ?_, ?_⟩
  · simp only [List.length_append, List.length_cons]
    omega
  · intro position
    rw [scanToken]
    simp [markOf?, scanString_written]

/-! ## Words -/

theorem startsWith_null (rest : List Char) :
    StartsWith ("null".toList ++ rest) (.word .null) rest :=
  ⟨'n', 'u' :: 'l' :: 'l' :: rest, rfl, by decide, by simp only [List.length_cons]; omega,
    fun _ => rfl⟩

theorem startsWith_bool (value : Bool) (rest : List Char) :
    StartsWith ((if value then "true".toList else "false".toList) ++ rest)
      (.word (if value then .yes else .no)) rest := by
  cases value with
  | true =>
      exact ⟨'t', 'r' :: 'u' :: 'e' :: rest, rfl, by decide,
        by simp only [List.length_cons]; omega, fun _ => rfl⟩
  | false =>
      exact ⟨'f', 'a' :: 'l' :: 's' :: 'e' :: rest, rfl, by decide,
        by simp only [List.length_cons]; omega, fun _ => rfl⟩

/-! ## Integers -/

theorem ofDigits_toDigits (n : Nat) : Numeral.ofDigits (Nat.toDigits 10 n) = n :=
  Nat.ofDigitChars_ten_toDigits

/-- Only zero is written with a leading zero. -/
theorem head?_toDigits {n : Nat} (hn : 0 < n) : (Nat.toDigits 10 n).head? ≠ some '0' := by
  induction n using Nat.base_induction 10 (by decide) with
  | single m hm =>
      rw [Nat.toDigits_of_lt_base hm]
      simp
      omega
  | digit m k hk hm ih =>
      rw [← Nat.toDigits_append_toDigits (by decide) hm hk,
        List.head?_append_of_ne_nil _ Nat.toDigits_ne_nil]
      exact ih hm

/-- Digits as an integer is written with them: there is one at least, and no leading zero. -/
structure IsWhole (digits : List Char) : Prop where
  ne_nil : digits ≠ []
  isDigit : ∀ c ∈ digits, c.isDigit = true
  noLeadingZero : digits.head? = some '0' → digits = ['0']

theorem isWhole_toDigits (n : Nat) : IsWhole (Nat.toDigits 10 n) where
  ne_nil := Nat.toDigits_ne_nil
  isDigit := fun _ hc => Nat.isDigit_of_mem_toDigits (by decide) (by decide) hc
  noLeadingZero := by
    intro hzero
    obtain rfl | hn := Nat.eq_zero_or_pos n
    · rfl
    · exact absurd hzero (head?_toDigits hn)

/-- No digit, point or exponent goes on with a number behind which a value ends. -/
theorem ends_cases (hrest : Text.Ends rest) : rest = [] ∨ ∃ c left, rest = c :: left ∧
    c.isDigit = false ∧ c ≠ '.' ∧ c ≠ 'e' ∧ c ≠ 'E' := by
  cases rest with
  | nil => exact .inl rfl
  | cons c left =>
      have hmarks : ∀ mark ∈ Text.closingMarks,
          mark.isDigit = false ∧ mark ≠ '.' ∧ mark ≠ 'e' ∧ mark ≠ 'E' := by
        simp [Text.closingMarks]
      exact .inr ⟨c, left, rfl, hmarks c (hrest c rfl)⟩

theorem IsWhole.takeWhile {digits : List Char} (hwhole : IsWhole digits) (hrest : Text.Ends rest) :
    (digits ++ rest).takeWhile Char.isDigit = digits := by
  rw [List.takeWhile_append_of_pos hwhole.isDigit]
  obtain rfl | ⟨c, left, rfl, hdigit, -⟩ := ends_cases hrest
  · simp
  · simp [hdigit]

theorem scanNumber?_of_isWhole {digits : List Char} (negative : Bool) (hwhole : IsWhole digits)
    (hrest : Text.Ends rest) :
    scanNumber? ((if negative then ['-'] else []) ++ (digits ++ rest)) =
      some (.integer (if negative then -(Numeral.ofDigits digits) else Numeral.ofDigits digits),
        rest) := by
  have htake := hwhole.takeWhile hrest
  obtain ⟨d, ds, rfl⟩ := List.exists_cons_of_ne_nil hwhole.ne_nil
  have hsign : d ≠ '-' := by
    rintro rfl
    exact absurd (hwhole.isDigit _ List.mem_cons_self) (by decide)
  -- A zero stands alone; behind any other digit all that follow are taken.
  by_cases hzero : d = '0'
  · subst hzero
    obtain rfl : ds = [] := (List.cons_eq_cons.mp (hwhole.noLeadingZero rfl)).2
    obtain rfl | ⟨c, left, rfl, -, hpoint, hexponent, hcapital⟩ := ends_cases hrest
    · cases negative <;> simp [scanNumber?]
    · cases negative <;> simp [scanNumber?, hpoint, hexponent, hcapital]
  · rw [List.cons_append] at htake ⊢
    obtain rfl | ⟨c, left, rfl, -, hpoint, hexponent, hcapital⟩ := ends_cases hrest
    · rw [List.append_nil] at htake ⊢
      cases negative <;> simp [scanNumber?, hzero, hsign, htake]
    · cases negative <;> simp [scanNumber?, hzero, hsign, htake, hpoint, hexponent, hcapital]

/-- An integer is written as digits, with a minus sign before them if it is negative. -/
theorem intText_eq (value : Int) :
    intText value = (if value < 0 then ['-'] else []) ++ Nat.toDigits 10 value.natAbs := by
  cases value with
  | ofNat n => simp [intText, Int.toString_eq_repr, Int.repr, Nat.repr]
  | negSucc n =>
      have hwritten : intText (.negSucc n) = '-' :: Nat.toDigits 10 (n + 1) := by
        simp [intText, Int.toString_eq_repr, Int.repr, Nat.repr]
      rw [hwritten, if_pos (Int.negSucc_lt_zero n)]
      rfl

theorem scanNumber?_written {value : Int} (hrest : Text.Ends rest) :
    scanNumber? (intText value ++ rest) = some (.integer value, rest) := by
  have hscan := scanNumber?_of_isWhole (decide (value < 0)) (isWhole_toDigits value.natAbs) hrest
  simp only [decide_eq_true_eq, ofDigits_toDigits] at hscan
  rw [intText_eq, List.append_assoc, hscan]
  congr 3
  split <;> omega

/-- No word begins with a digit, or with a minus sign and a digit. -/
theorem not_prefix_of_digit {c : Char} (hc : c.isDigit = true) (negative : Bool) :
    ∀ word ∈ words, ¬word.2 <+: (if negative then ['-'] else []) ++ c :: text := by
  have hsecond : ∀ word ∈ words, ∃ first second letters, word.2 = first :: second :: letters ∧
      first.isDigit = false ∧ second.isDigit = false := by
    simp only [words, List.forall_mem_cons]
    exact ⟨⟨_, _, _, rfl, rfl, rfl⟩, ⟨_, _, _, rfl, rfl, rfl⟩, ⟨_, _, _, rfl, rfl, rfl⟩,
      ⟨_, _, _, rfl, rfl, rfl⟩, ⟨_, _, _, rfl, rfl, rfl⟩, ⟨_, _, _, rfl, rfl, rfl⟩, by simp⟩
  rintro word hword ⟨left, hleft⟩
  obtain ⟨first, second, letters, hletters, hfirst, hnext⟩ := hsecond word hword
  rw [hletters] at hleft
  cases negative with
  | true =>
      obtain ⟨-, hrest⟩ := List.cons_eq_cons.mp hleft
      obtain rfl := (List.cons_eq_cons.mp hrest).1
      exact absurd hc (by simp [hnext])
  | false =>
      obtain rfl := (List.cons_eq_cons.mp hleft).1
      exact absurd hc (by simp [hfirst])

theorem scanWord?_eq_none (hwords : ∀ word ∈ words, ¬word.2 <+: text) : scanWord? text = none := by
  rw [scanWord?, List.findSome?_eq_none_iff]
  intro word hword
  have hprefix : word.2.isPrefixOf text = false := by
    rw [Bool.eq_false_iff, Ne, List.isPrefixOf_iff_prefix]
    exact hwords word hword
  simp [behind?, hprefix]

/-- What an integer begins with is no mark, quote or blank. -/
theorem plain_of_sign_or_digit {c : Char} (hc : c = '-' ∨ c.isDigit = true) :
    markOf? c = none ∧ c ≠ '"' ∧ isBlank c = false := by
  have hne (d : Char) (hd : ¬(d = '-' ∨ d.isDigit = true)) : c ≠ d := by
    rintro rfl
    exact hd hc
  refine ⟨?_, hne '"' (by decide), ?_⟩
  · unfold markOf?
    split
    iterate 6 exact absurd rfl (hne _ (by decide))
    rfl
  · simp [isBlank, hne ' ' (by decide), hne '\t' (by decide), hne '\n' (by decide),
      hne '\r' (by decide)]

theorem startsWith_integer {value : Int} (hrest : Text.Ends rest) :
    StartsWith (intText value ++ rest) (.integer value) rest := by
  have hscan : scanNumber? (intText value ++ rest) = some (.integer value, rest) :=
    scanNumber?_written hrest
  obtain ⟨d, ds, hdigits⟩ := List.exists_cons_of_ne_nil (isWhole_toDigits value.natAbs).ne_nil
  have hd : d.isDigit = true := (isWhole_toDigits value.natAbs).isDigit d (by simp [hdigits])
  have htext : intText value ++ rest =
      (if decide (value < 0) then ['-'] else []) ++ d :: (ds ++ rest) := by
    rw [intText_eq, hdigits]
    simp
  have hword : scanWord? (intText value ++ rest) = none := by
    rw [htext]
    exact scanWord?_eq_none (not_prefix_of_digit hd _)
  have hfirst : ∃ c left, intText value ++ rest = c :: left ∧ rest.length ≤ left.length ∧
      (c = '-' ∨ c.isDigit = true) := by
    rw [htext]
    split
    · exact ⟨'-', _, rfl, by simp; omega, .inl rfl⟩
    · exact ⟨d, _, rfl, by simp, .inr hd⟩
  obtain ⟨c, left, hleft, hlength, hc⟩ := hfirst
  obtain ⟨hmark, hquote, hblank⟩ := plain_of_sign_or_digit hc
  refine ⟨c, left, hleft, hblank, hlength, fun position => ?_⟩
  rw [hleft] at hscan hword
  rw [scanToken, hmark]
  simp only [if_neg hquote, hword, hscan, Option.getD_some]

end TypedVariant.Json
