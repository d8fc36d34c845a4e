import TypedVariant.Ebnf
import TypedVariant.Proofs.Text.Character

/-!
# Alternatives and the bars between them

A text is whole if its literals are closed and each of its brackets has a partner. Going
through whole text leaves the state of the splitter as it was, but for the text itself, so
an expression put together from whole alternatives is split into just these, and bars in
literals and brackets split nothing.
-/

namespace TypedVariant.Ebnf

abbrev IsOpening (c : Char) : Prop :=
  c = '(' ∨ c = '[' ∨ c = '{'

abbrev IsClosing (c : Char) : Prop :=
  c = ')' ∨ c = ']' ∨ c = '}'

/-- Literals are closed and brackets have partners, of whatever kind. Within brackets there may be
bars outside of literals; `bars` tells whether there may be outside of brackets too. -/
inductive IsWhole : (bars : Bool) → List Char → Prop
  | nil {bars : Bool} : IsWhole bars []
  | plain {bars : Bool} {c : Char} {rest : List Char} (hquote : isQuote c = false)
      (hopening : ¬IsOpening c) (hclosing : ¬IsClosing c) (hbar : c = '|' → bars = true)
      (hrest : IsWhole bars rest) : IsWhole bars (c :: rest)
  | literal {bars : Bool} {quote : Char} {content rest : List Char} (hquote : isQuote quote = true)
      (hcontent : quote ∉ content) (hrest : IsWhole bars rest) :
      IsWhole bars (quote :: (content ++ quote :: rest))
  | brackets {bars : Bool} {opening closing : Char} {inner rest : List Char}
      (hopening : IsOpening opening) (hclosing : IsClosing closing) (hinner : IsWhole true inner)
      (hrest : IsWhole bars rest) : IsWhole bars (opening :: (inner ++ closing :: rest))

/-- An alternative is a stripped text that is whole without bars, and neither ends a rule nor begins
a comment. -/
structure IsAlternative (text : List Char) : Prop where
  ne_nil : text ≠ []
  bareEnds : Text.HasBareEnds text
  whole : IsWhole false text
  noSemicolon : ';' ∉ text
  noComment : ¬['(', '*'] <:+: text

/-- Alternatives with bars between them. -/
def joined (alternatives : List (List Char)) : List Char :=
  [' ', '|', ' '].intercalate alternatives

variable {s : SplitState} {bars : Bool} {c quote : Char} {text content front back : List Char}
  {complete alternatives : List (List Char)}

theorem joined_cons (a b : List Char) (alternatives : List (List Char)) :
    joined (a :: b :: alternatives) = a ++ ([' ', '|', ' '] ++ joined (b :: alternatives)) := by
  simp [joined, List.intercalate_cons_cons]

theorem joined_singleton (a : List Char) : joined [a] = a :=
  List.intercalate_singleton

/-- What holds of alternatives, and still holds behind one more of them and a bar, holds of all that
are joined. -/
theorem joined_induction {motive : List Char → Prop} (hne : alternatives ≠ [])
    (halternatives : ∀ a ∈ alternatives, IsAlternative a)
    (hlast : ∀ a, IsAlternative a → motive a)
    (hbar : ∀ a rest, IsAlternative a → motive rest → motive (a ++ ([' ', '|', ' '] ++ rest))) :
    motive (joined alternatives) := by
  induction alternatives with
  | nil => exact absurd rfl hne
  | cons a alternatives ih =>
      obtain ⟨ha, halternatives⟩ := List.forall_mem_cons.mp halternatives
      cases alternatives with
      | nil =>
          rw [joined_singleton]
          exact hlast a ha
      | cons b alternatives =>
          rw [joined_cons]
          exact hbar a _ ha (ih (List.cons_ne_nil _ _) halternatives)

/-! ## Going through whole text -/

/-- What is gone through is kept. -/
def SplitState.keep (s : SplitState) (text : List Char) : SplitState :=
  { s with current := s.current ++ text }

theorem SplitState.keep_keep (s : SplitState) (text rest : List Char) :
    (s.keep text).keep rest = s.keep (text ++ rest) := by
  simp [keep]

theorem isQuote_iff : isQuote c = true ↔ c = '"' ∨ c = '\x27' := by
  simp [isQuote]

theorem IsOpening.not_isQuote (hc : IsOpening c) : ¬(c = '"' ∨ c = '\x27') := by
  obtain rfl | rfl | rfl := hc <;> decide

theorem IsClosing.not_isQuote (hc : IsClosing c) : ¬(c = '"' ∨ c = '\x27') := by
  obtain rfl | rfl | rfl := hc <;> decide

theorem IsClosing.not_isOpening (hc : IsClosing c) : ¬IsOpening c := by
  obtain rfl | rfl | rfl := hc <;> decide

theorem step_plain (hstate : s.quote = none) (hquote : isQuote c = false) (hopening : ¬IsOpening c)
    (hclosing : ¬IsClosing c) (hbar : c = '|' → 0 < s.depth) : s.step c = s.keep [c] := by
  have hnoQuote : ¬(c = '"' ∨ c = '\x27') := by
    rw [← isQuote_iff, hquote]
    exact Bool.false_ne_true
  have hnoBar : ¬(c = '|' ∧ s.depth = 0) := fun ⟨hc, hdepth⟩ => (hbar hc).ne' hdepth
  simp only [SplitState.step, SplitState.keep, hstate]
  rw [if_neg hnoQuote, if_neg hopening, if_neg hclosing, if_neg hnoBar]

theorem step_quote (hstate : s.quote = none) (hquote : isQuote c = true) :
    s.step c = { s.keep [c] with quote := some c } := by
  simp only [SplitState.step, SplitState.keep, hstate]
  rw [if_pos (isQuote_iff.mp hquote)]

theorem step_opening (hstate : s.quote = none) (hc : IsOpening c) :
    s.step c = { s.keep [c] with depth := s.depth + 1 } := by
  simp only [SplitState.step, SplitState.keep, hstate]
  rw [if_neg hc.not_isQuote, if_pos hc]

theorem step_closing (hstate : s.quote = none) (hc : IsClosing c) :
    s.step c = { s.keep [c] with depth := s.depth - 1 } := by
  simp only [SplitState.step, SplitState.keep, hstate]
  rw [if_neg hc.not_isQuote, if_neg hc.not_isOpening, if_pos hc]

theorem step_within_literal (hstate : s.quote = some quote) (hc : c ≠ quote) :
    s.step c = s.keep [c] := by
  simp only [SplitState.step, SplitState.keep, hstate]
  rw [if_neg hc]

theorem step_end_of_literal (hstate : s.quote = some quote) :
    s.step quote = { s.keep [quote] with quote := none } := by
  simp only [SplitState.step, SplitState.keep, hstate, if_true]

theorem foldl_step_content (hstate : s.quote = some quote) (hcontent : quote ∉ content) :
    content.foldl SplitState.step s = s.keep content := by
  induction content generalizing s with
  | nil => simp [SplitState.keep]
  | cons c content ih =>
      obtain ⟨hc, hcontent⟩ := not_or.mp (mt List.mem_cons.mpr hcontent)
      rw [List.foldl_cons, step_within_literal hstate (Ne.symm hc),
        ih (s := s.keep [c]) hstate hcontent,
        SplitState.keep_keep, List.singleton_append]

theorem foldl_step_literal (hstate : s.quote = none) (hquote : isQuote quote = true)
    (hcontent : quote ∉ content) :
    (quote :: (content ++ [quote])).foldl SplitState.step s =
      s.keep (quote :: (content ++ [quote])) := by
  rw [List.foldl_cons, List.foldl_append, step_quote hstate hquote, foldl_step_content rfl hcontent,
    List.foldl_cons, step_end_of_literal rfl]
  simp [SplitState.keep, hstate]

/-- Whole text is kept, and no literal or bracket is open behind it that was not before. -/
theorem foldl_step_whole (hwhole : IsWhole bars text) (hstate : s.quote = none)
    (hbars : bars = true → 0 < s.depth) : text.foldl SplitState.step s = s.keep text := by
  induction hwhole generalizing s with
  | nil => simp [SplitState.keep]
  | plain hquote hopening hclosing hbar _ ih =>
      rw [List.foldl_cons, step_plain hstate hquote hopening hclosing (hbars ∘ hbar),
        ih (s := s.keep [_]) hstate hbars, SplitState.keep_keep, List.singleton_append]
  | @literal _ quote content rest hquote hcontent _ ih =>
      have hsplit : quote :: (content ++ quote :: rest) = quote :: (content ++ [quote]) ++ rest := by
        simp
      have hkeep : (s.keep (quote :: (content ++ [quote]))).quote = none := hstate
      rw [hsplit, List.foldl_append, foldl_step_literal hstate hquote hcontent, ih hkeep hbars,
        SplitState.keep_keep]
  | @brackets _ opening closing inner rest hopening hclosing _ _ ihInner ihRest =>
      -- The brackets make the state one deeper for what stands between them only.
      have hinner : inner.foldl SplitState.step { s.keep [opening] with depth := s.depth + 1 } =
          { s.keep (opening :: inner) with depth := s.depth + 1 } := by
        rw [ihInner (s := { s.keep [opening] with depth := s.depth + 1 }) hstate
          fun _ => Nat.succ_pos s.depth]
        simp [SplitState.keep]
      have hclose : SplitState.step { s.keep (opening :: inner) with depth := s.depth + 1 } closing =
          s.keep (opening :: (inner ++ [closing])) := by
        rw [step_closing (s := { s.keep (opening :: inner) with depth := s.depth + 1 }) hstate
          hclosing]
        simp [SplitState.keep]
      have hkeep : (s.keep (opening :: (inner ++ [closing]))).quote = none := hstate
      rw [List.foldl_cons, List.foldl_append, List.foldl_cons, step_opening hstate hopening, hinner,
        hclose, ihRest hkeep hbars, SplitState.keep_keep]
      simp

/-! ## Splitting at the bars -/

theorem step_bar (hstate : s.quote = none) (hdepth : s.depth = 0) :
    s.step '|' = { s with complete := s.finish, current := [] } := by
  simp [SplitState.step, hstate, hdepth]

theorem step_space (hstate : s.quote = none) : s.step ' ' = s.keep [' '] := by
  exact step_plain hstate rfl (by decide) (by decide) fun hbar => absurd hbar (by decide)

/-- An alternative with blanks around it is one more of those that are complete. -/
theorem finish_between (ha : IsAlternative text) (hstate : s.current = front ++ (text ++ back))
    (hfront : ∀ c ∈ front, Text.isBlank c = true) (hback : ∀ c ∈ back, Text.isBlank c = true) :
    s.finish = s.complete ++ [text] := by
  have hstrip := Text.strip_between hfront hback ha.bareEnds
  unfold SplitState.finish
  rw [hstate, hstrip, if_neg (by simpa using ha.ne_nil)]

/-- A bar completes the alternative in front of it, and the blank behind it begins the next. -/
theorem foldl_step_separator (ha : IsAlternative text)
    (hfront : ∀ c ∈ front, Text.isBlank c = true) :
    [' ', '|', ' '].foldl SplitState.step ⟨complete, front ++ text, 0, none⟩ =
      ⟨complete ++ [text], [' '], 0, none⟩ := by
  have hspace : SplitState.step ⟨complete, front ++ text, 0, none⟩ ' ' =
      ⟨complete, front ++ (text ++ [' ']), 0, none⟩ := by
    rw [step_space rfl, SplitState.keep, List.append_assoc]
  have hfinish : SplitState.finish ⟨complete, front ++ (text ++ [' ']), 0, none⟩ =
      complete ++ [text] := finish_between ha rfl hfront Text.isBlank_of_mem_space
  rw [List.foldl_cons, hspace, List.foldl_cons, step_bar rfl rfl, hfinish, List.foldl_cons,
    step_space rfl]
  rfl

/-- Behind complete alternatives and blanks, more of them follow with bars between them. -/
theorem finish_foldl_step (hne : alternatives ≠ [])
    (halternatives : ∀ a ∈ alternatives, IsAlternative a)
    (hfront : ∀ c ∈ front, Text.isBlank c = true) :
    ((joined alternatives).foldl SplitState.step ⟨complete, front, 0, none⟩).finish =
      complete ++ alternatives := by
  induction alternatives generalizing complete front with
  | nil => exact absurd rfl hne
  | cons a alternatives ih =>
      obtain ⟨ha, halternatives⟩ := List.forall_mem_cons.mp halternatives
      have hrun : a.foldl SplitState.step ⟨complete, front, 0, none⟩ =
          ⟨complete, front ++ a, 0, none⟩ :=
        foldl_step_whole ha.whole rfl fun h => absurd h Bool.false_ne_true
      cases alternatives with
      | nil =>
          have hnone : ∀ c ∈ ([] : List Char), Text.isBlank c = true := List.forall_mem_nil _
          rw [joined_singleton, hrun]
          exact finish_between ha (by simp) hfront hnone
      | cons b alternatives =>
          rw [joined_cons, List.foldl_append, List.foldl_append, hrun,
            foldl_step_separator ha hfront]
          refine (ih (List.cons_ne_nil _ _) halternatives Text.isBlank_of_mem_space).trans ?_
          rw [List.append_assoc, List.singleton_append]

/-- An expression is split into the alternatives that it was put together from. -/
theorem splitAlternatives_joined (hne : alternatives ≠ [])
    (halternatives : ∀ a ∈ alternatives, IsAlternative a) :
    splitAlternatives (joined alternatives) = alternatives :=
  finish_foldl_step hne halternatives (List.forall_mem_nil _)

end TypedVariant.Ebnf
