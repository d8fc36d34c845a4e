import Mathlib.Data.List.Nodup
import TypedVariant.Proofs.Ebnf.Alternatives
import TypedVariant.Proofs.Text.Character

/-!
# Written rules are read back

A text shows rules if each of them is written from its name to its semicolon, with blanks and
comments around it, and none begins on the line on which another ends. Comments become blanks, and
nothing else is taken for a comment; of what is left, the rules are scanned one by one. So reading a
text that shows rules of different names gives just these, with their expressions and alternatives,
in the order in which they are written.
-/

namespace TypedVariant.Ebnf

/-! ## Rules and the texts that show them -/

/-- A name is made of letters and digits of ASCII and of underscores, and no digit begins it. -/
def IsName (name : List Char) : Prop :=
  ∃ c rest, name = c :: rest ∧ isNameStart c = true ∧ ∀ d ∈ rest, isNameChar d = true

/-- A rule has a name, and one or more alternatives. -/
structure Rule where
  name : List Char
  alternatives : List (List Char)
  isName : IsName name
  alternatives_ne_nil : alternatives ≠ []
  isAlternative : ∀ a ∈ alternatives, IsAlternative a

namespace Rule

def expression (r : Rule) : List Char :=
  joined r.alternatives

def written (r : Rule) : List Char :=
  r.name ++ ([' ', '=', ' '] ++ (r.expression ++ [' ', ';']))

/-- What is known of a rule once it has been read. -/
def production (r : Rule) : Production where
  name := String.ofList r.name
  expression := String.ofList r.expression
  alternatives := r.alternatives.map String.ofList
  leading := distinct ((r.alternatives.filterMap firstLiteral?).map String.ofList)

end Rule

/-- Blanks and comments, one behind the other. A comment ends where it can first. -/
inductive IsGap : List Char → Prop
  | nil : IsGap []
  | blank {c : Char} {rest : List Char} (hc : Text.isBlank c = true) (hrest : IsGap rest) :
      IsGap (c :: rest)
  | comment {body rest : List Char} (hbody : ¬['*', ')'] <:+: body) (hrest : IsGap rest) :
      IsGap ('(' :: '*' :: (body ++ '*' :: ')' :: rest))

/-- A text shows rules in a given order, with gaps around them. A line ends between two rules. -/
inductive Shows : List Rule → List Char → Prop
  | none {gap : List Char} (hgap : IsGap gap) : Shows [] gap
  | last {before after : List Char} (r : Rule) (hbefore : IsGap before) (hafter : IsGap after) :
      Shows [r] (before ++ (r.written ++ after))
  | line {before after rest : List Char} {rules : List Rule} (r : Rule) (hbefore : IsGap before)
      (hafter : IsGap after) (hrest : Shows rules rest) :
      Shows (r :: rules) (before ++ (r.written ++ (after ++ '\n' :: rest)))

variable {c : Char} {name text body blanks gap rest : List Char} {alternatives : List (List Char)}
  {rules : List Rule}

/-! ## Comments -/

/-- A comment ends behind its body. -/
theorem behindComment?_body (hbody : ¬['*', ')'] <:+: body) (rest : List Char) :
    behindComment? (body ++ '*' :: ')' :: rest) = some rest := by
  induction body with
  | nil => rfl
  | cons c body ih =>
      have hrest : ¬['*', ')'] <:+: body := fun h => hbody (List.infix_cons h)
      -- A star inside the body is followed by no bracket, and one at its end by another star.
      have hopen : ∀ left, c = '*' → body ++ '*' :: ')' :: rest ≠ ')' :: left := by
        rintro left rfl h
        cases body with
        | nil => cases h
        | cons d body =>
            obtain rfl : d = ')' := (List.cons_eq_cons.mp h).1
            exact hbody ⟨[], body, rfl⟩
      rw [List.cons_append, behindComment?]
      · exact ih hrest
      · exact hopen

theorem stripComments_comment (hbody : ¬['*', ')'] <:+: body) (rest : List Char) :
    stripComments ('(' :: '*' :: (body ++ '*' :: ')' :: rest)) = ' ' :: stripComments rest := by
  have hend := behindComment?_body hbody rest
  rw [stripComments]
  split
  next left hleft =>
    obtain rfl : left = rest := Option.some.inj (hleft.symm.trans hend)
    rfl
  next hnone => cases hnone.symm.trans hend

/-- No comment begins in a text, nor with its end. -/
def Passes (text : List Char) : Prop :=
  ∀ rest, stripComments (text ++ rest) = text ++ stripComments rest

theorem Passes.append {other : List Char} (htext : Passes text) (hother : Passes other) :
    Passes (text ++ other) := by
  intro rest
  rw [List.append_assoc, htext, hother, List.append_assoc]

theorem stripComments_cons (hc : c = '(' → text.head? ≠ some '*') :
    stripComments (c :: text) = c :: stripComments text := by
  rw [stripComments]
  rintro left rfl rfl
  exact hc rfl rfl

theorem passes_of_notMem (htext : '(' ∉ text) : Passes text := by
  intro rest
  induction text with
  | nil => rfl
  | cons c text ih =>
      obtain ⟨hc, htext⟩ := not_or.mp (mt List.mem_cons.mpr htext)
      rw [List.cons_append, stripComments_cons fun h => absurd h.symm hc, ih htext, List.cons_append]

/-- In front of a blank, an opening bracket at the end of a text begins no comment either. -/
theorem passes_append_blank (htext : ¬['(', '*'] <:+: text) : Passes (text ++ [' ']) := by
  intro rest
  induction text with
  | nil => exact passes_of_notMem (by decide) rest
  | cons c text ih =>
      have hhead : c = '(' → (text ++ [' '] ++ rest).head? ≠ some '*' := by
        rintro rfl h
        cases text with
        | nil => cases h
        | cons d text =>
            obtain rfl : d = '*' := Option.some.inj h
            exact htext ⟨[], text, rfl⟩
      rw [List.cons_append, List.cons_append, stripComments_cons hhead,
        ih fun h => htext (List.infix_cons h), List.cons_append]

theorem passes_joined (hne : alternatives ≠ [])
    (halternatives : ∀ a ∈ alternatives, IsAlternative a) :
    Passes (joined alternatives ++ [' ']) := by
  refine joined_induction (motive := fun text => Passes (text ++ [' '])) hne halternatives ?_ ?_
  · exact fun a ha => passes_append_blank ha.noComment
  · intro a rest ha hrest
    have hbar : Passes ['|', ' '] := passes_of_notMem (by decide)
    simpa using (passes_append_blank ha.noComment).append (hbar.append hrest)

theorem isNameChar_of_isNameStart (hc : isNameStart c = true) : isNameChar c = true := by
  simp only [isNameStart, isNameChar, Bool.or_eq_true] at hc ⊢
  exact hc.imp_left Text.isAlphanum_of_isAlpha

theorem IsName.isNameChar (hname : IsName name) : ∀ c ∈ name, isNameChar c = true := by
  obtain ⟨c, rest, rfl, hc, hrest⟩ := hname
  exact List.forall_mem_cons.mpr ⟨isNameChar_of_isNameStart hc, hrest⟩

theorem Rule.passes_written (r : Rule) : Passes r.written := by
  have hname : Passes r.name :=
    passes_of_notMem fun hmem => absurd (r.isName.isNameChar _ hmem) (by decide)
  have hequals : Passes [' ', '=', ' '] := passes_of_notMem (by decide)
  have hsemicolon : Passes [';'] := passes_of_notMem (by decide)
  have hexpression := passes_joined r.alternatives_ne_nil r.isAlternative
  simpa [written, expression] using
    hname.append (hequals.append (hexpression.append hsemicolon))

/-- A gap leaves nothing but blanks. -/
theorem IsGap.exists_blanks (hgap : IsGap gap) : ∃ blanks, (∀ c ∈ blanks, Text.isBlank c = true) ∧
    ∀ rest, stripComments (gap ++ rest) = blanks ++ stripComments rest := by
  induction hgap with
  | nil => exact ⟨[], List.forall_mem_nil _, fun rest => rfl⟩
  | @blank c _ hc _ ih =>
      obtain ⟨blanks, hblanks, hstrip⟩ := ih
      have hopen : c ≠ '(' := by
        rintro rfl
        cases hc
      refine ⟨c :: blanks, List.forall_mem_cons.mpr ⟨hc, hblanks⟩, fun rest => ?_⟩
      rw [List.cons_append, stripComments_cons fun h => absurd h hopen, hstrip, List.cons_append]
  | @comment body _ hbody _ ih =>
      obtain ⟨blanks, hblanks, hstrip⟩ := ih
      refine ⟨' ' :: blanks, List.forall_mem_cons.mpr ⟨rfl, hblanks⟩, fun rest => ?_⟩
      rw [List.cons_append, List.cons_append, List.append_assoc, List.cons_append, List.cons_append,
        stripComments_comment hbody, hstrip, List.cons_append]

theorem IsGap.exists_blanks_eq (hgap : IsGap gap) :
    ∃ blanks, (∀ c ∈ blanks, Text.isBlank c = true) ∧ stripComments gap = blanks := by
  obtain ⟨blanks, hblanks, hstrip⟩ := hgap.exists_blanks
  have hend := hstrip []
  rw [List.append_nil, stripComments, List.append_nil] at hend
  exact ⟨blanks, hblanks, hend⟩

/-! ## Scanning one rule -/

theorem not_isBlank_of_isNameChar (hc : isNameChar c = true) : ¬Text.isBlank c = true := by
  have hcode : 0x30 ≤ c.toNat ∧ c.toNat ≤ 0x7A := by
    simp only [isNameChar, Bool.or_eq_true, beq_iff_eq] at hc
    obtain hletter | rfl := hc
    · exact Text.toNat_of_isAlphanum hletter
    · decide
  have hspace : c ≠ ' ' := by
    rintro rfl
    exact absurd hcode.1 (by decide)
  have hreturn : ¬c ≤ '\r' := fun h => absurd (hcode.1.trans h) (by decide)
  simp only [Text.isBlank, Text.isAsciiBlank, Bool.or_eq_true, Bool.and_eq_true, beq_iff_eq,
    decide_eq_true_eq, hspace, hreturn, and_false, or_false, false_or]
  omega

/-- What stands between the equals sign behind a name and the next semicolon is scanned. -/
theorem scanRule?_name (hblanks : ∀ c ∈ blanks, Text.isBlank c = true) (hname : IsName name)
    (hbody : ';' ∉ body) (rest : List Char) :
    scanRule? (blanks ++ (name ++ ' ' :: '=' :: (body ++ ';' :: rest))) =
      some ((name, Text.strip Text.isBlank body), rest) := by
  obtain ⟨c, tail, rfl, hc, htail⟩ := hname
  have hfront : (blanks ++ (c :: tail ++ ' ' :: '=' :: (body ++ ';' :: rest))).dropWhile
      Text.isBlank = c :: (tail ++ ' ' :: '=' :: (body ++ ';' :: rest)) := by
    rw [List.dropWhile_append_of_pos hblanks, List.cons_append,
      List.dropWhile_cons_of_neg (not_isBlank_of_isNameChar (isNameChar_of_isNameStart hc))]
  have hspace : ¬isNameChar ' ' = true := by decide
  have htake : (tail ++ ' ' :: '=' :: (body ++ ';' :: rest)).takeWhile isNameChar = tail := by
    rw [List.takeWhile_append_of_pos htail, List.takeWhile_cons_of_neg hspace, List.append_nil]
  have hequals : ((tail ++ ' ' :: '=' :: (body ++ ';' :: rest)).dropWhile isNameChar).dropWhile
      Text.isBlank = '=' :: (body ++ ';' :: rest) := by
    rw [List.dropWhile_append_of_pos htail, List.dropWhile_cons_of_neg hspace]
    rfl
  have hinside : ∀ d ∈ body, (d != ';') = true := fun d hd =>
    bne_iff_ne.mpr fun h => hbody (h ▸ hd)
  have hexpression : (body ++ ';' :: rest).takeWhile (· != ';') = body := by
    rw [List.takeWhile_append_of_pos hinside, List.takeWhile_cons_of_neg (by decide),
      List.append_nil]
  have hlength : body.length < (body ++ ';' :: rest).length := by simp
  have hrest : (body ++ ';' :: rest).drop (body.length + 1) = rest := by simp
  simp only [scanRule?, hfront, hc, htake, hequals, hexpression, hlength, hrest, Bool.not_true,
    Bool.false_eq_true, if_false, if_true]

theorem joined_hasBareEnds (hne : alternatives ≠ [])
    (halternatives : ∀ a ∈ alternatives, IsAlternative a) :
    joined alternatives ≠ [] ∧ Text.HasBareEnds (joined alternatives) := by
  refine joined_induction (motive := fun text => text ≠ [] ∧ Text.HasBareEnds text) hne
    halternatives ?_ ?_
  · exact fun a ha => ⟨ha.ne_nil, ha.bareEnds⟩
  · rintro a rest ha ⟨hrest, -, hlast⟩
    refine ⟨List.append_ne_nil_of_left_ne_nil ha.ne_nil _, ?_, ?_⟩
    · rw [List.head?_append_of_ne_nil _ ha.ne_nil]
      exact ha.bareEnds.1
    · rw [List.getLast?_append_of_ne_nil _ (by simp), List.getLast?_append_of_ne_nil _ hrest]
      exact hlast

theorem semicolon_notMem_joined (hne : alternatives ≠ [])
    (halternatives : ∀ a ∈ alternatives, IsAlternative a) : ';' ∉ joined alternatives := by
  refine joined_induction (motive := fun text => ';' ∉ text) hne halternatives ?_ ?_
  · exact fun a ha => ha.noSemicolon
  · intro a rest ha hrest
    simp [ha.noSemicolon, hrest]

/-- A written rule is scanned up to its semicolon. -/
theorem Rule.scanRule?_written (r : Rule) (hblanks : ∀ c ∈ blanks, Text.isBlank c = true)
    (rest : List Char) :
    scanRule? (blanks ++ (r.written ++ rest)) = some ((r.name, r.expression), rest) := by
  have hsemicolon : ';' ∉ ' ' :: (r.expression ++ [' ']) := by
    have hexpression : ';' ∉ r.expression :=
      semicolon_notMem_joined r.alternatives_ne_nil r.isAlternative
    simp [hexpression]
  have hstrip : Text.strip Text.isBlank (' ' :: (r.expression ++ [' '])) = r.expression :=
    Text.strip_between Text.isBlank_of_mem_space Text.isBlank_of_mem_space
      (joined_hasBareEnds r.alternatives_ne_nil r.isAlternative).2
  have hscan := scanRule?_name hblanks r.isName hsemicolon rest
  rw [hstrip] at hscan
  simpa [written] using hscan

theorem scanRule?_blanks (hblanks : ∀ c ∈ blanks, Text.isBlank c = true) :
    scanRule? blanks = none := by
  rw [scanRule?, List.dropWhile_eq_nil_iff.mpr hblanks]

/-! ## Going through the lines -/

theorem nextLine_suffix (text : List Char) : nextLine text <:+ text := by
  induction text with
  | nil => exact List.suffix_refl _
  | cons c rest ih =>
      rw [nextLine]
      split
      next => exact List.suffix_cons c rest
      next => exact ih.trans (List.suffix_cons c rest)

theorem rulesWithin_blanks (fuel : Nat) (hblanks : ∀ c ∈ blanks, Text.isBlank c = true) :
    rulesWithin fuel blanks = [] := by
  induction fuel generalizing blanks with
  | zero => rfl
  | succ fuel ih =>
      rw [rulesWithin, scanRule?_blanks hblanks]
      split
      next => rfl
      next => exact ih fun c hc => hblanks c ((nextLine_suffix blanks).subset hc)

/-- Behind blanks and the end of a line stands the next line, or there are more lines of blanks in
front of it. -/
theorem exists_nextLine (hblanks : ∀ c ∈ blanks, Text.isBlank c = true) (rest : List Char) :
    ∃ left : List Char, (∀ c ∈ left, Text.isBlank c = true) ∧ left.length ≤ blanks.length ∧
      nextLine (blanks ++ '\n' :: rest) = left ++ rest := by
  induction blanks with
  | nil => exact ⟨[], List.forall_mem_nil _, Nat.le_refl _, rfl⟩
  | cons c blanks ih =>
      obtain ⟨hc, hblanks⟩ := List.forall_mem_cons.mp hblanks
      by_cases hbreak : c = '\n'
      · refine ⟨blanks ++ ['\n'], ?_, by simp, ?_⟩
        · exact List.forall_mem_append.mpr ⟨hblanks, List.forall_mem_singleton.mpr rfl⟩
        · rw [List.cons_append, nextLine, if_pos hbreak, List.append_assoc, List.singleton_append]
      · obtain ⟨left, hleft, hlength, hnext⟩ := ih hblanks
        refine ⟨left, hleft, Nat.le_succ_of_le hlength, ?_⟩
        rw [List.cons_append, nextLine, if_neg hbreak, hnext]

theorem rulesWithin_written (r : Rule) (hblanks : ∀ c ∈ blanks, Text.isBlank c = true)
    (fuel : Nat) (rest : List Char) :
    rulesWithin (fuel + 1) (blanks ++ (r.written ++ rest)) =
      (r.name, r.expression) :: rulesWithin fuel (nextLine rest) := by
  have hne : (blanks ++ (r.written ++ rest)).isEmpty = false := by
    simp [Rule.written]
  rw [rulesWithin, hne, r.scanRule?_written hblanks]
  rfl

/-- The rules that a text shows are scanned in their order. The blanks in front are those that are
left of lines above. -/
theorem Shows.rulesWithin_eq (hshows : Shows rules text)
    (hblanks : ∀ c ∈ blanks, Text.isBlank c = true) {fuel : Nat}
    (hfuel : (blanks ++ stripComments text).length < fuel) :
    rulesWithin fuel (blanks ++ stripComments text) = rules.map fun r => (r.name, r.expression) := by
  induction hshows generalizing blanks fuel with
  | none hgap =>
      obtain ⟨others, hothers, hstrip⟩ := hgap.exists_blanks_eq
      rw [hstrip]
      exact rulesWithin_blanks fuel (List.forall_mem_append.mpr ⟨hblanks, hothers⟩)
  | last r hbefore hafter =>
      obtain ⟨before, hbefore, hstripBefore⟩ := hbefore.exists_blanks
      obtain ⟨after, hafter, hstripAfter⟩ := hafter.exists_blanks_eq
      obtain ⟨fuel, rfl⟩ := Nat.exists_eq_succ_of_ne_zero (Nat.ne_zero_of_lt hfuel)
      rw [hstripBefore, r.passes_written, hstripAfter, ← List.append_assoc,
        rulesWithin_written r (List.forall_mem_append.mpr ⟨hblanks, hbefore⟩),
        rulesWithin_blanks fuel fun c hc => hafter c ((nextLine_suffix after).subset hc)]
      rfl
  | @line _ _ rest rules r hbefore hafter _ ih =>
      obtain ⟨before, hbefore, hstripBefore⟩ := hbefore.exists_blanks
      obtain ⟨after, hafter, hstripAfter⟩ := hafter.exists_blanks
      obtain ⟨left, hleft, hlength, hnext⟩ := exists_nextLine hafter (stripComments rest)
      have hbreak : stripComments ('\n' :: rest) = '\n' :: stripComments rest :=
        stripComments_cons fun h => absurd h (by decide)
      obtain ⟨fuel, rfl⟩ := Nat.exists_eq_succ_of_ne_zero (Nat.ne_zero_of_lt hfuel)
      rw [hstripBefore, r.passes_written, hstripAfter, hbreak] at hfuel ⊢
      rw [← List.append_assoc,
        rulesWithin_written r (List.forall_mem_append.mpr ⟨hblanks, hbefore⟩), hnext, ih hleft]
      · rfl
      · -- At least the end of the line is gone.
        simp only [List.length_append, List.length_cons] at hfuel ⊢
        omega

/-! ## Productions -/

theorem Rule.production_eq (r : Rule) : Ebnf.production r.name r.expression = r.production := by
  rw [Ebnf.production, Rule.production, Rule.expression,
    splitAlternatives_joined r.alternatives_ne_nil r.isAlternative]

/-- Productions of new names are added at the end. -/
theorem foldl_addProduction (old new : List Production)
    (hnames : ((old ++ new).map Production.name).Nodup) :
    new.foldl addProduction old = old ++ new := by
  induction new generalizing old with
  | nil => rw [List.foldl_nil, List.append_nil]
  | cons p new ih =>
      have hfresh : old.any (·.name == p.name) = false := by
        refine List.any_eq_false.mpr fun q hq hsame => ?_
        rw [List.map_append, List.map_cons] at hnames
        exact (List.nodup_append.mp hnames).2.2 q.name (List.mem_map_of_mem hq) p.name
          List.mem_cons_self (beq_iff_eq.mp hsame)
      have hadd : addProduction old p = old ++ [p] := by
        rw [addProduction, hfresh]
        rfl
      rw [List.foldl_cons, hadd, ih (old ++ [p]) (by simpa using hnames), List.append_assoc,
        List.singleton_append]

/-- Reading a text that shows rules of different names gives these rules, in the order in which they
are written: their names, their expressions, and the alternatives between the bars. -/
theorem written_rules_are_read_back (rules : List Rule) (text : String)
    (hnames : (rules.map Rule.name).Nodup) (hshows : Shows rules text.toList) :
    (Grammar.ofText text).productions = rules.map Rule.production := by
  have hnone : ∀ c ∈ ([] : List Char), Text.isBlank c = true := List.forall_mem_nil _
  have hscan := hshows.rulesWithin_eq hnone (Nat.lt_succ_self _)
  rw [List.nil_append] at hscan
  have hproductions : ((rules.map Rule.production).map Production.name).Nodup := by
    have hinjective : Function.Injective String.ofList := fun _ _ => String.ofList_injective
    simpa [Function.comp_def, Rule.production] using List.Nodup.map hinjective hnames
  have hfold := foldl_addProduction [] (rules.map Rule.production) hproductions
  rw [List.foldl_map] at hfold
  simp only [Grammar.ofText, hscan, List.foldl_map, Rule.production_eq]
  exact hfold

/-- A rule with a bar in a literal and a bar in brackets. -/
def barRule : Rule where
  name := ['b', 'a', 'r']
  alternatives := [['"', '|', '"'], ['[', 'x', '|', 'y', ']']]
  isName := ⟨'b', ['a', 'r'], rfl, rfl, List.all_eq_true.mp rfl⟩
  alternatives_ne_nil := List.cons_ne_nil _ _
  isAlternative := by
    have hliteral : IsWhole false ('"' :: (['|'] ++ ['"'])) := .literal rfl (by decide) .nil
    have hinner : IsWhole true ['x', '|', 'y'] :=
      .plain rfl (by decide) (by decide) (by decide) <|
        .plain rfl (by decide) (by decide) (fun _ => rfl) <|
          .plain rfl (by decide) (by decide) (by decide) .nil
    have hbrackets : IsWhole false ('[' :: (['x', '|', 'y'] ++ [']'])) :=
      .brackets (by decide) (by decide) hinner .nil
    refine List.forall_mem_cons.mpr ⟨?_, List.forall_mem_singleton.mpr ?_⟩
    · exact ⟨List.cons_ne_nil _ _, Text.hasBareEnds_of_all rfl, hliteral, by decide, by decide⟩
    · exact ⟨List.cons_ne_nil _ _, Text.hasBareEnds_of_all rfl, hbrackets, by decide, by decide⟩

/-- A rule with a quote in a literal between quotes of the other kind. -/
def quoteRule : Rule where
  name := ['q']
  alternatives := [['\x27', '"', '\x27']]
  isName := ⟨'q', [], rfl, rfl, List.forall_mem_nil _⟩
  alternatives_ne_nil := List.cons_ne_nil _ _
  isAlternative := by
    have hliteral : IsWhole false ('\x27' :: (['"'] ++ ['\x27'])) :=
      .literal rfl (by decide) .nil
    exact List.forall_mem_singleton.mpr
      ⟨List.cons_ne_nil _ _, Text.hasBareEnds_of_all rfl, hliteral, by decide, by decide⟩

/-- Two rules behind comments, in one of which stand a quote and what would be a rule. -/
def commentedText : String :=
  "(* x = \" ; *)\nbar = \"|\" | [x|y] ;\n(*(*) q = '\"' ;"

theorem written_rules_are_read_back_commented :
    ([barRule, quoteRule].map Rule.name).Nodup ∧
      Shows [barRule, quoteRule] commentedText.toList ∧
      (Grammar.ofText commentedText).productions =
        [⟨"bar", "\"|\" | [x|y]", ["\"|\"", "[x|y]"], ["|"]⟩, ⟨"q", "'\"'", ["'\"'"], []⟩] := by
  have hnames : ([barRule, quoteRule].map Rule.name).Nodup := by decide
  have hfirst : IsGap ('(' :: '*' :: ([' ', 'x', ' ', '=', ' ', '"', ' ', ';', ' '] ++
      '*' :: ')' :: ['\n'])) := .comment (by decide) (.blank (by decide) .nil)
  have hsecond : IsGap ('(' :: '*' :: (['('] ++ '*' :: ')' :: [' '])) :=
    .comment (by decide) (.blank (by decide) .nil)
  have hwritten := Shows.line barRule hfirst .nil (.last quoteRule hsecond .nil)
  have hshows : Shows [barRule, quoteRule] commentedText.toList :=
    Eq.subst (motive := Shows _) (by decide) hwritten
  exact ⟨hnames, hshows, written_rules_are_read_back _ _ hnames hshows⟩

end TypedVariant.Ebnf
