import TypedVariant.Pack.Value
import TypedVariant.Proofs.Attempt

/-!
# One step of packing

What packing does is said once for each letter a type can begin with. Everything
that a step packs in turn is a lower value, or the same value against less text
or against its intrinsic type; this is the induction that proofs about packing go
by. The elements of arrays and the members of tuples are lists of such steps.
-/

namespace TypedVariant.Pack

variable {settings : Settings} {signature : String} {depth : Int} {simple : Bool}
  {rest : List Char} {x : Native}

theorem packValue_tooDeep [Codecs] {text : List Char} (hdeep : settings.maxDepth < depth) :
    packValue settings signature depth simple text x =
      (.error (.tooDeep settings.maxDepth), text) := by
  rw [packValue.eq_def, if_pos hdeep]

theorem packValue_nil [Codecs] (hfits : depth ≤ settings.maxDepth) :
    packValue settings signature depth simple [] x = (.error (.typeExpected signature), []) := by
  rw [packValue, if_neg (by omega)]

theorem packValue_basic [Codecs] (hfits : depth ≤ settings.maxDepth) (code : BasicCode) :
    packValue settings signature depth simple (code.letter :: rest) x =
      match x.asVariant? with
      | some _ => (.error (.unboxedVariant code), code.letter :: rest)
      | none => (Variant.ofBasic code x, rest) := by
  rw [packValue, if_neg (by omega)]
  cases x.asVariant? <;> simp only [BasicCode.ofLetter?_letter]

theorem packValue_notSimple [Codecs] (hfits : depth ≤ settings.maxDepth) {c : Char}
    (hc : BasicCode.ofLetter? c = none) :
    packValue settings signature depth true (c :: rest) x =
      (.error (.malformed signature (.simpleExpected c)), c :: rest) := by
  rw [packValue, if_neg (by omega)]
  simp only [hc, if_true]

theorem packValue_box [Codecs] (hfits : depth ≤ settings.maxDepth) :
    packValue settings signature depth false ('v' :: rest) x =
      match x.asVariant?, x.intrinsicType? with
      | some v, _ => (.ok (.box v), rest)
      | none, none => (.error (.noIntrinsicType x.kindName), rest)
      | none, some type =>
        ((packValue settings type.text (depth + 1) false type.letters x).1.map .box, rest) := by
  rw [packValue, if_neg (by omega)]
  simp only [show BasicCode.ofLetter? 'v' = none from rfl, Bool.false_eq_true, Char.reduceEq,
    if_false, dite_true]
  cases x.asVariant? with
  | some v => rfl
  | none => cases h : x.intrinsicType? <;> simp

theorem packValue_maybe [Codecs] (hfits : depth ≤ settings.maxDepth) :
    packValue settings signature depth false ('m' :: rest) x =
      if x.isNull then
        match Signature.readOne ⟨false, settings.maxDepth⟩ (depth + 1) false rest with
        | (.error refusal, left) => (.error (refusal.error settings.maxDepth signature), left)
        | (.ok .variant, left) => (.error (.untypedNothing signature), left)
        | (.ok element, left) => (.ok (.nothing element.text), left)
      else
        ((packValue settings signature (depth + 1) false rest x).1.map .just,
          (packValue settings signature (depth + 1) false rest x).2) := by
  rw [packValue, if_neg (by omega)]
  rfl

theorem packValue_array [Codecs] (hfits : depth ≤ settings.maxDepth) :
    packValue settings signature depth false ('a' :: rest) x =
      match Signature.readOne ⟨false, settings.maxDepth⟩ (depth + 1) false rest with
      | (.error refusal, left) => (.error (refusal.error settings.maxDepth signature), left)
      | (.ok element, left) =>
        (match packFlat? settings element x with
        | some packed => packed
        | none =>
          (elementsOf element x).bind fun items =>
            (packEach settings element.text (depth + 1) element.letters items).bind
              (Variant.arrayOf element.text), left) := by
  rw [packValue, if_neg (by omega)]
  simp only [show BasicCode.ofLetter? 'a' = none from rfl, Bool.false_eq_true, Char.reduceEq,
    if_false, dite_false, if_true]
  cases hread : Signature.readOne ⟨false, settings.maxDepth⟩ (depth + 1) false rest with
  | mk outcome left =>
      cases outcome with
      | error refusal => rfl
      | ok element =>
          dsimp only
          cases packFlat? settings element x with
          | some packed => rfl
          | none =>
              dsimp only
              split
              next e helements =>
                rw [helements]
                rfl
              next items helements =>
                rw [helements]
                rfl

theorem packValue_tuple [Codecs] (hfits : depth ≤ settings.maxDepth) :
    packValue settings signature depth false ('(' :: rest) x =
      match x.sequence? with
      | none => (.error (sequenceError .tuple x), rest)
      | some items =>
        match packMembers settings signature (depth + 1) rest 0 items.length items with
        | (.error e, left) => (.error e, left)
        | (.ok members, left) =>
          match missingMembers settings signature (depth + 1) left with
          | .error e => (.error e, left)
          | .ok 0 => (.ok (.tuple members), left.drop 1)
          | .ok missing =>
            (.error (.tupleSize (members.length + missing) items.length), left) := by
  rw [packValue, if_neg (by omega)]
  simp only [show BasicCode.ofLetter? '(' = none from rfl, Bool.false_eq_true, Char.reduceEq,
    if_false, dite_false, if_true]
  cases h : x.sequence? <;> rfl

theorem packValue_dictEntry [Codecs] (hfits : depth ≤ settings.maxDepth) :
    packValue settings signature depth false ('{' :: rest) x =
      match x.sequence? with
      | none => (.error (sequenceError .dictEntry x), rest)
      | some [keyItem, valueItem] =>
        match packValue settings signature (depth + 1) true rest keyItem with
        | (.error e, left) => (.error e, left)
        | (.ok key, left) =>
          match packValue settings signature (depth + 1) false left valueItem with
          | (.error e, left) => (.error e, left)
          | (.ok value, '}' :: left) => (.ok (.entry key value), left)
          | (.ok _, left) => (.error (.malformed signature .entryUnclosed), left)
      | some items => (.error (.entrySize items.length), rest) := by
  rw [packValue, if_neg (by omega)]
  simp only [show BasicCode.ofLetter? '{' = none from rfl, Bool.false_eq_true, Char.reduceEq,
    if_false, dite_false, if_true]
  cases h : x.sequence? with
  | none => rfl
  | some items =>
      rcases items with _ | ⟨_, _ | ⟨_, _ | ⟨_, _⟩⟩⟩ <;> rfl

theorem packValue_unexpected [Codecs] (hfits : depth ≤ settings.maxDepth) {c : Char}
    (hcode : BasicCode.ofLetter? c = none)
    (hother : ¬(c = 'v' ∨ c = 'm' ∨ c = 'a' ∨ c = '(' ∨ c = '{')) :
    packValue settings signature depth false (c :: rest) x =
      (.error (.unexpectedLetter signature c), c :: rest) := by
  simp only [not_or] at hother
  obtain ⟨hvariant, hmaybe, harray, htuple, hentry⟩ := hother
  rw [packValue, if_neg (by omega)]
  simp only [hcode, Bool.false_eq_true, if_false, dif_neg hvariant, dif_neg hmaybe, if_neg harray,
    if_neg htuple, if_neg hentry]

/-- How packing begins. The depth is looked at before the letter, and a basic code before a place of
basic types; a text that begins no type, or none for its place, is refused for its grammar, by all
settings that allow the depth. -/
theorem packValue_cases [Codecs] (settings : Settings) (signature : String) (depth : Int)
    (simple : Bool)
    (text : List Char) (x : Native) :
    settings.maxDepth < depth ∨ depth ≤ settings.maxDepth ∧
      ((∃ e left, e.kind = .grammar ∧ ∀ allowing : Settings, depth ≤ allowing.maxDepth →
          packValue allowing signature depth simple text x = (.error e, left)) ∨
        (∃ code rest, text = BasicCode.letter code :: rest) ∨
        simple = false ∧ ∃ c rest, text = c :: rest ∧
          (c = 'v' ∨ c = 'm' ∨ c = 'a' ∨ c = '(' ∨ c = '{')) := by
  by_cases hfits : depth ≤ settings.maxDepth
  · refine .inr ⟨hfits, ?_⟩
    cases text with
    | nil => exact .inl ⟨_, _, rfl, fun _ hallowed => packValue_nil hallowed⟩
    | cons c rest =>
        cases hcode : BasicCode.ofLetter? c with
        | some code =>
            obtain rfl := BasicCode.letter_of_ofLetter? hcode
            exact .inr (.inl ⟨code, rest, rfl⟩)
        | none =>
            cases simple with
            | true => exact .inl ⟨_, _, rfl, fun _ hallowed => packValue_notSimple hallowed hcode⟩
            | false =>
                by_cases hbegins : c = 'v' ∨ c = 'm' ∨ c = 'a' ∨ c = '(' ∨ c = '{'
                · exact .inr (.inr ⟨rfl, c, rest, rfl, hbegins⟩)
                · exact .inl ⟨_, _, rfl,
                    fun _ hallowed => packValue_unexpected hallowed hcode hbegins⟩
  · exact .inl (Int.not_le.mp hfits)

/-- The induction along which packing runs. A value is packed with the values inside it at any
text, a present maybe with the same value behind its letter, and a value in a box with the same
value at its intrinsic type. -/
theorem packing_induction {P : Native → List Char → Prop}
    (step : ∀ x text,
      (∀ y text', y.height < x.height → P y text') →
      (∀ rest, text = 'm' :: rest → P x rest) →
      (∀ rest type, text = 'v' :: rest → x.intrinsicType? = some type → P x type.letters) →
      P x text) (x : Native) (text : List Char) : P x text := by
  refine step x text (fun y text' hlower => packing_induction step y text') ?_ ?_
  · intro rest htext
    exact packing_induction step x rest
  · intro rest type htext htype
    exact packing_induction step x type.letters
-- The intrinsic type of a value may be longer than the text, but it leads to no further box.
termination_by (x.height, (if leadsToBox text then 1 else 0), text.length)
decreasing_by
  · exact Prod.Lex.left _ _ hlower
  · subst htext
    refine Prod.Lex.right _ ?_
    simp only [leadsToBox]
    exact Prod.Lex.right _ (by simp)
  · subst htext
    refine Prod.Lex.right _ (Prod.Lex.left _ _ ?_)
    simp [leadsToBox_intrinsicType? htype, leadsToBox]

theorem height_le_heightAll {items : List Native} {item : Native} (hitem : item ∈ items) :
    item.height ≤ Native.heightAll items := by
  induction items with
  | nil => simp at hitem
  | cons first others ih =>
      simp only [Native.heightAll]
      rcases List.mem_cons.mp hitem with rfl | hothers
      · omega
      · have := ih hothers
        omega

/-- Every item of a sequence is lower than the sequence. -/
theorem height_lt_of_sequence? {items : List Native} (hitems : x.sequence? = some items) :
    ∀ item ∈ items, item.height < x.height := by
  intro item hitem
  have := Native.heightAll_lt_of_sequence? hitems
  have := height_le_heightAll hitem
  omega

/-- Every element of an array is lower than the value the array is packed from. -/
theorem height_lt_of_elementsOf {element : SigType} {items : List Native}
    (hitems : elementsOf element x = .ok items) : ∀ item ∈ items, item.height < x.height := by
  intro item hitem
  have := heightAll_lt_of_elementsOf hitems
  have := height_le_heightAll hitem
  omega

/-! ## Lists of steps -/

theorem packEach_eq_mapM [Codecs] {text : List Char} {items : List Native} :
    packEach settings signature depth text items =
      items.mapM (fun item => (packValue settings signature depth false text item).1) := by
  induction items with
  | nil => rw [packEach, List.mapM_nil]; rfl
  | cons item rest ih =>
      rw [packEach, List.mapM_cons, ih]
      cases (packValue settings signature depth false text item).1 with
      | error e => rfl
      | ok v =>
          cases rest.mapM (fun item => (packValue settings signature depth false text item).1) <;>
            rfl

/-- Members that are packed each from the front of its own text are packed one after the other. No
text of a type begins with the bracket that closes a tuple. -/
theorem packMembers_of_parts [Codecs] {parts : List (SigType × Native × Variant)}
    (hstart : ∀ part ∈ parts, ∃ c letters, part.1.letters = c :: letters ∧ c ≠ ')')
    (hparts : ∀ part ∈ parts, ∀ left, packValue settings signature depth false
      (part.1.letters ++ left) part.2.1 = (.ok part.2.2, left))
    (left : List Char) (packed given : Nat) :
    packMembers settings signature depth (SigType.lettersAll (parts.map Prod.fst) ++ left)
        packed given (parts.map (·.2.1)) =
      (.ok (parts.map (·.2.2)), left) := by
  induction parts generalizing packed with
  | nil => simp [packMembers, SigType.lettersAll]
  | cons part others ih =>
      obtain ⟨c, letters, hletters, hne⟩ := hstart part List.mem_cons_self
      have hpart := hparts part List.mem_cons_self
        (SigType.lettersAll (others.map Prod.fst) ++ left)
      have hothers := ih (fun other hother => hstart other (List.mem_cons_of_mem _ hother))
        (fun other hother => hparts other (List.mem_cons_of_mem _ hother)) (packed + 1)
      rw [hletters, List.cons_append] at hpart
      simp only [List.map_cons, SigType.lettersAll, List.append_assoc]
      rw [hletters, List.cons_append, packMembers]
      · rw [hpart]
        simp only [hothers]
        rfl
      · simpa using hne

/-- Where the members of a tuple are packed, each takes its own type from the text. What is known
of packing a single item is passed on to all of them. -/
theorem exists_parts_of_packMembers [Codecs] {text left : List Char} {items : List Native}
    {vs : List Variant} {packed given : Nat} {Q : SigType → Native → Variant → Prop}
    (hitems : ∀ item ∈ items, ∀ text v left,
      packValue settings signature depth false text item = (.ok v, left) →
        ∃ type, text = SigType.letters type ++ left ∧ Q type item v)
    (hpack : packMembers settings signature depth text packed given items = (.ok vs, left)) :
    ∃ parts : List (SigType × Native × Variant),
      items = parts.map (·.2.1) ∧ vs = parts.map (·.2.2) ∧
        text = SigType.lettersAll (parts.map Prod.fst) ++ left ∧
        ∀ part ∈ parts, Q part.1 part.2.1 part.2.2 := by
  induction items generalizing text vs packed with
  | nil =>
      rw [packMembers] at hpack
      obtain ⟨rfl, rfl⟩ : vs = [] ∧ text = left := by simpa [eq_comm] using hpack
      exact ⟨[], rfl, rfl, rfl, by simp⟩
  | cons item others ih =>
      rw [packMembers.eq_def] at hpack
      simp only at hpack
      split at hpack
      next => simp at hpack
      next => simp at hpack
      next c rest _ =>
        split at hpack
        next => simp at hpack
        next v middle hitem =>
          obtain ⟨type, htext, hQ⟩ := hitems item List.mem_cons_self _ _ _ hitem
          cases hothers : packMembers settings signature depth middle (packed + 1) given others with
          | mk outcome last =>
              rw [hothers] at hpack
              cases outcome with
              | error e => simp [Except.map] at hpack
              | ok ws =>
                  obtain ⟨rfl, rfl⟩ : v :: ws = vs ∧ last = left := by
                    simpa [Except.map] using hpack
                  obtain ⟨parts, rfl, rfl, rfl, hparts⟩ := ih
                    (fun other hother => hitems other (List.mem_cons_of_mem _ hother)) hothers
                  refine ⟨(type, item, v) :: parts, rfl, rfl, ?_, ?_⟩
                  · simpa [SigType.lettersAll] using htext
                  · intro part hpart
                    rcases List.mem_cons.mp hpart with rfl | hrest
                    · exact hQ
                    · exact hparts part hrest

end TypedVariant.Pack
