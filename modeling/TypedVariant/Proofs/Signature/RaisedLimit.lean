import TypedVariant.Proofs.Signature.Parsing

/-!
# Reading under a raised limit

The reader looks at the limit only to refuse a letter for its depth. As long as it
does not refuse one, it takes the same steps under a greater limit, and it ends with
the same type or the same fault, in front of the same letters.
-/

namespace TypedVariant

/-- Whether an error is that of the depth limit, whatever the limit is. -/
def Error.IsDepthLimit (e : Error) : Prop :=
  e.kind = .depthLimit

namespace Signature

variable {rules : Rules} {depth limit : Int} {simple : Bool}

/-- Where a type may begin, a letter is refused for its depth, or leads to the same under a raised
limit. -/
theorem stepType_raised (hlimit : rules.maxDepth ≤ limit) (within : List Open) (c : Char) :
    stepType rules depth simple within c = .refuseBefore .tooDeep ∨
      stepType { rules with maxDepth := limit } depth simple within c =
        stepType rules depth simple within c := by
  by_cases hdeep : rules.maxDepth < depth + within.length
  · exact .inl (if_pos hdeep)
  · refine .inr ?_
    have hraised : ¬ limit < depth + within.length := by omega
    rw [stepType, stepType, if_neg hdeep, if_neg hraised]

theorem step_raised (hlimit : rules.maxDepth ≤ limit) (awaiting : Awaiting) (c : Char) :
    step rules depth simple awaiting c = .refuseBefore .tooDeep ∨
      step { rules with maxDepth := limit } depth simple awaiting c =
        step rules depth simple awaiting c := by
  unfold step
  split
  next => exact .inr rfl
  next =>
    split
    next => exact .inr rfl
    next => exact stepType_raised hlimit _ c
  next => exact stepType_raised hlimit _ c

theorem refusalAtEnd_raised (hlimit : rules.maxDepth ≤ limit) (awaiting : Awaiting) :
    refusalAtEnd rules depth awaiting = .tooDeep ∨
      refusalAtEnd { rules with maxDepth := limit } depth awaiting =
        refusalAtEnd rules depth awaiting := by
  unfold refusalAtEnd
  split
  next => exact .inr rfl
  next =>
    by_cases hdeep : rules.maxDepth < depth
    · exact .inl (if_pos hdeep)
    · refine .inr ?_
      have hraised : ¬ limit < depth := by omega
      rw [if_neg hdeep, if_neg hraised]
  next => exact .inr rfl

/-- A reading goes on in the same way, step by step, until a letter is refused for its depth. -/
theorem readWithin_raised (hlimit : rules.maxDepth ≤ limit) (awaiting : Awaiting)
    (text : List Char) :
    ExtendsWithRest (· = .tooDeep) (readWithin rules depth simple awaiting text)
      (readWithin { rules with maxDepth := limit } depth simple awaiting text) := by
  induction text generalizing awaiting with
  | nil =>
      rw [readWithin, readWithin]
      rcases refusalAtEnd_raised hlimit awaiting with hdeep | hsame
      · exact .cutShort hdeep
      · rw [hsame]
        exact .refl _
  | cons c rest ih =>
      rw [readWithin, readWithin]
      rcases step_raised hlimit awaiting c with hdeep | hsame
      · rw [hdeep]
        exact .cutShort rfl
      · rw [hsame]
        cases step rules depth simple awaiting c with
        | more next => exact ih next
        | done | refuseLetter | refuseBefore => exact .refl _

theorem readOne_raised (hlimit : rules.maxDepth ≤ limit) (text : List Char) :
    ExtendsWithRest (· = .tooDeep) (readOne rules depth simple text)
      (readOne { rules with maxDepth := limit } depth simple text) :=
  readWithin_raised hlimit _ text

/-- What is read type by type up to the end of a text is read in the same way. -/
theorem readAll_raised (hlimit : rules.maxDepth ≤ limit) (text : List Char) :
    Extends (· = .tooDeep) (readAll rules depth text)
      (readAll { rules with maxDepth := limit } depth text) := by
  by_cases hne : text = []
  · rw [hne, readAll_nil, readAll_nil]
    exact .refl _
  · rw [readAll_of_ne_nil hne, readAll_of_ne_nil hne]
    rcases readOne_raised hlimit text with ⟨e, left, hcut, he⟩ | hsame
    · rw [he]
      exact .cutShort hcut
    · rw [hsame]
      cases hfirst : (readOne rules depth false text).1 with
      | error refusal => exact .refl _
      | ok type =>
          have hless := readOne_length_lt hfirst
          exact (readAll_raised hlimit _).map
termination_by text.length

/-! ## Whole texts -/

variable {maxDepth : Int}

/-- Faults are told alike under all limits, and what lies too deep is told as such. -/
theorem refusalError_raised {α : Type} {short long : Except Refusal α} (text : String)
    (hextends : Extends (· = .tooDeep) short long) :
    Extends Error.IsDepthLimit (short.mapError (Refusal.error maxDepth text))
      (long.mapError (Refusal.error limit text)) := by
  refine hextends.mapError ?_ ?_
  · rintro refusal rfl
    exact rfl
  · intro refusal hfault
    cases refusal with
    | fault => rfl
    | tooDeep => exact absurd rfl hfault

theorem readWhole_eq (rules : Rules) (tail : Error) (text : String) :
    readWhole rules tail text =
      (readOne rules 0 false text.toList).1.mapError (Refusal.error rules.maxDepth text) >>=
        fun type => if (readOne rules 0 false text.toList).2 = [] then .ok type else .error tail := by
  rw [readWhole]
  rcases readOne rules 0 false text.toList with ⟨_ | type, _ | ⟨c, rest⟩⟩ <;> rfl

theorem readWhole_raised (hlimit : rules.maxDepth ≤ limit) (tail : Error) (text : String) :
    Extends Error.IsDepthLimit (readWhole rules tail text)
      (readWhole { rules with maxDepth := limit } tail text) := by
  rw [readWhole_eq, readWhole_eq]
  rcases @readOne_raised rules 0 limit false hlimit text.toList with ⟨e, left, rfl, he⟩ | hsame
  · rw [he]
    exact .cutShort rfl
  · rw [hsame]
    exact (refusalError_raised text (.refl _)).bind (fun type _ => .refl _)

theorem parse_raised (hlimit : maxDepth ≤ limit) (text : String) :
    Extends Error.IsDepthLimit (parse maxDepth text) (parse limit text) := by
  rw [parse, parse]
  split
  next => exact .refl _
  next => exact @readWhole_raised ⟨false, maxDepth⟩ limit hlimit _ text

theorem parsePattern_raised (hlimit : maxDepth ≤ limit) (text : String) :
    Extends Error.IsDepthLimit (parsePattern maxDepth text) (parsePattern limit text) := by
  rw [parsePattern, parsePattern]
  split
  next => exact .refl _
  next => exact @readWhole_raised ⟨true, maxDepth⟩ limit hlimit _ text

theorem parseAll_raised (hlimit : maxDepth ≤ limit) (text : String) :
    Extends Error.IsDepthLimit (parseAll maxDepth text) (parseAll limit text) :=
  refusalError_raised text (@readAll_raised ⟨false, maxDepth⟩ 0 limit hlimit _)

/-- Only what is given as text is read within a limit. -/
theorem typeMatches_raised (hlimit : maxDepth ≤ limit) (type pattern : TypeSource) :
    Extends Error.IsDepthLimit (typeMatches maxDepth type pattern)
      (typeMatches limit type pattern) := by
  have htype : Extends Error.IsDepthLimit (typeOf maxDepth type) (typeOf limit type) := by
    cases type with
    | text text => exact (parse_raised hlimit text).map
    | type | other => exact .refl _
  have hpattern : Extends Error.IsDepthLimit (patternOf maxDepth pattern)
      (patternOf limit pattern) := by
    cases pattern with
    | text text => exact (parsePattern_raised hlimit text).map
    | type | other => exact .refl _
  exact htype.bind (fun t _ => hpattern.bind (fun p _ => .refl _))

end Signature

end TypedVariant
