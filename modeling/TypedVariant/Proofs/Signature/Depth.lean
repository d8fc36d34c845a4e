import TypedVariant.Proofs.Signature.Reading

/-!
# Types beyond the limit

A well-formed type that nests deeper than the limit allows where it lies is
refused for its depth and for nothing else: whatever of it is read before the
first letter that lies too deep is read as it would be under a greater limit.
-/

namespace TypedVariant.Signature

open SigType

variable {rules : Rules} {depth : Int} {simple : Bool}

/-- A type may not begin beyond the limit. -/
theorem readWithin_tooDeep {within : List Open} {c : Char} (rest : List Char) (hne : c ≠ ')')
    (hdeep : rules.maxDepth < depth + within.length) :
    (readWithin rules depth simple (.type within) (c :: rest)).1 = .error .tooDeep := by
  rw [readWithin, step_of_ne_close hne, stepType, if_pos hdeep]

/-- The letters of a type that does not fit are refused for their depth, whatever containers are
open around it and whatever follows. -/
def Overruns (rules : Rules) (depth : Int) (simple : Bool) (type : SigType) : Prop :=
  ∀ (within : List Open) (rest : List Char),
    rules.maxDepth < depth + within.length + type.nesting →
    (simpleOnly simple within = true → type.isBasic = true) →
    (readWithin rules depth simple (.type within) (type.letters ++ rest)).1 = .error .tooDeep

theorem overruns_leaf {type : SigType} {c : Char} (hleaf : leaf? rules.wildcards c = some type)
    (hletters : type.letters = [c]) (hnesting : type.nesting = 0) :
    Overruns rules depth simple type := by
  intro within rest hdeep _
  have hne : c ≠ ')' := by
    rintro rfl
    simp [leaf?, BasicCode.ofLetter?] at hleaf
  rw [hnesting] at hdeep
  rw [hletters]
  exact readWithin_tooDeep rest hne (by omega)

/-- A container that may be opened where it lies does not fit because of what is in it. -/
theorem overruns_opening {type : SigType} {c : Char} {container : Open} {body : List Char}
    (hletters : type.letters = c :: body) (hopening : opening? c = some container)
    (hbasic : type.isBasic = false)
    (hbody : ∀ (within : List Open) (rest : List Char),
      depth + within.length ≤ rules.maxDepth →
      rules.maxDepth < depth + within.length + type.nesting →
      (readWithin rules depth simple (.type (container :: within)) (body ++ rest)).1 =
        .error .tooDeep) :
    Overruns rules depth simple type := by
  intro within rest hdeep hsimple
  rw [hletters, List.cons_append]
  by_cases hfits : depth + within.length ≤ rules.maxDepth
  · rw [readWithin_opening _ hfits (by simpa [hbasic] using hsimple) hopening]
    exact hbody within rest hfits hdeep
  · have hne : c ≠ ')' := by
      rintro rfl
      simp [opening?] at hopening
    exact readWithin_tooDeep _ hne (by omega)

/-- Members of which one does not fit are read up to the first such member. -/
theorem readWithin_members_tooDeep {members : List SigType}
    (hreads : ∀ member ∈ members, ReadsThrough rules depth simple member)
    (hoverruns : ∀ member ∈ members, Overruns rules depth simple member)
    (earlier : List SigType) (outer : List Open) (rest : List Char)
    (hfits : depth + outer.length ≤ rules.maxDepth)
    (hdeep : rules.maxDepth < depth + outer.length + nestingBelow members) :
    (readWithin rules depth simple (.type (.tuple earlier :: outer))
      (lettersAll members ++ rest)).1 = .error .tooDeep := by
  induction members generalizing earlier with
  | nil =>
      rw [nestingBelow] at hdeep
      omega
  | cons member others ih =>
      obtain ⟨hmember, hothers⟩ := List.forall_mem_cons.mp hreads
      obtain ⟨hmemberDeep, hothersDeep⟩ := List.forall_mem_cons.mp hoverruns
      rw [lettersAll, List.append_assoc]
      by_cases hmemberFits :
          depth + (Open.tuple earlier :: outer).length + member.nesting ≤ rules.maxDepth
      · rw [hmember _ _ hmemberFits (by simp [simpleOnly]), readBehind]
        simp only [nestingBelow, List.length_cons] at hdeep hmemberFits
        exact ih hothers hothersDeep _ (by omega)
      · exact hmemberDeep _ _ (Int.not_le.mp hmemberFits) (by simp [simpleOnly])

/-- Every well-formed type that does not fit is refused for its depth. -/
theorem overruns_of_wellFormed {type : SigType} (hwf : type.WellFormed rules.wildcards) :
    Overruns rules depth simple type := by
  induction hwf with
  | basic code => exact overruns_leaf (leaf?_letter code _) rfl rfl
  | variant =>
      exact overruns_leaf (by simp [leaf?, BasicCode.ofLetter?]) rfl rfl
  | @wildcard kind hallowed =>
      refine overruns_leaf (c := kind.letter) ?_ rfl rfl
      cases kind <;> simp [leaf?, BasicCode.ofLetter?, Wildcard.letter, hallowed]
  | @maybe element _ ih =>
      refine overruns_opening rfl rfl rfl (fun within rest hfits hdeep => ?_)
      rw [nesting] at hdeep
      exact ih _ _ (by rw [List.length_cons]; omega) (by simp [simpleOnly])
  | @array element _ ih =>
      refine overruns_opening rfl rfl rfl (fun within rest hfits hdeep => ?_)
      rw [nesting] at hdeep
      exact ih _ _ (by rw [List.length_cons]; omega) (by simp [simpleOnly])
  | @tuple members hmembers ih =>
      refine overruns_opening rfl rfl rfl (fun within rest hfits hdeep => ?_)
      rw [nesting] at hdeep
      rw [List.append_assoc]
      exact readWithin_members_tooDeep
        (fun member hmember => readsThrough_of_wellFormed (hmembers member hmember)) ih _ _ _
        hfits hdeep
  | @dictEntry key value hbasic hkey _ ihkey ihvalue =>
      refine overruns_opening rfl rfl rfl (fun within rest hfits hdeep => ?_)
      rw [nesting] at hdeep
      rw [List.append_assoc]
      by_cases hkeyFits : depth + (Open.key :: within).length + key.nesting ≤ rules.maxDepth
      · rw [readsThrough_of_wellFormed hkey _ _ hkeyFits (fun _ => hbasic), readBehind,
          List.append_assoc]
        rw [List.length_cons] at hkeyFits
        exact ihvalue _ _ (by rw [List.length_cons]; omega) (by simp [simpleOnly])
      · exact ihkey _ _ (Int.not_le.mp hkeyFits) (fun _ => hbasic)

/-- A type that does not fit is refused for its depth, whatever follows. -/
theorem readOne_tooDeep {type : SigType} (hwf : type.WellFormed rules.wildcards)
    (hbasic : simple = true → type.isBasic = true)
    (hdeep : rules.maxDepth < depth + type.nesting) (rest : List Char) :
    (readOne rules depth simple (type.letters ++ rest)).1 = .error .tooDeep :=
  overruns_of_wellFormed hwf [] rest (by simpa using hdeep) hbasic

end TypedVariant.Signature
