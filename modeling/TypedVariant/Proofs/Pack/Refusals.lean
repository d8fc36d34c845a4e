import TypedVariant.Proofs.Pack.Agreement
import TypedVariant.Proofs.Pack.Errors

/-!
# Where an accepted signature is at fault

A signature that can be parsed gives packing no reason to complain of its text, but
one: an absent value carries no type, so it cannot be packed where a maybe of a
variant is wanted. What a box holds never gets there, since no type that the kind of
a value implies has maybes.
-/

namespace TypedVariant

namespace Pack

/-- An absent value is met where a maybe of a variant is wanted, as a value is gone through along
a type. -/
inductive MeetsNothing : SigType → Native → Prop
  | here : MeetsNothing (.maybe .variant) .null
  | content {element : SigType} {x : Native} (hpresent : x.isNull = false)
      (hcontent : MeetsNothing element x) : MeetsNothing (.maybe element) x
  | element {element : SigType} {x item : Native} {items : List Native}
      (hitems : elementsOf element x = .ok items) (hitem : item ∈ items)
      (helement : MeetsNothing element item) : MeetsNothing (.array element) x
  | member {members : List SigType} {type : SigType} {x item : Native} {items : List Native}
      (hitems : x.sequence? = some items) (hpart : (type, item) ∈ members.zip items)
      (hmember : MeetsNothing type item) : MeetsNothing (.tuple members) x
  | key {keyType valueType : SigType} {x keyItem valueItem : Native}
      (hitems : x.sequence? = some [keyItem, valueItem]) (hkey : MeetsNothing keyType keyItem) :
      MeetsNothing (.dictEntry keyType valueType) x
  | value {keyType valueType : SigType} {x keyItem valueItem : Native}
      (hitems : x.sequence? = some [keyItem, valueItem])
      (hvalue : MeetsNothing valueType valueItem) : MeetsNothing (.dictEntry keyType valueType) x

theorem MeetsNothing.maybe_mem_letters {type : SigType} {x : Native}
    (hmeets : MeetsNothing type x) : 'm' ∈ type.letters := by
  induction hmeets with
  | here => decide
  | content => simp [SigType.letters]
  | element _ _ _ ih => simp [SigType.letters, ih]
  | member _ hpart _ ih =>
      have htype := (List.of_mem_zip hpart).1
      have hletters := List.mem_flatMap.mpr ⟨_, htype, ih⟩
      simp only [SigType.letters, SigType.lettersAll_eq_flatMap, List.mem_cons, List.mem_append]
      exact .inr (.inl hletters)
  | key _ _ ih => simp [SigType.letters, ih]
  | value _ _ ih => simp [SigType.letters, ih]

variable {settings : Settings} {root : SigType} {depth : Int} {type : SigType} {x : Native}
  {e : Error}

/-- The types that the kinds of values imply are free of maybes. -/
theorem not_meetsNothing_of_intrinsicType? {y : Native} (htype : x.intrinsicType? = some type) :
    ¬ MeetsNothing type y := by
  intro hmeets
  have hletters := hmeets.maybe_mem_letters
  -- Only integers imply more than one type, and both of these are a single letter.
  cases x with
  | int value =>
      obtain rfl := Option.some.inj htype
      split_ifs at hletters <;> exact absurd hletters (by decide)
  | bool | double | text | blob | map | list | tuple =>
      obtain rfl := Option.some.inj htype
      exact absurd hletters (by decide)
  | _ => simp [Native.intrinsicType?] at htype

/-- An error that is about the grammar of the signature only where an absent value is met. -/
def IsGrammarOfNothing (type : SigType) (x : Native) (e : Error) : Prop :=
  e.kind = .grammar → (∃ quoted, e = .untypedNothing quoted) ∧ MeetsNothing type x

namespace IsGrammarOfNothing

theorem of_kind_ne (hkind : e.kind ≠ .grammar) : IsGrammarOfNothing type x e :=
  fun hgrammar => absurd hgrammar hkind

theorem of_part {part : SigType} {y : Native} (hpart : IsGrammarOfNothing part y e)
    (hmeets : MeetsNothing part y → MeetsNothing type x) : IsGrammarOfNothing type x e :=
  fun hgrammar => (hpart hgrammar).imp_right hmeets

end IsGrammarOfNothing

/-- Wherever a type lies, packing a value against it complains of the grammar only where an absent
value is met. -/
def FailsByNothing [Codecs] (settings : Settings) (type : SigType) (x : Native) : Prop :=
  ∀ root depth, FailsOnly (IsGrammarOfNothing type x) (packAs settings root depth type x)

/-- What packing a part complains of is a complaint about the whole. -/
theorem FailsByNothing.of_part [Codecs] {part : SigType} {y : Native}
    (hfails : FailsByNothing settings part y)
    (hmeets : MeetsNothing part y → MeetsNothing type x) (root : SigType) (depth : Int) :
    FailsOnly (IsGrammarOfNothing type x) (packAs settings root depth part y) :=
  (hfails root depth).imp (fun _ he => he.of_part hmeets)

/-- A type that does not fit is refused for its depth, so that only types that fit are gone
through. -/
theorem failsByNothing_of_fits [Codecs]
    (hfits : ∀ root depth, depth + type.nesting ≤ settings.maxDepth →
      FailsOnly (IsGrammarOfNothing type x) (packAs settings root depth type x)) :
    FailsByNothing settings type x := by
  intro root depth
  by_cases hdeep : settings.maxDepth < depth + type.nesting
  · rw [packAs_tooDeep hdeep]
    exact .error (.of_kind_ne (by simp [Error.kind]))
  · exact hfits root depth (Int.not_lt.mp hdeep)

theorem failsByNothing_basic [Codecs] {code : BasicCode} :
    FailsByNothing settings (.basic code) x := by
  refine failsByNothing_of_fits (fun root depth hfits => ?_)
  rw [packAs_basic hfits]
  split
  next => exact .error (.of_kind_ne (by simp [Error.kind]))
  next => exact (ofBasic_failsOnly code).imp (fun _ hdue => .of_kind_ne hdue.kind_ne_grammar)

theorem failsByNothing_variant [Codecs]
    (himplied : ∀ implied, x.intrinsicType? = some implied → FailsByNothing settings implied x) :
    FailsByNothing settings .variant x := by
  refine failsByNothing_of_fits (fun root depth hfits => ?_)
  rw [packAs_variant hfits]
  split
  next => exact .ok _
  next => exact .error (.of_kind_ne (by simp [Error.kind]))
  next implied _ htype =>
    refine FailsOnly.map ?_
    -- A complaint about the grammar would come from an absent value within the box.
    refine (himplied implied htype).of_part (fun hmeets => ?_) implied (depth + 1)
    exact absurd hmeets (not_meetsNothing_of_intrinsicType? htype)

theorem failsByNothing_maybe [Codecs] {element : SigType}
    (helement : FailsByNothing settings element x) :
    FailsByNothing settings (.maybe element) x := by
  refine failsByNothing_of_fits (fun root depth hfits => ?_)
  rw [packAs_maybe hfits]
  cases hnull : x.isNull with
  | true =>
      cases x with
      | null =>
          cases element with
          | variant => exact .error (fun _ => ⟨⟨root.text, rfl⟩, .here⟩)
          | _ => exact .ok _
      | _ => cases hnull
  | false => exact (helement.of_part (.content hnull) root (depth + 1)).map

theorem failsByNothing_array [Codecs] (hencoding : settings.HasTextEncoding) {element : SigType}
    (hlower : ∀ y type, y.height < x.height → FailsByNothing settings type y) :
    FailsByNothing settings (.array element) x := by
  refine failsByNothing_of_fits (fun root depth hfits => ?_)
  rw [packAs_array hfits]
  split
  next packed hflat =>
    exact (packFlat?_failsOnly hencoding hflat).imp
      (fun _ hdue => .of_kind_ne hdue.kind_ne_grammar)
  next =>
    have helements : FailsOnly (IsGrammarOfNothing (.array element) x) (elementsOf element x) :=
      (elementsOf_failsOnly element).imp (fun _ hdue => .of_kind_ne hdue.kind_ne_grammar)
    refine helements.bind (fun items hitems => ?_)
    rw [packAllAs_eq_mapM]
    refine FailsOnly.map (.mapM (fun item hitem => ?_))
    exact (hlower item element (height_lt_of_elementsOf hitems item hitem)).of_part
      (.element hitems hitem) element (depth + 1)

/-- Members complain one by one. -/
theorem packMembersAs_failsOnly [Codecs] {P : Error → Prop} {members : List SigType}
    {items : List Native}
    (hparts : ∀ part ∈ members.zip items, FailsOnly P (packAs settings root depth part.1 part.2)) :
    FailsOnly P (packMembersAs settings root depth members items) := by
  induction members generalizing items with
  | nil =>
      rw [packMembersAs.eq_def]
      exact .ok _
  | cons type types ih =>
      cases items with
      | nil =>
          rw [packMembersAs.eq_def]
          exact .ok _
      | cons item rest =>
          rw [List.zip_cons_cons] at hparts
          obtain ⟨hitem, hrest⟩ := List.forall_mem_cons.mp hparts
          rw [packMembersAs]
          split
          next e he => exact .error (hitem e he)
          next => exact (ih hrest).map

theorem failsByNothing_tuple [Codecs] {members : List SigType}
    (hlower : ∀ y type, y.height < x.height → FailsByNothing settings type y) :
    FailsByNothing settings (.tuple members) x := by
  refine failsByNothing_of_fits (fun root depth hfits => ?_)
  rw [packAs_tuple hfits]
  split
  next hnone => exact .error (.of_kind_ne (isDueTo_sequenceError _ hnone).kind_ne_grammar)
  next items hitems =>
    have hmembers : FailsOnly (IsGrammarOfNothing (.tuple members) x)
        (packMembersAs settings root (depth + 1) members items) := by
      refine packMembersAs_failsOnly (fun part hpart => ?_)
      have hitem := (List.of_mem_zip hpart).2
      exact (hlower part.2 part.1 (height_lt_of_sequence? hitems part.2 hitem)).of_part
        (.member hitems hpart) root (depth + 1)
    split
    next e he => exact .error (hmembers e he)
    next =>
      split_ifs
      · exact .ok _
      · exact .error (.of_kind_ne (by simp [Error.kind]))

theorem failsByNothing_dictEntry [Codecs] {keyType valueType : SigType}
    (hlower : ∀ y type, y.height < x.height → FailsByNothing settings type y) :
    FailsByNothing settings (.dictEntry keyType valueType) x := by
  refine failsByNothing_of_fits (fun root depth hfits => ?_)
  rw [packAs_dictEntry hfits]
  split
  next hnone => exact .error (.of_kind_ne (isDueTo_sequenceError _ hnone).kind_ne_grammar)
  next keyItem valueItem hitems =>
    have hheight := height_lt_of_sequence? hitems
    have hkey : FailsOnly (IsGrammarOfNothing (.dictEntry keyType valueType) x)
        (packAs settings root (depth + 1) keyType keyItem) :=
      (hlower keyItem keyType (hheight keyItem (by simp))).of_part (.key hitems) _ _
    have hvalue : FailsOnly (IsGrammarOfNothing (.dictEntry keyType valueType) x)
        (packAs settings root (depth + 1) valueType valueItem) :=
      (hlower valueItem valueType (hheight valueItem (by simp))).of_part (.value hitems) _ _
    split
    next e he => exact .error (hkey e he)
    next => exact hvalue.map
  next => exact .error (.of_kind_ne (by simp [Error.kind]))

theorem failsByNothing [Codecs] (hencoding : settings.HasTextEncoding) (type : SigType)
    (x : Native) :
    FailsByNothing settings type x := by
  -- Packing goes down by texts, of which the types here are only some.
  refine packing_induction (P := fun x text => ∀ type : SigType, type.letters = text →
    FailsByNothing settings type x) ?_ x type.letters type rfl
  rintro x _ hlower hmaybe hbox type rfl
  have hlower : ∀ y type, y.height < x.height → FailsByNothing settings type y :=
    fun y type hheight => hlower y _ hheight type rfl
  cases type with
  | basic code => exact failsByNothing_basic
  | variant =>
      exact failsByNothing_variant (fun implied htype => hbox [] implied rfl htype implied rfl)
  | maybe element => exact failsByNothing_maybe (hmaybe element.letters rfl element rfl)
  | array element => exact failsByNothing_array hencoding hlower
  | tuple members => exact failsByNothing_tuple hlower
  | dictEntry keyType valueType => exact failsByNothing_dictEntry hlower
  | wildcard | unlisted | unlistedWildcard =>
      refine failsByNothing_of_fits (fun root depth hfits => ?_)
      rw [packAs.eq_def, if_neg (Int.not_lt.mpr hfits)]
      exact .error (.of_kind_ne (by simp [Error.kind]))

end Pack

/-- Packing ends with one of the errors that callers are prepared for, whatever the signature and
the value, unless a range that is too long to be listed is met: this ends in an overflow or for want
of memory. Of the text of a signature that is accepted within the limit, it complains only for an
absent value where a maybe of a variant is wanted. -/
theorem packing_errors [Codecs] {settings : Settings} (hencoding : settings.HasTextEncoding)
    {signature x : Native} {e : Error} (herror : pack settings signature x = .error e) :
    (e.kind.isRecoverable = true ∨
      (e.kind = .overflow ∨ e.kind = .memory) ∧ x.HoldsLongRange) ∧
    ∀ text type, signature = .text text → Signature.parse settings.maxDepth text = .ok type →
      e.kind = .grammar → (∃ quoted, e = .untypedNothing quoted) ∧ Pack.MeetsNothing type x := by
  refine ⟨(Pack.pack_failsOnly hencoding signature x e herror).isRecoverable_or, ?_⟩
  rintro text type rfl hparse hgrammar
  have hpackAs : Pack.packAs settings type 0 type x = .error e :=
    (packText_eq_packAs hparse x).symm.trans herror
  exact Pack.failsByNothing hencoding type x type 0 e hpackAs hgrammar

section

open scoped Standard

theorem packing_errors_untyped_nothing :
    ({} : Settings).HasTextEncoding ∧
      pack {} (.text "a{smv}") (.map [(.text "a", .null)]) = .error (.untypedNothing "{smv}") ∧
      Signature.parse ({} : Settings).maxDepth "a{smv}" =
        .ok (.array (.dictEntry (.basic (.text .string)) (.maybe .variant))) ∧
      Pack.MeetsNothing (.array (.dictEntry (.basic (.text .string)) (.maybe .variant)))
        (.map [(.text "a", .null)]) := by
  have hknown : ({} : Settings).HasTextEncoding := Settings.hasTextEncoding_default
  have hparse : Signature.parse ({} : Settings).maxDepth "a{smv}" =
      .ok (.array (.dictEntry (.basic (.text .string)) (.maybe .variant))) := by rfl
  have herror : pack {} (.text "a{smv}") (.map [(.text "a", .null)]) =
      .error (.untypedNothing "{smv}") := by
    refine (packText_eq_packAs hparse _).trans ?_
    rw [Pack.packAs_array (by decide)]
    simp only [Pack.packFlat?, Pack.elementsOf, Native.entryPairs]
    simp only [List.map, Except.bind, Pack.packAllAs]
    rw [Pack.packAs_dictEntry (by decide), Native.sequence?]
    simp only []
    rw [Pack.packAs_basic (by decide), Pack.packAs_maybe (by decide)]
    rfl
  have hmeets := ((packing_errors hknown herror).2 _ _ rfl hparse rfl).2
  exact ⟨hknown, herror, hparse, hmeets⟩

/-- The bytes of a range of more items than a machine word counts are no error that callers are
prepared for, though the items are no bytes either. -/
theorem packing_overlong_range :
    ({} : Settings).HasTextEncoding ∧
      pack {} (.text "ay") (.range 0 9223372036854775808 1) = .error .overlongRange ∧
      Error.overlongRange.kind.isRecoverable = false := by
  have hparse : Signature.parse ({} : Settings).maxDepth "ay" =
      .ok (.array (.basic (.integer .byte))) := by rfl
  refine ⟨Settings.hasTextEncoding_default, (packText_eq_packAs hparse _).trans ?_, rfl⟩
  rw [Pack.packAs_array (by decide)]
  rfl

end

end TypedVariant
