import TypedVariant.Proofs.Pack.Derivation

/-!
# Packing by recursion on a type

`packAs` goes through a type and a value together and never looks at any text. A
type that does not fit the limit where it lies is refused as a whole; behind
this, containers pack their parts against their parts' types, one level deeper,
and a box packs a value at the type that its kind implies, one level deeper as
well. Types occur in variants and errors as what they are written as.
-/

namespace TypedVariant.Pack

mutual

/-- Packs a value against a type at the given depth. An error quotes the type `root`, in which the
type lies: the outermost one, the element type of an array, or the type of what is boxed. -/
def packAs [Codecs] (settings : Settings) (root : SigType) (depth : Int) (type : SigType)
    (x : Native) :
    Except Error Variant :=
  -- The type has to fit as a whole, whatever part of it the value will reach.
  if settings.maxDepth < depth + type.nesting then .error (.tooDeep settings.maxDepth)
  else
    match type with
    | .basic code =>
      match x.asVariant? with
      | some _ => .error (.unboxedVariant code)
      | none => Variant.ofBasic code x
    | .variant =>
      match x.asVariant? with
      | some v => .ok (.box v)
      | none =>
        match _hx : x.intrinsicType? with
        | none => .error (.noIntrinsicType x.kindName)
        | some implied => (packAs settings implied (depth + 1) implied x).map .box
    | .maybe element =>
      if x.isNull then
        match element with
        | .variant => .error (.untypedNothing root.text)
        | _ => .ok (.nothing element.text)
      else (packAs settings root (depth + 1) element x).map .just
    | .array element =>
      match packFlat? settings element x with
      | some packed => packed
      | none =>
        match _hx : elementsOf element x with
        | .error e => .error e
        | .ok items => (packAllAs settings (depth + 1) element items).map (.array element.text)
    | .tuple members =>
      match _hx : x.sequence? with
      | none => .error (sequenceError .tuple x)
      | some items =>
        match packMembersAs settings root (depth + 1) members items with
        | .error e => .error e
        | .ok packed =>
          if members.length = items.length then .ok (.tuple packed)
          else .error (.tupleSize members.length items.length)
    | .dictEntry keyType valueType =>
      match _hx : x.sequence? with
      | none => .error (sequenceError .dictEntry x)
      | some [keyItem, valueItem] =>
        match packAs settings root (depth + 1) keyType keyItem with
        | .error e => .error e
        | .ok key => (packAs settings root (depth + 1) valueType valueItem).map (.entry key)
      | some items => .error (.entrySize items.length)
    | .wildcard _ | .unlisted _ | .unlistedWildcard _ => .error (.indefiniteType type.text)
termination_by (x.height, 0, (if leadsToBox type.letters then 1 else 0), sizeOf type)
decreasing_by
  · exact Prod.Lex.right _ (Prod.Lex.right _ (Prod.Lex.left _ _
      (by simp [leadsToBox_intrinsicType? _hx, leadsToBox, SigType.letters])))
  · refine Prod.Lex.right _ (Prod.Lex.right _ ?_)
    simp only [SigType.letters, leadsToBox]
    exact Prod.Lex.right _ (by simp)
  · exact Prod.Lex.left _ _ (heightAll_lt_of_elementsOf _hx)
  · exact Prod.Lex.left _ _ (Native.heightAll_lt_of_sequence? _hx)
  · have := Native.heightAll_lt_of_sequence? _hx
    simp only [Native.heightAll] at this
    exact Prod.Lex.left _ _ (by omega)
  · have := Native.heightAll_lt_of_sequence? _hx
    simp only [Native.heightAll] at this
    exact Prod.Lex.left _ _ (by omega)

/-- Packs every value of a list against the element type of an array. -/
def packAllAs [Codecs] (settings : Settings) (depth : Int) (element : SigType) :
    List Native → Except Error (List Variant)
  | [] => .ok []
  | x :: rest =>
    match packAs settings element depth element x with
    | .error e => .error e
    | .ok v => (packAllAs settings depth element rest).map (v :: ·)
termination_by items => (Native.heightAll items, 1, 0, items.length)
decreasing_by
  · exact Native.lex_head _ _ _ _
  · exact Native.lex_tail _ _

/-- Packs as many values as there are members, in order, each against its member. -/
def packMembersAs [Codecs] (settings : Settings) (root : SigType) (depth : Int) :
    List SigType → List Native → Except Error (List Variant)
  | type :: types, x :: rest =>
    match packAs settings root depth type x with
    | .error e => .error e
    | .ok v => (packMembersAs settings root depth types rest).map (v :: ·)
  | _, _ => .ok []
termination_by _ items => (Native.heightAll items, 1, 0, items.length)
decreasing_by
  · exact Native.lex_head _ _ _ _
  · exact Native.lex_tail _ _

end

variable {settings : Settings} {root : SigType} {depth : Int} {x : Native}

/-! ## One step -/

theorem packAs_tooDeep [Codecs] {type : SigType}
    (hdeep : settings.maxDepth < depth + type.nesting) :
    packAs settings root depth type x = .error (.tooDeep settings.maxDepth) := by
  rw [packAs.eq_def, if_pos hdeep]

theorem packAs_basic [Codecs] {code : BasicCode}
    (hfits : depth + (SigType.basic code).nesting ≤ settings.maxDepth) :
    packAs settings root depth (.basic code) x =
      match x.asVariant? with
      | some _ => .error (.unboxedVariant code)
      | none => Variant.ofBasic code x := by
  rw [packAs.eq_def, if_neg (Int.not_lt.mpr hfits)]

theorem packAs_variant [Codecs] (hfits : depth + SigType.variant.nesting ≤ settings.maxDepth) :
    packAs settings root depth .variant x =
      match x.asVariant?, x.intrinsicType? with
      | some v, _ => .ok (.box v)
      | none, none => .error (.noIntrinsicType x.kindName)
      | none, some implied => (packAs settings implied (depth + 1) implied x).map .box := by
  rw [packAs, if_neg (Int.not_lt.mpr hfits)]
  cases x.asVariant? with
  | some v => rfl
  | none => cases x.intrinsicType? <;> rfl

theorem packAs_maybe [Codecs] {element : SigType}
    (hfits : depth + (SigType.maybe element).nesting ≤ settings.maxDepth) :
    packAs settings root depth (.maybe element) x =
      if x.isNull then
        match element with
        | .variant => .error (.untypedNothing root.text)
        | _ => .ok (.nothing element.text)
      else (packAs settings root (depth + 1) element x).map .just := by
  rw [packAs.eq_def, if_neg (Int.not_lt.mpr hfits)]

theorem packAs_array [Codecs] {element : SigType}
    (hfits : depth + (SigType.array element).nesting ≤ settings.maxDepth) :
    packAs settings root depth (.array element) x =
      match packFlat? settings element x with
      | some packed => packed
      | none =>
        (elementsOf element x).bind fun items =>
          (packAllAs settings (depth + 1) element items).map (.array element.text) := by
  rw [packAs, if_neg (Int.not_lt.mpr hfits)]
  cases packFlat? settings element x with
  | some packed => rfl
  | none => cases elementsOf element x <;> rfl

theorem packAs_tuple [Codecs] {members : List SigType}
    (hfits : depth + (SigType.tuple members).nesting ≤ settings.maxDepth) :
    packAs settings root depth (.tuple members) x =
      match x.sequence? with
      | none => .error (sequenceError .tuple x)
      | some items =>
        match packMembersAs settings root (depth + 1) members items with
        | .error e => .error e
        | .ok packed =>
          if members.length = items.length then .ok (.tuple packed)
          else .error (.tupleSize members.length items.length) := by
  rw [packAs, if_neg (Int.not_lt.mpr hfits)]
  cases x.sequence? <;> rfl

theorem packAs_dictEntry [Codecs] {keyType valueType : SigType}
    (hfits : depth + (SigType.dictEntry keyType valueType).nesting ≤ settings.maxDepth) :
    packAs settings root depth (.dictEntry keyType valueType) x =
      match x.sequence? with
      | none => .error (sequenceError .dictEntry x)
      | some [keyItem, valueItem] =>
        match packAs settings root (depth + 1) keyType keyItem with
        | .error e => .error e
        | .ok key => (packAs settings root (depth + 1) valueType valueItem).map (.entry key)
      | some items => .error (.entrySize items.length) := by
  rw [packAs, if_neg (Int.not_lt.mpr hfits)]
  cases x.sequence? with
  | none => rfl
  | some items => rcases items with _ | ⟨_, _ | ⟨_, _ | ⟨_, _⟩⟩⟩ <;> rfl

theorem packAllAs_eq_mapM [Codecs] {element : SigType} {items : List Native} :
    packAllAs settings depth element items =
      items.mapM (packAs settings element depth element) := by
  induction items with
  | nil => rw [packAllAs, List.mapM_nil]; rfl
  | cons item rest ih =>
      rw [packAllAs, List.mapM_cons, ih]
      cases packAs settings element depth element item with
      | error e => rfl
      | ok v => cases rest.mapM (packAs settings element depth element) <;> rfl

end TypedVariant.Pack
