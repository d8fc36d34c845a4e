import TypedVariant.Proofs.Text.Numeral
import TypedVariant.Proofs.Variant.Payload

/-!
# Containers and their children

What a container stores depends on its type, and a blob stores no variants at all. Its
children are shown in one way nevertheless: by their number, by the child at a place, and
by going through them. Nothing is lost thereby. From the children of a container, and for
maybes and arrays its element type, the constructor of its type makes it again. An index at
which there is no child is quoted in the refusal, which fails for one of too many digits.
-/

namespace TypedVariant

/-- What may be given to name an element type: the type itself, or its text if it nests no deeper
than a text is ever read. -/
inductive TypeSource.Names : TypeSource → SigType → Prop
  | type (element : SigType) : Names (.type element) element
  | text {element : SigType} (hnesting : (element.nesting : Int) ≤ maxDepthLimit) :
      Names (.text element.text) element

namespace Variant

/-- The children that a variant shows: as many as are counted, each at its place, none at any other
place, and all of them in order when it is gone through. Another place is refused as an index, or
else because it cannot be written. -/
structure ShowsChildren (v : Variant) (children : List Variant) : Prop where
  count : v.childCount = .ok children.length
  child : ∀ (n : Nat) (hn : n < children.length), v.childAt (.int n) = .ok (.variant children[n])
  outside : ∀ i : Int, (i < 0 ∨ children.length ≤ i) → Numeral.isOverlong i = false →
    ∃ refusal, v.childAt (.int i) = .error refusal ∧ refusal.kind = .index
  overlong : ∀ i : Int, (i < 0 ∨ children.length ≤ i) → Numeral.isOverlong i = true →
    v.childAt (.int i) = .error .overlongInteger
  iterate : (Native.variant v).iterate = .ok (children.map .variant)

variable {v : Variant} {children : List Variant} {type element : SigType} {source : TypeSource}

theorem childAt_int {items : List Native} {i : Int} (hitems : v.children = .ok items) :
    v.childAt (.int i) = if 0 ≤ i then
        match items[i.toNat]? with
        | some child => .ok child
        | none => .error (outsideError (.int i) items.length)
      else .error (outsideError (.int i) items.length) := by
  rw [childAt, childAtPlace, hitems]
  rfl

theorem outsideError_int (i : Int) (count : Nat) : outsideError (.int i) count =
    if Numeral.isOverlong i then .overlongInteger else .childIndex (.int i) count := by
  rw [outsideError, Native.printFault?, PrintFault.ofInteger?]
  cases Numeral.isOverlong i <;> rfl

theorem childAt_outside (hchildren : v.children? = some children) {i : Int}
    (houtside : i < 0 ∨ children.length ≤ i) : v.childAt (.int i) = .error
      (if Numeral.isOverlong i then .overlongInteger else .childIndex (.int i) children.length) := by
  rw [childAt_int (children_eq_of_children? hchildren), List.length_map, outsideError_int]
  split
  next hnonneg =>
    have hbehind : (children.map Native.variant)[i.toNat]? = none := by
      rw [List.getElem?_eq_none_iff, List.length_map]
      omega
    rw [hbehind]
  next => rfl

/-- All ways of showing children show the same ones, however they are stored. -/
theorem showsChildren_of_children? (hchildren : v.children? = some children) :
    v.ShowsChildren children := by
  have hitems := children_eq_of_children? hchildren
  refine ⟨by simp [childCount, hitems, Except.map], fun n hn => ?_, fun i houtside hshort => ?_,
    fun i houtside hlong => ?_, hitems⟩
  · rw [childAt_int hitems, if_pos (Int.natCast_nonneg n), Int.toNat_natCast, List.getElem?_map,
      List.getElem?_eq_getElem hn]
    rfl
  · refine ⟨.childIndex (.int i) children.length, ?_, rfl⟩
    rw [childAt_outside hchildren houtside, if_neg (by simp [hshort])]
  · rw [childAt_outside hchildren houtside, if_pos hlong]

/-- What a typed variant shows is what it stores. -/
theorem children?_of_showsChildren (htyped : HasType v type) (hshows : v.ShowsChildren children) :
    v.children? = some children := by
  have hiterate : v.children = .ok (children.map .variant) := hshows.iterate
  cases hstored : v.children? with
  | none =>
      cases htyped with
      | boolean | integer | double | text =>
          simp [Variant.children, Native.childrenOf?, Variant.children?, tag?, typeLetters]
            at hiterate
      | _ => simp [Variant.children?] at hstored
  | some stored =>
      rw [children_eq_of_children? hstored] at hiterate
      rw [List.map_injective_iff.mpr (fun _ _ => Native.variant.inj) (Except.ok.inj hiterate)]

/-- A typed variant that is no basic one shows children. -/
theorem exists_children?_of_isContainer (htyped : HasType v type)
    (hcontainer : v.isContainer = true) :
    ∃ children, v.children? = some children := by
  have hnotBasic (code : BasicCode) (hbasic : HasType v (.basic code)) : False := by
    simp [isContainer, hbasic.isBasic] at hcontainer
  cases htyped with
  | boolean value => exact (hnotBasic _ (.boolean value)).elim
  | integer hholds => exact (hnotBasic _ (.integer hholds)).elim
  | double value => exact (hnotBasic _ (.double value)).elim
  | text haccepts => exact (hnotBasic _ (.text haccepts)).elim
  | _ => exact ⟨_, rfl⟩

/-! ## Making a container from children -/

/-- A call of the constructor that matches a type, with children: those of an array or a tuple come
from anything that meets them when it is gone through. -/
inductive MatchingCall : SigType → List Variant → Except Error Variant → Prop
  | box (content : Variant) : MatchingCall .variant [content] (ofContent (.variant content))
  | nothing {element : SigType} {source : TypeSource} (hnames : source.Names element) :
      MatchingCall (.maybe element) [] (ofMaybe (some source) .null)
  | just {element : SigType} {source : TypeSource} (hnames : source.Names element)
      (child : Variant) : MatchingCall (.maybe element) [child] (ofMaybe (some source) (.variant child))
  | array {element : SigType} {source : TypeSource} {children : List Variant} {x : Native}
      (hnames : source.Names element) (hx : x.iterate = .ok (children.map .variant)) :
      MatchingCall (.array element) children (ofArray (some source) x)
  | tuple {members : List SigType} {children : List Variant} {x : Native}
      (hx : x.iterate = .ok (children.map .variant)) :
      MatchingCall (.tuple members) children (ofTuple x)
  | entry {keyType valueType : SigType} (key value : Variant) :
      MatchingCall (.dictEntry keyType valueType) [key, value]
        (ofEntry (.variant key) (.variant value))

theorem elementTypeString_of_names (hnames : source.Names element)
    (hwf : element.WellFormed false) :
    elementTypeString source = .ok element.text := by
  have htype : Signature.typeOf maxDepthLimit source = .ok (.ok element) := by
    cases hnames with
    | type => rfl
    | text hnesting =>
        rw [Signature.typeOf, Signature.parse_text hwf hnesting]
        rfl
  rw [elementTypeString, htype]
  simp [bind, Except.bind, pure, Except.pure, hwf.isDefinite]

theorem mapM_require (what : String) (children : List Variant) :
    (children.map Native.variant).mapM (require what) = .ok children := by
  rw [mapM_eq_ok_iff_forall₂, List.forall₂_map_left_iff, List.forall₂_same]
  exact fun child _ => rfl

/-- The bytes of a blob are those of the children that stand for them. -/
theorem byteValues_map_ofByte (blob : List UInt8) : byteValues (blob.map ofByte) = blob := by
  induction blob with
  | nil => rfl
  | cons b rest ih =>
      rw [byteValues] at ih
      simp [byteValues, ofByte, ih]

/-! ## The calls that make a container again -/

theorem ofMaybe_null (hnames : source.Names element) (hwf : element.WellFormed false) :
    ofMaybe (some source) .null = .ok (nothing element.text) := by
  rw [ofMaybe, elementTypeString_of_names hnames hwf]
  rfl

theorem ofMaybe_variant {child : Variant} (hnames : source.Names element)
    (hchild : HasType child element) :
    ofMaybe (some source) (.variant child) = .ok (just child) := by
  simp [ofMaybe, require, elementTypeString_of_names hnames hchild.wellFormed, hchild.typeString,
    bind, Except.bind, pure, Except.pure]

theorem ofArray_of_typeString {x : Native} (hnames : source.Names element)
    (hwf : element.WellFormed false) (hchildren : ∀ child ∈ children, child.typeString = element.text)
    (hx : x.iterate = .ok (children.map .variant)) :
    ofArray (some source) x = .ok (if element.text = "y" then bytes (byteValues children)
      else array element.text children) :=
  bind_eq_ok_iff.mpr ⟨_, hx, bind_eq_ok_iff.mpr ⟨_, mapM_require _ children,
    bind_eq_ok_iff.mpr ⟨_, elementTypeString_of_names hnames hwf, arrayOf_of_typeString hchildren⟩⟩⟩

theorem ofArray_of_iterate {x : Native} (hnames : source.Names element)
    (hwf : element.WellFormed false) (hchildren : ∀ child ∈ children, HasType child element)
    (hx : x.iterate = .ok (children.map .variant)) :
    ofArray (some source) x = .ok (if element.text = "y" then bytes (byteValues children)
      else array element.text children) :=
  ofArray_of_typeString hnames hwf (fun child hchild => (hchildren child hchild).typeString) hx

theorem ofTuple_of_iterate {x : Native} (hx : x.iterate = .ok (children.map .variant)) :
    ofTuple x = .ok (tuple children) :=
  bind_eq_ok_iff.mpr ⟨_, hx, bind_eq_ok_iff.mpr ⟨_, mapM_require _ children, rfl⟩⟩

/-- The constructor that matches the type of a container makes it again from its children. -/
theorem eq_ok_of_matchingCall {answer : Except Error Variant} (htyped : HasType v type)
    (hchildren : v.children? = some children) (hcall : MatchingCall type children answer) :
    answer = .ok v := by
  cases htyped with
  | boolean | integer | double | text => simp [Variant.children?] at hchildren
  | box hcontent =>
      obtain rfl := Option.some.inj hchildren
      cases hcall with
      | box => rfl
  | nothing helement =>
      obtain rfl := Option.some.inj hchildren
      cases hcall with
      | nothing hnames => exact ofMaybe_null hnames helement
  | just hcontent =>
      obtain rfl := Option.some.inj hchildren
      cases hcall with
      | just hnames => exact ofMaybe_variant hnames hcontent
  | bytes blob =>
      obtain rfl := Option.some.inj hchildren
      cases hcall with
      | array hnames hx =>
          -- The children of a blob are its bytes, and an array of bytes is stored as a blob.
          rw [ofArray_of_iterate hnames (.basic _)
            (by simpa using fun b _ => hasType_ofByte b) hx, byteValues_map_ofByte]
          rfl
  | array helement hbyte hitems =>
      obtain rfl := Option.some.inj hchildren
      cases hcall with
      | array hnames hx =>
          rw [ofArray_of_iterate hnames helement hitems hx, if_neg]
          exact fun htext => hbyte (SigType.text_inj helement (.basic _) htext)
  | tuple parts hparts =>
      obtain rfl := Option.some.inj hchildren
      cases hcall with
      | tuple hx => exact ofTuple_of_iterate hx
  | entry hkey hvalue =>
      obtain rfl := Option.some.inj hchildren
      cases hcall with
      | entry => simp [ofEntry, require, hkey.isBasic, bind, Except.bind, pure, Except.pure]

/-- There is such a call for every container. -/
theorem exists_matchingCall (htyped : HasType v type) (hchildren : v.children? = some children) :
    ∃ answer, MatchingCall type children answer := by
  have hlist : (Native.list (children.map .variant)).iterate = .ok (children.map .variant) := rfl
  cases htyped with
  | boolean | integer | double | text => simp [Variant.children?] at hchildren
  | bytes | array => exact ⟨_, .array (.type _) hlist⟩
  | tuple => exact ⟨_, .tuple hlist⟩
  | box =>
      obtain rfl := Option.some.inj hchildren
      exact ⟨_, .box _⟩
  | nothing =>
      obtain rfl := Option.some.inj hchildren
      exact ⟨_, .nothing (.type _)⟩
  | just =>
      obtain rfl := Option.some.inj hchildren
      exact ⟨_, .just (.type _) _⟩
  | entry =>
      obtain rfl := Option.some.inj hchildren
      exact ⟨_, .entry _ _⟩

/-- The children of a container make it again. Those of a built container are shown in one way
whatever is stored: there are as many as are counted, each is found at its place and nothing at any
other, and going through the container meets them in order. A place with nothing is refused as an
index, unless it has too many digits to be quoted. All children are well-formed. There is a call of
the constructor that matches the type of the container with these children, and every such call
makes the container itself. -/
theorem children_make_container {v : Variant} (hbuilt : Built v)
    (hcontainer : v.isContainer = true) :
    ∃ type children, IsCompleteType false type v.typeString.toList ∧ v.ShowsChildren children ∧
      (∀ child ∈ children, child.IsWellFormed) ∧ (∃ answer, MatchingCall type children answer) ∧
      ∀ answer, MatchingCall type children answer → answer = .ok v := by
  obtain ⟨type, htyped⟩ := hbuilt.isTyped
  obtain ⟨children, hchildren⟩ := exists_children?_of_isContainer htyped hcontainer
  refine ⟨type, children, ?_, showsChildren_of_children? hchildren, fun child hchild => ?_,
    exists_matchingCall htyped hchildren, fun answer => eq_ok_of_matchingCall htyped hchildren⟩
  · rw [htyped.typeString, SigType.toList_text]
    exact SigType.isCompleteType_iff.mpr ⟨htyped.wellFormed, rfl⟩
  · obtain ⟨childType, hchildType⟩ := IsTyped.children? ⟨type, htyped⟩ hchildren child hchild
    exact hchildType.isWellFormed

/-- The children of a blob are made when they are asked for. The last of two is a byte, there is
none in front of the first, and the array of bytes that is made of them is the blob again. -/
theorem children_make_container_blob :
    Built (bytes [104, 0]) ∧ (bytes [104, 0]).childAt (.int 1) = .ok (.variant (integer .byte 0)) ∧
      (∃ refusal, (bytes [104, 0]).childAt (.int (-1)) = .error refusal ∧ refusal.kind = .index) ∧
      ofArray (some (.text "y")) (.list [.variant (integer .byte 104), .variant (integer .byte 0)]) =
        .ok (bytes [104, 0]) := by
  have hbuilt : Built (bytes [104, 0]) :=
    @Built.rawBytes (.text "ay") (.blob .fixed [104, 0]) _ (by rfl)
  obtain ⟨type, children, htype, hshows, -, -, hmakes⟩ := children_make_container hbuilt (by rfl)
  obtain rfl : [ofByte 104, ofByte 0] = children :=
    List.map_injective_iff.mpr (fun _ _ => Native.variant.inj) (Except.ok.inj hshows.iterate)
  obtain ⟨hwf, hletters⟩ := SigType.isCompleteType_iff.mp htype
  obtain rfl : type = .array (.basic (.integer .byte)) :=
    SigType.letters_inj hwf (.array (.basic _)) hletters.symm
  have hnames : (TypeSource.text "y").Names (.basic (.integer .byte)) :=
    @TypeSource.Names.text (.basic (.integer .byte)) (by decide)
  exact ⟨hbuilt, hshows.child 1 (by decide), hshows.outside (-1) (by decide) (by decide),
    hmakes _ (.array hnames rfl)⟩

/-- No child of the empty tuple is at a place of 4301 digits, but this is not said by the refusal
of an index. -/
theorem child_at_overlong_place :
    Built (tuple []) ∧ (tuple []).isContainer = true ∧ (tuple []).childCount = .ok 0 ∧
      (tuple []).childAt (.int (10 ^ 4300)) = .error .overlongInteger ∧
      Error.overlongInteger.kind ≠ .index := by
  have hbuilt : Built (tuple []) :=
    @Built.tuple (.list []) _ (by simp [Native.variants, Native.variantsAll]) (by rfl)
  have hlong : Numeral.isOverlong (10 ^ 4300) = true := Numeral.isOverlong_pow
  have hplace : (0 : Int) ≤ 10 ^ 4300 := Int.pow_nonneg (by decide)
  refine ⟨hbuilt, by rfl, by rfl, ?_, by decide⟩
  have hnone : (tuple []).children? = some [] := rfl
  rw [childAt_outside hnone (.inr hplace), if_pos hlong]

end Variant

end TypedVariant
