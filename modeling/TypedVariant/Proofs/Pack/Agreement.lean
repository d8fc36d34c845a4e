import TypedVariant.Proofs.Pack.Consumption
import TypedVariant.Proofs.Pack.TypeDirected
import TypedVariant.Proofs.Signature.Depth

/-!
# Packing a text is packing by its type

Against the text of a type, packing makes what the recursion on the type makes,
and refuses what it refuses with the same error, so of several faults the same
one is found first. Behind the text of the type anything may follow: members and
keys are packed from texts that go on, and only a success tells where.
-/

namespace TypedVariant.Pack

open Signature (Admits)

variable {settings : Settings} {root : SigType} {depth : Int} {simple : Bool} {x : Native}

/-- Against the text of a type, wherever the type is admitted and whatever follows, a value is
packed as it is against the type. -/
def Agrees [Codecs] (settings : Settings) (x : Native) (type : SigType) : Prop :=
  ∀ (root : SigType) (depth : Int) (simple : Bool) (left : List Char),
    Admits ⟨false, settings.maxDepth⟩ depth simple type →
      (packValue settings root.text depth simple (type.letters ++ left) x).1 =
        packAs settings root depth type x

namespace Agrees

variable {type : SigType}

/-- A value that is packed takes the letters of its type, so packing goes on behind them. -/
theorem packValue_eq_ok [Codecs] (hagrees : Agrees settings x type)
    (hadmits : Admits ⟨false, settings.maxDepth⟩ depth simple type) {v : Variant}
    (hpack : packAs settings root depth type x = .ok v) (left : List Char) :
    packValue settings root.text depth simple (type.letters ++ left) x = (.ok v, left) := by
  have houtcome := hagrees root depth simple left hadmits
  cases hvalue : packValue settings root.text depth simple (type.letters ++ left) x with
  | mk outcome stop =>
      rw [hvalue, hpack] at houtcome
      subst houtcome
      -- The text of one type begins no other, so what was found is the given type.
      obtain ⟨found, hfound, htext, -⟩ := packValue_eq_ok_iff.mp hvalue
      obtain ⟨-, rfl⟩ := SigType.letters_append_inj hadmits.wellFormed hfound.wellFormed htext
      rfl

theorem exists_packValue_eq_error [Codecs] (hagrees : Agrees settings x type)
    (hadmits : Admits ⟨false, settings.maxDepth⟩ depth simple type) {e : Error}
    (hpack : packAs settings root depth type x = .error e) (left : List Char) :
    ∃ stop, packValue settings root.text depth simple (type.letters ++ left) x =
      (.error e, stop) :=
  ⟨_, Prod.ext ((hagrees root depth simple left hadmits).trans hpack) rfl⟩

/-- What is made of a value has a derivation at the type. -/
theorem packs [Codecs] (hagrees : Agrees settings x type)
    (hadmits : Admits ⟨false, settings.maxDepth⟩ depth simple type) {v : Variant}
    (hpack : packAs settings root depth type x = .ok v) : Packs settings depth type x v := by
  obtain ⟨found, hfound, htext, hpacks⟩ :=
    packValue_eq_ok_iff.mp (hagrees.packValue_eq_ok hadmits hpack [])
  obtain ⟨rfl, -⟩ := SigType.letters_append_inj hadmits.wellFormed hfound.wellFormed htext
  exact hpacks

end Agrees

/-! ## Boxes -/

theorem agrees_basic [Codecs] {code : BasicCode} : Agrees settings x (.basic code) := by
  intro root depth simple left hadmits
  rw [SigType.letters, List.singleton_append, packValue_basic hadmits.depth_le,
    packAs_basic hadmits.fits]
  cases x.asVariant? <;> rfl

/-- The types that values are boxed as are basic types and arrays. -/
theorem basic_or_array_of_intrinsicType? {implied : SigType}
    (htype : x.intrinsicType? = some implied) :
    (∃ code, implied = .basic code) ∨ ∃ element, implied = .array element := by
  cases x with
  | bool _ | int _ | double _ | text _ => exact .inl ⟨_, (Option.some.inj htype).symm⟩
  | blob _ _ | map _ | list _ | tuple _ => exact .inr ⟨_, (Option.some.inj htype).symm⟩
  | _ => simp [Native.intrinsicType?] at htype

/-- A value is not packed at the type its kind implies if this does not fit. An array type is read
as a whole before anything is packed, so nothing else is found wrong first. -/
theorem packValue_implied_tooDeep [Codecs] {implied : SigType} {signature : String}
    (htype : x.intrinsicType? = some implied)
    (hdeep : settings.maxDepth < depth + implied.nesting) :
    (packValue settings signature depth false implied.letters x).1 =
      .error (.tooDeep settings.maxDepth) := by
  by_cases hfits : depth ≤ settings.maxDepth
  · have hwf := wellFormed_of_intrinsicType? htype
    obtain ⟨code, rfl⟩ | ⟨element, rfl⟩ := basic_or_array_of_intrinsicType? htype
    · rw [SigType.nesting] at hdeep
      omega
    · cases hwf with
      | array helement =>
          have helementDeep : settings.maxDepth < depth + 1 + element.nesting := by
            rw [SigType.nesting] at hdeep
            omega
          have hread := @Signature.readOne_tooDeep ⟨false, settings.maxDepth⟩ (depth + 1) false
            element helement (by simp) helementDeep []
          rw [List.append_nil] at hread
          rw [SigType.letters, packValue_array hfits]
          cases houtcome : Signature.readOne ⟨false, settings.maxDepth⟩ (depth + 1) false
              element.letters with
          | mk outcome stop =>
              rw [houtcome] at hread
              subst hread
              rfl
  · rw [packValue_tooDeep (by omega)]

/-- A box takes a variant as it is, and packs any other value against a text of its own. -/
theorem agrees_variant [Codecs]
    (himplied : ∀ implied, x.intrinsicType? = some implied → Agrees settings x implied) :
    Agrees settings x .variant := by
  intro root depth simple left hadmits
  obtain ⟨rfl, hfits⟩ := Signature.admits_variant_iff.mp hadmits
  rw [SigType.letters, List.singleton_append, packValue_box hfits, packAs_variant hadmits.fits]
  cases x.asVariant? with
  | some v => rfl
  | none =>
      cases htype : x.intrinsicType? with
      | none => rfl
      | some implied =>
          dsimp only
          congr 1
          by_cases hfits : depth + 1 + implied.nesting ≤ settings.maxDepth
          · have hagrees := himplied implied htype implied (depth + 1) false []
              ⟨wellFormed_of_intrinsicType? htype, hfits, by simp⟩
            rwa [List.append_nil] at hagrees
          · rw [packValue_implied_tooDeep htype (by omega), packAs_tooDeep (by omega)]

/-! ## Containers -/

theorem agrees_maybe [Codecs] {element : SigType} (helement : Agrees settings x element) :
    Agrees settings x (.maybe element) := by
  intro root depth simple left hadmits
  obtain ⟨rfl, hinner⟩ := Signature.admits_maybe_iff.mp hadmits
  rw [SigType.letters, List.cons_append, packValue_maybe hadmits.depth_le,
    packAs_maybe hadmits.fits]
  cases x.isNull with
  | true =>
      simp only [if_true, Signature.readOne_letters hinner]
      cases element <;> rfl
  | false =>
      simp only [Bool.false_eq_true, if_false]
      rw [helement root (depth + 1) false left hinner]

/-- Each element of an array is packed against a text of its own. -/
theorem packEach_agrees [Codecs] {element : SigType} {items : List Native}
    (hadmits : Admits ⟨false, settings.maxDepth⟩ depth false element)
    (hitems : ∀ item ∈ items, Agrees settings item element) :
    packEach settings element.text depth element.letters items =
      packAllAs settings depth element items := by
  induction items with
  | nil => rw [packEach, packAllAs]
  | cons item rest ih =>
      obtain ⟨hitem, hrest⟩ := List.forall_mem_cons.mp hitems
      have hagrees := hitem element depth false [] hadmits
      rw [List.append_nil] at hagrees
      rw [packEach, packAllAs, hagrees]
      cases packAs settings element depth element item with
      | error e => rfl
      | ok v => exact congrArg (Except.map (v :: ·)) (ih hrest)

/-- The elements that are packed have the type string that the array asks of them. -/
theorem bind_arrayOf [Codecs] {element : SigType} {items : List Native} (hbyte : element.text ≠ "y")
    (hadmits : Admits ⟨false, settings.maxDepth⟩ depth false element)
    (hitems : ∀ item ∈ items, Agrees settings item element) :
    (packAllAs settings depth element items).bind (Variant.arrayOf element.text) =
      (packAllAs settings depth element items).map (.array element.text) := by
  cases hall : packAllAs settings depth element items with
  | error e => rfl
  | ok vs =>
      rw [packAllAs_eq_mapM] at hall
      obtain ⟨parts, rfl, rfl, hparts⟩ := mapM_eq_ok_iff.mp hall
      apply arrayOf_eq_ok hbyte
      intro v hv
      obtain ⟨part, hpart, rfl⟩ := List.mem_map.mp hv
      have hitem := hitems part.1 (List.mem_map_of_mem hpart)
      exact (hitem.packs hadmits (hparts part hpart)).typeLetters

theorem agrees_array [Codecs] {element : SigType}
    (hlower : ∀ y type, y.height < x.height → Agrees settings y type) :
    Agrees settings x (.array element) := by
  intro root depth simple left hadmits
  obtain ⟨rfl, helement⟩ := Signature.admits_array_iff.mp hadmits
  rw [SigType.letters, List.cons_append, packValue_array hadmits.depth_le,
    packAs_array hadmits.fits, Signature.readOne_letters helement]
  dsimp only
  cases hflat : packFlat? settings element x with
  | some packed => rfl
  | none =>
      cases hitems : elementsOf element x with
      | error e => rfl
      | ok items =>
          have hagrees : ∀ item ∈ items, Agrees settings item element := fun item hitem =>
            hlower item element (height_lt_of_elementsOf hitems item hitem)
          have hbyte := text_ne_byte_of_packFlat? helement.wellFormed hflat
          dsimp only [Except.bind]
          rw [packEach_agrees helement hagrees]
          exact bind_arrayOf hbyte helement hagrees

/-! ## Tuples and entries -/

/-- As many values are packed as there are both members and values. -/
theorem length_of_packMembersAs [Codecs] {members : List SigType} {items : List Native}
    {vs : List Variant} (hpack : packMembersAs settings root depth members items = .ok vs) :
    vs.length = min members.length items.length := by
  induction items generalizing members vs with
  | nil =>
      cases members <;> simp_all [packMembersAs]
  | cons item rest ih =>
      cases members with
      | nil => simp_all [packMembersAs]
      | cons type types =>
          rw [packMembersAs] at hpack
          split at hpack
          next => simp at hpack
          next v _ =>
            obtain ⟨others, hothers, rfl⟩ := map_eq_ok_iff.mp hpack
            have hlength := ih hothers
            simp only [List.length_cons]
            omega

/-- A member that is refused ends the packing of a tuple. -/
theorem exists_packMembers_eq_error [Codecs] {type : SigType} {item : Native}
    (hagrees : Agrees settings item type)
    (hadmits : Admits ⟨false, settings.maxDepth⟩ depth false type) {e : Error}
    (hpack : packAs settings root depth type item = .error e) (rest : List Native)
    (left : List Char) (packed given : Nat) :
    ∃ stop, packMembers settings root.text depth (type.letters ++ left) packed given
      (item :: rest) = (.error e, stop) := by
  obtain ⟨c, letters, hletters, hne⟩ := exists_letters_cons hadmits.wellFormed
  obtain ⟨stop, hvalue⟩ := hagrees.exists_packValue_eq_error hadmits hpack left
  rw [hletters, List.cons_append] at hvalue ⊢
  refine ⟨stop, ?_⟩
  rw [packMembers, hvalue]
  simpa using hne

/-- Behind a member that is packed, the others are packed from the text that is left. -/
theorem packMembers_eq_ok [Codecs] {type : SigType} {item : Native}
    (hagrees : Agrees settings item type)
    (hadmits : Admits ⟨false, settings.maxDepth⟩ depth false type) {v : Variant}
    (hpack : packAs settings root depth type item = .ok v) {rest : List Native} {left : List Char}
    {packed given : Nat} {outcome : Except Error (List Variant)} {stop : List Char}
    (hrest : packMembers settings root.text depth left (packed + 1) given rest = (outcome, stop)) :
    packMembers settings root.text depth (type.letters ++ left) packed given (item :: rest) =
      (outcome.map (v :: ·), stop) := by
  obtain ⟨c, letters, hletters, hne⟩ := exists_letters_cons hadmits.wellFormed
  have hvalue := hagrees.packValue_eq_ok hadmits hpack left
  rw [hletters, List.cons_append] at hvalue ⊢
  rw [packMembers, hvalue]
  · simp only [hrest]
  · simpa using hne

/-- The members of a tuple are packed one after the other until they or the values run out. If the
values do, the rest of the members is left; if the members do, the next value is one too many. -/
theorem packMembers_agrees [Codecs] {members : List SigType} {items : List Native}
    (hmembers : ∀ member ∈ members, Admits ⟨false, settings.maxDepth⟩ depth false member)
    (hitems : ∀ item ∈ items, ∀ type, Agrees settings item type) (left : List Char)
    (packed given : Nat) :
    ∃ stop, packMembers settings root.text depth (SigType.lettersAll members ++ ')' :: left) packed
        given items =
      ((packMembersAs settings root depth members items).bind fun vs =>
        if items.length ≤ members.length then .ok vs
        else .error (.tupleSize (packed + members.length) given), stop) ∧
      ((packMembersAs settings root depth members items).isOk → items.length ≤ members.length →
        stop = SigType.lettersAll (members.drop items.length) ++ ')' :: left) := by
  -- One value after the other is consumed, and the number of packed ones grows with each.
  induction items generalizing members packed with
  | nil =>
      refine ⟨_, ?_, fun _ _ => rfl⟩
      cases members <;> simp [packMembers, packMembersAs, Except.bind]
  | cons item rest ih =>
      obtain ⟨hitem, hrest⟩ := List.forall_mem_cons.mp hitems
      cases members with
      | nil =>
          refine ⟨')' :: left, ?_, by simp⟩
          simp [packMembers, packMembersAs, Except.bind, SigType.lettersAll]
      | cons type types =>
          obtain ⟨htype, htypes⟩ := List.forall_mem_cons.mp hmembers
          rw [SigType.lettersAll, List.append_assoc, packMembersAs]
          cases hpack : packAs settings root depth type item with
          | error e =>
              obtain ⟨stop, herror⟩ := exists_packMembers_eq_error (hitem type) htype hpack rest
                (SigType.lettersAll types ++ ')' :: left) packed given
              exact ⟨stop, herror, by simp [Except.isOk, Except.toBool]⟩
          | ok v =>
              obtain ⟨stop, hothers, hstop⟩ := ih htypes hrest (packed + 1)
              refine ⟨stop, (packMembers_eq_ok (hitem type) htype hpack hothers).trans ?_, ?_⟩
              · have hcount : packed + 1 + types.length = packed + (type :: types).length := by
                  rw [List.length_cons]
                  omega
                rw [hcount]
                cases packMembersAs settings root depth types rest with
                | error e => rfl
                | ok vs =>
                    by_cases hle : rest.length ≤ types.length <;>
                      simp [Except.bind, Except.map, hle]
              · intro hok hle
                refine (hstop ?_ (by simpa using hle)).trans ?_
                · cases hothers : packMembersAs settings root depth types rest <;>
                    simp_all [Except.isOk, Except.toBool, Except.map]
                · rw [List.length_cons, List.drop_succ_cons]

/-- What is missing of a tuple are the members that its text goes on with. -/
theorem missingMembers_drop {members : List SigType} (signature : String)
    (hfits : depth + SigType.nestingBelow members ≤ settings.maxDepth)
    (hmembers : ∀ member ∈ members, member.WellFormed false) (count : Nat) (left : List Char) :
    missingMembers settings signature (depth + 1)
        (SigType.lettersAll (members.drop count) ++ ')' :: left) =
      .ok (members.length - count) := by
  have hrest := SigType.nestingBelow_drop_le members count
  have hreads : ∀ member ∈ members.drop count,
      Signature.ReadsThrough ⟨false, settings.maxDepth⟩ depth false member := fun member hmember =>
    Signature.readsThrough_of_wellFormed (hmembers member (List.mem_of_mem_drop hmember))
  have hread := Signature.readWithin_members hreads [] [] left
    (by simp only [List.length_nil]; omega)
  rw [missingMembers, show depth + 1 - 1 = depth by omega, hread, ← List.length_drop]
  rfl

theorem agrees_tuple [Codecs] {members : List SigType}
    (hlower : ∀ y type, y.height < x.height → Agrees settings y type) :
    Agrees settings x (.tuple members) := by
  intro root depth simple left hadmits
  obtain ⟨rfl, hdepth, hmembers⟩ := Signature.admits_tuple_iff.mp hadmits
  rw [SigType.letters, List.cons_append, List.append_assoc, List.singleton_append,
    packValue_tuple hdepth, packAs_tuple hadmits.fits]
  cases hitems : x.sequence? with
  | none => rfl
  | some items =>
      obtain ⟨stop, hpacked, hstop⟩ := @packMembers_agrees settings root _ _ _ items hmembers
        (fun item hitem type => hlower item type (height_lt_of_sequence? hitems item hitem)) left 0
        items.length
      dsimp only
      rw [hpacked]
      cases hall : packMembersAs settings root (depth + 1) members items with
      | error e => rfl
      | ok vs =>
          have hlength := length_of_packMembersAs hall
          by_cases hle : items.length ≤ members.length
          · obtain rfl := hstop (by rw [hall]; rfl) hle
            have hmissing := missingMembers_drop root.text hadmits.fits
              (fun member hmember => (hmembers member hmember).wellFormed) items.length left
            simp only [Except.bind, if_pos hle, hmissing]
            cases hcount : members.length - items.length with
            | zero =>
                rw [if_pos (show members.length = items.length by omega)]
                rfl
            | succ missing =>
                have htotal : vs.length + (missing + 1) = members.length := by omega
                rw [if_neg (show members.length ≠ items.length by omega), ← htotal]
                rfl
          · have hne : members.length ≠ items.length := by omega
            simp [Except.bind, if_neg hle, hne]

theorem agrees_dictEntry [Codecs] {keyType valueType : SigType}
    (hlower : ∀ y type, y.height < x.height → Agrees settings y type) :
    Agrees settings x (.dictEntry keyType valueType) := by
  intro root depth simple left hadmits
  obtain ⟨rfl, hkeyAdmits, hvalueAdmits⟩ := Signature.admits_dictEntry_iff.mp hadmits
  rw [SigType.letters, List.cons_append, packValue_dictEntry hadmits.depth_le,
    packAs_dictEntry hadmits.fits, List.append_assoc, List.append_assoc, List.singleton_append]
  cases hitems : x.sequence? with
  | none => rfl
  | some items =>
      have hheight := height_lt_of_sequence? hitems
      -- Only two values make an entry. The key is packed first, so its error is found first.
      rcases items with _ | ⟨keyItem, _ | ⟨valueItem, _ | ⟨third, others⟩⟩⟩
      · rfl
      · rfl
      · have hkeyAgrees := hlower keyItem keyType (hheight keyItem (by simp))
        have hvalueAgrees := hlower valueItem valueType (hheight valueItem (by simp))
        dsimp only
        cases hkey : packAs settings root (depth + 1) keyType keyItem with
        | error e =>
            obtain ⟨stop, hkeyPacked⟩ := hkeyAgrees.exists_packValue_eq_error hkeyAdmits hkey
              (valueType.letters ++ '}' :: left)
            rw [hkeyPacked]
        | ok key =>
            rw [hkeyAgrees.packValue_eq_ok hkeyAdmits hkey]
            cases hvalue : packAs settings root (depth + 1) valueType valueItem with
            | error e =>
                obtain ⟨stop, hvaluePacked⟩ :=
                  hvalueAgrees.exists_packValue_eq_error hvalueAdmits hvalue ('}' :: left)
                simp only [hvaluePacked]
                rfl
            | ok value =>
                simp only [hvalueAgrees.packValue_eq_ok hvalueAdmits hvalue]
                rfl
      · rfl

/-! ## Whole signatures -/

/-- Any value is packed against any type as it is against the text of the type. The induction is on
the value, and for the same value on the way to a box. -/
theorem agrees [Codecs] (settings : Settings) (x : Native) (type : SigType) :
    Agrees settings x type := by
  refine packing_induction (P := fun x text => ∀ type : SigType, type.letters = text →
    Agrees settings x type) ?_ x type.letters type rfl
  rintro x _ hlower hmaybe hbox type rfl
  have hlower : ∀ y type, y.height < x.height → Agrees settings y type :=
    fun y type hheight => hlower y _ hheight type rfl
  cases type with
  | basic code => exact agrees_basic
  | variant =>
      exact agrees_variant (fun implied htype => hbox [] implied rfl htype implied rfl)
  | maybe element => exact agrees_maybe (hmaybe element.letters rfl element rfl)
  | array element => exact agrees_array hlower
  | tuple members => exact agrees_tuple hlower
  | dictEntry keyType valueType => exact agrees_dictEntry hlower
  | wildcard kind =>
      intro _ _ _ _ hadmits
      cases hadmits.wellFormed with
      | wildcard hallowed => simp at hallowed
  | unlisted | unlistedWildcard =>
      intro _ _ _ _ hadmits
      cases hadmits.wellFormed

/-- Against a type, values are packed that have a derivation at it, and as what they are derived. -/
theorem packAs_eq_ok_iff [Codecs] {type : SigType} {v : Variant}
    (hadmits : Admits ⟨false, settings.maxDepth⟩ depth simple type) :
    packAs settings root depth type x = .ok v ↔ Packs settings depth type x v := by
  constructor
  · exact (agrees settings x type).packs hadmits
  · intro hpacks
    have hvalue := packsThrough_of_packs hpacks simple hadmits root.text []
    rw [← agrees settings x type root depth simple [] hadmits, hvalue]

end TypedVariant.Pack

namespace TypedVariant

/-- Against a text that is read as a type, a value is packed as it is against the type. -/
theorem packText_eq_packAs [Codecs] {settings : Settings} {signature : String} {type : SigType}
    (hparse : Signature.parse settings.maxDepth signature = .ok type) (x : Native) :
    packText settings signature x = Pack.packAs settings type 0 type x := by
  obtain ⟨hadmits, htext⟩ := Signature.parse_eq_ok_iff.mp hparse
  have hempty := Signature.isEmpty_of_toList_eq hadmits.wellFormed htext
  have hagrees := Pack.agrees settings x type
  have hroot := Signature.text_eq_of_toList_eq htext
  rw [packText, hempty, htext, ← hroot]
  cases hpack : Pack.packAs settings type 0 type x with
  | ok v =>
      have hvalue := hagrees.packValue_eq_ok hadmits hpack []
      rw [List.append_nil] at hvalue
      rw [hvalue]
      rfl
  | error e =>
      obtain ⟨stop, hvalue⟩ := hagrees.exists_packValue_eq_error hadmits hpack []
      rw [List.append_nil] at hvalue
      rw [hvalue]
      rfl

theorem pack_text [Codecs] {settings : Settings} {type : SigType} {x : Native}
    (hwf : type.WellFormed false)
    (hnesting : (type.nesting : Int) ≤ settings.maxDepth) :
    pack settings (.text type.text) x = Pack.packAs settings type 0 type x :=
  packText_eq_packAs (Signature.parse_text hwf hnesting) x

/-- Packing a value against a signature that is accepted within the limit is packing it by recursion
on the type of the signature: it ends in the same variant or in the same error. -/
theorem packing_follows_type [Codecs] {settings : Settings} {signature : String} {type : SigType}
    (hparse : Signature.parse settings.maxDepth signature = .ok type) (x : Native) :
    pack settings (.text signature) x = Pack.packAs settings type 0 type x :=
  packText_eq_packAs hparse x

section

open scoped Standard

/-- A tuple that lacks its last value is refused for its size, once the values before are packed. -/
theorem packing_follows_type_short_tuple :
    Signature.parse ({} : Settings).maxDepth "(is)" =
        .ok (.tuple [.basic (.integer .int32), .basic (.text .string)]) ∧
      pack {} (.text "(is)") (.list [.int 1]) = .error (.tupleSize 2 1) := by
  have hparse : Signature.parse ({} : Settings).maxDepth "(is)" =
      .ok (.tuple [.basic (.integer .int32), .basic (.text .string)]) := by rfl
  refine ⟨hparse, (packing_follows_type hparse (.list [.int 1])).trans ?_⟩
  rw [Pack.packAs_tuple (by decide), Native.sequence?]
  simp only [Pack.packMembersAs]
  rw [Pack.packAs_basic (by decide)]
  rfl

end

end TypedVariant
