import TypedVariant.Pack.Value
import TypedVariant.Proofs.Pack.Step
import TypedVariant.Proofs.Signature.RaisedLimit

/-!
# Packing under a raised limit

Packing passes the limit on to everything that it packs or reads in turn, and each of
these either is cut short or ends as it would under a greater limit. The errors that
packing tells of quote the limit only where it is exceeded.
-/

namespace TypedVariant.Pack

variable {settings : Settings} {limit depth : Int} {signature : String} {rest : List Char}
  {x : Native}

/-- Wherever a value lies, packing it against a text ends under a raised limit as it does under the
limit of the settings, unless that cuts it short. -/
def Lasts [Codecs] (settings : Settings) (limit : Int) (x : Native) (text : List Char) : Prop :=
  ∀ signature depth simple, ExtendsWithRest Error.IsDepthLimit
    (packValue settings signature depth simple text x)
    (packValue { settings with maxDepth := limit } signature depth simple text x)

/-! ## What is read on the way -/

theorem readElement_raised (hlimit : settings.maxDepth ≤ limit) (depth : Int) (text : List Char) :
    ExtendsWithRest (· = .tooDeep) (Signature.readOne ⟨false, settings.maxDepth⟩ depth false text)
      (Signature.readOne ⟨false, limit⟩ depth false text) :=
  @Signature.readOne_raised ⟨false, settings.maxDepth⟩ depth limit false hlimit text

/-- A refusal is told alike under both limits, or is that of the depth. -/
theorem refusal_raised (maxDepth limit : Int) (signature : String) (refusal : Signature.Refusal)
    (left : List Char) :
    ExtendsWithRest Error.IsDepthLimit
      ((.error (refusal.error maxDepth signature), left) : Outcome)
      (.error (refusal.error limit signature), left) := by
  cases refusal with
  | fault => exact .refl _
  | tooDeep => exact .cutShort rfl

theorem missingMembers_raised (hlimit : settings.maxDepth ≤ limit) (signature : String)
    (depth : Int) (text : List Char) :
    Extends Error.IsDepthLimit (missingMembers settings signature depth text)
      (missingMembers { settings with maxDepth := limit } signature depth text) := by
  rcases @Signature.readWithin_raised ⟨false, settings.maxDepth⟩ (depth - 1) limit false hlimit
    (.type [.tuple []]) text with ⟨e, left, rfl, he⟩ | hsame
  · rw [missingMembers, he]
    exact .cutShort rfl
  · rw [missingMembers, missingMembers, hsame]
    split
    next => exact .refl _
    next => exact .refl _
    next refusal _ =>
      cases refusal with
      | fault => exact .refl _
      | tooDeep => exact .cutShort rfl

/-! ## One step -/

theorem packValue_box_raised [Codecs] (hlimit : settings.maxDepth ≤ limit)
    (hfits : depth ≤ settings.maxDepth)
    (hboxed : ∀ type, x.intrinsicType? = some type → Lasts settings limit x type.letters) :
    ExtendsWithRest Error.IsDepthLimit (packValue settings signature depth false ('v' :: rest) x)
      (packValue { settings with maxDepth := limit } signature depth false ('v' :: rest) x) := by
  rw [packValue_box hfits, packValue_box (Int.le_trans hfits hlimit)]
  split
  next => exact .refl _
  next => exact .refl _
  next type _ htype =>
    rcases (hboxed type htype type.text (depth + 1) false).fst with ⟨e, hcut, he⟩ | hsame
    · rw [he]
      exact .cutShort hcut
    · rw [hsame]
      exact .refl _

theorem packValue_maybe_raised [Codecs] (hlimit : settings.maxDepth ≤ limit)
    (hfits : depth ≤ settings.maxDepth) (hpresent : Lasts settings limit x rest) :
    ExtendsWithRest Error.IsDepthLimit (packValue settings signature depth false ('m' :: rest) x)
      (packValue { settings with maxDepth := limit } signature depth false ('m' :: rest) x) := by
  rw [packValue_maybe hfits, packValue_maybe (Int.le_trans hfits hlimit)]
  split
  next =>
    rcases readElement_raised hlimit (depth + 1) rest with ⟨e, left, rfl, he⟩ | hsame
    · rw [he]
      exact .cutShort rfl
    · rw [hsame]
      split
      next refusal left _ => exact refusal_raised _ _ _ _ _
      next => exact .refl _
      next => exact .refl _
  next => exact (hpresent signature (depth + 1) false).map

theorem packValue_array_raised [Codecs] (hlimit : settings.maxDepth ≤ limit)
    (hfits : depth ≤ settings.maxDepth)
    (hlower : ∀ y text, y.height < x.height → Lasts settings limit y text) :
    ExtendsWithRest Error.IsDepthLimit (packValue settings signature depth false ('a' :: rest) x)
      (packValue { settings with maxDepth := limit } signature depth false ('a' :: rest) x) := by
  rw [packValue_array hfits, packValue_array (Int.le_trans hfits hlimit)]
  rcases readElement_raised hlimit (depth + 1) rest with ⟨e, left, rfl, he⟩ | hsame
  · rw [he]
    exact .cutShort rfl
  · rw [hsame]
    split
    next refusal left _ => exact refusal_raised _ _ _ _ _
    next element left _ =>
      -- Strings and bytes are made without a look at the limit.
      have hflat : packFlat? { settings with maxDepth := limit } element x =
          packFlat? settings element x := rfl
      rw [hflat]
      apply ExtendsWithRest.of_fst
      split
      next => exact .refl _
      next =>
        refine (Extends.refl (elementsOf element x)).bind (fun items hitems => ?_)
        refine Extends.bind ?_ (fun vs _ => .refl _)
        rw [packEach_eq_mapM, packEach_eq_mapM]
        refine Extends.mapM (fun item hitem => ?_)
        exact (hlower item _ (height_lt_of_elementsOf hitems item hitem) _ _ _).fst

/-- Members are packed until one of them is cut short. -/
theorem packMembers_raised [Codecs] {items : List Native}
    (hitems : ∀ item ∈ items, ∀ text, Lasts settings limit item text) (text : List Char)
    (packed given : Nat) :
    ExtendsWithRest Error.IsDepthLimit
      (packMembers settings signature depth text packed given items)
      (packMembers { settings with maxDepth := limit } signature depth text packed given items) := by
  induction items generalizing text packed with
  | nil =>
      rw [packMembers, packMembers]
      exact .refl _
  | cons item others ih =>
      obtain ⟨hitem, hothers⟩ := List.forall_mem_cons.mp hitems
      rw [packMembers.eq_def, packMembers.eq_def]
      dsimp only
      split
      next => exact .refl _
      next => exact .refl _
      next c left _ =>
        rcases hitem (c :: left) signature depth false with ⟨e, stop, hcut, he⟩ | hsame
        · rw [he]
          exact .cutShort hcut
        · rw [hsame]
          split
          next => exact .refl _
          next => exact (ih hothers _ _).map

theorem packValue_tuple_raised [Codecs] (hlimit : settings.maxDepth ≤ limit)
    (hfits : depth ≤ settings.maxDepth)
    (hlower : ∀ y text, y.height < x.height → Lasts settings limit y text) :
    ExtendsWithRest Error.IsDepthLimit (packValue settings signature depth false ('(' :: rest) x)
      (packValue { settings with maxDepth := limit } signature depth false ('(' :: rest) x) := by
  rw [packValue_tuple hfits, packValue_tuple (Int.le_trans hfits hlimit)]
  split
  next => exact .refl _
  next items hitems =>
    have hmembers := fun item hitem text =>
      hlower item text (height_lt_of_sequence? hitems item hitem)
    rcases @packMembers_raised settings limit (depth + 1) signature _ items hmembers rest 0
      items.length with ⟨e, left, hcut, he⟩ | hsame
    · rw [he]
      exact .cutShort hcut
    · rw [hsame]
      split
      next => exact .refl _
      next members left _ =>
        rcases missingMembers_raised hlimit signature (depth + 1) left with ⟨e, hcut, he⟩ | hsame
        · rw [he]
          exact .cutShort hcut
        · rw [hsame]
          exact .refl _

theorem packValue_dictEntry_raised [Codecs] (hlimit : settings.maxDepth ≤ limit)
    (hfits : depth ≤ settings.maxDepth)
    (hlower : ∀ y text, y.height < x.height → Lasts settings limit y text) :
    ExtendsWithRest Error.IsDepthLimit (packValue settings signature depth false ('{' :: rest) x)
      (packValue { settings with maxDepth := limit } signature depth false ('{' :: rest) x) := by
  rw [packValue_dictEntry hfits, packValue_dictEntry (Int.le_trans hfits hlimit)]
  split
  next => exact .refl _
  next keyItem valueItem hitems =>
    have hlasts (item : Native) (hitem : item ∈ [keyItem, valueItem]) (text : List Char) :
        Lasts settings limit item text :=
      hlower item text (height_lt_of_sequence? hitems item hitem)
    rcases hlasts keyItem (by simp) rest signature (depth + 1) true with
      ⟨e, left, hcut, he⟩ | hsame
    · rw [he]
      exact .cutShort hcut
    · rw [hsame]
      split
      next => exact .refl _
      next key left _ =>
        rcases hlasts valueItem (by simp) left signature (depth + 1) false with
          ⟨e, left, hcut, he⟩ | hsame
        · rw [he]
          exact .cutShort hcut
        · rw [hsame]
          exact .refl _
  next => exact .refl _

/-! ## Every step -/

/-- Packing lasts, whatever the value and the text. -/
theorem packValue_raised [Codecs] (hlimit : settings.maxDepth ≤ limit) (x : Native)
    (text : List Char) :
    Lasts settings limit x text := by
  induction x, text using packing_induction with
  | step x text hlower hmaybe hbox =>
      intro signature depth simple
      rcases packValue_cases settings signature depth simple text x with
        hdeep | ⟨hfits, ⟨e, stop, -, hrefused⟩ | ⟨code, rest, rfl⟩ |
          ⟨rfl, c, rest, rfl, hbegins⟩⟩
      · rw [packValue_tooDeep hdeep]
        exact .cutShort rfl
      · rw [hrefused _ hfits, hrefused _ (Int.le_trans hfits hlimit)]
        exact .refl _
      · rw [packValue_basic hfits, packValue_basic (Int.le_trans hfits hlimit)]
        exact .refl _
      · rcases hbegins with rfl | rfl | rfl | rfl | rfl
        · exact packValue_box_raised hlimit hfits (fun type => hbox rest type rfl)
        · exact packValue_maybe_raised hlimit hfits (hmaybe rest rfl)
        · exact packValue_array_raised hlimit hfits hlower
        · exact packValue_tuple_raised hlimit hfits hlower
        · exact packValue_dictEntry_raised hlimit hfits hlower

theorem packText_raised [Codecs] (hlimit : settings.maxDepth ≤ limit) (signature : String)
    (x : Native) :
    Extends Error.IsDepthLimit (packText settings signature x)
      (packText { settings with maxDepth := limit } signature x) := by
  rw [packText, packText]
  split
  next => exact .refl _
  next =>
    rcases packValue_raised hlimit x signature.toList signature 0 false with
      ⟨e, left, hcut, he⟩ | hsame
    · rw [he]
      exact .cutShort hcut
    · rw [hsame]
      exact .refl _

theorem pack_raised [Codecs] (hlimit : settings.maxDepth ≤ limit) (signature x : Native) :
    Extends Error.IsDepthLimit (pack settings signature x)
      (pack { settings with maxDepth := limit } signature x) :=
  (Extends.refl _).bind (fun text _ => packText_raised hlimit text x)

end TypedVariant.Pack
