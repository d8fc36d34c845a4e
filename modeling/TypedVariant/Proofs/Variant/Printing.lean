import TypedVariant.Error
import TypedVariant.Proofs.Variant.Forms

/-!
# Printed forms tell variants apart

Two variants are told apart by their printed forms if these are of one type, or if the
forms are annotated and tell their types as well. Annotations stand only before the first
element of an array, so both are shown together: what is printed with annotations tells
the type, and the other elements are of the type of the first. Plain text leaves out the
types of boxes' contents and the bits of doubles, but nothing else: no two variants of a
type without boxes and doubles are printed alike.
-/

namespace TypedVariant

namespace SigType

/-- Neither boxes nor doubles occur in the spelling of a type. -/
def IsTransparent (type : SigType) : Prop :=
  'v' ∉ type.letters ∧ 'd' ∉ type.letters

theorem isTransparent_maybe_iff {element : SigType} :
    (maybe element).IsTransparent ↔ element.IsTransparent := by
  simp [IsTransparent, letters]

theorem isTransparent_array_iff {element : SigType} :
    (array element).IsTransparent ↔ element.IsTransparent := by
  simp [IsTransparent, letters]

theorem isTransparent_tuple_iff {members : List SigType} :
    (tuple members).IsTransparent ↔ ∀ member ∈ members, member.IsTransparent := by
  simp [IsTransparent, letters, lettersAll_eq_flatMap, forall_and]

theorem isTransparent_dictEntry_iff {key value : SigType} :
    (dictEntry key value).IsTransparent ↔ key.IsTransparent ∧ value.IsTransparent := by
  simp [IsTransparent, letters]
  tauto

end SigType

namespace Variant

open Text

variable {annotate behindWord : Bool} {a b v : Variant} {type other element : SigType}
  {u w : List Char}

/-! ## Comparing two printed forms -/

/-- Two variants whose printed forms tell all of them, and also their types where these may not be
the same. Behind the word for a maybe they are maybes. -/
structure Comparable (annotate behindWord : Bool) (a : Variant) (type : SigType) (b : Variant)
    (other : SigType) : Prop where
  left : HasType a type
  right : HasType b other
  same : annotate = false → type = other
  maybes : behindWord = true →
    (∃ element, type = .maybe element) ∧ ∃ element, other = .maybe element
  tellsLeft : a.Tells annotate behindWord
  tellsRight : b.Tells annotate behindWord

namespace Comparable

theorem symm (hc : Comparable annotate behindWord a type b other) :
    Comparable annotate behindWord b other a type :=
  ⟨hc.right, hc.left, fun hplain => (hc.same hplain).symm, fun hword => (hc.maybes hword).symm,
    hc.tellsRight, hc.tellsLeft⟩

/-- Variants that are printed alike are printed in one form. -/
theorem hasForm (hc : Comparable annotate behindWord a type b other) {form : Form}
    (hform : HasForm a type form) (h : a.print annotate ++ u = b.print annotate ++ w) :
    HasForm b other form := by
  obtain ⟨found, hfound⟩ := exists_hasForm hc.right
  -- Annotated text tells its form by itself or behind a word, plain text only to whoever knows the
  -- type.
  have hsame : form = found := by
    cases annotate with
    | true =>
        cases behindWord with
        | false => rw [← formOf_print hform hc.tellsLeft u, h, formOf_print hfound hc.tellsRight w]
        | true =>
            obtain ⟨⟨_, rfl⟩, _, rfl⟩ := hc.maybes rfl
            rw [← formOfMaybe_print hform hc.tellsLeft u, h,
              formOfMaybe_print hfound hc.tellsRight w]
    | false =>
        rw [← formOfType_print hform hc.tellsLeft.noDouble u, h, hc.same rfl,
          formOfType_print hfound hc.tellsRight.noDouble w]
  rwa [hsame]

end Comparable

/-- Two variants are told apart as parts of a text, and entries also as those of a dictionary, where
a colon stands in place of the comma. -/
structure ToldApart (annotate : Bool) (a b : Variant) : Prop where
  alone : Splits (print annotate) a b
  inDictionary : ∀ pair other, a = ofPair pair → b = ofPair other →
    Splits (printPair annotate) pair other

theorem ToldApart.of_splits (hentry : ∀ pair, a ≠ ofPair pair)
    (hsplits : Splits (print annotate) a b) : ToldApart annotate a b :=
  ⟨hsplits, fun pair _ ha => absurd ha (hentry pair)⟩

/-- A variant is told apart from all that it can be compared with. -/
def StandsOut (v : Variant) (type : SigType) : Prop :=
  ∀ annotate behindWord other otherType, Comparable annotate behindWord v type other otherType →
    ToldApart annotate v other

/-! ## Values without parts -/

theorem splits_literal {code : BasicCode}
    (hc : Comparable annotate behindWord a (.basic code) b other) :
    Splits (print annotate) a b := by
  intro u w hu hw h
  have ha := hc.left
  have hdouble := hc.tellsLeft.noDouble
  cases hc.hasForm (.literal ha) h with
  | literal hb =>
      cases ha with
      | boolean value =>
          cases hb with
          | boolean other => cases value <;> cases other <;> simp_all [print]
      | integer hholds =>
          cases hb with
          | integer hother =>
              rw [print, print] at h
              obtain ⟨rfl, rfl⟩ := splits_integerLiteral hholds hother u w hu hw
                (annotated_append_cancel h)
              exact ⟨rfl, rfl⟩
      | double value => exact absurd (.itself _) (hdouble value)
      | text =>
          cases hb with
          | text =>
              rw [print, print] at h
              obtain ⟨hvalue, rfl⟩ := Text.Quoted.encode_append_inj (annotated_append_cancel h)
              rw [String.toList_inj.mp hvalue]
              exact ⟨rfl, rfl⟩

theorem standsOut_basic {code : BasicCode} (hv : HasType v (.basic code)) :
    StandsOut v (.basic code) := by
  intro annotate behindWord other otherType hc
  refine .of_splits ?_ (splits_literal hc)
  rintro pair rfl
  cases hv

/-- There is one blank variant of a type. -/
theorem eq_of_blank (ha : HasForm a type .blank) (hb : HasForm b type .blank) : a = b := by
  cases ha with
  | nothing => cases hb with
    | nothing => rfl
  | noBytes => cases hb with
    | noBytes => rfl
    | noItems _ hbyte => exact absurd rfl hbyte
  | noItems _ hbyte => cases hb with
    | noBytes => exact absurd rfl hbyte
    | noItems => rfl

/-- A blank variant is told by its type. -/
theorem splits_blank (hc : Comparable annotate behindWord a type b other)
    (ha : HasForm a type .blank) :
    Splits (print annotate) a b := by
  intro u w _ _ h
  have hb := hc.hasForm ha h
  have htype : type = other ∧ u = w := by
    rw [print_blank ha, print_blank hb] at h
    cases annotate with
    | false =>
        obtain rfl := hc.same rfl
        exact ⟨rfl, List.append_cancel_left h⟩
    | true =>
        simp only [typed, if_true, List.cons_append, List.append_assoc, List.cons.injEq,
          true_and] at h
        obtain ⟨rfl, hliteral⟩ :=
          SigType.letters_append_inj hc.left.wellFormed hc.right.wellFormed h
        exact ⟨rfl, by simpa using hliteral⟩
  obtain ⟨rfl, rfl⟩ := htype
  exact ⟨eq_of_blank ha hb, rfl⟩

/-! ## Boxes and maybes -/

theorem standsOut_box {content : Variant} (hcontent : HasType content type)
    (hout : StandsOut content type) : StandsOut (.box content) .variant := by
  intro annotate behindWord b other hc
  refine .of_splits (by simp [ofPair]) ?_
  intro u w _ _ h
  cases hc.hasForm (.box hcontent) h with
  | box hother =>
      have hcontents := hout true false _ _
        ⟨hcontent, hother, by simp, by simp, hc.tellsLeft.box, hc.tellsRight.box⟩
      simp only [print, List.cons_append, List.append_assoc, List.cons.injEq, true_and] at h
      obtain ⟨rfl, hrest⟩ := hcontents.alone _ _ (ends_cons (by decide)) (ends_cons (by decide)) h
      exact ⟨rfl, (List.cons_eq_cons.mp hrest).2⟩

theorem standsOut_nothing (helement : element.WellFormed false) :
    StandsOut (.nothing element.text) (.maybe element) :=
  fun _ _ _ _ hc => .of_splits (by simp [ofPair]) (splits_blank hc (.nothing helement))

theorem exists_element_of_tag? (hv : HasType v type) (htag : v.tag? = some 'm') :
    ∃ element, type = .maybe element := by
  rw [tag?_eq hv] at htag
  cases hv with
  | nothing | just => exact ⟨_, rfl⟩
  | @integer code _ _ => cases code <;> cases htag
  | @text code _ _ => cases code <;> cases htag
  | _ => cases htag

/-- What is no maybe is not printed like one with the word before it. -/
theorem print_ne_just (hv : HasType v type) (htells : v.Tells true false)
    (htag : v.tag? ≠ some 'm') : v.print true ++ u ≠ "just ".toList ++ w := by
  intro h
  obtain ⟨form, hform⟩ := exists_hasForm hv
  have hjust : formOf (v.print true ++ u) = .just := by
    rw [h]
    rfl
  obtain rfl : form = .just := (formOf_print hform htells u).symm.trans hjust
  cases hform
  exact htag rfl

/-- The word in front is there for both of two maybes or for neither. -/
theorem tag?_of_print_eq {content found : Variant}
    (hc : Comparable annotate behindWord (.just content) (.maybe element) (.just found)
      (.maybe other)) (hcontent : HasType content element) (hfound : HasType found other)
    (h : (just content).print annotate ++ u = (just found).print annotate ++ w)
    (htag : found.tag? = some 'm') : content.tag? = some 'm' := by
  cases annotate with
  | false =>
      rw [tag?_eq hcontent, SigType.maybe.inj (hc.same rfl), ← tag?_eq hfound]
      exact htag
  | true =>
      by_contra hplain
      have htells := hc.tellsLeft.just.2
      rw [beq_eq_false_iff_ne.mpr hplain] at htells
      rw [print, print, if_neg hplain, if_pos htag, List.append_assoc] at h
      exact print_ne_just hcontent htells hplain h

theorem standsOut_just {content : Variant} (hcontent : HasType content element)
    (hout : StandsOut content element) : StandsOut (.just content) (.maybe element) := by
  intro annotate behindWord b other hc
  refine .of_splits (by simp [ofPair]) ?_
  intro u w hu hw h
  cases hc.hasForm (.just hcontent) h with
  | @just found otherElement hother =>
      have hsame : annotate = false → element = otherElement :=
        fun hplain => SigType.maybe.inj (hc.same hplain)
      have htells := hc.tellsLeft.just.2
      have hotherTells := hc.tellsRight.just.2
      have htag : content.tag? = some 'm' ↔ found.tag? = some 'm' :=
        ⟨tag?_of_print_eq hc.symm hother hcontent h.symm, tag?_of_print_eq hc hcontent hother h⟩
      rw [print, print] at h
      by_cases hmaybe : content.tag? = some 'm'
      · have hotherMaybe := htag.mp hmaybe
        rw [if_pos hmaybe, if_pos hotherMaybe, List.append_assoc, List.append_assoc] at h
        rw [beq_iff_eq.mpr hmaybe] at htells
        rw [beq_iff_eq.mpr hotherMaybe] at hotherTells
        have hmaybes : (∃ inner, element = .maybe inner) ∧ ∃ inner, otherElement = .maybe inner :=
          ⟨exists_element_of_tag? hcontent hmaybe, exists_element_of_tag? hother hotherMaybe⟩
        have hcontents := (hout annotate true _ _
          ⟨hcontent, hother, hsame, fun _ => hmaybes, htells, hotherTells⟩).alone
        obtain ⟨rfl, rfl⟩ := hcontents u w hu hw (List.append_cancel_left h)
        exact ⟨rfl, rfl⟩
      · have hotherPlain := mt htag.mpr hmaybe
        rw [if_neg hmaybe, if_neg hotherPlain] at h
        rw [beq_eq_false_iff_ne.mpr hmaybe] at htells
        rw [beq_eq_false_iff_ne.mpr hotherPlain] at hotherTells
        have hcontents := (hout annotate false _ _
          ⟨hcontent, hother, hsame, by simp, htells, hotherTells⟩).alone
        obtain ⟨rfl, rfl⟩ := hcontents u w hu hw h
        exact ⟨rfl, rfl⟩

/-! ## Arrays -/

/-- A list that begins with a byte is a list of bytes, and no other array is written like one. -/
theorem print_list_ne_bytes {item : Variant} {rest : List Variant} {c : UInt8} {others : List UInt8}
    (hc : Comparable annotate behindWord (.array element.text (item :: rest)) (.array element)
      (.bytes (c :: others)) (.array (.basic (.integer .byte))))
    (helement : element.WellFormed false) (hbyte : element ≠ .basic (.integer .byte))
    (hentry : ¬element.IsEntry) (hitem : HasType item element)
    (hplain : isPrintableBlob (c :: others) = false) :
    (array element.text (item :: rest)).print annotate ++ u ≠
      (bytes (c :: others)).print annotate ++ w := by
  intro h
  cases annotate with
  | false => exact hbyte (SigType.array.inj (hc.same rfl))
  | true =>
      obtain ⟨form, hform⟩ := exists_hasForm hitem
      rw [print_list helement hentry (by simp), print, printBlob_cons hplain, listed] at h
      have hfirst := formOf_print hform hc.tellsLeft.first
        (behindFirst (print false) rest ++ ([']'] ++ u))
      simp only [List.cons_append, List.append_assoc] at h hfirst
      rw [List.tail_eq_of_cons_eq h] at hfirst
      obtain rfl : Form.literal (.integer .byte) = form := hfirst
      cases hform with
      | literal => exact hbyte rfl

theorem standsOut_bytes (blob : List UInt8) :
    StandsOut (.bytes blob) (.array (.basic (.integer .byte))) := by
  intro annotate behindWord b other hc
  refine .of_splits (by simp [ofPair]) ?_
  obtain ⟨form, hform⟩ := exists_hasForm (.bytes blob)
  cases hform with
  | noBytes => exact splits_blank hc .noBytes
  | quotedBlob hprintable =>
      intro u w hu hw h
      cases hc.hasForm (.quotedBlob hprintable) h with
      | quotedBlob hother =>
          rw [print, print] at h
          obtain ⟨rfl, rfl⟩ := splits_printBlob_text hprintable hother u w hu hw h
          exact ⟨rfl, rfl⟩
  | byteList hplain =>
      intro u w hu hw h
      cases hc.hasForm (.byteList hplain) h with
      | byteList hother =>
          rw [print, print] at h
          obtain ⟨hsame, rfl⟩ := splits_printBlob_list hplain hother u w hu hw h
          exact ⟨by rw [hsame], rfl⟩
      | list helement hbyte hentry hitems =>
          exact absurd h.symm (print_list_ne_bytes hc.symm helement hbyte hentry
            (hitems _ List.mem_cons_self) hplain)

section Elements

variable {α : Type} {e : α → Variant} {f : Bool → α → List Char} {x y : α} {xs ys : List α}

/-- The elements of two arrays are told apart one by one: the first ones by themselves, and the
others as values of the type that the first ones have. -/
theorem splitFromFirst_elements
    (hf : ∀ annotate x y, ToldApart annotate (e x) (e y) → Splits (f annotate) x y)
    (hc : Comparable annotate behindWord (.array element.text ((x :: xs).map e)) (.array element)
      (.array other.text ((y :: ys).map e)) (.array other))
    (hxs : ∀ i ∈ x :: xs, HasType (e i) element)
    (hys : ∀ j ∈ y :: ys, HasType (e j) other)
    (hout : ∀ i ∈ x :: xs, StandsOut (e i) element) :
    (x = y → element = other) ∧ SplitFromFirst (f annotate) (f false) (x :: xs) (y :: ys) := by
  obtain ⟨hx, hxs⟩ := List.forall_mem_cons.mp hxs
  obtain ⟨hy, hys⟩ := List.forall_mem_cons.mp hys
  obtain ⟨houtFirst, houtRest⟩ := List.forall_mem_cons.mp hout
  have htype : x = y → element = other := by
    rintro rfl
    exact hx.unique hy
  -- The first elements are compared as they are printed, the others at the type of the first.
  refine ⟨htype, hf _ _ _ (houtFirst annotate false _ other ⟨hx, hy,
    fun hplain => SigType.array.inj (hc.same hplain), by simp, hc.tellsLeft.first,
    hc.tellsRight.first⟩), ?_⟩
  intro hsame
  refine splitInStep_of_forall (fun i hi j hj => hf _ _ _ (houtRest i hi false false _ other ?_))
  exact ⟨hxs i hi, hys j hj, fun _ => htype hsame, by simp,
    hc.tellsLeft.behindFirst _ (List.mem_map_of_mem hi),
    hc.tellsRight.behindFirst _ (List.mem_map_of_mem hj)⟩

end Elements

theorem standsOut_list {item : Variant} {rest : List Variant} (helement : element.WellFormed false)
    (hbyte : element ≠ .basic (.integer .byte)) (hentry : ¬element.IsEntry)
    (hitems : ∀ other ∈ item :: rest, HasType other element)
    (hout : ∀ other ∈ item :: rest, StandsOut other element) :
    StandsOut (.array element.text (item :: rest)) (.array element) := by
  intro annotate behindWord b other hc
  refine .of_splits (by simp [ofPair]) ?_
  intro u w _ _ h
  cases hc.hasForm (.list helement hbyte hentry hitems) h with
  | byteList hplain =>
      exact absurd h (print_list_ne_bytes hc helement hbyte hentry
        (hitems _ List.mem_cons_self) hplain)
  | @list _ found others hotherElement _ hotherEntry hothers =>
      obtain ⟨htype, hstep⟩ := splitFromFirst_elements (e := id) (f := print)
        (fun _ _ _ hapart => hapart.alone) (by simpa using hc) hitems hothers hout
      rw [print_list helement hentry (by simp), print_list hotherElement hotherEntry (by simp)] at h
      have hbegins {list : List Variant} {text : String} {type : SigType}
          (hlist : ∀ v ∈ list, HasType v type)
          (htells : (array text list).Tells annotate behindWord) :
          ∀ v ∈ list, BeginsBesides ']' (v.print annotate) :=
        fun v hv => beginsBesides_print (by decide) (hlist v hv) (htells.noDouble.child rfl hv)
      obtain ⟨hsame, rfl⟩ := listed_append_inj (by decide) (by decide) hstep
        (hbegins hitems hc.tellsLeft) (hbegins hothers hc.tellsRight) (by simpa using h)
      obtain ⟨hfirst, hrest⟩ := List.cons_eq_cons.mp hsame
      rw [htype hfirst, hsame]
      exact ⟨rfl, rfl⟩

/-! ## Entries -/

/-- Parts that are joined by a mark and a space are told apart one after the other. -/
theorem splits_joined {mark : Char} (hmark : mark ∈ closingMarks) {a b c d : Variant}
    (hfirst : Splits (print annotate) a b) (hsecond : Splits (print annotate) c d)
    (hu : Ends u) (hw : Ends w)
    (h : a.print annotate ++ mark :: ' ' :: (c.print annotate ++ u) =
      b.print annotate ++ mark :: ' ' :: (d.print annotate ++ w)) : a = b ∧ c = d ∧ u = w := by
  obtain ⟨rfl, hrest⟩ := hfirst _ _ (ends_cons hmark) (ends_cons hmark) h
  simp only [List.cons.injEq, true_and] at hrest
  obtain ⟨rfl, rfl⟩ := hsecond u w hu hw hrest
  exact ⟨rfl, rfl, rfl⟩

/-- Behind the first key stands a colon in a dictionary, and a comma in an entry on its own. -/
theorem print_dictionary_ne_entry {pair : Variant × Variant} {rest : List (Variant × Variant)}
    {key value : Variant} {code : BasicCode}
    (hc : Comparable annotate behindWord (.array element.text ((pair :: rest).map ofPair))
      (.array element)
      (.entry key value) (.dictEntry (.basic code) type))
    (helement : element.WellFormed false) (hentry : element.IsEntry)
    (hpair : HasType (ofPair pair) element) (hkey : HasType key (.basic code)) :
    (array element.text ((pair :: rest).map ofPair)).print annotate ++ u ≠
      (entry key value).print annotate ++ w := by
  intro h
  cases annotate with
  | false => cases hc.same rfl
  | true =>
      cases hpair with
      | entry hfirst _ =>
          have hkeys := splits_literal ⟨hfirst, hkey, by simp, by simp,
            hc.tellsLeft.first.entry.1, hc.tellsRight.entry.1⟩
          rw [print_dictionary helement hentry (by simp), print, listed, printPair] at h
          simp only [List.cons_append, List.append_assoc, List.cons.injEq, true_and] at h
          obtain ⟨-, hrest⟩ := hkeys _ _ (ends_cons (by decide)) (ends_cons (by decide)) h
          simp at hrest

theorem standsOut_dictionary {pair : Variant × Variant} {rest : List (Variant × Variant)}
    (helement : element.WellFormed false) (hentry : element.IsEntry)
    (hpairs : ∀ other ∈ pair :: rest, HasType (ofPair other) element)
    (hout : ∀ other ∈ pair :: rest, StandsOut (ofPair other) element) :
    StandsOut (.array element.text ((pair :: rest).map ofPair)) (.array element) := by
  intro annotate behindWord b other hc
  refine .of_splits (by simp [ofPair]) ?_
  intro u w _ _ h
  cases hc.hasForm (.dictionary helement hentry hpairs) h with
  | entry hkey _ =>
      exact absurd h (print_dictionary_ne_entry hc helement hentry
        (hpairs _ List.mem_cons_self) hkey)
  | @dictionary _ found others hotherElement hotherEntry hothers =>
      obtain ⟨htype, hstep⟩ := splitFromFirst_elements (e := ofPair) (f := printPair)
        (fun _ _ _ hapart => hapart.inDictionary _ _ rfl rfl) hc hpairs hothers hout
      rw [print_dictionary helement hentry (by simp),
        print_dictionary hotherElement hotherEntry (by simp)] at h
      have hbegins {list : List (Variant × Variant)} {text : String} {type : SigType}
          (hlist : ∀ pair ∈ list, HasType (ofPair pair) type)
          (htells : (array text (list.map ofPair)).Tells annotate behindWord) :
          ∀ pair ∈ list, BeginsBesides '}' (printPair annotate pair) := by
        intro pair hpair
        have hdouble := htells.noDouble.child rfl (List.mem_map_of_mem hpair)
        cases hlist pair hpair with
        | entry hkey _ =>
            exact (beginsBesides_print (by decide) hkey (hdouble.child rfl (by simp))).append _
      obtain ⟨hsame, rfl⟩ := listed_append_inj (by decide) (by decide) hstep
        (hbegins hpairs hc.tellsLeft) (hbegins hothers hc.tellsRight) (by simpa using h)
      obtain ⟨hfirst, hrest⟩ := List.cons_eq_cons.mp hsame
      rw [htype hfirst, hsame]
      exact ⟨rfl, rfl⟩

theorem standsOut_entry {key value : Variant} {code : BasicCode}
    (hkey : HasType key (.basic code)) (hvalue : HasType value type)
    (hout : StandsOut value type) : StandsOut (.entry key value) (.dictEntry (.basic code) type) := by
  intro annotate behindWord b other hc
  have hparts {otherKey otherValue : Variant} {otherCode : BasicCode} {otherType : SigType}
      (hc : Comparable annotate behindWord (.entry key value) (.dictEntry (.basic code) type)
        (.entry otherKey otherValue) (.dictEntry (.basic otherCode) otherType))
      (hotherKey : HasType otherKey (.basic otherCode)) (hotherValue : HasType otherValue otherType) :
      Splits (print annotate) key otherKey ∧ Splits (print annotate) value otherValue := by
    constructor
    · exact splits_literal ⟨hkey, hotherKey, fun hplain => (SigType.dictEntry.inj (hc.same hplain)).1,
        by simp, hc.tellsLeft.entry.1, hc.tellsRight.entry.1⟩
    · exact (hout annotate false _ _ ⟨hvalue, hotherValue,
        fun hplain => (SigType.dictEntry.inj (hc.same hplain)).2, by simp,
        hc.tellsLeft.entry.2, hc.tellsRight.entry.2⟩).alone
  constructor
  · intro u w hu hw h
    cases hc.hasForm (.entry hkey hvalue) h with
    | dictionary helement hentry hpairs =>
        exact absurd h.symm (print_dictionary_ne_entry hc.symm helement hentry
          (hpairs _ List.mem_cons_self) hkey)
    | entry hotherKey hotherValue =>
        obtain ⟨hkeys, hvalues⟩ := hparts hc hotherKey hotherValue
        simp only [print, List.cons_append, List.append_assoc, List.cons.injEq, true_and,
          List.nil_append] at h
        obtain ⟨rfl, rfl, hrest⟩ := splits_joined (by decide) hkeys hvalues
          (ends_cons (by decide)) (ends_cons (by decide)) h
        exact ⟨rfl, (List.cons_eq_cons.mp hrest).2⟩
  · rintro ⟨_, _⟩ ⟨_, _⟩ hpair hother u w hu hw h
    cases hpair
    cases hother
    have hright := hc.right
    cases hright with
    | entry hotherKey hotherValue =>
        obtain ⟨hkeys, hvalues⟩ := hparts hc hotherKey hotherValue
        simp only [printPair, List.append_assoc, List.cons_append] at h
        obtain ⟨rfl, rfl, rfl⟩ := splits_joined (by decide) hkeys hvalues hu hw h
        exact ⟨rfl, rfl⟩

theorem standsOut_array {items : List Variant} (helement : element.WellFormed false)
    (hbyte : element ≠ .basic (.integer .byte)) (hitems : ∀ item ∈ items, HasType item element)
    (hout : ∀ item ∈ items, StandsOut item element) :
    StandsOut (.array element.text items) (.array element) := by
  have hempty : StandsOut (.array element.text []) (.array element) :=
    fun _ _ _ _ hc => .of_splits (by simp [ofPair]) (splits_blank hc (.noItems helement hbyte))
  by_cases hentry : element.IsEntry
  · obtain ⟨pairs, rfl, hpairs⟩ := exists_pairs_of_isEntry hentry hitems
    cases pairs with
    | nil => exact hempty
    | cons pair rest =>
        exact standsOut_dictionary helement hentry hpairs (List.forall_mem_map.mp hout)
  · cases items with
    | nil => exact hempty
    | cons item rest => exact standsOut_list helement hbyte hentry hitems hout

/-! ## Tuples -/

/-- The members at the same places of two tuples are told apart. -/
theorem splitInStep_members {parts others : List (Variant × SigType)}
    (hsame : annotate = false → parts.map Prod.snd = others.map Prod.snd)
    (hparts : ∀ part ∈ parts, HasType part.1 part.2 ∧ part.1.Tells annotate false)
    (hothers : ∀ other ∈ others, HasType other.1 other.2 ∧ other.1.Tells annotate false)
    (hout : ∀ part ∈ parts, StandsOut part.1 part.2) :
    SplitInStep (print annotate) (parts.map Prod.fst) (others.map Prod.fst) := by
  induction parts generalizing others with
  | nil => trivial
  | cons part parts ih =>
      cases others with
      | nil => trivial
      | cons other others =>
          obtain ⟨hpart, hparts⟩ := List.forall_mem_cons.mp hparts
          obtain ⟨hother, hothers⟩ := List.forall_mem_cons.mp hothers
          obtain ⟨houtFirst, houtRest⟩ := List.forall_mem_cons.mp hout
          have hheads : annotate = false → part.2 = other.2 ∧
              parts.map Prod.snd = others.map Prod.snd :=
            fun hplain => List.cons_eq_cons.mp (hsame hplain)
          refine ⟨?_, ih (fun hplain => (hheads hplain).2) hparts hothers houtRest⟩
          exact (houtFirst annotate false _ _ ⟨hpart.1, hother.1,
            fun hplain => (hheads hplain).1, by simp, hpart.2, hother.2⟩).alone

/-- Behind the first member of a tuple stand the others, or a comma if there are none. -/
def behindMember (annotate : Bool) : List Variant → List Char
  | [] => [',']
  | rest => behindFirst (print annotate) rest

theorem tupleBody_cons (v : Variant) (rest : List Variant) :
    tupleBody ((v :: rest).map (print annotate)) = v.print annotate ++ behindMember annotate rest := by
  cases rest with
  | nil => rfl
  | cons next rest => exact intercalate_cons_map _ (next :: rest)

theorem behindMember_append_inj {as bs : List Variant} (hstep : SplitInStep (print annotate) as bs)
    (h : behindMember annotate as ++ ')' :: u = behindMember annotate bs ++ ')' :: w) :
    as = bs ∧ u = w := by
  cases as with
  | nil =>
      cases bs with
      | nil => simpa [behindMember] using h
      | cons b bs => simp [behindMember, behindFirst] at h
  | cons a as =>
      cases bs with
      | nil => simp [behindMember, behindFirst] at h
      | cons b bs => exact behindFirst_append_inj (by decide) (by decide) hstep h

/-- The members of tuples are told apart, with a comma behind one that is alone. -/
theorem tupleBody_append_inj {as bs : List Variant} (hstep : SplitInStep (print annotate) as bs)
    (has : ∀ a ∈ as, BeginsBesides ')' (a.print annotate))
    (hbs : ∀ b ∈ bs, BeginsBesides ')' (b.print annotate))
    (h : tupleBody (as.map (print annotate)) ++ ')' :: u =
      tupleBody (bs.map (print annotate)) ++ ')' :: w) : as = bs ∧ u = w := by
  have hends (rest : List Variant) (v : List Char) : Ends (behindMember annotate rest ++ v) := by
    cases rest <;> exact ends_cons (by decide)
  cases as with
  | nil =>
      cases bs with
      | nil => exact ⟨rfl, (List.cons_eq_cons.mp h).2⟩
      | cons b bs =>
          rw [tupleBody_cons, List.append_assoc] at h
          exact absurd h.symm ((hbs b List.mem_cons_self).append_ne _ _)
  | cons a as =>
      cases bs with
      | nil =>
          rw [tupleBody_cons, List.append_assoc] at h
          exact absurd h ((has a List.mem_cons_self).append_ne _ _)
      | cons b bs =>
          rw [tupleBody_cons, tupleBody_cons, List.append_assoc, List.append_assoc] at h
          obtain ⟨rfl, hrest⟩ := hstep.1 _ _ (hends _ _) (hends _ _) h
          obtain ⟨rfl, rfl⟩ := behindMember_append_inj hstep.2 hrest
          exact ⟨rfl, rfl⟩

theorem standsOut_tuple (parts : List (Variant × SigType))
    (hparts : ∀ part ∈ parts, HasType part.1 part.2)
    (hout : ∀ part ∈ parts, StandsOut part.1 part.2) :
    StandsOut (.tuple (parts.map Prod.fst)) (.tuple (parts.map Prod.snd)) := by
  intro annotate behindWord b other hc
  refine .of_splits (by simp [ofPair]) ?_
  intro u w _ _ h
  cases hc.hasForm (.tuple parts hparts) h with
  | tuple others hothers =>
      have htells {list : List (Variant × SigType)} (hlist : ∀ part ∈ list, HasType part.1 part.2)
          (htuple : (tuple (list.map Prod.fst)).Tells annotate behindWord) :
          ∀ part ∈ list, HasType part.1 part.2 ∧ part.1.Tells annotate false :=
        fun part hpart => ⟨hlist part hpart, htuple.tuple _ (List.mem_map_of_mem hpart)⟩
      have hbegins {list : List (Variant × SigType)}
          (hlist : ∀ part ∈ list, HasType part.1 part.2 ∧ part.1.Tells annotate false) :
          ∀ v ∈ list.map Prod.fst, BeginsBesides ')' (v.print annotate) :=
        List.forall_mem_map.mpr (fun part hpart =>
          beginsBesides_print (by decide) (hlist part hpart).1 (hlist part hpart).2.noDouble)
      have hleft := htells hparts hc.tellsLeft
      have hright := htells hothers hc.tellsRight
      rw [print_tuple, print_tuple] at h
      obtain ⟨hsame, rfl⟩ := tupleBody_append_inj
        (splitInStep_members (fun hplain => SigType.tuple.inj (hc.same hplain)) hleft hright hout)
        (hbegins hleft) (hbegins hright) (by simpa using h)
      exact ⟨by rw [hsame], rfl⟩

/-! ## All variants -/

/-- Every typed variant is told apart from all that it can be compared with. -/
theorem standsOut_of_hasType (htyped : HasType v type) : StandsOut v type := by
  induction htyped with
  | boolean value => exact standsOut_basic (.boolean value)
  | integer hholds => exact standsOut_basic (.integer hholds)
  | double value => exact standsOut_basic (.double value)
  | text haccepts => exact standsOut_basic (.text haccepts)
  | box hcontent ih => exact standsOut_box hcontent ih
  | nothing helement => exact standsOut_nothing helement
  | just hcontent ih => exact standsOut_just hcontent ih
  | bytes blob => exact standsOut_bytes blob
  | array helement hbyte hitems ih => exact standsOut_array helement hbyte hitems ih
  | tuple parts hparts ih => exact standsOut_tuple parts hparts ih
  | entry hkey hvalue _ ih => exact standsOut_entry hkey hvalue ih

/-! ## Plain texts -/

/-- Where there are no boxes, nothing is printed with annotations in plain text. -/
theorem tells_of_isTransparent (htyped : HasType v type) (htransparent : type.IsTransparent) :
    v.Tells false behindWord := by
  induction htyped generalizing behindWord with
  | boolean | integer | text | nothing =>
      exact ⟨holdsNoDouble_iff.mpr ⟨by simp, by simp [children?]⟩, rfl⟩
  | double => simp [SigType.IsTransparent, SigType.letters, BasicCode.letter] at htransparent
  | box => simp [SigType.IsTransparent, SigType.letters] at htransparent
  | @just content _ _ ih =>
      have hcontent : content.Tells false (content.tag? == some 'm') :=
        ih (SigType.isTransparent_maybe_iff.mp htransparent)
      exact ⟨holdsNoDouble_iff.mpr ⟨by simp, List.forall_mem_singleton.mpr hcontent.noDouble⟩,
        by simpa [showsMaybes] using hcontent.shows⟩
  | bytes blob =>
      refine ⟨holdsNoDouble_iff.mpr ⟨by simp, List.forall_mem_map.mpr (fun b _ => ?_)⟩, rfl⟩
      exact holdsNoDouble_iff.mpr ⟨by simp [ofByte], by simp [ofByte, children?]⟩
  | @array _ items _ _ _ ih =>
      have hitems : ∀ item ∈ items, item.Tells false false := fun item hitem =>
        ih item hitem (SigType.isTransparent_array_iff.mp htransparent)
      exact ⟨holdsNoDouble_iff.mpr ⟨by simp, fun item hitem => (hitems item hitem).noDouble⟩,
        allShowMaybes_iff.mpr (fun item hitem => (hitems item hitem).shows)⟩
  | tuple parts _ ih =>
      have hmembers : ∀ member ∈ parts.map Prod.fst, member.Tells false false :=
        List.forall_mem_map.mpr (fun part hpart => ih part hpart
          (SigType.isTransparent_tuple_iff.mp htransparent _ (List.mem_map_of_mem hpart)))
      exact ⟨holdsNoDouble_iff.mpr ⟨by simp, fun item hitem => (hmembers item hitem).noDouble⟩,
        allShowMaybes_iff.mpr (fun item hitem => (hmembers item hitem).shows)⟩
  | @entry key value _ _ _ _ ihkey ihvalue =>
      obtain ⟨hkeyType, hvalueType⟩ := SigType.isTransparent_dictEntry_iff.mp htransparent
      have hkey : key.Tells false false := ihkey hkeyType
      have hvalue : value.Tells false false := ihvalue hvalueType
      refine ⟨holdsNoDouble_iff.mpr ⟨by simp, ?_⟩, by simp [showsMaybes, hkey.shows, hvalue.shows]⟩
      simpa [children?] using ⟨hkey.noDouble, hvalue.noDouble⟩

/-- Variants of one transparent type are told apart. -/
theorem toldApart_of_hasType (ha : HasType a type) (hb : HasType b type)
    (htransparent : type.IsTransparent) : ToldApart false a b :=
  standsOut_of_hasType ha false false b type ⟨ha, hb, fun _ => rfl, by simp,
    tells_of_isTransparent ha htransparent, tells_of_isTransparent hb htransparent⟩

/-- Typed variants hold nothing that cannot be printed. -/
theorem printFault?_eq_none (htyped : HasType v type) : v.printFault? = none := by
  have hfirst {items : List Variant} (hitems : ∀ item ∈ items, item.printFault? = none) :
      firstPrintFault? items = none := by
    induction items with
    | nil => rfl
    | cons item rest ih =>
        obtain ⟨hitem, hrest⟩ := List.forall_mem_cons.mp hitems
        rw [firstPrintFault?, hitem, ih hrest]
        rfl
  induction htyped with
  | boolean | double | text | nothing | bytes => rfl
  | @integer code value hholds =>
      rw [printFault?, PrintFault.ofInteger?, hholds.isOverlong_eq_false]
      cases code <;> rfl
  | box _ ih | just _ ih => exact ih
  | array _ _ _ ih => exact hfirst ih
  | tuple parts _ ih => exact hfirst (List.forall_mem_map.mpr ih)
  | entry _ _ ihkey ihvalue => rw [printFault?, ihkey, ihvalue]; rfl

theorem display_eq_printed (htyped : HasType v type) (annotate : Bool) :
    v.display annotate = .ok (v.printed annotate) := by
  rw [display, printFault?_eq_none htyped]

/-- Built variants of one type without boxes and doubles have plain texts, and if these are the
same, so are the variants. -/
theorem plain_text_is_injective {a b : Variant} (ha : Built a) (hb : Built b)
    (htype : a.typeString = b.typeString) (hboxes : 'v' ∉ a.typeString.toList)
    (hdoubles : 'd' ∉ a.typeString.toList) :
    ∃ s t, a.display false = .ok s ∧ b.display false = .ok t ∧ (s = t → a = b) := by
  obtain ⟨type, htypedA⟩ := ha.isTyped
  obtain ⟨other, htypedB⟩ := hb.isTyped
  obtain rfl : other = type :=
    htypedB.eq_of_typeString htypedA.wellFormed (htype.symm.trans htypedA.typeString)
  rw [htypedA.typeString, SigType.toList_text] at hboxes hdoubles
  refine ⟨_, _, display_eq_printed htypedA false, display_eq_printed htypedB false, ?_⟩
  intro htext
  have hsame : a.print false ++ [] = b.print false ++ [] := by
    rw [List.append_nil, List.append_nil, ← String.toList_ofList (l := a.print false),
      ← String.toList_ofList (l := b.print false)]
    exact congrArg String.toList htext
  have hends : Ends [] := by rintro c ⟨⟩
  exact ((toldApart_of_hasType htypedA htypedB ⟨hboxes, hdoubles⟩).alone [] [] hends hends hsame).1

/-- A blob that is printed as text, and the same bytes without the NUL that ends it. -/
theorem plain_text_is_injective_blobs :
    ∃ a b s t, a = Variant.bytes [0x61, 0] ∧ b = Variant.bytes [0x61] ∧ Built a ∧ Built b ∧
      a.typeString = b.typeString ∧ 'v' ∉ a.typeString.toList ∧ 'd' ∉ a.typeString.toList ∧
      a.display false = .ok s ∧ b.display false = .ok t ∧ s ≠ t := by
  have ha : Built (.bytes [0x61, 0]) :=
    @Built.rawBytes (.text "ay") (.blob .fixed [0x61, 0]) _ (by rfl)
  have hb : Built (.bytes [0x61]) :=
    @Built.rawBytes (.text "ay") (.blob .fixed [0x61]) _ (by rfl)
  obtain ⟨s, t, hs, ht, hsame⟩ := plain_text_is_injective ha hb rfl (by decide) (by decide)
  exact ⟨_, _, s, t, rfl, rfl, ha, hb, rfl, by decide, by decide, hs, ht,
    fun htext => by simpa using hsame htext⟩

end Variant

end TypedVariant
