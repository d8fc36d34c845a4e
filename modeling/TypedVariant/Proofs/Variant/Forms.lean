import TypedVariant.Proofs.Unpack.Depth
import TypedVariant.Proofs.Variant.Literals

/-!
# The forms of printed variants

The first letters of an annotated text tell the form in which it is written: a literal
and its code, the brackets of a container, or the sign of a type string. A value in a maybe
is written in the form of the value, unless it is a maybe again; only where this does not
happen can the form be told by looking at the text.
-/

namespace TypedVariant.Variant

open Text

/-! ## What annotated texts tell of -/

mutual

/-- Every maybe with a value that is printed with annotations shows that it is one. The word that
does so is written only if the value is a maybe itself, and tells this of the value as well. -/
def showsMaybes (annotate behindWord : Bool) : Variant → Bool
  | box content => content.showsMaybes true false
  | just content =>
      (!annotate || behindWord || content.tag? == some 'm') &&
        content.showsMaybes annotate (content.tag? == some 'm')
  | array _ items => allShowMaybes annotate false items
  | tuple members => allShowMaybes annotate annotate members
  | entry key value => key.showsMaybes annotate false && value.showsMaybes annotate false
  | boolean _ | integer _ _ | double _ | text _ _ | foreignBox _ | nothing _ | bytes _
  | unknown _ _ => true
termination_by structural v => v

/-- The same of several variants, of which the first may be annotated unlike the others. -/
def allShowMaybes (annotateFirst annotateRest : Bool) : List Variant → Bool
  | [] => true
  | v :: rest => v.showsMaybes annotateFirst false && allShowMaybes annotateRest annotateRest rest
termination_by structural items => items

end

theorem allShowMaybes_iff {annotate : Bool} {items : List Variant} :
    allShowMaybes annotate annotate items = true ↔
      ∀ item ∈ items, item.showsMaybes annotate false = true := by
  induction items with
  | nil => simp [allShowMaybes]
  | cons item rest ih => simp [allShowMaybes, ih]

/-- No double is in a variant, however deep. -/
def HoldsNoDouble (v : Variant) : Prop :=
  ∀ x, ¬v.Holds (.double x)

theorem holdsNoDouble_iff {v : Variant} : v.HoldsNoDouble ↔
    (∀ x, v ≠ .double x) ∧ ∀ child ∈ v.children?.getD [], child.HoldsNoDouble := by
  have hall (w : Variant) : w.HoldsNoDouble ↔ ∀ u, w.Holds u → ∀ x, u ≠ .double x :=
    ⟨fun hw u hu x hdouble => hw x (hdouble ▸ hu), fun hw x hx => hw _ hx x rfl⟩
  simp only [hall]
  exact forall_holds_iff

theorem HoldsNoDouble.child {v child : Variant} {children : List Variant} (hv : v.HoldsNoDouble)
    (hchildren : v.children? = some children) (hchild : child ∈ children) : child.HoldsNoDouble :=
  fun x hx => hv x (.child hchildren hchild hx)

/-- The printed form of a variant tells all of it, perhaps with the help of the word behind which
it stands. -/
structure Tells (annotate behindWord : Bool) (v : Variant) : Prop where
  noDouble : v.HoldsNoDouble
  shows : v.showsMaybes annotate behindWord = true

namespace Tells

variable {annotate behindWord : Bool} {content key value item : Variant}
  {members rest : List Variant} {element : String}

theorem box (hv : (box content).Tells annotate behindWord) : content.Tells true false :=
  ⟨hv.noDouble.child rfl List.mem_cons_self, hv.shows⟩

theorem just (hv : (just content).Tells annotate behindWord) :
    (annotate = true → behindWord = false → content.tag? = some 'm') ∧
      content.Tells annotate (content.tag? == some 'm') := by
  have hshows := hv.shows
  simp only [showsMaybes, Bool.and_eq_true, Bool.or_eq_true, Bool.not_eq_true',
    beq_iff_eq] at hshows
  refine ⟨fun hannotate hplain => hshows.1.resolve_left (by simp [hannotate, hplain]), ?_, hshows.2⟩
  exact hv.noDouble.child rfl List.mem_cons_self

theorem first (hv : (array element (item :: rest)).Tells annotate behindWord) :
    item.Tells annotate false := by
  have hshows := hv.shows
  simp only [showsMaybes, allShowMaybes, Bool.and_eq_true] at hshows
  exact ⟨hv.noDouble.child rfl List.mem_cons_self, hshows.1⟩

theorem behindFirst (hv : (array element (item :: rest)).Tells annotate behindWord) :
    ∀ other ∈ rest, other.Tells false false := by
  have hshows := hv.shows
  simp only [showsMaybes, allShowMaybes, Bool.and_eq_true] at hshows
  intro other hother
  exact ⟨hv.noDouble.child rfl (List.mem_cons_of_mem _ hother),
    allShowMaybes_iff.mp hshows.2 other hother⟩

theorem tuple (hv : (tuple members).Tells annotate behindWord) :
    ∀ member ∈ members, member.Tells annotate false := by
  have hshows := hv.shows
  rw [showsMaybes, allShowMaybes_iff] at hshows
  exact fun member hmember => ⟨hv.noDouble.child rfl hmember, hshows member hmember⟩

theorem entry (hv : (entry key value).Tells annotate behindWord) :
    key.Tells annotate false ∧ value.Tells annotate false := by
  have hshows := hv.shows
  rw [showsMaybes, Bool.and_eq_true] at hshows
  exact ⟨⟨hv.noDouble.child rfl (by simp), hshows.1⟩, ⟨hv.noDouble.child rfl (by simp), hshows.2⟩⟩

end Tells

/-! ## Containers -/

variable {annotate : Bool} {v : Variant} {type element : SigType}

theorem printAll_eq_map (annotate : Bool) (items : List Variant) :
    printAll annotate annotate items = items.map (print annotate) := by
  induction items with
  | nil => rfl
  | cons v rest ih => rw [printAll, ih, List.map_cons]

/-- The printed form of an entry in its dictionary. -/
def printPair (annotate : Bool) (pair : Variant × Variant) : List Char :=
  pair.1.print annotate ++ ':' :: ' ' :: pair.2.print annotate

theorem printEntries_cons (annotate : Bool) (pair : Variant × Variant) (rest : List Variant) :
    printEntries annotate (ofPair pair :: rest) = printPair annotate pair :: printEntries false rest := by
  rw [ofPair, printEntries, printPair]
  simp

theorem printEntries_ofPair (pairs : List (Variant × Variant)) :
    printEntries false (pairs.map ofPair) = pairs.map (printPair false) := by
  induction pairs with
  | nil => rfl
  | cons pair rest ih => rw [List.map_cons, printEntries_cons, ih, List.map_cons]

theorem printsEntries_iff (hwf : element.WellFormed false) :
    (element.text.toList.take 1 == ['{']) = true ↔ element.IsEntry := by
  rw [← @isDictionaryLike_array_iff element [] hwf]
  simp [isDictionaryLike, typeLetters]

/-- Elements that are no entries are printed between square brackets. An empty array is printed in
this way only without annotations. -/
theorem print_list (hwf : element.WellFormed false) (hentry : ¬element.IsEntry)
    {items : List Variant} (hempty : annotate = true → items ≠ []) :
    (array element.text items).print annotate =
      '[' :: (listed (print annotate) (print false) items ++ [']']) := by
  rw [print, Bool.eq_false_iff.mpr (fun h => hentry ((printsEntries_iff hwf).mp h))]
  cases items with
  | nil =>
      obtain rfl : annotate = false := by simpa using hempty
      rfl
  | cons item rest =>
      rw [printAll, printAll_eq_map, intercalate_cons_map]
      rfl

/-- Entries are printed between braces, or none of them without annotations. -/
theorem print_dictionary (hwf : element.WellFormed false) (hentry : element.IsEntry)
    {pairs : List (Variant × Variant)} (hempty : annotate = true → pairs ≠ []) :
    (array element.text (pairs.map ofPair)).print annotate =
      '{' :: (listed (printPair annotate) (printPair false) pairs ++ ['}']) := by
  rw [print, (printsEntries_iff hwf).mpr hentry]
  cases pairs with
  | nil =>
      obtain rfl : annotate = false := by simpa using hempty
      rfl
  | cons pair rest =>
      rw [List.map_cons, printEntries_cons, printEntries_ofPair, intercalate_cons_map]
      rfl

theorem print_tuple (members : List Variant) : (tuple members).print annotate =
    '(' :: (tupleBody (members.map (print annotate)) ++ [')']) := by
  rw [print, printAll_eq_map]

/-! ## First letters -/

theorem tag?_eq (htyped : HasType v type) : v.tag? = type.letters.head? := by
  rw [tag?, htyped.typeLetters]

/-- A part begins with a letter that is no closing bracket. It is not the one that begins the word
for nothing either, except in a maybe. -/
def BeginsAsPart (isMaybe : Prop) (text : List Char) : Prop :=
  ∃ c rest, text = c :: rest ∧ c ∉ [')', ']', '}'] ∧ (¬isMaybe → c ≠ 'n')

theorem beginsAsPart_cons {isMaybe : Prop} {c : Char} (hc : c ∉ [')', ']', '}', 'n'])
    (rest : List Char) : BeginsAsPart isMaybe (c :: rest) := by
  simp only [List.mem_cons, List.not_mem_nil, or_false, not_or] at hc
  refine ⟨c, rest, rfl, ?_, fun _ => hc.2.2.2⟩
  simp only [List.mem_cons, List.not_mem_nil, or_false, not_or]
  exact ⟨hc.1, hc.2.1, hc.2.2.1⟩

theorem beginsAsPart_integer {isMaybe : Prop} (code : IntegerCode) (value : Int) :
    BeginsAsPart isMaybe (annotated annotate code.annotationWord? (integerLiteral code value)) := by
  obtain ⟨c, rest, hliteral, hc⟩ := exists_integerLiteral_cons code value
  have hnumeral : BeginsAsPart isMaybe (integerLiteral code value) := by
    rw [hliteral]
    apply beginsAsPart_cons
    simp only [List.mem_cons, List.not_mem_nil, or_false, not_or]
    refine ⟨?_, ?_, ?_, ?_⟩ <;> rintro rfl <;> simp [IsNumeral, Char.isDigit] at hc
  cases annotate with
  | false => exact hnumeral
  | true =>
      cases code with
      | int32 => exact hnumeral
      | _ => exact beginsAsPart_cons (by decide) _

theorem beginsAsPart_text {isMaybe : Prop} (code : TextCode) (value : String) :
    BeginsAsPart isMaybe (annotated annotate code.annotationWord? (Quoted.encode value.toList)) := by
  have hquoted : BeginsAsPart isMaybe (Quoted.encode value.toList) := by
    apply beginsAsPart_cons
    obtain hquote | hquote := Quoted.isQuote_quoteOf value.toList <;> rw [hquote] <;> decide
  cases annotate with
  | false => exact hquoted
  | true =>
      cases code with
      | string => exact hquoted
      | _ => exact beginsAsPart_cons (by decide) _

theorem beginsAsPart_typed {isMaybe : Prop} {literal : List Char}
    (hliteral : BeginsAsPart isMaybe literal) (type : List Char) :
    BeginsAsPart isMaybe (typed annotate type literal) := by
  cases annotate with
  | false => exact hliteral
  | true => exact beginsAsPart_cons (by decide) _

theorem beginsAsPart_print (annotate : Bool) (htyped : HasType v type)
    (hdouble : v.HoldsNoDouble) : BeginsAsPart (v.tag? = some 'm') (v.print annotate) := by
  induction htyped with
  | boolean value => cases value <;> exact beginsAsPart_cons (by decide) _
  | @integer code value _ => exact beginsAsPart_integer code value
  | double value => exact absurd (.itself _) (hdouble value)
  | @text code value _ => exact beginsAsPart_text code value
  | nothing =>
      exact beginsAsPart_typed ⟨_, _, rfl, by decide, fun h => absurd rfl h⟩ _
  | @just content _ _ ih =>
      -- Without a word before it, what is present is printed as its content is.
      obtain ⟨c, rest, hprint, hclose, hword⟩ := ih (hdouble.child rfl List.mem_cons_self)
      rw [print]
      split
      next => exact beginsAsPart_cons (by decide) _
      next hplain => exact ⟨c, rest, hprint, hclose, fun _ => hword hplain⟩
  | bytes blob =>
      rw [print]
      cases hprintable : isPrintableBlob blob with
      | true =>
          rw [printBlob_text hprintable]
          exact beginsAsPart_cons (by decide) _
      | false =>
          cases blob with
          | nil => exact beginsAsPart_typed (beginsAsPart_cons (by decide) _) _
          | cons b rest =>
              rw [printBlob_cons hprintable]
              exact beginsAsPart_cons (by decide) _
  | array =>
      rw [print]
      split
      next =>
        apply beginsAsPart_typed
        split <;> exact beginsAsPart_cons (by decide) _
      next => split <;> exact beginsAsPart_cons (by decide) _
  | box | tuple | entry => exact beginsAsPart_cons (by decide) _

theorem beginsBesides_print {close : Char} (hclose : close ∈ [')', ']', '}'])
    (htyped : HasType v type) (hdouble : v.HoldsNoDouble) :
    BeginsBesides close (v.print annotate) := by
  obtain ⟨c, rest, hprint, hc, -⟩ := beginsAsPart_print annotate htyped hdouble
  refine ⟨c, rest, hprint, ?_⟩
  rintro rfl
  exact hc hclose

/-! ## Forms -/

/-- The forms in which variants are written. An absent value and an empty array are blank, and both
a dictionary and an entry on its own stand between braces. -/
inductive Form
  | literal (code : BasicCode)
  | box | blank | just | quotedBlob | list | braces | tuple
  deriving DecidableEq

/-- The variants of each form, beside their types. -/
inductive HasForm : Variant → SigType → Form → Prop
  | literal {v : Variant} {code : BasicCode} (hv : HasType v (.basic code)) :
      HasForm v (.basic code) (.literal code)
  | box {content : Variant} {type : SigType} (hcontent : HasType content type) :
      HasForm (.box content) .variant .box
  | nothing {element : SigType} (helement : element.WellFormed false) :
      HasForm (.nothing element.text) (.maybe element) .blank
  | just {content : Variant} {element : SigType} (hcontent : HasType content element) :
      HasForm (.just content) (.maybe element) .just
  | noBytes : HasForm (.bytes []) (.array (.basic (.integer .byte))) .blank
  | quotedBlob {blob : List UInt8} (hprintable : isPrintableBlob blob = true) :
      HasForm (.bytes blob) (.array (.basic (.integer .byte))) .quotedBlob
  | byteList {b : UInt8} {rest : List UInt8} (hplain : isPrintableBlob (b :: rest) = false) :
      HasForm (.bytes (b :: rest)) (.array (.basic (.integer .byte))) .list
  | noItems {element : SigType} (helement : element.WellFormed false)
      (hbyte : element ≠ .basic (.integer .byte)) :
      HasForm (.array element.text []) (.array element) .blank
  | list {element : SigType} {item : Variant} {rest : List Variant}
      (helement : element.WellFormed false) (hbyte : element ≠ .basic (.integer .byte))
      (hentry : ¬element.IsEntry) (hitems : ∀ other ∈ item :: rest, HasType other element) :
      HasForm (.array element.text (item :: rest)) (.array element) .list
  | dictionary {element : SigType} {pair : Variant × Variant} {rest : List (Variant × Variant)}
      (helement : element.WellFormed false) (hentry : element.IsEntry)
      (hpairs : ∀ other ∈ pair :: rest, HasType (ofPair other) element) :
      HasForm (.array element.text ((pair :: rest).map ofPair)) (.array element) .braces
  | tuple (parts : List (Variant × SigType)) (hparts : ∀ part ∈ parts, HasType part.1 part.2) :
      HasForm (.tuple (parts.map Prod.fst)) (.tuple (parts.map Prod.snd)) .tuple
  | entry {key value : Variant} {code : BasicCode} {type : SigType}
      (hkey : HasType key (.basic code)) (hvalue : HasType value type) :
      HasForm (.entry key value) (.dictEntry (.basic code) type) .braces

/-- Every typed variant has a form. -/
theorem exists_hasForm (htyped : HasType v type) : ∃ form, HasForm v type form := by
  cases htyped with
  | boolean value => exact ⟨_, .literal (.boolean value)⟩
  | integer hholds => exact ⟨_, .literal (.integer hholds)⟩
  | double value => exact ⟨_, .literal (.double value)⟩
  | text haccepts => exact ⟨_, .literal (.text haccepts)⟩
  | box hcontent => exact ⟨_, .box hcontent⟩
  | nothing helement => exact ⟨_, .nothing helement⟩
  | just hcontent => exact ⟨_, .just hcontent⟩
  | bytes blob =>
      cases hprintable : isPrintableBlob blob with
      | true => exact ⟨_, .quotedBlob hprintable⟩
      | false =>
          cases blob with
          | nil => exact ⟨_, .noBytes⟩
          | cons b rest => exact ⟨_, .byteList hprintable⟩
  | @array element items helement hbyte hitems =>
      by_cases hentry : element.IsEntry
      · obtain ⟨pairs, rfl, hpairs⟩ := exists_pairs_of_isEntry hentry hitems
        cases pairs with
        | nil => exact ⟨_, .noItems helement hbyte⟩
        | cons pair rest => exact ⟨_, .dictionary helement hentry hpairs⟩
      · cases items with
        | nil => exact ⟨_, .noItems helement hbyte⟩
        | cons item rest => exact ⟨_, .list helement hbyte hentry hitems⟩
  | tuple parts hparts => exact ⟨_, .tuple parts hparts⟩
  | entry hkey hvalue => exact ⟨_, .entry hkey hvalue⟩

/-- What stands for a blank variant of a type. -/
def blankLiteral : SigType → List Char
  | .array element => if element.text.toList.take 1 == ['{'] then ['{', '}'] else ['[', ']']
  | _ => "nothing".toList

/-- A blank variant is written by its type alone. -/
theorem print_blank (hform : HasForm v type .blank) :
    v.print annotate = typed annotate type.letters (blankLiteral type) := by
  cases hform with
  | nothing => simp [print, SigType.letters, blankLiteral]
  | noBytes => rfl
  | noItems =>
      rw [print, SigType.letters, blankLiteral, SigType.toList_text]
      rfl

/-- The form that the first letters of an annotated text tell. -/
def formOf : List Char → Form
  | '<' :: _ => .box
  | '@' :: _ => .blank
  | 'j' :: _ => .just
  | '[' :: _ => .list
  | '{' :: _ => .braces
  | '(' :: _ => .tuple
  | 't' :: _ | 'f' :: _ => .literal .boolean
  | 'b' :: 'y' :: _ => .literal (.integer .byte)
  | 'b' :: _ => .quotedBlob
  | 'i' :: 'n' :: 't' :: '1' :: _ => .literal (.integer .int16)
  | 'i' :: _ => .literal (.integer .int64)
  | 'u' :: 'i' :: 'n' :: 't' :: '1' :: _ => .literal (.integer .uint16)
  | 'u' :: 'i' :: 'n' :: 't' :: '3' :: _ => .literal (.integer .uint32)
  | 'u' :: _ => .literal (.integer .uint64)
  | 'h' :: _ => .literal (.integer .handle)
  | 'o' :: _ => .literal (.text .objectPath)
  | 's' :: _ => .literal (.text .signature)
  | '\x27' :: _ | '"' :: _ => .literal (.text .string)
  | _ => .literal (.integer .int32)

/-- A numeral has no word before it only if it is a 32-bit signed integer. -/
theorem formOf_numeral {c : Char} (hc : IsNumeral c) (rest : List Char) :
    formOf (c :: rest) = .literal (.integer .int32) := by
  unfold formOf
  split <;> first | rfl | simp_all [IsNumeral, Char.isDigit]

theorem formOf_literal {code : BasicCode} (hv : HasType v (.basic code)) (hdouble : v.HoldsNoDouble)
    (rest : List Char) : formOf (v.print true ++ rest) = .literal code := by
  cases hv with
  | boolean value => cases value <;> rfl
  | @integer code value _ =>
      cases code with
      | int32 =>
          obtain ⟨c, digits, hliteral, hc⟩ := exists_integerLiteral_cons .int32 value
          rw [print, show annotated true IntegerCode.int32.annotationWord? _ = _ from rfl, hliteral]
          exact formOf_numeral hc _
      | _ => rfl
  | double value => exact absurd (.itself _) (hdouble value)
  | @text code value _ =>
      cases code with
      | string =>
          obtain hquote | hquote := Text.Quoted.isQuote_quoteOf value.toList
          · simp [print, annotated, TextCode.annotationWord?, Quoted.encode, hquote, formOf]
          · simp [print, annotated, TextCode.annotationWord?, Quoted.encode, hquote, formOf]
      | _ => rfl

/-- The first letters of an annotated text tell its form. -/
theorem formOf_print {form : Form} (hform : HasForm v type form) (hv : v.Tells true false)
    (rest : List Char) : formOf (v.print true ++ rest) = form := by
  cases hform with
  | literal hbasic => exact formOf_literal hbasic hv.noDouble rest
  | box | nothing | noBytes | tuple | entry => rfl
  | just =>
      rw [print, if_pos (hv.just.1 rfl rfl)]
      rfl
  | quotedBlob hprintable =>
      rw [print, printBlob_text hprintable, Quoted.encode]
      obtain hquote | hquote := Quoted.isQuote_quoteOf _
      · rw [hquote]
        rfl
      · rw [hquote]
        rfl
  | byteList hplain =>
      rw [print, printBlob_cons hplain]
      rfl
  | noItems helement hbyte =>
      rw [print_blank (.noItems helement hbyte)]
      rfl
  | list helement _ hentry _ =>
      rw [print_list helement hentry (by simp)]
      rfl
  | dictionary helement hentry _ =>
      rw [print_dictionary helement hentry (by simp)]
      rfl

/-- The form that the first letters of an annotated text tell behind the word for a maybe. -/
def formOfMaybe : List Char → Form
  | '@' :: 'm' :: _ => .blank
  | _ => .just

/-- What is no maybe has no text like that of one without a value. -/
theorem formOfMaybe_of_tag {form : Form} (hform : HasForm v type form) (hv : v.Tells true false)
    (htag : type.letters.head? ≠ some 'm') (rest : List Char) :
    formOfMaybe (v.print true ++ rest) = .just := by
  unfold formOfMaybe
  split
  next left hprint =>
    have hblank : form = .blank := by
      rw [← formOf_print hform hv rest, hprint]
      rfl
    subst hblank
    rw [print_blank hform, typed, if_pos rfl, List.cons_append] at hprint
    cases hletters : type.letters with
    | nil => simp [hletters] at hprint
    | cons c others =>
        rw [hletters] at hprint
        simp only [List.cons_append, List.cons.injEq, true_and] at hprint
        rw [hletters, hprint.1] at htag
        exact absurd rfl htag
  next => rfl

theorem formOfMaybe_print {form : Form} (hform : HasForm v (.maybe element) form)
    (hv : v.Tells true true) (rest : List Char) : formOfMaybe (v.print true ++ rest) = form := by
  cases hform with
  | nothing => rfl
  | @just content _ hcontent =>
      rw [print]
      split
      next => rfl
      next hplain =>
        obtain ⟨form, hform⟩ := exists_hasForm hcontent
        have htells := hv.just.2
        rw [beq_eq_false_iff_ne.mpr hplain] at htells
        rw [tag?_eq hcontent] at hplain
        exact formOfMaybe_of_tag hform htells hplain rest

/-- The form that the first letters of a text tell where its type is known. -/
def formOfType : SigType → List Char → Form
  | .basic code, _ => .literal code
  | .maybe _, 'n' :: _ => .blank
  | .maybe _, _ => .just
  | .array _, 'b' :: _ => .quotedBlob
  | .array _, '[' :: ']' :: _ | .array _, '{' :: '}' :: _ => .blank
  | .array _, '[' :: _ => .list
  | .tuple _, _ => .tuple
  | .variant, _ => .box
  | _, _ => .braces

/-- A value in a maybe is not written like the word for nothing. -/
theorem formOfType_just {content : Variant} (hcontent : HasType content element)
    (hdouble : content.HoldsNoDouble) (rest : List Char) :
    formOfType (.maybe element) ((just content).print false ++ rest) = .just := by
  rw [print]
  split
  next => rfl
  next hplain =>
    obtain ⟨c, left, hprint, -, hword⟩ := beginsAsPart_print false hcontent hdouble
    rw [hprint, List.cons_append]
    unfold formOfType
    split <;> simp_all

/-- Where something stands between brackets, the closing one does not follow at once. -/
theorem formOfType_array {c : Char} (hc : c ∉ [')', ']', '}']) (rest : List Char) :
    formOfType (.array element) ('[' :: c :: rest) = .list ∧
      formOfType (.array element) ('{' :: c :: rest) = .braces := by
  constructor
  · unfold formOfType
    split <;> simp_all
  · unfold formOfType
    split <;> simp_all

/-- The first letters of a plain text tell its form to whoever knows the type. -/
theorem formOfType_print {form : Form} (hform : HasForm v type form) (hdouble : v.HoldsNoDouble)
    (rest : List Char) : formOfType type (v.print false ++ rest) = form := by
  cases hform with
  | literal | box | nothing | noBytes | tuple | entry => rfl
  | just hcontent =>
      exact formOfType_just hcontent (hdouble.child rfl List.mem_cons_self) rest
  | quotedBlob hprintable =>
      rw [print, printBlob_text hprintable]
      rfl
  | byteList hplain =>
      rw [print, printBlob_cons hplain]
      rfl
  | noItems helement hbyte =>
      rw [print_blank (.noItems helement hbyte), typed_false, blankLiteral]
      split <;> rfl
  | @list _ item others helement _ hentry hitems =>
      rw [print_list helement hentry (by simp)]
      -- A list is told from a blank by its first item, which does not begin with a closing bracket.
      obtain ⟨c, left, hprint, hc, -⟩ := beginsAsPart_print false
        (hitems item List.mem_cons_self) (hdouble.child rfl List.mem_cons_self)
      rw [listed, hprint]
      exact (formOfType_array hc _).1
  | @dictionary _ pair others helement hentry hpairs =>
      rw [print_dictionary helement hentry (by simp)]
      have hpair := hpairs pair List.mem_cons_self
      have hdoublePair := hdouble.child rfl List.mem_cons_self
      cases hpair with
      | entry hkey _ =>
          obtain ⟨c, left, hprint, hc, -⟩ := beginsAsPart_print false hkey
            (hdoublePair.child rfl List.mem_cons_self)
          rw [listed, printPair, hprint]
          exact (formOfType_array hc _).2

end TypedVariant.Variant
