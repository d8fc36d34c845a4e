import TypedVariant.Proofs.Json.Tokens

/-!
# Written values are read back wherever they stand

A text is read as a value if it leads from any place where a value is expected to where the value
has been supplied, whatever mark follows it. Arrays and objects put together from such texts are
read as the lists and maps of the values, and the whole of a text as the one value in it.
-/

namespace TypedVariant.Json

variable {start next : Expecting} {within : List Frame} {text left rest : List Char} {token : Token}
  {x : Native}

/-- A value is expected, and will be the next item or member of the innermost of the arrays and
objects that are open. -/
inductive AtValue : Expecting → List Frame → Prop
  | value (within : List Frame) : AtValue (.value within) within
  | firstItem (outer : List Frame) : AtValue (.firstItem outer) (.array [] :: outer)

/-- The end of an array begins no value, so what does may stand in its place. -/
theorem AtValue.advance (hstart : AtValue start within)
    (hbegin : beginValue within token = .ok next) : Json.advance start token = .ok next := by
  cases hstart with
  | value => exact hbegin
  | firstItem outer =>
      rw [Json.advance]
      · exact hbegin
      · rintro rfl
        cases hbegin

/-- A text stands for a value in any place where one is expected. -/
structure ReadsAs (text : List Char) (x : Native) : Prop where
  noMark : ∀ left, text ≠ '\uFEFF' :: left
  leads : ∀ {start within rest}, AtValue start within → Text.Ends rest →
    Leads start (text ++ rest) (supply x within) rest

theorem ReadsAs.readChars_eq (hreads : ReadsAs text x) : readChars text = .ok x := by
  obtain ⟨fuel, position, -, hlead⟩ :=
    hreads.leads (.value []) Text.ends_nil text.length text.length 0 (by simp)
  rw [List.append_nil] at hlead
  unfold readChars
  split
  next left => exact absurd rfl (hreads.noMark left)
  next =>
    rw [tokens, hlead]
    cases fuel <;> rfl

/-! ## Single tokens -/

/-- What is scanned at a byte order mark is no token. -/
theorem ne_byteOrderMark_of_startsWith (hstarts : StartsWith text token left)
    (htoken : token ≠ .bad) (others : List Char) : text ≠ '\uFEFF' :: others := by
  rintro rfl
  obtain ⟨c, rest, hcons, -, -, hscan⟩ := hstarts
  obtain ⟨rfl, rfl⟩ := List.cons_eq_cons.mp hcons
  have hbad : scanToken 0 '\uFEFF' others = (.bad, []) := by
    simp [scanToken, markOf?, scanWord?, words, behind?, scanNumber?]
  exact htoken (Prod.ext_iff.mp ((hscan 0).symm.trans hbad)).1

theorem ReadsAs.of_startsWith
    (hstarts : ∀ rest, Text.Ends rest → StartsWith (text ++ rest) token rest)
    (hbegin : ∀ within, beginValue within token = .ok (supply x within)) : ReadsAs text x where
  noMark := by
    have hwhole := hstarts [] Text.ends_nil
    rw [List.append_nil] at hwhole
    apply ne_byteOrderMark_of_startsWith hwhole
    rintro rfl
    cases hbegin []
  leads := fun hstart hrest => leads_of_startsWith (hstarts _ hrest) (hstart.advance (hbegin _))

theorem readsAs_null : ReadsAs "null".toList .null :=
  .of_startsWith (fun rest _ => startsWith_null rest) (fun _ => rfl)

theorem readsAs_bool (value : Bool) :
    ReadsAs (if value then "true".toList else "false".toList) (.bool value) :=
  .of_startsWith (fun rest _ => startsWith_bool value rest) (fun _ => by cases value <;> rfl)

theorem readsAs_int {value : Int} (hshort : Numeral.isOverlong value = false) :
    ReadsAs (intText value) (.int value) :=
  .of_startsWith (fun _ hrest => startsWith_integer hrest)
    (fun _ => by rw [beginValue, if_neg (by simp [hshort])])

/-- A numeral of too many digits is refused where it begins. -/
theorem readChars_of_overlong {value : Int} (hlong : Numeral.isOverlong value = true) :
    readChars (intText value) = .error ⟨.overlongInteger (Numeral.digitCount value), 0⟩ := by
  have hstarts : StartsWith (intText value ++ []) (.integer value) [] :=
    startsWith_integer Text.ends_nil
  rw [List.append_nil] at hstarts
  have hrefused : advance (.value []) (.integer value) =
      .error (.overlongInteger (Numeral.digitCount value)) := by
    rw [advance, beginValue, if_pos hlong]
  unfold readChars
  split
  next htext => exact absurd htext (ne_byteOrderMark_of_startsWith hstarts (by simp) _)
  next =>
    obtain ⟨c, rest, htext, hblank, -, hscan⟩ := hstarts
    rw [htext, tokens, List.length_cons, tokensWithin, hblank, if_neg (by simp), hscan]
    simp only [readTokens, hrefused]

theorem readsAs_string (value : List Char) :
    ReadsAs (writeString value) (.text (String.ofList value)) :=
  .of_startsWith (fun rest _ => startsWith_string value rest) (fun _ => rfl)

/-! ## Arrays -/

/-- The parts between two brackets, with a comma before each but the first. -/
theorem intercalate_comma (first : List Char) (others : List (List Char)) :
    [','].intercalate (first :: others) = first ++ others.flatMap (',' :: ·) := by
  induction others generalizing first with
  | nil => simp
  | cons other others ih => rw [List.intercalate_cons_cons, ih, List.flatMap_cons]; simp

theorem ends_behindItem (close : Char) (hclose : close ∈ Text.closingMarks)
    (others : List (List Char)) (rest : List Char) :
    Text.Ends (others.flatMap (',' :: ·) ++ close :: rest) := by
  cases others with
  | nil => exact Text.ends_cons hclose
  | cons => exact Text.ends_cons (by decide)

theorem leads_mark {c : Char} {mark : Mark} (hmark : markOf? c = some mark)
    (hadvance : advance start (.mark mark) = .ok next) (hblank : isBlank c = false := by decide) :
    Leads start (c :: rest) next rest :=
  leads_of_startsWith (startsWith_mark hmark hblank) hadvance

/-- Behind an item of an array come the others. -/
theorem leads_moreItems {parts : List (List Char × Native)}
    (hparts : ∀ part ∈ parts, ReadsAs part.1 part.2) (items : List Native) (outer : List Frame)
    (rest : List Char) :
    Leads (.moreItems items outer) ((parts.map Prod.fst).flatMap (',' :: ·) ++ ']' :: rest)
      (supply (.list (items.reverse ++ parts.map Prod.snd)) outer) rest := by
  induction parts generalizing items with
  | nil =>
      have hclose : Leads (.moreItems items outer) (']' :: rest)
          (supply (.list items.reverse) outer) rest :=
        leads_mark rfl rfl
      simpa using hclose
  | cons part parts ih =>
      obtain ⟨hpart, hparts⟩ := List.forall_mem_cons.mp hparts
      have hcomma (text : List Char) :
          Leads (.moreItems items outer) (',' :: text) (.value (.array items :: outer)) text :=
        leads_mark rfl rfl
      have hitem := hpart.leads (.value (.array items :: outer))
        (ends_behindItem ']' (by decide) (parts.map Prod.fst) rest)
      simpa using ((hcomma _).trans hitem).trans (ih hparts (part.2 :: items))

theorem readsAs_array {parts : List (List Char × Native)}
    (hparts : ∀ part ∈ parts, ReadsAs part.1 part.2) :
    ReadsAs (writeArray (parts.map Prod.fst)) (.list (parts.map Prod.snd)) where
  noMark := by simp [writeArray]
  leads := by
    intro start within rest hstart hrest
    have hopen (text : List Char) : Leads start ('[' :: text) (.firstItem within) text :=
      leads_mark rfl (hstart.advance rfl)
    cases parts with
    | nil => exact (hopen (']' :: rest)).trans (leads_mark rfl rfl)
    | cons part parts =>
        obtain ⟨hpart, hparts⟩ := List.forall_mem_cons.mp hparts
        have hitem := hpart.leads (.firstItem within)
          (ends_behindItem ']' (by decide) (parts.map Prod.fst) rest)
        have hall := ((hopen _).trans hitem).trans (leads_moreItems hparts [part.2] within rest)
        simpa [writeArray, intercalate_comma] using hall

/-! ## Objects -/

/-- The text of a member: its key, and behind the colon the text of its value. -/
def memberText (key : String) (text : List Char) : List Char :=
  writeString key.toList ++ ':' :: text

theorem leads_member (start : Expecting) (key : String) {entries : List (Native × Native)}
    {outer : List Frame} (hreads : ReadsAs text x)
    (hkey : advance start (.string key.toList) = .ok (.colon entries key.toList outer))
    (hrest : Text.Ends rest) :
    Leads start (memberText key text ++ rest)
      (.moreEntries (Native.insert (.text key) x entries) outer) rest := by
  have hstring := leads_of_startsWith (startsWith_string key.toList (':' :: (text ++ rest))) hkey
  have hcolon : Leads (.colon entries key.toList outer) (':' :: (text ++ rest))
      (.value (.object entries key.toList :: outer)) (text ++ rest) :=
    leads_mark rfl rfl
  have hvalue := hreads.leads (.value (.object entries key.toList :: outer)) hrest
  rw [supply, String.ofList_toList] at hvalue
  simpa [memberText] using (hstring.trans hcolon).trans hvalue

/-- Behind a member of an object come the others. Each is stored as it is read. -/
theorem leads_moreEntries {parts : List (String × List Char × Native)}
    (hparts : ∀ part ∈ parts, ReadsAs part.2.1 part.2.2) (entries : List (Native × Native))
    (outer : List Frame) (rest : List Char) :
    Leads (.moreEntries entries outer)
      ((parts.map (fun part => memberText part.1 part.2.1)).flatMap (',' :: ·) ++ '}' :: rest)
      (supply (.map ((parts.map (fun part => (Native.text part.1, part.2.2))).foldl
        (fun entries pair => Native.insert pair.1 pair.2 entries) entries)) outer) rest := by
  induction parts generalizing entries with
  | nil => exact leads_mark rfl rfl
  | cons part parts ih =>
      obtain ⟨hpart, hparts⟩ := List.forall_mem_cons.mp hparts
      have hends := ends_behindItem '}' (by decide)
        (parts.map (fun part => memberText part.1 part.2.1)) rest
      have hcomma (text : List Char) :
          Leads (.moreEntries entries outer) (',' :: text) (.key entries outer) text :=
        leads_mark rfl rfl
      have hmember := leads_member (.key entries outer) part.1 hpart rfl hends
      simpa using ((hcomma _).trans hmember).trans (ih hparts _)

theorem readsAs_object {parts : List (String × List Char × Native)}
    (hparts : ∀ part ∈ parts, ReadsAs part.2.1 part.2.2) :
    ReadsAs ('{' :: ([','].intercalate (parts.map (fun part => memberText part.1 part.2.1)) ++
        ['}']))
      (.mapOf (parts.map (fun part => (.text part.1, part.2.2)))) where
  noMark := by simp
  leads := by
    intro start within rest hstart hrest
    have hopen (text : List Char) : Leads start ('{' :: text) (.firstKey within) text :=
      leads_mark rfl (hstart.advance rfl)
    cases parts with
    | nil => exact (hopen ('}' :: rest)).trans (leads_mark rfl rfl)
    | cons part parts =>
        obtain ⟨hpart, hparts⟩ := List.forall_mem_cons.mp hparts
        have hends := ends_behindItem '}' (by decide)
          (parts.map (fun part => memberText part.1 part.2.1)) rest
        have hmember := leads_member (.firstKey within) part.1 hpart rfl hends
        have hall := ((hopen _).trans hmember).trans (leads_moreEntries hparts _ within rest)
        simpa [intercalate_comma, Native.mapOf] using hall

end TypedVariant.Json
