import TypedVariant.Proofs.Signature.Patterns
import TypedVariant.Proofs.Unpack.Depth
import TypedVariant.Proofs.Variant.Children

/-!
# Types are tested on the children

Whether a container is of a type is answered from its type string alone. The law is about what
it contains: a pattern that is put together as containers are covers a container exactly
if its parts cover the children. Only a box is tested on nothing but being a box.
-/

namespace TypedVariant

/-- The text is a pattern, and one that nests no deeper than is ever read. -/
def Signature.IsPattern (text : String) : Prop :=
  ∃ shape, parsePattern maxDepthLimit text = .ok shape

namespace Signature

variable {text : String} {shape : SigType}

/-- A pattern for keys: a basic code, or the wildcard for any of them. -/
def IsKeyPattern (text : String) : Prop :=
  text = "?" ∨ ∃ code : BasicCode, text = String.singleton code.letter

theorem IsKeyPattern.exists_shape (hkey : IsKeyPattern text) :
    ∃ shape : SigType, shape.WellFormed true ∧ shape.isBasic = true ∧ shape.nesting = 0 ∧
      text = shape.text := by
  rcases hkey with rfl | ⟨code, rfl⟩
  · exact ⟨.wildcard .anyBasic, .wildcard rfl, rfl, rfl, rfl⟩
  · exact ⟨.basic code, .basic code, rfl, rfl, rfl⟩

/-- A pattern spells the shape that is written as it. -/
theorem IsPattern.parsePattern (hpattern : IsPattern text) (hwf : shape.WellFormed true)
    (hletters : text.toList = shape.letters) : parsePattern maxDepthLimit text = .ok shape := by
  obtain ⟨found, hparse⟩ := hpattern
  obtain ⟨hadmits, hfound⟩ := parsePattern_eq_ok_iff.mp hparse
  rwa [SigType.letters_inj hwf hadmits.wellFormed (hletters.symm.trans hfound)]

end Signature

/-- A test is answered, and affirmed exactly if a statement holds. -/
def Decides (test : Except Error Bool) (P : Prop) : Prop :=
  ∃ answer, test = .ok answer ∧ (answer = true ↔ P)

theorem Decides.congr {test : Except Error Bool} {P Q : Prop} (hdecides : Decides test P)
    (hiff : P ↔ Q) : Decides test Q := by
  obtain ⟨answer, htest, hanswer⟩ := hdecides
  exact ⟨answer, htest, hanswer.trans hiff⟩

theorem SigType.covered_variant_iff {shape : SigType} (hwf : shape.WellFormed true) :
    shape.covers .variant = true ↔ shape = .variant ∨ shape = .wildcard .anyType := by
  cases hwf with
  | @wildcard kind => cases kind <;> simp [covers]
  | _ => simp [covers]

namespace Variant

/-- The variant is of a type that the pattern covers. -/
def Satisfies (v : Variant) (pattern : String) : Prop :=
  v.isOfType (.text pattern) = .ok true

variable {v : Variant} {type shape element : SigType} {pattern : String} {children : List Variant}

/-! ## One test -/

/-- Type and pattern are read back and compared as trees. -/
theorem isOfType_text (htyped : HasType v type) (hnesting : (type.nesting : Int) ≤ maxDepthLimit)
    (hparse : Signature.parsePattern maxDepthLimit pattern = .ok shape) :
    v.isOfType (.text pattern) = .ok (shape.covers type) := by
  rw [isOfType, htyped.typeString]
  exact Signature.typeMatches_texts (Signature.parse_text htyped.wellFormed hnesting) hparse

theorem decides_isOfType (htyped : HasType v type)
    (hnesting : (type.nesting : Int) ≤ maxDepthLimit)
    (hparse : Signature.parsePattern maxDepthLimit pattern = .ok shape) :
    Decides (v.isOfType (.text pattern)) (shape.covers type = true) :=
  ⟨_, isOfType_text htyped hnesting hparse, Iff.rfl⟩

theorem satisfies_iff (htyped : HasType v type) (hnesting : (type.nesting : Int) ≤ maxDepthLimit)
    (hparse : Signature.parsePattern maxDepthLimit pattern = .ok shape) :
    v.Satisfies pattern ↔ shape.covers type = true := by
  rw [Satisfies, isOfType_text htyped hnesting hparse, Except.ok.injEq]

/-! ## The types of the children -/

/-- The first letter of the type string tells how the type is put together, and thereby which types
the children have. -/
theorem type_eq_variant (htyped : HasType v type) (hchildren : v.children? = some children)
    (htag : v.tag? = some 'v') : type = .variant := by
  cases htyped with
  | box => rfl
  | boolean | integer | double | text => simp [Variant.children?] at hchildren
  | _ => simp [tag?, typeLetters] at htag

theorem exists_maybe (htyped : HasType v type) (hchildren : v.children? = some children)
    (htag : v.tag? = some 'm') :
    ∃ element, type = .maybe element ∧ ∀ child ∈ children, HasType child element := by
  cases htyped with
  | nothing =>
      obtain rfl := Option.some.inj hchildren
      exact ⟨_, rfl, by simp⟩
  | just hcontent =>
      obtain rfl := Option.some.inj hchildren
      exact ⟨_, rfl, List.forall_mem_singleton.mpr hcontent⟩
  | boolean | integer | double | text => simp [Variant.children?] at hchildren
  | _ => simp [tag?, typeLetters] at htag

theorem exists_array (htyped : HasType v type) (hchildren : v.children? = some children)
    (htag : v.tag? = some 'a') :
    ∃ element, type = .array element ∧ ∀ child ∈ children, HasType child element := by
  cases htyped with
  | bytes =>
      obtain rfl := Option.some.inj hchildren
      exact ⟨_, rfl, by simpa using fun b _ => hasType_ofByte b⟩
  | array _ _ hitems =>
      obtain rfl := Option.some.inj hchildren
      exact ⟨_, rfl, hitems⟩
  | boolean | integer | double | text => simp [Variant.children?] at hchildren
  | _ => simp [tag?, typeLetters] at htag

theorem exists_tuple (htyped : HasType v type) (hchildren : v.children? = some children)
    (htag : v.tag? = some '(') :
    ∃ members, type = .tuple members ∧ List.Forall₂ HasType children members := by
  cases htyped with
  | tuple parts hparts =>
      obtain rfl := Option.some.inj hchildren
      refine ⟨_, rfl, ?_⟩
      rw [List.forall₂_map_left_iff, List.forall₂_map_right_iff, List.forall₂_same]
      exact hparts
  | boolean | integer | double | text => simp [Variant.children?] at hchildren
  | _ => simp [tag?, typeLetters] at htag

theorem exists_dictEntry {key value : Variant} (htyped : HasType v type)
    (hchildren : v.children? = some [key, value]) (htag : v.tag? = some '{') :
    ∃ keyType valueType, type = .dictEntry keyType valueType ∧ HasType key keyType ∧
      HasType value valueType := by
  cases htyped with
  | entry hkey hvalue =>
      obtain ⟨rfl, rfl⟩ : _ ∧ _ := by simpa [Variant.children?] using hchildren
      exact ⟨_, _, rfl, hkey, hvalue⟩
  | boolean | integer | double | text => simp [Variant.children?] at hchildren
  | _ => simp [tag?, typeLetters] at htag

/-! ## Tests of containers -/

/-- The elements of an array have one type, so one of them answers for all. -/
theorem decides_array (htyped : HasType v (.array element))
    (hnesting : ((SigType.array element).nesting : Int) ≤ maxDepthLimit)
    (hchildren : ∀ child ∈ children, HasType child element) (hne : children ≠ [])
    (hpattern : Signature.IsPattern pattern) (hwhole : Signature.IsPattern ("a" ++ pattern)) :
    Decides (v.isOfType (.text ("a" ++ pattern))) (∀ child ∈ children, child.Satisfies pattern) ∧
      Decides (v.isOfType (.text ("a" ++ pattern))) (∃ child ∈ children, child.Satisfies pattern) := by
  obtain ⟨shape, hparse⟩ := hpattern
  obtain ⟨hadmits, hletters⟩ := Signature.parsePattern_eq_ok_iff.mp hparse
  have harray := hwhole.parsePattern (.array hadmits.wellFormed)
    (by rw [SigType.letters, ← hletters, String.toList_append]; rfl)
  have hdecides := decides_isOfType htyped hnesting harray
  rw [SigType.covers] at hdecides
  have hsatisfies : ∀ child ∈ children, (child.Satisfies pattern ↔ shape.covers element = true) := by
    intro child hchild
    rw [SigType.nesting] at hnesting
    exact satisfies_iff (hchildren child hchild) (by omega) hparse
  -- An element is needed: without any, the type alone would decide, and all of none are covered.
  obtain ⟨first, hfirst⟩ := List.exists_mem_of_ne_nil children hne
  constructor
  · apply hdecides.congr
    exact ⟨fun hcovers child hchild => (hsatisfies child hchild).mpr hcovers,
      fun hall => (hsatisfies first hfirst).mp (hall first hfirst)⟩
  · apply hdecides.congr
    constructor
    · exact fun hcovers => ⟨first, hfirst, (hsatisfies first hfirst).mpr hcovers⟩
    · rintro ⟨child, hchild, hsome⟩
      exact (hsatisfies child hchild).mp hsome

theorem decides_maybe {child : Variant} (htyped : HasType v (.maybe element))
    (hnesting : ((SigType.maybe element).nesting : Int) ≤ maxDepthLimit)
    (hchild : HasType child element)
    (hpattern : Signature.IsPattern pattern) (hwhole : Signature.IsPattern ("m" ++ pattern)) :
    Decides (v.isOfType (.text ("m" ++ pattern))) (child.Satisfies pattern) := by
  obtain ⟨shape, hparse⟩ := hpattern
  obtain ⟨hadmits, hletters⟩ := Signature.parsePattern_eq_ok_iff.mp hparse
  have hmaybe := hwhole.parsePattern (.maybe hadmits.wellFormed)
    (by rw [SigType.letters, ← hletters, String.toList_append]; rfl)
  have hdecides := decides_isOfType htyped hnesting hmaybe
  rw [SigType.covers] at hdecides
  rw [SigType.nesting] at hnesting
  exact hdecides.congr (satisfies_iff hchild (by omega) hparse).symm

/-- The members of a tuple are compared with the patterns one by one. -/
theorem forall₂_satisfies_iff {members shapes : List SigType}
    (hchildren : List.Forall₂ HasType children members)
    (hnesting : ∀ member ∈ members, (member.nesting : Int) ≤ maxDepthLimit)
    (hshapes : ∀ shape ∈ shapes, shape.WellFormed true ∧ (shape.nesting : Int) ≤ maxDepthLimit) :
    List.Forall₂ Satisfies children (shapes.map SigType.text) ↔
      SigType.coversAll shapes members = true := by
  induction hchildren generalizing shapes with
  | nil => cases shapes <;> simp [SigType.coversAll]
  | cons hchild _ ih =>
      obtain ⟨hfirst, hrest⟩ := List.forall_mem_cons.mp hnesting
      cases shapes with
      | nil => simp [SigType.coversAll]
      | cons shape others =>
          obtain ⟨⟨hwf, hshape⟩, hothers⟩ := List.forall_mem_cons.mp hshapes
          rw [List.map_cons, List.forall₂_cons, ih hrest hothers, SigType.coversAll,
            Bool.and_eq_true, satisfies_iff hchild hfirst (Signature.parsePattern_text hwf hshape)]

theorem decides_tuple {members : List SigType} {patterns : List String}
    (htyped : HasType v (.tuple members))
    (hnesting : ((SigType.tuple members).nesting : Int) ≤ maxDepthLimit)
    (hchildren : List.Forall₂ HasType children members)
    (hpatterns : ∀ pattern ∈ patterns, Signature.IsPattern pattern)
    (hwhole : Signature.IsPattern ("(" ++ String.join patterns ++ ")")) :
    Decides (v.isOfType (.text ("(" ++ String.join patterns ++ ")")))
      (List.Forall₂ Satisfies children patterns) := by
  obtain ⟨shapes, rfl, hshapes⟩ : ∃ shapes : List SigType, patterns = shapes.map SigType.text ∧
      ∀ shape ∈ shapes, shape.WellFormed true ∧ (shape.nesting : Int) ≤ maxDepthLimit := by
    apply exists_eq_map
    intro pattern hpattern
    obtain ⟨shape, hparse⟩ := hpatterns pattern hpattern
    obtain ⟨hadmits, hletters⟩ := Signature.parsePattern_eq_ok_iff.mp hparse
    exact ⟨shape, Signature.admits_zero_iff.mp hadmits,
      (Signature.text_eq_of_toList_eq hletters).symm⟩
  have hletters : ("(" ++ String.join (shapes.map SigType.text) ++ ")").toList =
      (SigType.tuple shapes).letters := by
    rw [String.toList_append, String.toList_append, ← SigType.sequenceText,
      SigType.toList_sequenceText]
    rfl
  have htuple := hwhole.parsePattern (.tuple fun shape hshape => (hshapes shape hshape).1) hletters
  have hdecides := decides_isOfType htyped hnesting htuple
  rw [SigType.covers] at hdecides
  refine hdecides.congr (forall₂_satisfies_iff hchildren (fun member hmember => ?_) hshapes).symm
  have hbelow := SigType.nesting_lt_nestingBelow hmember
  rw [SigType.nesting] at hnesting
  omega

theorem decides_dictEntry {key value : Variant} {keyType valueType : SigType} {keyPattern : String}
    (htyped : HasType v (.dictEntry keyType valueType))
    (hnesting : ((SigType.dictEntry keyType valueType).nesting : Int) ≤ maxDepthLimit)
    (hkey : HasType key keyType) (hvalue : HasType value valueType)
    (hkeyPattern : Signature.IsKeyPattern keyPattern) (hpattern : Signature.IsPattern pattern)
    (hwhole : Signature.IsPattern ("\x7b" ++ keyPattern ++ pattern ++ "\x7d")) :
    Decides (v.isOfType (.text ("\x7b" ++ keyPattern ++ pattern ++ "\x7d")))
      (key.Satisfies keyPattern ∧ value.Satisfies pattern) := by
  obtain ⟨shape, hparse⟩ := hpattern
  obtain ⟨hadmits, hletters⟩ := Signature.parsePattern_eq_ok_iff.mp hparse
  obtain ⟨keyShape, hwf, hbasic, hflat, rfl⟩ := hkeyPattern.exists_shape
  have hkeyParse := Signature.parsePattern_text hwf (by rw [hflat]; decide : _ ≤ maxDepthLimit)
  have hentry := hwhole.parsePattern (.dictEntry hbasic hwf hadmits.wellFormed)
    (by simp [SigType.letters, ← hletters, SigType.toList_text])
  have hdecides := decides_isOfType htyped hnesting hentry
  rw [SigType.covers, Bool.and_eq_true] at hdecides
  rw [SigType.nesting] at hnesting
  apply hdecides.congr
  rw [satisfies_iff hkey (by omega) hkeyParse, satisfies_iff hvalue (by omega) hparse]

/-- Whatever is in a box, it is of the type of boxes, and of no other. -/
theorem decides_box (htyped : HasType v .variant) (hpattern : Signature.IsPattern pattern) :
    Decides (v.isOfType (.text pattern)) (pattern = "v" ∨ pattern = "*") := by
  obtain ⟨shape, hparse⟩ := hpattern
  obtain ⟨hadmits, hletters⟩ := Signature.parsePattern_eq_ok_iff.mp hparse
  have hdecides := decides_isOfType htyped (by decide) hparse
  apply hdecides.congr
  rw [SigType.covered_variant_iff hadmits.wellFormed, ← Signature.text_eq_of_toList_eq hletters]
  have hwf := hadmits.wellFormed
  have hany : (SigType.wildcard .anyType).WellFormed true := .wildcard rfl
  apply or_congr
  · exact ⟨fun h => h ▸ rfl, SigType.text_inj hwf .variant⟩
  · exact ⟨fun h => h ▸ rfl, SigType.text_inj hwf hany⟩

/-- Whether a container is of a type is decided by its children. For built variants and patterns
that nest within the greatest depth, each test is answered. A pattern behind the letter of arrays
covers an array with elements exactly if the pattern covers all of them, which is exactly if it
covers one of them; behind that of maybes it covers a maybe whose child it covers. Patterns between
the brackets of tuples cover a tuple with as many children, each of which is covered by the pattern
at its place, and so for the key and value of an entry. A box is of the type of boxes, whatever is
in it. -/
theorem type_tests_follow_children {v : Variant} (hbuilt : Built v)
    (hreadable : v.HasReadableType) :
    (∀ children pattern, v.tag? = some 'a' → v.ShowsChildren children → children ≠ [] →
      Signature.IsPattern pattern → Signature.IsPattern ("a" ++ pattern) →
        Decides (v.isOfType (.text ("a" ++ pattern))) (∀ child ∈ children, child.Satisfies pattern) ∧
        Decides (v.isOfType (.text ("a" ++ pattern)))
          (∃ child ∈ children, child.Satisfies pattern)) ∧
    (∀ child pattern, v.tag? = some 'm' → v.ShowsChildren [child] →
      Signature.IsPattern pattern → Signature.IsPattern ("m" ++ pattern) →
        Decides (v.isOfType (.text ("m" ++ pattern))) (child.Satisfies pattern)) ∧
    (∀ children patterns, v.tag? = some '(' → v.ShowsChildren children →
      (∀ pattern ∈ patterns, Signature.IsPattern pattern) →
      Signature.IsPattern ("(" ++ String.join patterns ++ ")") →
        Decides (v.isOfType (.text ("(" ++ String.join patterns ++ ")")))
          (List.Forall₂ Satisfies children patterns)) ∧
    (∀ key value keyPattern pattern, v.tag? = some '{' → v.ShowsChildren [key, value] →
      Signature.IsKeyPattern keyPattern → Signature.IsPattern pattern →
      Signature.IsPattern ("\x7b" ++ keyPattern ++ pattern ++ "\x7d") →
        Decides (v.isOfType (.text ("\x7b" ++ keyPattern ++ pattern ++ "\x7d")))
          (key.Satisfies keyPattern ∧ value.Satisfies pattern)) ∧
    (∀ children pattern, v.tag? = some 'v' → v.ShowsChildren children →
      Signature.IsPattern pattern →
        Decides (v.isOfType (.text pattern)) (pattern = "v" ∨ pattern = "*")) := by
  obtain ⟨type, htyped⟩ := hbuilt.isTyped
  have hnesting := (hasReadableType_iff htyped.wellFormed htyped.typeLetters).mp hreadable
  refine ⟨?_, ?_, ?_, ?_, ?_⟩
  · intro children pattern htag hshows hne hpattern hwhole
    obtain ⟨element, rfl, hchildren⟩ :=
      exists_array htyped (children?_of_showsChildren htyped hshows) htag
    exact decides_array htyped hnesting hchildren hne hpattern hwhole
  · intro child pattern htag hshows hpattern hwhole
    obtain ⟨element, rfl, hchildren⟩ :=
      exists_maybe htyped (children?_of_showsChildren htyped hshows) htag
    exact decides_maybe htyped hnesting (hchildren child List.mem_cons_self) hpattern hwhole
  · intro children patterns htag hshows hpatterns hwhole
    obtain ⟨members, rfl, hchildren⟩ :=
      exists_tuple htyped (children?_of_showsChildren htyped hshows) htag
    exact decides_tuple htyped hnesting hchildren hpatterns hwhole
  · intro key value keyPattern pattern htag hshows hkeyPattern hpattern hwhole
    obtain ⟨keyType, valueType, rfl, hkey, hvalue⟩ :=
      exists_dictEntry htyped (children?_of_showsChildren htyped hshows) htag
    exact decides_dictEntry htyped hnesting hkey hvalue hkeyPattern hpattern hwhole
  · intro children pattern htag hshows hpattern
    obtain rfl := type_eq_variant htyped (children?_of_showsChildren htyped hshows) htag
    exact decides_box htyped hpattern

/-- An array of one tuple is tested by the pattern for arrays of tuples as its element is by that
for tuples. -/
theorem type_tests_follow_children_tuples :
    ∃ child v : Variant, child = tuple [integer .int32 1, text .string "a"] ∧ v = array "(is)" [child] ∧
      Built v ∧ v.HasReadableType ∧
      Decides (v.isOfType (.text "ar")) (∀ member ∈ [child], member.Satisfies "r") := by
  have hnumber : Built (integer .int32 1) := @Built.basic (.integer .int32) (.int 1) _ (by rfl)
  have htext : Built (text .string "a") := @Built.basic (.text .string) (.text "a") _ (by rfl)
  have hchild : Built (tuple [integer .int32 1, text .string "a"]) := by
    refine @Built.tuple (.list [.variant (integer .int32 1), .variant (text .string "a")]) _ ?_
      (by rfl)
    simpa [Native.variants, Native.variantsAll] using ⟨hnumber, htext⟩
  have hbuilt : Built (array "(is)" [tuple [integer .int32 1, text .string "a"]]) := by
    refine @Built.array none (.list [.variant (tuple [integer .int32 1, text .string "a"])]) _
      (by simp) ?_ (by rfl)
    simpa [Native.variants, Native.variantsAll] using hchild
  have hreadable : (array "(is)" [tuple [integer .int32 1, text .string "a"]]).HasReadableType :=
    ⟨_, by rfl⟩
  exact ⟨_, _, rfl, rfl, hbuilt, hreadable,
    ((type_tests_follow_children hbuilt hreadable).1 _ "r" (by rfl) (showsChildren_of_children? rfl)
      (by simp) ⟨_, by rfl⟩ ⟨_, by rfl⟩).1⟩

end Variant

end TypedVariant
