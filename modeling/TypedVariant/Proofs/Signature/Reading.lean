import TypedVariant.Proofs.Signature.Grammar
import TypedVariant.Signature.Parse
import Mathlib.Tactic.SplitIfs

/-!
# What reading accepts

Reading takes a type from the front of a text exactly when the text begins with
the letters of a well-formed type that nests within the limit. One direction
follows a type through the reader, whatever containers are open around it. The
other follows the reader through a text: the letters of the open containers and
the text that is left are together always the whole text.
-/

namespace TypedVariant.Signature

open SigType

/-- A type that a reading may end with: it can be spelled, nests within the limit, and is basic
where only basic types may stand. -/
structure Admits (rules : Rules) (depth : Int) (simple : Bool) (type : SigType) : Prop where
  wellFormed : type.WellFormed rules.wildcards
  fits : depth + type.nesting ≤ rules.maxDepth
  isBasic : simple = true → type.isBasic = true

variable {rules : Rules} {depth : Int} {simple : Bool}

/-! ## Admitted types and their parts -/

theorem Admits.depth_le {type : SigType} (h : Admits rules depth simple type) :
    depth ≤ rules.maxDepth := by
  have := h.fits
  omega

/-- A type that fits where it lies also fits as an outermost one. -/
theorem Admits.nesting_le {type : SigType} (h : Admits rules depth simple type) {limit : Int}
    (hlimit : rules.maxDepth ≤ limit) (hdepth : 0 ≤ depth) : (type.nesting : Int) ≤ limit := by
  have := h.fits
  omega

theorem admits_zero_iff {wildcards : Bool} {maxDepth : Int} {type : SigType} :
    Admits ⟨wildcards, maxDepth⟩ 0 false type ↔
      type.WellFormed wildcards ∧ (type.nesting : Int) ≤ maxDepth :=
  ⟨fun h => ⟨h.wellFormed, by simpa using h.fits⟩,
    fun h => ⟨h.1, by simpa using h.2, by simp⟩⟩

theorem admits_basic_iff {code : BasicCode} :
    Admits rules depth simple (.basic code) ↔ depth ≤ rules.maxDepth :=
  ⟨fun h => by simpa [nesting] using h.fits,
    fun h => ⟨.basic code, by simpa [nesting] using h, fun _ => rfl⟩⟩

theorem admits_variant_iff :
    Admits rules depth simple .variant ↔ simple = false ∧ depth ≤ rules.maxDepth :=
  ⟨fun h => ⟨by simpa [SigType.isBasic] using h.isBasic, by simpa [nesting] using h.fits⟩,
    fun h => ⟨.variant, by simpa [nesting] using h.2, by simp [h.1]⟩⟩

theorem admits_maybe_iff {element : SigType} :
    Admits rules depth simple (.maybe element) ↔
      simple = false ∧ Admits rules (depth + 1) false element := by
  constructor
  · rintro ⟨⟨⟩, hfits, hbasic⟩
    rw [nesting] at hfits
    exact ⟨by simpa [SigType.isBasic] using hbasic, by assumption, by omega, by simp⟩
  · rintro ⟨rfl, hwf, hfits, -⟩
    exact ⟨.maybe hwf, by rw [nesting]; omega, by simp⟩

theorem admits_array_iff {element : SigType} :
    Admits rules depth simple (.array element) ↔
      simple = false ∧ Admits rules (depth + 1) false element := by
  constructor
  · rintro ⟨⟨⟩, hfits, hbasic⟩
    rw [nesting] at hfits
    exact ⟨by simpa [SigType.isBasic] using hbasic, by assumption, by omega, by simp⟩
  · rintro ⟨rfl, hwf, hfits, -⟩
    exact ⟨.array hwf, by rw [nesting]; omega, by simp⟩

theorem admits_tuple_iff {members : List SigType} :
    Admits rules depth simple (.tuple members) ↔
      simple = false ∧ depth ≤ rules.maxDepth ∧
        ∀ member ∈ members, Admits rules (depth + 1) false member := by
  constructor
  · rintro ⟨⟨⟩, hfits, hbasic⟩
    next hmembers =>
      rw [nesting] at hfits
      refine ⟨by simpa [SigType.isBasic] using hbasic, by omega, fun member hmember => ?_⟩
      have hbelow := nesting_lt_nestingBelow hmember
      exact ⟨hmembers member hmember, by omega, by simp⟩
  · rintro ⟨rfl, hfits, hmembers⟩
    refine ⟨.tuple fun member hmember => (hmembers member hmember).wellFormed, ?_, by simp⟩
    have hbelow : nestingBelow members ≤ (rules.maxDepth - depth).toNat := by
      rw [nestingBelow_le_iff]
      intro member hmember
      have := (hmembers member hmember).fits
      omega
    rw [nesting]
    omega

theorem admits_dictEntry_iff {key value : SigType} :
    Admits rules depth simple (.dictEntry key value) ↔
      simple = false ∧ Admits rules (depth + 1) true key ∧
        Admits rules (depth + 1) false value := by
  constructor
  · rintro ⟨⟨⟩, hfits, hbasic⟩
    next hkeyBasic hkey hvalue =>
      rw [nesting] at hfits
      exact ⟨by simpa [SigType.isBasic] using hbasic,
        ⟨hkey, by omega, fun _ => hkeyBasic⟩, ⟨hvalue, by omega, by simp⟩⟩
  · rintro ⟨rfl, ⟨hkey, hkeyFits, hkeyBasic⟩, hvalue, hvalueFits, -⟩
    exact ⟨.dictEntry (hkeyBasic rfl) hkey hvalue, by rw [nesting]; omega, by simp⟩

/-! ## From types to readings -/

/-- Reading on behind a type that has just been completed inside the given containers. -/
def readBehind (rules : Rules) (depth : Int) (simple : Bool) (type : SigType) :
    List Open → List Char → Outcome SigType
  | [], rest => (.ok type, rest)
  | .maybe :: outer, rest => readBehind rules depth simple (.maybe type) outer rest
  | .array :: outer, rest => readBehind rules depth simple (.array type) outer rest
  | .tuple earlier :: outer, rest =>
      readWithin rules depth simple (.type (.tuple (type :: earlier) :: outer)) rest
  | .key :: outer, rest => readWithin rules depth simple (.type (.value type :: outer)) rest
  | .value key :: outer, rest => readWithin rules depth simple (.close key type outer) rest

/-- A letter that completes a type is read by handing the type on. -/
theorem readWithin_of_step_eq_plug {awaiting : Awaiting} {c : Char} {type : SigType}
    {within : List Open} (rest : List Char)
    (hstep : step rules depth simple awaiting c = plug type within) :
    readWithin rules depth simple awaiting (c :: rest) =
      readBehind rules depth simple type within rest := by
  rw [readWithin, hstep]
  clear hstep
  induction within generalizing type with
  | nil => rfl
  | cons container outer ih =>
      cases container with
      | maybe | array => exact ih
      | tuple earlier | key | value key => rfl

theorem step_of_ne_close {within : List Open} {c : Char} (hne : c ≠ ')') :
    step rules depth simple (.type within) c = stepType rules depth simple within c := by
  rcases within with _ | ⟨_ | _ | _ | _ | _, outer⟩ <;> simp [step, hne]

theorem leaf?_letter (code : BasicCode) (wildcards : Bool) :
    leaf? wildcards code.letter = some (.basic code) := by
  simp [leaf?, BasicCode.ofLetter?_letter]

/-- No letter that begins a container stands for a type of its own. -/
theorem leaf?_eq_none_of_opening? {wildcards : Bool} {c : Char} {container : Open}
    (hopening : opening? c = some container) : leaf? wildcards c = none := by
  unfold opening? at hopening
  split at hopening <;> cases hopening
  all_goals simp [leaf?, BasicCode.ofLetter?]

/-- A letter that begins a container opens it, unless it lies too deep or a basic type is wanted. -/
theorem readWithin_opening {within : List Open} {c : Char} {container : Open} (rest : List Char)
    (hfits : depth + within.length ≤ rules.maxDepth) (hsimple : simpleOnly simple within = false)
    (hopening : opening? c = some container) :
    readWithin rules depth simple (.type within) (c :: rest) =
      readWithin rules depth simple (.type (container :: within)) rest := by
  have hne : c ≠ ')' := by
    rintro rfl
    simp [opening?] at hopening
  have hstep : step rules depth simple (.type within) c = .more (.type (container :: within)) := by
    rw [step_of_ne_close hne, stepType, if_neg (by omega), leaf?_eq_none_of_opening? hopening]
    simp [hsimple, hopening]
  rw [readWithin, hstep]

/-- A letter that stands for a type completes it at once. -/
theorem readWithin_leaf {within : List Open} {c : Char} {type : SigType} (rest : List Char)
    (hfits : depth + within.length ≤ rules.maxDepth)
    (hsimple : simpleOnly simple within = true → type.isBasic = true)
    (hleaf : leaf? rules.wildcards c = some type) :
    readWithin rules depth simple (.type within) (c :: rest) =
      readBehind rules depth simple type within rest := by
  have hne : c ≠ ')' := by
    rintro rfl
    simp [leaf?, BasicCode.ofLetter?] at hleaf
  apply readWithin_of_step_eq_plug
  rw [step_of_ne_close hne, stepType, if_neg (by omega), hleaf]
  cases hbasic : type.isBasic <;> simp_all

/-- Reading the letters of a type completes it, whatever containers are open around it and
whatever follows. -/
def ReadsThrough (rules : Rules) (depth : Int) (simple : Bool) (type : SigType) : Prop :=
  ∀ (within : List Open) (rest : List Char),
    depth + within.length + type.nesting ≤ rules.maxDepth →
    (simpleOnly simple within = true → type.isBasic = true) →
    readWithin rules depth simple (.type within) (type.letters ++ rest) =
      readBehind rules depth simple type within rest

/-- Members that are read one by one make the tuple, together with those read before them. -/
theorem readWithin_members {members : List SigType}
    (hreads : ∀ member ∈ members, ReadsThrough rules depth simple member)
    (earlier : List SigType) (outer : List Open) (rest : List Char)
    (hfits : depth + outer.length + nestingBelow members ≤ rules.maxDepth) :
    readWithin rules depth simple (.type (.tuple earlier :: outer))
        (lettersAll members ++ ')' :: rest) =
      readBehind rules depth simple (.tuple (earlier.reverse ++ members)) outer rest := by
  -- Each member that is read moves from the text to the open tuple.
  induction members generalizing earlier with
  | nil =>
      rw [List.append_nil]
      exact readWithin_of_step_eq_plug rest (by simp [step])
  | cons member others ih =>
      have hmember := hreads member List.mem_cons_self
      simp only [nestingBelow] at hfits
      rw [lettersAll, List.append_assoc, hmember _ _ _ (by simp [simpleOnly]), readBehind,
        ih (fun other hother => hreads other (List.mem_cons_of_mem _ hother)) _ (by omega)]
      · simp
      · rw [List.length_cons]
        omega

/-- Every well-formed type is read through. The induction is on the type; the open containers
change from a type to its parts. -/
theorem readsThrough_of_wellFormed {type : SigType} (hwf : type.WellFormed rules.wildcards) :
    ReadsThrough rules depth simple type := by
  induction hwf with
  | basic code =>
      intro within rest hfits hsimple
      exact readWithin_leaf rest (by omega) hsimple (leaf?_letter code _)
  | variant =>
      intro within rest hfits hsimple
      exact readWithin_leaf rest (by omega) hsimple (by simp [leaf?, BasicCode.ofLetter?])
  | @wildcard kind hallowed =>
      intro within rest hfits hsimple
      refine readWithin_leaf rest (by omega) hsimple ?_
      cases kind <;> simp [leaf?, BasicCode.ofLetter?, Wildcard.letter, hallowed]
  | @maybe element _ ih =>
      intro within rest hfits hsimple
      simp only [nesting] at hfits
      rw [letters, List.cons_append,
        readWithin_opening _ (by omega) (by simpa [SigType.isBasic] using hsimple) rfl,
        ih _ _ (by rw [List.length_cons]; omega) (by simp [simpleOnly]), readBehind]
  | @array element _ ih =>
      intro within rest hfits hsimple
      simp only [nesting] at hfits
      rw [letters, List.cons_append,
        readWithin_opening _ (by omega) (by simpa [SigType.isBasic] using hsimple) rfl,
        ih _ _ (by rw [List.length_cons]; omega) (by simp [simpleOnly]), readBehind]
  | @tuple members _ ih =>
      intro within rest hfits hsimple
      simp only [nesting] at hfits
      rw [letters, List.cons_append, List.append_assoc,
        readWithin_opening _ (by omega) (by simpa [SigType.isBasic] using hsimple) rfl]
      exact readWithin_members ih [] within rest hfits
  | @dictEntry key value hbasic _ _ ihkey ihvalue =>
      intro within rest hfits hsimple
      simp only [nesting] at hfits
      rw [letters, List.cons_append,
        readWithin_opening _ (by omega) (by simpa [SigType.isBasic] using hsimple) rfl,
        List.append_assoc, List.append_assoc,
        ihkey _ _ (by rw [List.length_cons]; omega) (fun _ => hbasic), readBehind,
        ihvalue _ _ (by rw [List.length_cons]; omega) (by simp [simpleOnly]), readBehind]
      exact readWithin_of_step_eq_plug rest (by simp [step])

/-- An admitted type is read off the front of its letters. -/
theorem readOne_letters {type : SigType} (hadmits : Admits rules depth simple type)
    (rest : List Char) :
    readOne rules depth simple (type.letters ++ rest) = (.ok type, rest) :=
  readsThrough_of_wellFormed hadmits.wellFormed [] rest (by simpa using hadmits.fits)
    hadmits.isBasic

/-! ## From readings to types -/

/-- The types that an open container has collected. -/
def Open.types : Open → List SigType
  | .maybe | .array | .key => []
  | .tuple earlier => earlier
  | .value found => [found]

/-- The letters of an open container that have been read. -/
def Open.letters : Open → List Char
  | .maybe => ['m']
  | .array => ['a']
  | .tuple earlier => '(' :: lettersAll earlier.reverse
  | .key => ['{']
  | .value found => '{' :: found.letters

/-- Whether a container has collected a key, which has to be basic. -/
def Open.holdsKey : Open → Bool
  | .value _ => true
  | .maybe | .array | .tuple _ | .key => false

/-- The letters that have been read of all open containers. -/
def lettersWithin : List Open → List Char
  | [] => []
  | container :: outer => lettersWithin outer ++ container.letters

/-- The letters that have been read when something is awaited. -/
def Awaiting.letters : Awaiting → List Char
  | .type within => lettersWithin within
  | .close key value outer => lettersWithin (.value key :: outer) ++ value.letters

/-- Each open container stands where a container may stand, within the limit, and the types it has
collected are admitted inside it. -/
def OpenSound (rules : Rules) (depth : Int) (simple : Bool) : List Open → Prop
  | [] => True
  | container :: outer =>
      simpleOnly simple outer = false ∧ depth + outer.length ≤ rules.maxDepth ∧
        (∀ type ∈ container.types,
          Admits rules (depth + outer.length + 1) container.holdsKey type) ∧
        OpenSound rules depth simple outer

/-- The invariant of a reading. -/
def Awaiting.Sound (rules : Rules) (depth : Int) (simple : Bool) : Awaiting → Prop
  | .type within => OpenSound rules depth simple within
  | .close key value outer =>
      OpenSound rules depth simple (.value key :: outer) ∧
        Admits rules (depth + outer.length + 1) false value

/-- What a step may lead to once the given letters have been read. -/
def Step.Sound (rules : Rules) (depth : Int) (simple : Bool) (text : List Char) : Step → Prop
  | .done type => Admits rules depth simple type ∧ type.letters = text
  | .more next => next.Sound rules depth simple ∧ next.letters = text
  | .refuseLetter _ | .refuseBefore _ => True

/-- Handing on a type that is admitted inside the open containers keeps the invariant. -/
theorem plug_sound {within : List Open} {type : SigType}
    (hopen : OpenSound rules depth simple within)
    (hadmits : Admits rules (depth + within.length) (simpleOnly simple within) type) :
    (plug type within).Sound rules depth simple (lettersWithin within ++ type.letters) := by
  -- A maybe or an array is complete with its element, and is handed on in turn.
  induction within generalizing type with
  | nil => exact ⟨by simpa [simpleOnly] using hadmits, rfl⟩
  | cons container outer ih =>
      have hplace := hopen.1
      have houter := hopen.2.2.2
      rw [List.length_cons, Int.natCast_succ, ← Int.add_assoc] at hadmits
      cases container with
      | maybe =>
          have h := ih houter (admits_maybe_iff.mpr ⟨hplace, hadmits⟩)
          simpa [plug, lettersWithin, Open.letters, SigType.letters] using h
      | array =>
          have h := ih houter (admits_array_iff.mpr ⟨hplace, hadmits⟩)
          simpa [plug, lettersWithin, Open.letters, SigType.letters] using h
      | tuple earlier =>
          refine ⟨⟨hplace, hopen.2.1, ?_, houter⟩, ?_⟩
          · intro member hmember
            rcases List.mem_cons.mp hmember with rfl | hearlier
            · exact hadmits
            · exact hopen.2.2.1 member hearlier
          · simp [Awaiting.letters, lettersWithin, Open.letters, lettersAll_append, lettersAll]
      | key =>
          refine ⟨⟨hplace, hopen.2.1, ?_, houter⟩, ?_⟩
          · intro key hkey
            obtain rfl := List.mem_singleton.mp hkey
            exact hadmits
          · simp [Awaiting.letters, lettersWithin, Open.letters]
      | value key => exact ⟨⟨hopen, hadmits⟩, rfl⟩

/-- What a letter may open where it opens something. -/
theorem opening?_eq_some {c : Char} {container : Open} (hopening : opening? c = some container) :
    container.types = [] ∧ container.letters = [c] := by
  unfold opening? at hopening
  split at hopening <;> simp only [Option.some.injEq, reduceCtorEq] at hopening <;>
    subst hopening <;> exact ⟨rfl, rfl⟩

theorem leaf?_eq_some {wildcards : Bool} {c : Char} {type : SigType}
    (hleaf : leaf? wildcards c = some type) :
    type.WellFormed wildcards ∧ type.nesting = 0 ∧ type.letters = [c] := by
  have hwildcard {kind : Wildcard} (h : (wildcards && c == kind.letter) = true) :
      (SigType.wildcard kind).WellFormed wildcards ∧ (SigType.wildcard kind).nesting = 0 ∧
        (SigType.wildcard kind).letters = [c] := by
    rw [Bool.and_eq_true, beq_iff_eq] at h
    exact ⟨.wildcard h.1, rfl, by rw [letters, h.2]⟩
  unfold leaf? at hleaf
  split at hleaf
  next code hcode =>
    obtain rfl := Option.some.inj hleaf
    exact ⟨.basic code, rfl, by rw [letters, BasicCode.letter_of_ofLetter? hcode]⟩
  next =>
    split_ifs at hleaf with hvariant hbasic htype htuple
    · obtain rfl := Option.some.inj hleaf
      exact ⟨.variant, rfl, by rw [letters, hvariant]⟩
    · obtain rfl := Option.some.inj hleaf
      exact hwildcard hbasic
    · obtain rfl := Option.some.inj hleaf
      exact hwildcard htype
    · obtain rfl := Option.some.inj hleaf
      exact hwildcard htuple

/-- A letter read where a type may begin keeps the invariant, or is refused. -/
theorem stepType_sound {within : List Open} (hopen : OpenSound rules depth simple within)
    (c : Char) :
    (stepType rules depth simple within c).Sound rules depth simple
      (lettersWithin within ++ [c]) := by
  unfold stepType
  split
  next => trivial
  next hdeep =>
    split
    next type hleaf =>
      obtain ⟨hwf, hnesting, hletters⟩ := leaf?_eq_some hleaf
      split
      next => trivial
      next hrefused =>
        rw [← hletters]
        refine plug_sound hopen ⟨hwf, by omega, ?_⟩
        intro hsimple
        simpa [hsimple] using hrefused
    next =>
      split
      next => trivial
      next hplace =>
        split
        next container hopening =>
          obtain ⟨htypes, hletters⟩ := opening?_eq_some hopening
          refine ⟨⟨by simpa using hplace, by omega, ?_, hopen⟩, ?_⟩
          · simp [htypes]
          · rw [Awaiting.letters, lettersWithin, hletters]
        next => trivial

/-- Every letter keeps the invariant, or is refused. -/
theorem step_sound {awaiting : Awaiting} (hsound : awaiting.Sound rules depth simple) (c : Char) :
    (step rules depth simple awaiting c).Sound rules depth simple (awaiting.letters ++ [c]) := by
  unfold step
  split
  next key value outer =>
    obtain ⟨⟨hplace, -, hkeys, houter⟩, hvalue⟩ := hsound
    have hkey := hkeys key (List.mem_singleton.mpr rfl)
    split
    next hc =>
      have h := plug_sound houter (admits_dictEntry_iff.mpr ⟨hplace, hkey, hvalue⟩)
      simpa [hc, Awaiting.letters, lettersWithin, Open.letters, SigType.letters] using h
    next => trivial
  next earlier outer =>
    split
    next hc =>
      obtain ⟨hplace, hfits, hmembers, houter⟩ := hsound
      have hreversed : ∀ member ∈ earlier.reverse,
          Admits rules (depth + outer.length + 1) false member :=
        fun member hmember => hmembers member (List.mem_reverse.mp hmember)
      have h := plug_sound houter (admits_tuple_iff.mpr ⟨hplace, hfits, hreversed⟩)
      simpa [hc, Awaiting.letters, lettersWithin, Open.letters, SigType.letters] using h
    next => exact stepType_sound hsound c
  next => exact stepType_sound hsound c

/-- What a reading takes from the text, behind the letters read before, is an admitted type. -/
theorem readWithin_sound {awaiting : Awaiting} (hsound : awaiting.Sound rules depth simple)
    {text rest : List Char} {type : SigType}
    (hread : readWithin rules depth simple awaiting text = (.ok type, rest)) :
    Admits rules depth simple type ∧ awaiting.letters ++ text = type.letters ++ rest := by
  induction text generalizing awaiting with
  | nil => simp [readWithin] at hread
  | cons c left ih =>
      have hstep := step_sound hsound c
      rw [readWithin] at hread
      cases h : step rules depth simple awaiting c with
      | done found =>
          rw [h] at hread hstep
          obtain ⟨rfl, rfl⟩ : found = type ∧ left = rest := by simpa using hread
          refine ⟨hstep.1, ?_⟩
          rw [hstep.2, List.append_assoc, List.singleton_append]
      | more next =>
          rw [h] at hread hstep
          obtain ⟨hadmits, htext⟩ := ih hstep.1 hread
          refine ⟨hadmits, ?_⟩
          rw [← htext, hstep.2, List.append_assoc, List.singleton_append]
      | refuseLetter fault | refuseBefore refusal =>
          rw [h] at hread
          simp at hread

/-- Reading takes exactly the admitted types from the front of a text. -/
theorem readOne_eq_ok_iff {text rest : List Char} {type : SigType} :
    readOne rules depth simple text = (.ok type, rest) ↔
      Admits rules depth simple type ∧ text = type.letters ++ rest := by
  constructor
  · intro hread
    exact readWithin_sound (show (Awaiting.type []).Sound _ _ _ from trivial) hread
  · rintro ⟨hadmits, rfl⟩
    exact readOne_letters hadmits rest

end TypedVariant.Signature
