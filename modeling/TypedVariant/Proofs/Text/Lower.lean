import Mathlib.Data.List.Forall2
import TypedVariant.Proofs.Text.Character
import TypedVariant.Text.Encoding
import TypedVariant.Text.Lower

/-!
# Lower case is lower case again

The lower case of a capital is a letter that no run of capitals holds, so that lowering text twice
is lowering it once. No letter becomes blank, and stripped text stays stripped. For all but two
capitals outside of ASCII the lower case lies outside of it too: the dotted capital I and the sign
of the Kelvin become letters of ASCII. Without these two, the lower case of a name has the same
words as the name.
-/

namespace TypedVariant.Text

/-! ## The runs of capitals -/

namespace CaseRun

/-- The code of the lower case of the first capital. -/
def lowerFirst (run : CaseRun) : Nat :=
  (run.first + run.offset).toNat

/-- The code of the lower case of the last capital. -/
def lowerLast (run : CaseRun) : Nat :=
  (run.last + run.offset).toNat

/-- The lower case of a character of the run. -/
def lowered (run : CaseRun) (c : Char) : Char :=
  Char.ofNat (c.toNat + run.offset).toNat

/-- The capitals follow each other directly or in every other place, and their lower case are
characters. -/
structure IsSound (run : CaseRun) : Prop where
  step : run.step = 1 ∨ run.step = 2
  ordered : run.first ≤ run.last
  positive : 0 < run.first + run.offset
  character : run.lowerLast < 0xD800 ∨ 0xDFFF < run.lowerFirst ∧ run.lowerLast < 0x110000

instance (run : CaseRun) : Decidable run.IsSound :=
  decidable_of_iff ((run.step = 1 ∨ run.step = 2) ∧ run.first ≤ run.last ∧
      0 < run.first + run.offset ∧
      (run.lowerLast < 0xD800 ∨ 0xDFFF < run.lowerFirst ∧ run.lowerLast < 0x110000))
    ⟨fun ⟨step, ordered, positive, character⟩ => ⟨step, ordered, positive, character⟩,
      fun h => ⟨h.step, h.ordered, h.positive, h.character⟩⟩

/-- No lower case of the one run is in the other: they lie apart, or both take every other place
and they do so in turn. -/
def avoids (run other : CaseRun) : Bool :=
  Nat.blt run.lowerLast other.first || Nat.blt other.last run.lowerFirst ||
    (Nat.beq other.step 2 && (Nat.beq run.step 2 || Nat.beq run.lowerFirst run.lowerLast) &&
      Nat.beq ((run.lowerFirst + other.first) % 2) 1)

variable {run other : CaseRun} {c : Char}

theorem contains_iff : run.contains c = true ↔
    (run.first ≤ c.toNat ∧ c.toNat ≤ run.last) ∧ (c.toNat - run.first) % run.step = 0 := by
  simp [contains]

theorem toNat_lowered (hsound : run.IsSound) (hc : run.contains c = true) :
    ((run.lowered c).toNat : Int) = c.toNat + run.offset := by
  obtain ⟨⟨hfirst, hlast⟩, -⟩ := contains_iff.mp hc
  have hpositive := hsound.positive
  have hvalid : (c.toNat + run.offset).toNat.isValidChar := by
    obtain hlow | ⟨hhigh, hmax⟩ := hsound.character
    · left
      simp only [lowerLast] at hlow
      omega
    · right
      simp only [lowerFirst, lowerLast] at hhigh hmax
      omega
  have hcode : (run.lowered c).toNat = (c.toNat + run.offset).toNat := by
    rw [lowered, Char.ofNat, dif_pos hvalid]
    rfl
  omega

theorem contains_lowered (hsound : run.IsSound) (hc : run.contains c = true)
    (havoids : run.avoids other = true) : other.contains (run.lowered c) = false := by
  have hcode := toNat_lowered hsound hc
  obtain ⟨⟨hfirst, hlast⟩, hplace⟩ := contains_iff.mp hc
  have hpositive := hsound.positive
  rw [Bool.eq_false_iff, Ne, contains_iff]
  rintro ⟨⟨hotherFirst, hotherLast⟩, hotherPlace⟩
  simp only [avoids, Nat.blt_eq, Nat.beq_eq, Bool.or_eq_true, Bool.and_eq_true, lowerFirst,
    lowerLast] at havoids
  -- Runs that lie apart share no place, and those that take turns have places of other parity.
  obtain (hbefore | hbehind) | ⟨⟨hother, hrun⟩, hturn⟩ := havoids
  · omega
  · omega
  · rw [hother] at hotherPlace
    obtain hrun | hsingle := hrun
    · rw [hrun] at hplace
      omega
    · omega

end CaseRun

theorem isSound_of_mem : ∀ run ∈ caseRuns, run.IsSound := by
  decide +kernel

theorem avoids_of_mem {run other : CaseRun} (hrun : run ∈ caseRuns) (hother : other ∈ caseRuns) :
    run.avoids other = true := by
  have hall : (caseRuns.all fun run => caseRuns.all run.avoids) = true := by decide +kernel
  exact List.all_eq_true.mp (List.all_eq_true.mp hall run hrun) other hother

/-- The codes up to the capitals of ASCII, the dotted capital I, and all blanks. -/
def reservedRuns : List CaseRun :=
  [⟨0, 0x60, 1, 0⟩, ⟨0x85, 0x85, 1, 0⟩, ⟨0xA0, 0xA0, 1, 0⟩, ⟨0x130, 0x130, 1, 0⟩,
    ⟨0x1680, 0x1680, 1, 0⟩, ⟨0x2000, 0x200A, 1, 0⟩, ⟨0x2028, 0x2029, 1, 0⟩,
    ⟨0x202F, 0x202F, 1, 0⟩, ⟨0x205F, 0x205F, 1, 0⟩, ⟨0x3000, 0x3000, 1, 0⟩]

/-- The character is none of the reserved ones. -/
def IsFree (c : Char) : Prop :=
  ∀ run ∈ reservedRuns, run.contains c = false

instance (c : Char) : Decidable (IsFree c) :=
  inferInstanceAs (Decidable (∀ run ∈ reservedRuns, run.contains c = false))

theorem avoids_reserved {run other : CaseRun} (hrun : run ∈ caseRuns)
    (hother : other ∈ reservedRuns) : run.avoids other = true := by
  have hall : (caseRuns.all fun run => reservedRuns.all run.avoids) = true := by decide +kernel
  exact List.all_eq_true.mp (List.all_eq_true.mp hall run hrun) other hother

variable {c d : Char}

theorem IsFree.ne_dotted (hc : IsFree c) : c ≠ 'İ' := by
  rintro rfl
  exact absurd (hc ⟨0x130, 0x130, 1, 0⟩ (by simp [reservedRuns])) (by decide)

theorem IsFree.ne_nul (hc : IsFree c) : c ≠ '\x00' := by
  rintro rfl
  exact absurd (hc ⟨0, 0x60, 1, 0⟩ (by simp [reservedRuns])) (by decide)

theorem IsFree.not_isBlank (hc : IsFree c) : isBlank c = false := by
  simp [IsFree, reservedRuns, CaseRun.contains, Nat.mod_one] at hc
  have hspace : c ≠ ' ' := by
    rintro rfl
    exact absurd hc.1 (by decide)
  have htab : '\r'.val.toNat < c.toNat := by
    have hcode : '\r'.val.toNat = 0xD := rfl
    omega
  simp only [isBlank, isAsciiBlank, Bool.or_eq_false_iff, Bool.and_eq_false_iff,
    decide_eq_false_iff_not, beq_eq_false_iff_ne, Char.le_def, UInt32.le_iff_toNat_le, ne_eq,
    hspace, not_false_eq_true, true_and]
  simp only [Char.toNat] at *
  omega

/-! ## Single letters -/

/-- The lower case of a character is that of its run, or the character itself where no run holds
it. The dotted capital I is apart. -/
theorem lowerLetters_cases (c : Char) : c = 'İ' ∨
    (∃ run ∈ caseRuns, run.contains c = true ∧ lowerLetters c = [run.lowered c]) ∨
    (c ≠ 'İ' ∧ (∀ run ∈ caseRuns, run.contains c = false) ∧ lowerLetters c = [c]) := by
  by_cases hdotted : c = 'İ'
  · exact .inl hdotted
  · right
    cases hfind : caseRuns.find? (·.contains c) with
    | some run =>
        refine .inl ⟨run, List.mem_of_find?_eq_some hfind, by simpa using List.find?_some hfind, ?_⟩
        rw [lowerLetters, if_neg hdotted, hfind]
        rfl
    | none =>
        refine .inr ⟨hdotted, ?_, by rw [lowerLetters, if_neg hdotted, hfind]⟩
        simpa using List.find?_eq_none.mp hfind

/-- A character that is its own lower case wherever it stands. -/
def IsLowered (c : Char) : Prop :=
  c ≠ capitalSigma ∧ lowerLetters c = [c]

instance (c : Char) : Decidable (IsLowered c) :=
  inferInstanceAs (Decidable (_ ∧ _))

theorem isLowered_of_not_contains (hdotted : c ≠ 'İ')
    (hc : ∀ run ∈ caseRuns, run.contains c = false) : IsLowered c := by
  constructor
  · rintro rfl
    -- The capital sigma lies in a run like other capitals, apart from its form at the end of words.
    have hsigma : (caseRuns.find? (·.contains capitalSigma)).isSome = true := by decide +kernel
    obtain ⟨run, hrun, hcontains⟩ := List.find?_isSome.mp hsigma
    rw [hc run hrun] at hcontains
    cases hcontains
  · obtain rfl | ⟨run, hrun, hcontains, -⟩ | ⟨-, -, hself⟩ := lowerLetters_cases c
    · exact absurd rfl hdotted
    · rw [hc run hrun] at hcontains
      cases hcontains
    · exact hself

/-- What a character becomes is in lower case, and it is the character itself or none of the
reserved ones. -/
theorem isLowered_of_mem_lowerLetters (hd : d ∈ lowerLetters c) :
    IsLowered d ∧ (d = c ∨ IsFree d) := by
  obtain rfl | ⟨run, hrun, hcontains, hletters⟩ | ⟨hdotted, hnone, hself⟩ := lowerLetters_cases c
  · have hletters : lowerLetters 'İ' = ['i', '\u0307'] := by decide +kernel
    have hfirst : IsLowered 'i' ∧ IsFree 'i' := by decide +kernel
    have hsecond : IsLowered '\u0307' ∧ IsFree '\u0307' := by decide +kernel
    have hall : ∀ d ∈ lowerLetters 'İ', IsLowered d ∧ IsFree d := by
      rw [hletters]
      simpa using ⟨hfirst, hsecond⟩
    exact ⟨(hall d hd).1, .inr (hall d hd).2⟩
  · rw [hletters, List.mem_singleton] at hd
    obtain rfl := hd
    have hsound := isSound_of_mem run hrun
    have hfree : IsFree (run.lowered c) := fun other hother =>
      CaseRun.contains_lowered hsound hcontains (avoids_reserved hrun hother)
    exact ⟨isLowered_of_not_contains hfree.ne_dotted fun other hother =>
      CaseRun.contains_lowered hsound hcontains (avoids_of_mem hrun hother), .inr hfree⟩
  · rw [hself, List.mem_singleton] at hd
    obtain rfl := hd
    exact ⟨isLowered_of_not_contains hdotted hnone, .inl rfl⟩

/-- Where a character stands, it becomes its lower case, or the form that the capital sigma has at
the end of a word. -/
def LowersTo (c : Char) (letters : List Char) : Prop :=
  letters = lowerLetters c ∨ c = capitalSigma ∧ letters = ['ς']

/-- The lower case of a text is that of its characters, one after the other. -/
theorem exists_lowerLoop_parts (before text : List Char) :
    ∃ parts, List.Forall₂ LowersTo text parts ∧ lowerLoop before text = parts.flatten := by
  induction text generalizing before with
  | nil => exact ⟨[], .nil, rfl⟩
  | cons c rest ih =>
      obtain ⟨parts, hparts, hrest⟩ := ih (c :: before)
      rw [lowerLoop, hrest]
      split
      next hfinal => exact ⟨['ς'] :: parts, .cons (.inr ⟨hfinal.1, rfl⟩) hparts, rfl⟩
      next => exact ⟨lowerLetters c :: parts, .cons (.inl rfl) hparts, rfl⟩

variable {letters text : List Char} {parts : List (List Char)}

theorem LowersTo.ne_nil (h : LowersTo c letters) : letters ≠ [] := by
  obtain rfl | ⟨-, rfl⟩ := h
  · obtain rfl | ⟨run, -, -, hletters⟩ | ⟨-, -, hself⟩ := lowerLetters_cases c
    · decide
    · simp [hletters]
    · simp [hself]
  · simp

theorem LowersTo.isLowered (h : LowersTo c letters) (hd : d ∈ letters) :
    IsLowered d ∧ (d = c ∨ IsFree d) := by
  obtain rfl | ⟨-, rfl⟩ := h
  · exact isLowered_of_mem_lowerLetters hd
  · obtain rfl := List.mem_singleton.mp hd
    have hsigma : IsLowered 'ς' ∧ IsFree 'ς' := by decide +kernel
    exact ⟨hsigma.1, .inr hsigma.2⟩

/-! ## Whole texts -/

/-- Text of characters that are their own lower case is its own lower case. -/
theorem lowerLoop_of_isLowered (before : List Char) (htext : ∀ c ∈ text, IsLowered c) :
    lowerLoop before text = text := by
  induction text generalizing before with
  | nil => rfl
  | cons c rest ih =>
      obtain ⟨⟨hsigma, hself⟩, hrest⟩ := List.forall_mem_cons.mp htext
      rw [lowerLoop, if_neg (fun hfinal => hsigma hfinal.1), hself, ih _ hrest]
      rfl

theorem mem_of_forall₂ (hparts : List.Forall₂ LowersTo text parts) (hd : d ∈ parts.flatten) :
    IsLowered d ∧ (d ∈ text ∨ IsFree d) := by
  induction hparts with
  | nil => simp at hd
  | cons hletters _ ih =>
      rw [List.flatten_cons, List.mem_append] at hd
      obtain hd | hd := hd
      · obtain ⟨hlowered, rfl | hfree⟩ := hletters.isLowered hd
        · exact ⟨hlowered, .inl List.mem_cons_self⟩
        · exact ⟨hlowered, .inr hfree⟩
      · obtain ⟨hlowered, hmem | hfree⟩ := ih hd
        · exact ⟨hlowered, .inl (List.mem_cons_of_mem _ hmem)⟩
        · exact ⟨hlowered, .inr hfree⟩

theorem lower_lower (s : String) : lower (lower s) = lower s := by
  obtain ⟨parts, hparts, hlower⟩ := exists_lowerLoop_parts [] s.toList
  have htext : ∀ c ∈ (lower s).toList, IsLowered c := by
    intro c hc
    rw [lower, String.toList_ofList, hlower] at hc
    exact (mem_of_forall₂ hparts hc).1
  rw [lower, lowerLoop_of_isLowered [] htext, String.ofList_toList]

/-- No null character comes into a text by lowering it. -/
theorem nul_notMem_lower {s : String} (hnul : '\x00' ∉ s.toList) : '\x00' ∉ (lower s).toList := by
  obtain ⟨parts, hparts, hlower⟩ := exists_lowerLoop_parts [] s.toList
  rw [lower, String.toList_ofList, hlower]
  intro hmem
  obtain ⟨-, hmem | hfree⟩ := mem_of_forall₂ hparts hmem
  · exact hnul hmem
  · exact hfree.ne_nul rfl

theorem lower_ne_empty {s : String} (hs : s ≠ "") : lower s ≠ "" := by
  obtain ⟨c, rest, hs⟩ := List.exists_cons_of_ne_nil (String.toList_eq_nil_iff.not.mpr hs)
  obtain ⟨parts, hparts, hlower⟩ := exists_lowerLoop_parts [] s.toList
  rw [hs] at hparts
  cases hparts with
  | cons hletters _ =>
      rw [ne_eq, ← String.toList_eq_nil_iff, lower, String.toList_ofList, hlower]
      simp [hletters.ne_nil]

/-! ## Stripped text -/

theorem LowersTo.not_isBlank (h : LowersTo c letters) (hc : isBlank c = false) (hd : d ∈ letters) :
    isBlank d = false := by
  obtain ⟨-, rfl | hfree⟩ := h.isLowered hd
  · exact hc
  · exact hfree.not_isBlank

theorem not_isBlank_getLast_flatten (hparts : List.Forall₂ LowersTo text parts)
    (hlast : ∀ c ∈ text.getLast?, isBlank c = false) :
    ∀ d ∈ parts.flatten.getLast?, isBlank d = false := by
  induction hparts with
  | nil => simp
  | @cons c letters rest parts hletters hrest ih =>
      intro d hd
      rw [List.flatten_cons] at hd
      cases hrest with
      | nil =>
          rw [List.flatten_nil, List.append_nil] at hd
          exact hletters.not_isBlank (hlast c rfl) (List.mem_of_mem_getLast? hd)
      | @cons next nextLetters _ _ hnext _ =>
          rw [List.getLast?_append_of_ne_nil _ (by simp [hnext.ne_nil])] at hd
          exact ih (fun c hc => hlast c (by rwa [List.getLast?_cons_cons])) d hd

theorem HasBareEnds.flatten (hends : HasBareEnds text)
    (hparts : List.Forall₂ LowersTo text parts) : HasBareEnds parts.flatten := by
  refine ⟨?_, not_isBlank_getLast_flatten hparts hends.2⟩
  cases hparts with
  | nil => simp
  | @cons c letters _ parts hletters _ =>
      intro d hd
      rw [List.flatten_cons, List.head?_append_of_ne_nil _ hletters.ne_nil] at hd
      exact hletters.not_isBlank (hends.1 c rfl) (List.mem_of_mem_head? hd)

/-- Stripped text stays stripped in lower case. -/
theorem trim_lower {s : String} (htrim : trim s = s) : trim (lower s) = lower s := by
  have hends : HasBareEnds s.toList := by
    rw [← htrim, trim, String.toList_ofList]
    exact hasBareEnds_strip _
  obtain ⟨parts, hparts, hlower⟩ := exists_lowerLoop_parts [] s.toList
  rw [trim, lower, String.toList_ofList, hlower, strip_of_hasBareEnds (hends.flatten hparts)]

/-! ## Names of encodings -/

/-- The sign of the Kelvin, whose lower case is the small k of ASCII. -/
def kelvinSign : Char := '\u212A'

/-- Neither of the two characters outside of ASCII occurs that become letters of ASCII. -/
def KeepsWords (text : List Char) : Prop :=
  'İ' ∉ text ∧ kelvinSign ∉ text

theorem KeepsWords.strip (hkeeps : KeepsWords text) : KeepsWords (strip isBlank text) :=
  ⟨fun h => hkeeps.1 (mem_of_mem_strip h), fun h => hkeeps.2 (mem_of_mem_strip h)⟩

/-- A character and its lower case: both are in ASCII, or both are outside. -/
def StaysAside (c d : Char) : Prop :=
  c.toNat < 0x80 ∧ d = c.toLower ∨ 0x80 ≤ c.toNat ∧ 0x80 ≤ d.toNat

theorem lowerLetters_of_ascii (hc : c.toNat < 0x80) : lowerLetters c = [c.toLower] := by
  have hall : ∀ n < 0x80, lowerLetters (Char.ofNat n) = [(Char.ofNat n).toLower] := by
    decide +kernel
  simpa using hall c.toNat hc

/-- The runs outside of ASCII stay outside, apart from the sign of the Kelvin. -/
theorem lowerFirst_of_mem : ∀ run ∈ caseRuns, run.last < 0x80 ∨
    run.first = kelvinSign.toNat ∧ run.last = kelvinSign.toNat ∨ 0x80 ≤ run.lowerFirst := by
  decide +kernel

theorem exists_lowerLetters_of_not_ascii (hc : 0x80 ≤ c.toNat) (hdotted : c ≠ 'İ')
    (hkelvin : c ≠ kelvinSign) : ∃ d, lowerLetters c = [d] ∧ 0x80 ≤ d.toNat := by
  obtain rfl | ⟨run, hrun, hcontains, hletters⟩ | ⟨-, -, hself⟩ := lowerLetters_cases c
  · exact absurd rfl hdotted
  · refine ⟨_, hletters, ?_⟩
    have hcode := CaseRun.toNat_lowered (isSound_of_mem run hrun) hcontains
    obtain ⟨⟨hfirst, hlast⟩, -⟩ := CaseRun.contains_iff.mp hcontains
    obtain hascii | ⟨hone, hother⟩ | hlow := lowerFirst_of_mem run hrun
    · omega
    · exact absurd (Char.toNat_inj.mp (by omega)) hkelvin
    · simp only [CaseRun.lowerFirst] at hlow
      omega
  · exact ⟨c, hself, hc⟩

theorem LowersTo.exists_staysAside (h : LowersTo c letters) (hdotted : c ≠ 'İ')
    (hkelvin : c ≠ kelvinSign) : ∃ d, letters = [d] ∧ StaysAside c d := by
  obtain rfl | ⟨rfl, rfl⟩ := h
  · by_cases hc : c.toNat < 0x80
    · exact ⟨_, lowerLetters_of_ascii hc, .inl ⟨hc, rfl⟩⟩
    · obtain ⟨d, hletters, hd⟩ := exists_lowerLetters_of_not_ascii (by omega) hdotted hkelvin
      exact ⟨d, hletters, .inr ⟨by omega, hd⟩⟩
  · exact ⟨'ς', rfl, .inr (by decide)⟩

/-- Whether a character belongs to a word of a name. -/
def isNameCharacter (c : Char) : Bool :=
  c.isAlphanum || c == '.'

theorem isNameCharacter_of_not_ascii (hc : 0x80 ≤ c.toNat) : isNameCharacter c = false := by
  have hpoint : c ≠ '.' := by
    rintro rfl
    exact absurd hc (by decide)
  have hletter : c.isAlphanum = false := by
    refine Bool.eq_false_iff.mpr fun h => ?_
    have hcode := toNat_of_isAlphanum h
    omega
  simp [isNameCharacter, hletter, hpoint]

/-- A character and its lower case contribute the same to the words of a name. -/
theorem StaysAside.same_character (h : StaysAside c d) :
    isNameCharacter d = isNameCharacter c ∧ (isNameCharacter c = true → d.toLower = c.toLower) := by
  obtain ⟨hc, rfl⟩ | ⟨hc, hd⟩ := h
  · have hall : ∀ n < 0x80,
        isNameCharacter (Char.ofNat n).toLower = isNameCharacter (Char.ofNat n) ∧
          (Char.ofNat n).toLower.toLower = (Char.ofNat n).toLower := by
      decide +kernel
    obtain ⟨hsame, hlower⟩ := hall c.toNat hc
    rw [Char.ofNat_toNat] at hsame hlower
    exact ⟨hsame, fun _ => hlower⟩
  · rw [isNameCharacter_of_not_ascii hc, isNameCharacter_of_not_ascii hd]
    exact ⟨rfl, fun h => absurd h (by decide)⟩

theorem nameWords_flatten (hparts : List.Forall₂ LowersTo text parts) (hkeeps : KeepsWords text) :
    Encoding.nameWords parts.flatten = Encoding.nameWords text := by
  obtain ⟨hdotted, hkelvin⟩ := hkeeps
  unfold Encoding.nameWords
  dsimp only
  congr 1
  induction hparts with
  | nil => rfl
  | @cons c letters rest parts hletters _ ih =>
      rw [List.mem_cons, not_or] at hdotted hkelvin
      obtain ⟨d, rfl, haside⟩ := hletters.exists_staysAside (Ne.symm hdotted.1) (Ne.symm hkelvin.1)
      obtain ⟨hsame, hlower⟩ := haside.same_character
      rw [List.flatten_cons, List.singleton_append, List.foldr_cons, List.foldr_cons,
        ih hdotted.2 hkelvin.2]
      simp only [isNameCharacter] at hsame hlower
      by_cases hname : (c.isAlphanum || c == '.') = true
      · simp only [hsame, hlower hname]
      · simp only [hsame, hname]
        rfl

/-- A name that keeps its words has the same key in lower case. -/
theorem nameKey_lower {s : String} (hkeeps : KeepsWords s.toList) :
    Encoding.nameKey (lower s) = Encoding.nameKey s := by
  obtain ⟨parts, hparts, hlower⟩ := exists_lowerLoop_parts [] s.toList
  have hwords : Encoding.nameWords (lower s).toList = Encoding.nameWords s.toList := by
    rw [lower, String.toList_ofList, hlower, nameWords_flatten hparts hkeeps]
  rw [Encoding.nameKey, Encoding.nameKey, hwords]

end TypedVariant.Text
