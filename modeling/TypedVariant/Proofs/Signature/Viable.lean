import Mathlib.Data.Nat.Find
import TypedVariant.Proofs.Signature.Cursor
import TypedVariant.Proofs.Signature.RaisedLimit

/-!
# How far reading goes

A text is viable if some complete type begins with it. Whatever the reader has taken
without a refusal is viable: the containers that it holds open can all be closed. A
letter that it refuses as a fault makes the text behind it unviable, since under a
limit that lets every type through the reader would refuse it as well. So a fault is
found at the first letter with which no type goes on, and nothing behind that letter
is taken; a refusal for the depth may only come earlier.
-/

namespace TypedVariant.Signature

open SigType

/-- A text with which a complete type begins. -/
def IsViable (wildcards : Bool) (text : List Char) : Prop :=
  ∃ type whole, IsCompleteType wildcards type whole ∧ text <+: whole

variable {wildcards : Bool}

theorem IsViable.beginning {text longer : List Char} (hviable : IsViable wildcards longer)
    (hbegins : text <+: longer) : IsViable wildcards text := by
  obtain ⟨type, whole, hwhole, hlonger⟩ := hviable
  exact ⟨type, whole, hwhole, hbegins.trans hlonger⟩

theorem isViable_letters {type : SigType} (hwf : type.WellFormed wildcards) :
    IsViable wildcards type.letters :=
  ⟨type, _, isCompleteType_iff.mpr ⟨hwf, rfl⟩, List.prefix_refl _⟩

/-! ## The first offence -/

/-- The number of letters in front of the first one with which no complete type goes on, or of all
letters if there is none. -/
structure IsFirstOffence (wildcards : Bool) (text : List Char) (place : Nat) : Prop where
  le_length : place ≤ text.length
  isViable : ∀ i < place, IsViable wildcards (text.take (i + 1))
  not_isViable : place < text.length → ¬ IsViable wildcards (text.take (place + 1))

theorem exists_isFirstOffence (wildcards : Bool) (text : List Char) :
    ∃ place, IsFirstOffence wildcards text place := by
  classical
  have hends : ∃ place, text.length ≤ place ∨ ¬ IsViable wildcards (text.take (place + 1)) :=
    ⟨text.length, .inl (Nat.le_refl _)⟩
  refine ⟨Nat.find hends, Nat.find_min' hends (.inl (Nat.le_refl _)), fun i hi => ?_, ?_⟩
  · have hearlier := Nat.find_min hends hi
    rw [not_or, not_not] at hearlier
    exact hearlier.2
  · intro hinside
    exact (Nat.find_spec hends).resolve_left (Nat.not_le.mpr hinside)

namespace IsFirstOffence

variable {text : List Char} {place : Nat}

/-- The viable beginnings of a text are those in front of the first offence. -/
theorem isViable_iff (hoffence : IsFirstOffence wildcards text place) {before : List Char}
    (hbegins : before <+: text) : IsViable wildcards before ↔ before.length ≤ place := by
  have hbefore : before = text.take before.length := List.prefix_iff_eq_take.mp hbegins
  constructor
  · intro hviable
    by_contra hbehind
    have hlength := hbegins.length_le
    refine hoffence.not_isViable (by omega) (hviable.beginning ?_)
    rw [hbefore]
    exact List.take_prefix_take_left (by omega)
  · intro hlength
    rw [hbefore]
    cases hsize : before.length with
    | zero => exact (isViable_letters .variant).beginning (List.nil_prefix)
    | succ size => exact hoffence.isViable size (by omega)

theorem unique (hoffence : IsFirstOffence wildcards text place) {other : Nat}
    (hother : IsFirstOffence wildcards text other) : place = other := by
  have hle {m n : Nat} (hm : IsFirstOffence wildcards text m)
      (hn : IsFirstOffence wildcards text n) : m ≤ n := by
    have hlength : (text.take m).length = m := List.length_take_of_le hm.le_length
    have hviable := (hm.isViable_iff (List.take_prefix m text)).mpr (by omega)
    have hbefore := (hn.isViable_iff (List.take_prefix m text)).mp hviable
    omega
  exact Nat.le_antisymm (hle hoffence hother) (hle hother hoffence)

end IsFirstOffence

/-! ## What has been taken without a refusal -/

variable {rules : Rules} {depth : Int} {simple : Bool}

/-- Whatever type is put where one is awaited inside the open containers, all of them can be closed
behind it. -/
theorem isViable_within {within : List Open} {type : SigType}
    (hopen : OpenSound rules depth false within) (hwf : type.WellFormed rules.wildcards)
    (hbasic : simpleOnly false within = true → type.isBasic = true) :
    IsViable rules.wildcards (lettersWithin within ++ type.letters) := by
  induction within generalizing type with
  | nil => exact isViable_letters hwf
  | cons container outer ih =>
      obtain ⟨hplace, -, htypes, houter⟩ := hopen
      -- A container that is closed behind the type is a type itself, put where it was opened.
      have hclosed {whole : SigType} {rest : List Char} (hwhole : whole.WellFormed rules.wildcards)
          (hletters : container.letters ++ type.letters ++ rest = whole.letters) :
          IsViable rules.wildcards (lettersWithin (container :: outer) ++ type.letters) := by
        refine (ih houter hwhole (by simp [hplace])).beginning ⟨rest, ?_⟩
        rw [← hletters, lettersWithin]
        simp only [List.append_assoc]
      cases container with
      | maybe => exact @hclosed (.maybe type) [] (.maybe hwf) (by simp [Open.letters, letters])
      | array => exact @hclosed (.array type) [] (.array hwf) (by simp [Open.letters, letters])
      | tuple earlier =>
          refine @hclosed (.tuple (earlier.reverse ++ [type])) [')'] (.tuple ?_) ?_
          · intro member hmember
            rcases List.mem_append.mp hmember with hearlier | hlast
            · exact (htypes member (List.mem_reverse.mp hearlier)).wellFormed
            · rwa [List.mem_singleton.mp hlast]
          · simp [Open.letters, letters, lettersAll_append, lettersAll]
      | key =>
          exact @hclosed (.dictEntry type .variant) ['v', '}']
            (.dictEntry (hbasic rfl) hwf .variant) (by simp [Open.letters, letters])
      | value key =>
          have hkey := htypes key (List.mem_singleton.mpr rfl)
          exact @hclosed (.dictEntry key type) ['}']
            (.dictEntry (hkey.isBasic rfl) hkey.wellFormed hwf) (by simp [Open.letters, letters])

theorem Awaiting.Sound.isViable {awaiting : Awaiting} (hsound : awaiting.Sound rules depth false) :
    IsViable rules.wildcards awaiting.letters := by
  cases awaiting with
  | type within =>
      have hcode := isViable_within hsound (.basic .boolean) (fun _ => rfl)
      exact hcode.beginning (List.prefix_append _ _)
  | close key value outer =>
      exact isViable_within hsound.1 hsound.2.wellFormed (by simp [simpleOnly])

/-! ## The course of a reading -/

/-- What is awaited once the letters of a text have been taken one by one. -/
inductive Reaches (rules : Rules) (depth : Int) (simple : Bool) : List Char → Awaiting → Prop
  | start : Reaches rules depth simple [] (.type [])
  | letter {before : List Char} {awaiting next : Awaiting} {c : Char}
      (hreaches : Reaches rules depth simple before awaiting)
      (hstep : step rules depth simple awaiting c = .more next) :
      Reaches rules depth simple (before ++ [c]) next

namespace Reaches

variable {before : List Char} {awaiting : Awaiting}

theorem sound (hreaches : Reaches rules depth simple before awaiting) :
    awaiting.Sound rules depth simple ∧ awaiting.letters = before := by
  induction hreaches with
  | start => exact ⟨trivial, rfl⟩
  | @letter before awaiting next c _ hstep ih =>
      have hnext := step_sound ih.1 c
      rwa [hstep, ih.2] at hnext

/-- A reading goes on from what it has reached, whatever follows. -/
theorem readOne_append (hreaches : Reaches rules depth simple before awaiting)
    (rest : List Char) :
    readOne rules depth simple (before ++ rest) = readWithin rules depth simple awaiting rest := by
  induction hreaches generalizing rest with
  | start => rfl
  | letter _ hstep ih =>
      rw [List.append_assoc, List.singleton_append, ih, readWithin, hstep]

theorem isViable (hreaches : Reaches rules depth false before awaiting) :
    IsViable rules.wildcards before := by
  obtain ⟨hsound, rfl⟩ := hreaches.sound
  exact hsound.isViable

/-- No type goes on with a letter at which reading finds a fault. Under a limit that the type fits
the letter would have been refused all the same. -/
theorem not_isViable (hreaches : Reaches rules depth false before awaiting) {c : Char}
    {fault : Fault} (hfault : ∀ rest, ∃ left,
      readWithin rules depth false awaiting (c :: rest) = (.error (.fault fault), left)) :
    ¬ IsViable rules.wildcards (before ++ [c]) := by
  rintro ⟨type, whole, hwhole, rest, rfl⟩
  obtain ⟨hwf, hletters⟩ := isCompleteType_iff.mp hwhole
  -- Under a limit that the type fits it would be read, and yet the fault would be found there too.
  let limit : Int := max rules.maxDepth (depth + type.nesting)
  have hread : readOne { rules with maxDepth := limit } depth false (before ++ c :: rest) =
      (.ok type, []) := by
    rw [readOne_eq_ok_iff]
    exact ⟨⟨hwf, Int.le_max_right _ _, by simp⟩, by simpa using hletters⟩
  obtain ⟨left, hrefused⟩ := hfault rest
  rw [← hreaches.readOne_append] at hrefused
  rcases @readOne_raised rules depth limit false (Int.le_max_left _ _) (before ++ c :: rest) with
    ⟨e, stop, rfl, he⟩ | hsame
  · simp [hrefused] at he
  · simp [hrefused, hread] at hsame

theorem length_le_place {rest : List Char} {place : Nat}
    (hreaches : Reaches rules depth false before awaiting)
    (hoffence : IsFirstOffence rules.wildcards (before ++ rest) place) : before.length ≤ place :=
  (hoffence.isViable_iff (List.prefix_append _ _)).mp hreaches.isViable

/-- The first offence is the letter at which reading finds a fault. -/
theorem place_eq {rest : List Char} {c : Char} {place : Nat} {fault : Fault}
    (hreaches : Reaches rules depth false before awaiting)
    (hoffence : IsFirstOffence rules.wildcards (before ++ c :: rest) place)
    (hfault : ∀ rest, ∃ left,
      readWithin rules depth false awaiting (c :: rest) = (.error (.fault fault), left)) :
    place = before.length := by
  have hbegins : before ++ [c] <+: before ++ c :: rest := ⟨rest, by simp⟩
  have hbefore := hreaches.length_le_place hoffence
  have hbehind := mt (hoffence.isViable_iff hbegins).mpr (hreaches.not_isViable hfault)
  rw [List.length_append, List.length_singleton] at hbehind
  omega

end Reaches

/-- How a reading that goes wrong ends: at the end of the text, at a letter that is refused and
taken, or in front of a letter. -/
inductive Stops (rules : Rules) (depth : Int) (simple : Bool) :
    List Char → Refusal → List Char → Prop
  | atEnd {before : List Char} {awaiting : Awaiting}
      (hreaches : Reaches rules depth simple before awaiting) :
      Stops rules depth simple before (refusalAtEnd rules depth awaiting) []
  | behind {before : List Char} {awaiting : Awaiting} {c : Char} {fault : Fault}
      (hreaches : Reaches rules depth simple before awaiting)
      (hstep : step rules depth simple awaiting c = .refuseLetter fault) (rest : List Char) :
      Stops rules depth simple (before ++ c :: rest) (.fault fault) rest
  | inFront {before : List Char} {awaiting : Awaiting} {c : Char} {refusal : Refusal}
      (hreaches : Reaches rules depth simple before awaiting)
      (hstep : step rules depth simple awaiting c = .refuseBefore refusal) (rest : List Char) :
      Stops rules depth simple (before ++ c :: rest) refusal (c :: rest)

theorem Reaches.stops {before text left : List Char} {awaiting : Awaiting} {refusal : Refusal}
    (hreaches : Reaches rules depth simple before awaiting)
    (hread : readWithin rules depth simple awaiting text = (.error refusal, left)) :
    Stops rules depth simple (before ++ text) refusal left := by
  induction text generalizing before awaiting with
  | nil =>
      rw [readWithin] at hread
      obtain ⟨rfl, rfl⟩ : refusalAtEnd rules depth awaiting = refusal ∧ [] = left := by
        simpa using hread
      rw [List.append_nil]
      exact .atEnd hreaches
  | cons c rest ih =>
      rw [readWithin] at hread
      cases hstep : step rules depth simple awaiting c with
      | done type => simp [hstep] at hread
      | more next =>
          rw [hstep] at hread
          have hstops := ih (hreaches.letter hstep) hread
          rwa [List.append_assoc, List.singleton_append] at hstops
      | refuseLetter fault =>
          obtain ⟨rfl, rfl⟩ : .fault fault = refusal ∧ rest = left := by simpa [hstep] using hread
          exact .behind hreaches hstep rest
      | refuseBefore refused =>
          obtain ⟨rfl, rfl⟩ : refused = refusal ∧ c :: rest = left := by
            simpa [hstep] using hread
          exact .inFront hreaches hstep rest

/-- Where a reading stops is told by the number of letters that are left. -/
theorem Stops.place {text left : List Char} {refusal : Refusal} {place : Nat}
    (hstops : Stops rules depth false text refusal left)
    (hoffence : IsFirstOffence rules.wildcards text place) :
    (∀ fault, refusal = .fault fault →
      text.length = place + left.length ∨ text.length = place + 1 + left.length) ∧
    (refusal = .tooDeep → text.length ≤ place + left.length) := by
  cases hstops with
  | atEnd hreaches =>
      have htaken := (hoffence.isViable_iff (List.prefix_refl _)).mp hreaches.isViable
      have hlength := hoffence.le_length
      rw [List.length_nil]
      exact ⟨fun _ _ => by omega, fun _ => by omega⟩
  | behind hreaches hstep rest =>
      have hplace := hreaches.place_eq hoffence
        (fun others => ⟨others, by rw [readWithin, hstep]⟩)
      rw [List.length_append, List.length_cons]
      exact ⟨fun _ _ => by omega, by simp⟩
  | inFront hreaches hstep rest =>
      have hbefore := hreaches.length_le_place hoffence
      rw [List.length_append, List.length_cons]
      refine ⟨?_, fun _ => by omega⟩
      rintro fault rfl
      have hplace := hreaches.place_eq hoffence
        (fun others => ⟨_, by rw [readWithin, hstep]⟩)
      omega

/-! ## Cursors -/

/-- A fault is found at the first letter with which no complete type goes on: that letter is taken
or stands next, and if there is none, the text has been taken to its end. A refusal for the depth
comes no later, so that whatever has been taken begins some complete type. -/
theorem errors_are_found_early {rules : Rules} {depth : Int} {c after : Cursor} {e : Error}
    (hstart : 0 ≤ c.position) (hend : c.position ≤ c.text.length)
    (hread : c.read rules depth false = (.error e, after)) :
    ∃ place : Nat,
      (∀ other, IsFirstOffence rules.wildcards (c.text.toList.drop c.position.toNat) other ↔
        other = place) ∧
      (e.kind = .grammar →
        (after.position = c.position + place ∨ after.position = c.position + place + 1) ∧
          after.position ≤ c.text.length) ∧
      (e.kind = .depthLimit → after.position ≤ c.position + place) ∧
      (e.kind = .grammar ∨ e.kind = .depthLimit) := by
  obtain ⟨place, hoffence⟩ :=
    exists_isFirstOffence rules.wildcards (c.text.toList.drop c.position.toNat)
  refine ⟨place, fun other => ⟨fun hother => hother.unique hoffence, ?_⟩, ?_⟩
  · rintro rfl
    exact hoffence
  · rcases Cursor.read_eq_error hstart hread with
      ⟨rfl, rfl⟩ | ⟨refusal, left, hone, rfl, rfl⟩
    · refine ⟨?_, fun _ => by omega, .inr rfl⟩
      rintro ⟨⟩
    · have hstops : Stops rules depth false (c.text.toList.drop c.position.toNat) refusal left :=
        Reaches.start.stops hone
      obtain ⟨hfault, hdeep⟩ := hstops.place hoffence
      have hlength : (c.text.toList.drop c.position.toNat).length =
          c.text.length - c.position.toNat := by
        rw [List.length_drop, String.length_toList]
      rw [Cursor.advance, Cursor.upcoming_of_nonneg hstart]
      dsimp only
      cases refusal with
      | fault cause =>
          have hplace := hfault cause rfl
          refine ⟨fun _ => by omega, ?_, .inl rfl⟩
          rintro ⟨⟩
      | tooDeep =>
          have hplace := hdeep rfl
          refine ⟨?_, fun _ => by omega, .inr rfl⟩
          rintro ⟨⟩

/-- A key must be basic: the letter of the boxed type is the first offence in the rest of the text,
and nothing behind it is taken. -/
theorem errors_are_found_early_key :
    ∃ place : Nat,
      (∀ other, IsFirstOffence false "(i{vs})".toList other ↔ other = place) ∧
      ((5 : Int) = 1 + place ∨ (5 : Int) = 1 + place + 1) := by
  have hread : Cursor.read ⟨false, 128⟩ 0 false ⟨"y(i{vs})", 1⟩ =
      (.error (.malformed "y(i{vs})" (.simpleExpected 'v')), ⟨"y(i{vs})", 5⟩) := by rfl
  obtain ⟨place, honly, hfault, -⟩ := errors_are_found_early (by decide) (by decide) hread
  exact ⟨place, honly, (hfault rfl).1⟩

end TypedVariant.Signature
