import TypedVariant.Proofs.Text.Character
import TypedVariant.Proofs.Variant.Building
import TypedVariant.Variant.Access

/-!
# The texts that are object paths

A path is a slash alone, or segments one behind the other, each of them a slash and one
or more word letters. What is taken for a path is a path, or a path with one line feed
behind it. So where a text does not end in a line feed, the constructor of object paths
takes it exactly if it is a path, and keeps it as it is.
-/

namespace TypedVariant

namespace ObjectPath

/-- The letters of a segment: letters and digits of ASCII, and the underscore. -/
def IsWordLetter (c : Char) : Prop :=
  ('A' ≤ c ∧ c ≤ 'Z') ∨ ('a' ≤ c ∧ c ≤ 'z') ∨ ('0' ≤ c ∧ c ≤ '9') ∨ c = '_'

/-- A segment is a slash and one or more word letters. -/
def IsSegment (text : List Char) : Prop :=
  ∃ word, word ≠ [] ∧ (∀ c ∈ word, IsWordLetter c) ∧ text = '/' :: word

/-- A path is a slash, or one or more segments and nothing else. -/
def IsPath (text : List Char) : Prop :=
  text = ['/'] ∨
    ∃ segments, segments ≠ [] ∧ (∀ segment ∈ segments, IsSegment segment) ∧
      text = segments.flatten

variable {c : Char} {started : Bool} {text word rest : List Char} {segments : List (List Char)}

theorem isWordChar_iff : isWordChar c = true ↔ IsWordLetter c := by
  simp only [isWordChar, IsWordLetter, Bool.or_eq_true, Text.isAlphanum_iff, beq_iff_eq, or_assoc]

theorem ne_slash_of_isWordLetter (hc : IsWordLetter c) : c ≠ '/' := by
  rintro rfl
  exact absurd (isWordChar_iff.mpr hc) (by decide)

/-! ## Going through segments -/

theorem isSegments_cons_slash : isSegments started ('/' :: rest) =
    (started && isSegments false rest) := by
  rw [isSegments, if_pos rfl]

theorem isSegments_cons_of_isWordLetter (hc : IsWordLetter c) :
    isSegments started (c :: rest) = isSegments true rest := by
  rw [isSegments, if_neg (ne_slash_of_isWordLetter hc), isWordChar_iff.mpr hc, Bool.true_and]

/-- Word letters complete the segment that they stand in. -/
theorem isSegments_word (hword : ∀ c ∈ word, IsWordLetter c) (hne : word ≠ []) :
    isSegments started (word ++ rest) = isSegments true rest := by
  induction word generalizing started with
  | nil => exact absurd rfl hne
  | cons c word ih =>
      obtain ⟨hc, hword⟩ := List.forall_mem_cons.mp hword
      rw [List.cons_append, isSegments_cons_of_isWordLetter hc]
      cases word with
      | nil => rfl
      | cons => exact ih hword (List.cons_ne_nil _ _)

theorem isSegments_flatten (hsegments : ∀ segment ∈ segments, IsSegment segment) :
    isSegments true segments.flatten = true := by
  induction segments with
  | nil => rfl
  | cons segment segments ih =>
      obtain ⟨⟨word, hne, hword, rfl⟩, hrest⟩ := List.forall_mem_cons.mp hsegments
      rw [List.flatten_cons, List.cons_append, isSegments_cons_slash, Bool.true_and,
        isSegments_word hword hne]
      exact ih hrest

/-- What is gone through to its end is what is left of one segment, and whole segments behind it. A
segment that has not been started has letters left. -/
theorem exists_segments_of_isSegments (h : isSegments started text = true) :
    ∃ (word : List Char) (segments : List (List Char)), text = word ++ segments.flatten ∧
      (∀ c ∈ word, IsWordLetter c) ∧ (word = [] → started = true) ∧
      ∀ segment ∈ segments, IsSegment segment := by
  induction text generalizing started with
  | nil => exact ⟨[], [], rfl, List.forall_mem_nil _, fun _ => h, List.forall_mem_nil _⟩
  | cons c rest ih =>
      by_cases hslash : c = '/'
      · subst hslash
        rw [isSegments_cons_slash, Bool.and_eq_true] at h
        obtain ⟨hstarted, hrest⟩ := h
        -- Behind the slash a segment begins that has no letters yet, so some are left of it.
        obtain ⟨word, segments, rfl, hword, hleft, hsegments⟩ := ih hrest
        have hne : word ≠ [] := fun hnil => Bool.false_ne_true (hleft hnil)
        have hsegment : IsSegment ('/' :: word) := ⟨word, hne, hword, rfl⟩
        exact ⟨[], ('/' :: word) :: segments, rfl, List.forall_mem_nil _, fun _ => hstarted,
          List.forall_mem_cons.mpr ⟨hsegment, hsegments⟩⟩
      · rw [isSegments, if_neg hslash, Bool.and_eq_true] at h
        obtain ⟨word, segments, rfl, hword, -, hsegments⟩ := ih h.2
        exact ⟨c :: word, segments, rfl,
          List.forall_mem_cons.mpr ⟨isWordChar_iff.mp h.1, hword⟩, by simp, hsegments⟩

/-! ## Paths -/

theorem isStrict_iff : isStrict text = true ↔ IsPath text := by
  constructor
  · intro h
    unfold isStrict at h
    split at h
    next => exact .inl rfl
    next rest _ =>
      obtain ⟨word, segments, rfl, hword, hleft, hsegments⟩ := exists_segments_of_isSegments h
      have hne : word ≠ [] := fun hnil => Bool.false_ne_true (hleft hnil)
      have hsegment : IsSegment ('/' :: word) := ⟨word, hne, hword, rfl⟩
      exact .inr ⟨('/' :: word) :: segments, List.cons_ne_nil _ _,
        List.forall_mem_cons.mpr ⟨hsegment, hsegments⟩, rfl⟩
    next => cases h
  · rintro (rfl | ⟨segments, hne, hsegments, rfl⟩)
    · rfl
    · obtain ⟨segment, segments, rfl⟩ := List.exists_cons_of_ne_nil hne
      obtain ⟨⟨word, hword, hletters, rfl⟩, hrest⟩ := List.forall_mem_cons.mp hsegments
      obtain ⟨c, word, rfl⟩ := List.exists_cons_of_ne_nil hword
      have hpath : isSegments false ((c :: word) ++ segments.flatten) = true := by
        rw [isSegments_word hletters hword]
        exact isSegments_flatten hrest
      exact hpath

theorem isValid_iff {s : String} : isValid s = true ↔
    IsPath s.toList ∨ ∃ path, IsPath path ∧ s.toList = path ++ ['\n'] := by
  simp only [isValid, Bool.or_eq_true, Bool.and_eq_true, beq_iff_eq, isStrict_iff]
  refine or_congr_right ⟨?_, ?_⟩
  · rintro ⟨hlast, hpath⟩
    exact ⟨_, hpath, (List.dropLast_append_getLast? _ hlast).symm⟩
  · rintro ⟨path, hpath, htext⟩
    simpa [htext] using hpath

end ObjectPath

namespace Variant

open ObjectPath (IsPath)

/-- The constructor of object paths takes texts that are free of NUL and taken for paths. -/
theorem accepts_objectPath_iff {s : String} : TextCode.objectPath.Accepts s ↔
    s.toList.contains '\x00' = false ∧ ObjectPath.isValid s = true := by
  refine and_congr_right fun _ => ?_
  rw [checkText]
  split <;> simp_all

theorem nul_not_mem_of_isPath {text : List Char} (hpath : IsPath text) : '\x00' ∉ text := by
  obtain rfl | ⟨segments, -, hsegments, rfl⟩ := hpath
  · decide
  · intro hnul
    obtain ⟨segment, hsegment, hnul⟩ := List.mem_flatten.mp hnul
    obtain ⟨word, -, hword, rfl⟩ := hsegments segment hsegment
    obtain hslash | hletter := List.mem_cons.mp hnul
    · exact absurd hslash (by decide)
    · exact absurd (ObjectPath.isWordChar_iff.mpr (hword _ hletter)) (by decide)

/-- What is taken for an object path is a path, or a path with one line feed behind it, so a text
without a line feed at its end is taken exactly if it is a path. What is taken is stored, unchanged,
and nothing else. -/
theorem object_paths_are_segments (s : String) :
    (ObjectPath.isValid s = true ↔
      IsPath s.toList ∨ ∃ path, IsPath path ∧ s.toList = path ++ ['\n']) ∧
    (s.toList.getLast? ≠ some '\n' → (ObjectPath.isValid s = true ↔ IsPath s.toList)) ∧
    ((∃ v, ofText .objectPath (.text s) = .ok v) ↔ ObjectPath.isValid s = true) ∧
    ∀ v, ofText .objectPath (.text s) = .ok v →
      v = .text .objectPath s ∧ v.getText = .ok s := by
  refine ⟨ObjectPath.isValid_iff, fun hend => ?_, ⟨?_, ?_⟩, ?_⟩
  · refine ObjectPath.isValid_iff.trans (or_iff_left ?_)
    rintro ⟨path, -, htext⟩
    exact hend (by simp [htext])
  · rintro ⟨v, hbuilt⟩
    obtain ⟨value, hvalue, haccepts, -⟩ := ofText_eq_ok_iff.mp hbuilt
    obtain rfl := Native.text.inj hvalue
    exact (accepts_objectPath_iff.mp haccepts).2
  · intro hvalid
    have hnul : '\x00' ∉ s.toList := by
      obtain hpath | ⟨path, hpath, htext⟩ := ObjectPath.isValid_iff.mp hvalid
      · exact nul_not_mem_of_isPath hpath
      · simp [htext, nul_not_mem_of_isPath hpath]
    have haccepts := accepts_objectPath_iff.mpr ⟨by simpa using hnul, hvalid⟩
    exact ⟨_, ofText_eq_ok_iff.mpr ⟨s, rfl, haccepts, rfl⟩⟩
  · intro v hbuilt
    obtain ⟨value, hvalue, -, rfl⟩ := ofText_eq_ok_iff.mp hbuilt
    obtain rfl := Native.text.inj hvalue
    exact ⟨rfl, rfl⟩

theorem object_paths_are_segments_two :
    "/org/Obj_1".toList.getLast? ≠ some '\n' ∧ IsPath "/org/Obj_1".toList ∧
      ofText .objectPath (.text "/org/Obj_1") = .ok (.text .objectPath "/org/Obj_1") ∧
      ¬IsPath "/org//Obj_1".toList ∧
      ¬∃ v, ofText .objectPath (.text "/org//Obj_1") = .ok v := by
  have hend : "/org/Obj_1".toList.getLast? ≠ some '\n' := by decide
  have hpath : IsPath "/org/Obj_1".toList := ObjectPath.isStrict_iff.mp (by decide)
  have hdoubled : ¬IsPath "/org//Obj_1".toList := fun h =>
    absurd (ObjectPath.isStrict_iff.mpr h) (by decide)
  obtain ⟨-, htaken, hbuilds, hstores⟩ := object_paths_are_segments "/org/Obj_1"
  obtain ⟨-, hdoubledTaken, hdoubledBuilds, -⟩ := object_paths_are_segments "/org//Obj_1"
  obtain ⟨v, hbuilt⟩ := hbuilds.mpr ((htaken hend).mpr hpath)
  obtain ⟨rfl, -⟩ := hstores v hbuilt
  refine ⟨hend, hpath, hbuilt, hdoubled, fun h => hdoubled ?_⟩
  exact (hdoubledTaken (by decide)).mp (hdoubledBuilds.mp h)

/-- A path with a line feed behind it is no path, and yet it is taken for one. -/
theorem object_path_with_line_feed :
    ObjectPath.isValid "/a\n" = true ∧ ¬IsPath "/a\n".toList ∧
      ofText .objectPath (.text "/a\n") = .ok (.text .objectPath "/a\n") := by
  refine ⟨by decide, fun h => absurd (ObjectPath.isStrict_iff.mpr h) (by decide), ?_⟩
  exact ofText_eq_ok_iff.mpr
    ⟨_, rfl, accepts_objectPath_iff.mpr ⟨by decide, by decide⟩, rfl⟩

end Variant

end TypedVariant
