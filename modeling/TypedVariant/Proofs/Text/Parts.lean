import Mathlib.Data.List.Basic
import Mathlib.Data.List.Flatten

/-!
# Parts of a text and the marks behind them

A printed text is put together from parts, and behind each part stands the end of the text
or one of a few marks. Two ways of writing a part are told apart if no texts that begin
with them, and go on in this way, are the same. Lists of such parts between brackets are
told apart again, place by place.
-/

namespace TypedVariant.Text

/-- The marks that may follow a part. -/
def closingMarks : List Char := [',', ')', ']', '}', ':', '>']

/-- Nothing follows a part, or one of the marks does. -/
def Ends (rest : List Char) : Prop :=
  ∀ c ∈ rest.head?, c ∈ closingMarks

theorem ends_nil : Ends [] := by
  rintro _ ⟨⟩

theorem ends_cons {c : Char} {rest : List Char} (hc : c ∈ closingMarks) : Ends (c :: rest) := by
  rintro _ ⟨⟩
  exact hc

variable {α : Type} {f g : α → List Char} {u w : List Char}

/-- Two parts are told apart from each other and from what follows them. -/
def Splits (f : α → List Char) (a b : α) : Prop :=
  ∀ u w, Ends u → Ends w → f a ++ u = f b ++ w → a = b ∧ u = w

/-- The parts at the same places of two lists are told apart. -/
def SplitInStep (f : α → List Char) : List α → List α → Prop
  | a :: as, b :: bs => Splits f a b ∧ SplitInStep f as bs
  | _, _ => True

theorem splitInStep_of_forall {as bs : List α} (hsplits : ∀ a ∈ as, ∀ b ∈ bs, Splits f a b) :
    SplitInStep f as bs := by
  induction as generalizing bs with
  | nil => trivial
  | cons a as ih =>
      cases bs with
      | nil => trivial
      | cons b bs =>
          refine ⟨hsplits a List.mem_cons_self b List.mem_cons_self, ih ?_⟩
          exact fun a' ha' b' hb' =>
            hsplits a' (List.mem_cons_of_mem _ ha') b' (List.mem_cons_of_mem _ hb')

/-- Letters that are no marks end where a mark stands. -/
theorem run_append_inj {run other : List Char} (hrun : ∀ c ∈ run, c ∉ closingMarks)
    (hother : ∀ c ∈ other, c ∉ closingMarks) (hu : Ends u) (hw : Ends w)
    (h : run ++ u = other ++ w) : run = other ∧ u = w := by
  induction run generalizing other with
  | nil =>
      cases other with
      | nil => exact ⟨rfl, h⟩
      | cons c others =>
          obtain rfl : u = c :: (others ++ w) := h
          exact absurd (hu c rfl) (hother c List.mem_cons_self)
  | cons c rest ih =>
      cases other with
      | nil =>
          obtain rfl : c :: (rest ++ u) = w := h
          exact absurd (hw c rfl) (hrun c List.mem_cons_self)
      | cons d others =>
          obtain ⟨rfl, htail⟩ := List.cons_eq_cons.mp h
          obtain ⟨rfl, rfl⟩ := ih (List.forall_mem_cons.mp hrun).2
            (List.forall_mem_cons.mp hother).2 htail
          exact ⟨rfl, rfl⟩

/-! ## First letters -/

/-- A text begins with a letter other than a given one. -/
def BeginsBesides (avoided : Char) (text : List Char) : Prop :=
  ∃ c rest, text = c :: rest ∧ c ≠ avoided

theorem BeginsBesides.append {avoided : Char} {text : List Char}
    (hbegins : BeginsBesides avoided text) (rest : List Char) :
    BeginsBesides avoided (text ++ rest) := by
  obtain ⟨c, left, rfl, hc⟩ := hbegins
  exact ⟨c, left ++ rest, rfl, hc⟩

theorem BeginsBesides.append_ne {avoided : Char} {text : List Char}
    (hbegins : BeginsBesides avoided text) (rest other : List Char) :
    text ++ rest ≠ avoided :: other := by
  obtain ⟨c, left, rfl, hc⟩ := hbegins
  exact fun h => hc (List.cons_eq_cons.mp h).1

/-! ## Lists between brackets -/

/-- What follows the first of several parts. -/
def behindFirst (f : α → List Char) (rest : List α) : List Char :=
  rest.flatMap (fun a => ',' :: ' ' :: f a)

theorem intercalate_cons_map (first : List Char) (rest : List α) :
    [',', ' '].intercalate (first :: rest.map f) = first ++ behindFirst f rest := by
  induction rest generalizing first with
  | nil => simp [behindFirst]
  | cons a rest ih =>
      rw [List.map_cons, List.intercalate_cons_cons, ih, behindFirst, behindFirst,
        List.flatMap_cons]
      simp

theorem ends_behindFirst {close : Char} (hclose : close ∈ closingMarks) (rest : List α)
    (u : List Char) : Ends (behindFirst f rest ++ close :: u) := by
  cases rest with
  | nil => exact ends_cons hclose
  | cons a rest => exact ends_cons (by decide)

theorem behindFirst_append_inj {close : Char} (hclose : close ∈ closingMarks) (hcomma : close ≠ ',')
    {as bs : List α} (hstep : SplitInStep f as bs)
    (h : behindFirst f as ++ close :: u = behindFirst f bs ++ close :: w) : as = bs ∧ u = w := by
  induction as generalizing bs with
  | nil =>
      cases bs with
      | nil => exact ⟨rfl, (List.cons_eq_cons.mp h).2⟩
      | cons b bs => exact absurd (List.cons_eq_cons.mp h).1 hcomma
  | cons a as ih =>
      cases bs with
      | nil => exact absurd (List.cons_eq_cons.mp h).1.symm hcomma
      | cons b bs =>
          obtain ⟨hfirst, hrest⟩ := hstep
          simp only [behindFirst, List.flatMap_cons, List.cons_append, List.append_assoc,
            List.cons.injEq, true_and] at h
          obtain ⟨rfl, htail⟩ := hfirst _ _ (ends_behindFirst hclose as u)
            (ends_behindFirst hclose bs w) h
          obtain ⟨rfl, rfl⟩ := ih hrest htail
          exact ⟨rfl, rfl⟩

/-- The parts of a list, of which the first may be written unlike the others. -/
def listed (f g : α → List Char) : List α → List Char
  | [] => []
  | a :: rest => f a ++ behindFirst g rest

/-- The first parts of two lists are told apart; if they are the same, so are the others. -/
def SplitFromFirst (f g : α → List Char) : List α → List α → Prop
  | a :: as, b :: bs => Splits f a b ∧ (a = b → SplitInStep g as bs)
  | _, _ => True

theorem SplitInStep.fromFirst {as bs : List α} (hstep : SplitInStep f as bs) :
    SplitFromFirst f f as bs := by
  cases as with
  | nil => trivial
  | cons a as =>
      cases bs with
      | nil => trivial
      | cons b bs => exact ⟨hstep.1, fun _ => hstep.2⟩

/-- Lists are told apart if their parts are, and none of these begins with the closing bracket. -/
theorem listed_append_inj {close : Char} (hclose : close ∈ closingMarks) (hcomma : close ≠ ',')
    {as bs : List α} (hstep : SplitFromFirst f g as bs)
    (has : ∀ a ∈ as, BeginsBesides close (f a)) (hbs : ∀ b ∈ bs, BeginsBesides close (f b))
    (h : listed f g as ++ close :: u = listed f g bs ++ close :: w) : as = bs ∧ u = w := by
  cases as with
  | nil =>
      cases bs with
      | nil => exact ⟨rfl, (List.cons_eq_cons.mp h).2⟩
      | cons b bs =>
          rw [listed, listed, List.append_assoc] at h
          exact absurd h.symm ((hbs b List.mem_cons_self).append_ne _ _)
  | cons a as =>
      cases bs with
      | nil =>
          rw [listed, listed, List.append_assoc] at h
          exact absurd h ((has a List.mem_cons_self).append_ne _ _)
      | cons b bs =>
          rw [listed, listed, List.append_assoc, List.append_assoc] at h
          obtain ⟨rfl, hrest⟩ := hstep.1 _ _ (ends_behindFirst hclose as u)
            (ends_behindFirst hclose bs w) h
          obtain ⟨rfl, rfl⟩ := behindFirst_append_inj hclose hcomma (hstep.2 rfl) hrest
          exact ⟨rfl, rfl⟩

end TypedVariant.Text
