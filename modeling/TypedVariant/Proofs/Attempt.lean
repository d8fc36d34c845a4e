import Mathlib.Data.List.Basic
import Mathlib.Data.List.Forall2

/-!
# Attempts that succeed

An attempt is an answer or an error. A chain of attempts succeeds exactly when
each of them does, and so does an attempt made with every item of a list. Lists
of results are described item by item, beside what each item was made from.
-/

namespace TypedVariant

variable {ε α β : Type}

theorem map_eq_ok_iff {attempt : Except ε α} {f : α → β} {b : β} :
    attempt.map f = .ok b ↔ ∃ a, attempt = .ok a ∧ f a = b := by
  cases attempt <;> simp [Except.map]

theorem bind_eq_ok_iff {attempt : Except ε α} {f : α → Except ε β} {b : β} :
    attempt >>= f = .ok b ↔ ∃ a, attempt = .ok a ∧ f a = .ok b := by
  cases attempt <;> simp [bind, Except.bind]

theorem mapError_eq_ok_iff {ε' : Type} {attempt : Except ε α} {f : ε → ε'} {a : α} :
    attempt.mapError f = .ok a ↔ attempt = .ok a := by
  cases attempt <;> simp [Except.mapError]

theorem mapError_eq_error_iff {ε' : Type} {attempt : Except ε α} {f : ε → ε'} {e' : ε'} :
    attempt.mapError f = .error e' ↔ ∃ e, attempt = .error e ∧ f e = e' := by
  cases attempt <;> simp [Except.mapError]

theorem mapError_map {ε' : Type} {attempt : Except ε α} {f : ε → ε'} {g : α → β} :
    (attempt.map g).mapError f = (attempt.mapError f).map g := by
  cases attempt <;> rfl

/-- The first error is told in other words whether it is looked for before or after. -/
theorem mapError_mapM {ε' : Type} {f : α → Except ε β} {g : ε → ε'} {items : List α} :
    (items.mapM f).mapError g = items.mapM (fun item => (f item).mapError g) := by
  induction items with
  | nil => rfl
  | cons item rest ih =>
      rw [List.mapM_cons, List.mapM_cons, ← ih]
      cases f item with
      | error e => rfl
      | ok answer => cases rest.mapM f <;> rfl

theorem mapM_congr {f g : α → Except ε β} {items : List α}
    (hitems : ∀ item ∈ items, f item = g item) : items.mapM f = items.mapM g := by
  induction items with
  | nil => rfl
  | cons item rest ih =>
      obtain ⟨hitem, hrest⟩ := List.forall_mem_cons.mp hitems
      rw [List.mapM_cons, List.mapM_cons, hitem, ih hrest]

/-- What is done with each answer can be done with all of them together. -/
theorem mapM_map_answer {γ : Type} {f : α → Except ε β} {g : β → γ} {items : List α} :
    items.mapM (fun item => (f item).map g) = (items.mapM f).map (List.map g) := by
  induction items with
  | nil => rfl
  | cons item rest ih =>
      rw [List.mapM_cons, List.mapM_cons, ih]
      cases f item with
      | error e => rfl
      | ok answer => cases rest.mapM f <;> rfl

/-- Two images of one list are related if each item's are. -/
theorem forall₂_map_iff {ι : Type} {R : α → β → Prop} {f : ι → α} {g : ι → β} {indices : List ι} :
    List.Forall₂ R (indices.map f) (indices.map g) ↔ ∀ i ∈ indices, R (f i) (g i) := by
  rw [List.forall₂_map_left_iff, List.forall₂_map_right_iff, List.forall₂_same]

/-- The answers are those to the items, in their order. -/
theorem mapM_eq_ok_iff_forall₂ {f : α → Except ε β} {items : List α} {answers : List β} :
    items.mapM f = .ok answers ↔
      List.Forall₂ (fun item answer => f item = .ok answer) items answers := by
  induction items generalizing answers with
  | nil => cases answers <;> simp [pure, Except.pure]
  | cons item rest ih =>
      rw [List.mapM_cons, List.forall₂_cons_left_iff]
      simp only [bind_eq_ok_iff, ih]
      constructor
      · rintro ⟨answer, hitem, others, hrest, hanswers⟩
        exact ⟨answer, others, hitem, hrest, (Except.ok.inj hanswers).symm⟩
      · rintro ⟨answer, others, hitem, hrest, rfl⟩
        exact ⟨answer, hitem, others, hrest, rfl⟩

/-- Each item is paired with its answer. -/
theorem mapM_eq_ok_iff {f : α → Except ε β} {items : List α} {answers : List β} :
    items.mapM f = .ok answers ↔
      ∃ parts : List (α × β), items = parts.map Prod.fst ∧ answers = parts.map Prod.snd ∧
        ∀ part ∈ parts, f part.1 = .ok part.2 := by
  rw [mapM_eq_ok_iff_forall₂]
  constructor
  · intro hanswers
    induction hanswers with
    | nil => exact ⟨[], rfl, rfl, by simp⟩
    | cons hitem _ ih =>
        obtain ⟨parts, rfl, rfl, hparts⟩ := ih
        exact ⟨(_, _) :: parts, rfl, rfl, List.forall_mem_cons.mpr ⟨hitem, hparts⟩⟩
  · rintro ⟨parts, rfl, rfl, hparts⟩
    exact forall₂_map_iff.mpr hparts

theorem mapM_map_eq_ok {ι : Type} {f : α → Except ε β} {item : ι → α} {answer : ι → β}
    {indices : List ι} (hitems : ∀ i ∈ indices, f (item i) = .ok (answer i)) :
    (indices.map item).mapM f = .ok (indices.map answer) := by
  exact mapM_eq_ok_iff_forall₂.mpr (forall₂_map_iff.mpr hitems)

/-- All items are answered together exactly if each of them is, with these answers. -/
theorem mapM_map_eq_ok_iff {ι : Type} {f : α → Except ε β} {item : ι → α} {P : ι → Prop}
    {answer : ι → β} {indices : List ι}
    (hitems : ∀ i ∈ indices, ∀ b, f (item i) = .ok b ↔ P i ∧ b = answer i) {answers : List β} :
    (indices.map item).mapM f = .ok answers ↔
      (∀ i ∈ indices, P i) ∧ answers = indices.map answer := by
  rw [mapM_eq_ok_iff_forall₂, List.forall₂_map_left_iff]
  induction indices generalizing answers with
  | nil => simp
  | cons i rest ih =>
      obtain ⟨hitem, hrest⟩ := List.forall_mem_cons.mp hitems
      simp only [List.forall₂_cons_left_iff, hitem, ih hrest, List.forall_mem_cons, List.map_cons]
      constructor
      · rintro ⟨_, _, ⟨hi, rfl⟩, ⟨hall, rfl⟩, rfl⟩
        exact ⟨⟨hi, hall⟩, rfl⟩
      · rintro ⟨⟨hi, hall⟩, rfl⟩
        exact ⟨_, _, ⟨hi, rfl⟩, ⟨hall, rfl⟩, rfl⟩

/-- Where every item is either answered or refused with one and the same error, so are all. -/
theorem mapM_refused_or_answered {f : α → Except ε β} {refusal : ε} {P : α → β → Prop}
    {items : List α}
    (hitems : ∀ item ∈ items,
      f item = .error refusal ∨ ∃ answer, f item = .ok answer ∧ P item answer) :
    items.mapM f = .error refusal ∨
      ∃ parts : List (α × β), items = parts.map Prod.fst ∧
        items.mapM f = .ok (parts.map Prod.snd) ∧ ∀ part ∈ parts, P part.1 part.2 := by
  induction items with
  | nil => exact .inr ⟨[], rfl, rfl, by simp⟩
  | cons item rest ih =>
      obtain ⟨hitem, hrest⟩ := List.forall_mem_cons.mp hitems
      rw [List.mapM_cons]
      obtain hrefused | ⟨answer, hanswer, hP⟩ := hitem
      · exact .inl (by rw [hrefused]; rfl)
      · rw [hanswer]
        obtain hrefused | ⟨parts, rfl, hanswers, hparts⟩ := ih hrest
        · exact .inl (by rw [hrefused]; rfl)
        · refine .inr ⟨(item, answer) :: parts, rfl, by rw [hanswers]; rfl, ?_⟩
          exact List.forall_mem_cons.mpr ⟨hP, hparts⟩

/-- The items are refused as the first of them that is not answered. -/
theorem mapM_eq_error_of_first {f : α → Except ε β} {before after : List α} {item : α} {e : ε}
    (hbefore : ∀ item ∈ before, ∃ answer, f item = .ok answer) (hitem : f item = .error e) :
    (before ++ item :: after).mapM f = .error e := by
  induction before with
  | nil =>
      rw [List.nil_append, List.mapM_cons, hitem]
      rfl
  | cons earlier rest ih =>
      obtain ⟨⟨answer, hanswer⟩, hrest⟩ := List.forall_mem_cons.mp hbefore
      rw [List.cons_append, List.mapM_cons, hanswer, ih hrest]
      rfl

/-- A list whose items are all of one form is the image of a list. -/
theorem exists_eq_map {P : α → Prop} {f : α → β} {items : List β}
    (hitems : ∀ item ∈ items, ∃ a, P a ∧ item = f a) :
    ∃ sources : List α, items = sources.map f ∧ ∀ a ∈ sources, P a := by
  induction items with
  | nil => exact ⟨[], rfl, by simp⟩
  | cons item rest ih =>
      obtain ⟨⟨a, ha, rfl⟩, hrest⟩ := List.forall_mem_cons.mp hitems
      obtain ⟨sources, rfl, hsources⟩ := ih hrest
      exact ⟨a :: sources, rfl, List.forall_mem_cons.mpr ⟨ha, hsources⟩⟩

/-- All items are answered together exactly if each of them is. -/
theorem exists_mapM_eq_ok_iff {f : α → Except ε β} {items : List α} :
    (∃ answers, items.mapM f = .ok answers) ↔ ∀ item ∈ items, ∃ answer, f item = .ok answer := by
  constructor
  · rintro ⟨answers, hanswers⟩
    obtain ⟨parts, rfl, -, hparts⟩ := mapM_eq_ok_iff.mp hanswers
    rw [List.forall_mem_map]
    exact fun part hpart => ⟨part.2, hparts part hpart⟩
  · intro hitems
    obtain ⟨parts, hsources, hparts⟩ := exists_eq_map
      (P := fun part : α × β => f part.1 = .ok part.2) (f := Prod.fst) (fun item hitem => by
        obtain ⟨answer, hanswer⟩ := hitems item hitem
        exact ⟨(item, answer), hanswer, rfl⟩)
    exact ⟨_, mapM_eq_ok_iff.mpr ⟨parts, hsources, rfl, hparts⟩⟩

/-! ## What attempts fail by -/

/-- Whatever error an attempt ends with has a property. -/
def FailsOnly (P : ε → Prop) (attempt : Except ε α) : Prop :=
  ∀ e, attempt = .error e → P e

namespace FailsOnly

variable {P Q : ε → Prop} {attempt : Except ε α}

theorem ok (a : α) : FailsOnly P (.ok a : Except ε α) := by
  rintro e ⟨⟩

theorem error {e : ε} (he : P e) : FailsOnly P (.error e : Except ε α) := by
  rintro _ ⟨⟩
  exact he

/-- What there is nothing to fail by is answered. -/
theorem exists_eq_ok (hfails : FailsOnly (fun _ => False) attempt) : ∃ a, attempt = .ok a := by
  cases attempt with
  | ok a => exact ⟨a, rfl⟩
  | error e => exact (hfails e rfl).elim

theorem imp (hfails : FailsOnly P attempt) (himp : ∀ e, P e → Q e) : FailsOnly Q attempt :=
  fun e he => himp e (hfails e he)

theorem bind {f : α → Except ε β} (hfails : FailsOnly P attempt)
    (hnext : ∀ a, attempt = .ok a → FailsOnly P (f a)) : FailsOnly P (attempt >>= f) := by
  cases attempt with
  | ok a => exact hnext a rfl
  | error e => exact .error (hfails e rfl)

theorem map {f : α → β} (hfails : FailsOnly P attempt) : FailsOnly P (attempt.map f) := by
  cases attempt with
  | ok a => exact .ok (f a)
  | error e => exact .error (hfails e rfl)

/-- Attempts with the items of a list fail by one of them. -/
theorem mapM {f : α → Except ε β} {items : List α} (hitems : ∀ item ∈ items, FailsOnly P (f item)) :
    FailsOnly P (items.mapM f) := by
  induction items with
  | nil => exact .ok []
  | cons item rest ih =>
      obtain ⟨hitem, hrest⟩ := List.forall_mem_cons.mp hitems
      rw [List.mapM_cons]
      exact hitem.bind (fun answer _ => (ih hrest).bind (fun others _ => .ok (answer :: others)))

/-- Where there is one refusal only, one item that is refused refuses them all. -/
theorem mapM_eq_error {f : α → Except ε β} {refusal : ε} {items : List α} {item : α}
    (hitems : ∀ item ∈ items, FailsOnly (· = refusal) (f item)) (hitem : item ∈ items)
    (hrefused : f item = .error refusal) : items.mapM f = .error refusal := by
  cases hanswers : items.mapM f with
  | ok answers =>
      obtain ⟨answer, hanswer⟩ := exists_mapM_eq_ok_iff.mp ⟨answers, hanswers⟩ item hitem
      cases hrefused.symm.trans hanswer
  | error e => rw [FailsOnly.mapM hitems e hanswers]

end FailsOnly

/-! ## Attempts that are cut short -/

/-- The second attempt ends as the first, unless the first is cut short: it fails by an error that
tells of a lack of room. -/
def Extends (cut : ε → Prop) (short long : Except ε α) : Prop :=
  (∃ e, cut e ∧ short = .error e) ∨ long = short

/-- The same of attempts that leave a rest, which does not matter where the first is cut short. -/
def ExtendsWithRest {ρ : Type} (cut : ε → Prop) (short long : Except ε α × ρ) : Prop :=
  (∃ e rest, cut e ∧ short = (.error e, rest)) ∨ long = short

namespace Extends

variable {cut : ε → Prop} {short long : Except ε α}

theorem refl (attempt : Except ε α) : Extends cut attempt attempt :=
  .inr rfl

theorem cutShort {e : ε} (hcut : cut e) : Extends cut (.error e) long :=
  .inl ⟨e, hcut, rfl⟩

/-- What is done with the answers of two attempts ends alike if it does for each answer. -/
theorem bind {f g : α → Except ε β} (hextends : Extends cut short long)
    (hnext : ∀ a, short = .ok a → Extends cut (f a) (g a)) :
    Extends cut (short >>= f) (long >>= g) := by
  rcases hextends with ⟨e, hcut, rfl⟩ | rfl
  · exact .cutShort hcut
  · cases long with
    | ok a => exact hnext a rfl
    | error e => exact .refl _

theorem map {f : α → β} (hextends : Extends cut short long) :
    Extends cut (short.map f) (long.map f) := by
  rcases hextends with ⟨e, hcut, rfl⟩ | rfl
  · exact .cutShort hcut
  · exact .refl _

theorem mapM {f g : α → Except ε β} {items : List α}
    (hitems : ∀ item ∈ items, Extends cut (f item) (g item)) :
    Extends cut (items.mapM f) (items.mapM g) := by
  induction items with
  | nil => exact .refl _
  | cons item rest ih =>
      obtain ⟨hitem, hrest⟩ := List.forall_mem_cons.mp hitems
      rw [List.mapM_cons, List.mapM_cons]
      exact hitem.bind (fun answer _ => (ih hrest).bind (fun others _ => .refl _))

/-- Errors may be told in other words, as long as those that tell of no lack of room are told in
the same words for both attempts. -/
theorem mapError {ε' : Type} {cut' : ε' → Prop} {f g : ε → ε'} (hextends : Extends cut short long)
    (hcut : ∀ e, cut e → cut' (f e)) (hsame : ∀ e, ¬cut e → g e = f e) :
    Extends cut' (short.mapError f) (long.mapError g) := by
  rcases hextends with ⟨e, he, rfl⟩ | rfl
  · exact .cutShort (hcut e he)
  · cases long with
    | ok a => exact .refl _
    | error e =>
        by_cases he : cut e
        · exact .cutShort (hcut e he)
        · rw [Except.mapError, Except.mapError, hsame e he]
          exact .refl _

end Extends

namespace ExtendsWithRest

variable {ρ : Type} {cut : ε → Prop} {short long : Except ε α × ρ}

theorem refl (attempt : Except ε α × ρ) : ExtendsWithRest cut attempt attempt :=
  .inr rfl

theorem cutShort {e : ε} {rest : ρ} (hcut : cut e) : ExtendsWithRest cut (.error e, rest) long :=
  .inl ⟨e, rest, hcut, rfl⟩

theorem of_fst {short long : Except ε α} (hextends : Extends cut short long) (rest : ρ) :
    ExtendsWithRest cut (short, rest) (long, rest) := by
  rcases hextends with ⟨e, hcut, rfl⟩ | rfl
  · exact .cutShort hcut
  · exact .refl _

theorem fst (hextends : ExtendsWithRest cut short long) : Extends cut short.1 long.1 := by
  rcases hextends with ⟨e, rest, hcut, rfl⟩ | rfl
  · exact .cutShort hcut
  · exact .refl _

theorem map {f : α → β} (hextends : ExtendsWithRest cut short long) :
    ExtendsWithRest cut (short.1.map f, short.2) (long.1.map f, long.2) := by
  rcases hextends with ⟨e, rest, hcut, rfl⟩ | rfl
  · exact .cutShort hcut
  · exact .refl _

end ExtendsWithRest

end TypedVariant
