import PlanCompiler.Plan.Validity
import Mathlib.Algebra.Group.Nat.Defs
import Mathlib.Data.List.Forall2

/-!
# Successful computations

When a computation that can fail succeeds: a sequence of two does if both do, and a computation
for each member of a list does if it does for every one.

## Main definitions

* `Yields`: a computation succeeds with a result that satisfies a condition;
* `Gives`: a result satisfies a condition if there is one;
* `Ends`: the result satisfies a condition, and so does the error;
* `EndsAlike`: two computations have results that are related, or both have none.

## Main results

* `bind_eq_ok_iff`, `Yields.bind`: the steps of a sequence;
* `mapM_eq_ok_iff`, `Yields.mapM`: the results for the members of a list;
* `Gives.bind`, `Gives.mapM`: the same for results that may not exist;
* `Ends.bind`, `Ends.mapM`, `Ends.forM`: the same for errors;
* `EndsAlike.bind`, `EndsAlike.mapM`: the same for two computations.
-/

namespace PlanCompiler

variable {ε α β : Type}

/-- A sequence succeeds if its steps do. -/
theorem bind_eq_ok_iff {x : Except ε α} {f : α → Except ε β} {b : β} :
    (x >>= f) = .ok b ↔ ∃ a, x = .ok a ∧ f a = .ok b := by
  cases x with
  | error fault => simp [bind, Except.bind]
  | ok a => simp [bind, Except.bind]

/-- A mapped outcome succeeds exactly with the image of a success. -/
theorem map_eq_ok_iff {x : Except ε α} {f : α → β} {b : β} :
    x.map f = .ok b ↔ ∃ a, x = .ok a ∧ f a = b := by
  cases x with
  | error fault => simp [Except.map]
  | ok a => simp [Except.map]

/-- The option of an outcome is its success. -/
theorem toOption_eq_some_iff {x : Except ε α} {a : α} : x.toOption = some a ↔ x = .ok a := by
  cases x <;> simp [Except.toOption]

/-- The members of a list succeed one by one. -/
theorem mapM_eq_ok_iff {f : α → Except ε β} {xs : List α} {ys : List β} :
    xs.mapM f = .ok ys ↔ List.Forall₂ (fun x y => f x = .ok y) xs ys := by
  induction xs generalizing ys with
  | nil => simp [pure, Except.pure, eq_comm]
  | cons x xs ih =>
    simp only [List.mapM_cons, bind_eq_ok_iff, ih, List.forall₂_cons_left_iff]
    constructor
    · rintro ⟨y, first, rest, found, last⟩
      exact ⟨y, rest, first, found, (Except.ok.inj last).symm⟩
    · rintro ⟨y, rest, first, found, rfl⟩
      exact ⟨y, first, rest, found, rfl⟩

/-- The partner of a member of a list. -/
theorem exists_of_mem_of_forall₂ {R : α → β → Prop} {xs : List α} {ys : List β}
    (h : List.Forall₂ R xs ys) {x : α} (member : x ∈ xs) : ∃ y ∈ ys, R x y := by
  induction h with
  | nil => cases member
  | cons first _ ih =>
    rcases List.mem_cons.1 member with rfl | member
    · exact ⟨_, List.mem_cons_self, first⟩
    · obtain ⟨y, found, related⟩ := ih member
      exact ⟨y, List.mem_cons_of_mem _ found, related⟩

/-- The members of a list succeed all together exactly if each of them does. -/
theorem exists_mapM_eq_ok_iff {f : α → Except ε β} {xs : List α} :
    (∃ ys, xs.mapM f = .ok ys) ↔ ∀ x ∈ xs, ∃ y, f x = .ok y := by
  induction xs with
  | nil => simp [pure, Except.pure]
  | cons x xs ih =>
    rw [List.forall_mem_cons, ← ih]
    simp only [mapM_eq_ok_iff]
    constructor
    · rintro ⟨_, _ | ⟨first, others⟩⟩
      exact ⟨⟨_, first⟩, _, others⟩
    · rintro ⟨⟨y, first⟩, ys, others⟩
      exact ⟨y :: ys, .cons first others⟩

/-- A computation succeeds with a result that satisfies a condition. -/
def Yields (x : Except ε α) (Q : α → Prop) : Prop := ∃ a, x = .ok a ∧ Q a

namespace Yields

variable {x : Except ε α} {f : α → Except ε β} {Q : α → Prop} {R : β → Prop}

/-- A success that satisfies the condition yields it. -/
theorem ok {a : α} (h : Q a) : Yields (.ok a : Except ε α) Q := ⟨a, rfl, h⟩

/-- What is yielded may be weakened. -/
theorem imp (h : Yields x Q) {Q' : α → Prop} (weaker : ∀ a, Q a → Q' a) : Yields x Q' := by
  obtain ⟨a, found, satisfied⟩ := h
  exact ⟨a, found, weaker a satisfied⟩

/-- A sequence succeeds if its first step does and the others do after it. -/
theorem bind (h : Yields x Q) (others : ∀ a, Q a → Yields (f a) R) : Yields (x >>= f) R := by
  obtain ⟨a, found, satisfied⟩ := h
  obtain ⟨b, result, wanted⟩ := others a satisfied
  exact ⟨b, bind_eq_ok_iff.2 ⟨a, found, result⟩, wanted⟩

/-- A computation for each member of a list succeeds if it does for every member. -/
theorem mapM {xs : List α} {S : α → β → Prop} (h : ∀ a ∈ xs, Yields (f a) (S a)) :
    Yields (xs.mapM f) (List.Forall₂ S xs) := by
  induction xs with
  | nil => exact ⟨[], rfl, .nil⟩
  | cons a as ih =>
    rw [List.mapM_cons]
    refine (h a List.mem_cons_self).bind fun b related => ?_
    refine (ih fun a member => h a (List.mem_cons_of_mem _ member)).bind fun bs others => ?_
    exact ⟨b :: bs, rfl, .cons related others⟩

end Yields

/-- If a computation succeeds, its result satisfies a condition. -/
def Gives (x : Except ε α) (Q : α → Prop) : Prop := ∀ a, x = .ok a → Q a

namespace Gives

variable {x : Except ε α} {f : α → Except ε β} {Q : α → Prop} {R : β → Prop}

/-- A success that satisfies the condition gives it. -/
theorem ok {a : α} (h : Q a) : Gives (.ok a : Except ε α) Q := by
  rintro _ ⟨⟩
  exact h

/-- A failure gives anything. -/
theorem error (e : ε) : Gives (.error e : Except ε α) Q := nofun

/-- What is given may be weakened. -/
theorem imp (h : Gives x Q) {Q' : α → Prop} (weaker : ∀ a, Q a → Q' a) : Gives x Q' :=
  fun a found => weaker a (h a found)

/-- The result of a sequence is that of its last step. -/
theorem bind (h : Gives x Q) (others : ∀ a, Q a → Gives (f a) R) : Gives (x >>= f) R := by
  intro b result
  obtain ⟨a, found, result⟩ := bind_eq_ok_iff.1 result
  exact others a (h a found) b result

/-- Nothing has to be known of the first step. -/
theorem of_bind (others : ∀ a, Gives (f a) R) : Gives (x >>= f) R :=
  bind (Q := fun _ => True) (fun _ _ => trivial) fun a _ => others a

/-- What is assumed of a result may be used about how it came about. -/
theorem assume {P : Prop} {Q' : α → Prop} (assumed : Gives x fun a => Q a → P)
    (h : P → Gives x Q') : Gives x fun a => Q a → Q' a :=
  fun a found known => h (assumed a found known) a found

/-- Computations that each give a condition give it for all their results. -/
theorem mapM {xs : List α} {S : β → Prop} (h : ∀ a ∈ xs, Gives (f a) S) :
    Gives (xs.mapM f) fun ys => ∀ y ∈ ys, S y := by
  intro ys found
  rw [mapM_eq_ok_iff] at found
  induction found with
  | nil => exact List.forall_mem_nil _
  | cons first _ ih =>
    exact List.forall_mem_cons.2 ⟨h _ List.mem_cons_self _ first,
      ih fun a member => h a (List.mem_cons_of_mem _ member)⟩

end Gives

/-- The result of a computation that succeeds is its only one. -/
theorem Yields.gives {x : Except ε α} {Q : α → Prop} (h : Yields x Q) : Gives x Q := by
  obtain ⟨a, found, satisfied⟩ := h
  intro b result
  exact Except.ok.inj (found.symm.trans result) ▸ satisfied

/-- A computation that succeeds has a result with all that is known of its results. -/
theorem Yields.and {x : Except ε α} {Q R : α → Prop} (h : Yields x Q) (also : Gives x R) :
    Yields x fun a => Q a ∧ R a := by
  obtain ⟨a, found, satisfied⟩ := h
  exact ⟨a, found, satisfied, also a found⟩

/-- A computation ends with a result that satisfies a condition, or with an error that satisfies
one. -/
def Ends (x : Except ε α) (Q : α → Prop) (E : ε → Prop) : Prop :=
  match x with
  | .ok a => Q a
  | .error e => E e

namespace Ends

variable {x : Except ε α} {f : α → Except ε β} {Q : α → Prop} {R : β → Prop} {E : ε → Prop}

/-- A sequence ends with the error of the first step that fails. -/
theorem bind (h : Ends x Q E) (others : ∀ a, Q a → Ends (f a) R E) : Ends (x >>= f) R E := by
  cases x with
  | ok a => exact others a h
  | error e => exact h

/-- What a success ensures may be weakened. -/
theorem imp (h : Ends x Q E) {Q' : α → Prop} (weaker : ∀ a, Q a → Q' a) : Ends x Q' E := by
  cases x with
  | ok a => exact weaker a h
  | error e => exact h

/-- What a failure ensures may be weakened. -/
theorem impError (h : Ends x Q E) {E' : ε → Prop} (weaker : ∀ e, E e → E' e) : Ends x Q E' := by
  cases x with
  | ok a => exact h
  | error e => exact weaker e h

/-- A mapped failure ensures what the map makes of it. -/
theorem mapError {ε' : Type} {E' : ε' → Prop} {g : ε → ε'} (h : Ends x Q E)
    (others : ∀ e, E e → E' (g e)) : Ends (x.mapError g) Q E' := by
  cases x with
  | ok a => exact h
  | error e => exact others e h

/-- A check of every member of a list ends with the error of one of them. -/
theorem forM {xs : List α} {check : α → Except ε Unit}
    (h : ∀ a ∈ xs, Ends (check a) (fun _ => True) E) : Ends (xs.forM check) (fun _ => True) E := by
  induction xs with
  | nil => exact True.intro
  | cons a as ih =>
    exact (h a List.mem_cons_self).bind fun _ _ =>
      ih fun a member => h a (List.mem_cons_of_mem _ member)

/-- A computation for each member of a list ends with the error of one of them. -/
theorem mapM {xs : List α} (h : ∀ a ∈ xs, Ends (f a) (fun _ => True) E) :
    Ends (xs.mapM f) (fun _ => True) E := by
  induction xs with
  | nil => exact True.intro
  | cons a as ih =>
    rw [List.mapM_cons]
    refine (h a List.mem_cons_self).bind fun _ _ => ?_
    exact (ih fun a member => h a (List.mem_cons_of_mem _ member)).bind fun _ _ => True.intro

/-- Nothing is known of a computation but how it ended. -/
theorem trivial : Ends x (fun _ => True) fun _ => True := by
  cases x <;> exact True.intro

instance [DecidablePred Q] [DecidablePred E] : Decidable (Ends x Q E) :=
  match x with
  | .ok a => inferInstanceAs (Decidable (Q a))
  | .error e => inferInstanceAs (Decidable (E e))

/-- What can only end in one failure does so. -/
theorem eq_error {e : ε} (h : Ends x (fun _ => False) (· = e)) : x = .error e := by
  cases x with
  | ok a => exact h.elim
  | error e => exact congrArg Except.error h

end Ends

/-- Two computations have results that are related, or both fail. -/
inductive EndsAlike {α' : Type} (R : α → α' → Prop) : Except ε α → Except ε α' → Prop
  | ok {a : α} {a' : α'} (related : R a a') : EndsAlike R (.ok a) (.ok a')
  | error (e e' : ε) : EndsAlike R (.error e) (.error e')

namespace EndsAlike

variable {α' β' : Type} {x : Except ε α} {x' : Except ε α'} {R : α → α' → Prop}
  {S : β → β' → Prop} {f : α → Except ε β}

/-- Steps that end alike on related results. -/
theorem bind {f' : α' → Except ε β'} (h : EndsAlike R x x')
    (others : ∀ a a', R a a' → EndsAlike S (f a) (f' a')) : EndsAlike S (x >>= f) (x' >>= f') := by
  cases h with
  | ok related => exact others _ _ related
  | error e e' => exact .error e e'

/-- The first step is the same. -/
theorem of_bind {f' : α → Except ε β'} (others : ∀ a, EndsAlike S (f a) (f' a)) :
    EndsAlike S (x >>= f) (x >>= f') := by
  cases x with
  | ok a => exact others a
  | error e => exact .error e e

/-- Computations that end alike one by one do so together. -/
theorem mapM {f' : α → Except ε β'} {xs : List α} (h : ∀ a ∈ xs, EndsAlike S (f a) (f' a)) :
    EndsAlike (List.Forall₂ S) (xs.mapM f) (xs.mapM f') := by
  induction xs with
  | nil => exact .ok .nil
  | cons a as ih =>
    rw [List.mapM_cons, List.mapM_cons]
    refine (h a List.mem_cons_self).bind fun b b' related => ?_
    refine (ih fun a member => h a (List.mem_cons_of_mem _ member)).bind fun bs bs' others => ?_
    exact .ok (.cons related others)

/-- A result of the one computation has its counterpart. -/
theorem exists_of_eq_ok (h : EndsAlike R x x') {a : α} (found : x = .ok a) :
    ∃ a', x' = .ok a' ∧ R a a' := by
  subst found
  cases h with
  | ok related => exact ⟨_, rfl, related⟩

end EndsAlike

end PlanCompiler
