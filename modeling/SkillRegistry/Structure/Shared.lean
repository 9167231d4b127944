import Mathlib.Tactic.Common

/-!
# Programs beside other writers

A program that works on a database by statements which each see, and change, a state
of their own: between two of its statements others may commit whatever they like.

* `Shared` is the monad of such programs, with `Shared.stmt` for a statement and
  `Shared.select` for one that only reads; a program is given what the others commit
  before each of its statements;
* `Shared.Still db x r` says that `x` results in `r` when all its statements see `db`, and
  `Shared.Alone x s r s'` that `x` takes `s` to `s'` with the result `r` when nobody else commits;
* `Shared.Triple R P x Q E` says what holds of `x` beside others whose commits are
  steps of `R`: from a state satisfying `P`, if it returns then its result and its last
  state satisfy `Q`, and if it raises then its exception satisfies `E`. There is one
  rule for each construct; only a statement has to live with the others;
* `Shared.wp R x Q E` are the states from which `x` ends in `Q` or `E`, each about its
  result and its last state: the same rules, for a program that is followed forwards.
-/

/-- What became of a program: how many statements it ran, the state it ended in, and
    its result. -/
@[ext]
structure Shared.Outcome (σ ε α : Type) where
  steps : Nat
  state : σ
  result : Except ε α

/-- A program on a shared state `σ`, raising exceptions `ε`: it is given what others
    commit before each of its statements, and counts its statements. -/
def Shared (σ ε α : Type) := (Nat → σ → σ) → Nat → σ → Shared.Outcome σ ε α

namespace Shared

variable {σ ε α β : Type}

/-- The program that returns. -/
def ret (a : α) : Shared σ ε α := fun _ n s => ⟨n, s, .ok a⟩

/-- The program that runs `x`, then `f` on its result. -/
def andThen (x : Shared σ ε α) (f : α → Shared σ ε β) : Shared σ ε β := fun others n s =>
  match (x others n s).result with
  | .ok a => f a others (x others n s).steps (x others n s).state
  | .error e => ⟨(x others n s).steps, (x others n s).state, .error e⟩

instance instMonad : Monad (Shared σ ε) where
  pure := ret
  bind := andThen

/-- A computation that needs no statement. -/
def lift (r : Except ε α) : Shared σ ε α := fun _ n s => ⟨n, s, r⟩

/-- A statement: it works on the state the others left, and does nothing if it raises. -/
def stmt (f : σ → Except ε (α × σ)) : Shared σ ε α := fun others n s =>
  match f (others n s) with
  | .ok (a, s') => ⟨n + 1, s', .ok a⟩
  | .error e => ⟨n + 1, others n s, .error e⟩

/-- A statement that only reads. -/
def select (f : σ → α) : Shared σ ε α := stmt fun s => .ok (f s, s)

@[simp] theorem select_apply (f : σ → α) (others : Nat → σ → σ) (n : Nat) (s : σ) :
    (select f : Shared σ ε α) others n s = ⟨n + 1, others n s, .ok (f (others n s))⟩ := rfl

/-- The others, given by the state that each statement sees. -/
def sees (view : Nat → σ) : Nat → σ → σ := fun n _ => view n

@[simp] theorem sees_apply (view : Nat → σ) (n : Nat) (s : σ) : sees view n s = view n := rfl

/-- The program `x`; an exception that it raises is its result. -/
def attempt (x : Shared σ ε α) : Shared σ ε (Except ε α) := fun others n s =>
  ⟨(x others n s).steps, (x others n s).state, .ok (x others n s).result⟩

/-- All that a program finds in a list, item by item. -/
def collect (f : α → Shared σ ε (List β)) : List α → Shared σ ε (List β)
  | [] => pure []
  | x :: xs => do
    let found ← f x
    let rest ← collect f xs
    pure (found ++ rest)

/-- The program `x`; an exception that it raises is passed through `f`. -/
def rethrow (x : Shared σ ε α) (f : ε → ε) : Shared σ ε α := fun others n s =>
  { x others n s with result := (x others n s).result.mapError f }

theorem bind_of_ok {x : Shared σ ε α} {f : α → Shared σ ε β} {others : Nat → σ → σ} {n m : Nat}
    {s s' : σ} {a : α} (h : x others n s = ⟨m, s', .ok a⟩) :
    (x >>= f) others n s = f a others m s' := by
  change andThen x f others n s = _
  rw [andThen, h]

theorem bind_of_error {x : Shared σ ε α} {f : α → Shared σ ε β} {others : Nat → σ → σ} {n m : Nat}
    {s s' : σ} {e : ε} (h : x others n s = ⟨m, s', .error e⟩) :
    (x >>= f) others n s = ⟨m, s', .error e⟩ := by
  change andThen x f others n s = _
  rw [andThen, h]

@[simp] theorem select_bind (f : σ → α) (g : α → Shared σ ε β) (others : Nat → σ → σ) (n : Nat)
    (s : σ) :
    (select f >>= g) others n s = g (f (others n s)) others (n + 1) (others n s) := rfl

@[simp] theorem lift_apply (r : Except ε α) (others : Nat → σ → σ) (n : Nat) (s : σ) :
    lift r others n s = ⟨n, s, r⟩ := rfl

/-- A program that returns ran its first part to a result. -/
theorem bind_eq_ok {x : Shared σ ε α} {f : α → Shared σ ε β} {others : Nat → σ → σ} {n : Nat}
    {s : σ} {b : β} (h : ((x >>= f) others n s).result = .ok b) :
    ∃ m s' a, x others n s = ⟨m, s', .ok a⟩ ∧ (f a others m s').result = .ok b := by
  rcases hx : x others n s with ⟨m, s', r⟩
  cases r with
  | ok a => exact ⟨m, s', a, rfl, by rwa [bind_of_ok hx] at h⟩
  | error e =>
    rw [bind_of_error hx] at h
    cases h

/-! ## Without others -/

/-- The program `x` results in `r` when all its statements see `db`. -/
def Still (db : σ) (x : Shared σ ε α) (r : Except ε α) : Prop :=
  ∀ n s, (x (sees fun _ => db) n s).result = r

theorem still_lift (db : σ) (r : Except ε α) : Still db (lift r) r := fun _ _ => rfl

theorem still_bind {db : σ} {x : Shared σ ε α} {f : α → Shared σ ε β} {r : Except ε α}
    {g : α → Except ε β} (hx : Still db x r) (hf : ∀ a, Still db (f a) (g a)) :
    Still db (x >>= f) (r >>= g) := by
  intro n s
  rcases hr : x (sees fun _ => db) n s with ⟨m, s', r'⟩
  have hrr : r' = r := by rw [← hx n s, hr]
  subst hrr
  cases r' with
  | ok a =>
    rw [bind_of_ok hr]
    exact hf a m s'
  | error e =>
    rw [bind_of_error hr]
    rfl

/-- A statement that reads. -/
theorem still_select {db : σ} {f : σ → α} {g : α → Shared σ ε β} {r : Except ε β}
    (h : Still db (g (f db)) r) : Still db (select f >>= g) r :=
  fun n _ => h (n + 1) _

/-- Alone on the state `s`, the program `x` results in `r` and leaves the state `s'`. -/
def Alone (x : Shared σ ε α) (s : σ) (r : Except ε α) (s' : σ) : Prop :=
  ∀ n, ∃ m, x (fun _ s => s) n s = ⟨m, s', r⟩

section Alone

variable {x : Shared σ ε α} {f : α → Shared σ ε β} {r : Except ε β} {a : α} {e : ε} {s s' s'' : σ}

theorem alone_lift (r : Except ε α) (s : σ) : Alone (lift r) s r s := fun n => ⟨n, rfl⟩

theorem alone_pure (a : α) (s : σ) : Alone (pure a : Shared σ ε α) s (.ok a) s := fun n => ⟨n, rfl⟩

theorem Alone.andThen (hx : Alone x s (.ok a) s') (hf : Alone (f a) s' r s'') :
    Alone (x >>= f) s r s'' := by
  intro n
  obtain ⟨m, hm⟩ := hx n
  rw [bind_of_ok hm]
  exact hf m

theorem Alone.raise (hx : Alone x s (.error e) s') : Alone (x >>= f) s (.error e) s' := by
  intro n
  obtain ⟨m, hm⟩ := hx n
  exact ⟨m, bind_of_error hm⟩

theorem alone_check {y : Except ε α} (hy : y = .ok a) (hf : Alone (f a) s r s') :
    Alone (lift y >>= f) s r s' := Alone.andThen (hy ▸ alone_lift y s) hf

theorem alone_check_error {y : Except ε α} (hy : y = .error e) :
    Alone (lift y >>= f) s (.error e) s := Alone.raise (hy ▸ alone_lift y s)

theorem alone_select {f : σ → α} {g : α → Shared σ ε β} (h : Alone (g (f s)) s r s') :
    Alone (select f >>= g) s r s' := fun n => h (n + 1)

theorem alone_stmt {f : σ → Except ε (α × σ)} (h : f s = .ok (a, s')) :
    Alone (stmt f) s (.ok a) s' := by
  intro n
  refine ⟨n + 1, ?_⟩
  rw [stmt, h]

theorem alone_stmt_error {f : σ → Except ε (α × σ)} (h : f s = .error e) :
    Alone (stmt f) s (.error e) s := by
  intro n
  refine ⟨n + 1, ?_⟩
  rw [stmt, h]

theorem Alone.rethrow {r : Except ε α} (h : Alone x s r s') (f : ε → ε) :
    Alone (rethrow x f) s (r.mapError f) s' := by
  intro n
  obtain ⟨m, hm⟩ := h n
  exact ⟨m, by rw [Shared.rethrow, hm]⟩

/-- What is found in a list, item by item, when each item leaves the state as it is. -/
theorem alone_collect {f : α → Shared σ ε (List β)} {g : α → Except ε (List β)} {xs : List α}
    (h : ∀ x, Alone (f x) s (g x) s) :
    Alone (collect f xs) s ((xs.mapM g).map List.flatten) s := by
  induction xs with
  | nil => exact alone_pure [] s
  | cons x xs ih =>
    have hx := h x
    rw [List.mapM_cons]
    cases hg : g x with
    | error e =>
      rw [hg] at hx
      exact hx.raise
    | ok found =>
      rw [hg] at hx
      refine hx.andThen ?_
      cases hgs : xs.mapM g with
      | error e =>
        rw [hgs] at ih
        exact ih.raise
      | ok rest =>
        rw [hgs] at ih
        exact ih.andThen (alone_pure _ s)

end Alone

/-! ## Correctness beside others -/

/-- What holds of a program beside others whose commits are steps of `R`. -/
def Triple (R : σ → σ → Prop) (P : σ → Prop) (x : Shared σ ε α) (Q : α → σ → Prop)
    (E : ε → Prop) : Prop :=
  ∀ others : Nat → σ → σ, (∀ n s, R s (others n s)) → ∀ n s, P s →
    match (x others n s).result with
    | .ok a => Q a (x others n s).state
    | .error e => E e

variable {R : σ → σ → Prop} {P : σ → Prop} {Q : α → σ → Prop} {E : ε → Prop}

theorem Triple.mono {P' : σ → Prop} {Q' : α → σ → Prop} {E' : ε → Prop} {x : Shared σ ε α}
    (h : Triple R P x Q E) (hP : ∀ s, P' s → P s) (hQ : ∀ a s, Q a s → Q' a s)
    (hE : ∀ e, E e → E' e) : Triple R P' x Q' E' := by
  intro others hothers n s hs
  have := h others hothers n s (hP s hs)
  split at this
  · exact hQ _ _ this
  · exact hE _ this

theorem triple_pure (a : α) : Triple R (Q a) (pure a : Shared σ ε α) Q E :=
  fun _ _ _ _ hs => hs

theorem triple_lift {r : Except ε α} (hQ : ∀ a s, P s → r = .ok a → Q a s)
    (hE : ∀ e s, P s → r = .error e → E e) : Triple R P (lift r) Q E := by
  intro _ _ _ s hs
  cases r with
  | ok a => exact hQ a s hs rfl
  | error e => exact hE e s hs rfl

theorem triple_bind {x : Shared σ ε α} {f : α → Shared σ ε β} {S : β → σ → Prop}
    (hx : Triple R P x Q E) (hf : ∀ a, Triple R (Q a) (f a) S E) : Triple R P (x >>= f) S E := by
  intro others hothers n s hs
  have hs' := hx others hothers n s hs
  rcases hr : x others n s with ⟨m, s', r⟩
  rw [hr] at hs'
  cases r with
  | ok a =>
    rw [bind_of_ok hr]
    exact hf a others hothers m s' hs'
  | error e =>
    rw [bind_of_error hr]
    exact hs'

/-- A statement sees a state that the others may have moved on to. -/
theorem triple_stmt {f : σ → Except ε (α × σ)}
    (hQ : ∀ s s' a t, P s → R s s' → f s' = .ok (a, t) → Q a t)
    (hE : ∀ s s' e, P s → R s s' → f s' = .error e → E e) : Triple R P (stmt f) Q E := by
  intro others hothers n s hs
  rw [stmt]
  cases h : f (others n s) with
  | ok r => exact hQ s _ r.1 r.2 hs (hothers n s) h
  | error e => exact hE s _ e hs (hothers n s) h

theorem triple_select {f : σ → α} (hQ : ∀ s s', P s → R s s' → Q (f s') s') :
    Triple R P (select f : Shared σ ε α) Q E :=
  fun _ hothers n s hs => hQ s _ hs (hothers n s)

theorem triple_rethrow {x : Shared σ ε α} {f : ε → ε} {E' : ε → Prop} (hx : Triple R P x Q E)
    (hE : ∀ e, E e → E' (f e)) : Triple R P (rethrow x f) Q E' := by
  intro others hothers n s hs
  have := hx others hothers n s hs
  rw [rethrow]
  cases hr : (x others n s).result with
  | ok a => rwa [hr] at this
  | error e =>
    rw [hr] at this
    exact hE e this

/-! ## Weakest preconditions -/

/-- The states from which a program, beside others whose commits are steps of `R`, returns and
    ends in `Q`, or raises and ends in `E`. -/
def wp (R : σ → σ → Prop) (x : Shared σ ε α) (Q : α → σ → Prop) (E : ε → σ → Prop) (s : σ) : Prop :=
  ∀ others : Nat → σ → σ, (∀ n s, R s (others n s)) → ∀ n,
    match (x others n s).result with
    | .ok a => Q a (x others n s).state
    | .error e => E e (x others n s).state

section Wp

variable {Q : α → σ → Prop} {E : ε → σ → Prop} {s : σ}

theorem wp.mono {Q' : α → σ → Prop} {E' : ε → σ → Prop} {x : Shared σ ε α} (h : wp R x Q E s)
    (hQ : ∀ a s, Q a s → Q' a s) (hE : ∀ e s, E e s → E' e s) : wp R x Q' E' s := by
  intro others hothers n
  have := h others hothers n
  split at this
  · exact hQ _ _ this
  · exact hE _ _ this

section Outcome

variable {x : Shared σ ε α} {others : Nat → σ → σ} {n : Nat} (h : wp R x Q E s)
  (hothers : ∀ n s, R s (others n s))
include h hothers

/-- How a program that returns has ended. -/
theorem wp.of_ok {a : α} (hr : (x others n s).result = .ok a) : Q a (x others n s).state := by
  have := h others hothers n
  rwa [hr] at this

/-- How a program that raises has ended. -/
theorem wp.of_error {e : ε} (hr : (x others n s).result = .error e) : E e (x others n s).state := by
  have := h others hothers n
  rwa [hr] at this

end Outcome

theorem wp_pure {a : α} (h : Q a s) : wp R (pure a : Shared σ ε α) Q E s := fun _ _ _ => h

theorem wp_ok {a : α} (h : Q a s) : wp R (lift (.ok a) : Shared σ ε α) Q E s := fun _ _ _ => h

theorem wp_error {e : ε} (h : E e s) : wp R (lift (.error e) : Shared σ ε α) Q E s := fun _ _ _ => h

theorem wp_bind {S : β → σ → Prop} {x : Shared σ ε α} {f : α → Shared σ ε β}
    (h : wp R x (fun a s' => wp R (f a) S E s') E s) : wp R (x >>= f) S E s := by
  intro others hothers n
  have hx := h others hothers n
  rcases hr : x others n s with ⟨m, s', r⟩
  rw [hr] at hx
  cases r with
  | ok a =>
    rw [bind_of_ok hr]
    exact hx others hothers m
  | error e =>
    rw [bind_of_error hr]
    exact hx

/-- A statement that reads sees a state that the others may have moved on to. -/
theorem wp_select {S : β → σ → Prop} {f : σ → α} {g : α → Shared σ ε β}
    (h : ∀ s', R s s' → wp R (g (f s')) S E s') : wp R (select f >>= g) S E s :=
  wp_bind fun _ hothers n => h _ (hothers n s)

theorem wp_stmt {f : σ → Except ε (α × σ)} (hQ : ∀ s' a t, R s s' → f s' = .ok (a, t) → Q a t)
    (hE : ∀ s' e, R s s' → f s' = .error e → E e s') : wp R (stmt f) Q E s := by
  intro others hothers n
  rw [stmt]
  cases h : f (others n s) with
  | ok r => exact hQ _ r.1 r.2 (hothers n s) h
  | error e => exact hE _ e (hothers n s) h

theorem wp_rethrow {x : Shared σ ε α} {f : ε → ε} (h : wp R x Q (fun e s => E (f e) s) s) :
    wp R (rethrow x f) Q E s := by
  intro others hothers n
  have := h others hothers n
  rw [rethrow]
  cases hr : (x others n s).result with
  | ok a => rwa [hr] at this
  | error e => rwa [hr] at this

theorem wp_attempt {x : Shared σ ε α} {S : Except ε α → σ → Prop}
    (h : wp R x (fun a s => S (.ok a) s) (fun e s => S (.error e) s) s) :
    wp R (attempt x) S E s := by
  intro others hothers n
  have := h others hothers n
  change S (x others n s).result (x others n s).state
  cases hr : (x others n s).result with
  | ok a => rwa [hr] at this
  | error e => rwa [hr] at this

/-- A program finds nothing in a list when it finds nothing in any of its items, whatever state
    the items before left of those that satisfy `I`. -/
theorem wp_collect {I : σ → Prop} {f : α → Shared σ ε (List β)} {xs : List α}
    (h : ∀ x ∈ xs, ∀ s, I s → wp R (f x) (fun found s' => found = [] ∧ I s') E s) (hs : I s) :
    wp R (collect f xs) (fun found s' => found = [] ∧ I s') E s := by
  induction xs generalizing s with
  | nil => exact wp_pure ⟨rfl, hs⟩
  | cons x xs ih =>
    obtain ⟨hx, hxs⟩ := List.forall_mem_cons.1 h
    refine wp_bind ((hx s hs).mono ?_ fun _ _ he => he)
    rintro found s' ⟨rfl, hs'⟩
    refine wp_bind ((ih hxs hs').mono ?_ fun _ _ he => he)
    rintro rest s'' ⟨rfl, hs''⟩
    exact wp_pure ⟨rfl, hs''⟩

end Wp

end Shared
