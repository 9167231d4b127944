import Mathlib.Tactic.Common

/-!
# Programs inside a transaction

A program that runs statements on a database inside one transaction. Any statement
may fail for a reason of its own or because the database fails to run it, which is
an oracle's choice; the program then ends with an exception. What the program did
before is not part of an exception: the transaction is rolled back.

* `Tx` is the monad of such programs, with `Tx.stmt` for a statement, `Tx.lift` for a
  computation that may raise, and `Tx.rethrow` for a handler that raises again;
* `Tx.Triple P x Q` is partial correctness: from a database satisfying `P`, if `x`
  returns, its result and the database satisfy `Q`. There is one rule for each
  construct;
* `Tx.Runs s x a t` is a run in which no statement fails: from `s` the program `x` returns
  `a`, and leaves `t`.
-/

/-- A program on a database `σ`, raising exceptions `ε`: it is given what fails at
    each statement, and counts the statements it runs. -/
def Tx (σ ε α : Type) := (Nat → Option ε) → Nat → σ → Except ε (α × Nat × σ)

namespace Tx

variable {σ ε α β : Type}

/-- The program that returns. -/
def ret (a : α) : Tx σ ε α := fun _ n s => .ok (a, n, s)

/-- The program that runs `x`, then `f` on its result. -/
def andThen (x : Tx σ ε α) (f : α → Tx σ ε β) : Tx σ ε β := fun fault n s =>
  match x fault n s with
  | .ok (a, n, s) => f a fault n s
  | .error e => .error e

instance : Monad (Tx σ ε) where
  pure := ret
  bind := andThen

/-- The program that raises. -/
def fail (e : ε) : Tx σ ε α := fun _ _ _ => .error e

/-- The program that returns the value of a computation, or raises its exception. -/
def lift (x : Except ε α) : Tx σ ε α := fun _ n s => x.map (·, n, s)

/-- A statement on the database. -/
def stmt (f : σ → Except ε (α × σ)) : Tx σ ε α := fun fault n s =>
  match fault n with
  | some e => .error e
  | none => (f s).map fun r => (r.1, n + 1, r.2)

/-- A statement that reads. -/
def select (f : σ → α) : Tx σ ε α := stmt fun s => .ok (f s, s)

/-- A statement that writes and cannot fail on its own. -/
def execute (f : σ → σ) : Tx σ ε Unit := stmt fun s => .ok ((), f s)

/-- The program `x`, its exceptions replaced. -/
def rethrow (x : Tx σ ε α) (handle : ε → ε) : Tx σ ε α := fun fault n s =>
  (x fault n s).mapError handle

/-! ## Runs -/

theorem bind_of_ok {x : Tx σ ε α} {f : α → Tx σ ε β} {fault : Nat → Option ε} {n m : Nat} {s t : σ}
    {a : α} (h : x fault n s = .ok (a, m, t)) : (x >>= f) fault n s = f a fault m t := by
  change andThen x f fault n s = _
  rw [andThen, h]

theorem bind_of_error {x : Tx σ ε α} {f : α → Tx σ ε β} {fault : Nat → Option ε} {n : Nat} {s : σ}
    {e : ε} (h : x fault n s = .error e) : (x >>= f) fault n s = .error e := by
  change andThen x f fault n s = _
  rw [andThen, h]

theorem select_of_none (f : σ → α) {fault : Nat → Option ε} {n : Nat} (h : fault n = none) (s : σ) :
    select f fault n s = .ok (f s, n + 1, s) := by
  rw [select, stmt, h]
  rfl

instance : LawfulMonad (Tx σ ε) := LawfulMonad.mk' _
  (by
    intro α x
    funext fault n s
    change andThen x ret fault n s = x fault n s
    rw [andThen]
    cases x fault n s <;> rfl)
  (fun _ _ => rfl)
  (by
    intro α β γ x f g
    funext fault n s
    change andThen (andThen x f) g fault n s = andThen x (fun a => andThen (f a) g) fault n s
    simp only [andThen]
    cases x fault n s <;> rfl)

/-! ## Partial correctness -/

/-- From a database satisfying `P`, if `x` returns, its result and the database
    satisfy `Q`. -/
def Triple (P : σ → Prop) (x : Tx σ ε α) (Q : α → σ → Prop) : Prop :=
  ∀ fault n s r, P s → x fault n s = .ok r → Q r.1 r.2.2

variable {P : σ → Prop} {Q : α → σ → Prop}

theorem Triple.mono {P' : σ → Prop} {Q' : α → σ → Prop} {x : Tx σ ε α} (h : Triple P x Q)
    (hP : ∀ s, P' s → P s) (hQ : ∀ a s, Q a s → Q' a s) : Triple P' x Q' :=
  fun fault n s r hs hr => hQ _ _ (h fault n s r (hP s hs) hr)

theorem triple_pure (a : α) : Triple (Q a) (pure a : Tx σ ε α) Q := by
  intro fault n s r hs hr
  obtain rfl := Except.ok.inj hr
  exact hs

/-- The program that runs one program after another meets what the second meets after
    the first. -/
theorem triple_bind {x : Tx σ ε α} {f : α → Tx σ ε β} {R : β → σ → Prop} (hx : Triple P x Q)
    (hf : ∀ a, Triple (Q a) (f a) R) : Triple P (x >>= f) R := by
  intro fault n s r hs hr
  change andThen x f fault n s = .ok r at hr
  rw [andThen] at hr
  cases h : x fault n s with
  | error e => rw [h] at hr; cases hr
  | ok q =>
    obtain ⟨a, m, t⟩ := q
    rw [h] at hr
    exact hf a fault m t r (hx fault n s _ hs h) hr

theorem triple_fail (e : ε) : Triple P (fail e : Tx σ ε α) Q := by
  intro fault n s r hs hr
  cases hr

theorem triple_lift {x : Except ε α} (h : ∀ s a, P s → x = .ok a → Q a s) :
    Triple P (lift x) Q := by
  intro fault n s r hs hr
  cases x with
  | error e => cases hr
  | ok a =>
    obtain rfl := Except.ok.inj hr
    exact h s a hs rfl

theorem triple_stmt {f : σ → Except ε (α × σ)} (h : ∀ s a s', P s → f s = .ok (a, s') → Q a s') :
    Triple P (stmt f) Q := by
  intro fault n s r hs hr
  rw [stmt] at hr
  cases hn : fault n with
  | some e => rw [hn] at hr; cases hr
  | none =>
    rw [hn] at hr
    cases hf : f s with
    | error e => rw [hf] at hr; cases hr
    | ok q =>
      rw [hf] at hr
      obtain rfl := Except.ok.inj hr
      exact h s q.1 q.2 hs hf

theorem triple_select {f : σ → α} : Triple (fun s => Q (f s) s) (select f : Tx σ ε α) Q := by
  refine triple_stmt fun s a s' hs hr => ?_
  obtain ⟨rfl, rfl⟩ := Prod.mk.inj (Except.ok.inj hr)
  exact hs

theorem triple_execute {f : σ → σ} {Q : Unit → σ → Prop} :
    Triple (fun s => Q () (f s)) (execute f : Tx σ ε Unit) Q := by
  refine triple_stmt fun s a s' hs hr => ?_
  obtain ⟨rfl, rfl⟩ := Prod.mk.inj (Except.ok.inj hr)
  exact hs

theorem triple_rethrow {x : Tx σ ε α} {handle : ε → ε} (h : Triple P x Q) :
    Triple P (x.rethrow handle) Q := by
  intro fault n s r hs hr
  rw [Tx.rethrow] at hr
  cases hx : x fault n s with
  | error e => rw [hx] at hr; cases hr
  | ok q =>
    rw [hx] at hr
    obtain rfl := Except.ok.inj hr
    exact h fault n s _ hs hx

theorem triple_ite {c : Prop} [Decidable c] {x y : Tx σ ε α} (hx : c → Triple P x Q)
    (hy : ¬c → Triple P y Q) : Triple P (if c then x else y) Q := by
  split_ifs with h
  · exact hx h
  · exact hy h

/-- A fact about the result of `x` may be used after it. -/
theorem triple_bind_and {s₁ : σ} {φ : α → Prop} {x : Tx σ ε α} {f : α → Tx σ ε β}
    {R : β → σ → Prop} (hx : Triple P x fun a s => s = s₁ ∧ φ a)
    (hf : ∀ a, φ a → Triple (· = s₁) (f a) R) : Triple P (x >>= f) R :=
  triple_bind hx fun a fault n s r hs hr => hf a hs.2 fault n s r hs.1 hr

/-- The program after `x` may start from each database `x` leaves. -/
theorem triple_bind_each {x : Tx σ ε α} {f : α → Tx σ ε β} {R : β → σ → Prop} (hx : Triple P x Q)
    (hf : ∀ a s₁, Q a s₁ → Triple (· = s₁) (f a) R) : Triple P (x >>= f) R :=
  triple_bind hx fun a fault n s r hs hr => hf a s hs fault n s r rfl hr

/-- A statement that reads returns what it reads. -/
theorem triple_bind_select {s₀ : σ} {g : σ → α} {f : α → Tx σ ε β} {R : β → σ → Prop}
    (hf : Triple (· = s₀) (f (g s₀)) R) : Triple (· = s₀) (select g >>= f) R :=
  triple_bind_and (φ := (· = g s₀)) (triple_select.mono (fun _ hs => hs ▸ ⟨rfl, rfl⟩)
    fun _ _ h => h) fun _ h => h ▸ hf

/-! ## Programs that only read -/

/-- A program that, if it returns, has left the database as it was. -/
def ReadOnly (x : Tx σ ε α) : Prop := ∀ s₀, Triple (· = s₀) x fun _ s => s = s₀

theorem readOnly_pure (a : α) : ReadOnly (pure a : Tx σ ε α) :=
  fun s₀ => triple_pure (Q := fun _ s => s = s₀) a

theorem readOnly_fail (e : ε) : ReadOnly (fail e : Tx σ ε α) := fun _ => triple_fail e

theorem readOnly_bind {x : Tx σ ε α} {f : α → Tx σ ε β} (hx : ReadOnly x)
    (hf : ∀ a, ReadOnly (f a)) : ReadOnly (x >>= f) :=
  fun s₀ => triple_bind (hx s₀) fun a => hf a s₀

theorem ReadOnly.triple_bind {x : Tx σ ε α} {f : α → Tx σ ε β} {s₀ : σ} {R : β → σ → Prop}
    (hx : ReadOnly x) (hf : ∀ a, Triple (· = s₀) (f a) R) : Triple (· = s₀) (x >>= f) R :=
  Tx.triple_bind (hx s₀) hf

theorem readOnly_select (f : σ → α) : ReadOnly (select f : Tx σ ε α) :=
  fun s₀ => triple_select (Q := fun _ s => s = s₀)

theorem readOnly_ite {c : Prop} [Decidable c] {x y : Tx σ ε α} (hx : c → ReadOnly x)
    (hy : ¬c → ReadOnly y) : ReadOnly (if c then x else y) :=
  fun s₀ => triple_ite (fun h => hx h s₀) fun h => hy h s₀

/-! ## Runs without failures -/

/-- From the database `s`, unless a statement fails, `x` returns `a` and leaves `t`. -/
def Runs (s : σ) (x : Tx σ ε α) (a : α) (t : σ) : Prop :=
  ∀ fault, (∀ n, fault n = none) → ∀ n, ∃ m, x fault n s = .ok (a, m, t)

variable {s t u : σ} {a : α}

theorem runs_pure (a : α) (s : σ) : Runs s (pure a : Tx σ ε α) a s := fun _ _ n => ⟨n, rfl⟩

theorem Runs.bind {x : Tx σ ε α} {f : α → Tx σ ε β} {b : β} (hx : Runs s x a t)
    (hf : Runs t (f a) b u) : Runs s (x >>= f) b u := by
  intro fault hfault n
  obtain ⟨m, hm⟩ := hx fault hfault n
  obtain ⟨k, hk⟩ := hf fault hfault m
  exact ⟨k, (bind_of_ok hm).trans hk⟩

theorem runs_lift {x : Except ε α} (h : x = .ok a) (s : σ) : Runs s (lift x) a s :=
  fun _ _ n => ⟨n, by rw [h]; rfl⟩

theorem runs_stmt {f : σ → Except ε (α × σ)} (h : f s = .ok (a, t)) : Runs s (stmt f) a t :=
  fun _ hfault n => ⟨n + 1, by rw [stmt, hfault n, h]; rfl⟩

theorem runs_select (f : σ → α) (s : σ) : Runs s (select f : Tx σ ε α) (f s) s := runs_stmt rfl

theorem runs_execute (f : σ → σ) (s : σ) : Runs s (execute f : Tx σ ε Unit) () (f s) :=
  runs_stmt rfl

theorem Runs.rethrow {x : Tx σ ε α} (h : Runs s x a t) (handle : ε → ε) :
    Runs s (x.rethrow handle) a t := by
  intro fault hfault n
  obtain ⟨m, hm⟩ := h fault hfault n
  exact ⟨m, by rw [Tx.rethrow, hm]; rfl⟩

/-- A run without failures does what every run that returns does. -/
theorem Runs.of_triple {x : Tx σ ε α} (h : Runs s x a t) (hx : Triple (· = s) x Q) : Q a t := by
  obtain ⟨m, hm⟩ := h (fun _ => none) (fun _ => rfl) 0
  exact hx _ _ _ _ rfl hm

/-! ## Failures -/

/-- From the database `s`, unless a statement fails, `x` raises `e`. -/
def Fails (s : σ) (x : Tx σ ε α) (e : ε) : Prop :=
  ∀ fault, (∀ n, fault n = none) → ∀ n, x fault n s = .error e

variable {e : ε}

theorem fails_fail (e : ε) (s : σ) : Fails s (fail e : Tx σ ε α) e := fun _ _ _ => rfl

theorem fails_lift {x : Except ε α} (h : x = .error e) (s : σ) : Fails s (lift x) e :=
  fun _ _ _ => by rw [lift, h]; rfl

/-- What follows a failure is not run. -/
theorem Fails.bind {x : Tx σ ε α} (hx : Fails s x e) (f : α → Tx σ ε β) : Fails s (x >>= f) e :=
  fun fault hfault n => bind_of_error (hx fault hfault n)

/-- What follows a run may fail. -/
theorem Runs.fails {x : Tx σ ε α} {f : α → Tx σ ε β} (hx : Runs s x a t) (hf : Fails t (f a) e) :
    Fails s (x >>= f) e := by
  intro fault hfault n
  obtain ⟨m, hm⟩ := hx fault hfault n
  exact (bind_of_ok hm).trans (hf fault hfault m)

theorem Fails.rethrow {x : Tx σ ε α} (h : Fails s x e) (handle : ε → ε) :
    Fails s (x.rethrow handle) (handle e) := by
  intro fault hfault n
  rw [Tx.rethrow, h fault hfault n]
  rfl

end Tx
