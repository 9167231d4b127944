import Mathlib.Tactic.Common

/-!
# Programs that may be killed

A program that changes what a process leaves behind, a store of files or a
database, by steps that each happen as a whole. The process may be killed before
any of its steps, and then leaves what was there; a step may also fail, and then
does nothing and raises.

* `Durable` is the monad of such programs, with `Durable.act` for a step,
  `Durable.read` for a computation on what is there, and `Durable.handle` for an
  exception handler;
* `Durable.Triple P x K Q E` says what holds of `x` from a state satisfying `P`:
  wherever it is killed, it leaves a state satisfying `K`; if it returns, its result
  and its state satisfy `Q`; and if it raises, its state satisfies `E`. There is one
  rule for each construct.
-/

/-- What became of a program: the states it would have left when killed before each
    of its steps, how many steps it took, its state and its result. -/
structure Durable.Outcome (σ ε α : Type) where
  left : List σ
  steps : Nat
  state : σ
  result : Except ε α

/-- A program on a durable state `σ`, raising exceptions `ε`: it is given which steps
    fail, and counts its steps. -/
def Durable (σ ε α : Type) := (Nat → Option ε) → Nat → σ → Durable.Outcome σ ε α

namespace Durable

variable {σ ε α β : Type}

/-- The program that returns. -/
def ret (a : α) : Durable σ ε α := fun _ n s => ⟨[], n, s, .ok a⟩

/-- The program that runs `x`, then `f` on its result. -/
def andThen (x : Durable σ ε α) (f : α → Durable σ ε β) : Durable σ ε β := fun fault n s =>
  match (x fault n s).result with
  | .ok a =>
    let after := f a fault (x fault n s).steps (x fault n s).state
    { after with left := (x fault n s).left ++ after.left }
  | .error e => ⟨(x fault n s).left, (x fault n s).steps, (x fault n s).state, .error e⟩

instance instMonad : Monad (Durable σ ε) where
  pure := ret
  bind := andThen

/-- A computation on what is there. -/
def read (f : σ → Except ε α) : Durable σ ε α := fun _ n s => ⟨[], n, s, f s⟩

/-- A step. -/
def act (f : σ → σ) : Durable σ ε Unit := fun fault n s =>
  match fault n with
  | none => ⟨[s], n + 1, f s, .ok ()⟩
  | some e => ⟨[s], n + 1, s, .error e⟩

/-- The program `x`; when it raises, `h` runs and its exception is raised again. -/
def handle (x : Durable σ ε α) (h : Durable σ ε Unit) : Durable σ ε α := fun fault n s =>
  match (x fault n s).result with
  | .ok a => ⟨(x fault n s).left, (x fault n s).steps, (x fault n s).state, .ok a⟩
  | .error e =>
    let after := h fault (x fault n s).steps (x fault n s).state
    ⟨(x fault n s).left ++ after.left, after.steps, after.state,
      match after.result with
      | .ok _ => .error e
      | .error e' => .error e'⟩

/-! ## Correctness across a kill -/

/-- From a state satisfying `P`, wherever `x` is killed it leaves a state satisfying
    `K`, if it returns its result and state satisfy `Q`, and if it raises its state
    satisfies `E`. -/
structure Holds (P : Prop) (o : Outcome σ ε α) (K : σ → Prop) (Q : α → σ → Prop) (E : σ → Prop) :
    Prop where
  left : P → ∀ t ∈ o.left, K t
  returned : P → ∀ a, o.result = .ok a → Q a o.state
  raised : P → ∀ e, o.result = .error e → E o.state

/-- What holds of a program, from every state and whichever steps fail. -/
def Triple (P : σ → Prop) (x : Durable σ ε α) (K : σ → Prop) (Q : α → σ → Prop)
    (E : σ → Prop) : Prop := ∀ fault n s, Holds (P s) (x fault n s) K Q E

variable {P K E : σ → Prop} {Q : α → σ → Prop}

theorem Triple.mono {P' K' E' : σ → Prop} {Q' : α → σ → Prop} {x : Durable σ ε α}
    (h : Triple P x K Q E) (hP : ∀ s, P' s → P s) (hK : ∀ s, K s → K' s)
    (hQ : ∀ a s, Q a s → Q' a s) (hE : ∀ s, E s → E' s) : Triple P' x K' Q' E' := by
  intro fault n s
  obtain ⟨hl, hr, he⟩ := h fault n s
  exact ⟨fun hs t ht => hK t (hl (hP s hs) t ht), fun hs a ha => hQ a _ (hr (hP s hs) a ha),
    fun hs e hx => hE _ (he (hP s hs) e hx)⟩

theorem triple_pure (a : α) : Triple (Q a) (pure a : Durable σ ε α) K Q E := by
  intro fault n s
  refine ⟨fun _ t ht => absurd ht List.not_mem_nil, fun hs b hb => ?_, fun _ e he => ?_⟩
  · obtain rfl := Except.ok.inj hb
    exact hs
  · cases he

theorem triple_bind {x : Durable σ ε α} {f : α → Durable σ ε β} {R : β → σ → Prop}
    (hx : Triple P x K Q E) (hf : ∀ a, Triple (Q a) (f a) K R E) : Triple P (x >>= f) K R E := by
  intro fault n s
  obtain ⟨hl, hr, he⟩ := hx fault n s
  change Holds _ (andThen x f fault n s) K R E
  rw [andThen]
  cases h : (x fault n s).result with
  | ok a =>
    obtain ⟨hl', hr', he'⟩ := hf a fault (x fault n s).steps (x fault n s).state
    refine ⟨fun hs t ht => ?_, fun hs => hr' (hr hs a h), fun hs => he' (hr hs a h)⟩
    rcases List.mem_append.1 ht with ht | ht
    · exact hl hs t ht
    · exact hl' (hr hs a h) t ht
  | error e =>
    refine ⟨hl, fun _ b hb => ?_, fun hs _ _ => he hs e h⟩
    cases hb

/-- A computation is followed by what it returned. -/
theorem triple_read {f : σ → Except ε α} (hE : ∀ s, P s → E s) :
    Triple P (read f) K (fun a s => P s ∧ f s = .ok a) E := by
  intro fault n s
  exact ⟨fun _ t ht => absurd ht List.not_mem_nil, fun hs a ha => ⟨hs, ha⟩, fun hs _ _ => hE s hs⟩

/-- A step starts where the program may be killed; if it fails, nothing happened. -/
theorem triple_act {f : σ → σ} {R : σ → Prop} (hK : ∀ s, P s → K s) (hR : ∀ s, P s → R (f s))
    (hE : ∀ s, P s → E s) : Triple P (act f : Durable σ ε Unit) K (fun _ => R) E := by
  intro fault n s
  rw [act]
  cases fault n with
  | none =>
    refine ⟨fun hs t ht => ?_, fun hs _ _ => hR s hs, fun _ e he => ?_⟩
    · obtain rfl := List.mem_singleton.1 ht
      exact hK t hs
    · cases he
  | some e =>
    refine ⟨fun hs t ht => ?_, fun _ a ha => ?_, fun hs _ _ => hE s hs⟩
    · obtain rfl := List.mem_singleton.1 ht
      exact hK t hs
    · cases ha

/-- A handler runs in the states its program raises in. -/
theorem triple_handle {x : Durable σ ε α} {h : Durable σ ε Unit} {F : σ → Prop}
    (hx : Triple P x K Q F) (hh : Triple F h K (fun _ => E) E) :
    Triple P (handle x h) K Q E := by
  intro fault n s
  obtain ⟨hl, hr, he⟩ := hx fault n s
  rw [handle]
  cases hxe : (x fault n s).result with
  | ok a =>
    refine ⟨hl, fun hs b hb => ?_, fun _ e hb => ?_⟩
    · obtain rfl := Except.ok.inj hb
      exact hr hs a hxe
    · cases hb
  | error e =>
    obtain ⟨hl', hr', he'⟩ := hh fault (x fault n s).steps (x fault n s).state
    refine ⟨fun hs t ht => ?_, fun _ b hb => ?_, fun hs e' _ => ?_⟩
    · rcases List.mem_append.1 ht with ht | ht
      · exact hl hs t ht
      · exact hl' (he hs e hxe) t ht
    · dsimp only at hb
      split at hb
      · cases hb
      · cases hb
    · -- Whether or not the handler raised, it ended in a state of its own.
      cases hr'e : (h fault (x fault n s).steps (x fault n s).state).result with
      | ok u => exact hr' (he hs e hxe) u hr'e
      | error e'' => exact he' (he hs e hxe) e'' hr'e

end Durable
