import SkillRegistry.Structure.Durable

/-!
# Programs that are run again

A program that was killed, or that failed, is run once more on the state it left. The
second run may differ from the first in what it reads besides the state (a clock), so
what it ends in only has to *agree* with what the first would have ended in.

* `Durable.commit f` is a step computed from the state, and `Durable.when` a step that
  is only taken in some states;
* `Durable.Keeps I x`: whatever happens to it, `x` keeps what `I` says of the state;
* `Durable.Performs x f`: where nothing fails, `x` does to the state what `f` says;
* `Durable.Resumes` says that from wherever the first run of a program is killed, the
  second leads to a state that agrees with the end of the first. It is built up by
  `Redo.andThen` from parts that do nothing once they are done (`Durable.Redo`).
-/

namespace Durable

variable {σ ε α : Type}

/-- A step to the state `f` computes; where `f` raises, nothing is done. -/
def commit (f : σ → Except ε σ) : Durable σ ε Unit := do
  let s ← read f
  act fun _ => s

/-- The program `x`, in the states that satisfy `c`. -/
def when (c : σ → Prop) [DecidablePred c] (x : Durable σ ε Unit) : Durable σ ε Unit := do
  let b ← read fun s => .ok (decide (c s))
  if b then x else pure ()

/-- The programs of a list, one after another. -/
def sequence : List (Durable σ ε Unit) → Durable σ ε Unit
  | [] => pure ()
  | x :: xs => do
    x
    sequence xs

/-- The program `x`, raising other exceptions. -/
def mapError (h : ε → ε) (x : Durable σ ε α) : Durable σ ε α := fun fault n s =>
  { x fault n s with result := (x fault n s).result.mapError h }

section

variable {P K E : σ → Prop}

theorem triple_commit {f : σ → Except ε σ} {R : σ → Prop} (hK : ∀ s, P s → K s)
    (hR : ∀ s s', P s → f s = .ok s' → R s') (hE : ∀ s, P s → E s) :
    Triple P (commit f) K (fun _ => R) E :=
  triple_bind (triple_read hE) fun s' => triple_act (fun s h => hK s h.1)
    (fun s h => hR s s' h.1 h.2) fun s h => hE s h.1

/-- A step from a known state. -/
theorem triple_commit_of_ok {f : σ → Except ε σ} {s s' : σ} (hK : K s) (hE : E s)
    (hs : f s = .ok s') : Triple (· = s) (commit f) K (fun _ => (· = s')) E := by
  refine triple_commit (fun t ht => ht ▸ hK) (fun t t' ht ht' => ?_) fun t ht => ht ▸ hE
  obtain rfl := ht
  exact Except.ok.inj (ht'.symm.trans hs)

theorem triple_mapError {h : ε → ε} {x : Durable σ ε α} {Q : α → σ → Prop}
    (hx : Triple P x K Q E) : Triple P (mapError h x) K Q E := by
  intro fault n s
  obtain ⟨hl, hr, he⟩ := hx fault n s
  refine ⟨hl, fun hs a ha => ?_, fun hs e ha => ?_⟩
  · cases hresult : (x fault n s).result with
    | ok b =>
      rw [mapError, hresult] at ha
      obtain rfl := Except.ok.inj ha
      exact hr hs b hresult
    | error e =>
      rw [mapError, hresult] at ha
      cases ha
  · cases hresult : (x fault n s).result with
    | ok b =>
      rw [mapError, hresult] at ha
      cases ha
    | error e' => exact he hs e' hresult

/-- What holds wherever a program is killed, for every `i`. -/
theorem triple_forall {ι : Type} [Nonempty ι] {x : Durable σ ε α} {K E : ι → σ → Prop}
    {Q : α → σ → Prop} (h : ∀ i, Triple P x (K i) Q (E i)) :
    Triple P x (fun s => ∀ i, K i s) Q (fun s => ∀ i, E i s) := fun fault n s =>
  ⟨fun hs t ht i => (h i fault n s).left hs t ht,
    fun hs a ha => (h (Classical.arbitrary ι) fault n s).returned hs a ha,
    fun hs e he i => (h i fault n s).raised hs e he⟩

theorem triple_check {q : σ → Except ε Unit} {Q : Unit → σ → Prop} (hQ : ∀ s, P s → Q () s)
    (hE : ∀ s, P s → E s) : Triple P (read q) K Q E :=
  (triple_read hE).mono (fun _ h => h) (fun _ h => h) (fun _ s h => hQ s h.1) fun _ h => h

/-- A program that returned is followed by the next one. -/
theorem bind_of_ok {β : Type} {x : Durable σ ε α} {k : α → Durable σ ε β} {fault : Nat → Option ε}
    {n : Nat} {s s₁ : σ} {a : α} (hresult : (x fault n s).result = .ok a)
    (hstate : (x fault n s).state = s₁) :
    ∃ m, ((x >>= k) fault n s).state = (k a fault m s₁).state ∧
      ((x >>= k) fault n s).result = (k a fault m s₁).result := by
  refine ⟨(x fault n s).steps, ?_⟩
  change (andThen x k fault n s).state = _ ∧ (andThen x k fault n s).result = _
  rw [andThen, hresult, hstate]
  exact ⟨rfl, rfl⟩

theorem bind_of_error {β : Type} {x : Durable σ ε α} {k : α → Durable σ ε β}
    {fault : Nat → Option ε} {n : Nat} {s : σ} {e : ε} (hresult : (x fault n s).result = .error e) :
    ((x >>= k) fault n s).result = .error e := by
  change (andThen x k fault n s).result = _
  rw [andThen, hresult]

/-- A computation on what is there changes nothing, also as the last thing that is done. -/
theorem read_map {β : Type} (q : σ → Except ε α) (g : α → β) (fault : Nat → Option ε) (n : Nat)
    (s : σ) : ((read q >>= fun a => pure (g a)) fault n s).state = s ∧
      ((read q >>= fun a => pure (g a)) fault n s).result = (q s).map g := by
  cases hq : q s with
  | ok a =>
    have hread : (read q fault n s).result = .ok a := hq
    obtain ⟨m, hstate, hresult⟩ := bind_of_ok (k := fun a => pure (g a)) hread rfl
    exact ⟨hstate, hresult⟩
  | error e =>
    refine ⟨?_, bind_of_error hq⟩
    change (andThen (read q) _ fault n s).state = s
    rw [andThen, read, hq]

/-- What holds of a computation's result is known of what follows it. -/
theorem triple_query {q : σ → Except ε α} {k : α → Durable σ ε Unit} {Q : Unit → σ → Prop}
    {s : σ} (hE : E s) (hk : ∀ a, q s = .ok a → Triple (· = s) (k a) K Q E) :
    Triple (· = s) (read q >>= k) K Q E := by
  refine triple_bind (triple_read fun _ h => h ▸ hE) fun a fault n t => ?_
  by_cases ha : q s = .ok a
  · exact (hk a ha).mono (fun t (h : t = s ∧ q t = .ok a) => h.1) (fun _ h => h) (fun _ _ h => h)
      (fun _ h => h) fault n t
  · -- `k a` only runs where `a` was computed
    have habsurd (h : t = s ∧ q t = .ok a) : False := by
      obtain ⟨rfl, h⟩ := h
      exact ha h
    exact ⟨fun h => (habsurd h).elim, fun h => (habsurd h).elim, fun h => (habsurd h).elim⟩

end

/-! ## What a program keeps -/

/-- The program `x` keeps what `I` says, wherever it is killed or fails. -/
def Keeps (I : σ → Prop) (x : Durable σ ε α) : Prop := Triple I x I (fun _ => I) I

section

variable {I : σ → Prop}

theorem keeps_pure (a : α) : Keeps I (pure a : Durable σ ε α) := triple_pure (Q := fun _ => I) a

theorem keeps_read (q : σ → Except ε α) : Keeps I (read q) :=
  (triple_read fun _ h => h).mono (fun _ h => h) (fun _ h => h) (fun _ _ h => h.1) fun _ h => h

theorem keeps_act {f : σ → σ} (h : ∀ s, I s → I (f s)) : Keeps I (act f : Durable σ ε Unit) :=
  triple_act (fun _ h => h) h fun _ h => h

theorem keeps_commit {f : σ → Except ε σ} (h : ∀ s s', I s → f s = .ok s' → I s') :
    Keeps I (commit f) :=
  triple_commit (fun _ h => h) h fun _ h => h

theorem Keeps.bind {β : Type} {x : Durable σ ε α} {k : α → Durable σ ε β} (hx : Keeps I x)
    (hk : ∀ a, Keeps I (k a)) : Keeps I (x >>= k) :=
  triple_bind hx hk

theorem keeps_when {c : σ → Prop} [DecidablePred c] {x : Durable σ ε Unit} (hx : Keeps I x) :
    Keeps I (when c x) := by
  refine (keeps_read _).bind fun b => ?_
  cases b with
  | false => exact keeps_pure ()
  | true => exact hx

theorem keeps_sequence {xs : List (Durable σ ε Unit)} (h : ∀ x ∈ xs, Keeps I x) :
    Keeps I (sequence xs) := by
  induction xs with
  | nil => exact keeps_pure ()
  | cons x xs ih =>
    obtain ⟨hx, hxs⟩ := List.forall_mem_cons.1 h
    exact hx.bind fun _ => ih hxs

end

/-! ## Runs in which nothing fails -/

/-- Where nothing fails, `x` from `s` returns in the state `r` has, or raises what `r` raises. -/
def Ends (x : Durable σ ε Unit) (n : Nat) (s : σ) (r : Except ε σ) : Prop :=
  (∀ s', r = .ok s' →
    (x (fun _ => none) n s).state = s' ∧ (x (fun _ => none) n s).result = .ok ()) ∧
  ∀ e, r = .error e → (x (fun _ => none) n s).result = .error e

/-- Where nothing fails, `x` leaves what `f` makes of the state, and raises what `f` raises. -/
def Performs (x : Durable σ ε Unit) (f : σ → Except ε σ) : Prop := ∀ n s, Ends x n s (f s)

section

variable {x : Durable σ ε α} {k : α → Durable σ ε Unit} {n : Nat} {s s' t : σ} {e : ε}

theorem ends_ok {x : Durable σ ε Unit} (hstate : (x (fun _ => none) n s).state = s')
    (hresult : (x (fun _ => none) n s).result = .ok ()) : Ends x n s (.ok s') :=
  ⟨fun _ h => ⟨hstate.trans (Except.ok.inj h), hresult⟩, fun _ h => (by cases h)⟩

theorem ends_error {x : Durable σ ε Unit} (hresult : (x (fun _ => none) n s).result = .error e) :
    Ends x n s (.error e) :=
  ⟨fun _ h => (by cases h), fun _ h => hresult.trans (congrArg Except.error (Except.error.inj h))⟩

theorem ends_bind {a : α} {r : Except ε σ} (hstate : (x (fun _ => none) n s).state = t)
    (hresult : (x (fun _ => none) n s).result = .ok a) (hk : ∀ n, Ends (k a) n t r) :
    Ends (x >>= k) n s r := by
  obtain ⟨m, hstate', hresult'⟩ := bind_of_ok (k := k) hresult hstate
  unfold Ends
  rw [hstate', hresult']
  exact hk m

theorem ends_bind_error (hresult : (x (fun _ => none) n s).result = .error e) :
    Ends (x >>= k) n s (.error e) := ends_error (bind_of_error hresult)

end

/-- What a program keeps, the function keeps that says what it does. -/
theorem Performs.keeps {I : σ → Prop} {x : Durable σ ε Unit} {f : σ → Except ε σ} {s s' : σ}
    (hf : Performs x f) (hx : Keeps I x) (hs : I s) (h : f s = .ok s') : I s' := by
  obtain ⟨hstate, hresult⟩ := (hf 0 s).1 s' h
  exact hstate ▸ (hx (fun _ => none) 0 s).returned hs () hresult

theorem performs_pure : Performs (pure () : Durable σ ε Unit) .ok := fun _ _ => ends_ok rfl rfl

theorem performs_read {q : σ → Except ε α} {k : α → Durable σ ε Unit} {f : α → σ → Except ε σ}
    (h : ∀ a, Performs (k a) (f a)) :
    Performs (read q >>= k) fun s => q s >>= fun a => f a s := by
  intro n s
  dsimp only
  cases hq : q s with
  | ok a => exact ends_bind rfl hq fun n => h a n s
  | error e => exact ends_bind_error hq

/-- A check, as a function that leaves the state as it is. -/
def checked (q : σ → Except ε Unit) (s : σ) : Except ε σ := (q s).map fun _ => s

theorem checked_eq_ok {q : σ → Except ε Unit} {s s' : σ} :
    checked q s = .ok s' ↔ q s = .ok () ∧ s' = s := by
  rw [checked]
  cases q s with
  | ok u => exact ⟨fun h => ⟨rfl, (Except.ok.inj h).symm⟩, fun h => congrArg Except.ok h.2.symm⟩
  | error e => exact ⟨fun h => (by cases h), fun h => (by cases h.1)⟩

theorem performs_check (q : σ → Except ε Unit) : Performs (read q) (checked q) := by
  intro n s
  rw [checked]
  cases hq : q s with
  | ok u => exact ends_ok rfl hq
  | error e => exact ends_error hq

theorem performs_commit (f : σ → Except ε σ) : Performs (commit f) f := by
  intro n s
  cases hf : f s with
  | ok a => exact ends_bind rfl hf fun n => ends_ok rfl rfl
  | error e => exact ends_bind_error hf

theorem kleisli_of_ok {f g : σ → Except ε σ} {s s₁ : σ} (h : f s = .ok s₁) :
    (f >=> g) s = g s₁ := by
  change f s >>= g = _
  rw [h]
  rfl

theorem kleisli_of_error {f g : σ → Except ε σ} {s : σ} {e : ε} (h : f s = .error e) :
    (f >=> g) s = .error e := by
  change f s >>= g = _
  rw [h]
  rfl

theorem kleisli_eq_ok {f g : σ → Except ε σ} {s s' : σ} (h : (f >=> g) s = .ok s') :
    ∃ s₁, f s = .ok s₁ ∧ g s₁ = .ok s' := by
  change f s >>= g = _ at h
  cases hf : f s with
  | ok s₁ => exact ⟨s₁, rfl, by rwa [hf] at h⟩
  | error e =>
    rw [hf] at h
    cases h

/-- What follows a check starts from the state that was checked. -/
theorem checked_kleisli_eq_ok {q : σ → Except ε Unit} {g : σ → Except ε σ} {s s' : σ} :
    (checked q >=> g) s = .ok s' ↔ q s = .ok () ∧ g s = .ok s' := by
  constructor
  · intro h
    obtain ⟨s₁, h₁, hg⟩ := kleisli_eq_ok h
    obtain ⟨hq, hs⟩ := checked_eq_ok.1 h₁
    exact ⟨hq, hs ▸ hg⟩
  · rintro ⟨hq, hg⟩
    exact (kleisli_of_ok (checked_eq_ok.2 ⟨hq, rfl⟩)).trans hg

theorem performs_andThen {x y : Durable σ ε Unit} {f g : σ → Except ε σ} (hx : Performs x f)
    (hy : Performs y g) : Performs (x >>= fun _ => y) (f >=> g) := by
  intro n s
  -- `y` starts at the step where `x` ended, so that the number of the step is arbitrary
  cases hf : f s with
  | ok s₁ =>
    obtain ⟨hstate, hresult⟩ := (hx n s).1 s₁ hf
    rw [kleisli_of_ok hf]
    exact ends_bind hstate hresult fun n => hy n s₁
  | error e =>
    change Ends _ n s (f s >>= g)
    rw [hf]
    exact ends_bind_error ((hx n s).2 e hf)

/-- The function `f`, on the states that satisfy `c`. -/
def onlyIf (c : σ → Prop) [DecidablePred c] (f : σ → Except ε σ) (s : σ) : Except ε σ :=
  if c s then f s else .ok s

/-- A function needs not be left out where it does nothing. -/
theorem onlyIf_ne_ok (f : σ → Except ε σ) [DecidablePred fun s => f s ≠ .ok s] :
    onlyIf (fun s => f s ≠ .ok s) f = f := by
  funext s
  rw [onlyIf]
  by_cases h : f s = .ok s
  · rw [if_neg (not_not.2 h), h]
  · exact if_pos h

theorem performs_when {c : σ → Prop} [DecidablePred c] {x : Durable σ ε Unit} {f : σ → Except ε σ}
    (hx : Performs x f) : Performs (when c x) (onlyIf c f) := by
  intro n s
  refine ends_bind (t := s) (a := decide (c s)) rfl rfl fun n => ?_
  rw [onlyIf]
  by_cases h : c s
  · rw [if_pos h, if_pos (decide_eq_true h)]
    exact hx n s
  · rw [if_neg h, if_neg (by simpa using h)]
    exact performs_pure n s

theorem performs_mapError {h : ε → ε} {x : Durable σ ε Unit} {f : σ → Except ε σ}
    (hx : Performs x f) : Performs (mapError h x) fun s => (f s).mapError h := by
  intro n s
  dsimp only
  cases hf : f s with
  | ok s₁ =>
    obtain ⟨hstate, hresult⟩ := (hx n s).1 s₁ hf
    exact ends_ok hstate (congrArg (Except.mapError h) hresult)
  | error e => exact ends_error (congrArg (Except.mapError h) ((hx n s).2 e hf))

/-! ## Second runs -/

/-- How the states of a program and of its second run are compared. -/
structure Resumption (σ : Type) where
  /-- What holds of the states of a run. -/
  Valid : σ → Prop
  /-- A run that was in the first state may be in the second one later. -/
  Later : σ → σ → Prop
  /-- The states are the same in what the program is for. -/
  Agrees : σ → σ → Prop
  later_refl : ∀ s, Later s s
  later_trans : ∀ {s t u}, Later s t → Later t u → Later s u
  agrees_refl : ∀ s, Agrees s s
  valid : ∀ {s t}, Later s t → Valid s → Valid t

variable (ρ : Resumption σ) {ε : Type}

/-- The function `g` makes of `t` a state that agrees with `s`. -/
def Resumption.Leads (g : σ → Except ε σ) (s t : σ) : Prop := ∃ t', g t = .ok t' ∧ ρ.Agrees s t'

/-- From states that agree, `f` and `g` lead to states that agree. -/
def Resumption.Respects (f g : σ → Except ε σ) : Prop :=
  ∀ s t s', ρ.Agrees s t → f s = .ok s' → ρ.Leads g s' t

/-- The program `x`, which does what `f` says in the states that satisfy `Pre`, may be killed or
    fail anywhere: the function `g` of a second run then leads from what it left to where it was
    going. -/
structure Resumes (Pre : σ → Prop) (x : Durable σ ε Unit) (f g : σ → Except ε σ) : Prop where
  performs : Performs x f
  again : ρ.Respects f g
  killed : ∀ s s', ρ.Valid s → Pre s → f s = .ok s' →
    Triple (· = s) x (fun k => ρ.Later s k ∧ ρ.Leads g s' k) (fun _ => (· = s'))
      (fun k => ρ.Later s k ∧ ρ.Leads g s' k)

/-- A part of such a program: it ends in states that satisfy `D`, as do all later ones, and the
    second run does nothing there. -/
structure Redo (Pre D : σ → Prop) (x : Durable σ ε Unit) (f g : σ → Except ε σ) : Prop
    extends Resumes ρ Pre x f g where
  later : ∀ s s', ρ.Valid s → Pre s → f s = .ok s' → ρ.Later s s'
  done : ∀ s s', ρ.Valid s → Pre s → f s = .ok s' → D s'
  stays : ∀ s t, ρ.Later s t → D s → D t
  skip : ∀ s, D s → g s = .ok s

variable {ρ} {B C D D' : σ → Prop} {x y : Durable σ ε Unit} {f f' g g' : σ → Except ε σ}

theorem respects_ok : ρ.Respects (.ok : σ → Except ε σ) .ok := fun _ t _ hagrees hs =>
  ⟨t, rfl, Except.ok.inj hs ▸ hagrees⟩

theorem Resumption.Respects.kleisli (hf : ρ.Respects f g) (hf' : ρ.Respects f' g') :
    ρ.Respects (f >=> f') (g >=> g') := by
  intro s t s' hagrees hs
  obtain ⟨s₁, hs₁, hs⟩ := kleisli_eq_ok hs
  obtain ⟨t₁, ht₁, hagrees₁⟩ := hf s t s₁ hagrees hs₁
  obtain ⟨t', ht', hagrees'⟩ := hf' s₁ t₁ s' hagrees₁ hs
  exact ⟨t', (kleisli_of_ok ht₁).trans ht', hagrees'⟩

theorem Resumption.Respects.onlyIf {c : σ → Prop} [DecidablePred c]
    (hc : ∀ s t, ρ.Agrees s t → (c s ↔ c t)) (hf : ρ.Respects f g) :
    ρ.Respects (onlyIf c f) (onlyIf c g) := by
  intro s t s' hagrees hs
  rw [Durable.onlyIf] at hs
  by_cases h : c s
  · rw [if_pos h] at hs
    obtain ⟨t', ht', hagrees'⟩ := hf s t s' hagrees hs
    exact ⟨t', (if_pos ((hc s t hagrees).1 h)).trans ht', hagrees'⟩
  · rw [if_neg h] at hs
    exact ⟨t, if_neg fun h' => h ((hc s t hagrees).2 h'), Except.ok.inj hs ▸ hagrees⟩

/-- What `x` left is led on by its own second run, and what the rest left by the rest of it. -/
theorem Redo.resumes (hx : Redo ρ B D x f g) (hy : Resumes ρ C y f' g')
    (hpre : ∀ s, D s → C s) : Resumes ρ B (x >>= fun _ => y) (f >=> f') (g >=> g') where
  performs := performs_andThen hx.performs hy.performs
  again := hx.again.kleisli hy.again
  killed s s' hvalid hB hs := by
    obtain ⟨s₁, hf, hs⟩ := kleisli_eq_ok hs
    have hlater₁ := hx.later s s₁ hvalid hB hf
    have hdone := hx.done s s₁ hvalid hB hf
    -- killed in `x`: its second run ends as the first would have, and `y` runs after it
    have hfirst (k : σ) (h : ρ.Later s k ∧ ρ.Leads g s₁ k) :
        ρ.Later s k ∧ ρ.Leads (g >=> g') s' k := by
      obtain ⟨hk, t₁, ht₁, hagrees₁⟩ := h
      obtain ⟨t', ht', hagrees'⟩ := hy.again s₁ t₁ s' hagrees₁ hs
      exact ⟨hk, t', (kleisli_of_ok ht₁).trans ht', hagrees'⟩
    -- killed in `y`: the second run of `x` does nothing
    have hrest (k : σ) (h : ρ.Later s₁ k ∧ ρ.Leads g' s' k) :
        ρ.Later s k ∧ ρ.Leads (g >=> g') s' k := by
      obtain ⟨hk, t', ht', hagrees'⟩ := h
      have hskip := hx.skip k (hx.stays s₁ k hk hdone)
      exact ⟨ρ.later_trans hlater₁ hk, t', (kleisli_of_ok hskip).trans ht', hagrees'⟩
    refine triple_bind ((hx.killed s s₁ hvalid hB hf).mono (fun _ h => h) hfirst
      (fun _ _ h => h) hfirst) fun _ => ?_
    exact (hy.killed s₁ s' (ρ.valid hlater₁ hvalid) (hpre s₁ hdone) hs).mono (fun _ h => h) hrest
      (fun _ _ h => h) hrest

theorem Redo.andThen (hx : Redo ρ B D x f g) (hy : Redo ρ C D' y f' g')
    (hpre : ∀ s, D s → C s) :
    Redo ρ B (fun s => D s ∧ D' s) (x >>= fun _ => y) (f >=> f') (g >=> g') := by
  have hsplit {s s' : σ} (hvalid : ρ.Valid s) (hB : B s) (hs : (f >=> f') s = .ok s') :
      ∃ s₁, ρ.Later s s₁ ∧ ρ.Later s₁ s' ∧ D s₁ ∧ D' s' := by
    obtain ⟨s₁, hf, hs⟩ := kleisli_eq_ok hs
    have hlater₁ := hx.later s s₁ hvalid hB hf
    have hdone := hx.done s s₁ hvalid hB hf
    have hvalid₁ := ρ.valid hlater₁ hvalid
    exact ⟨s₁, hlater₁, hy.later s₁ s' hvalid₁ (hpre s₁ hdone) hs, hdone,
      hy.done s₁ s' hvalid₁ (hpre s₁ hdone) hs⟩
  refine ⟨hx.resumes hy.toResumes hpre, fun s s' hvalid hB hs => ?_,
    fun s s' hvalid hB hs => ?_, fun s t hst hs => ⟨hx.stays s t hst hs.1, hy.stays s t hst hs.2⟩,
    fun s hs => (kleisli_of_ok (hx.skip s hs.1)).trans (hy.skip s hs.2)⟩
  · obtain ⟨s₁, h₁, h₂, -⟩ := hsplit hvalid hB hs
    exact ρ.later_trans h₁ h₂
  · obtain ⟨s₁, -, h₂, hdone, hdone'⟩ := hsplit hvalid hB hs
    exact ⟨hx.stays s₁ s' h₂ hdone, hdone'⟩

theorem redo_pure : Redo ρ B (fun _ => True) (pure () : Durable σ ε Unit) .ok .ok where
  performs := performs_pure
  again := respects_ok
  killed _ _ _ _ hs := (triple_pure ()).mono (fun _ h => h.trans (Except.ok.inj hs)) (fun _ h => h)
    (fun _ _ h => h) (fun _ h => h)
  later _ _ _ _ hs := Except.ok.inj hs ▸ ρ.later_refl _
  done _ _ _ _ _ := trivial
  stays _ _ _ _ := trivial
  skip _ _ := rfl

/-- One step: the second run takes it from where the first did not. -/
theorem resumes_commit (hagain : ρ.Respects f g) :
    Resumes ρ B (commit f) f g where
  performs := performs_commit f
  again := hagain
  killed s s' _ _ hs := by
    have hstart : ρ.Later s s ∧ ρ.Leads g s' s :=
      ⟨ρ.later_refl s, hagain s s s' (ρ.agrees_refl s) hs⟩
    exact triple_commit_of_ok (K := fun k => ρ.Later s k ∧ ρ.Leads g s' k) hstart hstart hs

theorem redo_commit (hagain : ρ.Respects f g)
    (hlater : ∀ s s', ρ.Valid s → B s → f s = .ok s' → ρ.Later s s')
    (hdone : ∀ s s', ρ.Valid s → B s → f s = .ok s' → D s')
    (hstays : ∀ s t, ρ.Later s t → D s → D t) (hskip : ∀ s, D s → g s = .ok s) :
    Redo ρ B D (commit f) f g :=
  ⟨resumes_commit hagain, hlater, hdone, hstays, hskip⟩

/-- A step that is taken in the states satisfying `c`. -/
theorem redo_when {c : σ → Prop} [DecidablePred c] (hc : ∀ s t, ρ.Agrees s t → (c s ↔ c t))
    (hagain : ρ.Respects f g)
    (hlater : ∀ s s', ρ.Valid s → B s → c s → f s = .ok s' → ρ.Later s s')
    (hdone : ∀ s s', ρ.Valid s → B s → onlyIf c f s = .ok s' → D s')
    (hstays : ∀ s t, ρ.Later s t → D s → D t) (hskip : ∀ s, D s → c s → g s = .ok s) :
    Redo ρ B D (when c (commit f)) (onlyIf c f) (onlyIf c g) := by
  have hagain' : ρ.Respects (onlyIf c f) (onlyIf c g) := hagain.onlyIf hc
  refine ⟨⟨performs_when (performs_commit f), hagain', fun s s' hvalid hB hs => ?_⟩,
    fun s s' hvalid hB hs => ?_, hdone, hstays, fun s hs => ?_⟩
  · have hstart : ρ.Later s s ∧ ρ.Leads (onlyIf c g) s' s :=
      ⟨ρ.later_refl s, hagain' s s s' (ρ.agrees_refl s) hs⟩
    refine triple_query hstart fun b hb => ?_
    obtain rfl := Except.ok.inj hb
    rw [onlyIf] at hs
    -- the step is taken, or there is nothing to interrupt
    by_cases h : c s
    · rw [if_pos h] at hs
      rw [if_pos (decide_eq_true h)]
      exact triple_commit_of_ok (K := fun k => ρ.Later s k ∧ ρ.Leads (onlyIf c g) s' k) hstart
        hstart hs
    · rw [if_neg h] at hs
      rw [if_neg (by simpa using h)]
      exact (triple_pure ()).mono (fun _ ht => ht.trans (Except.ok.inj hs)) (fun _ ht => ht)
        (fun _ _ ht => ht) (fun _ ht => ht)
  · rw [onlyIf] at hs
    by_cases h : c s
    · rw [if_pos h] at hs
      exact hlater s s' hvalid hB h hs
    · rw [if_neg h] at hs
      exact Except.ok.inj hs ▸ ρ.later_refl s
  · by_cases h : c s
    · exact (if_pos h).trans (hskip s hs h)
    · exact if_neg h

/-- The functions of a list, one after another. -/
def compose : List (σ → Except ε σ) → σ → Except ε σ
  | [] => .ok
  | f :: fs => f >=> compose fs

/-- Steps that a second run takes again, each of which does nothing once it is done. -/
theorem redo_sequence {ι : Type} {F : ι → σ → Except ε σ} {D : ι → σ → Prop} {l : List ι}
    (h : ∀ i ∈ l, Redo ρ (fun _ => True) (D i) (commit (F i)) (F i) (F i)) :
    Redo ρ (fun _ => True) (fun s => ∀ i ∈ l, D i s) (sequence (l.map fun i => commit (F i)))
      (compose (l.map F)) (compose (l.map F)) := by
  induction l with
  | nil =>
    have hpure : Redo ρ (fun _ => True) (fun _ => True) (pure () : Durable σ ε Unit) .ok .ok :=
      redo_pure
    exact ⟨hpure.toResumes, hpure.later, fun _ _ _ _ _ => List.forall_mem_nil _, fun _ _ _ _ =>
      List.forall_mem_nil _, fun s _ => hpure.skip s trivial⟩
  | cons i l ih =>
    obtain ⟨hi, hl⟩ := List.forall_mem_cons.1 h
    -- the pair that is kept along the list: what is done is the head's part and the tail's
    have hboth := hi.andThen (ih hl) fun _ _ => trivial
    exact ⟨hboth.toResumes, hboth.later,
      fun s s' hvalid hB hs => List.forall_mem_cons.2 (hboth.done s s' hvalid hB hs),
      fun s t hst hs => List.forall_mem_cons.2 (hboth.stays s t hst (List.forall_mem_cons.1 hs)),
      fun s hs => hboth.skip s (List.forall_mem_cons.1 hs)⟩

end Durable
