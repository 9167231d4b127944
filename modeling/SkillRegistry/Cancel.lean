import SkillRegistry.Keys

/-!
# Cancelled rotations

What `cancel_rotation` does to the home it finds. It goes by the staged file alone, and an
activation that was killed leaves that file behind after its key has become the signer.

* `Home.Since` relates a home to the signer before its rotation was prepared, and every
  command keeps it, wherever it is killed;
* `KeyHistory.Rotating` follows that signer through the histories of a home;
* `cancel_discards_iff`: a cancelled key is discarded exactly when it was not the signer.
-/

namespace SkillRegistry

open Wire

variable {P : Platform}

/-! ## The signer before the rotation -/

/-- The active signer is the one of `before`, or the staged key. -/
def Home.Since (before : Option PyStr) (home : Home P) : Prop :=
  home.activePin = before ∨
    ∃ file, home.next = some file ∧ home.activePin = some file.key.publicPinned

/-- What a command leaves: no staged key, or one staged since `before`. -/
def Home.Settled (before : Option PyStr) (home : Home P) : Prop :=
  home.next = none ∨ home.Since before

section since

variable {before : Option PyStr}

theorem settled_writePublicKeys (values : List PyStr) :
    Durable.Triple (Home.Since before) (writePublicKeys (P := P) values) (Home.Settled before)
      (fun _ => Home.Since before) (Home.Settled before) :=
  (triple_writePublicKeys values fun _ h => .inr h).mono (fun _ h => h) (fun _ h => h)
    (fun _ _ ⟨_, _, h, hhome, _⟩ => hhome ▸ h) fun _ h => h

/-- Removing the staged file settles a home. -/
theorem settled_withoutNext {Pre : Home P → Prop} (hpre : ∀ home, Pre home → home.Settled before) :
    Durable.Triple Pre (Durable.act Home.withoutNext : Command P Unit) (Home.Settled before)
      (fun _ => Home.Settled before) (Home.Settled before) :=
  Durable.triple_act hpre (fun _ _ => .inl rfl) hpre

/-- A key is staged only where there is none, and the signer stays. -/
theorem settled_prepareRotation (provider : FileKeyProvider) (staged : SigningKey P) :
    Durable.Triple (Home.Since before) (prepareRotation provider staged) (Home.Settled before)
      (fun _ => Home.Settled before) (Home.Settled before) := by
  refine Durable.triple_bind (Durable.triple_read fun _ h => .inr h) fun active => ?_
  refine Durable.triple_bind (Durable.triple_read fun _ h => .inr h.1) fun _ => ?_
  refine Durable.triple_bind (Durable.triple_read fun _ h => .inr h.1.1) fun file => ?_
  refine Durable.triple_bind (Q := fun _ => Home.Since before) (Durable.triple_act
    (fun _ h => .inr h.1.1.1) ?_ fun _ h => .inr h.1.1.1) fun _ => ?_
  · rintro home ⟨⟨⟨hsince, -⟩, hfree⟩, -⟩
    rcases hsince with hsince | ⟨f, hf, -⟩
    · exact .inl hsince
    · rw [hf] at hfree
      cases hfree
  refine Durable.triple_bind (Q := fun _ => Home.Settled before) (Durable.triple_handle
    (F := Home.Settled before) ?_ (settled_withoutNext fun _ h => h)) fun _ =>
      Durable.triple_pure (Q := fun _ => Home.Settled before) _
  refine Durable.triple_bind (Durable.triple_read fun _ h => .inr h) fun values => ?_
  exact (settled_writePublicKeys _).mono (fun _ h => h.1) (fun _ h => h) (fun _ _ h => .inr h)
    fun _ h => h

/-- The staged key becomes the signer, and then its file is removed. -/
theorem settled_activateRotation (provider : FileKeyProvider) :
    Durable.Triple (Home.Since before) (activateRotation (P := P) provider) (Home.Settled before)
      (fun _ => Home.Settled before) (Home.Settled before) := by
  refine Durable.triple_bind (Durable.triple_read fun _ h => .inr h) fun active => ?_
  refine Durable.triple_bind (Durable.triple_read fun _ h => .inr h.1) fun staged => ?_
  refine Durable.triple_bind (Durable.triple_read fun _ h => .inr h.1.1) fun values => ?_
  refine Durable.triple_bind (Q := fun _ home => home.Since before ∧
    ∃ file, home.next = some file ∧ file.key = staged) ((triple_writePublicKeys _
      fun _ h => .inr h.1.1.1).mono (fun _ h => h) (fun _ h => h) ?_ fun _ h => h) fun _ => ?_
  · rintro _ _ ⟨home, unique, ⟨⟨⟨hsince, -⟩, hstaged⟩, -⟩, rfl, -⟩
    exact ⟨hsince, loadStaged_eq_ok hstaged⟩
  refine Durable.triple_bind (Durable.triple_read fun _ h => .inr h.1) fun file => ?_
  refine Durable.triple_bind (Q := fun _ => Home.Since before) (Durable.triple_act
    (fun _ h => .inr h.1.1) ?_ fun _ h => .inr h.1.1) fun _ => ?_
  · -- The signer is the staged key from here on, whose file is still there.
    rintro home ⟨⟨-, staged', hnext, rfl⟩, hstore⟩
    refine .inr ⟨staged', hnext, ?_⟩
    rw [← provider.store_key hstore]
    rfl
  exact Durable.triple_bind (settled_withoutNext fun _ h => .inr h) fun _ =>
    Durable.triple_pure (Q := fun _ => Home.Settled before) _

theorem settled_cancelRotation (provider : FileKeyProvider) :
    Durable.Triple (Home.Since before) (cancelRotation (P := P) provider) (Home.Settled before)
      (fun _ => Home.Settled before) (Home.Settled before) := by
  refine Durable.triple_bind (Durable.triple_read fun _ h => .inr h) fun active => ?_
  refine Durable.triple_bind (Durable.triple_read fun _ h => .inr h.1) fun staged => ?_
  refine Durable.triple_bind (Durable.triple_read fun _ h => .inr h.1.1) fun values => ?_
  refine Durable.triple_bind ((settled_writePublicKeys _).mono (fun _ h => h.1.1.1) (fun _ h => h)
    (fun _ _ h => h) fun _ h => h) fun _ => ?_
  exact Durable.triple_bind (settled_withoutNext fun _ h => .inr h) fun _ =>
    Durable.triple_pure (Q := fun _ => Home.Settled before) _

theorem settled_retirePublicKey (provider : FileKeyProvider) (keyId : PyStr) :
    Durable.Triple (Home.Since before) (retirePublicKey (P := P) provider keyId)
      (Home.Settled before) (fun _ => Home.Settled before) (Home.Settled before) := by
  refine Durable.triple_bind (Durable.triple_read fun _ h => .inr h) fun found => ?_
  refine Durable.triple_bind ((settled_writePublicKeys _).mono (fun _ h => h.1) (fun _ h => h)
    (fun _ _ h => .inr h) fun _ h => h) fun _ =>
      Durable.triple_pure (Q := fun _ => Home.Settled before) _

/-- Every command, wherever it is killed and however it ends, leaves the signer before the
    rotation or the key it staged. -/
theorem settled_run (provider : FileKeyProvider) (command : KeyCommand P) :
    Durable.Triple (Home.Since before) (command.run provider) (Home.Settled before)
      (fun _ => Home.Settled before) (Home.Settled before) := by
  have hpure (pin : Option PyStr) : Durable.Triple (Home.Settled before)
      (pure pin : Command P (Option PyStr)) (Home.Settled before) (fun _ => Home.Settled before)
      (Home.Settled before) := Durable.triple_pure (Q := fun _ => Home.Settled before) pin
  cases command with
  | prepare staged =>
    exact Durable.triple_bind (settled_prepareRotation provider staged) fun _ => hpure none
  | activate => exact Durable.triple_bind (settled_activateRotation provider) fun _ => hpure none
  | cancel => exact Durable.triple_bind (settled_cancelRotation provider) fun _ => hpure none
  | retire keyId =>
    exact Durable.triple_bind (settled_retirePublicKey provider keyId) fun pin => hpure (some pin)

end since

/-! ## Histories -/

/-- The signer before a command, unless a key is staged already. -/
def KeyHistory.signerBefore (h : KeyHistory P) (before : Option PyStr) : Option PyStr :=
  if h.home.next.isSome then before else h.home.activePin

/-- The histories of a home, with the signer before the rotation that is staged was prepared. -/
inductive KeyHistory.Rotating (providers : Set FileKeyProvider) :
    KeyHistory P → Option PyStr → Prop where
  | initialized {provider : FileKeyProvider} (hp : provider ∈ providers) (key : SigningKey P)
      (fault : Nat → Option KeyErr) {home : Home P}
      (hleft : home ∈ (initializeKey provider false key fault 0 Home.empty).left ∨
        home = (initializeKey provider false key fault 0 Home.empty).state)
      {pin : PyStr} (hpin : home.activePin = some pin) : Rotating providers ⟨home, [pin], []⟩ none
  | ended {h : KeyHistory P} {before : Option PyStr} (hr : Rotating providers h before)
      {provider : FileKeyProvider} (hp : provider ∈ providers) (command : KeyCommand P)
      (hf : command.Fresh h.signers) (fault : Nat → Option KeyErr) : Rotating providers
        (h.then (command.run provider fault 0 h.home).state
          (retiredBy (command.run provider fault 0 h.home).result)) (h.signerBefore before)
  | killed {h : KeyHistory P} {before : Option PyStr} (hr : Rotating providers h before)
      {provider : FileKeyProvider} (hp : provider ∈ providers) (command : KeyCommand P)
      (hf : command.Fresh h.signers) (fault : Nat → Option KeyErr) {home : Home P}
      (hleft : home ∈ (command.run provider fault 0 h.home).left) :
      Rotating providers (h.then home none) (h.signerBefore before)

section rotating

variable {providers : Set FileKeyProvider} {h : KeyHistory P} {before : Option PyStr}

theorem KeyHistory.Rotating.reachable (hr : h.Rotating providers before) : h.Reachable providers := by
  induction hr with
  | initialized hp key fault hleft hpin => exact .initialized hp key fault hleft hpin
  | ended _ hp command hf fault ih => exact .ended ih hp command hf fault
  | killed _ hp command hf fault hleft ih => exact .killed ih hp command hf fault hleft

/-- Every history has such a signer. -/
theorem KeyHistory.Reachable.exists_rotating (hr : h.Reachable providers) :
    ∃ before, h.Rotating providers before := by
  induction hr with
  | initialized hp key fault hleft hpin => exact ⟨_, .initialized hp key fault hleft hpin⟩
  | ended _ hp command hf fault ih => exact ⟨_, ih.choose_spec.ended hp command hf fault⟩
  | killed _ hp command hf fault hleft ih =>
    exact ⟨_, ih.choose_spec.killed hp command hf fault hleft⟩

theorem initializeKey_next (provider : FileKeyProvider) (key : SigningKey P) :
    Durable.Triple (fun home : Home P => home.next = none) (initializeKey provider false key)
      (fun home => home.next = none) (fun _ home => home.next = none) fun home => home.next = none := by
  refine Durable.triple_bind (Durable.triple_read fun _ h => h) fun _ => ?_
  refine Durable.triple_bind (Durable.triple_read fun _ h => h.1) fun file => ?_
  refine Durable.triple_bind (Q := fun _ home => home.next = none) (Durable.triple_act
    (fun _ h => h.1.1) (fun _ h => h.1.1) fun _ h => h.1.1) fun _ => ?_
  refine Durable.triple_bind (Q := fun _ home => home.next = none) ((triple_writePublicKeys _
    fun _ h => h).mono (fun _ h => h) (fun _ h => h) (fun _ _ ⟨_, _, h, hhome, _⟩ => hhome ▸ h)
      fun _ h => h) fun _ => ?_
  exact Durable.triple_pure (Q := fun _ (home : Home P) => home.next = none) key

/-- A home that is settled goes on from its own signer, unless a key is staged. -/
theorem KeyHistory.since_signerBefore (hs : h.home.Settled before) :
    h.home.Since (h.signerBefore before) := by
  rw [KeyHistory.signerBefore]
  split_ifs with hnext
  · exact hs.resolve_left fun hnone => by rw [hnone] at hnext; cases hnext
  · exact .inl rfl

/-- In every history the signer is the one before the rotation, or the staged key. -/
theorem KeyHistory.Rotating.settled (hr : h.Rotating providers before) : h.home.Settled before := by
  induction hr with
  | @initialized provider hp key fault home hleft pin hpin =>
    obtain ⟨hl, hret, hraise⟩ := initializeKey_next provider key fault 0 Home.empty
    rcases hleft with hleft | rfl
    · exact .inl (hl rfl _ hleft)
    · cases hres : (initializeKey provider false key fault 0 Home.empty).result with
      | ok k => exact .inl (hret rfl k hres)
      | error e => exact .inl (hraise rfl e hres)
  | @ended h before hr provider hp command hf fault ih =>
    have hsince := KeyHistory.since_signerBefore ih
    have hrun : Durable.Triple (Home.Since (h.signerBefore before)) (command.run provider) _ _ _ :=
      settled_run provider command
    obtain ⟨-, hret, hraise⟩ := hrun fault 0 h.home
    cases hres : (command.run provider fault 0 h.home).result with
    | ok pin => exact hret hsince pin hres
    | error e => exact hraise hsince e hres
  | @killed h before hr provider hp command hf fault home hleft ih =>
    exact (settled_run provider command fault 0 h.home).left (KeyHistory.since_signerBefore ih) _ hleft

/-! ## Cancelling -/

/-- A key that was cancelled is gone: it neither signs nor is published, no key is staged, and
    the signer is the one before the rotation. -/
structure Home.Discards (before : Option PyStr) (home : Home P) (key : SigningKey P) : Prop where
  signer : home.activePin ≠ some key.publicPinned
  published : ∀ provider values, publicKeys provider home none = .ok values →
    key.publicPinned ∉ values
  removed : home.next = none
  restored : home.activePin = before

/-- What `cancel_rotation` leaves when it returns: its key is out of the keyring, and the active
    key was not touched. -/
theorem cancelRotation_spec (provider : FileKeyProvider) (home₀ : Home P) :
    Durable.Triple (· = home₀) (cancelRotation provider) (fun _ => True)
      (fun key home => (∃ file, home₀.next = some file ∧ file.key = key) ∧ home.next = none ∧
        home.active = home₀.active ∧ ∃ unique, home.Written unique ∧ key.publicPinned ∉ unique)
      (fun _ => True) := by
  refine Durable.triple_bind (Durable.triple_read fun _ _ => trivial) fun active => ?_
  refine Durable.triple_bind (Durable.triple_read fun _ _ => trivial) fun staged => ?_
  refine Durable.triple_bind (Durable.triple_read fun _ _ => trivial) fun values => ?_
  refine Durable.triple_bind (Q := fun _ home => (∃ file, home₀.next = some file ∧
    file.key = staged) ∧ home.active = home₀.active ∧
      ∃ unique, home.Written unique ∧ staged.publicPinned ∉ unique)
    ((triple_writePublicKeys _ fun _ _ => trivial).mono (fun _ h => h) (fun _ h => h) ?_
      fun _ h => h) fun _ => ?_
  · rintro _ _ ⟨home, unique, ⟨⟨⟨rfl, -⟩, hstaged⟩, -⟩, rfl, hm, hp⟩
    refine ⟨loadStaged_eq_ok hstaged, rfl, unique, .inr ⟨rfl, hp⟩, fun hpin => ?_⟩
    exact of_decide_eq_true (List.mem_filter.1 ((hm _).1 hpin)).2 rfl
  refine Durable.triple_bind (Q := fun _ home => (∃ file, home₀.next = some file ∧
    file.key = staged) ∧ home.next = none ∧ home.active = home₀.active ∧
      ∃ unique, home.Written unique ∧ staged.publicPinned ∉ unique)
    (Durable.triple_act (fun _ _ => trivial) ?_ fun _ _ => trivial) fun _ => ?_
  · exact fun home ⟨hstaged, hactive, hwritten⟩ => ⟨hstaged, rfl, hactive, hwritten⟩
  · exact Durable.triple_pure (Q := fun key (home : Home P) => (∃ file, home₀.next = some file ∧
      file.key = key) ∧ home.next = none ∧ home.active = home₀.active ∧
        ∃ unique, home.Written unique ∧ key.publicPinned ∉ unique) staged

/-- In every history of a home, killed commands included, a cancelled key is discarded exactly
    when the key that was staged was not the signer. -/
theorem cancel_discards_iff (hr : h.Rotating providers before) {provider : FileKeyProvider}
    {fault : Nat → Option KeyErr} {key : SigningKey P}
    (hkey : (cancelRotation provider fault 0 h.home).result = .ok key) :
    (cancelRotation provider fault 0 h.home).state.Discards before key ↔
      ∀ file, h.home.next = some file → h.home.activePin ≠ some file.key.publicPinned := by
  obtain ⟨⟨file, hnext, rfl⟩, hremoved, hactive, unique, hwritten, hout⟩ :=
    (cancelRotation_spec provider h.home fault 0 h.home).returned rfl key hkey
  generalize (cancelRotation provider fault 0 h.home).state = home at hremoved hactive hwritten
  have hpin : home.activePin = h.home.activePin := by rw [Home.activePin, hactive, Home.activePin]
  constructor
  · rintro hdiscards f hf
    obtain rfl := Option.some.inj (hnext.symm.trans hf)
    exact hpin ▸ hdiscards.signer
  · intro hne
    have hsigner := hne file hnext
    refine ⟨hpin ▸ hsigner, fun q values hv => ?_, hremoved, ?_⟩
    · obtain ⟨active, hload, -⟩ := Wire.Except.bind_eq_ok hv
      rw [publicKeys_none hload] at hv
      rw [mem_publicKeys hwritten hv]
      rintro (hself | hpins | ⟨f, hf, -⟩)
      · rw [hpin.symm.trans (activePin_of_load hload), ← hself] at hsigner
        exact hsigner rfl
      · exact hout hpins
      · rw [hremoved] at hf
        cases hf
    · rcases hr.settled with hnone | hsince | ⟨f, hf, hf'⟩
      · rw [hnone] at hnext
        cases hnext
      · exact hpin.trans hsince
      · exact absurd hf' (hne f hf)

end rotating

/-! ## On a sample home -/

set_option maxRecDepth 10000 in
theorem rotating_samplePrepared :
    samplePrepared.Rotating {⟨none⟩} (some (sampleSigner 1).publicPinned) := by
  have hfirst : KeyHistory.Rotating {⟨none⟩} ⟨_, [(sampleSigner 1).publicPinned], []⟩ none :=
    .initialized (Set.mem_singleton _) (sampleSigner 1) (fun _ => none) (.inr rfl) rfl
  have hfresh : (sampleSigner 2).publicPinned ∉ [(sampleSigner 1).publicPinned] := by
    decide +kernel
  exact hfirst.ended (Set.mem_singleton _) (.prepare (sampleSigner 2)) hfresh fun _ => none

set_option maxRecDepth 10000 in
theorem rotating_sampleHalfActivated :
    sampleHalfActivated.Rotating {⟨none⟩} (some (sampleSigner 1).publicPinned) := by
  refine rotating_samplePrepared.killed (Set.mem_singleton _) .activate trivial (fun _ => none) ?_
  exact List.mem_of_getElem? (i := 2) rfl

set_option maxRecDepth 10000 in
/-- A rotation that was prepared is cancelled. -/
theorem cancel_discards_sample : ∃ key home,
    (cancelRotation ⟨none⟩ (fun _ => none) 0 samplePrepared.home).result = .ok key ∧
      (cancelRotation ⟨none⟩ (fun _ => none) 0 samplePrepared.home).state = home ∧
      (home.Discards (some (sampleSigner 1).publicPinned) key ↔ ∀ file,
        samplePrepared.home.next = some file →
          samplePrepared.home.activePin ≠ some file.key.publicPinned) :=
  ⟨sampleSigner 2, _, rfl, rfl, cancel_discards_iff rotating_samplePrepared rfl⟩

set_option maxRecDepth 10000 in
/-- After an activation that was killed, the key that is cancelled is the signer. -/
theorem cancel_returns_signer : ∃ key home,
    sampleHalfActivated.Rotating {⟨none⟩} (some (sampleSigner 1).publicPinned) ∧
      (cancelRotation ⟨none⟩ (fun _ => none) 0 sampleHalfActivated.home).result = .ok key ∧
      (cancelRotation ⟨none⟩ (fun _ => none) 0 sampleHalfActivated.home).state = home ∧
      home.activePin = some key.publicPinned ∧
      ¬home.Discards (some (sampleSigner 1).publicPinned) key :=
  ⟨sampleSigner 2, _, rotating_sampleHalfActivated, rfl, rfl, rfl, fun h => h.signer rfl⟩

end SkillRegistry
