import SkillRegistry.Protocol
import SkillRegistry.Structure.Durable

/-!
# Signing keys

The home of a registry: the file of its active key, the file of the key staged for
a rotation, and the keyring of the public keys clients may see. A command changes
them one file at a time, and may be killed between two changes.

* `publicKeys` are the keys the registry publishes;
* `prepareRotation`, `activateRotation`, `cancelRotation` and `retirePublicKey` are
  the commands;
* `Home.Keeps` is what every home a command leaves satisfies, from whichever
  half-done state it started (`keeps_prepareRotation` and its siblings);
* `rotation_keepsPins`: over any sequence of commands, each possibly killed, no key
  that signed and was not retired drops out of the published keys.
-/

namespace SkillRegistry

open Wire

/-! ## Files -/

/-- What the commands on keys raise. -/
inductive KeyErr where
  /-- Any `OSError`. -/
  | osError
  /-- A `ValueError`; a `KeyPassphraseError` is one. -/
  | valueError (message : String)
  deriving DecidableEq, Repr

/-- `ACTIVE_KEY_NAME`. -/
def activeKeyName : String := "signing-key.pem"

/-- `NEXT_KEY_NAME`. -/
def nextKeyName : String := "next-signing-key.pem"

/-- `KEY_PASSPHRASE_ENV`. -/
def keyPassphraseEnv : String := "CSK_REGISTRY_KEY_PASSPHRASE"

/-- `_EMPTY_PASSPHRASE_MESSAGE`. -/
def emptyPassphraseMessage : String :=
  keyPassphraseEnv ++
    " is set but empty; unset it for a plain key or set a non-empty passphrase"

variable (P : Platform)

/-- A PEM file of a private key, and the passphrase it is encrypted with. -/
structure KeyFile where
  key : SigningKey P
  lock : Option Bytes

/-- The data home of a registry, as far as its keys go. -/
structure Home where
  /-- `signing-key.pem`. -/
  active : Option (KeyFile P)
  /-- `next-signing-key.pem`. -/
  next : Option (KeyFile P)
  /-- `signing-keyring.json`. -/
  keyring : Option Json

/-- `FileKeyProvider`. -/
structure FileKeyProvider where
  passphrase : Option Bytes

variable {P}

/-- `FileKeyProvider.load`; the message names the file in the home. -/
def FileKeyProvider.load (provider : FileKeyProvider) (path : String) (file : Option (KeyFile P)) :
    Except KeyErr (SigningKey P) :=
  if provider.passphrase = some [] then .error (.valueError emptyPassphraseMessage)
  else
    match file with
    | none => .error (.valueError ("signing key " ++ path ++ " is unavailable"))
    | some file =>
      match file.lock, provider.passphrase with
      | none, _ => .ok file.key
      | some _, none =>
        .error (.valueError
          ("signing key " ++ path ++ " is encrypted but " ++ keyPassphraseEnv ++ " is not set"))
      | some lock, some passphrase =>
        if passphrase = lock then .ok file.key
        else
          .error (.valueError
            ("could not decrypt signing key " ++ path ++ " with " ++ keyPassphraseEnv ++
              " (wrong passphrase?)"))

/-- The file `FileKeyProvider.store` writes. -/
def FileKeyProvider.store (provider : FileKeyProvider) (key : SigningKey P) :
    Except KeyErr (KeyFile P) :=
  if provider.passphrase = some [] then .error (.valueError emptyPassphraseMessage)
  else .ok ⟨key, provider.passphrase⟩

/-- `values.append(value)`, unless it is there. -/
def addPin (values : List PyStr) (value : PyStr) : List PyStr :=
  if value ∈ values then values else values ++ [value]

/-- `parse_public_key`, for its exception. -/
def checkPin (value : PyStr) : Except KeyErr Unit :=
  ((parsePublicKey value).map fun _ => ()).mapError fun e => .valueError e.message

/-- The keys of the keyring are added to the others. -/
def addConfigured : (values : List PyStr) → List Json → Except KeyErr (List PyStr)
  | values, [] => .ok values
  | values, .str value :: configured => do
    checkPin value
    addConfigured (addPin values value) configured
  | _, _ :: _ => .error (.valueError "public key must be a string")

variable (P)

/-- The published keys, from those of the keyring. -/
def configuredKeys (payload : Json) (values : List PyStr) : Except KeyErr (List PyStr) :=
  match payload with
  | .obj payload =>
    if Dict.keys payload ≠ [py "public_keys", py "schema_version"] then
      .error (.valueError "keyring must contain schema_version and public_keys")
    else if ¬pyEqInt P ((Dict.get? payload (py "schema_version")).getD .null) 1 then
      .error (.valueError "unsupported keyring schema_version")
    else
      match Dict.get? payload (py "public_keys") with
      | some (.arr configured) => addConfigured values configured
      | _ => .error (.valueError "public_keys must be an array")
  | _ => .error (.valueError "keyring must contain schema_version and public_keys")

/-- What a malformed keyring raises. -/
def keyringError : KeyErr → KeyErr
  | .valueError m => .valueError ("signing keyring is malformed: " ++ m)
  | .osError => .valueError "signing keyring is malformed"

variable {P}

/-- `public_keys`. -/
def publicKeys (provider : FileKeyProvider) (home : Home P) (active : Option (SigningKey P)) :
    Except KeyErr (List PyStr) := do
  let current ← match active with
    | some key => .ok key
    | none => provider.load activeKeyName home.active
  let values ← match home.keyring with
    | none => .ok [current.publicPinned]
    | some payload => (configuredKeys P payload [current.publicPinned]).mapError keyringError
  match home.next with
  | none => .ok values
  | some file => do
    let staged ← provider.load nextKeyName (some file)
    .ok (addPin values staged.publicPinned)

/-- The pins, each once, in the order they first come in. -/
def uniquePins : (unique : List PyStr) → List PyStr → Except KeyErr (List PyStr)
  | unique, [] => .ok unique
  | unique, value :: values => do
    checkPin value
    uniquePins (addPin unique value) values

/-- The document of the keyring. -/
def keyringPayload (unique : List PyStr) : Json :=
  .obj [(py "public_keys", .arr (unique.map .str)), (py "schema_version", .int 1)]

/-! ## Commands -/

/-- The atomic write of the keyring. -/
def Home.withKeyring (unique : List PyStr) (home : Home P) : Home P :=
  { home with keyring := some (keyringPayload unique) }

/-- The atomic write of the file of the active key. -/
def Home.withActive (file : KeyFile P) (home : Home P) : Home P := { home with active := some file }

/-- The atomic write of the file of the staged key. -/
def Home.withNext (file : KeyFile P) (home : Home P) : Home P := { home with next := some file }

/-- `staged_path.unlink()`. -/
def Home.withoutNext (home : Home P) : Home P := { home with next := none }

/-- A command on a home. -/
abbrev Command (P : Platform) (α : Type) := Durable (Home P) KeyErr α

/-- `_write_public_keys`. -/
def writePublicKeys (values : List PyStr) : Command P Unit := do
  let unique ← Durable.read fun _ => uniquePins [] values
  Durable.act (Home.withKeyring unique)

/-- `initialize_key`, generating `key`. -/
def initializeKey (provider : FileKeyProvider) (replace : Bool) (key : SigningKey P) :
    Command P (SigningKey P) := do
  Durable.read fun home =>
    if home.active.isSome && !replace then
      .error (.valueError ("signing key already exists at " ++ activeKeyName))
    else if home.next.isSome then
      .error (.valueError "a signing-key rotation is already staged")
    else .ok ()
  let file ← Durable.read fun _ => provider.store key
  Durable.act (Home.withActive file)
  writePublicKeys [key.publicPinned]
  return key

/-- `prepare_rotation`, generating `staged`. -/
def prepareRotation (provider : FileKeyProvider) (staged : SigningKey P) :
    Command P (SigningKey P × SigningKey P) := do
  let active ← Durable.read fun home => provider.load activeKeyName home.active
  Durable.read fun home =>
    if home.next.isSome then .error (.valueError "a signing-key rotation is already staged")
    else .ok ()
  let file ← Durable.read fun _ => provider.store staged
  Durable.act (Home.withNext file)
  Durable.handle
    (do
      let values ← Durable.read fun home => publicKeys provider home (some active)
      writePublicKeys (values ++ [staged.publicPinned]))
    (Durable.act Home.withoutNext)
  return (active, staged)

/-- The staged key, when there is one. -/
def loadStaged (provider : FileKeyProvider) (home : Home P) : Except KeyErr (SigningKey P) :=
  match home.next with
  | none => .error (.valueError "no signing-key rotation is staged")
  | some file => provider.load nextKeyName (some file)

/-- `activate_rotation`. -/
def activateRotation (provider : FileKeyProvider) : Command P (SigningKey P × SigningKey P) := do
  let active ← Durable.read fun home => provider.load activeKeyName home.active
  let staged ← Durable.read (loadStaged provider)
  let values ← Durable.read fun home => publicKeys provider home (some active)
  writePublicKeys (values ++ [staged.publicPinned])
  let file ← Durable.read fun _ => provider.store staged
  Durable.act (Home.withActive file)
  Durable.act Home.withoutNext
  return (active, staged)

/-- `cancel_rotation`. -/
def cancelRotation (provider : FileKeyProvider) : Command P (SigningKey P) := do
  let active ← Durable.read fun home => provider.load activeKeyName home.active
  let staged ← Durable.read (loadStaged provider)
  let values ← Durable.read fun home => publicKeys provider home (some active)
  writePublicKeys (values.filter (· ≠ staged.publicPinned))
  Durable.act Home.withoutNext
  return staged

variable (P)

/-- `_key_id`; of the pins of a keyring, all of which are public keys. -/
def pinKeyId (value : PyStr) : Option PyStr :=
  match parsePublicKey value with
  | .ok key => some (keyIdOf P key)
  | .error _ => none

variable {P}

/-- The staged key, or `None`. -/
def findStaged (provider : FileKeyProvider) (home : Home P) :
    Except KeyErr (Option (SigningKey P)) :=
  match home.next with
  | none => .ok none
  | some file => (provider.load nextKeyName (some file)).map some

/-- The published keys, and the one of them `retire_public_key` removes. -/
def retiredPin (provider : FileKeyProvider) (keyId : PyStr) (home : Home P) :
    Except KeyErr (List PyStr × PyStr) := do
  let active ← provider.load activeKeyName home.active
  let staged ← findStaged provider home
  if keyId = active.keyId ∨ staged.map (·.keyId) = some keyId then
    .error (.valueError "the active or staged signing key cannot be retired")
  else
    let values ← publicKeys provider home (some active)
    match values.filter (fun value => pinKeyId P value = some keyId) with
    | [pin] => .ok (values, pin)
    | _ => .error (.valueError ("retained signing key " ++ pyRepr keyId ++ " was not found"))

/-- `retire_public_key`. -/
def retirePublicKey (provider : FileKeyProvider) (keyId : PyStr) : Command P PyStr := do
  let found ← Durable.read (retiredPin provider keyId)
  writePublicKeys (found.1.erase found.2)
  return found.2

/-! ## What is published -/

/-- The keyring is missing, or the code wrote it. -/
def Home.Written (home : Home P) (pins : List PyStr) : Prop :=
  (home.keyring = none ∧ pins = []) ∨
    (home.keyring = some (keyringPayload pins) ∧ ∀ pin ∈ pins, checkPin pin = .ok ())

theorem mem_addPin {values : List PyStr} {value pin : PyStr} :
    pin ∈ addPin values value ↔ pin ∈ values ∨ pin = value := by
  unfold addPin
  split_ifs with h
  · refine ⟨.inl, ?_⟩
    rintro (hp | rfl)
    · exact hp
    · exact h
  · simp

theorem mem_foldl_addPin {pins : List PyStr} {values : List PyStr} {pin : PyStr} :
    pin ∈ pins.foldl addPin values ↔ pin ∈ values ∨ pin ∈ pins := by
  induction pins generalizing values with
  | nil => simp
  | cons value pins ih => rw [List.foldl_cons, ih, mem_addPin, List.mem_cons, or_assoc]

/-- A public key passes its check. -/
@[simp] theorem checkPin_publicPinned (key : SigningKey P) : checkPin key.publicPinned = .ok () := by
  rw [checkPin, parsePublicKey_publicPinned]
  rfl

theorem addConfigured_written {pins : List PyStr} (h : ∀ pin ∈ pins, checkPin pin = .ok ())
    (values : List PyStr) : addConfigured values (pins.map .str) = .ok (pins.foldl addPin values) := by
  induction pins generalizing values with
  | nil => rfl
  | cons pin pins ih =>
    rw [List.map_cons, addConfigured, h pin List.mem_cons_self]
    exact ih (fun p hp => h p (List.mem_cons_of_mem _ hp)) _

theorem configuredKeys_written {pins : List PyStr} (h : ∀ pin ∈ pins, checkPin pin = .ok ())
    (values : List PyStr) :
    configuredKeys P (keyringPayload pins) values = .ok (pins.foldl addPin values) := by
  have hne : py "schema_version" ≠ py "public_keys" := by decide
  rw [keyringPayload, configuredKeys, if_neg (fun hk => hk rfl), Dict.get?_cons, if_neg hne,
    Dict.get?_cons, if_pos rfl, Dict.get?_cons, if_pos rfl]
  exact addConfigured_written h values

/-- The published keys are those of the active key, of the keyring and of the staged
    key. -/
theorem publicKeys_written {home : Home P} {pins : List PyStr} (h : home.Written pins)
    (provider : FileKeyProvider) (active : SigningKey P) :
    publicKeys provider home (some active) =
      match home.next with
      | none => .ok (pins.foldl addPin [active.publicPinned])
      | some file => provider.load nextKeyName (some file) >>= fun staged =>
        .ok (addPin (pins.foldl addPin [active.publicPinned]) staged.publicPinned) := by
  unfold publicKeys
  rcases h with ⟨hk, rfl⟩ | ⟨hk, hp⟩
  · rw [hk]
    rfl
  · have hc : (configuredKeys P (keyringPayload pins) [active.publicPinned]).mapError keyringError =
        .ok (pins.foldl addPin [active.publicPinned]) := by
      rw [configuredKeys_written hp]
      rfl
    rw [hk]
    change ((configuredKeys P (keyringPayload pins) [active.publicPinned]).mapError keyringError
      >>= _) = _
    rw [hc]
    rfl

theorem FileKeyProvider.load_eq_ok {provider : FileKeyProvider} {path : String}
    {file : Option (KeyFile P)} {key : SigningKey P} (h : provider.load path file = .ok key) :
    ∃ f, file = some f ∧ f.key = key := by
  unfold FileKeyProvider.load at h
  split_ifs at h
  cases file with
  | none => cases h
  | some f =>
    refine ⟨f, rfl, ?_⟩
    dsimp only at h
    split at h
    · exact Except.ok.inj h
    · cases h
    · split_ifs at h
      exact Except.ok.inj h

theorem loadStaged_eq_ok {provider : FileKeyProvider} {home : Home P} {key : SigningKey P}
    (h : loadStaged provider home = .ok key) : ∃ file, home.next = some file ∧ file.key = key := by
  unfold loadStaged at h
  split at h
  · cases h
  · rename_i file hn
    obtain ⟨f, hf, hk⟩ := provider.load_eq_ok h
    exact ⟨f, hn.trans hf, hk⟩

/-- A provider reads back what it stored. -/
theorem FileKeyProvider.load_stored {provider : FileKeyProvider} {file : KeyFile P}
    (h : provider.store file.key = .ok file) (path : String) :
    provider.load path (some file) = .ok file.key := by
  unfold FileKeyProvider.store at h
  split_ifs at h with hp
  have hl : file.lock = provider.passphrase := by rw [← Except.ok.inj h]
  unfold FileKeyProvider.load
  rw [if_neg hp]
  dsimp only
  rw [hl]
  cases provider.passphrase with
  | none => rfl
  | some passphrase => exact if_pos rfl

theorem FileKeyProvider.store_key {provider : FileKeyProvider} {key : SigningKey P}
    {file : KeyFile P} (h : provider.store key = .ok file) : file.key = key := by
  unfold FileKeyProvider.store at h
  split_ifs at h
  rw [← Except.ok.inj h]

/-- The pins published while `active` signs. -/
theorem mem_publicKeys {home : Home P} {pins values : List PyStr} (h : home.Written pins)
    {provider : FileKeyProvider} {active : SigningKey P}
    (hv : publicKeys provider home (some active) = .ok values) {pin : PyStr} :
    pin ∈ values ↔ pin = active.publicPinned ∨ pin ∈ pins ∨
      ∃ file, home.next = some file ∧ pin = file.key.publicPinned := by
  rw [publicKeys_written h] at hv
  cases hn : home.next with
  | none =>
    rw [hn] at hv
    rw [← Except.ok.inj hv, mem_foldl_addPin, List.mem_singleton]
    simp
  | some file =>
    rw [hn] at hv
    obtain ⟨staged, hs, hv⟩ := Wire.Except.bind_eq_ok hv
    obtain ⟨f, hf, rfl⟩ := provider.load_eq_ok hs
    obtain rfl := Option.some.inj hf
    rw [← Except.ok.inj hv, mem_addPin, mem_foldl_addPin, List.mem_singleton, or_assoc]
    simp

theorem uniquePins_eq_ok {values unique result : List PyStr}
    (h : uniquePins unique values = .ok result) :
    (∀ pin, pin ∈ result ↔ pin ∈ unique ∨ pin ∈ values) ∧ ∀ pin ∈ values, checkPin pin = .ok () := by
  induction values generalizing unique with
  | nil =>
    rw [← Except.ok.inj h]
    exact ⟨fun pin => by simp, List.forall_mem_nil _⟩
  | cons value values ih =>
    rw [uniquePins] at h
    obtain ⟨hc, h⟩ := check_bind_eq_ok.1 h
    obtain ⟨hm, hp⟩ := ih h
    refine ⟨fun pin => ?_, List.forall_mem_cons.2 ⟨hc, hp⟩⟩
    rw [hm, mem_addPin, List.mem_cons, or_assoc]

/-! ## What every command keeps -/

/-- The pin of the active signer. -/
def Home.activePin (home : Home P) : Option PyStr := home.active.map (·.key.publicPinned)

/-- A home between commands, where the keys of `signers` have signed, those of
    `retired` were retired, and the files were stored by `providers`. -/
structure Home.Keeps (providers : Set FileKeyProvider) (signers retired : List PyStr)
    (home : Home P) : Prop where
  active : ∃ file, home.active = some file
  stored : ∀ file, home.active = some file ∨ home.next = some file →
    ∃ provider ∈ providers, provider.store file.key = .ok file
  /-- A key that signed and was not retired is the active one or in the keyring. -/
  keyring : ∃ pins, home.Written pins ∧
    ∀ pin ∈ signers, pin ∉ retired → home.activePin = some pin ∨ pin ∈ pins
  /-- The staged key has never signed, unless an activation was killed. -/
  staged : ∀ file, home.next = some file →
    file.key.publicPinned ∉ signers ∨ home.activePin = some file.key.publicPinned

section keeps

variable {providers : Set FileKeyProvider} {signers retired : List PyStr} {home : Home P}

/-- The active key, once loaded. -/
theorem activePin_of_load {provider : FileKeyProvider} {active : SigningKey P}
    (h : provider.load activeKeyName home.active = .ok active) :
    home.activePin = some active.publicPinned := by
  obtain ⟨file, hf, rfl⟩ := provider.load_eq_ok h
  rw [Home.activePin, hf]
  rfl

/-- The published keys hold all that signed and were not retired, and the staged key. -/
theorem Home.Keeps.published (h : home.Keeps providers signers retired) {provider : FileKeyProvider}
    {active : SigningKey P} (ha : provider.load activeKeyName home.active = .ok active)
    {values : List PyStr} (hv : publicKeys provider home (some active) = .ok values) :
    active.publicPinned ∈ values ∧ (∀ pin ∈ signers, pin ∉ retired → pin ∈ values) ∧
      ∀ file, home.next = some file → file.key.publicPinned ∈ values := by
  obtain ⟨pins, hw, hp⟩ := h.keyring
  refine ⟨(mem_publicKeys hw hv).2 (.inl rfl), fun pin hs hr => ?_, fun file hn => ?_⟩
  · rcases hp pin hs hr with hpin | hpin
    · rw [activePin_of_load ha] at hpin
      exact (mem_publicKeys hw hv).2 (.inl (Option.some.inj hpin).symm)
    · exact (mem_publicKeys hw hv).2 (.inr (.inl hpin))
  · exact (mem_publicKeys hw hv).2 (.inr (.inr ⟨file, hn, rfl⟩))

/-- The active signer is one of those that signed. -/
theorem Home.Keeps.sign (h : home.Keeps providers signers retired) :
    home.Keeps providers (home.activePin.toList ++ signers) retired := by
  obtain ⟨pins, hw, hp⟩ := h.keyring
  refine ⟨h.active, h.stored, ⟨pins, hw, fun pin hs hr => ?_⟩, fun file hn => ?_⟩
  · rcases List.mem_append.1 hs with hs | hs
    · exact .inl (Option.mem_toList.1 hs)
    · exact hp pin hs hr
  · by_cases ha : home.activePin = some file.key.publicPinned
    · exact .inr ha
    · refine .inl fun hs => ?_
      rcases List.mem_append.1 hs with hs | hs
      · exact ha (Option.mem_toList.1 hs)
      · exact (h.staged file hn).elim (· hs) ha

/-- The keyring may be rewritten with all that signed and was not retired, but the
    active key. -/
theorem Home.Keeps.withKeyring (h : home.Keeps providers signers retired) {unique : List PyStr}
    (hu : ∀ pin ∈ unique, checkPin pin = .ok ()) {retired' : List PyStr}
    (hs : ∀ pin ∈ signers, pin ∉ retired' → home.activePin = some pin ∨ pin ∈ unique) :
    (home.withKeyring unique).Keeps providers signers retired' :=
  ⟨h.active, h.stored, ⟨unique, .inr ⟨rfl, hu⟩, hs⟩, h.staged⟩

theorem Home.Keeps.withoutNext (h : home.Keeps providers signers retired) :
    home.withoutNext.Keeps providers signers retired :=
  ⟨h.active, fun file hf => h.stored file (hf.imp_right fun hn => by cases hn), h.keyring,
    fun file hn => by cases hn⟩

/-- A key that has not signed may be staged. -/
theorem Home.Keeps.withNext (h : home.Keeps providers signers retired) {provider : FileKeyProvider}
    (hprovider : provider ∈ providers) {staged : SigningKey P} {file : KeyFile P}
    (hf : provider.store staged = .ok file) (hs : staged.publicPinned ∉ signers) :
    (home.withNext file).Keeps providers signers retired := by
  obtain rfl := provider.store_key hf
  refine ⟨h.active, fun f hf' => ?_, h.keyring, fun f hn => ?_⟩
  · rcases hf' with hf' | hf'
    · exact h.stored f (.inl hf')
    · obtain rfl := Option.some.inj hf'
      exact ⟨provider, hprovider, hf⟩
  · obtain rfl := Option.some.inj hn
    exact .inl hs

/-- The staged key becomes the active one when the keyring holds all that signed and
    was not retired. -/
theorem Home.Keeps.withActive (h : home.Keeps providers signers retired) {provider : FileKeyProvider}
    (hprovider : provider ∈ providers) {pins : List PyStr} (hw : home.Written pins)
    (hp : ∀ pin ∈ signers, pin ∉ retired → pin ∈ pins) {staged : SigningKey P} {file : KeyFile P}
    (hf : provider.store staged = .ok file)
    (hn : ∀ f, home.next = some f → f.key = staged) :
    (home.withActive file).Keeps providers signers retired := by
  obtain rfl := provider.store_key hf
  refine ⟨⟨file, rfl⟩, fun f hf' => ?_, ⟨pins, hw, fun pin hs hr => .inr (hp pin hs hr)⟩,
    fun f hf' => .inr ?_⟩
  · rcases hf' with hf' | hf'
    · obtain rfl := Option.some.inj hf'
      exact ⟨provider, hprovider, hf⟩
    · exact h.stored f (.inr hf')
  · rw [hn f hf']
    rfl

theorem triple_writePublicKeys {Pre K : Home P → Prop} (values : List PyStr)
    (hK : ∀ home, Pre home → K home) :
    Durable.Triple Pre (writePublicKeys values) K (fun _ home => ∃ before unique, Pre before ∧
      home = before.withKeyring unique ∧ (∀ pin, pin ∈ unique ↔ pin ∈ values) ∧
      ∀ pin ∈ unique, checkPin pin = .ok ()) K := by
  refine Durable.triple_bind (Durable.triple_read hK) fun unique => ?_
  refine Durable.triple_act (fun _ h => hK _ h.1) (fun home ⟨hpre, hu⟩ => ?_) fun _ h => hK _ h.1
  obtain ⟨hm, hp⟩ := uniquePins_eq_ok hu
  have hm' : ∀ pin, pin ∈ unique ↔ pin ∈ values := fun pin => by simpa using hm pin
  exact ⟨home, unique, hpre, rfl, hm', fun pin hpin => hp pin ((hm' pin).1 hpin)⟩

/-- What a command keeps, wherever it is killed and however it ends. -/
abbrev KeepsHome (providers : Set FileKeyProvider) (signers retired : List PyStr) {α : Type}
    (command : Command P α) : Prop :=
  Durable.Triple (Home.Keeps providers signers retired) command
    (Home.Keeps providers signers retired) (fun _ => Home.Keeps providers signers retired)
    (Home.Keeps providers signers retired)

variable {provider : FileKeyProvider} (hprovider : provider ∈ providers)

include hprovider

/-- A key is staged that has never signed. -/
theorem keeps_prepareRotation {staged : SigningKey P} (hs : staged.publicPinned ∉ signers) :
    KeepsHome providers signers retired (prepareRotation provider staged) := by
  refine Durable.triple_bind (Durable.triple_read fun _ h => h) fun active => ?_
  refine Durable.triple_bind (Durable.triple_read fun _ h => h.1) fun _ => ?_
  refine Durable.triple_bind (Durable.triple_read fun _ h => h.1.1) fun file => ?_
  refine Durable.triple_bind (Q := fun _ home => home.Keeps providers signers retired ∧
    provider.load activeKeyName home.active = .ok active) (Durable.triple_act (fun _ h => h.1.1.1)
    (fun home ⟨⟨⟨hk, ha⟩, _⟩, hf⟩ => ⟨hk.withNext hprovider hf hs, ha⟩) fun _ h => h.1.1.1)
    fun _ => ?_
  refine Durable.triple_bind (Durable.triple_handle (F := Home.Keeps providers signers retired) ?_
    (Durable.triple_act (fun _ h => h) (fun _ h => h.withoutNext) fun _ h => h)) fun _ =>
      Durable.triple_pure _
  refine Durable.triple_bind (Durable.triple_read fun _ h => h.1) fun values => ?_
  refine (triple_writePublicKeys _ fun _ h => h.1.1).mono (fun _ h => h) (fun _ h => h) ?_
    fun _ h => h
  rintro _ _ ⟨home, unique, ⟨⟨hk, ha⟩, hv⟩, rfl, hm, hp⟩
  -- The keyring now holds all that was published, and the staged key.
  obtain ⟨-, howed, -⟩ := hk.published ha hv
  exact hk.withKeyring hp fun pin hpin hr =>
    .inr ((hm pin).2 (List.mem_append_left _ (howed pin hpin hr)))

/-- The staged key becomes the signer after the keyring holds the previous one. -/
theorem keeps_activateRotation :
    KeepsHome providers signers retired (activateRotation (P := P) provider) := by
  refine Durable.triple_bind (Durable.triple_read fun _ h => h) fun active => ?_
  refine Durable.triple_bind (Durable.triple_read fun _ h => h.1) fun staged => ?_
  refine Durable.triple_bind (Durable.triple_read fun _ h => h.1.1) fun values => ?_
  refine Durable.triple_bind (Q := fun _ home => home.Keeps providers signers retired ∧
    (∃ pins, home.Written pins ∧ ∀ pin ∈ signers, pin ∉ retired → pin ∈ pins) ∧
    ∀ file, home.next = some file → file.key = staged)
    ((triple_writePublicKeys _ fun _ h => h.1.1.1).mono (fun _ h => h) (fun _ h => h) ?_
      fun _ h => h) fun _ => ?_
  · rintro _ _ ⟨home, unique, ⟨⟨⟨hk, ha⟩, hs⟩, hv⟩, rfl, hm, hp⟩
    obtain ⟨-, howed, -⟩ := hk.published ha hv
    have hu : ∀ pin ∈ signers, pin ∉ retired → pin ∈ unique := fun pin hpin hr =>
      (hm pin).2 (List.mem_append_left _ (howed pin hpin hr))
    refine ⟨hk.withKeyring hp fun pin hpin hr => .inr (hu pin hpin hr), ⟨unique, .inr ⟨rfl, hp⟩, hu⟩,
      fun file hn => ?_⟩
    obtain ⟨f, hf, rfl⟩ := loadStaged_eq_ok hs
    rw [Option.some.inj (hn.symm.trans hf)]
  refine Durable.triple_bind (Durable.triple_read fun _ h => h.1) fun file => ?_
  refine Durable.triple_bind (Q := fun _ => Home.Keeps providers signers retired)
    (Durable.triple_act (fun _ h => h.1.1) ?_ fun _ h => h.1.1) fun _ => ?_
  · rintro home ⟨⟨hk, ⟨pins, hw, hpins⟩, hn⟩, hf⟩
    exact hk.withActive hprovider hw hpins hf hn
  refine Durable.triple_bind (Q := fun _ => Home.Keeps providers signers retired)
    (Durable.triple_act (fun _ h => h) (fun _ h => h.withoutNext) fun _ h => h) fun _ => ?_
  exact Durable.triple_pure (Q := fun _ => Home.Keeps providers signers retired) _

omit hprovider

/-- The staged key is dropped; should it be the active one, it stays published as such. -/
theorem keeps_cancelRotation :
    KeepsHome providers signers retired (cancelRotation (P := P) provider) := by
  refine Durable.triple_bind (Durable.triple_read fun _ h => h) fun active => ?_
  refine Durable.triple_bind (Durable.triple_read fun _ h => h.1) fun staged => ?_
  refine Durable.triple_bind (Durable.triple_read fun _ h => h.1.1) fun values => ?_
  refine Durable.triple_bind (Q := fun _ => Home.Keeps providers signers retired)
    ((triple_writePublicKeys _ fun _ h => h.1.1.1).mono (fun _ h => h) (fun _ h => h) ?_
      fun _ h => h) fun _ => ?_
  · rintro _ _ ⟨home, unique, ⟨⟨⟨hk, ha⟩, hs⟩, hv⟩, rfl, hm, hp⟩
    obtain ⟨-, howed, -⟩ := hk.published ha hv
    obtain ⟨file, hf, rfl⟩ := loadStaged_eq_ok hs
    refine hk.withKeyring hp fun pin hpin hr => ?_
    by_cases hpf : pin = file.key.publicPinned
    · -- A signer that is staged is the active one: its activation was killed.
      subst hpf
      rcases hk.staged file hf with hnot | hactive
      · exact absurd hpin hnot
      · exact .inl hactive
    · exact .inr ((hm pin).2 (List.mem_filter.2 ⟨howed pin hpin hr, decide_eq_true hpf⟩))
  refine Durable.triple_bind (Q := fun _ => Home.Keeps providers signers retired)
    (Durable.triple_act (fun _ h => h) (fun _ h => h.withoutNext) fun _ h => h) fun _ => ?_
  exact Durable.triple_pure (Q := fun _ => Home.Keeps providers signers retired) _

theorem retiredPin_eq_ok {keyId : PyStr} {values : List PyStr} {pin : PyStr}
    (h : retiredPin provider keyId home = .ok (values, pin)) :
    ∃ active, provider.load activeKeyName home.active = .ok active ∧
      publicKeys provider home (some active) = .ok values := by
  obtain ⟨active, ha, h⟩ := Wire.Except.bind_eq_ok h
  obtain ⟨staged, -, h⟩ := Wire.Except.bind_eq_ok h
  split_ifs at h
  obtain ⟨vs, hv, h⟩ := Wire.Except.bind_eq_ok h
  split at h
  · obtain ⟨rfl, -⟩ := Prod.mk.inj (Except.ok.inj h)
    exact ⟨active, ha, hv⟩
  · cases h

/-- The retired key is the only one that leaves the published keys. -/
theorem retires_retirePublicKey (keyId : PyStr) :
    Durable.Triple (Home.Keeps providers signers retired) (retirePublicKey (P := P) provider keyId)
      (Home.Keeps providers signers retired)
      (fun pin => Home.Keeps providers signers (pin :: retired))
      (Home.Keeps providers signers retired) := by
  refine Durable.triple_bind (Durable.triple_read fun _ h => h) fun found => ?_
  obtain ⟨values, pin⟩ := found
  refine Durable.triple_bind ((triple_writePublicKeys _ fun _ h => h.1).mono (fun _ h => h)
    (fun _ h => h) ?_ fun _ h => h) fun _ => Durable.triple_pure pin
  rintro _ _ ⟨home, unique, ⟨hk, hfound⟩, rfl, hm, hp⟩
  obtain ⟨active, ha, hv⟩ := retiredPin_eq_ok hfound
  obtain ⟨-, howed, -⟩ := hk.published ha hv
  refine hk.withKeyring hp fun p hpin hr => .inr ((hm p).2 ?_)
  obtain ⟨hne, hr⟩ := not_or.1 (List.mem_cons.not.1 hr)
  exact (List.mem_erase_of_ne hne).2 (howed p hpin hr)

end keeps

/-! ## Any sequence of commands -/

/-- A home, with the pins of the keys that have been its active signer and of the keys
    a completed command retired. -/
structure KeyHistory (P : Platform) where
  home : Home P
  signers : List PyStr
  retired : List PyStr

/-- A command. -/
inductive KeyCommand (P : Platform) where
  | prepare (staged : SigningKey P)
  | activate
  | cancel
  | retire (keyId : PyStr)

/-- The command, returning the pin it retires. -/
def KeyCommand.run (provider : FileKeyProvider) : KeyCommand P → Command P (Option PyStr)
  | .prepare staged => do
    let _ ← prepareRotation provider staged
    return none
  | .activate => do
    let _ ← activateRotation provider
    return none
  | .cancel => do
    let _ ← cancelRotation provider
    return none
  | .retire keyId => do
    let pin ← retirePublicKey provider keyId
    return some pin

/-- A generated key is new: it has never been the active signer. -/
def KeyCommand.Fresh (signers : List PyStr) : KeyCommand P → Prop
  | .prepare staged => staged.publicPinned ∉ signers
  | _ => True

/-- The history goes on with the home a command left. -/
def KeyHistory.then (h : KeyHistory P) (home : Home P) (retired : Option PyStr) : KeyHistory P :=
  ⟨home, home.activePin.toList ++ h.signers, retired.toList ++ h.retired⟩

/-- The pin a command retired, when it returned. -/
def retiredBy : Except KeyErr (Option PyStr) → Option PyStr
  | .ok pin => pin
  | .error _ => none

/-- The home without files. -/
def Home.empty : Home P := ⟨none, none, none⟩

/-- The histories of a home: it is initialized, perhaps not to the end, and commands
    follow, each with a provider of its own; some of the writes may fail, and any
    command may be killed before any of its writes. -/
inductive KeyHistory.Reachable (providers : Set FileKeyProvider) : KeyHistory P → Prop where
  | initialized {provider : FileKeyProvider} (hp : provider ∈ providers) (key : SigningKey P)
      (fault : Nat → Option KeyErr) {home : Home P}
      (hleft : home ∈ (initializeKey provider false key fault 0 Home.empty).left ∨
        home = (initializeKey provider false key fault 0 Home.empty).state)
      {pin : PyStr} (hpin : home.activePin = some pin) : Reachable providers ⟨home, [pin], []⟩
  | ended {h : KeyHistory P} (hr : Reachable providers h) {provider : FileKeyProvider}
      (hp : provider ∈ providers) (command : KeyCommand P) (hf : command.Fresh h.signers)
      (fault : Nat → Option KeyErr) : Reachable providers
        (h.then (command.run provider fault 0 h.home).state
          (retiredBy (command.run provider fault 0 h.home).result))
  | killed {h : KeyHistory P} (hr : Reachable providers h) {provider : FileKeyProvider}
      (hp : provider ∈ providers) (command : KeyCommand P) (hf : command.Fresh h.signers)
      (fault : Nat → Option KeyErr) {home : Home P}
      (hleft : home ∈ (command.run provider fault 0 h.home).left) :
      Reachable providers (h.then home none)

section reachable

variable {providers : Set FileKeyProvider}

theorem keeps_run {signers retired : List PyStr} {provider : FileKeyProvider}
    (hprovider : provider ∈ providers) {command : KeyCommand P} (hf : command.Fresh signers) :
    Durable.Triple (Home.Keeps providers signers retired) (command.run provider)
      (Home.Keeps providers signers retired)
      (fun pin => Home.Keeps providers signers (pin.toList ++ retired))
      (Home.Keeps providers signers retired) := by
  have hpure : Durable.Triple (Home.Keeps providers signers retired)
      (pure none : Command P (Option PyStr)) (Home.Keeps providers signers retired)
      (fun pin => Home.Keeps providers signers (pin.toList ++ retired))
      (Home.Keeps providers signers retired) :=
    Durable.triple_pure
      (Q := fun pin : Option PyStr => Home.Keeps providers signers (pin.toList ++ retired)) none
  cases command with
  | prepare staged =>
    exact Durable.triple_bind (keeps_prepareRotation hprovider hf) fun _ => hpure
  | activate => exact Durable.triple_bind (keeps_activateRotation hprovider) fun _ => hpure
  | cancel => exact Durable.triple_bind keeps_cancelRotation fun _ => hpure
  | retire keyId =>
    exact Durable.triple_bind (retires_retirePublicKey keyId) fun pin => Durable.triple_pure
      (Q := fun pin : Option PyStr => Home.Keeps providers signers (pin.toList ++ retired)) (some pin)

/-- The active key, if there is one, is the only one that signed. -/
def Home.Starts (providers : Set FileKeyProvider) (home : Home P) : Prop :=
  ∀ pin, home.activePin = some pin → home.Keeps providers [pin] []

/-- An initialized home publishes its key, from its file on. -/
theorem keeps_initializeKey {provider : FileKeyProvider} (hprovider : provider ∈ providers)
    (key : SigningKey P) :
    Durable.Triple (· = Home.empty) (initializeKey provider false key) (Home.Starts providers)
      (fun _ => Home.Starts providers) (Home.Starts providers) := by
  have hempty (home : Home P) (h : home = Home.empty) : home.Starts providers := by
    subst h
    intro pin hpin
    cases hpin
  refine Durable.triple_bind (Durable.triple_read hempty) fun _ => ?_
  refine Durable.triple_bind (Durable.triple_read fun home h => hempty home h.1) fun file => ?_
  refine Durable.triple_bind (Q := fun _ => Home.Starts providers)
    (Durable.triple_act (fun home h => hempty home h.1.1) ?_ fun home h => hempty home h.1.1)
    fun _ => ?_
  · -- Once the key is stored, it is the only one that signed.
    rintro home ⟨⟨rfl, _⟩, hf⟩
    obtain rfl := provider.store_key hf
    intro pin hpin
    refine ⟨⟨file, rfl⟩, fun f hf' => ?_, ⟨[], .inl ⟨rfl, rfl⟩, fun p hp _ => ?_⟩, fun f hf' => ?_⟩
    · rcases hf' with hf' | hf'
      · obtain rfl := Option.some.inj hf'
        exact ⟨provider, hprovider, hf⟩
      · cases hf'
    · exact .inl (List.mem_singleton.1 hp ▸ hpin)
    · cases hf'
  refine Durable.triple_bind (Q := fun _ => Home.Starts providers)
    ((triple_writePublicKeys _ fun _ h => h).mono (fun _ h => h) (fun _ h => h) ?_ fun _ h => h)
    fun _ => Durable.triple_pure (Q := fun _ => Home.Starts providers) key
  rintro _ _ ⟨home, unique, hk, rfl, _, hp⟩ pin hpin
  exact (hk pin hpin).withKeyring hp fun p hps _ => .inl (List.mem_singleton.1 hps ▸ hpin)

/-- Every home that is reached keeps the pins of the keys that signed. -/
theorem KeyHistory.Reachable.keeps {h : KeyHistory P} (hr : h.Reachable providers) :
    h.home.Keeps providers h.signers h.retired := by
  induction hr with
  | initialized hp key fault hleft hpin =>
    obtain ⟨hl, hret, hraise⟩ := keeps_initializeKey hp key fault 0 Home.empty
    rcases hleft with hleft | rfl
    · exact hl rfl _ hleft _ hpin
    · cases hres : (initializeKey _ false key fault 0 Home.empty).result with
      | ok k => exact hret rfl k hres _ hpin
      | error e => exact hraise rfl e hres _ hpin
  | ended hr hp command hf fault ih =>
    obtain ⟨-, hret, hraise⟩ := keeps_run hp hf fault 0 _
    refine Home.Keeps.sign ?_
    cases hres : (command.run _ fault 0 _).result with
    | ok pin => exact hret ih pin hres
    | error e => exact hraise ih e hres
  | killed hr hp command hf fault hleft ih =>
    exact ((keeps_run hp hf fault 0 _).left ih _ hleft).sign

end reachable

/-- A provider opens a home when it can decrypt the files of its keys. -/
def Home.Opens (provider : FileKeyProvider) (home : Home P) : Prop :=
  ∀ file, home.active = some file ∨ home.next = some file →
    ∀ path, provider.load path (some file) = .ok file.key

/-- The published keys are read with the active key of the home when none is given. -/
theorem publicKeys_none {provider : FileKeyProvider} {home : Home P} {active : SigningKey P}
    (h : provider.load activeKeyName home.active = .ok active) :
    publicKeys provider home none = publicKeys provider home (some active) := by
  unfold publicKeys
  dsimp only
  rw [h]

theorem Home.Keeps.opens {provider : FileKeyProvider} {signers retired : List PyStr} {home : Home P}
    (h : home.Keeps {provider} signers retired) : home.Opens provider := by
  intro file hf path
  obtain ⟨q, rfl, hs⟩ := h.stored file hf
  exact q.load_stored hs path

/-- What is published, to a provider that opens the files. -/
theorem Home.Keeps.read {providers : Set FileKeyProvider} {signers retired : List PyStr}
    {home : Home P} (h : home.Keeps providers signers retired) {provider : FileKeyProvider}
    (ho : home.Opens provider) : ∃ active values,
      provider.load activeKeyName home.active = .ok active ∧
      publicKeys provider home (some active) = .ok values := by
  obtain ⟨file, hactive⟩ := h.active
  obtain ⟨pins, hw, -⟩ := h.keyring
  refine ⟨file.key, ?_⟩
  rw [publicKeys_written hw, hactive]
  cases hn : home.next with
  | none => exact ⟨_, ho file (.inl hactive) _, rfl⟩
  | some staged =>
    dsimp only
    rw [ho staged (.inr hn)]
    exact ⟨_, ho file (.inl hactive) _, rfl⟩

/-- Over any sequence of commands, each possibly killed between two of its writes, the
    published keys hold the active signer, every key that ever was the active signer and
    was not retired, and the staged key. They can be read by whichever provider opens the
    files, and a provider that was the only one used does. -/
theorem rotation_keepsPins {providers : Set FileKeyProvider} {h : KeyHistory P}
    (hr : h.Reachable providers) :
    (∀ provider, h.home.Opens provider →
      ∃ values, publicKeys provider h.home none = .ok values ∧
        (∃ pin ∈ values, h.home.activePin = some pin) ∧
        (∀ pin ∈ h.signers, pin ∉ h.retired → pin ∈ values) ∧
        ∀ file, h.home.next = some file → file.key.publicPinned ∈ values) ∧
      ∀ provider, providers = {provider} → h.home.Opens provider := by
  have hk := hr.keeps
  refine ⟨fun provider ho => ?_, fun provider hp => ?_⟩
  · obtain ⟨active, values, hload, hv⟩ := hk.read ho
    obtain ⟨hpin, howed, hstaged⟩ := hk.published hload hv
    exact ⟨values, (publicKeys_none hload).trans hv, ⟨_, hpin, activePin_of_load hload⟩, howed,
      hstaged⟩
  · rw [hp] at hk
    exact hk.opens

/-! ## A killed activation -/

/-- A home whose first key was initialized and whose second key was staged. -/
def samplePrepared : KeyHistory Platform.sample :=
  let home := (initializeKey ⟨none⟩ false (sampleSigner 1) (fun _ => none) 0 Home.empty).state
  KeyHistory.then ⟨home, [(sampleSigner 1).publicPinned], []⟩
    ((KeyCommand.prepare (sampleSigner 2)).run ⟨none⟩ (fun _ => none) 0 home).state none

/-- The home, when its activation was killed before the staged file was removed. -/
def sampleHalfActivated : KeyHistory Platform.sample :=
  samplePrepared.then
    ⟨some ⟨sampleSigner 2, none⟩, some ⟨sampleSigner 2, none⟩,
      some (keyringPayload [(sampleSigner 1).publicPinned, (sampleSigner 2).publicPinned])⟩ none

set_option maxRecDepth 10000 in
theorem sampleHalfActivated_reachable : sampleHalfActivated.Reachable {⟨none⟩} := by
  have hfirst : KeyHistory.Reachable {⟨none⟩} ⟨_, [(sampleSigner 1).publicPinned], []⟩ :=
    .initialized (Set.mem_singleton _) (sampleSigner 1) (fun _ => none) (.inr rfl) rfl
  have hfresh : (sampleSigner 2).publicPinned ∉ [(sampleSigner 1).publicPinned] := by
    decide +kernel
  have hprepared : samplePrepared.Reachable {⟨none⟩} :=
    hfirst.ended (Set.mem_singleton _) (.prepare (sampleSigner 2)) hfresh fun _ => none
  refine hprepared.killed (Set.mem_singleton _) .activate trivial (fun _ => none) ?_
  exact List.mem_of_getElem? (i := 2) rfl

set_option maxRecDepth 10000 in
theorem rotation_keepsPins_sample :
    ∃ values, publicKeys ⟨none⟩ sampleHalfActivated.home none = .ok values ∧
      (sampleSigner 1).publicPinned ∈ values ∧ (sampleSigner 2).publicPinned ∈ values := by
  obtain ⟨hpublished, hopens⟩ := rotation_keepsPins sampleHalfActivated_reachable
  obtain ⟨values, hv, -, hsigners, -⟩ := hpublished _ (hopens _ rfl)
  exact ⟨values, hv, hsigners _ (by decide +kernel) (by decide +kernel),
    hsigners _ (by decide +kernel) (by decide +kernel)⟩

end SkillRegistry
