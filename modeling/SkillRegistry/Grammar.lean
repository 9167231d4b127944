import SkillRegistry.Validated
import SkillRegistry.Canonical

/-!
# The grammars of the wire

What `validate_record` and `validate_snapshot` are to accept, each as a grammar of its own,
and what they raise for the rest. Two operators of Python stand between: `in` asks a list
or an object for a hash it does not have, and `==` takes `true` for 1.

* `validRecord_iff`, `validSnapshot_iff`: the checks against the grammars;
* `refuses_validateRecord`, `refuses_validateSnapshot`: what is refused is refused as an
  error of the protocol, but for a status without a hash;
* `validators_exact_iff`: when the checks accept their grammars and fail only so.
-/

namespace SkillRegistry

open Wire

variable {P : Platform}

/-! ## Grammars -/

variable (P) in
/-- A value that `load_json` returns, for bytes or for a text. -/
inductive Loaded (v : Json) : Prop
  | bytes {raw : Bytes} (h : loadJson P raw = .ok v)
  | text {raw : PyStr} (h : loadJsonText P raw = .ok v)

theorem Loaded.canonical {v : Json} (h : Loaded P v) : Canonical v := by
  cases h with
  | bytes h =>
    obtain ⟨-, b, hb⟩ := loadJson_eq_ok h
    exact (canonicalDocument_eq_ok.1 hb).1
  | text h =>
    obtain ⟨-, b, hb⟩ := loadJsonText_eq_ok h
    exact (canonicalDocument_eq_ok.1 hb).1

/-- The versions of a record: 1, or none, without a version of the hash; or 2 for both. -/
def VersionsAgree (record : Dict) : Prop :=
  (record.get? (py "schema_version") = none ∨ record.get? (py "schema_version") = some (.int 1)) ∧
      record.get? (py "hash_version") = none ∨
    record.get? (py "schema_version") = some (.int 2) ∧
      record.get? (py "hash_version") = some (.int 2)

/-- The fields that `validate_record` checks before the status. -/
structure RecordHead (record : Dict) : Prop where
  fields : ∀ k ∈ record.keys, k ∈ recordFields
  versions : VersionsAgree record
  name : HasStr (record.get? (py "name")) fun s =>
    s.length ≤ 128 ∧ isIdentifier s = true ∧ portableComponent s = true
  sourceIdentity : HasStr (record.get? (py "source_identity")) (isSourceIdentity · = true)
  commit : HasStr (record.get? (py "commit")) (isCommit · = true)
  contentSha256 : HasStr (record.get? (py "content_sha256")) (isSha256 · = true)

/-- An audit record. -/
structure AuditRecord (record : Dict) : Prop extends RecordHead record where
  status : HasStr (record.get? (py "status")) (· ∈ statuses)
  audit : ∀ v, record.get? (py "audit") = some v → ∃ members, v = .obj members
  endorsements : ∀ v, record.get? (py "endorsements") = some v →
    ∃ es, v = .arr es ∧ ∀ e ∈ es, IsEndorsement e
  sig : IsEnvelope (record.get? (py "sig"))

/-- A snapshot, but for its `schema_version`. -/
structure SnapshotBody (snapshot : Dict) : Prop where
  fields : snapshot.keys = snapshotFields
  merkleRoot : HasStr (snapshot.get? (py "merkle_root")) (hex256 · = true)
  head : HasStr (snapshot.get? (py "head")) (hex256 · = true)
  sizes : ∃ logSize version, snapshot.get? (py "log_size") = some (.int logSize) ∧
    snapshot.get? (py "version") = some (.int version) ∧
    0 ≤ logSize ∧ logSize ≤ version ∧ version ≤ maxSafeInteger
  createdAt : HasStr (snapshot.get? (py "created_at")) (isTimestampForm · = true)
  sig : IsEnvelope (snapshot.get? (py "sig"))

/-- A snapshot. -/
def IsSnapshot (snapshot : Dict) : Prop :=
  SnapshotBody snapshot ∧ snapshot.get? (py "schema_version") = some (.int 1)

/-! ## What is accepted -/

theorem validateHashVersion_eq_ok {record : Dict} :
    validateHashVersion record = .ok () ↔ VersionsAgree record := by
  rw [validateHashVersion, VersionsAgree]
  cases hschema : record.get? (py "schema_version") with
  | none =>
    cases hhash : record.get? (py "hash_version") <;> simp
  | some v =>
    rw [Option.getD_some]
    split
    · cases hhash : record.get? (py "hash_version") <;> simp
    · by_cases hhash : record.get? (py "hash_version") = some (.int 2) <;> simp [hhash]
    · rename_i h₁ h₂
      refine ⟨fun h => (by cases h), fun h => ?_⟩
      rcases h with ⟨h | h, -⟩ | ⟨h, -⟩
      · cases h
      · exact absurd (Option.some.inj h) h₁
      · exact absurd (Option.some.inj h) h₂

/-- The check of a member with a default accepts what a check of the member alone does. -/
theorem getD_form {o : Option Json} {d : Json} {p : Json → Prop} (hd : p d) :
    p (o.getD d) ↔ ∀ v, o = some v → p v := by
  cases o with
  | none => exact ⟨fun _ _ h => (by cases h), fun _ => hd⟩
  | some w => exact ⟨fun h v hv => Option.some.inj hv ▸ h, fun h => h w rfl⟩

/-- What `validate_record` accepts is an audit record, and canonical. -/
theorem validRecord_iff {record : Dict} :
    ValidRecord record ↔ AuditRecord record ∧ Canonical (.obj record) := by
  have haudit := getD_form (o := record.get? (py "audit")) (d := .obj [])
    (p := fun v => ∃ members, v = .obj members) ⟨[], rfl⟩
  have hend := getD_form (o := record.get? (py "endorsements")) (d := .arr [])
    (p := fun v => ∃ es, v = .arr es ∧ ∀ e ∈ es, IsEndorsement e) ⟨[], rfl, List.forall_mem_nil _⟩
  have hfields : record.keys.all (· ∈ recordFields) = true ↔ ∀ k ∈ record.keys, k ∈ recordFields := by
    simp only [List.all_eq_true, decide_eq_true_eq]
  constructor
  · intro h
    exact ⟨⟨⟨hfields.1 h.fields, validateHashVersion_eq_ok.1 h.hashVersion, h.name, h.sourceIdentity,
      h.commit, h.contentSha256⟩, h.status, haudit.1 h.audit, hend.1 h.endorsements, h.sig⟩,
      h.canonical⟩
  · rintro ⟨h, hcanonical⟩
    exact ⟨hfields.2 h.fields, validateHashVersion_eq_ok.2 h.versions, h.name, h.sourceIdentity,
      h.commit, h.contentSha256, h.status, haudit.2 h.audit, h.sig, hend.2 h.endorsements, hcanonical⟩

/-- Of the values without a float, 1 and `true` equal 1. -/
theorem pyEqInt_one {v : Json} (h : ∀ t, v ≠ .float t) :
    pyEqInt P v 1 = true ↔ v = .int 1 ∨ v = .bool true := by
  cases v with
  | int n => simp [pyEqInt]
  | bool b => cases b <;> simp [pyEqInt]
  | float t => exact absurd rfl (h t)
  | null | str | arr | obj => simp [pyEqInt]

/-- What `validate_snapshot` accepts has the body of a snapshot, and 1 or `true` for its
    `schema_version`. -/
theorem validSnapshot_iff {snapshot : Dict} (hcanonical : Canonical (.obj snapshot)) :
    ValidSnapshot P snapshot ↔ SnapshotBody snapshot ∧
      (snapshot.get? (py "schema_version") = some (.int 1) ∨
        snapshot.get? (py "schema_version") = some (.bool true)) := by
  have hschema : pyEqInt P ((snapshot.get? (py "schema_version")).getD .null) 1 = true ↔
      snapshot.get? (py "schema_version") = some (.int 1) ∨
        snapshot.get? (py "schema_version") = some (.bool true) := by
    cases hv : snapshot.get? (py "schema_version") with
    | none => simp [pyEqInt]
    | some v =>
      have hfloat : ∀ t, v ≠ .float t := by
        rintro t rfl
        exact ((Json.every_obj.1 hcanonical.1).2 _ (Dict.mem_of_get? hv)).elim
      rw [Option.getD_some, pyEqInt_one hfloat, Option.some_inj, Option.some_inj]
  constructor
  · intro h
    exact ⟨⟨h.fields, h.merkleRoot, h.head, h.sizes, h.createdAt, h.sig⟩, hschema.1 h.schema⟩
  · rintro ⟨h, hone⟩
    exact ⟨h.fields, hschema.2 hone, h.merkleRoot, h.head, h.sizes, h.createdAt, h.sig, hcanonical⟩

/-! ## What is refused -/

/-- The computation fails with errors of the protocol only. -/
def Refuses {α : Type} (x : Except PyErr α) : Prop := ∀ e, x = .error e → e.isProtocolError = true

section Refuses

variable {α β : Type}

theorem refuses_ok (a : α) : Refuses (.ok a : Except PyErr α) := fun _ h => by cases h

theorem refuses_error {e : PyErr} (h : e.isProtocolError = true) :
    Refuses (.error e : Except PyErr α) := fun _ he => Except.error.inj he ▸ h

theorem Refuses.bind {x : Except PyErr α} {f : α → Except PyErr β} (hx : Refuses x)
    (hf : ∀ a, x = .ok a → Refuses (f a)) : Refuses (x >>= f) := by
  intro e h
  rcases Except.bind_eq_error.1 h with h | ⟨a, ha, h⟩
  · exact hx e h
  · exact hf a ha e h

theorem Refuses.forM {f : α → Except PyErr Unit} (hf : ∀ a, Refuses (f a)) (l : List α) :
    Refuses (l.forM f) := by
  induction l with
  | nil => exact refuses_ok _
  | cons a l ih => exact (hf a).bind fun _ _ => ih

theorem refuses_throw {e : PyErr} {f : α → Except PyErr β} (h : e.isProtocolError = true) :
    Refuses ((throw e : Except PyErr α) >>= f) := refuses_error h

end Refuses

/-- A canonical value passes the last step of a check. -/
theorem refuses_canonicalized {v : Json} {d : Dict} (h : Canonical v) :
    Refuses (canonicalizeValidated P v >>= fun _ => (pure d : Except PyErr Dict)) := by
  rw [canonicalizeValidated_eq_ok.2 h]
  exact refuses_ok d

theorem refuses_validateForm (form : PyStr → Bool) (message : String) (value : Option Json) :
    Refuses (validateForm form message value) := by
  unfold validateForm
  split
  · split_ifs
    · exact refuses_ok _
    · exact refuses_error rfl
  · exact refuses_error rfl

theorem refuses_validateName (value : Option Json) : Refuses (validateName value) := by
  unfold validateName
  split
  · split_ifs
    · exact refuses_ok _
    · exact refuses_error rfl
  · exact refuses_error rfl

theorem refuses_validateSourceIdentity (value : Option Json) :
    Refuses (validateSourceIdentity value) := by
  unfold validateSourceIdentity
  split
  · split_ifs
    · exact refuses_ok _
    · exact refuses_error rfl
  · exact refuses_error rfl

theorem refuses_validateHashVersion (record : Dict) : Refuses (validateHashVersion record) := by
  unfold validateHashVersion
  split
  · split_ifs
    · exact refuses_error rfl
    · exact refuses_ok _
  · split_ifs
    · exact refuses_error rfl
    · exact refuses_ok _
  · exact refuses_error rfl

theorem refuses_validateSignature (value : Option Json) : Refuses (validateSignature value) := by
  unfold validateSignature
  split
  · split_ifs with hkeys halgorithm
    · exact refuses_error rfl
    · exact refuses_error rfl
    · split
      · split_ifs
        · split
          · split
            · exact refuses_error rfl
            · split_ifs
              · exact refuses_error rfl
              · exact refuses_ok _
          · exact refuses_error rfl
        · exact refuses_error rfl
      · exact refuses_error rfl
  · exact refuses_error rfl

theorem refuses_validateEndorsement (e : Json) : Refuses (validateEndorsement e) := by
  unfold validateEndorsement
  split
  · split_ifs
    · exact refuses_error rfl
    · split
      · split_ifs
        · exact refuses_error rfl
        · exact refuses_validateSignature _
      · exact refuses_error rfl
  · exact refuses_error rfl

/-- A value without a hash. -/
def Unhashable (value : Option Json) : Prop :=
  (∃ items, value = some (.arr items)) ∨ ∃ members, value = some (.obj members)

/-- A status that has a hash is refused as an error of the protocol. -/
theorem refuses_validateStatus {value : Option Json} (h : ¬Unhashable value) :
    Refuses (validateStatus value) := by
  unfold validateStatus
  split
  · exact absurd (.inl ⟨_, rfl⟩) h
  · exact absurd (.inr ⟨_, rfl⟩) h
  · split_ifs
    · exact refuses_ok _
    · exact refuses_error rfl
  · exact refuses_error rfl

theorem validateStatus_unhashable {value : Option Json} (h : Unhashable value) :
    validateStatus value = .error .typeError := by
  rcases h with ⟨_, rfl⟩ | ⟨_, rfl⟩
  · rfl
  · rfl

/-- A record whose fields before the status are those of a record, and whose status has no
    hash. -/
def UnhashableStatus (v : Json) : Prop :=
  ∃ record : Dict, v = .obj record ∧ RecordHead record ∧ Unhashable (record.get? (py "status"))

/-- Its status is looked up all the same. -/
theorem validateRecord_unhashable {record : Dict} (h : RecordHead record)
    (hstatus : Unhashable (record.get? (py "status"))) :
    validateRecord P (.obj record) = .error .typeError := by
  have hfields : (Dict.keys record).all (· ∈ recordFields) = true := by
    simp only [List.all_eq_true, decide_eq_true_eq]
    exact h.fields
  obtain ⟨s, hsource⟩ := validateSourceIdentity_eq_ok.2 h.sourceIdentity
  have step {α β : Type} {x : Except PyErr α} {f : α → Except PyErr β} {a : α} {e : PyErr}
      (hx : x = .ok a) (hf : f a = .error e) : x >>= f = .error e :=
    Except.bind_eq_error.2 (.inr ⟨a, hx, hf⟩)
  rw [validateRecord, if_neg (not_not.2 hfields)]
  refine step (validateHashVersion_eq_ok.2 h.versions) (step (validateName_eq_ok.2 h.name) ?_)
  refine step hsource (step (validateForm_eq_ok.2 h.commit) ?_)
  refine step (validateForm_eq_ok.2 h.contentSha256) (Except.bind_eq_error.2 (.inl ?_))
  exact validateStatus_unhashable hstatus

/-- Any other value that is no record is refused as an error of the protocol. -/
theorem refuses_validateRecord {v : Json} (hcanonical : Canonical v) (h : ¬UnhashableStatus v) :
    Refuses (validateRecord P v) := by
  cases v with
  | obj record =>
    rw [validateRecord]
    by_cases hfields : (Dict.keys record).all (· ∈ recordFields) = true
    swap
    · rw [if_pos hfields]
      exact refuses_error rfl
    rw [if_neg (not_not.2 hfields)]
    refine (refuses_validateHashVersion _).bind fun _ hversion => ?_
    refine (refuses_validateName _).bind fun _ hname => ?_
    refine (refuses_validateSourceIdentity _).bind fun s hsource => ?_
    refine (refuses_validateForm _ _ _).bind fun _ hcommit => ?_
    refine (refuses_validateForm _ _ _).bind fun _ hcontent => ?_
    -- What was checked up to here are the fields before the status.
    have hhead : RecordHead record := by
      simp only [List.all_eq_true, decide_eq_true_eq] at hfields
      exact ⟨hfields, validateHashVersion_eq_ok.1 hversion, validateName_eq_ok.1 hname,
        validateSourceIdentity_eq_ok.1 ⟨s, hsource⟩, validateForm_eq_ok.1 hcommit,
        validateForm_eq_ok.1 hcontent⟩
    refine (refuses_validateStatus fun hu => h ⟨record, rfl, hhead, hu⟩).bind fun _ _ => ?_
    cases (Dict.get? record (py "audit")).getD (.obj []) with
    | obj members =>
      refine (refuses_validateSignature _).bind fun _ _ => ?_
      cases (Dict.get? record (py "endorsements")).getD (.arr []) with
      | arr es =>
        refine (Refuses.forM refuses_validateEndorsement es).bind fun _ _ => ?_
        exact refuses_canonicalized hcanonical
      | _ => exact refuses_throw rfl
    | _ => exact refuses_throw rfl
  | _ => exact refuses_error rfl

/-- A value that is no snapshot is refused as an error of the protocol. -/
theorem refuses_validateSnapshot {v : Json} (hcanonical : Canonical v) :
    Refuses (validateSnapshot P (some v)) := by
  cases v with
  | obj snapshot =>
    rw [validateSnapshot]
    by_cases hfields : Dict.keys snapshot ≠ snapshotFields ∨
        ¬pyEqInt P ((Dict.get? snapshot (py "schema_version")).getD .null) 1 = true
    · rw [if_pos hfields]
      exact refuses_throw rfl
    rw [if_neg hfields]
    refine (refuses_validateForm _ _ _).bind fun _ _ => (refuses_validateForm _ _ _).bind fun _ _ => ?_
    -- The sizes are both integers, or the snapshot is refused.
    split
    · rename_i logSize version _ _
      by_cases hsizes : 0 ≤ logSize ∧ logSize ≤ version ∧ version ≤ maxSafeInteger
      swap
      · rw [if_pos hsizes]
        exact refuses_throw rfl
      rw [if_neg (not_not.2 hsizes)]
      refine (refuses_validateForm _ _ _).bind fun _ _ => ?_
      refine (refuses_validateSignature _).bind fun _ _ => ?_
      exact refuses_canonicalized hcanonical
    · exact refuses_throw rfl
  | _ => exact refuses_error rfl

/-! ## The checks against the grammars -/

/-- A check returns a value exactly when it is an object of the grammar, and fails with
    errors of the protocol only. -/
structure Exact (check : Json → Except PyErr Dict) (grammar : Dict → Prop) (v : Json) : Prop where
  accepts : ∀ d, check v = .ok d ↔ v = .obj d ∧ grammar d
  refuses : Refuses (check v)

/-- A snapshot but for its `schema_version`, which is `true`. -/
def BooleanVersion (v : Json) : Prop :=
  ∃ snapshot : Dict, v = .obj snapshot ∧ SnapshotBody snapshot ∧
    snapshot.get? (py "schema_version") = some (.bool true)

/-- On a value that is read, `validate_record` accepts exactly the audit records and fails
    with errors of the protocol only, unless the status has no hash and is reached; and
    `validate_snapshot` does so for the snapshots, unless `true` stands for the version 1. -/
theorem validators_exact_iff {v : Json} (h : Loaded P v) :
    (Exact (validateRecord P) AuditRecord v ↔ ¬UnhashableStatus v) ∧
      (Exact (fun v => validateSnapshot P (some v)) IsSnapshot v ↔ ¬BooleanVersion v) := by
  have hcanonical := h.canonical
  refine ⟨⟨fun hexact => ?_, fun hstatus => ⟨fun record => ?_, ?_⟩⟩,
    ⟨fun hexact => ?_, fun hversion => ⟨fun snapshot => ?_, ?_⟩⟩⟩
  · rintro ⟨record, rfl, hhead, hstatus⟩
    -- A `TypeError` is no error of the protocol.
    cases hexact.refuses _ (validateRecord_unhashable hhead hstatus)
  · rw [validateRecord_eq_ok, validRecord_iff]
    exact ⟨fun ⟨hv, hr, _⟩ => ⟨hv, hr⟩, fun ⟨hv, hr⟩ => ⟨hv, hr, hv ▸ hcanonical⟩⟩
  · exact refuses_validateRecord hcanonical hstatus
  · rintro ⟨snapshot, rfl, hbody, hversion⟩
    have hok : validateSnapshot P (some (.obj snapshot)) = .ok snapshot :=
      validateSnapshot_eq_ok.2 ⟨rfl, (validSnapshot_iff hcanonical).2 ⟨hbody, .inr hversion⟩⟩
    have hone := ((hexact.accepts snapshot).1 hok).2.2
    rw [hversion] at hone
    cases hone
  · rw [validateSnapshot_eq_ok, Option.some_inj]
    constructor
    · rintro ⟨rfl, hv⟩
      obtain ⟨hbody, hone | htrue⟩ := (validSnapshot_iff hcanonical).1 hv
      · exact ⟨rfl, hbody, hone⟩
      · exact absurd ⟨snapshot, rfl, hbody, htrue⟩ hversion
    · rintro ⟨rfl, hbody, hone⟩
      exact ⟨rfl, (validSnapshot_iff hcanonical).2 ⟨hbody, .inl hone⟩⟩
  · exact refuses_validateSnapshot hcanonical

/-- An audit with an array for its status. -/
def sampleStatus : Dict :=
  [(py "commit", .str (List.replicate 40 (cp '0'))),
    (py "content_sha256", .str (py "sha256:" ++ List.replicate 64 (cp '0'))),
    (py "name", .str (py "tool")), (py "source_identity", .str (py "host/tool")),
    (py "status", .arr [.str (py "audited")])]

/-- A snapshot with `true` for its `schema_version`. -/
def sampleVersion : Dict :=
  [(py "created_at", .str (py "2026-01-01T00:00:00Z")),
    (py "head", .str (List.replicate 64 (cp '0'))), (py "log_size", .int 0),
    (py "merkle_root", .str (List.replicate 64 (cp '0'))), (py "schema_version", .bool true),
    (py "sig", .obj [(py "algorithm", .str (py "ed25519")),
      (py "key_id", .str (List.replicate 16 (cp '0'))),
      (py "signature", .str (b64encode (List.replicate 64 0)))]), (py "version", .int 0)]

set_option maxRecDepth 10000 in
theorem validators_exact_sample :
    (Exact (validateRecord .sample) AuditRecord (.obj sampleVersion) ↔
      ¬UnhashableStatus (.obj sampleVersion)) ∧
    (Exact (fun v => validateSnapshot .sample (some v)) IsSnapshot (.obj sampleVersion) ↔
      ¬BooleanVersion (.obj sampleVersion)) :=
  validators_exact_iff (.text (show loadJsonText .sample (Json.obj sampleVersion).dumps =
    .ok (.obj sampleVersion) by decide +kernel))

set_option maxRecDepth 10000 in
/-- An array for a status raises `TypeError`, and `true` passes for a version. -/
theorem validators_inexact :
    (loadJsonText .sample (Json.obj sampleStatus).dumps = .ok (.obj sampleStatus) ∧
      validateRecord .sample (.obj sampleStatus) = .error .typeError ∧
      ¬Exact (validateRecord .sample) AuditRecord (.obj sampleStatus)) ∧
    (loadJsonText .sample (Json.obj sampleVersion).dumps = .ok (.obj sampleVersion) ∧
      validateSnapshot .sample (some (.obj sampleVersion)) = .ok sampleVersion ∧
      ¬Exact (fun v => validateSnapshot .sample (some v)) IsSnapshot (.obj sampleVersion)) := by
  have hstatus : validateRecord .sample (.obj sampleStatus) = .error .typeError := by decide +kernel
  have hversion : validateSnapshot .sample (some (.obj sampleVersion)) = .ok sampleVersion := by
    decide +kernel
  refine ⟨⟨by decide +kernel, hstatus, fun h => ?_⟩, ⟨by decide +kernel, hversion, fun h => ?_⟩⟩
  · cases h.refuses _ hstatus
  · cases ((h.accepts _).1 hversion).2.2

end SkillRegistry
