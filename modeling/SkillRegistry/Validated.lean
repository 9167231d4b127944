import SkillRegistry.Protocol
import SkillRegistry.Ledger

/-!
# What the protocol checks establish

A record that passes `validate_record` has the fields of an audit record, each of its
form (`ValidRecord`); a snapshot that passes `validate_snapshot` has exactly the fields
of a snapshot (`ValidSnapshot`). Both hold exactly of what the checks accept.
-/

namespace SkillRegistry

open Wire

variable {P : Platform}

theorem bind_eq_ok_iff {α β : Type} {x : Except PyErr α} {f : α → Except PyErr β} {b : β} :
    x >>= f = .ok b ↔ ∃ a, x = .ok a ∧ f a = .ok b :=
  ⟨Except.bind_eq_ok, fun ⟨a, ha, hf⟩ => by rw [ha]; exact hf⟩

/-! ## Forms -/

/-- A member of an object that is a string of a form. -/
def HasStr (value : Option Json) (form : PyStr → Prop) : Prop := ∃ s, value = some (.str s) ∧ form s

theorem validateForm_eq_ok {form : PyStr → Bool} {message : String} {value : Option Json} :
    validateForm form message value = .ok () ↔ HasStr value (form · = true) := by
  constructor
  · intro h
    match value, h with
    | some (.str s), h =>
      rw [validateForm] at h
      split at h
      · exact ⟨s, rfl, ‹_›⟩
      · cases h
  · rintro ⟨s, rfl, hs⟩
    rw [validateForm, if_pos hs]

theorem validateName_eq_ok {value : Option Json} : validateName value = .ok () ↔
    HasStr value fun s => s.length ≤ 128 ∧ isIdentifier s = true ∧ portableComponent s = true := by
  constructor
  · intro h
    match value, h with
    | some (.str s), h =>
      rw [validateName] at h
      split at h
      · exact ⟨s, rfl, ‹_›⟩
      · cases h
  · rintro ⟨s, rfl, hs⟩
    rw [validateName, if_pos hs]

theorem validateSourceIdentity_eq_ok {value : Option Json} :
    (∃ s, validateSourceIdentity value = .ok s) ↔ HasStr value (isSourceIdentity · = true) := by
  constructor
  · rintro ⟨s, h⟩
    match value, h with
    | some (.str s), h =>
      rw [validateSourceIdentity] at h
      split at h
      · exact ⟨s, rfl, ‹_›⟩
      · cases h
  · rintro ⟨s, rfl, hs⟩
    exact ⟨s, by rw [validateSourceIdentity, if_pos hs]⟩

theorem validateStatus_eq_ok {value : Option Json} :
    validateStatus value = .ok () ↔ HasStr value (· ∈ statuses) := by
  constructor
  · intro h
    match value, h with
    | some (.str s), h =>
      rw [validateStatus] at h
      split at h
      · exact ⟨s, rfl, ‹_›⟩
      · cases h
  · rintro ⟨s, rfl, hs⟩
    rw [validateStatus, if_pos hs]

theorem canonicalizeValidated_eq_ok {v : Json} :
    canonicalizeValidated P v = .ok () ↔ Canonical v := by
  rw [canonicalizeValidated]
  constructor
  · intro h
    cases hd : canonicalDocument P v with
    | ok b => exact (canonicalDocument_eq_ok.1 hd).1
    | error e =>
      rw [hd] at h
      cases h
  · intro h
    rw [canonicalDocument_eq_ok.2 ⟨h, rfl⟩]
    rfl

/-! ## Signatures -/

/-- A signature envelope: exactly its members, and a signature of 64 bytes. -/
def IsEnvelope (value : Option Json) : Prop :=
  ∃ sig keyId signature raw, value = some (.obj sig) ∧ Dict.keys sig = envelopeKeys ∧
    Dict.get? sig (py "algorithm") = some (.str (py "ed25519")) ∧
    Dict.get? sig (py "key_id") = some (.str keyId) ∧ isKeyId keyId = true ∧
    Dict.get? sig (py "signature") = some (.str signature) ∧ b64decode signature = some raw ∧
    raw.length = 64 ∧ b64encode raw = signature

theorem validateSignature_eq_ok {value : Option Json} :
    validateSignature value = .ok () ↔ IsEnvelope value := by
  constructor
  · intro h
    match value, h with
    | some (.obj sig), h =>
      rw [validateSignature] at h
      by_cases hkeys : Dict.keys sig = envelopeKeys
      swap
      · rw [if_pos hkeys] at h
        cases h
      by_cases halg : Dict.get? sig (py "algorithm") = some (.str (py "ed25519"))
      swap
      · rw [if_neg (not_not.2 hkeys), if_pos halg] at h
        cases h
      rw [if_neg (not_not.2 hkeys), if_neg (not_not.2 halg)] at h
      split at h
      · rename_i keyId hid
        split at h
        · rename_i hform
          split at h
          · rename_i signature hsig
            split at h
            · cases h
            · rename_i raw hraw
              split at h
              · cases h
              · rename_i hlen
                rw [not_or, not_not, not_not] at hlen
                exact ⟨sig, keyId, signature, raw, rfl, hkeys, halg, hid, hform, hsig, hraw,
                  hlen.1, hlen.2⟩
          · cases h
        · cases h
      · cases h
  · rintro ⟨sig, keyId, signature, raw, rfl, hkeys, halg, hid, hform, hsig, hraw, hlen, henc⟩
    rw [validateSignature, if_neg (not_not.2 hkeys), if_neg (not_not.2 halg), hid, hsig]
    simp only [hform, hraw, hlen, henc, ne_eq, not_true_eq_false, or_self, if_false, if_true]

/-- An endorsement: an endorser and a signature envelope. -/
def IsEndorsement (e : Json) : Prop :=
  ∃ members endorser, e = .obj members ∧ Dict.keys members = [py "endorser", py "sig"] ∧
    Dict.get? members (py "endorser") = some (.str endorser) ∧ endorser ≠ [] ∧
    endorser.length ≤ 8192 ∧ IsEnvelope (Dict.get? members (py "sig"))

theorem validateEndorsement_eq_ok {e : Json} : validateEndorsement e = .ok () ↔ IsEndorsement e := by
  constructor
  · intro h
    match e, h with
    | .obj members, h =>
      rw [validateEndorsement] at h
      by_cases hkeys : Dict.keys members = [py "endorser", py "sig"]
      swap
      · rw [if_pos hkeys] at h
        cases h
      rw [if_neg (not_not.2 hkeys)] at h
      split at h
      · rename_i endorser hend
        split at h
        · cases h
        · rename_i hlen
          rw [not_or, not_lt] at hlen
          exact ⟨members, endorser, rfl, hkeys, hend, hlen.1, hlen.2, validateSignature_eq_ok.1 h⟩
      · cases h
  · rintro ⟨members, endorser, rfl, hkeys, hend, hne, hlen, hsig⟩
    rw [validateEndorsement, if_neg (not_not.2 hkeys), hend]
    dsimp only
    rw [if_neg (not_or.2 ⟨hne, not_lt.2 hlen⟩)]
    exact validateSignature_eq_ok.2 hsig

/-! ## Records -/

/-- An audit record. -/
structure ValidRecord (record : Dict) : Prop where
  fields : record.keys.all (· ∈ recordFields) = true
  hashVersion : validateHashVersion record = .ok ()
  name : HasStr (record.get? (py "name")) fun s =>
    s.length ≤ 128 ∧ isIdentifier s = true ∧ portableComponent s = true
  sourceIdentity : HasStr (record.get? (py "source_identity")) (isSourceIdentity · = true)
  commit : HasStr (record.get? (py "commit")) (isCommit · = true)
  contentSha256 : HasStr (record.get? (py "content_sha256")) (isSha256 · = true)
  status : HasStr (record.get? (py "status")) (· ∈ statuses)
  audit : ∃ members, (record.get? (py "audit")).getD (.obj []) = .obj members
  sig : IsEnvelope (record.get? (py "sig"))
  endorsements : ∃ es, (record.get? (py "endorsements")).getD (.arr []) = .arr es ∧
    ∀ e ∈ es, IsEndorsement e
  canonical : Canonical (.obj record)

theorem validateRecord_obj {record checked : Dict} :
    validateRecord P (.obj record) = .ok checked ↔ checked = record ∧ ValidRecord record := by
  rw [validateRecord]
  by_cases hfields : (Dict.keys record).all (· ∈ recordFields) = true
  swap
  · rw [if_pos hfields]
    exact ⟨fun h => (by cases h), fun h => absurd h.2.fields hfields⟩
  rw [if_neg (not_not.2 hfields)]
  simp only [check_bind_eq_ok]
  rw [validateName_eq_ok, bind_eq_ok_iff]
  simp only [check_bind_eq_ok, validateForm_eq_ok, validateStatus_eq_ok]
  constructor
  · rintro ⟨hversion, hname, s, hsource, hcommit, hcontent, hstatus, h⟩
    cases haudit : (record.get? (py "audit")).getD (.obj []) with
    | obj members =>
      cases hes : (record.get? (py "endorsements")).getD (.arr []) with
      | arr es =>
        rw [haudit] at h
        dsimp only at h
        rw [hes] at h
        simp only [check_bind_eq_ok, validateSignature_eq_ok, canonicalizeValidated_eq_ok,
          forM_eq_ok, validateEndorsement_eq_ok] at h
        obtain ⟨hsig, hend, hcanonical, h⟩ := h
        exact ⟨(Except.ok.inj h).symm, hfields, hversion, hname,
          validateSourceIdentity_eq_ok.1 ⟨s, hsource⟩, hcommit, hcontent, hstatus, ⟨_, haudit⟩, hsig,
          ⟨es, hes, hend⟩, hcanonical⟩
      | _ =>
        rw [haudit] at h
        dsimp only at h
        rw [hes] at h
        obtain ⟨-, h⟩ := check_bind_eq_ok.1 h
        cases h
    | _ =>
      rw [haudit] at h
      cases h
  · rintro ⟨rfl, h⟩
    obtain ⟨s, hsource⟩ := validateSourceIdentity_eq_ok.2 h.sourceIdentity
    obtain ⟨members, haudit⟩ := h.audit
    obtain ⟨es, hes, hend⟩ := h.endorsements
    refine ⟨h.hashVersion, h.name, s, hsource, h.commit, h.contentSha256, h.status, ?_⟩
    rw [haudit]
    dsimp only
    rw [hes]
    simp only [check_bind_eq_ok, validateSignature_eq_ok, canonicalizeValidated_eq_ok,
      forM_eq_ok, validateEndorsement_eq_ok]
    exact ⟨h.sig, hend, h.canonical, rfl⟩

theorem validateRecord_eq_ok {v : Json} {record : Dict} :
    validateRecord P v = .ok record ↔ v = .obj record ∧ ValidRecord record := by
  cases v with
  | obj members =>
    rw [validateRecord_obj]
    constructor
    · rintro ⟨rfl, h⟩
      exact ⟨rfl, h⟩
    · rintro ⟨h, hv⟩
      obtain rfl := Json.obj.inj h
      exact ⟨rfl, hv⟩
  | _ => exact ⟨fun h => (by cases h), fun h => (by cases h.1)⟩

/-! ## Snapshots -/

/-- A signed snapshot. -/
structure ValidSnapshot (P : Platform) (snapshot : Dict) : Prop where
  fields : snapshot.keys = snapshotFields
  schema : pyEqInt P ((snapshot.get? (py "schema_version")).getD .null) 1 = true
  merkleRoot : HasStr (snapshot.get? (py "merkle_root")) (hex256 · = true)
  head : HasStr (snapshot.get? (py "head")) (hex256 · = true)
  sizes : ∃ logSize version, snapshot.get? (py "log_size") = some (.int logSize) ∧
    snapshot.get? (py "version") = some (.int version) ∧
    0 ≤ logSize ∧ logSize ≤ version ∧ version ≤ maxSafeInteger
  createdAt : HasStr (snapshot.get? (py "created_at")) (isTimestampForm · = true)
  sig : IsEnvelope (snapshot.get? (py "sig"))
  canonical : Canonical (.obj snapshot)

theorem validateSnapshot_eq_ok {value : Option Json} {snapshot : Dict} :
    validateSnapshot P value = .ok snapshot ↔
      value = some (.obj snapshot) ∧ ValidSnapshot P snapshot := by
  constructor
  · intro h
    match value, h with
    | some (.obj members), h =>
      rw [validateSnapshot] at h
      by_cases hfields : Dict.keys members ≠ snapshotFields ∨
          ¬pyEqInt P ((Dict.get? members (py "schema_version")).getD .null) 1 = true
      · rw [if_pos hfields] at h
        cases h
      rw [if_neg hfields] at h
      rw [not_or, not_not, not_not] at hfields
      simp only [check_bind_eq_ok, validateForm_eq_ok] at h
      obtain ⟨hroot, hhead, h⟩ := h
      split at h
      · rename_i logSize version hsize hversion
        by_cases hsizes : 0 ≤ logSize ∧ logSize ≤ version ∧ version ≤ maxSafeInteger
        swap
        · rw [if_pos hsizes] at h
          cases h
        rw [if_neg (not_not.2 hsizes)] at h
        simp only [check_bind_eq_ok, validateForm_eq_ok, validateSignature_eq_ok,
          canonicalizeValidated_eq_ok] at h
        obtain ⟨hcreated, hsig, hcanonical, h⟩ := h
        obtain rfl := Except.ok.inj h
        exact ⟨rfl, hfields.1, hfields.2, hroot, hhead, ⟨logSize, version, hsize, hversion, hsizes⟩,
          hcreated, hsig, hcanonical⟩
      · cases h
  · rintro ⟨rfl, h⟩
    obtain ⟨logSize, version, hsize, hversion, hsizes⟩ := h.sizes
    rw [validateSnapshot, if_neg (not_or.2 ⟨not_not.2 h.fields, not_not.2 h.schema⟩), hsize, hversion]
    simp only [check_bind_eq_ok, validateForm_eq_ok]
    refine ⟨h.merkleRoot, h.head, ?_⟩
    rw [if_neg (not_not.2 hsizes)]
    simp only [check_bind_eq_ok, validateForm_eq_ok, validateSignature_eq_ok,
      canonicalizeValidated_eq_ok]
    exact ⟨h.createdAt, h.sig, h.canonical, rfl⟩

end SkillRegistry
