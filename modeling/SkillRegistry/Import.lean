import SkillRegistry.Bundle
import SkillRegistry.Store.Open
import SkillRegistry.Store.Total

/-!
# Imports

What an import that succeeds required of its bundle, and what it did.

* `verifyBundle_eq_ok`: the bundles that an import accepts;
* `countersignImports_eq`: every verified record can be countersigned, and its
  fingerprint is one of its members (`importOf`);
* `importBundle_eq_ok`: an import appends, under its fingerprint, the countersigned copy of
  each verified record that was not imported before.
-/

namespace SkillRegistry

open Wire Firsts

variable {P : Platform}

/-! ## Accepted bundles -/

variable (P) in
/-- What an import requires of one record. -/
structure UpstreamRecord (schemaVersion : Int) (upstream : PyStr) (record : Dict) : Prop where
  valid : ValidRecord record
  framed : ¬(schemaVersion = 1 ∧ hasHashVersion2 P record = true)
  verified : verifySigned P upstream record = true

theorem verifyRecord_eq_ok {schemaVersion : Int} {upstream : PyStr} {v : Json} {record : Dict} :
    verifyRecord P schemaVersion upstream v = .ok record ↔
      v = .obj record ∧ UpstreamRecord P schemaVersion upstream record := by
  rw [verifyRecord]
  constructor
  · intro h
    obtain ⟨checked, hchecked, hrest⟩ := Except.bind_eq_ok h
    obtain ⟨rfl, hvalid⟩ := validateRecord_eq_ok.1 hchecked
    split_ifs at hrest with hframed hverified
    obtain rfl := Except.ok.inj hrest
    exact ⟨rfl, hvalid, hframed, hverified⟩
  · rintro ⟨rfl, h⟩
    rw [validateRecord_eq_ok.2 ⟨rfl, h.valid⟩]
    change (if _ then _ else _) = _
    rw [if_neg h.framed, if_neg (not_not.2 h.verified)]

theorem verifyRecords_eq_ok {schemaVersion : Int} {upstream previous : PyStr} {records : List Json}
    {verified : List Dict} {hashes : List PyStr} :
    verifyRecords P schemaVersion upstream previous records = .ok (verified, hashes) ↔
      records = verified.map .obj ∧ (∀ r ∈ verified, UpstreamRecord P schemaVersion upstream r) ∧
        chainHashes P previous verified = .ok hashes := by
  induction records generalizing previous verified hashes with
  | nil =>
    constructor
    · intro h
      obtain ⟨rfl, rfl⟩ := Prod.mk.inj (Except.ok.inj h)
      exact ⟨rfl, fun r hr => absurd hr List.not_mem_nil, rfl⟩
    · rintro ⟨h, -, hh⟩
      obtain rfl := List.map_eq_nil_iff.1 h.symm
      obtain rfl := Except.ok.inj hh
      rfl
  | cons v records ih =>
    rw [verifyRecords]
    constructor
    · intro h
      obtain ⟨checked, hchecked, h⟩ := Except.bind_eq_ok h
      obtain ⟨body, hbody, h⟩ := Except.bind_eq_ok h
      obtain ⟨hash, hhash, h⟩ := Except.bind_eq_ok h
      obtain ⟨⟨rest, hashes'⟩, hrest, h⟩ := Except.bind_eq_ok h
      obtain ⟨rfl, rfl⟩ := Prod.mk.inj (Except.ok.inj h)
      obtain ⟨rfl, hup⟩ := verifyRecord_eq_ok.1 hchecked
      obtain ⟨rfl, hups, hchain⟩ := ih.1 hrest
      refine ⟨rfl, List.forall_mem_cons.2 ⟨hup, hups⟩, ?_⟩
      rw [chainHashes, hbody]
      change (entryHash P _ _ >>= fun hash => _) = _
      rw [hhash]
      change (chainHashes P _ _ >>= fun hashes => _) = _
      rw [hchain]
      rfl
    · rintro ⟨hv, hups, hchain⟩
      cases verified with
      | nil => cases hv
      | cons record verified =>
        obtain ⟨rfl, rfl⟩ := List.cons.inj hv
        obtain ⟨hup, hups⟩ := List.forall_mem_cons.1 hups
        rw [chainHashes] at hchain
        obtain ⟨body, hbody, hchain⟩ := Except.bind_eq_ok hchain
        obtain ⟨hash, hhash, hchain⟩ := Except.bind_eq_ok hchain
        obtain ⟨hashes', hrest, hchain⟩ := Except.bind_eq_ok hchain
        obtain rfl := Except.ok.inj hchain
        rw [verifyRecord_eq_ok.2 ⟨rfl, hup⟩]
        change (canonicalBytes P _ >>= fun body => _) = _
        rw [hbody]
        change (entryHash P _ _ >>= fun hash => _) = _
        rw [hhash]
        change (verifyRecords P _ _ _ _ >>= fun rest => _) = _
        rw [ih.2 ⟨rfl, hups, hrest⟩]
        rfl

theorem chainHashes_length {previous : PyStr} {records : List Dict} {hashes : List PyStr}
    (h : chainHashes P previous records = .ok hashes) : hashes.length = records.length := by
  induction records generalizing previous hashes with
  | nil =>
    obtain rfl := Except.ok.inj h
    rfl
  | cons record records ih =>
    rw [chainHashes] at h
    obtain ⟨body, -, h⟩ := Except.bind_eq_ok h
    obtain ⟨hash, -, h⟩ := Except.bind_eq_ok h
    obtain ⟨hashes', hrest, h⟩ := Except.bind_eq_ok h
    obtain rfl := Except.ok.inj h
    rw [List.length_cons, List.length_cons, ih hrest]

theorem checkBundleLog_eq_ok {snapshot : Dict} {records : List Dict} {hashes : List PyStr}
    (h : chainHashes P genesis records = .ok hashes) :
    checkBundleLog P snapshot hashes = .ok () ↔ CommitsTo P snapshot records := by
  rw [checkBundleLog, CommitsTo, chainHashes_length h]
  constructor
  · intro hc
    split_ifs at hc with hsize
    rw [not_or, not_not, not_not] at hsize
    obtain ⟨root, hroot, hc⟩ := Except.bind_eq_ok hc
    split_ifs at hc with hm
    exact ⟨hashes, root, h, hroot, hsize.2, hsize.1, not_not.1 hm⟩
  · rintro ⟨hashes', root, h', hroot, hhead, hsize, hm⟩
    obtain rfl := Except.ok.inj (h.symm.trans h')
    rw [if_neg (not_or.2 ⟨not_not.2 hsize, not_not.2 hhead⟩), hroot]
    change (if _ then _ else _) = _
    rw [if_neg (not_not.2 hm)]

theorem bundleSnapshot_eq_ok {upstream : PyStr} {bundle snapshot : Dict} :
    bundleSnapshot P upstream bundle = .ok snapshot ↔
      bundle.get? (py "snapshot") = some (.obj snapshot) ∧ ValidSnapshot P snapshot ∧
        verifySigned P upstream snapshot = true := by
  rw [bundleSnapshot]
  constructor
  · intro h
    obtain ⟨checked, hchecked, h⟩ := Except.bind_eq_ok h
    obtain ⟨hget, hvalid⟩ := validateSnapshot_eq_ok.1 hchecked
    split_ifs at h with hverified
    obtain rfl := Except.ok.inj h
    exact ⟨hget, hvalid, hverified⟩
  · rintro ⟨hget, hvalid, hverified⟩
    rw [validateSnapshot_eq_ok.2 ⟨hget, hvalid⟩]
    change (if _ then _ else _) = _
    rw [if_pos hverified]

theorem bundleRecords_eq_ok {bundle : Dict} {records : List Json} :
    bundleRecords bundle = .ok records ↔ bundle.get? (py "records") = some (.arr records) := by
  rw [bundleRecords]
  constructor
  · intro h
    split at h
    · rename_i hget
      rw [hget, Except.ok.inj h]
    · cases h
  · intro h
    rw [h]

/-- The bundles that an import accepts. -/
theorem verifyBundle_eq_ok {upstream : PyStr} {v : Json} {snapshot : Dict} {verified : List Dict} :
    verifyBundle P upstream v = .ok (snapshot, verified) ↔ ∃ (bundle : Dict) (schemaVersion : Int),
      v = .obj bundle ∧ bundleSchema bundle = .ok schemaVersion ∧
      (bundle.get? (py "snapshot") = some (.obj snapshot) ∧ ValidSnapshot P snapshot ∧
        verifySigned P upstream snapshot = true) ∧ checkEmbeddedKey upstream bundle = .ok () ∧
      bundle.get? (py "records") = some (.arr (verified.map .obj)) ∧
      (∀ r ∈ verified, UpstreamRecord P schemaVersion upstream r) ∧
      CommitsTo P snapshot verified := by
  constructor
  · intro h
    match v, h with
    | .obj bundle, h =>
      rw [verifyBundle] at h
      obtain ⟨schemaVersion, hschema, h⟩ := Except.bind_eq_ok h
      obtain ⟨snapshot', hsnapshot, h⟩ := Except.bind_eq_ok h
      obtain ⟨hkey, h⟩ := check_bind_eq_ok.1 h
      obtain ⟨records, hrecords, h⟩ := Except.bind_eq_ok h
      obtain ⟨⟨verified', hashes⟩, hverified, h⟩ := Except.bind_eq_ok h
      obtain ⟨hlog, h⟩ := check_bind_eq_ok.1 h
      obtain ⟨rfl, rfl⟩ := Prod.mk.inj (Except.ok.inj h)
      obtain ⟨rfl, hups, hchain⟩ := verifyRecords_eq_ok.1 hverified
      exact ⟨bundle, schemaVersion, rfl, hschema, bundleSnapshot_eq_ok.1 hsnapshot, hkey,
        bundleRecords_eq_ok.1 hrecords, hups, (checkBundleLog_eq_ok hchain).1 hlog⟩
  · rintro ⟨bundle, schemaVersion, rfl, hschema, hsnapshot, hkey, hrecords, hups, hcommits⟩
    obtain ⟨hashes, -, hchain, -⟩ := id hcommits
    rw [verifyBundle, hschema]
    change (bundleSnapshot P upstream bundle >>= fun snapshot => _) = _
    rw [bundleSnapshot_eq_ok.2 hsnapshot]
    change (checkEmbeddedKey upstream bundle >>= fun _ => _) = _
    rw [hkey]
    change (bundleRecords bundle >>= fun records => _) = _
    rw [bundleRecords_eq_ok.2 hrecords]
    change (verifyRecords P _ _ _ _ >>= fun verified => _) = _
    rw [verifyRecords_eq_ok.2 ⟨rfl, hups, hchain⟩]
    change (checkBundleLog P snapshot hashes >>= fun _ => _) = _
    rw [(checkBundleLog_eq_ok hchain).2 hcommits]
    rfl

/-! ## Countersigned imports -/

variable (P) in
/-- The fingerprint of a record, when it has one. -/
def fingerprint (record : Dict) : PyStr := (upstreamFingerprint P record).toOption.getD []

/-- What an import appends for a record: its countersigned copy. -/
def importedCopy (key : SigningKey P) (record : Dict) : Dict :=
  (key.signRecord (importedBody record)).toOption.getD []

/-- A record that is imported, under its fingerprint. -/
def importOf (key : SigningKey P) (record : Dict) : PyStr × Dict :=
  (fingerprint P record, importedCopy key record)

theorem HasStr.strField_eq {d : Dict} {key : PyStr} {form : PyStr → Prop}
    (h : HasStr (d.get? key) form) :
    d.get? key = some (.str (strField d key)) ∧ form (strField d key) := by
  obtain ⟨s, hs, hf⟩ := h
  rw [strField, hs]
  exact ⟨rfl, hf⟩

theorem fingerprintOf_eq_ok {fields : List PyStr} (h : ∀ s ∈ fields, Scalar s) :
    fingerprintOf P fields =
      .ok (hex (P.sha256 (utf8 (Json.arr (fields.map .str)).dumps))) := by
  have hv : (Json.arr (fields.map .str)).Every IsCanonical := by
    refine Json.every_arr.2 ⟨trivial, fun v hv => ?_⟩
    obtain ⟨s, hs, rfl⟩ := List.mem_map.1 hv
    exact h s hs
  rw [fingerprintOf, encodeUtf8_of_scalar (scalar_dumps hv)]

/-- The signature of a valid record, `record["sig"]["signature"]`. -/
theorem ValidRecord.recordSignature_eq {record : Dict} (h : ValidRecord record) :
    ∃ sig raw, record.get? (py "sig") = some (.obj sig) ∧
      Dict.get? sig (py "signature") = some (.str (recordSignature record)) ∧
      recordSignature record = b64encode raw ∧ raw.length = 64 := by
  obtain ⟨sig, keyId, signature, raw, hs, -, -, -, -, hsig, -, hlen, henc⟩ := h.sig
  have hrecord : recordSignature record = signature := by
    rw [recordSignature, hs]
    change strField sig (py "signature") = _
    rw [strField, hsig]
  exact ⟨sig, raw, hs, hrecord ▸ hsig, hrecord.trans henc.symm, hlen⟩

/-- The members that a fingerprint is made of. -/
def fingerprintFields (record : Dict) (signature : PyStr) : List PyStr :=
  [strField record (py "source_identity"), strField record (py "commit"),
    strField record (py "content_sha256"), strField record (py "status"), signature]

theorem ValidRecord.scalar_strField {record : Dict} (h : ValidRecord record) {key : PyStr}
    {form : PyStr → Prop} (hk : HasStr (record.get? key) form) : Scalar (strField record key) :=
  (h.canonical.get? hk.strField_eq.1).1

theorem ValidRecord.scalar_fields {record : Dict} (h : ValidRecord record) {signature : PyStr}
    (hs : Scalar signature) : ∀ s ∈ fingerprintFields record signature, Scalar s := by
  simp only [fingerprintFields, List.forall_mem_cons, List.not_mem_nil, false_imp_iff, imp_true_iff,
    and_true]
  exact ⟨h.scalar_strField h.sourceIdentity, h.scalar_strField h.commit,
    h.scalar_strField h.contentSha256, h.scalar_strField h.status, hs⟩

theorem ValidRecord.upstreamFingerprint_eq {record : Dict} (h : ValidRecord record) :
    upstreamFingerprint P record = .ok (fingerprint P record) := by
  obtain ⟨sig, raw, -, -, henc, -⟩ := h.recordSignature_eq
  have hf := fingerprintOf_eq_ok (P := P) (h.scalar_fields (henc ▸ scalar_b64encode raw))
  have hu : upstreamFingerprint P record =
      fingerprintOf P (fingerprintFields record (recordSignature record)) := rfl
  rw [fingerprint, hu, hf]
  rfl

/-- What a fingerprint is the digest of. -/
def fingerprintPayload (fields : List PyStr) : Bytes := utf8 (Json.arr (fields.map .str)).dumps

theorem fingerprintPayload_injective : Function.Injective fingerprintPayload := by
  have hwf (fields : List PyStr) : (Json.arr (fields.map .str)).Sorted ∧
      (Json.arr (fields.map .str)).Numeral := by
    constructor <;>
    · refine Json.every_arr.2 ⟨trivial, fun v hv => ?_⟩
      obtain ⟨s, -, rfl⟩ := List.mem_map.1 hv
      trivial
  intro a b h
  have := Json.dumps_injective (hwf a).1 (hwf a).2 (hwf b).1 (hwf b).2 (utf8_injective h)
  exact List.map_injective_iff.2 (fun _ _ => Json.str.inj) (Json.arr.inj this)

theorem ValidRecord.fingerprint_eq {record : Dict} (h : ValidRecord record) :
    fingerprint P record =
      hex (P.sha256 (fingerprintPayload (fingerprintFields record (recordSignature record)))) := by
  obtain ⟨sig, raw, -, -, henc, -⟩ := h.recordSignature_eq
  have hf := fingerprintOf_eq_ok (P := P) (h.scalar_fields (henc ▸ scalar_b64encode raw))
  have hu : upstreamFingerprint P record =
      fingerprintOf P (fingerprintFields record (recordSignature record)) := rfl
  rw [fingerprint, hu, hf]
  rfl

theorem ValidRecord.scalar_fingerprint {record : Dict} (h : ValidRecord record) :
    Scalar (fingerprint P record) := h.fingerprint_eq (P := P) ▸ scalar_hex _

theorem ValidRecord.importedCopy_eq {record : Dict} (h : ValidRecord record) (key : SigningKey P) :
    key.signRecord (importedBody record) = .ok (importedCopy key record) := by
  obtain ⟨copy, hc⟩ := h.signRecord_imported key
  rw [importedCopy, hc]
  rfl

/-- Every verified record can be imported. -/
theorem countersignImports_eq {verified : List Dict} (h : ∀ r ∈ verified, ValidRecord r)
    (key : SigningKey P) : countersignImports key verified = .ok (verified.map (importOf key)) := by
  refine mapM_eq_ok fun r hr => ?_
  rw [countersignImport, (h r hr).upstreamFingerprint_eq]
  change (key.signRecord (importedBody r) >>= fun countersigned => _) = _
  rw [(h r hr).importedCopy_eq]
  rfl

/-! ## The call of the store -/

variable (P) in
/-- An import that succeeded: how many records it imported, and what it made of the
    database. -/
inductive Imported (key : SigningKey P) (bundle : Json) (upstream : PyStr) (acceptOlder : Bool)
    (now : Timestamp) (db : Db) : Nat → Db → Prop
  | mk {snapshot : Dict} {verified : List Dict} {upstreamKey : Bytes} {outcome : ImportOutcome}
      {entries : List LogEntry} {db' : Db}
      (accepted : verifyBundle P upstream bundle = .ok (snapshot, verified))
      (parsed : parsePublicKey upstream = .ok upstreamKey)
      (decided : upstreamDecision (db.highWater.find? (keyIdOf P upstreamKey))
        (offeredHighWater (keyIdOf P upstreamKey) snapshot now) acceptOlder = .ok outcome)
      (imports : Imports P now.text (verified.map (importOf key)) db entries db') :
      Imported key bundle upstream acceptOlder now db entries.length
        (if outcome = .advanced then
          db'.putHighWater (offeredHighWater (keyIdOf P upstreamKey) snapshot now)
        else db')

theorem exists_recordDicts {l : List (PyStr × Dict)}
    (h : ∀ x ∈ l, (Json.obj x.2).Sorted ∧ (Json.obj x.2).Numeral) :
    ∃ records, recordDicts records = l := by
  induction l with
  | nil => exact ⟨[], rfl⟩
  | cons x l ih =>
    obtain ⟨⟨hs, hn⟩, hl⟩ := List.forall_mem_cons.1 h
    obtain ⟨records, rfl⟩ := ih hl
    exact ⟨(x.1, ⟨x.2, hs, hn⟩) :: records, rfl⟩

/-- The records of an accepted bundle. -/
theorem verified_of_accepted {upstream : PyStr} {bundle : Json} {snapshot : Dict}
    {verified : List Dict} (hb : bundle.Sorted)
    (h : verifyBundle P upstream bundle = .ok (snapshot, verified)) :
    ∀ r ∈ verified, ValidRecord r ∧ (Json.obj r).Sorted := by
  obtain ⟨members, schemaVersion, rfl, -, -, -, hrecords, hups, -⟩ := verifyBundle_eq_ok.1 h
  intro r hr
  refine ⟨(hups r hr).valid, ?_⟩
  have hitems := (Json.every_obj.1 hb).2 _ (Dict.mem_of_get? hrecords)
  exact (Json.every_arr.1 hitems).2 _ (List.mem_map_of_mem hr)

theorem importedCopy_sorted {record : Dict} (h : ValidRecord record) (hs : (Json.obj record).Sorted)
    (key : SigningKey P) : (Json.obj (importedCopy key record)).Sorted ∧
      (Json.obj (importedCopy key record)).Numeral :=
  ⟨sorted_signRecord (h.importedCopy_eq key) (sorted_importedBody hs),
    Canonical.numeral (canonical_signRecord (h.importedCopy_eq key)).1⟩

theorem map_mapError_eq_ok {ε α β : Type} {x : Except ε α} {f : ε → ε} {g : α → β} {b : β}
    (h : (x.mapError f).map g = .ok b) : ∃ a, x = .ok a ∧ b = g a := by
  cases x with
  | ok a => exact ⟨a, rfl, (Except.ok.inj h).symm⟩
  | error e => cases h

/-- A transaction that returns ran its body and committed. -/
theorem transact_eq_ok {α : Type} {env : Env} {c : Conn} {s : Store}
    {body : StoreTx (α × Option LogEntry)} {a : α} (h : (transact env c s body).result = .ok a) :
    ∃ entry n db, body (fun n => (env.faults n).map Fault.abort) 0 c.disk = .ok ((a, entry), n, db) ∧
      transact env c s body = ⟨.ok a, { c with disk := db }, s.publish entry⟩ := by
  rw [transact] at h ⊢
  cases hbegin : beginImmediate env c with
  | some e =>
    rw [hbegin] at h
    cases h
  | none =>
    rw [hbegin] at h
    dsimp only at h ⊢
    cases hbody : body (fun n => (env.faults n).map Fault.abort) 0 c.disk with
    | error e =>
      rw [hbody] at h
      cases h
    | ok r =>
      obtain ⟨⟨b, entry⟩, n, db⟩ := r
      rw [hbody] at h
      dsimp only at h ⊢
      cases hcommit : env.commit with
      | done =>
        rw [hcommit] at h
        obtain rfl := Except.ok.inj h
        exact ⟨entry, n, db, rfl, rfl⟩
      | rolledBack e =>
        rw [hcommit] at h
        cases h
      | active e =>
        rw [hcommit] at h
        cases h

/-- A transaction that raises leaves the file as it was. -/
theorem transact_eq_error {α : Type} {env : Env} {c : Conn} {s : Store}
    {body : StoreTx (α × Option LogEntry)} {e : PyErr} (h : (transact env c s body).result = .error e) :
    (transact env c s body).conn.disk = c.disk := by
  rw [transact] at h ⊢
  cases hbegin : beginImmediate env c with
  | some e => rfl
  | none =>
    rw [hbegin] at h
    dsimp only at h ⊢
    cases hbody : body (fun n => (env.faults n).map Fault.abort) 0 c.disk with
    | error a => rfl
    | ok r =>
      rw [hbody] at h
      dsimp only at h ⊢
      cases hcommit : env.commit with
      | done =>
        rw [hcommit] at h
        cases h
      | rolledBack e => rfl
      | active e => rfl

/-- An import that raises leaves the file as it was. -/
theorem importBundle_eq_error {env : Env} {c : Conn} {s : Store} {key : SigningKey P} {bundle : Json}
    {upstream : PyStr} {acceptOlder : Bool} {now : Timestamp} {e : PyErr}
    (h : (s.importBundle env c key bundle upstream acceptOlder now).result = .error e) :
    (s.importBundle env c key bundle upstream acceptOlder now).conn.disk = c.disk := by
  rw [Store.importBundle] at h ⊢
  cases hprep : prepareImport key bundle upstream now with
  | error e => rfl
  | ok prepared =>
    rw [hprep] at h
    dsimp only at h ⊢
    generalize ho : transact env c s (do
      StoreTx.gate s env
      StoreTx.appendUpstreamImportBody P prepared.1 now.text prepared.2 acceptOlder) = o at h ⊢
    obtain ⟨result, conn, store⟩ := o
    cases result with
    | ok result => cases h
    | error e =>
      have := transact_eq_error (congrArg Outcome.result ho)
      rwa [ho] at this

/-- An import that succeeded appended, under its fingerprint, the countersigned copy of each
    verified record that was not imported before. -/
theorem importBundle_eq_ok {env : Env} {c : Conn} {s : Store} {key : SigningKey P} {bundle : Json}
    {upstream : PyStr} {acceptOlder : Bool} {now : Timestamp} {n : Nat} (hb : bundle.Sorted)
    (h : (s.importBundle env c key bundle upstream acceptOlder now).result = .ok n) :
    ∃ db, Imported P key bundle upstream acceptOlder now c.disk n db ∧
      (s.importBundle env c key bundle upstream acceptOlder now).conn = { c with disk := db } := by
  rw [Store.importBundle] at h ⊢
  cases hprep : prepareImport key bundle upstream now with
  | error e =>
    rw [hprep] at h
    cases h
  | ok prepared =>
    rw [hprep] at h
    obtain ⟨⟨snapshot, verified⟩, haccepted, hprep⟩ := Except.bind_eq_ok hprep
    obtain ⟨upstreamKey, hparsed, hprep⟩ := Except.bind_eq_ok hprep
    have hvalid := verified_of_accepted hb haccepted
    rw [countersignImports_eq fun r hr => (hvalid r hr).1] at hprep
    obtain rfl := Except.ok.inj hprep
    obtain ⟨records, hrecords⟩ := exists_recordDicts (l := verified.map (importOf key)) fun x hx => by
      obtain ⟨r, hr, rfl⟩ := List.mem_map.1 hx
      exact importedCopy_sorted (hvalid r hr).1 (hvalid r hr).2 key
    have hspec : Tx.Triple (· = c.disk) (do
        StoreTx.gate s env
        StoreTx.appendUpstreamImportBody P (verified.map (importOf key)) now.text
          (offeredHighWater (keyIdOf P upstreamKey) snapshot now) acceptOlder) fun r db =>
        Performs P (.appendUpstreamImport records now.text
          (offeredHighWater (keyIdOf P upstreamKey) snapshot now) acceptOlder) c.disk
          (.upstream r.1) r.2 db :=
      StoreTx.triple_bind_ofExcept fun _ _ =>
        hrecords ▸ appendUpstreamImportBody_spec records now.text _ acceptOlder c.disk
    dsimp only at h ⊢
    obtain ⟨result, ho, hn⟩ := map_mapError_eq_ok h
    obtain ⟨entry, m, db, hbody, htransact⟩ := transact_eq_ok ho
    have hperforms := hspec _ _ _ _ rfl hbody
    rw [htransact]
    cases hperforms with
    | upstream bound decided imports =>
      rw [hrecords] at imports
      obtain rfl := hn
      exact ⟨_, .mk haccepted hparsed decided imports, rfl⟩

theorem parsePublicKey_of_verifySigned {upstream : PyStr} {obj : Dict}
    (h : verifySigned P upstream obj = true) : ∃ key, parsePublicKey upstream = .ok key := by
  rw [verifySigned] at h
  split at h
  · cases hkey : parsePublicKey upstream with
    | ok key => exact ⟨key, rfl⟩
    | error e =>
      rw [hkey] at h
      split_ifs at h
  · cases h

theorem ValidSnapshot.bindOffered {snapshot : Dict} (h : ValidSnapshot P snapshot) (key : Bytes)
    (now : Timestamp) : let offered := offeredHighWater (keyIdOf P key) snapshot now
    bindText [offered.keyId, offered.head, offered.merkleRoot, offered.updatedAt] = .ok () ∧
      bindInt [offered.version, offered.logSize] = .ok () := by
  obtain ⟨logSize, version, hsize, hversion, h₀, h₁, h₂⟩ := h.sizes
  have hs : intField snapshot (py "log_size") = logSize := by rw [intField, hsize]
  have hv : intField snapshot (py "version") = version := by rw [intField, hversion]
  have hscalar {k : PyStr} {form : PyStr → Prop} (hk : HasStr (snapshot.get? k) form) :
      Scalar (strField snapshot k) := (h.canonical.get? hk.strField_eq.1).1
  constructor
  · refine bindText_eq_ok.2 ?_
    simp only [List.forall_mem_cons, List.not_mem_nil, false_imp_iff, imp_true_iff, and_true]
    exact ⟨scalar_keyIdOf key, hscalar h.head, hscalar h.merkleRoot, now.scalar⟩
  · rw [maxSafeInteger] at h₂
    change bindInt [intField snapshot (py "version"), intField snapshot (py "log_size")] = _
    rw [hs, hv, bindInt, if_pos (by rw [maxInteger]; omega), bindInt,
      if_pos (by rw [maxInteger]; omega), bindInt]

theorem prepareImport_eq {key : SigningKey P} {bundle : Json} {upstream : PyStr} (hb : bundle.Sorted)
    {snapshot : Dict} {verified : List Dict}
    (haccepted : verifyBundle P upstream bundle = .ok (snapshot, verified)) {upstreamKey : Bytes}
    (hkey : parsePublicKey upstream = .ok upstreamKey) (now : Timestamp) :
    prepareImport key bundle upstream now =
      .ok (verified.map (importOf key), offeredHighWater (keyIdOf P upstreamKey) snapshot now) := by
  rw [prepareImport, haccepted]
  change (parsePublicKey upstream >>= fun upstreamKey => _) = _
  rw [hkey]
  change (countersignImports key verified >>= fun imports => _) = _
  rw [countersignImports_eq fun r hr => (verified_of_accepted hb haccepted r hr).1]
  rfl

section Calm

variable {env : Env} {c : Conn} {s : Store} {key : SigningKey P} {bundle : Json} {upstream : PyStr}
  {acceptOlder : Bool} {now : Timestamp} {snapshot : Dict} {verified : List Dict}
  {upstreamKey : Bytes} (hb : bundle.Sorted) (henv : env.Undisturbed) (hc : c.Free)
  (hgate : s.requireWritesAllowed env.gateClock = .ok ())
  (haccepted : verifyBundle P upstream bundle = .ok (snapshot, verified))
  (hkey : parsePublicKey upstream = .ok upstreamKey)
include hb henv hc hgate haccepted hkey

/-- An import whose mark is refused changes nothing. -/
theorem importBundle_refuses {e : PyErr}
    (hdecided : upstreamDecision (c.disk.highWater.find? (keyIdOf P upstreamKey))
      (offeredHighWater (keyIdOf P upstreamKey) snapshot now) acceptOlder = .error e) :
    ∃ e', s.importBundle env c key bundle upstream acceptOlder now = ⟨.error e', c, s⟩ := by
  have hbody : (do
      StoreTx.gate s env
      StoreTx.appendUpstreamImportBody P (verified.map (importOf key)) now.text
        (offeredHighWater (keyIdOf P upstreamKey) snapshot now) acceptOlder)
      (fun n => (env.faults n).map Fault.abort) 0 c.disk = .error ⟨e, none, false⟩ := by
    have hfaults : ∀ n, (env.faults n).map Fault.abort = none := fun n => by rw [henv.faults n]; rfl
    obtain ⟨m, hm⟩ := StoreTx.runs_ofExcept hgate c.disk _ hfaults 0
    obtain ⟨k, hk⟩ := StoreTx.getUpstreamHighWater_runs (scalar_keyIdOf (P := P) upstreamKey) c.disk
      _ hfaults m
    refine (Tx.bind_of_ok hm).trans ((Tx.bind_of_ok hk).trans (Tx.bind_of_error ?_))
    change (Except.mapError _ (upstreamDecision _ _ _)).map _ = _
    rw [hdecided]
    rfl
  rw [Store.importBundle, prepareImport_eq hb haccepted hkey]
  dsimp only
  rw [transact, hc.beginImmediate henv]
  dsimp only
  rw [hbody]
  exact ⟨_, rfl⟩

/-- The import of an accepted bundle succeeds, when the store allows writes, the offered mark
    is not refused, the new records fit, and nothing fails during the call. -/
theorem importBundle_runs (hdb : Ready P c.disk) {outcome : ImportOutcome}
    (hdecided : upstreamDecision (c.disk.highWater.find? (keyIdOf P upstreamKey))
      (offeredHighWater (keyIdOf P upstreamKey) snapshot now) acceptOlder = .ok outcome)
    (hroom : c.disk.size + (firsts (fingerprint P) c.disk.fingerprints verified).length ≤
      maxInteger) : ∃ n entry db,
    s.importBundle env c key bundle upstream acceptOlder now =
      ⟨.ok n, { c with disk := db }, s.publish entry⟩ := by
  obtain ⟨_, _, -, -, ⟨-, hsnapshot, -⟩, -⟩ := verifyBundle_eq_ok.1 haccepted
  obtain ⟨htext, hint⟩ := hsnapshot.bindOffered upstreamKey now
  have hvalid := verified_of_accepted hb haccepted
  have hrecords : ∀ x ∈ verified.map (importOf key), Scalar x.1 ∧ Appendable x.2 ∧
      (Json.obj x.2).Sorted := by
    intro x hx
    obtain ⟨r, hr, rfl⟩ := List.mem_map.1 hx
    obtain ⟨hr, hs⟩ := hvalid r hr
    exact ⟨hr.scalar_fingerprint, (hr.imported (hr.importedCopy_eq key)).appendable,
      (importedCopy_sorted hr hs key).1⟩
  have hfirsts : firsts Prod.fst c.disk.fingerprints (verified.map (importOf key)) =
      (firsts (fingerprint P) c.disk.fingerprints verified).map (importOf key) :=
    firsts_map (importOf key) _ _
  obtain ⟨⟨n, entry⟩, db, himports⟩ := importRecords_runs now.scalar hrecords hdb
    (by rw [hfirsts, List.length_map]; exact hroom) 0 none
  obtain ⟨db', hbody⟩ := StoreTx.appendUpstreamImportBody_runs htext hint hdecided himports
  have hgated : Tx.Runs c.disk (StoreTx.gate s env) () c.disk := StoreTx.runs_ofExcept hgate c.disk
  refine ⟨n, entry, db', ?_⟩
  rw [Store.importBundle, prepareImport_eq hb haccepted hkey]
  dsimp only
  rw [transact_of_runs henv hc (hgated.bind hbody)]
  rfl

end Calm

/-! ## Bundles of signed records -/

theorem sorted_bundleOf {key : SigningKey P} {records : List Dict} {snapshot : Dict}
    (hr : ∀ r ∈ records, (Json.obj r).Sorted) (hs : (Json.obj snapshot).Sorted) :
    (Json.obj (bundleOf key records snapshot)).Sorted := by
  refine Json.every_obj.2 ⟨?_, ?_⟩
  · rw [Json.IsDict, bundleOf]
    simp only [Dict.Sorted, List.pairwise_cons, List.forall_mem_cons, List.not_mem_nil,
      false_imp_iff, imp_true_iff, List.Pairwise.nil, and_true]
    decide
  · simp only [bundleOf, List.forall_mem_cons]
    refine ⟨trivial, Json.every_arr.2 ⟨trivial, fun v hv => ?_⟩, trivial, hs, List.forall_mem_nil _⟩
    obtain ⟨r, hmem, rfl⟩ := List.mem_map.1 hv
    exact hr r hmem

/-- The bundle of records, under a snapshot of the log that they make up. -/
def bundleFor (key : SigningKey P) (createdAt : PyStr) (records : List Dict) :
    Except PyErr Dict := do
  let hashes ← chainHashes P genesis records
  let root ← merkleRoot P hashes
  let snapshot ← key.signRecord (snapshotBody
    ⟨hashes.length, hashes.length, hashes.getLast?.getD genesis, root, createdAt⟩)
  .ok (bundleOf key records snapshot)

theorem sorted_bundleFor {key : SigningKey P} {createdAt : PyStr} {records : List Dict}
    {bundle : Dict} (hr : ∀ r ∈ records, (Json.obj r).Sorted)
    (h : bundleFor key createdAt records = .ok bundle) : (Json.obj bundle).Sorted := by
  obtain ⟨hashes, -, h⟩ := Except.bind_eq_ok h
  obtain ⟨root, -, h⟩ := Except.bind_eq_ok h
  obtain ⟨snapshot, hsign, h⟩ := Except.bind_eq_ok h
  obtain rfl := Except.ok.inj h
  exact sorted_bundleOf hr (sorted_signRecord hsign (sorted_snapshotBody _))

/-! ## On the sample registry -/

/-- The audit of a tool. -/
def sampleAudit (status : PyStr) : Dict :=
  [(py "commit", .str (List.replicate 40 (cp '0'))),
    (py "content_sha256", .str (py "sha256:" ++ List.replicate 64 (cp '0'))),
    (py "name", .str (py "tool")), (py "source_identity", .str (py "host/tool")),
    (py "status", .str status)]

/-- The audit of a tool, signed. -/
def sampleSigned (key : SigningKey .sample) (status : PyStr) : Dict :=
  (key.signRecord (sampleAudit status)).toOption.getD []

/-- The bundle of records, under a snapshot that the same key signed. -/
def sampleBundle (key : SigningKey .sample) (records : List Dict) : Json :=
  .obj ((bundleFor key sampleTime.text records).toOption.getD [])

theorem sorted_nil : (Json.obj []).Sorted := Json.every_obj.2 ⟨.nil, List.forall_mem_nil _⟩

theorem sorted_getD {x : Except PyErr Dict} (h : ∀ d, x = .ok d → (Json.obj d).Sorted) :
    (Json.obj (x.toOption.getD [])).Sorted := by
  cases x with
  | ok d => exact h d rfl
  | error e => exact sorted_nil

theorem sorted_sampleSigned (key : SigningKey .sample) (status : PyStr) :
    (Json.obj (sampleSigned key status)).Sorted := by
  refine sorted_getD fun d hd => sorted_signRecord hd (Json.every_obj.2 ⟨?_, ?_⟩)
  · rw [Json.IsDict, sampleAudit]
    simp only [Dict.Sorted, List.pairwise_cons, List.forall_mem_cons, List.not_mem_nil,
      false_imp_iff, imp_true_iff, List.Pairwise.nil, and_true]
    decide
  · simp only [sampleAudit, List.forall_mem_cons]
    exact ⟨trivial, trivial, trivial, trivial, trivial, List.forall_mem_nil _⟩

theorem sorted_sampleBundle {key : SigningKey .sample} {records : List Dict}
    (hr : ∀ r ∈ records, (Json.obj r).Sorted) : (sampleBundle key records).Sorted :=
  sorted_getD fun _ hd => sorted_bundleFor hr hd

end SkillRegistry
