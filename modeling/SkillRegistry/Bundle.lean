import SkillRegistry.Concurrent
import SkillRegistry.Store.Verify
import SkillRegistry.Countersign

/-!
# Bundles

A registry exports a bundle of every record it serves, with its signed snapshot. An
offline registry imports the bundle: it verifies it against the pinned key of the
upstream registry, countersigns each record with its own key, and appends what it has
not imported before.

* `StoreRead.exportBundle` reads the log and the snapshot one after the other;
* `verifyBundle` is what an import requires of a bundle, and `countersignImports` what
  it appends;
* `Store.importBundle` is the whole import, one call of the store.
-/

namespace SkillRegistry

open Wire

variable (P : Platform)

/-! ## Countersigning -/

/-- The signature of a record, `record["sig"]["signature"]`. -/
def recordSignature (record : Dict) : PyStr :=
  match record.get? (py "sig") with
  | some (.obj sig) => strField sig (py "signature")
  | _ => []

/-- The fingerprint of a record that is imported. -/
def upstreamFingerprint (record : Dict) : Except PyErr PyStr :=
  fingerprintOf P [strField record (py "source_identity"), strField record (py "commit"),
    strField record (py "content_sha256"), strField record (py "status"), recordSignature record]

variable {P} in
/-- A verified record, countersigned by the local key, with its fingerprint. -/
def countersignImport (key : SigningKey P) (record : Dict) : Except PyErr (PyStr × Dict) := do
  let fingerprint ← upstreamFingerprint P record
  let countersigned ← key.signRecord (importedBody record)
  .ok (fingerprint, countersigned)

variable {P} in
/-- `_countersign_imports`. -/
def countersignImports (key : SigningKey P) (verified : List Dict) :
    Except PyErr (List (PyStr × Dict)) :=
  verified.mapM (countersignImport key)

/-! ## Exporting -/

/-- `record.get("hash_version") == 2`. -/
def hasHashVersion2 (record : Dict) : Bool :=
  pyEqInt P ((record.get? (py "hash_version")).getD .null) 2

variable {P} in
/-- The members of an exported bundle. -/
def bundleOf (key : SigningKey P) (records : List Dict) (snapshot : Dict) : Dict :=
  [(py "public_key", .str key.publicPinned), (py "records", .arr (records.map .obj)),
    (py "schema_version", .int (if records.any (hasHashVersion2 P) then 2 else 1)),
    (py "snapshot", .obj snapshot)]

variable {P} in
/-- `export_bundle`: the records and the snapshot are read one after the other. -/
def StoreRead.exportBundle (key : SigningKey P) : StoreRead Dict := do
  let entries ← StoreRead.logEntriesLocked P 0 none
  let snapshot ← StoreRead.buildSnapshotLocked P key
  return bundleOf key (entries.map (·.record)) snapshot

/-! ## Verifying -/

/-- The entry hashes of records, chained from `previous`. -/
def chainHashes (previous : PyStr) : List Dict → Except PyErr (List PyStr)
  | [] => .ok []
  | record :: records => do
    let body ← canonicalBytes P record
    let hash ← entryHash P previous body
    let hashes ← chainHashes hash records
    .ok (hash :: hashes)

/-- What an import requires of one record. -/
def verifyRecord (schemaVersion : Int) (upstream : PyStr) (record : Json) : Except PyErr Dict := do
  let checked ← validateRecord P record
  if schemaVersion = 1 ∧ hasHashVersion2 P checked then
    .error (.valueError "hash_version_mismatch: bundle schema 1 cannot contain v2 records")
  else if ¬verifySigned P upstream checked then
    .error (.valueError ("bundle record for " ++ pyRepr (strField checked (py "name")) ++
      " does not verify against the upstream key"))
  else .ok checked

/-- The verified records, and their entry hashes. -/
def verifyRecords (schemaVersion : Int) (upstream previous : PyStr) :
    List Json → Except PyErr (List Dict × List PyStr)
  | [] => .ok ([], [])
  | record :: records => do
    let checked ← verifyRecord P schemaVersion upstream record
    let body ← canonicalBytes P checked
    let hash ← entryHash P previous body
    let rest ← verifyRecords schemaVersion upstream hash records
    .ok (checked :: rest.1, hash :: rest.2)

/-- The schema version of a bundle without other fields. -/
def bundleSchema (bundle : Dict) : Except PyErr Int :=
  if ¬bundle.keys.all (· ∈ [py "schema_version", py "records", py "snapshot", py "public_key"]) then
    .error (.valueError "bundle contains unsupported fields")
  else
    match bundle.get? (py "schema_version") with
    | some (.int 1) => .ok 1
    | some (.int 2) =>
      if (bundle.get? (py "public_key")).isNone then
        .error (.valueError "bundle schema 2 requires public_key")
      else .ok 2
    | _ => .error (.valueError "bundle schema_version must be 1 or 2")

/-- The snapshot of a bundle must verify under the key of the upstream registry. -/
def bundleSnapshot (upstream : PyStr) (bundle : Dict) : Except PyErr Dict := do
  let snapshot ← validateSnapshot P (bundle.get? (py "snapshot"))
  if verifySigned P upstream snapshot then .ok snapshot
  else .error (.valueError "bundle snapshot does not verify against the upstream key")

/-- A key that a bundle names must be the one of the upstream registry. -/
def checkEmbeddedKey (upstream : PyStr) (bundle : Dict) : Except PyErr Unit :=
  match bundle.get? (py "public_key") with
  | none | some .null => .ok ()
  | some (.str embedded) => do
    let a ← parsePublicKey embedded
    let b ← parsePublicKey upstream
    if a = b then .ok ()
    else .error (.valueError "bundle public_key does not match the pinned upstream key")
  | _ => .error (.valueError "bundle public_key does not match the pinned upstream key")

/-- The records of a bundle must be the log that its snapshot commits to. -/
def checkBundleLog (snapshot : Dict) (hashes : List PyStr) : Except PyErr Unit :=
  if snapshot.get? (py "log_size") ≠ some (.int hashes.length) ∨
      snapshot.get? (py "head") ≠ some (.str (hashes.getLast?.getD genesis)) then
    .error (.valueError "bundle records do not match the snapshot log head or size")
  else do
    let root ← merkleRoot P hashes
    if snapshot.get? (py "merkle_root") ≠ some (.str root) then
      .error (.valueError "bundle records do not match the snapshot Merkle root")
    else .ok ()

/-- A snapshot commits to a list of records: they chain up to its head, their number is its
    size, and their root its root. -/
def CommitsTo (snapshot : Dict) (records : List Dict) : Prop :=
  ∃ hashes root, chainHashes P genesis records = .ok hashes ∧ merkleRoot P hashes = .ok root ∧
    snapshot.get? (py "head") = some (.str (hashes.getLast?.getD genesis)) ∧
    snapshot.get? (py "log_size") = some (.int records.length) ∧
    snapshot.get? (py "merkle_root") = some (.str root)

/-- The records of a bundle, when they are a list. -/
def bundleRecords (bundle : Dict) : Except PyErr (List Json) :=
  match bundle.get? (py "records") with
  | some (.arr records) => .ok records
  | _ => .error (.valueError "bundle is missing records")

/-- What an import requires of a bundle: its snapshot, and its records. -/
def verifyBundle (upstream : PyStr) : Json → Except PyErr (Dict × List Dict)
  | .obj bundle => do
    let schemaVersion ← bundleSchema bundle
    let snapshot ← bundleSnapshot P upstream bundle
    checkEmbeddedKey upstream bundle
    let records ← bundleRecords bundle
    let verified ← verifyRecords P schemaVersion upstream genesis records
    checkBundleLog P snapshot verified.2
    .ok (snapshot, verified.1)
  | _ => .error (.valueError "bundle contains unsupported fields")

/-! ## Importing -/

/-- A member of an object that was validated to be an integer. -/
def intField (d : Dict) (key : PyStr) : Int :=
  match d.get? key with
  | some (.int n) => n
  | _ => 0

/-- The mark that an import offers for the upstream registry. -/
def offeredHighWater (keyId : PyStr) (snapshot : Dict) (now : Timestamp) : UpstreamHighWater where
  keyId
  version := intField snapshot (py "version")
  logSize := intField snapshot (py "log_size")
  head := strField snapshot (py "head")
  merkleRoot := strField snapshot (py "merkle_root")
  updatedAt := now.text

variable {P} in
/-- What an import hands to the store. -/
def prepareImport (key : SigningKey P) (bundle : Json) (upstream : PyStr) (now : Timestamp) :
    Except PyErr (List (PyStr × Dict) × UpstreamHighWater) := do
  let verified ← verifyBundle P upstream bundle
  let upstreamKey ← parsePublicKey upstream
  let imports ← countersignImports key verified.2
  .ok (imports, offeredHighWater (keyIdOf P upstreamKey) verified.1 now)

/-- The exceptions of an import, for the ones of the store. -/
def importError : PyErr → PyErr
  | .upstreamHighWaterConflict .inconsistent keyId persisted offered =>
    .upstreamInconsistentError keyId persisted offered
  | .upstreamHighWaterConflict .rollback keyId persisted offered =>
    .upstreamRollbackError keyId persisted offered
  | e => e

variable {P} in
/-- `import_bundle`: nothing is written unless the bundle is verified. -/
def Store.importBundle (env : Env) (c : Conn) (s : Store) (key : SigningKey P) (bundle : Json)
    (upstream : PyStr) (acceptOlder : Bool) (now : Timestamp) : Outcome Nat :=
  match prepareImport key bundle upstream now with
  | .error e => ⟨.error e, c, s⟩
  | .ok (imports, offered) =>
    let o := transact env c s do
      StoreTx.gate s env
      StoreTx.appendUpstreamImportBody P imports now.text offered acceptOlder
    ⟨(o.result.mapError importError).map (·.imported), o.conn, o.store⟩

end SkillRegistry
