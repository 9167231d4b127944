import SkillRegistry.Store.Append

/-!
# Writing to the store

The four write operations of a `Store` instance, each one write transaction: BEGIN
IMMEDIATE, the write gate, the statements, and COMMIT, or ROLLBACK on an exception.
What the database does at each of these is the environment's choice (`Env`): BEGIN may
fail, any statement may fail, and COMMIT may fail with its transaction rolled back or
left active.

* `Store` is the cached verdict of an instance, and `Conn` what its connection sees: the
  committed database, and the transaction it has open, if a COMMIT left one;
* `transact` is `_write_transaction` around a body, under `_operation_deadline`;
* `Call` is a call of one of the operations, and `Store.perform` runs it.
-/

namespace SkillRegistry

open Wire

variable (P : Platform)

/-! ## Instances -/

/-- The fields of a `Store` instance that change. -/
structure Store where
  verifyInterval : ℚ
  healthReady : Bool
  verifiedHead : PyStr
  verifiedLogSize : Int
  verifiedAt : PyStr
  healthError : Option String
  healthCode : String
  lastRefresh : ℚ
  integrityFailed : Bool
  /-- An instance whose integrity failed is never ready. -/
  failed_not_ready : integrityFailed = true → healthReady = false
  deriving DecidableEq

/-- What a connection sees. -/
structure Conn where
  /-- The committed database. -/
  disk : Db
  /-- The database inside the transaction the connection has open. -/
  pending : Option Db
  /-- Another connection has a write transaction open. -/
  locked : Bool
  deriving DecidableEq

/-- The database the connection reads. -/
def Conn.view (c : Conn) : Db := c.pending.getD c.disk

/-- What COMMIT does. -/
inductive CommitOutcome where
  | done
  /-- It fails, and SQLite has rolled the transaction back. -/
  | rolledBack (error : PyErr)
  /-- It fails, and the transaction stays active. -/
  | active (error : PyErr)
  deriving DecidableEq, Repr

/-- What happens to one call. -/
structure Env where
  /-- BEGIN IMMEDIATE fails. -/
  begins : Option PyErr
  /-- The failures of the statements. -/
  faults : Nat → Option Fault
  commit : CommitOutcome
  /-- `time.monotonic()` at the write gate. -/
  gateClock : ℚ
  /-- `time.monotonic()` where an integrity failure is latched. -/
  latchClock : ℚ
  /-- The deadline of the operation has passed when it ends. -/
  expired : Bool

/-- Nothing fails, at a time. -/
def Env.calm (clock : ℚ) : Env := ⟨none, fun _ => none, .done, clock, clock, false⟩

namespace Store

/-- `HEALTH_STALENESS_MULTIPLIER`. -/
def stalenessMultiplier : ℚ := 2

/-- `_health_stale_locked`. -/
def stale (s : Store) (now : ℚ) : Bool :=
  now - s.lastRefresh > s.verifyInterval * stalenessMultiplier

/-- `_require_writes_allowed`. -/
def requireWritesAllowed (s : Store) (now : ℚ) : Except PyErr Unit :=
  if s.integrityFailed || !s.healthReady then
    .error (.storeIntegrityError "registry integrity verification failed; restart to re-verify")
  else if s.stale now then .error (.storeIntegrityError "registry integrity verification is stale")
  else .ok ()

/-- `_latch_integrity_failure_locked`. -/
def latchIntegrityFailure (s : Store) (error : String) (now : ℚ) : Store :=
  if s.integrityFailed then s
  else { s with
    integrityFailed := true, healthReady := false, healthError := some error, lastRefresh := now
    failed_not_ready := fun _ => rfl }

/-- The publication of an entry after COMMIT. -/
def publish (s : Store) (entry : Option LogEntry) : Store :=
  match entry with
  | some entry => { s with verifiedHead := entry.entryHash, verifiedLogSize := entry.seq }
  | none => s

end Store

/-! ## Transactions -/

/-- The outcome of a call: what it returns or raises, and what it leaves. -/
structure Outcome (α : Type) where
  result : Except PyErr α
  conn : Conn
  store : Store

/-- `_operation_deadline`: an interrupted operation is reported as an integrity error. -/
def operationDeadline (env : Env) : PyErr → PyErr
  | .interrupted =>
    if env.expired then .storeIntegrityError "database operation deadline exceeded"
    else .interrupted
  | e => e

/-- BEGIN IMMEDIATE: its exception, if it fails. -/
def beginImmediate (env : Env) (c : Conn) : Option PyErr :=
  if c.pending.isSome then
    some (.operationalError "cannot start a transaction within a transaction")
  else if c.locked then some (.operationalError "database is locked")
  else env.begins

/-- `_write_transaction` around a body, under `_operation_deadline`, and the publication
    of the last entry after it. -/
def transact {α : Type} (env : Env) (c : Conn) (s : Store) (body : StoreTx (α × Option LogEntry)) :
    Outcome α :=
  match beginImmediate env c with
  | some e => ⟨.error (operationDeadline env e), c, s⟩
  | none =>
    match body (fun n => (env.faults n).map Fault.abort) 0 c.disk with
    | .error a =>
      let s := match a.latch with
        | some m => s.latchIntegrityFailure m env.latchClock
        | none => s
      let e := if a.ended then .operationalError "cannot rollback - no transaction is active"
        else a.error
      ⟨.error (operationDeadline env e), c, s⟩
    | .ok ((r, entry), _, db) =>
      match env.commit with
      | .done => ⟨.ok r, { c with disk := db }, s.publish entry⟩
      | .rolledBack e => ⟨.error (operationDeadline env e), c, s⟩
      -- the COMMIT stands outside the handler that rolls back
      | .active e => ⟨.error (operationDeadline env e), { c with pending := some db }, s⟩

/-! ## Bodies -/

namespace StoreTx

/-- The write gate. -/
def gate (s : Store) (env : Env) : StoreTx Unit := ofExcept (s.requireWritesAllowed env.gateClock)

/-- The body of `append`. -/
def appendBody (record : Dict) (createdAt : PyStr) : StoreTx LogEntry :=
  appendLocked P record createdAt

/-- The response of a submission, as `json.dumps` writes it. -/
def responseJson (entry : LogEntry) : Json :=
  .obj [(py "seq", .int entry.seq), (py "entry_hash", .str entry.entryHash)]

/-- The dictionary of a response. -/
def response (entry : LogEntry) : Dict :=
  [(py "entry_hash", .str entry.entryHash), (py "seq", .int entry.seq)]

/-- The body of `append_idempotent`: the response, whether it is a replay, and the entry. -/
def appendIdempotentBody (record : Dict) (auditorId key bodySha256 createdAt : PyStr)
    (now ttlSeconds : Int) : StoreTx ((Dict × Bool) × Option LogEntry) := do
  ofExcept (bindInt [now])
  Tx.execute fun db => { db with idempotency := db.idempotency.filter fun row => now < row.expiresAt }
  ofExcept (bindText [auditorId, key])
  let existing ← Tx.select fun db => db.idempotency.find? (toLex (auditorId, key))
  match existing with
  | some existing =>
    if existing.bodySha256 ≠ bodySha256 then
      raise (.idempotencyConflict "idempotency key was already used for a different body")
    else do
      let value ← ofExcept (pyLoads P existing.responseJson)
      match value with
      | .obj response => return ((response, true), none)
      | _ => raise (.storeIntegrityError "stored idempotency response is invalid")
  | none => do
    let entry ← appendLocked P record createdAt
    let responseText ← ofExcept (jsonDumps P (responseJson entry))
    ofExcept (bindText [auditorId, key, bodySha256, responseText])
    ofExcept (bindInt [entry.seq, now + ttlSeconds])
    Tx.stmt fun db =>
      match db.idempotency.insert?
          ⟨auditorId, key, bodySha256, responseText, entry.seq, now + ttlSeconds⟩ with
      | some idempotency => .ok ((), { db with idempotency })
      | none =>
        .error ⟨.integrityError "UNIQUE constraint failed: idempotency.auditor_id, idempotency.key",
          none, false⟩
    return ((response entry, false), some entry)

/-- The loop over the records of an import: how many were imported, and the last entry. -/
def importRecords (createdAt : PyStr) :
    List (PyStr × Dict) → (imported : Nat) → (last : Option LogEntry) →
      StoreTx (Nat × Option LogEntry)
  | [], imported, last => return (imported, last)
  | (fingerprint, record) :: records, imported, last => do
    ofExcept (bindText [fingerprint])
    let exists? ← Tx.select fun db => db.imported.find? fingerprint
    match exists? with
    | some _ => importRecords createdAt records imported last
    | none => do
      let entry ← appendLocked P record createdAt
      Tx.stmt fun db =>
        match db.imported.insert? ⟨fingerprint, createdAt, some entry.seq⟩ with
        | some imported => .ok ((), { db with imported })
        | none =>
          .error ⟨.integrityError "UNIQUE constraint failed: imported_records.fingerprint",
            none, false⟩
      importRecords createdAt records (imported + 1) (some entry)

/-- `_get_upstream_high_water_locked`. -/
def getUpstreamHighWater (keyId : PyStr) : StoreTx (Option UpstreamHighWater) := do
  ofExcept (bindText [keyId])
  Tx.select fun db => db.highWater.find? keyId

/-- `INSERT OR REPLACE INTO upstream_high_water`. -/
def putUpstreamHighWater (row : UpstreamHighWater) : StoreTx Unit := do
  ofExcept (bindText [row.keyId, row.head, row.merkleRoot, row.updatedAt])
  ofExcept (bindInt [row.version, row.logSize])
  Tx.execute fun db => { db with highWater := db.highWater.put row }

end StoreTx

/-- `_upstream_offer_diagnostic`. -/
def upstreamOfferDiagnostic (current offered : UpstreamHighWater) : Option UpstreamDiagnostic :=
  if offered.version < current.version then some .rollback
  else if offered.version = current.version ∧ (offered.head ≠ current.head ∨
      offered.merkleRoot ≠ current.merkleRoot ∨ offered.logSize ≠ current.logSize) then
    some .inconsistent
  else none

/-- How an upstream import ended. -/
inductive ImportOutcome where
  | advanced
  | noop
  | acceptedOlder
  deriving DecidableEq, Repr

/-- An `UpstreamImportResult`. -/
structure UpstreamImportResult where
  imported : Nat
  persisted : Option UpstreamHighWater
  outcome : ImportOutcome
  deriving DecidableEq, Repr

/-- The decision of `append_upstream_import` on an offered boundary. -/
def upstreamDecision (current : Option UpstreamHighWater) (offered : UpstreamHighWater)
    (acceptOlder : Bool) : Except PyErr ImportOutcome :=
  match current with
  | none => .ok .advanced
  | some current =>
    match upstreamOfferDiagnostic current offered with
    | some .rollback =>
      if acceptOlder then .ok .acceptedOlder
      else .error (.upstreamHighWaterConflict .rollback offered.keyId current offered)
    | some .inconsistent =>
      .error (.upstreamHighWaterConflict .inconsistent offered.keyId current offered)
    | none => if offered.version = current.version then .ok .noop else .ok .advanced

/-- The check of `append_imports` on an offered boundary. -/
def importsDecision (current : Option UpstreamHighWater) (offered : UpstreamHighWater) :
    Except PyErr Unit :=
  match current with
  | none => .ok ()
  | some current =>
    match upstreamOfferDiagnostic current offered with
    | some diagnostic =>
      .error (.upstreamHighWaterConflict diagnostic offered.keyId current offered)
    | none => .ok ()

namespace StoreTx

/-- The body of `append_imports`. -/
def appendImportsBody (records : List (PyStr × Dict)) (createdAt : PyStr)
    (highWater : Option UpstreamHighWater) : StoreTx (Nat × Option LogEntry) := do
  match highWater with
  | none => importRecords P createdAt records 0 none
  | some offered => do
    let current ← getUpstreamHighWater offered.keyId
    ofExcept (importsDecision current offered)
    let imported ← importRecords P createdAt records 0 none
    putUpstreamHighWater offered
    return imported

/-- The body of `append_upstream_import`. -/
def appendUpstreamImportBody (records : List (PyStr × Dict)) (createdAt : PyStr)
    (offered : UpstreamHighWater) (acceptOlder : Bool) :
    StoreTx (UpstreamImportResult × Option LogEntry) := do
  let current ← getUpstreamHighWater offered.keyId
  let outcome ← ofExcept (upstreamDecision current offered acceptOlder)
  let imported ← importRecords P createdAt records 0 none
  if outcome = .advanced then putUpstreamHighWater offered
  return (⟨imported.1, current, outcome⟩, imported.2)

end StoreTx

/-! ## Operations -/

/-- A record: a dictionary inside which every object is one. -/
structure Record where
  members : Dict
  sorted : (Json.obj members).Sorted
  numeral : (Json.obj members).Numeral

/-- A call of a write operation. -/
inductive Call where
  | append (record : Record) (createdAt : PyStr)
  | appendIdempotent (record : Record) (auditorId key bodySha256 createdAt : PyStr)
      (now ttlSeconds : Int)
  | appendImports (records : List (PyStr × Record)) (createdAt : PyStr)
      (highWater : Option UpstreamHighWater)
  | appendUpstreamImport (records : List (PyStr × Record)) (createdAt : PyStr)
      (offered : UpstreamHighWater) (acceptOlder : Bool)

/-- What a write operation returns. -/
inductive Response where
  | entry (entry : LogEntry)
  | submission (response : Dict) (replayed : Bool)
  | imported (count : Nat)
  | upstream (result : UpstreamImportResult)
  deriving DecidableEq

/-- The checks of `append_idempotent` on its arguments. -/
def checkIdempotent (auditorId key bodySha256 : PyStr) (ttlSeconds : Int) : Except PyErr Unit :=
  if auditorId = [] then .error (.valueError "auditor_id must be non-empty")
  else if ¬(1 ≤ key.length ∧ key.length ≤ 256 ∧ key.all fun c => 0x21 ≤ c.val && c.val ≤ 0x7E) then
    .error (.valueError "idempotency key is malformed")
  else if ¬hex256 bodySha256 then .error (.valueError "idempotency body digest is malformed")
  else if ttlSeconds < 24 * 3600 then
    .error (.valueError "idempotency retention must be at least 24 hours")
  else .ok ()

/-- The records of an import, as their dictionaries. -/
def recordDicts (records : List (PyStr × Record)) : List (PyStr × Dict) :=
  records.map fun r => (r.1, r.2.members)

namespace Call

/-- What a call checks before its transaction. -/
def check : Call → Except PyErr Unit
  | appendIdempotent _ auditorId key bodySha256 _ _ ttlSeconds =>
    checkIdempotent auditorId key bodySha256 ttlSeconds
  | append .. | appendImports .. | appendUpstreamImport .. => .ok ()

/-- The statements of a call. -/
def body : Call → StoreTx (Response × Option LogEntry)
  | append record createdAt => do
    let entry ← StoreTx.appendBody P record.members createdAt
    return (.entry entry, some entry)
  | appendIdempotent record auditorId key bodySha256 createdAt now ttlSeconds => do
    let r ← StoreTx.appendIdempotentBody P record.members auditorId key bodySha256 createdAt now
      ttlSeconds
    return (.submission r.1.1 r.1.2, r.2)
  | appendImports records createdAt highWater => do
    let r ← StoreTx.appendImportsBody P (recordDicts records) createdAt highWater
    return (.imported r.1, r.2)
  | appendUpstreamImport records createdAt offered acceptOlder => do
    let r ← StoreTx.appendUpstreamImportBody P (recordDicts records) createdAt offered acceptOlder
    return (.upstream r.1, r.2)

end Call

/-- A call of a write operation: its checks, then its transaction behind the gate. -/
def Store.perform (env : Env) (c : Conn) (s : Store) (call : Call) : Outcome Response :=
  match call.check with
  | .error e => ⟨.error e, c, s⟩
  | .ok () => transact env c s do
    StoreTx.gate s env
    call.body P

end SkillRegistry
