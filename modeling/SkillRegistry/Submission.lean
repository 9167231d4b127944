import SkillRegistry.Canonical
import SkillRegistry.Import

/-!
# Submissions

`POST /v1/records` once the token of the request has named its auditor: the body is read
and checked, its signature is verified under the key of the auditor, and the record is
countersigned by the registry and appended, under the `Idempotency-Key` of the request
when it carries one.

* `acceptSubmission` is what happens before the store is called, and `Store.submit` the
  handler;
* `submit_disk`: a submission leaves the database as it was, or appends the countersigned
  record of an accepted body.
-/

namespace SkillRegistry

open Wire

variable (P : Platform)

/-! ## The handler -/

/-- A registered auditor. -/
structure Auditor where
  auditorId : PyStr
  publicPinned : PyStr
  named : auditorId ≠ []
  bounded : auditorId.length ≤ 8192

/-- A request whose token was accepted: its auditor, its body and the `Idempotency-Key`. -/
structure Submission where
  auditor : Auditor
  body : Bytes
  idempotencyKey : PyStr

/-- `IDEMPOTENCY_TTL_SECONDS`. -/
def idempotencyTtlSeconds : Int := 26 * 3600

/-- What the handler answers when a body is not a record. -/
def invalidRecord : PyErr → PyErr
  | .jsonDepthError m | .canonicalDepthError m => .apiError 400 "invalid_json" m
  | .protocolError m => .apiError 400 "invalid_record" m
  | .recursionError => .apiError 400 "invalid_json" depthMessage
  | e => e

/-- The record in a body. -/
def readRecord (body : Bytes) : Except PyErr Dict :=
  (do
    let value ← loadJson P body
    validateRecord P value : Except PyErr Dict).mapError invalidRecord

variable {P} in
/-- The record of a submission, and its countersigned copy. -/
def acceptSubmission (key : SigningKey P) (auditor : Auditor) (body : Bytes) :
    Except PyErr (Dict × Dict) := do
  let record ← readRecord P body
  if ¬verifySigned P auditor.publicPinned record then
    .error (.apiError 400 "invalid_signature"
      "record signature does not verify for this auditor")
  else do
    let countersigned ← countersign key auditor.auditorId record
    .ok (record, countersigned)

/-- The digest an idempotency key is bound to. -/
def bodyDigest (record : Dict) : Except PyErr PyStr :=
  ((canonicalBytes P record).map fun canonical => hex (P.sha256 canonical)).mapError fun
    | .canonicalDepthError _ | .recursionError => .apiError 400 "invalid_json" depthMessage
    | e => e

/-- The form of an `Idempotency-Key`. -/
def isIdempotencyKey (key : PyStr) : Bool :=
  1 ≤ key.length && key.length ≤ 256 && key.all fun c => 0x21 ≤ c.val && c.val ≤ 0x7E

/-- What the handler answers when a record is not appended. -/
def nonAppendable (e : PyErr) : PyErr :=
  if e.isValueError then .apiError 409 "non_appendable" e.message else e

/-- What the handler answers when a key was used before. -/
def idempotencyRefused : PyErr → PyErr
  | .idempotencyConflict m => .apiError 409 "idempotency_conflict" m
  | e => e

/-- `append`. -/
def Store.append (env : Env) (c : Conn) (s : Store) (record : Dict) (createdAt : PyStr) :
    Outcome LogEntry :=
  transact env c s do
    StoreTx.gate s env
    let entry ← StoreTx.appendBody P record createdAt
    return (entry, some entry)

/-- `append_idempotent`. -/
def Store.appendIdempotent (env : Env) (c : Conn) (s : Store) (record : Dict)
    (auditorId key bodySha256 createdAt : PyStr) (now ttlSeconds : Int) : Outcome (Dict × Bool) :=
  match checkIdempotent auditorId key bodySha256 ttlSeconds with
  | .error e => ⟨.error e, c, s⟩
  | .ok () => transact env c s do
    StoreTx.gate s env
    StoreTx.appendIdempotentBody P record auditorId key bodySha256 createdAt now ttlSeconds

variable {P} in
/-- `submit`: the status of the response, and its body. -/
def Store.submit (env : Env) (c : Conn) (s : Store) (key : SigningKey P) (request : Submission)
    (utcNow : Timestamp) (now : Int) : Outcome (Nat × Dict) :=
  match acceptSubmission key request.auditor request.body with
  | .error e => ⟨.error e, c, s⟩
  | .ok (record, countersigned) =>
    if request.idempotencyKey = [] then
      let o := s.append P env c countersigned utcNow.text
      ⟨(o.result.mapError nonAppendable).map fun entry => (201, StoreTx.response entry),
        o.conn, o.store⟩
    else if ¬isIdempotencyKey request.idempotencyKey then
      ⟨.error (.apiError 400 "invalid_idempotency_key" "Idempotency-Key is malformed"), c, s⟩
    else
      match bodyDigest P record with
      | .error e => ⟨.error e, c, s⟩
      | .ok digest =>
        let o := s.appendIdempotent P env c countersigned request.auditor.auditorId
          request.idempotencyKey digest utcNow.text now idempotencyTtlSeconds
        ⟨(o.result.mapError idempotencyRefused).map fun r => (if r.2 then 200 else 201, r.1),
          o.conn, o.store⟩

/-! ## What is accepted -/

variable {P}

/-- The record of a body, accepted from an auditor. -/
structure SubmittedRecord (auditor : Auditor) (record : Dict) : Prop where
  sorted : (Json.obj record).Sorted
  valid : ValidRecord record
  verified : verifySigned P auditor.publicPinned record = true

theorem readRecord_eq_ok {body : Bytes} {record : Dict} (h : readRecord P body = .ok record) :
    (Json.obj record).Sorted ∧ ValidRecord record := by
  obtain ⟨value, hvalue, hrecord⟩ := bind_eq_ok_iff.1 (mapError_eq_ok.1 h)
  obtain ⟨rfl, hvalid⟩ := validateRecord_eq_ok.1 hrecord
  exact ⟨(loadJson_eq_ok hvalue).1, hvalid⟩

theorem acceptSubmission_eq_ok {key : SigningKey P} {auditor : Auditor} {body : Bytes}
    {record countersigned : Dict} :
    acceptSubmission key auditor body = .ok (record, countersigned) ↔
      readRecord P body = .ok record ∧ verifySigned P auditor.publicPinned record = true ∧
        countersign key auditor.auditorId record = .ok countersigned := by
  constructor
  · intro h
    obtain ⟨r, hr, hrest⟩ := Except.bind_eq_ok h
    split_ifs at hrest with hverified
    obtain ⟨s, hs, hrest⟩ := Except.bind_eq_ok hrest
    obtain ⟨rfl, rfl⟩ := Prod.mk.inj (Except.ok.inj hrest)
    exact ⟨hr, hverified, hs⟩
  · rintro ⟨hr, hverified, hs⟩
    refine bind_eq_ok_iff.2 ⟨record, hr, ?_⟩
    rw [if_neg (not_not.2 hverified)]
    exact bind_eq_ok_iff.2 ⟨countersigned, hs, rfl⟩

/-- The countersigned copy of an accepted record, as the store takes it. -/
theorem exists_countersignedRecord {key : SigningKey P} {auditor : Auditor} {body : Bytes}
    {record countersigned : Dict}
    (h : acceptSubmission key auditor body = .ok (record, countersigned)) :
    ∃ r : Record, r.members = countersigned ∧ ValidRecord countersigned ∧
      verifySigned P key.publicPinned countersigned = true := by
  obtain ⟨hread, -, hsigned⟩ := acceptSubmission_eq_ok.1 h
  obtain ⟨hsorted, hvalid⟩ := readRecord_eq_ok hread
  exact ⟨⟨countersigned, sorted_signRecord hsigned (sorted_countersignedBody hsorted _),
      Canonical.numeral (canonical_signRecord hsigned).1⟩, rfl,
    hvalid.countersigned auditor.named auditor.bounded hsigned, verifySigned_signRecord hsigned⟩

/-! ## What is left -/

/-- A transaction leaves the database as it was, or as its body does. -/
theorem transact_disk {α : Type} {c : Conn} {body : StoreTx (α × Option LogEntry)} {post : α × Option LogEntry → Db → Prop}
    (h : Tx.Triple (· = c.disk) body post) (env : Env) (s : Store) :
    (transact env c s body).conn.disk = c.disk ∨ ∃ r, post r (transact env c s body).conn.disk := by
  cases hresult : (transact env c s body).result with
  | error e => exact .inl (transact_eq_error hresult)
  | ok a =>
    obtain ⟨entry, n, db, hbody, htransact⟩ := transact_eq_ok hresult
    rw [htransact]
    exact .inr ⟨(a, entry), h _ _ _ _ rfl hbody⟩

/-- A call that appends a record, at a time. -/
def Call.Submits (call : Call) (record : Record) (createdAt : PyStr) : Prop :=
  call = .append record createdAt ∨ ∃ auditorId key bodySha256 now ttlSeconds,
    call = .appendIdempotent record auditorId key bodySha256 createdAt now ttlSeconds

theorem append_disk (env : Env) (c : Conn) (s : Store) (record : Record) (createdAt : PyStr) :
    (s.append P env c record.members createdAt).conn.disk = c.disk ∨ ∃ r published,
      Performs P (.append record createdAt) c.disk r published
        (s.append P env c record.members createdAt).conn.disk := by
  have hspec : Tx.Triple (· = c.disk) (do
      StoreTx.gate s env
      let entry ← StoreTx.appendBody P record.members createdAt
      return (entry, some entry)) fun r db =>
      Performs P (.append record createdAt) c.disk (.entry r.1) r.2 db :=
    StoreTx.triple_bind_ofExcept fun _ _ =>
      Tx.triple_bind (appendLocked_spec c.disk record.members createdAt) fun entry =>
        (Tx.triple_pure _).mono (fun db ⟨_, _, _, ha⟩ => .append ha) fun _ _ h => h
  rcases transact_disk hspec env s with h | ⟨r, h⟩
  · exact .inl h
  · exact .inr ⟨_, _, h⟩

theorem appendIdempotent_disk (env : Env) (c : Conn) (s : Store) (record : Record)
    (auditorId key bodySha256 createdAt : PyStr) (now ttlSeconds : Int) :
    let o := s.appendIdempotent P env c record.members auditorId key bodySha256 createdAt now
      ttlSeconds
    o.conn.disk = c.disk ∨ ∃ r published,
      Performs P (.appendIdempotent record auditorId key bodySha256 createdAt now ttlSeconds)
        c.disk r published o.conn.disk := by
  intro o
  have ho : o = s.appendIdempotent P env c record.members auditorId key bodySha256 createdAt now
    ttlSeconds := rfl
  clear_value o
  rw [Store.appendIdempotent] at ho
  cases hcheck : checkIdempotent auditorId key bodySha256 ttlSeconds with
  | error e =>
    rw [hcheck] at ho
    exact .inl (ho ▸ rfl)
  | ok u =>
    rw [hcheck] at ho
    subst ho
    have hspec := StoreTx.triple_bind_ofExcept (x := s.requireWritesAllowed env.gateClock)
      fun _ _ => appendIdempotentBody_spec (P := P) record auditorId key bodySha256 createdAt now
        ttlSeconds c.disk
    rcases transact_disk hspec env s with h | ⟨r, h⟩
    · exact .inl h
    · exact .inr ⟨_, _, h⟩

/-- A submission leaves the database as it was, or as a call that appends the
    countersigned copy of an accepted record does. -/
theorem submit_disk (env : Env) (c : Conn) (s : Store) (key : SigningKey P) (request : Submission)
    (utcNow : Timestamp) (now : Int) :
    (s.submit env c key request utcNow now).conn.disk = c.disk ∨
      ∃ (original : Dict) (record : Record) (call : Call) (r : Response)
        (published : Option LogEntry),
        acceptSubmission key request.auditor request.body = .ok (original, record.members) ∧
          call.Submits record utcNow.text ∧
          Performs P call c.disk r published (s.submit env c key request utcNow now).conn.disk := by
  rw [Store.submit]
  cases haccept : acceptSubmission key request.auditor request.body with
  | error e => exact .inl rfl
  | ok accepted =>
    obtain ⟨original, countersigned⟩ := accepted
    obtain ⟨record, rfl, -, -⟩ := exists_countersignedRecord haccept
    dsimp only
    split_ifs with hkey hform
    · rcases append_disk env c s record utcNow.text with h | ⟨r, published, h⟩
      · exact .inl h
      · exact .inr ⟨original, record, _, r, published, rfl, .inl rfl, h⟩
    · cases hdigest : bodyDigest P original with
      | error e => exact .inl rfl
      | ok digest =>
        rcases appendIdempotent_disk env c s record request.auditor.auditorId
          request.idempotencyKey digest utcNow.text now idempotencyTtlSeconds with
          h | ⟨r, published, h⟩
        · exact .inl h
        · exact .inr ⟨original, record, _, r, published, rfl, .inr ⟨_, _, _, _, _, rfl⟩, h⟩
    · exact .inl rfl

/-- What a call that appends a record leaves in the log. -/
theorem Performs.log_submitted {call : Call} {db db' : Db} {response : Response}
    {published : Option LogEntry} (h : Performs P call db response published db') {record : Record}
    {createdAt : PyStr} (hcall : call.Submits record createdAt) :
    db'.log.rows = db.log.rows ∨ ∃ entry : LogEntry, entry.record = record.members ∧
      db'.log.rows = db.log.rows ++ [entry.row createdAt] := by
  rcases hcall with rfl | ⟨_, _, _, _, _, rfl⟩
  · cases h with
    | append appended => exact .inr ⟨_, appended.recorded, appended.row_eq⟩
  · cases h with
    | replay => exact .inl rfl
    | submit bound timed fresh appended => exact .inr ⟨_, appended.recorded, appended.row_eq⟩

end SkillRegistry
