import SkillRegistry.Submission
import SkillRegistry.Idempotency
import SkillRegistry.Limits
import SkillRegistry.Auth
import Mathlib.Data.List.DropRight

/-!
# The service, request by request

The process that answers the requests: the middleware that limits the requests of a network
source and the requests that run at once, the handler of `POST /v1/records` from the headers
of the request to its reply, and the handlers of the exceptions. The requests interleave where
the process awaits: at the semaphore, and while a body arrives.

* `Application` is what `create_app` is given, and `Application.submit` the handler;
* `Server` is the process and its database file, `HttpEvent` what happens to them, and
  `Server.run` a run;
* `Server.requests_balanced`: whatever is refused, fails or times out, no slot of the semaphore
  is lost, and no request is answered twice;
* `Server.submissions_accounted`: what the submissions of a run add to the log is what they
  acknowledge;
* `retry_exactlyOnce`: what a client is told that sends its submission again.
-/

namespace SkillRegistry

open Wire

/-! ## Headers -/

/-- The text of a header, which is decoded as Latin-1. -/
def latin1 (raw : Bytes) : PyStr := raw.map fun b => Fin.ofNat _ b.toNat

/-- What is left when the characters at both ends that satisfy a predicate are gone. -/
def stripOf (p : CodePoint → Bool) (s : PyStr) : PyStr := (s.dropWhile p).rdropWhile p

/-- `str.strip()`. -/
def strip (s : PyStr) : PyStr := stripOf isSpace s

/-- `str.lower` of a character of Latin-1. -/
def lowerChar (c : CodePoint) : CodePoint :=
  if 0x41 ≤ c.val ∧ c.val ≤ 0x5A ∨ 0xC0 ≤ c.val ∧ c.val ≤ 0xDE ∧ c.val ≠ 0xD7 then
    Fin.ofNat _ (c.val + 0x20)
  else c

/-- `str.lower()`. -/
def lower (s : PyStr) : PyStr := s.map lowerChar

/-- A parameter of a media type is empty, or names UTF-8. -/
def isCharset (parameter : PyStr) : Bool :=
  let name := parameter.takeWhile (· ≠ cp '=')
  let value := lower (stripOf (· = cp '"') (strip (parameter.drop (name.length + 1))))
  parameter = [] || parameter.any (· = cp '=') && lower (strip name) = py "charset" &&
    (value = py "utf-8" || value = py "utf8")

/-- `_is_utf8_json`. -/
def isUtf8Json (contentType : PyStr) : Bool :=
  match (contentType.splitOn (cp ';')).map strip with
  | [] => false
  | mediaType :: parameters => lower mediaType = py "application/json" && parameters.all isCharset

/-- `str.isdigit` of a character of Latin-1, which has three superscripts. -/
def isDigitChar (c : CodePoint) : Bool :=
  isDigit c || c.val = 0xB2 || c.val = 0xB3 || c.val = 0xB9

/-- `int(length)`, which takes no superscript. -/
def intOfDigits (length : PyStr) : Except PyErr Int :=
  if length.all isDigit then pyInt length
  else .error (.valueError "invalid literal for int() with base 10")

/-! ## Replies -/

/-- A response: an error, with its `Retry-After`, or what a submission is answered. -/
inductive Reply where
  | error (status : Nat) (code message : String) (retryAfter : Option Int)
  | success (status : Nat) (payload : Dict)
  deriving DecidableEq

/-- The handlers of the exceptions of a request. -/
def exceptionReply : PyErr → Reply
  | .apiError status code message => .error status code message none
  | .storeIntegrityError _ =>
    .error 503 "storage_unavailable" "registry durable state is unavailable" none
  | .integrityError _ | .interrupted | .operationalError _ =>
    .error 503 "storage_unavailable" "registry storage operation failed" none
  | _ => .error 500 "internal_error" "the registry could not complete the request" none

/-- The reply to a submission: its `seq` is read for the audit log. -/
def submissionReply : Except PyErr (Nat × Dict) → Reply
  | .error e => exceptionReply e
  | .ok (status, payload) =>
    if (payload.get? (py "seq")).isSome then .success status payload
    -- a `KeyError`
    else .error 500 "internal_error" "the registry could not complete the request" none

/-! ## Requests -/

/-- How the body of a request ends. -/
inductive BodyEnd where
  | complete
  /-- `REQUEST_BODY_DEADLINE_SECONDS` have passed. -/
  | deadline
  | disconnected
  deriving DecidableEq, Repr

/-- A `POST /v1/records`: its headers, when it has them, and its body as it arrives. -/
structure PostRequest where
  contentType : Option Bytes
  contentEncoding : Option Bytes
  contentLength : Option Bytes
  authorization : Option Bytes
  idempotencyKey : Option Bytes
  chunks : List Bytes
  bodyEnd : BodyEnd

/-- `MAX_BODY_BYTES`. -/
def maxBodyBytes : Nat := 16 * 1024 * 1024

/-- What is answered to a body that is too large. -/
def tooLarge : Reply := .error 413 "request_too_large" "record body exceeds 16 MiB" none

/-- What is answered to a request without the token of an auditor. -/
def invalidToken : Reply :=
  .error 401 "invalid_token" "a valid auditor bearer token is required" none

/-- `_read_request_body`, after some bytes of the body. -/
def readRequestBody (limit : Nat) (bodyEnd : BodyEnd) (received : Bytes) :
    List Bytes → Except Reply Bytes
  | [] =>
    match bodyEnd with
    | .complete => .ok received
    | .deadline => .error (.error 503 "request_timeout" "record body deadline exceeded" none)
    | .disconnected =>
      .error (.error 500 "internal_error" "the registry could not complete the request" none)
  | chunk :: chunks =>
    if limit < received.length + chunk.length then .error tooLarge
    else readRequestBody limit bodyEnd (received ++ chunk) chunks

namespace PostRequest

variable (r : PostRequest)

/-- The check of `Content-Type` and `Content-Encoding`. -/
def checkMedia : Except Reply Unit :=
  if ¬isUtf8Json (latin1 (r.contentType.getD [])) then
    .error (.error 415 "unsupported_media_type" "Content-Type must be application/json" none)
  else
    let encoding := match r.contentEncoding with
      | some raw => latin1 raw
      | none => py "identity"
    if lower (strip encoding) ∉ [[], py "identity"] then
      .error (.error 415 "unsupported_media_type" "Content-Encoding must be identity" none)
    else .ok ()

/-- The check of `Content-Length`. -/
def checkLength : Except Reply Unit :=
  let length := latin1 (r.contentLength.getD [])
  if length ≠ [] ∧ length.all isDigitChar then
    match intOfDigits length with
    | .error e => .error (exceptionReply e)
    | .ok n => if (maxBodyBytes : Int) < n then .error tooLarge else .ok ()
  else .ok ()

/-- The body of a request whose headers are accepted. -/
def body : Except Reply Bytes := do
  r.checkMedia
  r.checkLength
  readRequestBody maxBodyBytes r.bodyEnd [] r.chunks

/-- The bearer token of the request. -/
def token : Option PyStr :=
  let authorization := latin1 (r.authorization.getD [])
  if (py "Bearer ").isPrefixOf authorization then some (strip (authorization.drop 7)) else none

/-- The `Idempotency-Key` of the request. -/
def key : PyStr := latin1 (r.idempotencyKey.getD [])

end PostRequest

/-! ## The handler -/

/-- The clocks of a submission. -/
structure SubmitClock where
  /-- `time.monotonic()`, at the limiter. -/
  monotonic : ℚ
  /-- `utc_now()`. -/
  utcNow : Timestamp
  /-- `int(time.time())`. -/
  seconds : Int

/-- The arguments of `create_app` that a submission depends on, and its limiters. -/
structure Application (P : Platform) where
  signingKey : SigningKey P
  tokens : List Auth.Auditor
  network : FixedWindowLimiter
  auditors : FixedWindowLimiter
  maxConcurrentRequests : Nat
  registered : Auth.Registered tokens
  positive : 0 < maxConcurrentRequests

/-- A submission that was handled: its reply, the table of the limiter of the auditors, and
    what it leaves of the store. -/
structure Handling where
  reply : Reply
  auditors : FixedWindowLimiter.Entries
  conn : Conn
  store : Store

variable {P : Platform}

theorem Auth.mem_of_resolve {tokens : List Auth.Auditor} {token : PyStr} {a : Auth.Auditor}
    (h : Auth.resolve P tokens token = .ok (some a)) : a ∈ tokens := by
  rw [Auth.resolve] at h
  split_ifs at h
  · cases Except.ok.inj h
  · split at h
    · exact List.mem_of_find?_eq_some (Except.ok.inj h)
    · cases h

namespace Application

variable (app : Application P)

/-- A registered auditor, as the handler takes it. -/
def auditor (a : Auth.Auditor) (h : a ∈ app.tokens) : Auditor :=
  ⟨a.auditorId, a.publicPinned, (app.registered.valid a h).named, (app.registered.valid a h).bounded⟩

/-- The auditor of a token. -/
def resolve (token : PyStr) : Except PyErr (Option Auditor) :=
  match h : Auth.resolve P app.tokens token with
  | .error e => .error e
  | .ok none => .ok none
  | .ok (some a) => .ok (some (app.auditor a (Auth.mem_of_resolve h)))

/-- The auditor that sends a request. -/
def authenticate (r : PostRequest) : Except Reply Auditor :=
  match r.token with
  | none => .error invalidToken
  | some token =>
    match app.resolve token with
    | .error e => .error (exceptionReply e)
    | .ok none => .error invalidToken
    | .ok (some auditor) => .ok auditor

/-- The key of an auditor in the limiter. -/
def auditorKey (auditor : Auditor) : PyStr := py "auditor:" ++ auditor.auditorId

/-- The handler of `POST /v1/records`, on the table of the limiter of the auditors. -/
def submit (env : Env) (clock : SubmitClock) (entries : FixedWindowLimiter.Entries) (c : Conn)
    (s : Store) (r : PostRequest) : Handling :=
  match r.body with
  | .error reply => ⟨reply, entries, c, s⟩
  | .ok body =>
    match app.authenticate r with
    | .error reply => ⟨reply, entries, c, s⟩
    | .ok auditor =>
      let decision := app.auditors.allow entries (auditorKey auditor) clock.monotonic
      if decision.1.allowed then
        let o := s.submit env c app.signingKey ⟨auditor, body, r.key⟩ clock.utcNow clock.seconds
        ⟨submissionReply o.result, decision.2, o.conn, o.store⟩
      else
        ⟨.error 429 "rate_limited" "auditor submission rate limit exceeded"
          (some decision.1.retryAfter), decision.2, c, s⟩

end Application

/-! ## The process -/

/-- The process of the service with its database file, or the file alone while there is none. -/
structure Server where
  /-- The file and the stores on it: the store of the service is instance `0`. -/
  world : World
  network : FixedWindowLimiter.Entries
  auditors : FixedWindowLimiter.Entries
  /-- The value of the semaphore. -/
  slots : Nat
  /-- The number of the next request. -/
  next : Nat
  /-- The requests that wait for a slot. -/
  waiting : List Nat
  /-- The requests that have one. -/
  running : List Nat
  /-- The requests that a process left when it ended. -/
  dropped : List Nat
  /-- What was answered, and to which request. -/
  replies : List (Nat × Option Reply)

/-- The instance an event happens to. -/
def Event.instance : Event → Nat
  | .start i _ | .close i | .call i _ _ | .refresh i _ | .checkpoint i _ _ => i

/-- What happens to the service. -/
inductive HttpEvent where
  /-- A request from a network source reaches the middleware. -/
  | arrive (host : PyStr) (now : ℚ)
  /-- It gets a slot. -/
  | acquire (id : Nat)
  /-- It waited too long for one. -/
  | overload (id : Nat)
  /-- It is a submission whose body has ended. -/
  | submit (id : Nat) (request : PostRequest) (env : Env) (clock : SubmitClock)
  /-- It is another request, and is answered. -/
  | answer (id : Nat)
  /-- The process ends. -/
  | stop
  /-- The process is killed while it handles a submission, and does not answer it. -/
  | kill (id : Nat) (request : PostRequest) (env : Env) (clock : SubmitClock)
  /-- The process starts. -/
  | serve (env : OpenEnv)
  /-- The startup checkpoint is compared. -/
  | enforce (now : ℚ) (checkpoint : CheckpointView)
  /-- The background verifier makes a pass. -/
  | verify (env : RefreshEnv)
  /-- Something happens on the file, or to another store on it. -/
  | elsewhere (e : Event)

namespace Server

variable (app : Application P) (s : Server)

/-- A database file that no process serves. -/
def ofFile (db : Db) : Server := ⟨.ofFile db, [], [], 0, 0, [], [], [], []⟩

/-- A request is answered, and no more waited for. -/
def reply (id : Nat) (r : Option Reply) : Server := { s with replies := s.replies ++ [(id, r)] }

/-- A request gives its slot back. -/
def release (id : Nat) : Server :=
  { s with slots := s.slots + 1, running := s.running.erase id }

/-- The reply to a request of a network source that sends too many. -/
def networkLimited (retryAfter : Int) : Reply :=
  .error 429 "rate_limited" "network request rate limit exceeded" (some retryAfter)

/-- The reply to a request that gets no slot. -/
def overloaded : Reply :=
  .error 503 "overloaded" "registry concurrent request limit exceeded" (some 1)

/-- A submission is handled on the store of the service. -/
def handle (store : Store) (request : PostRequest) (env : Env) (clock : SubmitClock) :
    Server × Reply :=
  let o := app.submit env clock s.auditors (s.world.conn 0) store request
  ({ s with world := s.world.leave 0 o.conn (some o.store), auditors := o.auditors }, o.reply)

variable (P) in
/-- The process ends, and leaves its requests. -/
def halt : Server :=
  { s with
    world := s.world.step P (.close 0), waiting := [], running := []
    dropped := s.dropped ++ (s.waiting ++ s.running) }

/-- The service after an event. -/
def step : HttpEvent → Server
  | .arrive host now =>
    if (s.world.stores 0).isSome then
      let decision := app.network.allow s.network (py "network:" ++ host) now
      let seen := { s with network := decision.2, next := s.next + 1 }
      if decision.1.allowed then { seen with waiting := s.waiting ++ [s.next] }
      else seen.reply s.next (some (networkLimited decision.1.retryAfter))
    else s
  | .acquire id =>
    if id ∈ s.waiting ∧ 0 < s.slots then
      { s with slots := s.slots - 1, waiting := s.waiting.erase id, running := s.running ++ [id] }
    else s
  | .overload id =>
    if id ∈ s.waiting then
      { s with waiting := s.waiting.erase id }.reply id (some overloaded)
    else s
  | .submit id request env clock =>
    match s.world.stores 0 with
    | some store =>
      if id ∈ s.running then
        let handled := s.handle app store request env clock
        (handled.1.release id).reply id (some handled.2)
      else s
    | none => s
  | .answer id => if id ∈ s.running then (s.release id).reply id none else s
  | .stop => s.halt P
  | .kill id request env clock =>
    match s.world.stores 0 with
    | some store => if id ∈ s.running then (s.handle app store request env clock).1.halt P else s
    | none => s
  | .serve env =>
    match s.world.stores 0 with
    | some _ => s
    | none =>
      { s with
        world := s.world.step P (.start 0 env), network := [], auditors := []
        slots := app.maxConcurrentRequests }
  | .enforce now checkpoint => { s with world := s.world.step P (.checkpoint 0 now checkpoint) }
  | .verify env => { s with world := s.world.step P (.refresh 0 env) }
  | .elsewhere e => if e.instance = 0 then s else { s with world := s.world.step P e }

/-- The service after some events. -/
def run (s : Server) : List HttpEvent → Server
  | [] => s
  | e :: es => run (s.step app e) es

end Server

/-! ## Submissions as calls -/

/-- An outcome, what it returns replaced. -/
def Outcome.map {α β : Type} (f : α → β) (o : Outcome α) : Outcome β :=
  ⟨o.result.map f, o.conn, o.store⟩

/-- What the body of a transaction returns does not matter to the rest. -/
theorem transact_map {α β : Type} (env : Env) (c : Conn) (s : Store) (f : α → β)
    (body : StoreTx (α × Option LogEntry)) :
    transact env c s (do let r ← body; return (f r.1, r.2)) = (transact env c s body).map f := by
  rw [transact, transact]
  cases beginImmediate env c with
  | some e => rfl
  | none =>
    dsimp only
    cases hbody : body (fun n => (env.faults n).map Fault.abort) 0 c.disk with
    | error a =>
      rw [Tx.bind_of_error hbody]
      rfl
    | ok r =>
      rw [Tx.bind_of_ok hbody]
      cases env.commit <;> rfl

/-- `append` is a call. -/
theorem perform_append (env : Env) (c : Conn) (s : Store) (record : Record) (createdAt : PyStr) :
    s.perform P env c (.append record createdAt) =
      (s.append P env c record.members createdAt).map Response.entry := by
  rw [Store.append, ← transact_map]
  simp only [Store.perform, Call.check, Call.body, bind_assoc, pure_bind]

/-- `append_idempotent` is a call. -/
theorem perform_appendIdempotent (env : Env) (c : Conn) (s : Store) (record : Record)
    (auditorId key bodySha256 createdAt : PyStr) (now ttlSeconds : Int) :
    s.perform P env c (.appendIdempotent record auditorId key bodySha256 createdAt now ttlSeconds) =
      (s.appendIdempotent P env c record.members auditorId key bodySha256 createdAt now
        ttlSeconds).map fun r => .submission r.1 r.2 := by
  rw [Store.appendIdempotent, Store.perform, Call.check]
  cases checkIdempotent auditorId key bodySha256 ttlSeconds with
  | error e => rfl
  | ok u =>
    dsimp only
    rw [← transact_map]
    simp only [Call.body, bind_assoc]

/-- How a submission runs: it is refused before the store is called, or it is a call. -/
inductive SubmitRun (env : Env) (c : Conn) (s : Store) (key : SigningKey P) (request : Submission)
    (utcNow : Timestamp) (now : Int) : Outcome (Nat × Dict) → Prop
  | refused (e : PyErr) : SubmitRun env c s key request utcNow now ⟨.error e, c, s⟩
  | append {original : Dict} {record : Record} {o : Outcome LogEntry}
      (blank : request.idempotencyKey = [])
      (accepted : acceptSubmission key request.auditor request.body =
        .ok (original, record.members))
      (run : s.perform P env c (.append record utcNow.text) = o.map Response.entry) :
      SubmitRun env c s key request utcNow now
        ⟨(o.result.mapError nonAppendable).map fun entry => (201, StoreTx.response entry),
          o.conn, o.store⟩
  | keyed {original : Dict} {record : Record} {digest : PyStr} {o : Outcome (Dict × Bool)}
      (form : isIdempotencyKey request.idempotencyKey = true)
      (accepted : acceptSubmission key request.auditor request.body =
        .ok (original, record.members))
      (digested : bodyDigest P original = .ok digest)
      (run : s.perform P env c (.appendIdempotent record request.auditor.auditorId
        request.idempotencyKey digest utcNow.text now idempotencyTtlSeconds) =
          o.map fun r => .submission r.1 r.2) :
      SubmitRun env c s key request utcNow now
        ⟨(o.result.mapError idempotencyRefused).map fun r => (if r.2 then 200 else 201, r.1),
          o.conn, o.store⟩

theorem submit_run (env : Env) (c : Conn) (s : Store) (key : SigningKey P) (request : Submission)
    (utcNow : Timestamp) (now : Int) :
    SubmitRun env c s key request utcNow now (s.submit env c key request utcNow now) := by
  rw [Store.submit]
  cases haccept : acceptSubmission key request.auditor request.body with
  | error e => exact .refused e
  | ok accepted =>
    obtain ⟨original, countersigned⟩ := accepted
    obtain ⟨record, rfl, -, -⟩ := exists_countersignedRecord haccept
    dsimp only
    split_ifs with hkey hform
    · exact .append hkey haccept (perform_append env c s record utcNow.text)
    · cases hdigest : bodyDigest P original with
      | error e => exact .refused e
      | ok digest =>
        exact .keyed hform haccept hdigest (perform_appendIdempotent env c s record _ _ _ _ _ _)
    · exact .refused _

/-! ## What is acknowledged -/

/-- What an acknowledgement stands for: the request carries the token of a registered auditor
    and a record that verifies under the key of the auditor, and the row of the log is this
    record, countersigned for the auditor. -/
inductive Acknowledges (app : Application P) (r : PostRequest) (clock : SubmitClock) :
    Dict → LogRow → Prop
  | intro {token : PyStr} {a : Auth.Auditor} {body : Bytes} {record : Dict} {entry : LogEntry}
      (bearer : r.token = some token)
      (resolved : Auth.resolve P app.tokens token = .ok (some a))
      (received : r.body = .ok body)
      (recorded : readRecord P body = .ok record)
      (verified : verifySigned P a.publicPinned record = true)
      (countersigned : countersign app.signingKey a.auditorId record = .ok entry.record) :
      Acknowledges app r clock (StoreTx.response entry) (entry.row clock.utcNow.text)

/-- The reply is an error. -/
def Reply.Refuses (reply : Reply) : Prop := ∀ status payload, reply ≠ .success status payload

theorem Reply.error_refuses (status : Nat) (code message : String) (retryAfter : Option Int) :
    (Reply.error status code message retryAfter).Refuses := fun _ _ h => by cases h

theorem exceptionReply_refuses (e : PyErr) : (exceptionReply e).Refuses := by
  cases e <;> exact Reply.error_refuses _ _ _ _

theorem submissionReply_eq_success {x : Except PyErr (Nat × Dict)} {status : Nat} {payload : Dict} :
    submissionReply x = .success status payload ↔
      x = .ok (status, payload) ∧ (payload.get? (py "seq")).isSome = true := by
  cases x with
  | error e => exact ⟨fun h => absurd h (exceptionReply_refuses e _ _), fun h => by cases h.1⟩
  | ok answer =>
    obtain ⟨status', payload'⟩ := answer
    rw [submissionReply]
    split_ifs with hseq
    · constructor
      · intro h
        obtain ⟨rfl, rfl⟩ := Reply.success.inj h
        exact ⟨rfl, hseq⟩
      · rintro ⟨h, -⟩
        obtain ⟨rfl, rfl⟩ := Prod.mk.inj (Except.ok.inj h)
        rfl
    · constructor
      · intro h
        cases h
      · rintro ⟨h, hs⟩
        obtain ⟨rfl, rfl⟩ := Prod.mk.inj (Except.ok.inj h)
        exact absurd hs hseq

theorem seq_response (entry : LogEntry) :
    ((StoreTx.response entry).get? (py "seq")).isSome = true := rfl

/-- A submission is answered 201 when its record is appended, and otherwise leaves the log as
    it was. -/
theorem SubmitRun.log {env : Env} {c : Conn} {s : Store} {key : SigningKey P} {request : Submission}
    {utcNow : Timestamp} {now : Int} {o : Outcome (Nat × Dict)}
    (h : SubmitRun env c s key request utcNow now o) :
    (∃ original entry,
      acceptSubmission key request.auditor request.body = .ok (original, entry.record) ∧
      o.result = .ok (201, StoreTx.response entry) ∧
      o.conn.disk.log.rows = c.disk.log.rows ++ [entry.row utcNow.text]) ∨
    (∀ payload, o.result ≠ .ok (201, payload)) ∧ o.conn.disk.log.rows = c.disk.log.rows := by
  cases h with
  | refused e => exact .inr ⟨fun _ h => (by cases h), rfl⟩
  | @append original record o blank accepted run =>
    have hdone := perform_performed (P := P) env c s (.append record utcNow.text)
    rw [run] at hdone
    obtain ⟨result, conn, store⟩ := o
    cases result with
    | error e =>
      refine .inr ⟨fun _ h => (by cases h), ?_⟩
      cases hdone <;> rfl
    | ok entry =>
      cases hdone with
      | done _ _ _ _ _ performs =>
        cases performs with
        | append appended =>
          exact .inl ⟨original, entry, appended.recorded ▸ accepted, rfl, appended.row_eq⟩
  | @keyed original record digest o form accepted digested run =>
    have hdone := perform_performed (P := P) env c s (.appendIdempotent record
      request.auditor.auditorId request.idempotencyKey digest utcNow.text now idempotencyTtlSeconds)
    rw [run] at hdone
    obtain ⟨result, conn, store⟩ := o
    cases result with
    | error e =>
      refine .inr ⟨fun _ h => (by cases h), ?_⟩
      cases hdone <;> rfl
    | ok answer =>
      obtain ⟨response, replayed⟩ := answer
      cases hdone with
      | done _ _ _ _ _ performs =>
        cases performs with
        | replay => exact .inr ⟨fun _ h => (by cases (Prod.mk.inj (Except.ok.inj h)).1), rfl⟩
        | submit _ _ _ appended =>
          exact .inl ⟨original, _, appended.recorded ▸ accepted, rfl, appended.row_eq⟩

namespace PostRequest

theorem checkMedia_refuses {r : PostRequest} {reply : Reply} (h : r.checkMedia = .error reply) :
    reply.Refuses := by
  rw [checkMedia] at h
  dsimp only at h
  split_ifs at h <;> exact Except.error.inj h ▸ Reply.error_refuses _ _ _ _

theorem checkLength_refuses {r : PostRequest} {reply : Reply} (h : r.checkLength = .error reply) :
    reply.Refuses := by
  rw [checkLength] at h
  split_ifs at h
  split at h
  · exact Except.error.inj h ▸ exceptionReply_refuses _
  · split_ifs at h
    exact Except.error.inj h ▸ Reply.error_refuses _ _ _ _

theorem readRequestBody_refuses {limit : Nat} {bodyEnd : BodyEnd} {chunks : List Bytes}
    {received : Bytes} {reply : Reply}
    (h : readRequestBody limit bodyEnd received chunks = .error reply) : reply.Refuses := by
  induction chunks generalizing received with
  | nil =>
    cases bodyEnd with
    | complete => cases h
    | deadline | disconnected => exact Except.error.inj h ▸ Reply.error_refuses _ _ _ _
  | cons chunk chunks ih =>
    rw [readRequestBody] at h
    split_ifs at h
    · exact Except.error.inj h ▸ Reply.error_refuses _ _ _ _
    · exact ih h

theorem body_refuses {r : PostRequest} {reply : Reply} (h : r.body = .error reply) :
    reply.Refuses := by
  rw [body] at h
  cases hmedia : r.checkMedia with
  | error e =>
    rw [hmedia] at h
    exact Except.error.inj h ▸ checkMedia_refuses hmedia
  | ok u =>
    rw [hmedia] at h
    cases hlength : r.checkLength with
    | error e =>
      rw [hlength] at h
      exact Except.error.inj h ▸ checkLength_refuses hlength
    | ok u =>
      rw [hlength] at h
      exact readRequestBody_refuses h

end PostRequest

namespace Application

variable {app : Application P}

theorem resolve_eq_some {token : PyStr} {auditor : Auditor}
    (h : app.resolve token = .ok (some auditor)) : ∃ (a : Auth.Auditor) (ha : a ∈ app.tokens),
      Auth.resolve P app.tokens token = .ok (some a) ∧ auditor = app.auditor a ha := by
  rw [resolve] at h
  split at h
  · cases h
  · cases Except.ok.inj h
  · rename_i a ha
    exact ⟨a, Auth.mem_of_resolve ha, ha, (Option.some.inj (Except.ok.inj h)).symm⟩

theorem authenticate_of_resolve {r : PostRequest} {token : PyStr} {a : Auth.Auditor}
    (htoken : r.token = some token) (h : Auth.resolve P app.tokens token = .ok (some a)) :
    app.authenticate r = .ok (app.auditor a (Auth.mem_of_resolve h)) := by
  have hresolve : app.resolve token = .ok (some (app.auditor a (Auth.mem_of_resolve h))) := by
    rw [resolve]
    split
    · rename_i hfound
      cases h.symm.trans hfound
    · rename_i hfound
      cases h.symm.trans hfound
    · rename_i b hfound
      obtain rfl := Option.some.inj (Except.ok.inj (h.symm.trans hfound))
      rfl
  rw [authenticate, htoken]
  dsimp only
  rw [hresolve]

theorem authenticate_refuses {r : PostRequest} {reply : Reply}
    (h : app.authenticate r = .error reply) : reply.Refuses := by
  rw [authenticate] at h
  split at h
  · exact Except.error.inj h ▸ Reply.error_refuses _ _ _ _
  · split at h
    · exact Except.error.inj h ▸ exceptionReply_refuses _
    · exact Except.error.inj h ▸ Reply.error_refuses _ _ _ _
    · cases h

theorem authenticate_eq_ok {r : PostRequest} {auditor : Auditor}
    (h : app.authenticate r = .ok auditor) :
    ∃ token, r.token = some token ∧ app.resolve token = .ok (some auditor) := by
  rw [authenticate] at h
  cases htoken : r.token with
  | none =>
    rw [htoken] at h
    cases h
  | some token =>
    rw [htoken] at h
    refine ⟨token, rfl, ?_⟩
    dsimp only at h
    cases hresolve : app.resolve token with
    | error e =>
      rw [hresolve] at h
      cases h
    | ok found =>
      rw [hresolve] at h
      cases found with
      | none => cases h
      | some found => exact congrArg (fun a => Except.ok (some a)) (Except.ok.inj h)

/-- How a submission is handled: it is answered before the store is called, or by the store. -/
theorem submit_cases (app : Application P) (env : Env) (clock : SubmitClock)
    (entries : FixedWindowLimiter.Entries) (c : Conn) (s : Store) (r : PostRequest) :
    (∃ reply table, app.submit env clock entries c s r = ⟨reply, table, c, s⟩ ∧ reply.Refuses) ∨
    ∃ body auditor table o, r.body = .ok body ∧ app.authenticate r = .ok auditor ∧
      SubmitRun env c s app.signingKey ⟨auditor, body, r.key⟩ clock.utcNow clock.seconds o ∧
      app.submit env clock entries c s r = ⟨submissionReply o.result, table, o.conn, o.store⟩ := by
  rw [submit]
  cases hbody : r.body with
  | error reply => exact .inl ⟨reply, entries, rfl, PostRequest.body_refuses hbody⟩
  | ok body =>
    cases hauth : app.authenticate r with
    | error reply => exact .inl ⟨reply, entries, rfl, authenticate_refuses hauth⟩
    | ok auditor =>
      dsimp only
      split_ifs
      · exact .inr ⟨body, auditor, _, _, rfl, rfl, submit_run _ _ _ _ _ _ _, rfl⟩
      · exact .inl ⟨_, _, rfl, fun _ _ => Reply.noConfusion⟩

end Application

/-! ## Slots -/

namespace Server

variable {app : Application P} {s : Server}

/-- The requests that were answered. -/
def answered (s : Server) : List Nat := s.replies.map Prod.fst

/-- The books of the process: the slots of the semaphore that are not free are those of the
    requests that run, no request is left of a process that ended, and every request is in one
    place. -/
structure Balanced (app : Application P) (s : Server) : Prop where
  slots : (s.world.stores 0).isSome → s.slots + s.running.length = app.maxConcurrentRequests
  idle : s.world.stores 0 = none → s.waiting = [] ∧ s.running = []
  placed : (s.waiting ++ s.running ++ s.dropped ++ s.answered).Perm (List.range s.next)

theorem isSome_leave {w : World} {i : Nat} {c : Conn} {store : Store} :
    ((w.leave i c (some store)).stores i).isSome = true := by
  simp only [World.leave, Function.update_self, Option.isSome_some]

theorem stores_step_of_ne {w : World} {e : Event} {i : Nat} (h : e.instance ≠ i) :
    (w.step P e).stores i = w.stores i := by
  have hne {j : Nat} (hj : j ≠ i) (c : Conn) (o : Option Store) :
      (w.leave j c o).stores i = w.stores i := Function.update_of_ne hj.symm _ _
  cases e with
  | close j => exact hne h _ _
  | start j env | call j env call | refresh j env | checkpoint j now checkpoint =>
    rw [World.step]
    split
    · first
        | rfl
        | exact hne h _ _
    · first
        | rfl
        | exact hne h _ _

namespace Balanced

/-- Only whether the service has its store matters of the world. -/
theorem world (h : s.Balanced app) {w : World}
    (hw : (w.stores 0).isSome = (s.world.stores 0).isSome) :
    ({ s with world := w } : Server).Balanced app where
  slots hs := h.slots (hw ▸ hs)
  idle hn := h.idle (Option.not_isSome_iff_eq_none.1 fun hs => by
    rw [← hw, show w.stores 0 = none from hn] at hs
    cases hs)
  placed := h.placed

/-- A request that runs gives its slot back, and is answered. -/
theorem finish (h : s.Balanced app) {id : Nat} (hid : id ∈ s.running)
    (hs : (s.world.stores 0).isSome) (reply : Option Reply) :
    ((s.release id).reply id reply).Balanced app where
  slots _ := by
    have := h.slots hs
    have := List.length_erase_of_mem hid
    have := List.length_pos_of_mem hid
    change s.slots + 1 + (s.running.erase id).length = _
    omega
  idle hn := by
    rw [show s.world.stores 0 = none from hn] at hs
    cases hs
  placed := by
    refine .trans ?_ h.placed
    have herase := List.perm_cons_erase hid
    change (s.waiting ++ s.running.erase id ++ s.dropped ++ (s.replies ++ [(id, reply)]).map _).Perm _
    rw [List.perm_iff_count] at herase ⊢
    intro a
    have := herase a
    simp only [answered, List.map_append, List.map_cons, List.map_nil, List.count_append,
      List.count_cons, List.count_nil] at this ⊢
    omega

end Balanced

/-- A submission is handled with the books as they are. -/
theorem handle_balanced (h : s.Balanced app) {store : Store} (hs : s.world.stores 0 = some store)
    (request : PostRequest) (env : Env) (clock : SubmitClock) :
    (s.handle app store request env clock).1.Balanced app := by
  rw [handle]
  have hleft := h.world (w := s.world.leave 0
      (app.submit env clock s.auditors (s.world.conn 0) store request).conn
      (some (app.submit env clock s.auditors (s.world.conn 0) store request).store))
    (isSome_leave.trans (by rw [hs]; rfl))
  exact ⟨hleft.slots, hleft.idle, hleft.placed⟩

/-- A process that ends drops the requests it holds. -/
theorem halt_balanced (h : s.Balanced app) : (s.halt P).Balanced app := by
  refine ⟨fun hs => ?_, fun _ => ⟨rfl, rfl⟩, .trans ?_ h.placed⟩
  · change ((s.world.step P (.close 0)).stores 0).isSome = true at hs
    rw [World.step, World.leave] at hs
    simp only [Function.update_self] at hs
    cases hs
  · rw [List.perm_iff_count]
    intro a
    simp only [halt, answered, List.count_append, List.count_nil]
    omega

/-- Every event keeps the books. -/
theorem step_balanced (h : s.Balanced app) (e : HttpEvent) : (s.step app e).Balanced app := by
  cases e with
  | arrive host now =>
    rw [step]
    split_ifs with hs
    · -- the new request waits, or is answered at once
      have hplaced {l : List Nat} (hl : l.Perm (s.waiting ++ s.running ++ s.dropped ++ s.answered ++
          [s.next])) : l.Perm (List.range (s.next + 1)) :=
        hl.trans (List.range_succ ▸ h.placed.append_right _)
      dsimp only
      split_ifs
      · refine ⟨h.slots, fun hn => absurd hs (Option.not_isSome_iff_eq_none.2 hn), hplaced ?_⟩
        rw [List.perm_iff_count]
        intro a
        simp only [answered, List.count_append]
        omega
      · refine ⟨h.slots, fun hn => absurd hs (Option.not_isSome_iff_eq_none.2 hn), hplaced ?_⟩
        rw [List.perm_iff_count]
        intro a
        simp only [answered, reply, List.map_append, List.map_cons, List.map_nil,
          List.count_append]
        omega
    · exact h
  | acquire id =>
    rw [step]
    split_ifs with hid
    · refine ⟨fun hs => ?_, fun hn => ?_, .trans ?_ h.placed⟩
      · have := h.slots hs
        have := hid.2
        change s.slots - 1 + (s.running ++ [id]).length = _
        rw [List.length_append, List.length_singleton]
        omega
      · rw [(h.idle hn).1] at hid
        cases hid.1
      · have herase := List.perm_cons_erase hid.1
        rw [List.perm_iff_count] at herase ⊢
        intro a
        have := herase a
        simp only [answered, List.count_append, List.count_cons, List.count_nil] at this ⊢
        omega
    · exact h
  | overload id =>
    rw [step]
    split_ifs with hid
    · refine ⟨h.slots, fun hn => ?_, .trans ?_ h.placed⟩
      · rw [(h.idle hn).1] at hid
        cases hid
      · have herase := List.perm_cons_erase hid
        rw [List.perm_iff_count] at herase ⊢
        intro a
        have := herase a
        simp only [answered, reply, List.map_append, List.map_cons, List.map_nil,
          List.count_append, List.count_cons, List.count_nil] at this ⊢
        omega
    · exact h
  | submit id request env clock =>
    rw [step]
    cases hs : s.world.stores 0 with
    | none => exact h
    | some store =>
      dsimp only
      split_ifs with hid
      · exact (handle_balanced h hs request env clock).finish hid isSome_leave _
      · exact h
  | answer id =>
    rw [step]
    split_ifs with hid
    · cases hs : s.world.stores 0 with
      | none =>
        rw [(h.idle hs).2] at hid
        cases hid
      | some store => exact h.finish hid (hs ▸ rfl) none
    · exact h
  | stop => exact halt_balanced h
  | kill id request env clock =>
    rw [step]
    cases hs : s.world.stores 0 with
    | none => exact h
    | some store =>
      dsimp only
      split_ifs
      · exact halt_balanced (handle_balanced h hs request env clock)
      · exact h
  | serve env =>
    rw [step]
    cases hs : s.world.stores 0 with
    | some store => exact h
    | none =>
      obtain ⟨hwaiting, hrunning⟩ := h.idle hs
      refine ⟨fun _ => ?_, fun _ => ⟨hwaiting, hrunning⟩, h.placed⟩
      change app.maxConcurrentRequests + s.running.length = _
      rw [hrunning]
      rfl
  | verify env =>
    refine h.world ?_
    rw [World.step]
    cases hs : s.world.stores 0 with
    | none => rw [hs]
    | some store => exact isSome_leave
  | enforce now checkpoint =>
    refine h.world ?_
    rw [World.step]
    cases hs : s.world.stores 0 with
    | none => rw [hs]
    | some store => exact isSome_leave
  | elsewhere e =>
    rw [step]
    split_ifs with he
    · exact h
    · exact h.world (by rw [stores_step_of_ne he])

theorem run_balanced (h : s.Balanced app) (es : List HttpEvent) : (s.run app es).Balanced app := by
  induction es generalizing s with
  | nil => exact h
  | cons e es ih => exact ih (step_balanced h e)

theorem ofFile_balanced (app : Application P) (db : Db) : (ofFile db).Balanced app :=
  ⟨fun h => (by cases h), fun _ => ⟨rfl, rfl⟩, .refl _⟩

/-- In every run of the service on a file, whatever requests come, are refused, fail or time out
    and wherever it ends and starts again: the slots that are not free are those of the requests
    that run, so that no more run at once than may; and every request that came is waiting,
    running, answered or left by a process that ended, and only one of these, once. -/
theorem requests_balanced (app : Application P) (db : Db) (es : List HttpEvent) :
    let s := (ofFile db).run app es
    ((s.world.stores 0).isSome → s.slots + s.running.length = app.maxConcurrentRequests) ∧
    s.running.length ≤ app.maxConcurrentRequests ∧
    (s.waiting ++ s.running ++ s.dropped ++ s.answered).Perm (List.range s.next) ∧
    s.answered.Nodup ∧ ∀ id ∈ s.answered, id ∉ s.waiting ∧ id ∉ s.running ∧ id ∉ s.dropped := by
  intro s
  have h : s.Balanced app := run_balanced (ofFile_balanced app db) es
  have hnodup := h.placed.nodup_iff.2 List.nodup_range
  obtain ⟨-, hanswered, hdisjoint⟩ := List.nodup_append.1 hnodup
  refine ⟨h.slots, ?_, h.placed, hanswered, fun id hid => ?_⟩
  · cases hs : s.world.stores 0 with
    | none =>
      rw [(h.idle hs).2]
      exact Nat.zero_le _
    | some store =>
      have := h.slots (hs ▸ rfl)
      omega
  · simp only [← not_or]
    intro hmem
    refine hdisjoint id ?_ id hid rfl
    simp only [List.mem_append]
    tauto

/-! ## The log -/

variable (app s) in
/-- What is answered at an event. -/
def answers (e : HttpEvent) : List (Nat × Option Reply) := (s.step app e).replies.drop s.replies.length

/-- A record was appended at an event, and its request was told so. -/
def Appends (answers : List (Nat × Option Reply)) : Prop :=
  ∃ id payload, (id, some (.success 201 payload)) ∈ answers

/-- The rows of the log that an event accounts for: the one of a submission that is answered
    201, or that the process was about to answer so, or those of a call elsewhere. -/
inductive Accounts (app : Application P) (s : Server) : HttpEvent → List LogRow → Prop
  | acknowledged {id : Nat} {request : PostRequest} {env : Env} {clock : SubmitClock}
      {payload : Dict} {row : LogRow}
      (answered : s.answers app (.submit id request env clock) =
        [(id, some (.success 201 payload))])
      (acknowledges : Acknowledges app request clock payload row) :
      Accounts app s (.submit id request env clock) [row]
  | killed {id : Nat} {request : PostRequest} {env : Env} {clock : SubmitClock} {payload : Dict}
      {row : LogRow} (acknowledges : Acknowledges app request clock payload row) :
      Accounts app s (.kill id request env clock) [row]
  | quiet {e : HttpEvent} (unanswered : ¬Appends (s.answers app e)) : Accounts app s e []
  | elsewhere {i : Nat} {env : Env} {call : Call} (rows : List LogRow) (other : i ≠ 0) :
      Accounts app s (.elsewhere (.call i env call)) rows

variable (app) in
/-- The events of a run, each with the service before it. -/
def trace (s : Server) : List HttpEvent → List (Server × HttpEvent)
  | [] => []
  | e :: es => (s, e) :: trace (s.step app e) es

/-- Nothing is answered where the replies stay as they are. -/
theorem not_appends_of_eq {e : HttpEvent} (h : (s.step app e).replies = s.replies) :
    ¬Appends (s.answers app e) := by
  rintro ⟨id, payload, hmem⟩
  rw [answers, h, List.drop_length] at hmem
  cases hmem

theorem not_appends_of_concat {e : HttpEvent} {id : Nat} {reply : Option Reply}
    (h : (s.step app e).replies = s.replies ++ [(id, reply)])
    (hr : ∀ payload, reply ≠ some (.success 201 payload)) : ¬Appends (s.answers app e) := by
  rintro ⟨id', payload, hmem⟩
  rw [answers, h, List.drop_left, List.mem_singleton] at hmem
  exact hr payload (Prod.mk.inj hmem).2.symm

/-- A submission finds no service, or is handled and answered. -/
theorem submit_step (app : Application P) (s : Server) (id : Nat) (r : PostRequest) (env : Env)
    (clock : SubmitClock) :
    (s.step app (.submit id r env clock) = s ∧ ¬(id ∈ s.running ∧ (s.world.stores 0).isSome)) ∨
    ∃ store, s.world.stores 0 = some store ∧
      (s.step app (.submit id r env clock)).world = (s.handle app store r env clock).1.world ∧
      (s.step app (.submit id r env clock)).replies =
        s.replies ++ [(id, some (s.handle app store r env clock).2)] := by
  rw [step]
  cases hs : s.world.stores 0 with
  | none => exact .inl ⟨rfl, fun h => by cases h.2⟩
  | some store =>
    dsimp only
    split_ifs with hid
    · exact .inr ⟨store, rfl, rfl, rfl⟩
    · exact .inl ⟨rfl, fun h => hid h.1⟩

/-- A submission that is handled is answered 201 when its record is in the log, and otherwise
    leaves the log as it was. -/
theorem handle_accounted (s : Server) (store : Store) (r : PostRequest) (env : Env)
    (clock : SubmitClock) :
    (∃ payload row, (s.handle app store r env clock).2 = .success 201 payload ∧
      Acknowledges app r clock payload row ∧
      (s.handle app store r env clock).1.world.disk.log.rows = s.world.disk.log.rows ++ [row]) ∨
    (∀ payload, (s.handle app store r env clock).2 ≠ .success 201 payload) ∧
      (s.handle app store r env clock).1.world.disk.log.rows = s.world.disk.log.rows := by
  rw [handle]
  rcases app.submit_cases env clock s.auditors (s.world.conn 0) store r with
    ⟨reply, table, heq, hrefuses⟩ | ⟨body, auditor, table, o, hbody, hauth, hrun, heq⟩
  · rw [heq]
    exact .inr ⟨hrefuses 201, rfl⟩
  · rw [heq]
    rcases hrun.log with ⟨original, entry, haccept, hresult, hlog⟩ | ⟨hresult, hlog⟩
    · obtain ⟨token, htoken, hresolve⟩ := Application.authenticate_eq_ok hauth
      obtain ⟨a, ha, hfound, rfl⟩ := Application.resolve_eq_some hresolve
      obtain ⟨hread, hverified, hsigned⟩ := acceptSubmission_eq_ok.1 haccept
      exact .inl ⟨_, _, submissionReply_eq_success.2 ⟨hresult, seq_response entry⟩,
        .intro htoken hfound hbody hread hverified hsigned, hlog⟩
    · exact .inr ⟨fun payload h => hresult payload (submissionReply_eq_success.1 h).1, hlog⟩

/-- What an event on the file leaves of the log, where it is no call. -/
theorem log_step {w : World} {e : Event} (h : ∀ i env call, e ≠ .call i env call) :
    (w.step P e).disk.log = w.disk.log := by
  have heffect := w.step_effect (P := P) e
  generalize (w.step P e).disk = db at heffect
  cases heffect with
  | same => rfl
  | started => exact (openStore_kept _ _ _).log
  | called => exact absurd rfl (h _ _ _)

/-- Every event accounts for the rows it adds to the log. -/
theorem step_accounted (app : Application P) (s : Server) (e : HttpEvent) : ∃ rows,
    (s.step app e).world.disk.log.rows = s.world.disk.log.rows ++ rows ∧ Accounts app s e rows := by
  have hquiet (hlog : (s.step app e).world.disk.log.rows = s.world.disk.log.rows)
      (hno : ¬Appends (s.answers app e)) : ∃ rows,
      (s.step app e).world.disk.log.rows = s.world.disk.log.rows ++ rows ∧ Accounts app s e rows :=
    ⟨[], hlog.trans (List.append_nil _).symm, .quiet hno⟩
  have hsame (hstep : s.step app e = s) := hquiet (by rw [hstep]) (not_appends_of_eq (by rw [hstep]))
  cases e with
  | submit id request env clock =>
    rcases submit_step app s id request env clock with ⟨hstep, -⟩ | ⟨store, -, hworld, hreplies⟩
    · exact hsame hstep
    · rcases handle_accounted s store request env clock with
        ⟨payload, row, hreply, hack, hlog⟩ | ⟨hreply, hlog⟩
      · rw [hreply] at hreplies
        refine ⟨[row], by rw [hworld]; exact hlog, .acknowledged ?_ hack⟩
        rw [answers, hreplies, List.drop_left]
      · exact hquiet (by rw [hworld]; exact hlog)
          (not_appends_of_concat hreplies fun payload h => hreply payload (Option.some.inj h))
  | kill id request env clock =>
    cases hs : s.world.stores 0 with
    | none => exact hsame (by rw [step, hs])
    | some store =>
      by_cases hid : id ∈ s.running
      · have hstep : s.step app (.kill id request env clock) =
            (s.handle app store request env clock).1.halt P := by
          rw [step, hs]
          exact if_pos hid
        rcases handle_accounted s store request env clock with
          ⟨payload, row, -, hack, hlog⟩ | ⟨-, hlog⟩
        · exact ⟨[row], (congrArg (·.world.disk.log.rows) hstep).trans hlog, .killed hack⟩
        · exact hquiet ((congrArg (·.world.disk.log.rows) hstep).trans hlog)
            (not_appends_of_eq (by rw [hstep]; rfl))
      · refine hsame ?_
        rw [step, hs]
        exact if_neg hid
  | elsewhere e =>
    have hreplies : (s.step app (.elsewhere e)).replies = s.replies := by
      rw [step]
      split_ifs <;> rfl
    by_cases he : e.instance = 0
    · exact hquiet (by rw [step, if_pos he]) (not_appends_of_eq hreplies)
    · have hworld : (s.step app (.elsewhere e)).world = s.world.step P e := by rw [step, if_neg he]
      cases e with
      | call i env call =>
        rcases s.world.call_cases (P := P) i env call with ⟨r, db, hcommits⟩ | ⟨hdisk, -⟩
        · obtain ⟨published, hperf⟩ := hcommits.performs
          obtain ⟨rows, hrows⟩ := hperf.log_rows
          exact ⟨_, by rw [hworld, hcommits.disk, hrows], .elsewhere _ he⟩
        · exact ⟨[], by rw [hworld, hdisk, List.append_nil], .elsewhere _ he⟩
      | start | close | refresh | checkpoint =>
        refine hquiet ?_ (not_appends_of_eq hreplies)
        rw [hworld, log_step fun _ _ _ h => by cases h]
  | arrive host now =>
    by_cases hs : (s.world.stores 0).isSome
    · by_cases hd : (app.network.allow s.network (py "network:" ++ host) now).1.allowed = true
      · have hstep : s.step app (.arrive host now) = _ := (if_pos hs).trans (if_pos hd)
        exact hquiet (by rw [hstep]) (not_appends_of_eq (by rw [hstep]))
      · have hstep : s.step app (.arrive host now) = _ := (if_pos hs).trans (if_neg hd)
        exact hquiet (by rw [hstep]; rfl) (not_appends_of_concat (by rw [hstep]; rfl)
          fun _ h => by cases h)
    · exact hsame (if_neg hs)
  | acquire id =>
    exact hquiet (by rw [step]; split_ifs <;> rfl)
      (not_appends_of_eq (by rw [step]; split_ifs <;> rfl))
  | overload id =>
    by_cases hid : id ∈ s.waiting
    · have hstep : s.step app (.overload id) = _ := if_pos hid
      exact hquiet (by rw [hstep]; rfl) (not_appends_of_concat (by rw [hstep]; rfl)
        fun _ h => by cases h)
    · exact hsame (if_neg hid)
  | answer id =>
    by_cases hid : id ∈ s.running
    · have hstep : s.step app (.answer id) = _ := if_pos hid
      exact hquiet (by rw [hstep]; rfl) (not_appends_of_concat (by rw [hstep]; rfl)
        fun _ h => by cases h)
    · exact hsame (if_neg hid)
  | serve env =>
    cases hs : s.world.stores 0 with
    | some store => exact hsame (by rw [step, hs])
    | none =>
      refine hquiet ?_ (not_appends_of_eq (by rw [step, hs]))
      rw [step, hs, log_step fun _ _ _ h => by cases h]
  | stop =>
    refine hquiet ?_ (not_appends_of_eq rfl)
    rw [step, halt, log_step fun _ _ _ h => by cases h]
  | verify env | enforce now checkpoint =>
    refine hquiet ?_ (not_appends_of_eq rfl)
    rw [step, log_step fun _ _ _ h => by cases h]

/-- In every run of the service, under every interleaving of its requests and whatever fails,
    the log grows by what its submissions acknowledge, in the order in which they are answered,
    by what a process that was killed was about to acknowledge, and by what is written elsewhere:
    a submission that is answered otherwise adds nothing. -/
theorem submissions_accounted (app : Application P) (s : Server) (es : List HttpEvent) :
    ∃ added : List (List LogRow),
      (s.run app es).world.disk.log.rows = s.world.disk.log.rows ++ added.flatten ∧
      List.Forall₂ (fun t rows => Accounts app t.1 t.2 rows) (s.trace app es) added := by
  induction es generalizing s with
  | nil => exact ⟨[], (List.append_nil _).symm, .nil⟩
  | cons e es ih =>
    obtain ⟨rows, hlog, haccounts⟩ := step_accounted app s e
    obtain ⟨added, hrest, htrace⟩ := ih (s.step app e)
    refine ⟨rows :: added, ?_, .cons haccounts htrace⟩
    rw [run, hrest, hlog, List.flatten_cons, List.append_assoc]

end Server

/-! ## Runs of the file -/

/-- The clock of the ledger at an event. -/
def HttpEvent.clock : HttpEvent → Option Int
  | .submit _ _ _ clock | .kill _ _ _ clock => some clock.seconds
  | .elsewhere e => e.clock
  | .arrive .. | .acquire _ | .overload _ | .answer _ | .stop | .serve _ | .enforce .. | .verify _ =>
    none

/-- An instance that leaves its connection and itself as they were leaves the world so. -/
theorem World.leave_self {w : World} {i : Nat} {s : Store} (h : w.stores i = some s) :
    w.leave i (w.conn i) (some s) = w := by
  have hholder := World.leave_holder (w := w) (i := i) (s := some s)
  obtain ⟨disk, holder, stores⟩ := w
  rw [World.leave] at hholder ⊢
  rw [World.mk.injEq]
  exact ⟨rfl, hholder, by rw [← h, Function.update_eq_self]⟩

/-- A submission leaves the world as it was, or as a call at its clock does. -/
theorem SubmitRun.world {w : World} {env : Env} {s : Store} (hs : w.stores 0 = some s)
    {key : SigningKey P} {request : Submission} {utcNow : Timestamp} {now : Int}
    {o : Outcome (Nat × Dict)} (h : SubmitRun env (w.conn 0) s key request utcNow now o) :
    w.leave 0 o.conn (some o.store) = w ∨ ∃ call : Call, (∀ t, call.clock = some t → t = now) ∧
      w.leave 0 o.conn (some o.store) = w.step P (.call 0 env call) := by
  have hcall {call : Call} {conn : Conn} {store : Store}
      (hrun : (s.perform P env (w.conn 0) call).conn = conn ∧
        (s.perform P env (w.conn 0) call).store = store) :
      w.leave 0 conn (some store) = w.step P (.call 0 env call) := by
    rw [World.step, World.perform, hs, Option.map_some, ← hrun.1, ← hrun.2]
  cases h with
  | refused e => exact .inl (World.leave_self hs)
  | @append original record o blank accepted run =>
    refine .inr ⟨.append record utcNow.text, fun t ht => (by cases ht), hcall ?_⟩
    rw [run]
    exact ⟨rfl, rfl⟩
  | @keyed original record digest o form accepted digested run =>
    refine .inr ⟨.appendIdempotent record request.auditor.auditorId request.idempotencyKey digest
      utcNow.text now idempotencyTtlSeconds, fun t ht => (Option.some.inj ht).symm, hcall ?_⟩
    rw [run]
    exact ⟨rfl, rfl⟩

variable (P) in
/-- One world comes of another by events whose clocks are among some. -/
def Simulates (w w' : World) (clocks : List Int) : Prop :=
  ∃ es, w' = w.run P es ∧ (es.filterMap Event.clock).Sublist clocks

namespace Simulates

variable {w w' w'' : World} {clocks clocks' : List Int}

theorem refl (w : World) (clocks : List Int) : Simulates P w w clocks :=
  ⟨[], rfl, List.nil_sublist _⟩

theorem trans (h : Simulates P w w' clocks) (h' : Simulates P w' w'' clocks') :
    Simulates P w w'' (clocks ++ clocks') := by
  obtain ⟨es, rfl, hclocks⟩ := h
  obtain ⟨es', rfl, hclocks'⟩ := h'
  refine ⟨es ++ es', (World.run_append _ _ _).symm, ?_⟩
  rw [List.filterMap_append]
  exact hclocks.append hclocks'

theorem step (w : World) (e : Event) : Simulates P w (w.step P e) e.clock.toList := by
  refine ⟨[e], rfl, ?_⟩
  cases hclock : e.clock <;> simp [hclock]

end Simulates

namespace Server

variable {app : Application P} {s : Server}

theorem handle_simulates {store : Store} (hs : s.world.stores 0 = some store)
    (request : PostRequest) (env : Env) (clock : SubmitClock) :
    Simulates P s.world (s.handle app store request env clock).1.world [clock.seconds] := by
  rw [handle]
  rcases app.submit_cases env clock s.auditors (s.world.conn 0) store request with
    ⟨reply, table, heq, -⟩ | ⟨body, auditor, table, o, -, -, hrun, heq⟩
  · rw [heq]
    dsimp only
    rw [World.leave_self hs]
    exact .refl _ _
  · rw [heq]
    dsimp only
    rcases hrun.world hs with hsame | ⟨call, hclock, hstep⟩
    · rw [hsame]
      exact .refl _ _
    · rw [hstep]
      refine ⟨[.call 0 env call], rfl, ?_⟩
      cases hc : call.clock with
      | none => simp [Event.clock, hc]
      | some t =>
        obtain rfl := hclock t hc
        simp [Event.clock, hc]

/-- The file sees an event of the service as events of its own. -/
theorem step_simulates (app : Application P) (s : Server) (e : HttpEvent) :
    Simulates P s.world (s.step app e).world e.clock.toList := by
  cases e with
  | submit id request env clock =>
    rw [step]
    cases hs : s.world.stores 0 with
    | none => exact .refl _ _
    | some store =>
      dsimp only
      split_ifs
      · exact handle_simulates hs request env clock
      · exact .refl _ _
  | kill id request env clock =>
    rw [step]
    cases hs : s.world.stores 0 with
    | none => exact .refl _ _
    | some store =>
      dsimp only
      split_ifs
      · exact (handle_simulates hs request env clock).trans (.step _ (.close 0))
      · exact .refl _ _
  | arrive host now =>
    rw [step]
    dsimp only
    split_ifs <;> exact .refl _ _
  | acquire id | overload id | answer id =>
    rw [step]
    split_ifs <;> exact .refl _ _
  | stop => exact .step _ (.close 0)
  | serve env =>
    rw [step]
    cases hs : s.world.stores 0 with
    | some store => exact .refl _ _
    | none => exact .step _ (.start 0 env)
  | enforce now checkpoint => exact .step _ (.checkpoint 0 now checkpoint)
  | verify env => exact .step _ (.refresh 0 env)
  | elsewhere e =>
    rw [step]
    split_ifs
    · exact .refl _ _
    · exact .step _ e

/-- The file sees a run of the service as a run of its own. -/
theorem run_simulates (app : Application P) (s : Server) (es : List HttpEvent) :
    Simulates P s.world (s.run app es).world (es.filterMap HttpEvent.clock) := by
  induction es generalizing s with
  | nil => exact .refl _ _
  | cons e es ih =>
    have h := (step_simulates app s e).trans (ih (s.step app e))
    rw [List.filterMap_cons]
    cases he : e.clock with
    | none =>
      rw [he] at h
      exact h
    | some t =>
      rw [he] at h
      exact h

end Server

/-! ## Sending a submission again -/

/-- The first submission under a key, where it appends. -/
theorem SubmitRun.first {env : Env} {c : Conn} {s : Store} {key : SigningKey P}
    {request : Submission} {utcNow : Timestamp} {now : Int} {o : Outcome (Nat × Dict)}
    (h : SubmitRun env c s key request utcNow now o) (hkey : request.idempotencyKey ≠ [])
    (hlog : o.conn.disk.log.rows ≠ c.disk.log.rows) :
    ∃ (original : Dict) (record : Record) (digest : PyStr) (entry : LogEntry),
      acceptSubmission key request.auditor request.body = .ok (original, record.members) ∧
      bodyDigest P original = .ok digest ∧ isIdempotencyKey request.idempotencyKey = true ∧
      s.perform P env c (.appendIdempotent record request.auditor.auditorId request.idempotencyKey
        digest utcNow.text now idempotencyTtlSeconds) =
          ⟨.ok (.submission (StoreTx.response entry) false), o.conn, o.store⟩ ∧
      o.result = .ok (201, StoreTx.response entry) := by
  cases h with
  | refused e => exact absurd rfl hlog
  | append blank => exact absurd blank hkey
  | @keyed original record digest o form accepted digested run =>
    have hdone := perform_performed (P := P) env c s (.appendIdempotent record
      request.auditor.auditorId request.idempotencyKey digest utcNow.text now idempotencyTtlSeconds)
    rw [run] at hdone
    obtain ⟨result, conn, store⟩ := o
    cases result with
    | error e => cases hdone <;> exact absurd rfl hlog
    | ok answer =>
      obtain ⟨response, replayed⟩ := answer
      cases hdone with
      | done _ _ _ _ _ performs =>
        cases performs with
        | replay => exact absurd rfl hlog
        | submit => exact ⟨original, record, digest, _, accepted, digested, form, run, rfl⟩

/-- A later submission under the key, where the ledger allows one answer: the only success is
    this answer. -/
theorem SubmitRun.again {w : World} {env : Env} {s : Store} (hs : w.stores 0 = some s)
    {key : SigningKey P} {request : Submission} {utcNow : Timestamp} {now : Int}
    {o : Outcome (Nat × Dict)} (h : SubmitRun env (w.conn 0) s key request utcNow now o)
    (hkey : request.idempotencyKey ≠ []) {digest : PyStr} {payload : Dict}
    (hledger : ∀ record digest' x, (w.perform P 0 env (.appendIdempotent record
      request.auditor.auditorId request.idempotencyKey digest' utcNow.text now
      idempotencyTtlSeconds)).map (·.result) = some (.ok x) →
        digest' = digest ∧ x = .submission payload true)
    {status : Nat} {payload' : Dict} (hok : o.result = .ok (status, payload')) :
    status = 200 ∧ payload' = payload ∧ ∃ accepted : Dict × Dict,
      acceptSubmission key request.auditor request.body = .ok accepted ∧
      bodyDigest P accepted.1 = .ok digest := by
  cases h with
  | refused e => cases hok
  | append blank => exact absurd blank hkey
  | @keyed original record digest' o form accepted digested run =>
    obtain ⟨answer, hanswer, heq⟩ := map_mapError_eq_ok hok
    have hperform : (w.perform P 0 env (.appendIdempotent record request.auditor.auditorId
        request.idempotencyKey digest' utcNow.text now idempotencyTtlSeconds)).map (·.result) =
          some (.ok (.submission answer.1 answer.2)) := by
      rw [World.perform, hs, Option.map_some, Option.map_some, run, Outcome.map, hanswer]
      rfl
    obtain ⟨rfl, hx⟩ := hledger record digest' _ hperform
    obtain ⟨hpayload, hreplayed⟩ := Response.submission.inj hx
    obtain ⟨hstatus, hpayload'⟩ := Prod.mk.inj heq
    rw [hreplayed, if_pos rfl] at hstatus
    exact ⟨hstatus, hpayload'.trans hpayload, (original, record.members), accepted, digested⟩

variable (P) in
/-- The digest of the record in a request. -/
def PostRequest.digest (r : PostRequest) : Except Reply PyStr := do
  let body ← r.body
  ((readRecord P body).bind (bodyDigest P)).mapError exceptionReply

/-- An event that hands a submission to the store, whether or not it is answered. -/
inductive HttpEvent.Posts (r : PostRequest) (env : Env) (clock : SubmitClock) : HttpEvent → Prop
  | submit (id : Nat) : Posts r env clock (.submit id r env clock)
  | kill (id : Nat) : Posts r env clock (.kill id r env clock)

/-- A submission that is handled while nothing fails. -/
structure Server.Undisturbed (app : Application P) (s : Server) (id : Nat) (auditor : Auditor)
    (env : Env) (clock : SubmitClock) : Prop where
  running : id ∈ s.running
  allowed : (app.auditors.allow s.auditors (Application.auditorKey auditor)
    clock.monotonic).1.allowed = true
  ready : ∃ store, s.world.stores 0 = some store ∧
    store.requireWritesAllowed env.gateClock = .ok ()
  begins : beginImmediate env (s.world.conn 0) = none
  statements : env.faults 0 = none ∧ env.faults 1 = none

theorem digest_of_accept {r : PostRequest} {body : Bytes} {key : SigningKey P} {auditor : Auditor}
    {record countersigned : Dict} {digest : PyStr} (hbody : r.body = .ok body)
    (haccept : acceptSubmission key auditor body = .ok (record, countersigned))
    (hdigest : bodyDigest P record = .ok digest) : r.digest P = .ok digest := by
  rw [PostRequest.digest, hbody]
  change ((readRecord P body).bind (bodyDigest P)).mapError exceptionReply = _
  rw [(acceptSubmission_eq_ok.1 haccept).1]
  change (bodyDigest P record).mapError exceptionReply = _
  rw [hdigest]
  rfl

theorem bodyDigest_of_accept {r : PostRequest} {body : Bytes} {key : SigningKey P}
    {auditor : Auditor} {record countersigned : Dict} {digest : PyStr} (hbody : r.body = .ok body)
    (haccept : acceptSubmission key auditor body = .ok (record, countersigned))
    (h : r.digest P = .ok digest) : bodyDigest P record = .ok digest := by
  rw [PostRequest.digest, hbody] at h
  have h' : ((readRecord P body).bind (bodyDigest P)).mapError exceptionReply = .ok digest := h
  rw [(acceptSubmission_eq_ok.1 haccept).1] at h'
  exact mapError_eq_ok.1 h'

theorem hex256_bodyDigest {record : Dict} {digest : PyStr} (h : bodyDigest P record = .ok digest) :
    hex256 digest = true := by
  obtain ⟨canonical, -, rfl⟩ := Except.map_eq_ok (mapError_eq_ok.1 h)
  exact hex256_hex (P.sha256_length canonical)

/-- The arguments of a submission under a key pass the checks of the store. -/
theorem checkIdempotent_submission (auditor : Auditor) {key digest : PyStr}
    (hkey : isIdempotencyKey key = true) (hdigest : hex256 digest = true) :
    checkIdempotent auditor.auditorId key digest idempotencyTtlSeconds = .ok () := by
  simp only [isIdempotencyKey, Bool.and_eq_true, decide_eq_true_eq] at hkey
  rw [checkIdempotent, if_neg auditor.named, if_neg (not_not.2 ⟨hkey.1.1, hkey.1.2, hkey.2⟩),
    if_neg (not_not.2 hdigest), if_neg (by decide)]

/-- A submission under a key, once its record is accepted. -/
theorem submit_keyed {env : Env} {c : Conn} {s : Store} {key : SigningKey P} {request : Submission}
    {utcNow : Timestamp} {now : Int} {original countersigned : Dict} {digest : PyStr}
    (hkey : isIdempotencyKey request.idempotencyKey = true)
    (haccept : acceptSubmission key request.auditor request.body = .ok (original, countersigned))
    (hdigest : bodyDigest P original = .ok digest) :
    (s.submit env c key request utcNow now).result =
      ((s.appendIdempotent P env c countersigned request.auditor.auditorId request.idempotencyKey
        digest utcNow.text now idempotencyTtlSeconds).result.mapError idempotencyRefused).map
          fun r => (if r.2 then 200 else 201, r.1) := by
  have hne : request.idempotencyKey ≠ [] := fun h => by
    rw [h] at hkey
    cases hkey
  simp only [Store.submit, haccept, hdigest, if_neg hne, hkey, not_true_eq_false, if_false]

namespace Server

variable {app : Application P} {s : Server}

/-- The submission that a service with a store handles. -/
theorem exists_store_of_log {e : HttpEvent} {r : PostRequest} {env : Env} {clock : SubmitClock}
    (he : e.Posts r env clock)
    (hlog : (s.step app e).world.disk.log.rows ≠ s.world.disk.log.rows) : ∃ store,
      s.world.stores 0 = some store ∧
      (s.step app e).world.disk = (s.handle app store r env clock).1.world.disk ∧
      Simulates P (s.handle app store r env clock).1.world (s.step app e).world [] := by
  cases he with
  | submit id =>
    rw [step] at hlog ⊢
    cases hs : s.world.stores 0 with
    | none =>
      rw [hs] at hlog
      exact absurd rfl hlog
    | some store =>
      rw [hs] at hlog
      dsimp only at hlog ⊢
      split_ifs at hlog ⊢ with hid
      · exact ⟨store, rfl, rfl, .refl _ _⟩
      · exact absurd rfl hlog
  | kill id =>
    rw [step] at hlog ⊢
    cases hs : s.world.stores 0 with
    | none =>
      rw [hs] at hlog
      exact absurd rfl hlog
    | some store =>
      rw [hs] at hlog
      dsimp only at hlog ⊢
      split_ifs at hlog ⊢ with hid
      · exact ⟨store, rfl, rfl, .step _ (.close 0)⟩
      · exact absurd rfl hlog

/-- The first submission of an auditor under a key, as the call it makes. -/
theorem handle_first {store : Store} (hs : s.world.stores 0 = some store) {r : PostRequest}
    {env : Env} {clock : SubmitClock} (hkey : r.key ≠ [])
    (hlog : (s.handle app store r env clock).1.world.disk.log.rows ≠ s.world.disk.log.rows)
    {auditor : Auditor} (hauth : app.authenticate r = .ok auditor) :
    ∃ (body : Bytes) (original : Dict) (record : Record) (digest : PyStr) (entry : LogEntry),
      r.body = .ok body ∧
      acceptSubmission app.signingKey auditor body = .ok (original, record.members) ∧
      bodyDigest P original = .ok digest ∧ isIdempotencyKey r.key = true ∧
      (s.world.perform P 0 env (.appendIdempotent record auditor.auditorId r.key digest
        clock.utcNow.text clock.seconds idempotencyTtlSeconds)).map (·.result) =
          some (.ok (.submission (StoreTx.response entry) false)) ∧
      (s.handle app store r env clock).1.world = s.world.step P (.call 0 env (.appendIdempotent
        record auditor.auditorId r.key digest clock.utcNow.text clock.seconds
        idempotencyTtlSeconds)) ∧
      (s.handle app store r env clock).2 = .success 201 (StoreTx.response entry) := by
  rw [handle] at hlog ⊢
  rcases app.submit_cases env clock s.auditors (s.world.conn 0) store r with
    ⟨reply, table, heq, -⟩ | ⟨body, auditor', table, o, hbody, hauth', hrun, heq⟩
  · rw [heq] at hlog
    exact absurd rfl hlog
  · rw [heq] at hlog ⊢
    obtain rfl := Except.ok.inj (hauth.symm.trans hauth')
    obtain ⟨original, record, digest, entry, haccept, hdigest, hform, hperform, hresult⟩ :=
      hrun.first hkey hlog
    refine ⟨body, original, record, digest, entry, hbody, haccept, hdigest, hform, ?_, ?_,
      submissionReply_eq_success.2 ⟨hresult, seq_response entry⟩⟩
    · rw [World.perform, hs, Option.map_some, hperform]
      rfl
    · rw [World.step, World.perform, hs, Option.map_some, hperform]

/-- A later submission of the auditor under its key, where the ledger allows one answer. -/
theorem handle_again {store : Store} (hs : s.world.stores 0 = some store) {r : PostRequest}
    {env : Env} {clock : SubmitClock} {auditor : Auditor} (hauth : app.authenticate r = .ok auditor)
    (hkey : r.key ≠ []) {digest : PyStr} {payload : Dict}
    (hledger : ∀ record digest' x, (s.world.perform P 0 env (.appendIdempotent record
      auditor.auditorId r.key digest' clock.utcNow.text clock.seconds
      idempotencyTtlSeconds)).map (·.result) = some (.ok x) →
        digest' = digest ∧ x = .submission payload true) :
    (s.handle app store r env clock).1.world.disk.log.rows = s.world.disk.log.rows ∧
      ∀ status payload', (s.handle app store r env clock).2 = .success status payload' →
        status = 200 ∧ payload' = payload ∧ r.digest P = .ok digest := by
  rw [handle]
  rcases app.submit_cases env clock s.auditors (s.world.conn 0) store r with
    ⟨reply, table, heq, hrefuses⟩ | ⟨body, auditor', table, o, hbody, hauth', hrun, heq⟩
  · rw [heq]
    exact ⟨rfl, fun status payload' h => absurd h (hrefuses status payload')⟩
  · rw [heq]
    obtain rfl := Except.ok.inj (hauth.symm.trans hauth')
    refine ⟨?_, fun status payload' h => ?_⟩
    · rcases hrun.log with ⟨original, entry, -, hresult, -⟩ | ⟨-, hlog⟩
      · cases (hrun.again hs hkey hledger hresult).1
      · exact hlog
    · obtain ⟨hstatus, hpayload, accepted, haccept, hdigest⟩ :=
        hrun.again hs hkey hledger (submissionReply_eq_success.1 h).1
      exact ⟨hstatus, hpayload, digest_of_accept hbody haccept hdigest⟩

/-- A submission that the limiter allows is answered by the store. -/
theorem handle_reply {store : Store} {r : PostRequest} {env : Env} {clock : SubmitClock}
    {body : Bytes} (hbody : r.body = .ok body) {auditor : Auditor}
    (hauth : app.authenticate r = .ok auditor)
    (hallowed : (app.auditors.allow s.auditors (Application.auditorKey auditor)
      clock.monotonic).1.allowed = true) :
    (s.handle app store r env clock).2 = submissionReply (store.submit env (s.world.conn 0)
      app.signingKey ⟨auditor, body, r.key⟩ clock.utcNow clock.seconds).result := by
  rw [handle, Application.submit, hbody]
  dsimp only
  rw [hauth]
  dsimp only
  rw [if_pos hallowed]

/-- A submission under a key, answered as its call returns or raises. -/
theorem handle_keyed {store : Store} (hs : s.world.stores 0 = some store) {r : PostRequest}
    {env : Env} {clock : SubmitClock} {body : Bytes} (hbody : r.body = .ok body)
    {auditor : Auditor} (hauth : app.authenticate r = .ok auditor)
    (hallowed : (app.auditors.allow s.auditors (Application.auditorKey auditor)
      clock.monotonic).1.allowed = true)
    (hform : isIdempotencyKey r.key = true) {original : Dict} {record : Record} {digest : PyStr}
    (haccept : acceptSubmission app.signingKey auditor body = .ok (original, record.members))
    (hdigest : bodyDigest P original = .ok digest) {x : Except PyErr (Dict × Bool)}
    (hperform : (s.world.perform P 0 env (.appendIdempotent record auditor.auditorId r.key digest
      clock.utcNow.text clock.seconds idempotencyTtlSeconds)).map (·.result) =
        some (x.map fun a => .submission a.1 a.2)) :
    (s.handle app store r env clock).2 = submissionReply ((x.mapError idempotencyRefused).map
      fun a => (if a.2 then 200 else 201, a.1)) := by
  rw [World.perform, hs, Option.map_some, Option.map_some, perform_appendIdempotent] at hperform
  have hx : (store.appendIdempotent P env (s.world.conn 0) record.members auditor.auditorId r.key
      digest clock.utcNow.text clock.seconds idempotencyTtlSeconds).result = x := by
    have hmap := Option.some.inj hperform
    rw [Outcome.map] at hmap
    dsimp only at hmap
    generalize (store.appendIdempotent P env (s.world.conn 0) record.members auditor.auditorId r.key
      digest clock.utcNow.text clock.seconds idempotencyTtlSeconds).result = y at hmap
    cases x with
    | error e =>
      cases y with
      | error e' => exact congrArg Except.error (Except.error.inj hmap)
      | ok a => cases hmap
    | ok a =>
      cases y with
      | error e => cases hmap
      | ok a' =>
        obtain ⟨h₁, h₂⟩ := Response.submission.inj (Except.ok.inj hmap)
        exact congrArg Except.ok (Prod.ext h₁ h₂)
  rw [handle_reply hbody hauth hallowed, submit_keyed hform haccept hdigest, hx]

end Server

/-- A submission under an `Idempotency-Key` that adds a record to the log, whether or not its
    client is told so: until it expires, the same auditor with the same key adds nothing more,
    whatever happens in between and wherever the service restarts. The only success it is told
    of is 200 with the response to the first submission, for the same record; while nothing
    fails it is told so when it sends the same body, and is answered 409 when it sends another
    record. -/
theorem retry_exactlyOnce (app : Application P) {s : Server} {e : HttpEvent} {r : PostRequest}
    {env : Env} {clock : SubmitClock} (he : e.Posts r env clock) (hkey : r.key ≠ [])
    (hlog : (s.step app e).world.disk.log.rows ≠ s.world.disk.log.rows)
    {es : List HttpEvent} {r' : PostRequest} {clock' : SubmitClock}
    (hclock : ((clock.seconds :: es.filterMap HttpEvent.clock) ++ [clock'.seconds]).Pairwise (· ≤ ·))
    (hexpires : clock'.seconds < clock.seconds + idempotencyTtlSeconds)
    {auditor : Auditor} (hauth : app.authenticate r = .ok auditor)
    (hauth' : app.authenticate r' = .ok auditor) (hkey' : r'.key = r.key) (id' : Nat) (env' : Env) :
    let s₁ := s.step app e
    let s₂ := s₁.run app es
    let again := .submit id' r' env' clock'
    ∃ payload row, Acknowledges app r clock payload row ∧
      s₁.world.disk.log.rows = s.world.disk.log.rows ++ [row] ∧
      (s₂.step app again).world.disk.log.rows = s₂.world.disk.log.rows ∧
      (∀ status payload', (id', some (.success status payload')) ∈ s₂.answers app again →
        status = 200 ∧ payload' = payload ∧ r'.digest P = r.digest P) ∧
      (s₂.Undisturbed app id' auditor env' clock' →
        (r'.body = r.body → env'.commit = .done →
          s₂.answers app again = [(id', some (.success 200 payload))]) ∧
        ∀ body accepted digest, r'.body = .ok body →
          acceptSubmission app.signingKey auditor body = .ok accepted →
          r'.digest P = .ok digest → r.digest P ≠ .ok digest →
          s₂.answers app again = [(id', some (.error 409 "idempotency_conflict"
            "idempotency key was already used for a different body" none))]) := by
  intro s₁ s₂ again
  obtain ⟨store, hs, hdisk, hsim⟩ := Server.exists_store_of_log he hlog
  rw [hdisk] at hlog
  obtain ⟨body, original, record, digest, entry, hbody, haccept, hdigest, hform, hperform, hworld,
    hreply⟩ := Server.handle_first hs hkey hlog hauth
  have hfirst : r.digest P = .ok digest := digest_of_accept hbody haccept hdigest
  rcases @Server.handle_accounted _ app s store r env clock with
    ⟨payload, row, hreply', hack, hrow⟩ | ⟨hreply', -⟩
  swap
  · exact absurd hreply (hreply' _)
  obtain ⟨-, rfl⟩ := Reply.success.inj (hreply.symm.trans hreply')
  -- what the file saw since, and what its ledger allows now
  obtain ⟨es', hw₂, hclocks⟩ := hsim.trans (Server.run_simulates app s₁ es)
  rw [hworld] at hw₂
  have hsorted : ((clock.seconds :: es'.filterMap Event.clock) ++ [clock'.seconds]).Pairwise
      (· ≤ ·) := hclock.sublist ((hclocks.cons_cons _).append (List.Sublist.refl _))
  have honce (record' : Record) (digest' : PyStr) := submission_exactlyOnce hperform hsorted hexpires
    0 env' record' digest' clock'.utcNow.text idempotencyTtlSeconds
  dsimp only at honce
  rw [← hw₂] at honce
  have hkey'' : r'.key ≠ [] := hkey' ▸ hkey
  refine ⟨_, row, hack, (congrArg (·.log.rows) hdisk).trans hrow, ?_⟩
  rcases Server.submit_step app s₂ id' r' env' clock' with
    ⟨hstep, hno⟩ | ⟨store₂, hs₂, hworld₂, hreplies₂⟩
  · -- no service takes the request
    refine ⟨by rw [hstep], fun _ _ hmem => ?_, fun hu => absurd ⟨hu.running, ?_⟩ hno⟩
    · rw [Server.answers, hstep, List.drop_length] at hmem
      cases hmem
    · obtain ⟨store', hstore, -⟩ := hu.ready
      rw [hstore]
      rfl
  have hanswers : s₂.answers app again = [(id', some (s₂.handle app store₂ r' env' clock').2)] := by
    rw [Server.answers, hreplies₂, List.drop_left]
  have hledger (record' : Record) (digest' : PyStr) (x : Response)
      (hx : (s₂.world.perform P 0 env' (.appendIdempotent record' auditor.auditorId r'.key digest'
        clock'.utcNow.text clock'.seconds idempotencyTtlSeconds)).map (·.result) = some (.ok x)) :
      digest' = digest ∧ x = .submission (StoreTx.response entry) true := by
    rw [hkey'] at hx
    obtain ⟨h₁, h₂, -⟩ := (honce record' digest').2.1 x hx
    exact ⟨h₁, h₂⟩
  have hagain := Server.handle_again hs₂ hauth' hkey'' hledger
  refine ⟨by rw [hworld₂, hagain.1], fun status payload' hmem => ?_, fun hu => ⟨fun hsame hcommit => ?_,
    fun body' accepted digest' hbody' haccept' hdigest' hne => ?_⟩⟩
  · rw [hanswers, List.mem_singleton] at hmem
    obtain ⟨h₁, h₂, h₃⟩ := hagain.2 status payload' (Option.some.inj (Prod.mk.inj hmem).2).symm
    exact ⟨h₁, h₂, h₃.trans hfirst.symm⟩
  · obtain ⟨store', hstore, hgate⟩ := hu.ready
    obtain rfl := Option.some.inj (hs₂.symm.trans hstore)
    have hlater := ((honce record digest).2.2.2 (checkIdempotent_submission auditor hform
      (hex256_bodyDigest hdigest)) store₂ hs₂ hgate hu.begins hu.statements.1 hu.statements.2).1 rfl
      hcommit
    rw [hanswers, Server.handle_keyed (x := .ok (StoreTx.response entry, true)) hs₂
      (hsame.trans hbody) hauth' hu.allowed (hkey' ▸ hform) haccept hdigest (hkey' ▸ hlater)]
    rfl
  · obtain ⟨store', hstore, hgate⟩ := hu.ready
    obtain rfl := Option.some.inj (hs₂.symm.trans hstore)
    obtain ⟨original', countersigned'⟩ := accepted
    obtain ⟨record', rfl, -, -⟩ := exists_countersignedRecord haccept'
    have hdigested := bodyDigest_of_accept hbody' haccept' hdigest'
    have hlater := ((honce record' digest').2.2.2 (checkIdempotent_submission auditor hform
      (hex256_bodyDigest hdigested)) store₂ hs₂ hgate hu.begins hu.statements.1 hu.statements.2).2
      fun heq => hne (heq ▸ hfirst)
    rw [hanswers, Server.handle_keyed (x := .error (.idempotencyConflict
      "idempotency key was already used for a different body")) hs₂ hbody' hauth' hu.allowed
      (hkey' ▸ hform) haccept' hdigested (hkey' ▸ hlater)]
    rfl

/-! ## On the sample registry -/

/-- An auditor with a token. -/
def sampleHolder : Auth.Auditor :=
  ⟨py "alice", [], (sampleSigner 9).publicPinned,
    Auth.tokenDigest .sample (utf8 (py "correct-horse-battery-staple"))⟩

set_option maxRecDepth 10000 in
theorem registered_sampleHolder : Auth.Registered [sampleHolder] where
  valid a ha := by
    obtain rfl := List.mem_singleton.1 ha
    exact ⟨by decide, by decide, by decide, by decide, ⟨_, parsePublicKey_publicPinned _⟩,
      hex256_hex (Platform.sample.sha256_length _)⟩
  distinct := List.pairwise_singleton _ _

/-- A limiter that allows each key a call a second. -/
def sampleLimiter : FixedWindowLimiter := ⟨60, 60, 8, Nat.succ_pos _, Nat.succ_pos _, Nat.succ_pos _⟩

/-- A service for this auditor. -/
def sampleApplication : Application .sample :=
  ⟨sampleSigner 1, [sampleHolder], sampleLimiter, sampleLimiter, 2, registered_sampleHolder,
    Nat.succ_pos _⟩

/-- A submission of the auditor. -/
def samplePost : PostRequest where
  contentType := some (utf8 (py "application/json"))
  contentEncoding := none
  contentLength := none
  authorization := some (utf8 (py "Bearer correct-horse-battery-staple"))
  idempotencyKey := some (utf8 (py "key"))
  chunks := [utf8 (Json.obj (sampleSigned (sampleSigner 9) (py "audited"))).dumps]
  bodyEnd := .complete

/-- A submission reaches the store. -/
def samplePosted : Server :=
  (Server.ofFile .absent).run sampleApplication
    [.serve sampleStart, .arrive (py "192.0.2.1") 0, .acquire 0]

/-- The clocks of a submission. -/
def samplePostClock (seconds : Int) : SubmitClock := ⟨0, sampleTime, seconds⟩

/-- The events between a submission and the one that repeats it: the service restarts. -/
def sampleBetween : List HttpEvent :=
  [.stop, .serve sampleStart, .arrive (py "192.0.2.1") 0, .acquire 1]

/-- The service when the submission is sent again. -/
def sampleRestarted : Server :=
  (samplePosted.step sampleApplication (.submit 0 samplePost (.calm 0) (samplePostClock 0))).run
    sampleApplication sampleBetween

theorem authenticate_samplePost : sampleApplication.authenticate samplePost =
    .ok (sampleApplication.auditor sampleHolder (List.mem_singleton_self _)) := by
  have htoken : samplePost.token = some (py "correct-horse-battery-staple") := by decide +kernel
  have hfound : Auth.resolve .sample [sampleHolder] (py "correct-horse-battery-staple") =
      .ok (some sampleHolder) := by decide +kernel
  exact Application.authenticate_of_resolve htoken hfound

set_option maxRecDepth 10000 in
/-- The service is ready for the submission that is sent again. -/
theorem sampleRestarted_ready : 1 ∈ sampleRestarted.running ∧ (sampleApplication.auditors.allow sampleRestarted.auditors
      (py "auditor:alice") 0).1.allowed = true ∧
    ((sampleRestarted.world.stores 0).any fun store => store.requireWritesAllowed 0 = .ok ()) = true ∧
    beginImmediate (.calm 0) (sampleRestarted.world.conn 0) = none := by
  decide +kernel

set_option maxRecDepth 10000 in
/-- A submission and, after a restart, the same one. -/
theorem retry_exactlyOnce_sample : ∃ payload,
    sampleRestarted.answers sampleApplication
      (.submit 1 samplePost (.calm 0) (samplePostClock 86400)) =
        [(1, some (.success 200 payload))] := by
  have hlog : (samplePosted.step sampleApplication (.submit 0 samplePost (.calm 0)
      (samplePostClock 0))).world.disk.log.rows ≠ samplePosted.world.disk.log.rows := by
    decide +kernel
  have hclock : (((samplePostClock 0).seconds :: sampleBetween.filterMap HttpEvent.clock) ++
      [(samplePostClock 86400).seconds]).Pairwise (· ≤ ·) := by decide
  obtain ⟨hrunning, hallowed, hready, hbegins⟩ := sampleRestarted_ready
  obtain ⟨store, hstore, hgate⟩ := (Option.any_eq_true _ _).1 hready
  obtain ⟨payload, row, -, -, -, -, hanswer⟩ := retry_exactlyOnce sampleApplication
    (.submit 0) (by decide +kernel) hlog hclock (by decide) authenticate_samplePost
    authenticate_samplePost rfl 1 (.calm 0)
  exact ⟨payload, (hanswer ⟨hrunning, hallowed, ⟨store, hstore, of_decide_eq_true hgate⟩, hbegins,
    rfl, rfl⟩).1 rfl rfl⟩

end SkillRegistry
