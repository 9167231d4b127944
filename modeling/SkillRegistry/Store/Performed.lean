import SkillRegistry.Store.Write

/-!
# What a write operation does

All that a call of a write operation can do, said once: `Performs` relates a database
to the one the body of a call leaves, with every check that was passed on the way, and
`Performed` relates an outcome to the connection and the instance before the call.

* `Imports` is the loop over the records of an import;
* `body_spec` says that the body of a call does what `Performs` says;
* `perform_performed` says that a call is refused, is left active by a failing COMMIT,
  or is done.
-/

namespace SkillRegistry

open Wire Merkle

variable (P : Platform)

/-! ## Bodies -/

/-- The database without the submissions that expired. -/
def Db.pruned (db : Db) (now : Int) : Db :=
  { db with idempotency := db.idempotency.filter fun row => now < row.expiresAt }

/-- The database with one more imported record. -/
def Db.markImported (db : Db) (fingerprint createdAt : PyStr) (entry : LogEntry) : Db :=
  { db with imported := db.imported.put ⟨fingerprint, createdAt, some entry.seq⟩ }

@[simp] theorem Db.log_markImported (db : Db) (fingerprint createdAt : PyStr) (entry : LogEntry) :
    (db.markImported fingerprint createdAt entry).log = db.log := rfl

/-- The database with a submission. -/
def Db.putSubmission (db : Db) (row : IdempotencyRow) : Db :=
  { db with idempotency := db.idempotency.put row }

/-- The database with a new high water of an upstream key. -/
def Db.putHighWater (db : Db) (row : UpstreamHighWater) : Db :=
  { db with highWater := db.highWater.put row }

/-- The records of an import, one after another: those imported before are skipped. -/
inductive Imports (createdAt : PyStr) : List (PyStr × Dict) → Db → List LogEntry → Db → Prop
  | nil (db : Db) : Imports createdAt [] db [] db
  | skip {fingerprint : PyStr} {record : Dict} {records : List (PyStr × Dict)} {db db' : Db}
      {entries : List LogEntry} (known : (db.imported.find? fingerprint).isSome)
      (rest : Imports createdAt records db entries db') :
      Imports createdAt ((fingerprint, record) :: records) db entries db'
  | take {fingerprint : PyStr} {record : Dict} {records : List (PyStr × Dict)} {db db₁ db' : Db}
      {body root : Bytes} {frontier : List (Summary Bytes)} {entry : LogEntry}
      {entries : List LogEntry} (fresh : db.imported.find? fingerprint = none)
      (appended : Appended P db record createdAt body frontier root entry db₁)
      (rest : Imports createdAt records (db₁.markImported fingerprint createdAt entry) entries db') :
      Imports createdAt ((fingerprint, record) :: records) db (entry :: entries) db'

/-- The row of a submission. -/
def submissionRow (auditorId key bodySha256 : PyStr) (entry : LogEntry) (expiresAt : Int) :
    IdempotencyRow :=
  ⟨auditorId, key, bodySha256, (StoreTx.responseJson entry).dumps, entry.seq, expiresAt⟩

/-- What the body of a call does: the database before it, what it returns with the entry
    it publishes, and the database after it. -/
inductive Performs : Call → Db → Response → Option LogEntry → Db → Prop
  | append {record : Record} {createdAt : PyStr} {db db' : Db} {body root : Bytes}
      {frontier : List (Summary Bytes)} {entry : LogEntry}
      (appended : Appended P db record.members createdAt body frontier root entry db') :
      Performs (.append record createdAt) db (.entry entry) (some entry) db'
  | replay {record : Record} {auditorId key bodySha256 createdAt : PyStr} {now ttlSeconds : Int}
      {db : Db} {row : IdempotencyRow} {response : Dict}
      (found : (db.pruned now).idempotency.find? (toLex (auditorId, key)) = some row)
      (same : row.bodySha256 = bodySha256)
      (loaded : pyLoads P row.responseJson = .ok (.obj response)) :
      Performs (.appendIdempotent record auditorId key bodySha256 createdAt now ttlSeconds) db
        (.submission response true) none (db.pruned now)
  | submit {record : Record} {auditorId key bodySha256 createdAt : PyStr} {now ttlSeconds : Int}
      {db db₁ : Db} {body root : Bytes} {frontier : List (Summary Bytes)} {entry : LogEntry}
      (bound : bindText [auditorId, key] = .ok ()) (timed : bindInt [now] = .ok ())
      (fresh : (db.pruned now).idempotency.find? (toLex (auditorId, key)) = none)
      (appended : Appended P (db.pruned now) record.members createdAt body frontier root entry db₁)
      (dumped : jsonDumps P (StoreTx.responseJson entry) =
        .ok (StoreTx.responseJson entry).dumps)
      (expires : bindInt [entry.seq, now + ttlSeconds] = .ok ()) :
      Performs (.appendIdempotent record auditorId key bodySha256 createdAt now ttlSeconds) db
        (.submission (StoreTx.response entry) false) (some entry)
        (db₁.putSubmission (submissionRow auditorId key bodySha256 entry (now + ttlSeconds)))
  | imports {records : List (PyStr × Record)} {createdAt : PyStr} {db db' : Db}
      {entries : List LogEntry} (imports : Imports P createdAt (recordDicts records) db entries db') :
      Performs (.appendImports records createdAt none) db (.imported entries.length)
        entries.getLast? db'
  | importsOffered {records : List (PyStr × Record)} {createdAt : PyStr}
      {offered : UpstreamHighWater} {db db' : Db} {entries : List LogEntry}
      (bound : Scalar offered.keyId)
      (accepted : importsDecision (db.highWater.find? offered.keyId) offered = .ok ())
      (imports : Imports P createdAt (recordDicts records) db entries db') :
      Performs (.appendImports records createdAt (some offered)) db (.imported entries.length)
        entries.getLast? (db'.putHighWater offered)
  | upstream {records : List (PyStr × Record)} {createdAt : PyStr} {offered : UpstreamHighWater}
      {acceptOlder : Bool} {db db' : Db} {entries : List LogEntry} {outcome : ImportOutcome}
      (bound : Scalar offered.keyId)
      (accepted : upstreamDecision (db.highWater.find? offered.keyId) offered acceptOlder =
        .ok outcome)
      (imports : Imports P createdAt (recordDicts records) db entries db') :
      Performs (.appendUpstreamImport records createdAt offered acceptOlder) db
        (.upstream ⟨entries.length, db.highWater.find? offered.keyId, outcome⟩) entries.getLast?
        (if outcome = .advanced then db'.putHighWater offered else db')

variable {P}

/-- The loop over the records of an import does what `Imports` says. -/
theorem importRecords_spec (createdAt : PyStr) (records : List (PyStr × Dict)) (db₀ : Db)
    (imported : Nat) (last : Option LogEntry) :
    Tx.Triple (· = db₀) (StoreTx.importRecords P createdAt records imported last) fun r db =>
      ∃ entries, Imports P createdAt records db₀ entries db ∧ r.1 = imported + entries.length ∧
        r.2 = entries.getLast?.or last := by
  induction records generalizing db₀ imported last with
  | nil =>
    refine (Tx.triple_pure _).mono (fun db hdb => ?_) fun _ _ h => h
    subst hdb
    exact ⟨[], .nil _, rfl, rfl⟩
  | cons record records ih =>
    obtain ⟨fingerprint, record⟩ := record
    refine StoreTx.triple_bind_ofExcept fun _ _ => Tx.triple_bind_select ?_
    cases hfind : db₀.imported.find? fingerprint with
    | some row =>
      refine (ih db₀ imported last).mono (fun _ h => h) fun r db ⟨entries, hi, h₁, h₂⟩ => ?_
      exact ⟨entries, .skip (hfind ▸ rfl) hi, h₁, h₂⟩
    | none =>
      refine Tx.triple_bind_each (appendLocked_spec db₀ record createdAt) fun entry db₁ => ?_
      rintro ⟨body, frontier, root, ha⟩
      refine Tx.triple_bind (Q := fun _ db =>
        db = db₁.markImported fingerprint createdAt entry)
        (Tx.triple_stmt fun db _ db' hdb hr => ?_) fun _ => ?_
      · subst hdb
        cases hi : db.imported.insert? ⟨fingerprint, createdAt, some entry.seq⟩ with
        | none => rw [hi] at hr; cases hr
        | some t =>
          rw [hi] at hr
          rw [Db.markImported, ← (Table.insert?_eq_some.1 hi).2]
          exact (Prod.mk.inj (Except.ok.inj hr)).2.symm
      · refine (ih _ _ _).mono (fun _ h => h) fun r db ⟨entries, hi, h₁, h₂⟩ => ?_
        refine ⟨entry :: entries, .take hfind ha hi, by rw [h₁, List.length_cons]; omega, ?_⟩
        rw [h₂, List.getLast?_cons]
        cases entries.getLast? <;> rfl

theorem triple_importRecords (createdAt : PyStr) (records : List (PyStr × Dict)) (db₀ : Db) :
    Tx.Triple (· = db₀) (StoreTx.importRecords P createdAt records 0 none) fun r db =>
      ∃ entries, Imports P createdAt records db₀ entries db ∧ r = (entries.length, entries.getLast?) :=
  (importRecords_spec createdAt records db₀ 0 none).mono (fun _ h => h)
    fun _ _ ⟨entries, hi, h₁, h₂⟩ =>
      ⟨entries, hi, Prod.ext (h₁.trans (Nat.zero_add _)) (h₂.trans Option.or_none)⟩

theorem triple_getUpstreamHighWater (keyId : PyStr) (db₀ : Db) :
    Tx.Triple (· = db₀) (StoreTx.getUpstreamHighWater keyId) fun r db =>
      db = db₀ ∧ r = db₀.highWater.find? keyId ∧ Scalar keyId :=
  StoreTx.triple_bind_ofExcept fun _ hbind => Tx.triple_select.mono
    (fun _ h => h ▸ ⟨rfl, rfl, bindText_eq_ok.1 hbind _ List.mem_cons_self⟩) fun _ _ h => h

theorem triple_putUpstreamHighWater (row : UpstreamHighWater) (db₀ : Db) :
    Tx.Triple (· = db₀) (StoreTx.putUpstreamHighWater row) fun _ db =>
      db = db₀.putHighWater row :=
  StoreTx.triple_bind_ofExcept fun _ _ => StoreTx.triple_bind_ofExcept fun _ _ =>
    Tx.triple_execute.mono (fun _ h => h ▸ rfl) fun _ _ h => h

theorem appendIdempotentBody_spec (record : Record) (auditorId key bodySha256 createdAt : PyStr)
    (now ttlSeconds : Int) (db₀ : Db) :
    Tx.Triple (· = db₀) (StoreTx.appendIdempotentBody P record.members auditorId key bodySha256
      createdAt now ttlSeconds) fun r db =>
        Performs P (.appendIdempotent record auditorId key bodySha256 createdAt now ttlSeconds) db₀
          (.submission r.1.1 r.1.2) r.2 db := by
  refine StoreTx.triple_bind_ofExcept fun _ htimed => ?_
  refine Tx.triple_bind (Q := fun _ db => db = db₀.pruned now)
    (Tx.triple_execute.mono (fun _ h => h ▸ rfl) fun _ _ h => h) fun _ => ?_
  refine StoreTx.triple_bind_ofExcept fun _ hbound => Tx.triple_bind_select ?_
  cases hfind : (db₀.pruned now).idempotency.find? (toLex (auditorId, key)) with
  | some row =>
    refine Tx.triple_ite (fun _ => Tx.triple_fail _) fun hsame => ?_
    refine StoreTx.triple_bind_ofExcept fun value hload => ?_
    cases value with
    | obj response =>
      refine (Tx.triple_pure _).mono (fun db hdb => ?_) fun _ _ h => h
      subst hdb
      exact .replay hfind (not_not.1 hsame) hload
    | null | bool | int | float | str | arr => exact Tx.triple_fail _
  | none =>
    refine Tx.triple_bind_each (appendLocked_spec _ record.members createdAt) fun entry db₁ => ?_
    rintro ⟨body, frontier, root, ha⟩
    refine StoreTx.triple_bind_ofExcept fun responseText hdump => ?_
    obtain ⟨-, -, rfl⟩ := jsonDumps_eq_ok hdump
    refine StoreTx.triple_bind_ofExcept fun _ _ =>
      StoreTx.triple_bind_ofExcept fun _ hexpires => ?_
    refine Tx.triple_bind (Q := fun _ db =>
      db = db₁.putSubmission (submissionRow auditorId key bodySha256 entry (now + ttlSeconds)))
      (Tx.triple_stmt fun db _ db' hdb hr => ?_) fun _ => ?_
    · subst hdb
      cases hi : db.idempotency.insert?
          (submissionRow auditorId key bodySha256 entry (now + ttlSeconds)) with
      | none => rw [submissionRow] at hi; rw [hi] at hr; cases hr
      | some t =>
        rw [Db.putSubmission, ← (Table.insert?_eq_some.1 hi).2]
        rw [submissionRow] at hi
        rw [hi] at hr
        exact (Prod.mk.inj (Except.ok.inj hr)).2.symm
    · refine (Tx.triple_pure _).mono (fun db hdb => ?_) fun _ _ h => h
      subst hdb
      exact .submit hbound htimed hfind ha hdump hexpires

theorem appendImportsBody_spec (records : List (PyStr × Record)) (createdAt : PyStr)
    (highWater : Option UpstreamHighWater) (db₀ : Db) :
    Tx.Triple (· = db₀) (StoreTx.appendImportsBody P (recordDicts records) createdAt highWater)
      fun r db => Performs P (.appendImports records createdAt highWater) db₀ (.imported r.1) r.2 db := by
  cases highWater with
  | none =>
    refine (triple_importRecords createdAt _ db₀).mono (fun _ h => h) ?_
    rintro _ db ⟨entries, hi, rfl⟩
    exact .imports hi
  | some offered =>
    refine Tx.triple_bind_and (triple_getUpstreamHighWater _ _) fun current hcurrent => ?_
    obtain ⟨rfl, hbound⟩ := hcurrent
    refine StoreTx.triple_bind_ofExcept fun _ haccepted => ?_
    refine Tx.triple_bind_each (triple_importRecords createdAt _ db₀) ?_
    rintro _ db₁ ⟨entries, hi, rfl⟩
    refine Tx.triple_bind (triple_putUpstreamHighWater _ _) fun _ => ?_
    refine (Tx.triple_pure _).mono (fun db hdb => ?_) fun _ _ h => h
    subst hdb
    exact .importsOffered hbound haccepted hi

theorem appendUpstreamImportBody_spec (records : List (PyStr × Record)) (createdAt : PyStr)
    (offered : UpstreamHighWater) (acceptOlder : Bool) (db₀ : Db) :
    Tx.Triple (· = db₀)
      (StoreTx.appendUpstreamImportBody P (recordDicts records) createdAt offered acceptOlder)
      fun r db => Performs P (.appendUpstreamImport records createdAt offered acceptOlder) db₀
        (.upstream r.1) r.2 db := by
  refine Tx.triple_bind_and (triple_getUpstreamHighWater _ _) fun current hcurrent => ?_
  obtain ⟨rfl, hbound⟩ := hcurrent
  refine StoreTx.triple_bind_ofExcept fun outcome haccepted => ?_
  refine Tx.triple_bind_each (triple_importRecords createdAt _ db₀) ?_
  rintro _ db₁ ⟨entries, hi, rfl⟩
  have hdone := Performs.upstream hbound haccepted hi
  by_cases hout : outcome = .advanced
  · rw [if_pos hout] at hdone
    rw [if_pos hout]
    refine Tx.triple_bind (triple_putUpstreamHighWater _ _) fun _ => ?_
    refine (Tx.triple_pure _).mono (fun db hdb => ?_) fun _ _ h => h
    subst hdb
    exact hdone
  · rw [if_neg hout] at hdone
    rw [if_neg hout]
    refine (Tx.triple_pure _).mono (fun db hdb => ?_) fun _ _ h => h
    subst hdb
    exact hdone

/-- The body of a call does what `Performs` says. -/
theorem body_spec (call : Call) (db₀ : Db) :
    Tx.Triple (· = db₀) (call.body P) fun r db => Performs P call db₀ r.1 r.2 db := by
  cases call with
  | append record createdAt =>
    refine Tx.triple_bind (appendLocked_spec db₀ record.members createdAt) fun entry => ?_
    refine (Tx.triple_pure _).mono (fun db hdb => ?_) fun _ _ h => h
    obtain ⟨body, frontier, root, ha⟩ := hdb
    exact .append ha
  | appendIdempotent record auditorId key bodySha256 createdAt now ttlSeconds =>
    exact Tx.triple_bind (appendIdempotentBody_spec _ _ _ _ _ _ _ db₀) fun _ =>
      (Tx.triple_pure _).mono (fun _ h => h) fun _ _ h => h
  | appendImports records createdAt highWater =>
    exact Tx.triple_bind (appendImportsBody_spec _ _ _ db₀) fun _ =>
      (Tx.triple_pure _).mono (fun _ h => h) fun _ _ h => h
  | appendUpstreamImport records createdAt offered acceptOlder =>
    exact Tx.triple_bind (appendUpstreamImportBody_spec _ _ _ _ db₀) fun _ =>
      (Tx.triple_pure _).mono (fun _ h => h) fun _ _ h => h

/-! ## Calls -/

/-- How a call ends, and what it leaves. -/
inductive Performed (env : Env) (c : Conn) (s : Store) (call : Call) : Outcome Response → Prop
  /-- It raises, and its transaction is rolled back. -/
  | refused (e : PyErr) {s' : Store}
      (store : s' = s ∨ ∃ m, s' = s.latchIntegrityFailure m env.latchClock) :
      Performed env c s call ⟨.error e, c, s'⟩
  /-- Its COMMIT fails, and its transaction stays active. -/
  | leftActive (e : PyErr) {r : Response} {entry : Option LogEntry} {db : Db}
      (checked : call.check = .ok ()) (free : c.pending = none) (unlocked : c.locked = false)
      (allowed : s.requireWritesAllowed env.gateClock = .ok ())
      (commit : ∃ e, env.commit = .active e) (performs : Performs P call c.disk r entry db) :
      Performed env c s call ⟨.error e, { c with pending := some db }, s⟩
  /-- It returns. -/
  | done {r : Response} {entry : Option LogEntry} {db : Db}
      (checked : call.check = .ok ()) (free : c.pending = none) (unlocked : c.locked = false)
      (allowed : s.requireWritesAllowed env.gateClock = .ok ()) (commit : env.commit = .done)
      (performs : Performs P call c.disk r entry db) :
      Performed env c s call ⟨.ok r, { c with disk := db }, s.publish entry⟩

theorem beginImmediate_eq_none {env : Env} {c : Conn} (h : beginImmediate env c = none) :
    c.pending = none ∧ c.locked = false := by
  unfold beginImmediate at h
  split_ifs at h with hp hl
  exact ⟨by simpa using hp, by simpa using hl⟩

/-- A call ends in one of these ways. -/
theorem perform_performed (env : Env) (c : Conn) (s : Store) (call : Call) :
    Performed (P := P) env c s call (Store.perform P env c s call) := by
  unfold Store.perform
  split
  · exact .refused _ (.inl rfl)
  · rename_i hcheck
    unfold transact
    split
    · exact .refused _ (.inl rfl)
    · rename_i hbegin
      obtain ⟨hfree, hlocked⟩ := beginImmediate_eq_none hbegin
      split
      · rename_i a _
        cases a.latch with
        | some m => exact .refused _ (.inr ⟨m, rfl⟩)
        | none => exact .refused _ (.inl rfl)
      · rename_i r entry n db hbody
        -- the body passed the gate and did what its call does
        have hspec : Tx.Triple (· = c.disk) (do StoreTx.gate s env; call.body P) fun r db =>
            s.requireWritesAllowed env.gateClock = .ok () ∧ Performs P call c.disk r.1 r.2 db :=
          StoreTx.triple_bind_ofExcept fun _ hgate =>
            (body_spec call c.disk).mono (fun _ h => h) fun _ _ h => ⟨hgate, h⟩
        obtain ⟨hgate, hperf⟩ := hspec _ _ _ _ rfl hbody
        split
        · rename_i hcommit
          exact .done hcheck hfree hlocked hgate hcommit hperf
        · exact .refused _ (.inl rfl)
        · rename_i e hcommit
          exact .leftActive _ hcheck hfree hlocked hgate ⟨e, hcommit⟩ hperf

/-- A call whose statements cannot succeed raises, and leaves its connection as it was. -/
theorem perform_of_never {c : Conn} {call : Call}
    (h : ∀ {r published db}, ¬Performs P call c.disk r published db) (s : Store) (env : Env) :
    (∃ e, (s.perform P env c call).result = .error e) ∧ (s.perform P env c call).conn = c := by
  have hdone := perform_performed (P := P) env c s call
  generalize s.perform P env c call = o at hdone
  cases hdone with
  | refused e => exact ⟨⟨e, rfl⟩, rfl⟩
  | leftActive _ _ _ _ _ _ performs => exact absurd performs h
  | done _ _ _ _ _ performs => exact absurd performs h

section Run

variable {env : Env} {c : Conn} {s : Store} {call : Call} (hcheck : call.check = .ok ())
  (hbegin : beginImmediate env c = none) (hgate : s.requireWritesAllowed env.gateClock = .ok ())

include hgate in
theorem gate_body (call : Call) (db : Db) :
    (do StoreTx.gate s env; call.body P : StoreTx (Response × Option LogEntry))
      (fun n => (env.faults n).map Fault.abort) 0 db =
        call.body P (fun n => (env.faults n).map Fault.abort) 0 db := by
  refine Tx.bind_of_ok (a := ()) ?_
  rw [StoreTx.gate, hgate]
  rfl

include hcheck hbegin hgate

/-- A call whose statements raise. -/
theorem perform_of_error {e : PyErr}
    (h : call.body P (fun n => (env.faults n).map Fault.abort) 0 c.disk = .error ⟨e, none, false⟩) :
    s.perform P env c call = ⟨.error (operationDeadline env e), c, s⟩ := by
  simp only [Store.perform, hcheck, transact, hbegin, gate_body hgate, h]
  rfl

/-- A call whose statements and COMMIT succeed. -/
theorem perform_of_ok {r : Response} {entry : Option LogEntry} {n : Nat} {db : Db}
    (h : call.body P (fun n => (env.faults n).map Fault.abort) 0 c.disk = .ok ((r, entry), n, db))
    (hcommit : env.commit = .done) :
    s.perform P env c call = ⟨.ok r, { c with disk := db }, s.publish entry⟩ := by
  simp only [Store.perform, hcheck, transact, hbegin, gate_body hgate, h, hcommit]

end Run

end SkillRegistry
