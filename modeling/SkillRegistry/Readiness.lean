import SkillRegistry.Checkpoint
import SkillRegistry.Failure

/-!
# Readiness of an instance

What one instance of the store promises about itself over time: its write operations,
the background passes, whose walk and publication are two steps, the checkpoint, and
the clock, in any order, while other connections write to the same database.

* `Store.publishPass` is the publication of a walk (`refreshHealthVerdict_eq`), and
  `Store.healthVerdict` the verdict that is served;
* `Acts` is a step of an instance and `Runs` a sequence of them;
* `readiness_guaranteed`: a latched instance commits nothing and is never ready again,
  a commit follows a verification that is recent, and, as long as no COMMIT leaves its
  transaction active, the verified head is one of the committed log;
* `failedCommit_misleads_verdict`: an instance whose COMMIT left its transaction active
  takes the head of that transaction for verified.
-/

namespace SkillRegistry

open Wire

variable (P : Platform)

/-! ## Verdicts -/

/-- A `HealthVerdict`. -/
structure HealthVerdict where
  ready : Bool
  verifiedHead : PyStr
  verifiedLogSize : Int
  verifiedAt : PyStr
  error : Option String
  code : String
  deriving DecidableEq

namespace Store

/-- The verdict of an instance that is not ready. -/
def failedVerdict (s : Store) : HealthVerdict :=
  ⟨false, s.verifiedHead, s.verifiedLogSize, s.verifiedAt, s.healthError, s.healthCode⟩

/-- `health_verdict`. -/
def healthVerdict (s : Store) (now : ℚ) : HealthVerdict :=
  if !s.healthReady then s.failedVerdict
  else if s.stale now then
    ⟨false, s.verifiedHead, s.verifiedLogSize, s.verifiedAt,
      some "registry integrity verification is stale", "not_ready"⟩
  else ⟨true, s.verifiedHead, s.verifiedLogSize, s.verifiedAt, none, "not_ready"⟩

end Store

/-- The walk of `refresh_health_verdict`: the errors it found, or the one it raised. -/
def walkErrors (fails : Option PyErr) (db : Db) : List String :=
  match fails, healthErrors P db with
  | some e, _ | none, .error e => [s!"health verification failed: {e.message}"]
  | none, .ok errors => errors

/-- An instance that has not failed may be ready. -/
theorem Store.ready_of_not_failed {s : Store} (h : ¬s.integrityFailed = true) :
    s.integrityFailed = true → true = false := fun hf => absurd hf h

/-- The instance after a passing verification. -/
def Store.pass (s : Store) (h : ¬s.integrityFailed = true) (boundary : SnapshotBoundary)
    (utcNow : Timestamp) (clock : ℚ) : Store :=
  { s with
    healthReady := true, verifiedHead := boundary.head, verifiedLogSize := boundary.logSize,
    verifiedAt := utcNow.text, healthError := none, lastRefresh := clock
    failed_not_ready := Store.ready_of_not_failed h }

/-- The publication of `refresh_health_verdict`, with the verdict it returns. -/
def Store.publishPass (errors : List String) (utcNow : Timestamp) (clock : ℚ) (c : Conn) (s : Store) :
    Store × HealthVerdict :=
  if h : s.integrityFailed then (s, s.failedVerdict)
  else if errors ≠ [] then
    let s := s.latchIntegrityFailure ("; ".intercalate errors) clock
    (s, s.failedVerdict)
  else
    match snapshotBoundary c.view none with
    | .error e =>
      let s := s.latchIntegrityFailure s!"snapshot boundary is unavailable: {e.message}" clock
      (s, s.failedVerdict)
    | .ok boundary => (s.pass h boundary utcNow clock,
      ⟨true, boundary.head, boundary.logSize, utcNow.text, none, "not_ready"⟩)

variable {P}

/-- A refresh is a walk and the publication of what it found. -/
theorem refreshHealthVerdict_eq (env : RefreshEnv) (c : Conn) (s : Store) :
    s.refreshHealthVerdict P env c =
      (s.publishPass (walkErrors P env.fails c.disk) env.utcNow env.clock c).1 := by
  unfold Store.refreshHealthVerdict Store.publishPass
  change (if _ : s.integrityFailed = true then s else if walkErrors P env.fails c.disk ≠ [] then _
    else _) = _
  split_ifs
  · rfl
  · rfl
  · cases snapshotBoundary c.view none <;> rfl

/-! ## Steps -/

/-- An instance in time. -/
structure Instance where
  store : Store
  conn : Conn
  /-- What the walks found that are not published yet. -/
  walks : List (List String)
  /-- `time.monotonic()`. -/
  now : ℚ
  /-- When the last passing verification was completed. -/
  verified : ℚ

/-- A step of an instance. -/
inductive Activity where
  | tick (now : ℚ)
  | write (env : Env) (call : Call)
  | walk (fails : Option PyErr)
  | publish (errors : List String) (utcNow : Timestamp)
  | refuse (diagnostic : Refusal) (detail : String)
  | checkpoint (checkpoint : CheckpointView)
  | others (db : Db) (locked : Bool)

namespace Instance

/-- The environment of a call that is made now. -/
def env (i : Instance) (env : Env) : Env := { env with gateClock := i.now, latchClock := i.now }

variable (P) in
/-- The outcome of a call. -/
def perform (i : Instance) (env : Env) (call : Call) : Outcome Response :=
  i.store.perform P (i.env env) i.conn call

variable (P) in
/-- The instance after a call. -/
def write (i : Instance) (env : Env) (call : Call) : Instance :=
  { i with store := (i.perform P env call).store, conn := (i.perform P env call).conn }

variable (P) in
/-- The instance after a walk, which a latched one does not start. -/
def walk (i : Instance) (fails : Option PyErr) : Instance :=
  if i.store.integrityFailed then i
  else { i with walks := walkErrors P fails i.conn.disk :: i.walks }

/-- What the publication of a walk leaves and returns. -/
def published (i : Instance) (errors : List String) (utcNow : Timestamp) : Store × HealthVerdict :=
  i.store.publishPass errors utcNow i.now i.conn

/-- The instance after the publication of a walk; it completes a passing verification when
    the verdict is ready. -/
def publish (i : Instance) (errors : List String) (utcNow : Timestamp) : Instance :=
  { i with
    store := (i.published errors utcNow).1,
    verified := if (i.published errors utcNow).2.ready then i.now else i.verified }

end Instance

variable (P) in
/-- The steps of an instance. The clock is monotone, a walk is published after it was made,
    and other connections leave a log that continues the one before; what they leave in the
    other tables may be anything. -/
inductive Acts (i : Instance) : Activity → Instance → Prop where
  | tick {now : ℚ} (later : i.now ≤ now) : Acts i (.tick now) { i with now }
  | write (env : Env) (call : Call) : Acts i (.write env call) (i.write P env call)
  | walk (fails : Option PyErr) : Acts i (.walk fails) (i.walk P fails)
  | publish {errors : List String} (walked : errors ∈ i.walks) (utcNow : Timestamp) :
      Acts i (.publish errors utcNow) (i.publish errors utcNow)
  | refuse (diagnostic : Refusal) (detail : String) : Acts i (.refuse diagnostic detail)
      { i with store := i.store.refuseStartupCheckpoint diagnostic detail i.now }
  | checkpoint (checkpoint : CheckpointView) : Acts i (.checkpoint checkpoint)
      { i with store := (i.store.applyStartupCheckpoint i.now i.conn checkpoint).store }
  | others {db : Db} {locked : Bool} (free : i.conn.pending = none)
      (grows : i.conn.disk.log.rows <+: db.log.rows) (numbered : db.log.Numbered) :
      Acts i (.others db locked) { i with conn := ⟨db, none, locked⟩ }

variable (P) in
/-- A sequence of steps. -/
inductive Runs : Instance → List Activity → Instance → Prop where
  | nil (i : Instance) : Runs i [] i
  | cons {i j k : Instance} {a : Activity} {as : List Activity} (first : Acts P i a j)
      (rest : Runs j as k) : Runs i (a :: as) k

variable (P) in
/-- An instance that has just started. -/
def Instance.Started (i : Instance) : Prop :=
  ∃ (env : OpenEnv) (locked : Bool) (db disk : Db) (s : Store),
    openStore P env locked db = (disk, .ok s) ∧ i = ⟨s, ⟨disk, none, false⟩, [], env.clock, env.clock⟩

/-- A COMMIT of the step does not leave its transaction active. -/
def Activity.Clean : Activity → Prop
  | .write env _ => ∀ e, env.commit ≠ .active e
  | _ => True

/-! ## What a step keeps -/

/-- The head of the log, when it had some size. -/
def Db.HasHead (db : Db) (head : PyStr) (size : Int) : Prop :=
  ∃ n ≤ db.log.rows.length, size = n ∧
    head = ((db.log.rows.take n).getLast?.map (·.entryHash)).getD genesis

theorem Db.HasHead.mono {db db' : Db} {head : PyStr} {size : Int} (h : db.HasHead head size)
    (hl : db.log.rows <+: db'.log.rows) : db'.HasHead head size := by
  obtain ⟨n, hn, hsize, hhead⟩ := h
  obtain ⟨t, ht⟩ := hl
  refine ⟨n, ?_, hsize, ?_⟩
  · rw [← ht, List.length_append]
    omega
  · rw [← ht, List.take_append_of_le_length hn]
    exact hhead

/-- The boundary of a log is its head. -/
theorem hasHead_of_snapshotBoundary {db : Db} (hn : db.log.Numbered) {b : SnapshotBoundary}
    (h : snapshotBoundary db none = .ok b) :
    db.HasHead b.head b.logSize ∧ b.logSize = db.log.rows.length := by
  have hsize : db.size = db.log.rows.length := hn.last?
  unfold snapshotBoundary at h
  simp only [Option.getD_none] at h
  split at h
  · cases h
  split at h
  · rename_i hzero
    split at h
    · cases h
    · obtain rfl := Except.ok.inj h
      exact ⟨⟨0, Nat.zero_le _, rfl, rfl⟩, hzero ▸ hsize⟩
  rename_i hne
  split at h
  · cases h
  rename_i cached _
  split at h
  · cases h
  rename_i anchor hanchor
  split at h
  · cases h
  rename_i hsame
  split at h
  · cases h
  obtain rfl := Except.ok.inj h
  refine ⟨⟨db.log.rows.length, le_rfl, hsize, ?_⟩, hsize⟩
  -- The row at the size of the log is the last one.
  obtain ⟨m, hm⟩ := Nat.exists_eq_succ_of_ne_zero (n := db.log.rows.length) (by omega)
  have hlast : db.log.rows.getLast? = some anchor := by
    rw [List.getLast?_eq_getElem?, hm, Nat.succ_sub_one, ← hn.find? m, ← hanchor, hsize, hm]
    rfl
  rw [List.take_length, hlast]
  exact (not_not.1 (not_or.1 hsame).1).symm

theorem Appended.numbered {db db' : Db} {record : Dict} {createdAt : PyStr} {body root : Bytes}
    {frontier : List (Merkle.Summary Bytes)} {entry : LogEntry}
    (h : Appended P db record createdAt body frontier root entry db') (hn : db.log.Numbered) :
    db'.log.Numbered := by
  have hr := h.result
  subst hr
  refine (hn.put ?_).2
  have hseq := h.seq
  have hsize : db.size = db.log.rows.length := hn.last?
  change entry.seq = _
  omega

theorem Imports.numbered {createdAt : PyStr} {records : List (PyStr × Dict)} {db db' : Db}
    {entries : List LogEntry} (h : Imports P createdAt records db entries db')
    (hn : db.log.Numbered) : db'.log.Numbered := by
  induction h with
  | nil => exact hn
  | skip _ _ ih => exact ih hn
  | take _ appended _ ih => exact ih (appended.numbered hn)

/-- A call publishes the last row it adds to the log. -/
theorem Performs.published {call : Call} {db db' : Db} {response : Response}
    {published : Option LogEntry} (h : Performs P call db response published db')
    (hn : db.log.Numbered) : db'.log.Numbered ∧ ∃ entries : List LogEntry,
      db'.log.rows = db.log.rows ++ entries.map (LogEntry.row call.createdAt) ∧
        published = entries.getLast? := by
  cases h with
  | append appended => exact ⟨appended.numbered hn, [_], appended.row_eq, rfl⟩
  | replay => exact ⟨hn, [], (List.append_nil _).symm, rfl⟩
  | @submit _ _ _ _ _ now _ _ _ _ _ _ _ _ _ _ appended =>
    have hpruned : (db.pruned now).log.Numbered := hn
    exact ⟨appended.numbered hpruned, [_], appended.row_eq, rfl⟩
  | imports h => exact ⟨h.numbered hn, _, h.log_rows, rfl⟩
  | importsOffered _ _ h => exact ⟨h.numbered hn, _, h.log_rows, rfl⟩
  | @upstream _ _ _ _ _ _ entries _ _ _ h =>
    split_ifs
    · exact ⟨h.numbered hn, entries, h.log_rows, rfl⟩
    · exact ⟨h.numbered hn, entries, h.log_rows, rfl⟩

/-- A ready instance publishes a head of the log it committed, at or above the one before. -/
theorem hasHead_publish {call : Call} {db db' : Db} {response : Response}
    {published : Option LogEntry} (h : Performs P call db response published db')
    (hn : db.log.Numbered) {s : Store} (hs : db.HasHead s.verifiedHead s.verifiedLogSize) :
    db'.HasHead (s.publish published).verifiedHead (s.publish published).verifiedLogSize ∧
      s.verifiedLogSize ≤ (s.publish published).verifiedLogSize := by
  obtain ⟨hn', entries, hrows, rfl⟩ := h.published hn
  cases hl : entries.getLast? with
  | none => exact ⟨hs.mono ⟨_, hrows.symm⟩, le_rfl⟩
  | some entry =>
    have hlast : db'.log.rows.getLast? = some (entry.row call.createdAt) := by
      rw [hrows, List.getLast?_append, List.getLast?_map, hl]
      rfl
    have hsize : entry.seq = db'.log.rows.length := by
      have := hn'.last?
      rw [Table.last?, hlast] at this
      exact this
    refine ⟨⟨db'.log.rows.length, le_rfl, hsize, ?_⟩, ?_⟩
    · rw [List.take_length, hlast]
      rfl
    · obtain ⟨n, hle, hv, -⟩ := hs
      have : db.log.rows.length ≤ db'.log.rows.length := by
        rw [hrows, List.length_append]
        omega
      change s.verifiedLogSize ≤ entry.seq
      omega

/-! ## Latched instances -/

theorem latchIntegrityFailure_of_failed {s : Store} (h : s.integrityFailed = true) (error : String)
    (now : ℚ) : s.latchIntegrityFailure error now = s := if_pos h

/-- A call on a latched instance raises, and changes nothing. -/
theorem perform_of_failed {i : Instance} (h : i.store.integrityFailed = true) (env : Env)
    (call : Call) : (∃ e, (i.perform P env call).result = .error e) ∧
      (i.perform P env call).conn = i.conn ∧ (i.perform P env call).store = i.store := by
  have hdone := perform_performed (P := P) (i.env env) i.conn i.store call
  have hnever : i.store.requireWritesAllowed (i.env env).gateClock ≠ .ok () := by
    intro hok
    rw [Store.requireWritesAllowed, h, Bool.true_or, if_pos rfl] at hok
    cases hok
  unfold Instance.perform
  generalize i.store.perform P (i.env env) i.conn call = o at hdone
  cases hdone with
  | refused e store =>
    rcases store with rfl | ⟨m, rfl⟩
    · exact ⟨⟨e, rfl⟩, rfl, rfl⟩
    · exact ⟨⟨e, rfl⟩, rfl, latchIntegrityFailure_of_failed h m _⟩
  | leftActive _ _ _ _ allowed => exact absurd allowed hnever
  | done _ _ _ allowed => exact absurd allowed hnever

theorem publishPass_of_failed {s : Store} (h : s.integrityFailed = true) (errors : List String)
    (utcNow : Timestamp) (clock : ℚ) (c : Conn) :
    s.publishPass errors utcNow clock c = (s, s.failedVerdict) := dif_pos h

/-- No step changes a latched instance. -/
theorem Acts.of_failed {i j : Instance} {a : Activity} (h : Acts P i a j)
    (hf : i.store.integrityFailed = true) : j.store = i.store := by
  cases h with
  | tick => rfl
  | write env call => exact (perform_of_failed hf env call).2.2
  | walk fails =>
    rw [Instance.walk, if_pos hf]
  | publish _ utcNow =>
    rw [Instance.publish, Instance.published, publishPass_of_failed hf]
  | refuse diagnostic detail =>
    change i.store.refuseStartupCheckpoint diagnostic detail i.now = i.store
    rw [Store.refuseStartupCheckpoint, if_pos hf, latchIntegrityFailure_of_failed hf]
  | checkpoint checkpoint =>
    change (i.store.applyStartupCheckpoint i.now i.conn checkpoint).store = i.store
    unfold Store.applyStartupCheckpoint
    split
    · rfl
    · rfl
    · rw [Store.refuseStartupCheckpoint, if_pos hf, latchIntegrityFailure_of_failed hf]
  | others => rfl

theorem Runs.of_failed {i j : Instance} {as : List Activity} (h : Runs P i as j)
    (hf : i.store.integrityFailed = true) : j.store = i.store := by
  induction h with
  | nil => rfl
  | cons first _ ih =>
    have hs := first.of_failed hf
    rw [ih (hs ▸ hf), hs]

/-! ## The invariant of an instance -/

/-- An instance whose COMMITs have not left a transaction active. -/
structure Instance.Sound (i : Instance) : Prop where
  free : i.conn.pending = none
  numbered : i.conn.disk.log.Numbered
  head : i.conn.disk.HasHead i.store.verifiedHead i.store.verifiedLogSize
  /-- The time that staleness is measured from. -/
  refreshed : i.store.integrityFailed = false → i.store.lastRefresh = i.verified

/-- A latch keeps what was verified. -/
theorem Instance.Sound.latch {i : Instance} (h : i.Sound) {s : Store} (error : String) (now : ℚ)
    (hhead : s.verifiedHead = i.store.verifiedHead)
    (hsize : s.verifiedLogSize = i.store.verifiedLogSize) :
    Instance.Sound { i with store := s.latchIntegrityFailure error now } := by
  obtain ⟨h₁, h₂, -⟩ := latchIntegrityFailure_verified s error now
  refine ⟨h.free, h.numbered, ?_, fun hf => ?_⟩
  · change i.conn.disk.HasHead (s.latchIntegrityFailure error now).verifiedHead
      (s.latchIntegrityFailure error now).verifiedLogSize
    rw [h₁, h₂, hhead, hsize]
    exact h.head
  · rw [latchIntegrityFailure_failed s error now] at hf
    cases hf

theorem Instance.Sound.refuse {i : Instance} (h : i.Sound) (diagnostic : Refusal) (detail : String) :
    Instance.Sound { i with store := i.store.refuseStartupCheckpoint diagnostic detail i.now } ∧
      i.store.verifiedLogSize ≤
        (i.store.refuseStartupCheckpoint diagnostic detail i.now).verifiedLogSize := by
  unfold Store.refuseStartupCheckpoint
  by_cases hf : i.store.integrityFailed = true
  · rw [if_pos hf]
    exact ⟨h.latch detail i.now rfl rfl, (latchIntegrityFailure_verified _ _ _).2.1.ge⟩
  · rw [if_neg hf]
    exact ⟨h.latch detail i.now rfl rfl, (latchIntegrityFailure_verified _ _ _).2.1.ge⟩

/-- What the publication of a walk leaves: the instance as it was, a latch, or the head of the
    log. -/
theorem publishPass_cases (s : Store) (errors : List String) (utcNow : Timestamp) (clock : ℚ)
    (c : Conn) :
    (s.publishPass errors utcNow clock c = (s, s.failedVerdict) ∧ s.integrityFailed = true) ∨
      (∃ m, s.publishPass errors utcNow clock c =
        (s.latchIntegrityFailure m clock, (s.latchIntegrityFailure m clock).failedVerdict)) ∨
      ∃ boundary, snapshotBoundary c.view none = .ok boundary ∧
        (s.publishPass errors utcNow clock c).1.verifiedHead = boundary.head ∧
        (s.publishPass errors utcNow clock c).1.verifiedLogSize = boundary.logSize ∧
        (s.publishPass errors utcNow clock c).1.lastRefresh = clock ∧
        (s.publishPass errors utcNow clock c).2.ready = true := by
  unfold Store.publishPass
  by_cases hf : s.integrityFailed = true
  · rw [dif_pos hf]
    exact .inl ⟨rfl, hf⟩
  rw [dif_neg hf]
  by_cases he : errors ≠ []
  · rw [if_pos he]
    exact .inr (.inl ⟨_, rfl⟩)
  rw [if_neg he]
  cases hb : snapshotBoundary c.view none with
  | error e => exact .inr (.inl ⟨_, rfl⟩)
  | ok boundary => exact .inr (.inr ⟨boundary, rfl, rfl, rfl, rfl, rfl⟩)

/-- Every step but a COMMIT that leaves its transaction active keeps the invariant, and the
    verified size does not decrease. -/
theorem Acts.sound {i j : Instance} {a : Activity} (h : Acts P i a j) (hc : a.Clean)
    (hi : i.Sound) : j.Sound ∧ i.store.verifiedLogSize ≤ j.store.verifiedLogSize := by
  cases h with
  | tick => exact ⟨⟨hi.free, hi.numbered, hi.head, hi.refreshed⟩, le_rfl⟩
  | write env call =>
    have hdone := perform_performed (P := P) (i.env env) i.conn i.store call
    unfold Instance.write Instance.perform
    generalize i.store.perform P (i.env env) i.conn call = o at hdone
    cases hdone with
    | refused e store =>
      rcases store with rfl | ⟨m, rfl⟩
      · exact ⟨hi, le_rfl⟩
      · exact ⟨hi.latch m _ rfl rfl, (latchIntegrityFailure_verified _ m _).2.1.ge⟩
    | leftActive _ _ _ _ _ commit => exact absurd commit.choose_spec (hc _)
    | done checked free unlocked allowed commit performs =>
      obtain ⟨hhead, hle⟩ := hasHead_publish performs hi.numbered hi.head
      refine ⟨⟨hi.free, (performs.published hi.numbered).1, hhead, fun hf => ?_⟩, hle⟩
      unfold Store.publish at hf ⊢
      split at hf
      · exact hi.refreshed hf
      · exact hi.refreshed hf
  | walk fails =>
    unfold Instance.walk
    split_ifs
    · exact ⟨hi, le_rfl⟩
    · exact ⟨⟨hi.free, hi.numbered, hi.head, hi.refreshed⟩, le_rfl⟩
  | @publish errors _ utcNow =>
    have hcases := publishPass_cases i.store errors utcNow i.now i.conn
    rcases hcases with ⟨hp, hf⟩ | ⟨m, hp⟩ | ⟨boundary, hb, hhead, hsize, hrefresh, hready⟩
    · rw [Instance.publish, Instance.published, hp]
      refine ⟨⟨hi.free, hi.numbered, hi.head, fun h => ?_⟩, le_rfl⟩
      exact absurd (hf.symm.trans h) (by decide)
    · rw [Instance.publish, Instance.published, hp]
      obtain ⟨-, hsize, -⟩ := latchIntegrityFailure_verified i.store m i.now
      obtain ⟨h₁, h₂, h₃, -⟩ := hi.latch m i.now rfl rfl
      refine ⟨⟨h₁, h₂, h₃, fun h => ?_⟩, hsize.ge⟩
      rw [latchIntegrityFailure_failed] at h
      cases h
    · have hview : i.conn.view = i.conn.disk := by rw [Conn.view, hi.free, Option.getD_none]
      rw [hview] at hb
      obtain ⟨hhas, hlen⟩ := hasHead_of_snapshotBoundary hi.numbered hb
      obtain ⟨n, hn, hold, -⟩ := hi.head
      refine ⟨⟨hi.free, hi.numbered, ?_, fun _ => ?_⟩, ?_⟩
      · change i.conn.disk.HasHead (i.store.publishPass errors utcNow i.now i.conn).1.verifiedHead
          (i.store.publishPass errors utcNow i.now i.conn).1.verifiedLogSize
        rw [hhead, hsize]
        exact hhas
      · change (i.store.publishPass errors utcNow i.now i.conn).1.lastRefresh =
          if (i.store.publishPass errors utcNow i.now i.conn).2.ready then _ else _
        rw [hrefresh, if_pos hready]
      · change _ ≤ (i.store.publishPass errors utcNow i.now i.conn).1.verifiedLogSize
        rw [hsize, hlen, hold]
        exact_mod_cast hn
  | refuse diagnostic detail => exact hi.refuse diagnostic detail
  | checkpoint checkpoint =>
    unfold Store.applyStartupCheckpoint
    split
    · exact ⟨hi, le_rfl⟩
    · exact ⟨hi, le_rfl⟩
    · exact hi.refuse _ _
  | others free grows numbered =>
    exact ⟨⟨rfl, numbered, hi.head.mono grows, hi.refreshed⟩, le_rfl⟩

theorem Runs.sound {i j : Instance} {as : List Activity} (h : Runs P i as j)
    (hc : ∀ a ∈ as, a.Clean) (hi : i.Sound) :
    j.Sound ∧ i.store.verifiedLogSize ≤ j.store.verifiedLogSize := by
  induction h with
  | nil => exact ⟨hi, le_rfl⟩
  | cons first _ ih =>
    obtain ⟨ha, has⟩ := List.forall_mem_cons.1 hc
    obtain ⟨hj, hle⟩ := first.sound ha hi
    obtain ⟨hk, hle'⟩ := ih has hj
    exact ⟨hk, hle.trans hle'⟩

/-- The check of a start numbers the log. -/
theorem numbered_of_ensureBoundaries {begins : Option PyErr} {db db' : Db}
    (h : ensureBoundaries P begins db = .ok db') : db.log.Numbered := by
  unfold ensureBoundaries at h
  split_ifs at h with hseqs
  intro n row hn
  have hrow := congrArg (·[n]?) (not_not.1 hseqs)
  have hlt := (List.getElem?_eq_some_iff.1 hn).1
  simp only [List.getElem?_map, hn, List.getElem?_range hlt, Option.map_some] at hrow
  exact Option.some.inj hrow

/-- A started instance has verified the head of its log. -/
theorem Instance.Started.sound {i : Instance} (h : i.Started P) : i.Sound := by
  obtain ⟨env, locked, db, disk, s, hopen, rfl⟩ := h
  obtain ⟨db', -, hensure, head, hhead, rfl⟩ := openStore_ensured hopen
  have hn : disk.log.Numbered := by
    have hlog := numbered_of_ensureBoundaries hensure
    obtain ⟨b, f, rfl⟩ := ensureBoundaries_frame hensure
    exact hlog
  obtain ⟨boundary, hb, rfl⟩ := Wire.Except.map_eq_ok hhead
  exact ⟨rfl, hn, (hasHead_of_snapshotBoundary hn hb).1, fun _ => rfl⟩

/-! ## The guarantee -/

variable (P) in
/-- What an instance promises, wherever it has come. -/
structure Instance.Guaranteed (i : Instance) : Prop where
  /-- A latched instance is never ready again, keeps its error and its code, and commits
      nothing. -/
  latched : i.store.integrityFailed = true → ∀ as j, Runs P i as j →
    j.store.healthError = i.store.healthError ∧ j.store.healthCode = i.store.healthCode ∧
      (∀ now, (j.store.healthVerdict now).ready = false) ∧
      (∀ errors utcNow, (j.published errors utcNow).2.ready = false) ∧
      ∀ env call, (∃ e, (j.perform P env call).result = .error e) ∧
        (j.perform P env call).conn = j.conn
  /-- A call commits at most twice the verification interval after the last passing
      verification. -/
  recent : ∀ env call, (∃ r, (i.perform P env call).result = .ok r) ∨
    (i.perform P env call).conn.disk ≠ i.conn.disk →
      i.now - i.verified ≤ i.store.verifyInterval * 2
  /-- The verified head is one of the committed log. -/
  head : i.conn.disk.HasHead i.store.verifiedHead i.store.verifiedLogSize
  /-- The verified size does not decrease. -/
  grows : ∀ as j, Runs P i as j → (∀ a ∈ as, a.Clean) →
    i.store.verifiedLogSize ≤ j.store.verifiedLogSize

/-- A write that is permitted follows a recent verification. -/
theorem Instance.Sound.recent {i : Instance} (h : i.Sound)
    (hallowed : i.store.requireWritesAllowed i.now = .ok ()) :
    i.now - i.verified ≤ i.store.verifyInterval * 2 := by
  unfold Store.requireWritesAllowed at hallowed
  split_ifs at hallowed with hf hstale
  have hfailed : i.store.integrityFailed = false := by
    simpa using (not_or.1 (Bool.or_eq_true_iff.not.1 hf)).1
  have hle := not_lt.1 (of_decide_eq_false (Bool.eq_false_iff.2 hstale))
  rwa [h.refreshed hfailed] at hle

/-- In every run in which no COMMIT leaves its transaction active, an instance keeps its
    promises. -/
theorem readiness_guaranteed {i j : Instance} {as : List Activity} (hs : i.Started P)
    (hr : Runs P i as j) (hc : ∀ a ∈ as, a.Clean) : j.Guaranteed P := by
  have hj : j.Sound := (hr.sound hc hs.sound).1
  refine ⟨fun hf bs k hk => ?_, fun env call hcommit => ?_, hj.head,
    fun bs k hk hcs => (hk.sound hcs hj).2⟩
  · have hstore : k.store = j.store := hk.of_failed hf
    have hfk : k.store.integrityFailed = true := hstore ▸ hf
    have hready : k.store.healthReady = false := k.store.failed_not_ready hfk
    refine ⟨by rw [hstore], by rw [hstore], fun now => ?_, fun errors utcNow => ?_,
      fun env call => ?_⟩
    · rw [Store.healthVerdict, hready]
      rfl
    · rw [Instance.published, publishPass_of_failed hfk]
      rfl
    · obtain ⟨herror, hconn, -⟩ := perform_of_failed hfk env call
      exact ⟨herror, hconn⟩
  · -- Only a call that passed the write gate returns or changes the database.
    have hdone := perform_performed (P := P) (j.env env) j.conn j.store call
    unfold Instance.perform at hcommit
    generalize j.store.perform P (j.env env) j.conn call = o at hdone hcommit
    cases hdone with
    | refused e =>
      rcases hcommit with ⟨r, hr⟩ | hne
      · cases hr
      · exact absurd rfl hne
    | leftActive e =>
      rcases hcommit with ⟨r, hr⟩ | hne
      · cases hr
      · exact absurd rfl hne
    | done _ _ _ allowed => exact hj.recent allowed

/-! ## On the sample registry -/

/-- The first instance on a new file. -/
def sampleInstance : Instance := ⟨sampleStore, sampleConn, [], 0, 0⟩

theorem started_sampleInstance : sampleInstance.Started .sample :=
  ⟨sampleStart, false, .absent, sampleConn.disk, sampleStore, openStore_sample, rfl⟩

theorem readiness_guaranteed_sample :
    (sampleInstance.write .sample (.calm 0) sampleAppend).Guaranteed .sample := by
  refine readiness_guaranteed started_sampleInstance (.cons (.write (.calm 0) sampleAppend) (.nil _))
    fun a ha => ?_
  obtain rfl := List.mem_singleton.1 ha
  intro e he
  cases he

/-- The instance after an append whose COMMIT fails and leaves its transaction active, and a
    health pass. -/
def sampleMisled : Instance :=
  ((sampleInstance.write .sample sampleCommitFailure sampleAppend).walk .sample none).publish []
    sampleTime

set_option maxRecDepth 10000 in
/-- After an append whose COMMIT fails and leaves its transaction active, a passing health pass
    takes the head of that transaction for verified, of which nothing is committed. -/
theorem failedCommit_misleads_verdict : sampleInstance.Started .sample ∧ ∃ as,
    Runs .sample sampleInstance as sampleMisled ∧
      ¬sampleMisled.conn.disk.HasHead sampleMisled.store.verifiedHead
        sampleMisled.store.verifiedLogSize := by
  refine ⟨started_sampleInstance, _, .cons (.write sampleCommitFailure sampleAppend)
    (.cons (.walk none) (.cons (.publish ?_ sampleTime) (.nil _))), ?_⟩
  · decide +kernel
  · rintro ⟨n, hn, hsize, -⟩
    have hempty : sampleMisled.conn.disk.log.rows.length = 0 := by decide +kernel
    have hone : sampleMisled.store.verifiedLogSize = 1 := by decide +kernel
    omega

end SkillRegistry
