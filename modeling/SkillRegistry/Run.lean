import SkillRegistry.Store.Open
import SkillRegistry.Checkpoint

/-!
# Runs of a registry

A registry over time: one database file, and the instances of the store that are open
on it. SQLite serializes their transactions, so a run is a list of events in the order
in which they take effect.

* `World` is the file and the instances, and `run` a list of events;
* `Effect` is all that an event can do to the file, and `step_effect` that it does;
* `run_invariant` says that from a fresh file the representation invariant holds
  throughout, and `storeRepresentation` what it amounts to.
-/

namespace SkillRegistry

open Wire Merkle

variable (P : Platform)

/-! ## Worlds -/

/-- A database file, and the instances on it. -/
structure World where
  disk : Db
  /-- The instance whose COMMIT left its transaction active, and the database inside it. -/
  holder : Option (Nat × Db)
  stores : Nat → Option Store

/-- An event of a run. -/
inductive Event where
  | start (i : Nat) (env : OpenEnv)
  | close (i : Nat)
  | call (i : Nat) (env : Env) (call : Call)
  | refresh (i : Nat) (env : RefreshEnv)
  | checkpoint (i : Nat) (now : ℚ) (checkpoint : CheckpointView)

namespace World

/-- A file without instances. -/
def ofFile (db : Db) : World := ⟨db, none, fun _ => none⟩

/-- No file yet. -/
def fresh : World := ofFile .absent

/-- What the connection of an instance sees. -/
def conn (w : World) (i : Nat) : Conn where
  disk := w.disk
  pending := w.holder.bind fun h => if h.1 = i then some h.2 else none
  locked := w.holder.any fun h => h.1 ≠ i

/-- The world after an instance left its connection and itself so. -/
def leave (w : World) (i : Nat) (c : Conn) (s : Option Store) : World where
  disk := c.disk
  holder := match c.pending with
    | some db => some (i, db)
    | none => w.holder.filter fun h => h.1 ≠ i
  stores := Function.update w.stores i s

/-- The outcome of a call on an instance that is open. -/
def perform (w : World) (i : Nat) (env : Env) (call : Call) : Option (Outcome Response) :=
  (w.stores i).map fun s => s.perform P env (w.conn i) call

/-- The world after an event. -/
def step (w : World) : Event → World
  | .start i env =>
    match w.stores i with
    | some _ => w
    | none =>
      let opened := openStore P env w.holder.isSome w.disk
      w.leave i { w.conn i with disk := opened.1 } opened.2.toOption
  -- closing a connection rolls its transaction back
  | .close i => w.leave i { w.conn i with pending := none } none
  | .call i env call =>
    match w.perform P i env call with
    | some o => w.leave i o.conn (some o.store)
    | none => w
  | .refresh i env =>
    match w.stores i with
    | some s => w.leave i (w.conn i) (some (s.refreshHealthVerdict P env (w.conn i)))
    | none => w
  | .checkpoint i now checkpoint =>
    match w.stores i with
    | some s => w.leave i (w.conn i) (some (s.applyStartupCheckpoint now (w.conn i) checkpoint).store)
    | none => w

/-- The world after some events. -/
def run (w : World) : List Event → World
  | [] => w
  | e :: es => run (w.step P e) es

end World

/-! ## What an event does to the file -/

/-- A call that returns, and the database it commits. -/
structure Commits (w : World) (i : Nat) (env : Env) (call : Call) (r : Response) (db : Db) : Prop where
  opened : ∃ s, w.stores i = some s ∧ s.requireWritesAllowed env.gateClock = .ok ()
  free : w.holder = none
  checked : call.check = .ok ()
  returned : (w.perform P i env call).map (·.result) = some (.ok r)
  performs : ∃ published, Performs P call w.disk r published db
  disk : (w.step P (.call i env call)).disk = db

/-- What an event does to the file: nothing, what a start does, or what a call commits. -/
inductive Effect (w : World) : Event → Db → Prop
  | same (e : Event) : Effect w e w.disk
  | started {i : Nat} {env : OpenEnv} (closed : w.stores i = none) :
      Effect w (.start i env) (openStore P env w.holder.isSome w.disk).1
  | called {i : Nat} {env : Env} {call : Call} {r : Response} {db : Db}
      (commits : Commits P w i env call r db) : Effect w (.call i env call) db

variable {P}

namespace World

theorem holder_eq_none {w : World} {i : Nat} (hp : (w.conn i).pending = none)
    (hl : (w.conn i).locked = false) : w.holder = none := by
  obtain ⟨disk, holder, stores⟩ := w
  cases holder with
  | none => rfl
  | some h =>
    by_cases hi : h.1 = i
    · simp [conn, hi] at hp
    · simp [conn, hi] at hl

/-- A call commits, or it raises and leaves the file as it was. -/
theorem call_cases (w : World) (i : Nat) (env : Env) (call : Call) :
    (∃ r db, Commits P w i env call r db) ∨
      (w.step P (.call i env call)).disk = w.disk ∧
        ∀ r, (w.perform P i env call).map (·.result) ≠ some (.ok r) := by
  cases hs : w.stores i with
  | none =>
    have hp : w.perform P i env call = none := by rw [perform, hs]; rfl
    refine .inr ⟨by rw [step, hp], fun r hr => ?_⟩
    rw [hp] at hr
    cases hr
  | some s =>
    have hp : w.perform P i env call = some (s.perform P env (w.conn i) call) := by
      rw [perform, hs]
      rfl
    have hdone := perform_performed (P := P) env (w.conn i) s call
    generalize s.perform P env (w.conn i) call = o at hdone hp
    have hstep : (w.step P (.call i env call)).disk = o.conn.disk := by rw [step, hp]; rfl
    cases hdone with
    | refused e => exact .inr ⟨hstep, fun r hr => by rw [hp] at hr; cases hr⟩
    | leftActive e => exact .inr ⟨hstep, fun r hr => by rw [hp] at hr; cases hr⟩
    | @done r published db checked free unlocked allowed commit performs =>
      exact .inl ⟨r, db, ⟨s, hs, allowed⟩, holder_eq_none free unlocked, checked, by rw [hp]; rfl,
        ⟨published, performs⟩, hstep⟩

/-- A call that returns commits. -/
theorem commits_of_returned {w : World} {i : Nat} {env : Env} {call : Call} {r : Response}
    (h : (w.perform P i env call).map (·.result) = some (.ok r)) :
    ∃ db, Commits P w i env call r db := by
  rcases w.call_cases (P := P) i env call with ⟨r', db, hc⟩ | ⟨-, hnone⟩
  · obtain rfl := Except.ok.inj (Option.some.inj (hc.returned.symm.trans h))
    exact ⟨db, hc⟩
  · exact absurd h (hnone r)

theorem leave_holder {w : World} {i : Nat} {s : Option Store} :
    (w.leave i (w.conn i) s).holder = w.holder := by
  obtain ⟨disk, holder, stores⟩ := w
  cases holder with
  | none => rfl
  | some h =>
    obtain ⟨j, db⟩ := h
    by_cases hj : j = i
    · subst hj
      simp [leave, conn]
    · simp [leave, conn, hj]

/-- A call whose statements cannot succeed changes nothing in the file, and leaves no
    transaction open. -/
theorem step_of_never {w : World} {call : Call} (i : Nat) (env : Env)
    (h : ∀ {r published db}, ¬Performs P call w.disk r published db) :
    (w.step P (.call i env call)).disk = w.disk ∧ (w.step P (.call i env call)).holder = w.holder := by
  rw [step, perform]
  cases hs : w.stores i with
  | none => exact ⟨rfl, rfl⟩
  | some s =>
    have hconn := (perform_of_never (c := w.conn i) h s env).2
    simp only [Option.map_some, hconn]
    exact ⟨rfl, leave_holder⟩

/-- Every event has one of the effects. -/
theorem step_effect (w : World) (e : Event) : Effect P w e (w.step P e).disk := by
  cases e with
  | start i env =>
    rw [step]
    split
    · exact .same _
    · rename_i hs
      exact .started hs
  | close i => exact .same _
  | call i env call =>
    rcases w.call_cases (P := P) i env call with ⟨r, db, h⟩ | ⟨h, -⟩
    · rw [h.disk]
      exact .called h
    · rw [h]
      exact .same _
  | refresh i env =>
    rw [step]
    split <;> exact .same _
  | checkpoint i now checkpoint =>
    rw [step]
    split <;> exact .same _

/-- What every effect keeps holds after a run. -/
theorem run_induction {p : Db → Prop} (hp : ∀ (w : World) e db, Effect P w e db → p w.disk → p db)
    (w : World) (es : List Event) (h : p w.disk) : p (w.run P es).disk := by
  induction es generalizing w with
  | nil => exact h
  | cons e es ih => exact ih _ (hp w e _ (w.step_effect e) h)

theorem run_append (w : World) (es es' : List Event) :
    w.run P (es ++ es') = (w.run P es).run P es' := by
  induction es generalizing w with
  | nil => rfl
  | cons e es ih => exact ih _

end World

/-! ## The invariant over a run -/

theorem Effect.invariant {w : World} {e : Event} {db : Db} (h : Effect P w e db)
    (hi : Invariant P w.disk) : Invariant P db := by
  cases h with
  | same => exact hi
  | started => exact (openStore_kept _ _ _).invariant hi
  | called commits => exact commits.performs.elim fun _ hperf => hperf.invariant hi

/-- Every event keeps the representation invariant. -/
theorem run_invariant (w : World) (es : List Event) (h : Invariant P w.disk) :
    Invariant P (w.run P es).disk :=
  World.run_induction (fun _ _ _ he hi => he.invariant hi) w es h

/-- A submission names its entry as long as the log only grows. -/
theorem Names.mono {db db' : Db} {row : IdempotencyRow} (h : Names P db row)
    (hl : db.log.rows <+: db'.log.rows) : Names P db' row :=
  h.imp fun _ he => ⟨hl.subset he.1, he.2⟩

/-- The response of a submission is read back. -/
theorem pyLoads_responseJson {entry : LogEntry}
    (h : jsonDumps P (StoreTx.responseJson entry) = .ok (StoreTx.responseJson entry).dumps) :
    pyLoads P (StoreTx.responseJson entry).dumps = .ok (.obj (StoreTx.response entry)) := by
  obtain ⟨-, hfit, -⟩ := jsonDumps_eq_ok h
  have hseq : digitsFit (intText entry.seq) = true := (Bool.and_eq_true_iff.1 hfit).1
  have hnum : (StoreTx.responseJson entry).Numeral :=
    Json.every_obj.2 ⟨trivial, by simp [Json.Every, Json.IsNumeral]⟩
  have hnest : ¬P.nesting ≤ 0 := by
    have := P.nesting_lt
    omega
  have hint : pyInt (intText entry.seq) = .ok entry.seq := by
    rw [pyInt, if_pos hseq, intOf_intText]
  rw [pyLoads, loads_dumps _ hnum]
  simp only [StoreTx.responseJson, interp, interpMembers, pyHooks, hnest, if_false, hint, bind,
    Except.bind, Except.map]
  rfl

/-- A call keeps the submissions named. -/
theorem Performs.names {call : Call} {db db' : Db} {response : Response}
    {published : Option LogEntry} (h : Performs P call db response published db')
    (hn : ∀ row ∈ db.idempotency.rows, Names P db row) :
    ∀ row ∈ db'.idempotency.rows, Names P db' row := by
  have hgrows : db.log.rows <+: db'.log.rows := h.log_rows.elim fun _ he => he ▸ List.prefix_append _ _
  have mono {row : IdempotencyRow} (hr : row ∈ db.idempotency.rows) : Names P db' row :=
    (hn row hr).mono hgrows
  cases h with
  | append appended =>
    have hr := appended.result
    subst hr
    exact fun row hrow => mono hrow
  | replay => exact fun row hrow => mono (List.mem_of_mem_filter hrow)
  | @submit record auditorId key bodySha256 createdAt now ttlSeconds _ db₁ body root frontier entry
      _ _ _ appended dumped =>
    intro row hrow
    rcases Table.mem_put.1 hrow with rfl | ⟨hrow, -⟩
    · exact ⟨entry.row createdAt, by
        rw [Db.putSubmission, appended.row_eq]
        exact List.mem_append_right _ (List.mem_singleton_self _), rfl, pyLoads_responseJson dumped⟩
    · have hr := appended.result
      subst hr
      exact mono (List.mem_of_mem_filter hrow)
  | imports h => exact fun row hrow => mono (h.frame.2.2.2.1 ▸ hrow)
  | importsOffered _ _ h => exact fun row hrow => mono (h.frame.2.2.2.1 ▸ hrow)
  | upstream _ _ h =>
    intro row hrow
    refine mono (h.frame.2.2.2.1 ▸ ?_)
    revert hrow
    split_ifs <;> exact id

theorem Effect.names {w : World} {e : Event} {db : Db} (h : Effect P w e db)
    (hn : ∀ row ∈ w.disk.idempotency.rows, Names P w.disk row) :
    ∀ row ∈ db.idempotency.rows, Names P db row := by
  cases h with
  | same => exact hn
  | @started i env closed =>
    have hkept := openStore_kept (P := P) env w.holder.isSome w.disk
    intro row hrow
    exact (hn row (hkept.idempotency ▸ hrow)).mono (hkept.log ▸ List.prefix_rfl)
  | called commits => exact commits.performs.elim fun _ hperf => hperf.names hn

/-! ## The representation of the store -/

variable (P) in
/-- What the tables of a store represent, from scratch. -/
structure Representation (db : Db) : Prop where
  /-- The `seq` of the log are exactly `1, …, n`. -/
  seqs : db.log.rows.map (·.seq) = (List.range db.log.rows.length).map fun i : Nat => (i : Int) + 1
  /-- Each entry is chained to the one before it, over the canonical bytes of its record. -/
  chain : ∀ (i : Nat) row, db.log.rows[i]? = some row →
    row.prevHash = ((db.log.rows.take i).getLast?.map (·.entryHash)).getD genesis ∧
      ∃ record body, pyLoads P row.recordJson = .ok (.obj record) ∧
        canonicalBytes P record = .ok body ∧ entryHash P row.prevHash body = .ok row.entryHash
  /-- The boundaries are those of the prefixes, one for each size. -/
  boundaries : ∀ boundary, boundary ∈ db.boundaries.rows ↔ ∃ (i : Nat) (row : LogRow), db.log.rows[i]? = some row ∧
    boundary.logSize = (i : Int) + 1 ∧ boundary.head = row.entryHash ∧
      merkleRoot P ((db.log.rows.take (i + 1)).map (·.entryHash)) = .ok boundary.merkleRoot ∧
        boundary.createdAt = row.createdAt
  boundaries_length : db.boundaries.rows.length = db.log.rows.length
  /-- The frontier is the one recomputed from the leaves. -/
  frontier : ∃ expected f, recomputePrefix P db.prefixLeaves = .ok (expected, f) ∧
    loadFrontier P db = .ok f
  submissions : ∀ row ∈ db.idempotency.rows, Names P db row

/-- Each row of a log is chained to the one before it. -/
theorem IsLog.chained {seq : Int} {prev : PyStr} {rows : List LogRow} {bodies : List Bytes}
    (h : IsLog P seq prev rows bodies) (i : Nat) (row : LogRow) (hi : rows[i]? = some row) :
    row.prevHash = ((rows.take i).getLast?.map (·.entryHash)).getD prev ∧
      ∃ record body, Holds P row record body ∧ entryHash P row.prevHash body = .ok row.entryHash := by
  induction h generalizing i with
  | nil => cases hi
  | cons _ chained hrow hash _ ih =>
    cases i with
    | zero =>
      obtain rfl := Option.some.inj hi
      exact ⟨chained, _, _, hrow, chained ▸ hash⟩
    | succ i =>
      obtain ⟨hp, hrest⟩ := ih i hi
      refine ⟨?_, hrest⟩
      rw [hp, List.take_succ_cons, List.getLast?_cons]
      cases List.getLast? _ <;> rfl

/-- The Merkle root of the entry hashes of a log is the one of its leaves. -/
theorem IsLog.merkleRoot {seq : Int} {prev : PyStr} {rows : List LogRow} {bodies : List Bytes}
    (h : IsLog P seq prev rows bodies) : SkillRegistry.merkleRoot P (rows.map (·.entryHash)) =
      .ok (merkleRootOf P (rows.map LogRow.leaf)) := by
  rw [← merkleRoot_hexes, hexes, List.map_map]
  exact congrArg _ (List.map_congr_left fun row hr => (h.leaf_spec row hr).1.symm)

theorem Invariant.representation {db : Db} (h : Invariant P db)
    (hn : ∀ row ∈ db.idempotency.rows, Names P db row) : Representation P db := by
  obtain ⟨bodies, hlog⟩ := h.log
  obtain ⟨f, hf, hf'⟩ := hlog.recomputePrefix h.bounded
  obtain ⟨g, hg, hg'⟩ := h.frontier
  refine ⟨numbered_seqs h.numbered, fun i row hi => ?_, fun boundary => ?_, ?_,
    ⟨_, f, hf, hf'.unique hg' ▸ hg⟩, hn⟩
  · obtain ⟨hp, record, body, hrow, hash⟩ := hlog.chained i row hi
    exact ⟨hp, record, body, hrow.loads, hrow.encoded, hash⟩
  · constructor
    · intro hb
      obtain ⟨i, hi⟩ := List.mem_iff_getElem?.1 hb
      have hlt := (List.getElem?_eq_some_iff.1 hi).1
      rw [h.boundaries, boundaryRows, List.length_mapIdx, prefixBoundaries_length,
        leaves_length] at hlt
      have hrow := List.getElem?_eq_getElem hlt
      have hfind := h.find?_boundary hrow
      rw [(numbered_boundaries h.boundaries).find?, hi] at hfind
      obtain rfl := Option.some.inj hfind
      exact ⟨i, _, hrow, rfl, rfl, (hlog.take (i + 1)).merkleRoot, rfl⟩
    · rintro ⟨i, row, hi, h₁, h₂, h₃, h₄⟩
      have hfind := h.find?_boundary hi
      rw [(hlog.take (i + 1)).merkleRoot] at h₃
      obtain ⟨logSize, head, root, createdAt⟩ := boundary
      obtain rfl : logSize = i + 1 := h₁
      obtain rfl : head = row.entryHash := h₂
      obtain rfl := Except.ok.inj h₃
      obtain rfl : createdAt = row.createdAt := h₄
      exact (Table.find?_eq_some.1 hfind).1
  · rw [h.boundaries, boundaryRows, List.length_mapIdx, prefixBoundaries_length, leaves_length]

/-- From a fresh file, every state of every run represents what it is meant to. -/
theorem storeRepresentation (es : List Event) :
    Representation P (World.fresh.run P es).disk := by
  have hinv : Invariant P (World.fresh.run P es).disk :=
    run_invariant World.fresh es (invariant_of_empty rfl rfl rfl)
  exact hinv.representation
    (World.run_induction (fun _ _ _ he hn => he.names hn) World.fresh es nofun)

end SkillRegistry
