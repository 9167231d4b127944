import SkillRegistry.Run

/-!
# Idempotent submissions

A submission is remembered for as long as it is retained: until then, the same auditor
with the same key is answered what was answered first, or is refused, whatever other
calls, starts and failures come in between.

* `Db.Remembers` is a submission in the ledger, and `run_remembers` says that it stays
  there while no clock has reached its expiry;
* `body_of_remembered` is the answer of a call while nothing fails;
* `submission_exactlyOnce` is the law of a whole run.
-/

namespace SkillRegistry

open Wire

/-- The clock of a submission. -/
def Call.clock : Call → Option Int
  | appendIdempotent _ _ _ _ _ now _ => some now
  | append .. | appendImports .. | appendUpstreamImport .. => none

/-- The clock of an event that is a submission. -/
def Event.clock : Event → Option Int
  | call _ _ c => c.clock
  | start .. | close _ | refresh .. | checkpoint .. => none

/-- A submission in the ledger. -/
def Db.Remembers (db : Db) (row : IdempotencyRow) : Prop :=
  db.idempotency.find? row.primaryKey = some row

variable {P : Platform}

/-! ## Retention -/

namespace Db.Remembers

variable {db db' : Db} {row : IdempotencyRow}

theorem congr (h : db.Remembers row) (hi : db'.idempotency = db.idempotency) :
    db'.Remembers row := by
  rw [Db.Remembers, hi]
  exact h

/-- Removing what has expired leaves the others. -/
theorem pruned (h : db.Remembers row) {now : Int} (hnow : now < row.expiresAt) :
    (db.pruned now).Remembers row := by
  rw [Db.Remembers, Db.pruned, Table.find?_filter, show db.idempotency.find? row.primaryKey = _ from h]
  exact Option.filter_some_pos (decide_eq_true hnow)

end Db.Remembers

/-- A call whose clock has not reached the expiry of a submission keeps it. -/
theorem Performs.remembers {call : Call} {db db' : Db} {response : Response}
    {published : Option LogEntry} (h : Performs P call db response published db')
    {row : IdempotencyRow} (hr : db.Remembers row)
    (hclock : ∀ now, call.clock = some now → now < row.expiresAt) : db'.Remembers row := by
  cases h with
  | append appended => exact hr.congr (appended.result ▸ rfl)
  | replay => exact hr.pruned (hclock _ rfl)
  | @submit record auditorId key bodySha256 createdAt now ttlSeconds _ db₁ body root frontier entry
      _ _ fresh appended =>
    have hp := hr.pruned (hclock now rfl)
    -- the key of the new submission was free
    have hne : row.primaryKey ≠ toLex (auditorId, key) := fun heq => by
      rw [Db.Remembers, heq, fresh] at hp
      cases hp
    have hkept : db₁.Remembers row := hp.congr (appended.result ▸ rfl)
    rw [Db.Remembers, Db.putSubmission, Table.find?_put]
    exact (if_neg hne).trans hkept
  | imports h => exact hr.congr h.frame.2.2.2.1
  | importsOffered _ _ h => exact hr.congr h.frame.2.2.2.1
  | upstream _ _ h => split_ifs <;> exact hr.congr h.frame.2.2.2.1

/-- An event whose clock has not reached the expiry of a submission keeps it. -/
theorem Effect.remembers {w : World} {e : Event} {db : Db} (h : Effect P w e db)
    {row : IdempotencyRow} (hr : w.disk.Remembers row)
    (hclock : ∀ now, e.clock = some now → now < row.expiresAt) : db.Remembers row := by
  cases h with
  | same => exact hr
  | started => exact hr.congr (openStore_kept _ _ _).idempotency
  | called commits => exact commits.performs.elim fun _ hperf => hperf.remembers hr hclock

/-- A submission stays in the ledger while no clock has reached its expiry. -/
theorem run_remembers {w : World} {es : List Event} {row : IdempotencyRow}
    (hr : w.disk.Remembers row)
    (hclock : ∀ now ∈ es.filterMap Event.clock, now < row.expiresAt) :
    (w.run P es).disk.Remembers row := by
  induction es generalizing w with
  | nil => exact hr
  | cons e es ih =>
    refine ih ((w.step_effect e).remembers hr fun now hn => hclock now ?_) fun now hn => hclock now ?_
    · exact List.mem_filterMap.2 ⟨e, List.mem_cons_self, hn⟩
    · obtain ⟨e', he', hn⟩ := List.mem_filterMap.1 hn
      exact List.mem_filterMap.2 ⟨e', List.mem_cons_of_mem _ he', hn⟩

/-! ## The answer -/

section Answer

variable {record : Record} {auditorId key bodySha256 createdAt : PyStr} {now ttlSeconds : Int}
  {row : IdempotencyRow} {response : Dict} {db : Db}

/-- A call on a remembered submission that commits has its digest, and replays its response. -/
theorem Performs.of_remembered {db' : Db} {r : Response} {published : Option LogEntry}
    (h : Performs P (.appendIdempotent record auditorId key bodySha256 createdAt now ttlSeconds) db r
      published db') (hr : db.Remembers row) (hkey : row.primaryKey = toLex (auditorId, key))
    (hnow : now < row.expiresAt) (hloads : pyLoads P row.responseJson = .ok (.obj response)) :
    bodySha256 = row.bodySha256 ∧ r = .submission response true ∧ db'.log = db.log := by
  have hp := hr.pruned hnow
  rw [Db.Remembers, hkey] at hp
  cases h with
  | replay found same loaded =>
    obtain rfl := Option.some.inj (hp.symm.trans found)
    obtain rfl := Json.obj.inj (Except.ok.inj (hloads.symm.trans loaded))
    exact ⟨same.symm, rfl, rfl⟩
  | submit _ _ fresh =>
    rw [fresh] at hp
    cases hp

/-- The statements of a call on a remembered submission, while nothing fails. -/
theorem body_of_remembered (hr : db.Remembers row) (hkey : row.primaryKey = toLex (auditorId, key))
    (hnow : now < row.expiresAt) (hloads : pyLoads P row.responseJson = .ok (.obj response))
    (hbound : bindText [auditorId, key] = .ok ()) (htimed : bindInt [now] = .ok ())
    {fault : Nat → Option Abort} (h₀ : fault 0 = none) (h₁ : fault 1 = none) :
    (Call.appendIdempotent record auditorId key bodySha256 createdAt now ttlSeconds).body P fault 0 db =
      if bodySha256 = row.bodySha256 then
        .ok ((.submission response true, none), 2, db.pruned now)
      else .error ⟨.idempotencyConflict "idempotency key was already used for a different body",
        none, false⟩ := by
  have hfind : (db.pruned now).idempotency.find? (toLex (auditorId, key)) = some row :=
    hkey ▸ hr.pruned hnow
  have hdelete : Tx.execute (fun db : Db =>
      { db with idempotency := db.idempotency.filter fun row => now < row.expiresAt }) fault 0 db =
        .ok ((), 1, db.pruned now) := by
    rw [Tx.execute, Tx.stmt, h₀]
    rfl
  have hselect := Tx.select_of_none (fun db : Db => db.idempotency.find? (toLex (auditorId, key))) h₁
    (db.pruned now)
  rw [hfind] at hselect
  have hbody : StoreTx.appendIdempotentBody P record.members auditorId key bodySha256 createdAt now
      ttlSeconds fault 0 db =
        if bodySha256 = row.bodySha256 then .ok (((response, true), none), 2, db.pruned now)
        else .error ⟨.idempotencyConflict "idempotency key was already used for a different body",
          none, false⟩ := by
    rw [StoreTx.appendIdempotentBody, htimed, hbound]
    refine (Tx.bind_of_ok (a := ()) rfl).trans ((Tx.bind_of_ok hdelete).trans
      ((Tx.bind_of_ok (a := ()) rfl).trans ((Tx.bind_of_ok hselect).trans ?_)))
    by_cases hsame : bodySha256 = row.bodySha256
    · simp only [hsame, hloads, ne_eq, not_true_eq_false, if_false, if_true]
      rfl
    · simp only [hsame, ne_eq, Ne.symm hsame, not_false_eq_true, if_true, if_false]
      rfl
  by_cases hsame : bodySha256 = row.bodySha256
  · rw [if_pos hsame] at hbody ⊢
    exact Tx.bind_of_ok hbody
  · rw [if_neg hsame] at hbody ⊢
    exact Tx.bind_of_error hbody

end Answer

/-! ## Runs -/

/-- What a submission that is not a replay commits. -/
theorem Performs.of_submission {record : Record} {auditorId key bodySha256 createdAt : PyStr}
    {now ttlSeconds : Int} {response : Dict} {db db' : Db} {published : Option LogEntry}
    (h : Performs P (.appendIdempotent record auditorId key bodySha256 createdAt now ttlSeconds) db
      (.submission response false) published db') :
    ∃ entry, db'.log.rows = db.log.rows ++ [entry.row createdAt] ∧
      response = StoreTx.response entry ∧
      db'.Remembers (submissionRow auditorId key bodySha256 entry (now + ttlSeconds)) ∧
      pyLoads P (StoreTx.responseJson entry).dumps = .ok (.obj response) ∧
      bindText [auditorId, key] = .ok () ∧ bindInt [now] = .ok () ∧
      bindInt [entry.seq, now + ttlSeconds] = .ok () := by
  cases h with
  | @submit _ _ _ _ _ _ _ _ db₁ body root frontier entry bound timed fresh appended dumped expires =>
    refine ⟨entry, appended.row_eq, rfl, ?_, pyLoads_responseJson dumped, bound, timed, expires⟩
    rw [Db.Remembers, Db.putSubmission, Table.find?_put, if_pos rfl]

theorem bindInt_of_le {t now expiry seq : Int} (ht : bindInt [t] = .ok ())
    (he : bindInt [seq, expiry] = .ok ()) (h₁ : t ≤ now) (h₂ : now < expiry) :
    bindInt [now] = .ok () := by
  unfold bindInt at ht he
  split_ifs at ht he with hlow hseq
  unfold bindInt at he
  split_ifs at he with hhigh
  rw [bindInt, if_pos ⟨by omega, by omega⟩]
  rfl

/-- A submission that commits at some time adds one entry, the one its response names. Until it
    expires, every later call of the auditor with its key returns the same response as a replay
    and adds nothing, if its digest is the same; with another digest it changes no table, and
    raises `IdempotencyConflict` while nothing else fails. -/
theorem submission_exactlyOnce {w : World} {i : Nat} {env : Env} {record : Record}
    {auditorId key bodySha256 createdAt : PyStr} {now ttlSeconds : Int} {response : Dict}
    (h : (w.perform P i env (.appendIdempotent record auditorId key bodySha256 createdAt now
      ttlSeconds)).map (·.result) = some (.ok (.submission response false)))
    {es : List Event} {now' : Int}
    (hclock : ((now :: es.filterMap Event.clock) ++ [now']).Pairwise (· ≤ ·))
    (hnow : now' < now + ttlSeconds)
    (i' : Nat) (env' : Env) (record' : Record) (bodySha256' createdAt' : PyStr) (ttlSeconds' : Int) :
    let w₁ := w.step P (.call i env
      (.appendIdempotent record auditorId key bodySha256 createdAt now ttlSeconds))
    let w₂ := w₁.run P es
    let later := .appendIdempotent record' auditorId key bodySha256' createdAt' now' ttlSeconds'
    let w₃ := w₂.step P (.call i' env' later)
    (∃ entry, w₁.disk.log.rows = w.disk.log.rows ++ [entry.row createdAt] ∧
      response = StoreTx.response entry) ∧
    (∀ r, (w₂.perform P i' env' later).map (·.result) = some (.ok r) →
      bodySha256' = bodySha256 ∧ r = .submission response true ∧ w₃.disk.log = w₂.disk.log) ∧
    (bodySha256' ≠ bodySha256 → w₃.disk = w₂.disk ∧ w₃.holder = w₂.holder) ∧
    (later.check = .ok () → ∀ s, w₂.stores i' = some s →
      s.requireWritesAllowed env'.gateClock = .ok () → beginImmediate env' (w₂.conn i') = none →
      env'.faults 0 = none → env'.faults 1 = none →
        (bodySha256' = bodySha256 → env'.commit = .done →
          (w₂.perform P i' env' later).map (·.result) = some (.ok (.submission response true))) ∧
        (bodySha256' ≠ bodySha256 → (w₂.perform P i' env' later).map (·.result) =
          some (.error (.idempotencyConflict
            "idempotency key was already used for a different body")))) := by
  intro w₁ w₂ later w₃
  obtain ⟨db, hcommits⟩ := World.commits_of_returned h
  obtain ⟨published, hperf⟩ := hcommits.performs
  obtain ⟨entry, hlog, hresponse, hremembers, hloads, hbound, htimed, hexpires⟩ :=
    hperf.of_submission
  have hdisk : w₁.disk = db := hcommits.disk
  -- no clock of the run has reached the expiry
  obtain ⟨hhead, -, hlast⟩ := List.pairwise_append.1 hclock
  have hle : now ≤ now' := hlast now List.mem_cons_self now' (List.mem_singleton_self _)
  have hclocks (t : Int) (ht : t ∈ es.filterMap Event.clock) : t < now + ttlSeconds :=
    (hlast t (List.mem_cons_of_mem _ ht) now' (List.mem_singleton_self _)).trans_lt hnow
  have hthen : w₂.disk.Remembers (submissionRow auditorId key bodySha256 entry (now + ttlSeconds)) :=
    run_remembers (hdisk ▸ hremembers) hclocks
  have hanswer {r published db'} (hp : Performs P later w₂.disk r published db') :=
    hp.of_remembered hthen rfl hnow hloads
  refine ⟨⟨entry, hdisk ▸ hlog, hresponse⟩, fun r hr => ?_, fun hne => ?_,
    fun hcheck s hs hgate hbegin h₀ h₁ => ?_⟩
  · obtain ⟨db', hc⟩ := World.commits_of_returned hr
    obtain ⟨published', hp⟩ := hc.performs
    obtain ⟨hsame, hr, hl⟩ := hanswer hp
    exact ⟨hsame, hr, (congrArg Db.log hc.disk).trans hl⟩
  · -- with another digest the call cannot reach its COMMIT
    exact World.step_of_never i' env' fun hp => hne (hanswer hp).1
  · have hfault (n : Nat) (hn : env'.faults n = none) : (env'.faults n).map Fault.abort = none := by
      rw [hn]
      rfl
    have hbody : later.body P (fun n => (env'.faults n).map Fault.abort) 0 w₂.disk = _ :=
      body_of_remembered hthen rfl hnow hloads hbound (bindInt_of_le htimed hexpires hle hnow)
        (hfault 0 h₀) (hfault 1 h₁)
    rw [World.perform, hs, Option.map_some, Option.map_some]
    refine ⟨fun hsame hcommit => ?_, fun hne => ?_⟩
    · rw [perform_of_ok hcheck hbegin hgate (hbody.trans (if_pos hsame)) hcommit]
    · rw [perform_of_error hcheck hbegin hgate (hbody.trans (if_neg hne))]
      rfl

/-! ## On the sample registry -/

/-- A digest. -/
def sampleDigest : PyStr := List.replicate 64 (cp '0')

/-- A submission, at a time. -/
def sampleSubmission (now : Int) : Call :=
  .appendIdempotent sampleRecord (py "auditor") (py "key") sampleDigest sampleTime.text now 86400

/-- The response to the first submission of a registry. -/
def sampleResponse : Dict :=
  match (World.fresh.step .sample (.start 0 sampleStart)).perform .sample 0 (.calm 0)
    (sampleSubmission 0) with
  | some ⟨.ok (.submission response _), _, _⟩ => response
  | _ => []

set_option maxRecDepth 10000 in
/-- The first submission of a registry, and a call with its digest after a restart. -/
theorem submission_exactlyOnce_sample :
    let w₁ := (World.fresh.step .sample (.start 0 sampleStart)).step .sample
      (.call 0 (.calm 0) (sampleSubmission 0))
    let w₂ := w₁.run .sample [.close 0, .start 0 sampleStart]
    ∀ r, (w₂.perform .sample 0 (.calm 0) (sampleSubmission 100)).map (·.result) = some (.ok r) →
      r = .submission sampleResponse true := by
  intro w₁ w₂ r hr
  have hfirst : ((World.fresh.step .sample (.start 0 sampleStart)).perform .sample 0 (.calm 0)
      (sampleSubmission 0)).map (·.result) = some (.ok (.submission sampleResponse false)) := by
    decide +kernel
  have hclock : ((0 : Int) :: [Event.close 0, .start 0 sampleStart].filterMap Event.clock ++
      [100]).Pairwise (· ≤ ·) := by decide
  exact ((submission_exactlyOnce hfirst hclock (by decide) 0 (.calm 0) sampleRecord sampleDigest
    sampleTime.text 86400).2.1 r hr).2.1

end SkillRegistry
