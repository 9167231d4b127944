import SkillRegistry.Store.Performed
import SkillRegistry.Store.Open

/-!
# Failed writes

What a call of a write operation that raises leaves behind, wherever it raises. A
transaction that fails before its COMMIT is rolled back; a COMMIT that fails and leaves
its transaction active is not, since it stands outside the handler that rolls back.

* `NoTrace` is what a failed write is to leave: nothing;
* `CommitLeftActive` is the one way it leaves something, and `perform_conn` says what
  then: the transaction stays open on the connection all readers share;
* `failedWrite_noTrace_iff` says that there is no other.
-/

namespace SkillRegistry

open Wire

variable (P : Platform)

/-- A failed write has left no trace on the connection and the instance it ran on. -/
structure NoTrace (c : Conn) (s : Store) (o : Outcome Response) : Prop where
  /-- The connection has no open transaction. -/
  closed : o.conn.pending = none
  /-- Every table reads as before. -/
  tables : o.conn.view = c.view
  verifiedHead : o.store.verifiedHead = s.verifiedHead
  verifiedLogSize : o.store.verifiedLogSize = s.verifiedLogSize
  /-- The next permitted write behaves as if the failed one had not happened. -/
  next : ∀ env call, o.store.requireWritesAllowed env.gateClock = .ok () →
    o.store.perform P env o.conn call = s.perform P env c call

/-- The statements of a call before its COMMIT all succeed. -/
def ReachesCommit (env : Env) (c : Conn) (s : Store) (call : Call) : Prop :=
  call.check = .ok () ∧ beginImmediate env c = none ∧
    ∃ r, (do StoreTx.gate s env; call.body P : StoreTx (Response × Option LogEntry))
      (fun n => (env.faults n).map Fault.abort) 0 c.disk = .ok r

/-- The COMMIT of a call is reached, fails, and leaves its transaction active. -/
def CommitLeftActive (env : Env) (c : Conn) (s : Store) (call : Call) : Prop :=
  ReachesCommit P env c s call ∧ ∃ e, env.commit = .active e

variable {P}

/-- A call that raises leaves its connection as it was, unless its COMMIT leaves its
    transaction active: then the connection reads what was not committed. -/
theorem perform_conn {env : Env} {c : Conn} {s : Store} {call : Call} {e : PyErr}
    (h : (s.perform P env c call).result = .error e) :
    (¬CommitLeftActive P env c s call ∧ (s.perform P env c call).conn = c) ∨
      (CommitLeftActive P env c s call ∧ ∃ r db published, Performs P call c.disk r published db ∧
        (s.perform P env c call).conn = { c with pending := some db }) := by
  have hdone := perform_performed (P := P) env c s call
  by_cases hleft : CommitLeftActive P env c s call
  · refine .inr ⟨hleft, ?_⟩
    obtain ⟨⟨hcheck, hbegin, ⟨⟨r, entry⟩, n, db⟩, hbody⟩, e', hcommit⟩ := hleft
    have hconn : (s.perform P env c call).conn = { c with pending := some db } := by
      simp only [Store.perform, hcheck, transact, hbegin, hbody, hcommit]
    generalize s.perform P env c call = o at hdone hconn h
    cases hdone with
    | refused =>
      -- the connection was free
      have hp := (beginImmediate_eq_none hbegin).1
      simp only at hconn
      rw [hconn] at hp
      cases hp
    | leftActive e checked free unlocked allowed commit performs =>
      exact ⟨_, _, _, performs, rfl⟩
    | done => cases h
  · refine .inl ⟨hleft, ?_⟩
    unfold Store.perform at h ⊢
    split
    · rfl
    · rename_i hcheck
      rw [hcheck] at h
      unfold transact at h ⊢
      split
      · rfl
      · rename_i hbegin
        split
        · rfl
        · rename_i r entry n db hbody
          rw [hbegin] at h
          simp only [hbody] at h
          split
          · rename_i hcommit
            rw [hcommit] at h
            cases h
          · rfl
          · rename_i hcommit
            exact absurd ⟨⟨hcheck, hbegin, _, hbody⟩, _, hcommit⟩ hleft

/-- While a transaction is open on its connection, every call on an instance raises and
    changes nothing. -/
theorem perform_of_pending {env : Env} {c : Conn} (s : Store) (call : Call)
    (h : c.pending ≠ none) : (∃ e, (s.perform P env c call).result = .error e) ∧
      (s.perform P env c call).conn = c := by
  have hdone := perform_performed (P := P) env c s call
  generalize s.perform P env c call = o at hdone
  cases hdone with
  | refused e => exact ⟨⟨e, rfl⟩, rfl⟩
  | leftActive _ _ free => exact absurd free h
  | done _ free => exact absurd free h

/-- A call that raises publishes nothing: the instance stays as it was, or is latched. -/
theorem perform_store {env : Env} {c : Conn} {s : Store} {call : Call} {e : PyErr}
    (h : (s.perform P env c call).result = .error e) :
    (s.perform P env c call).store = s ∨
      ∃ m, (s.perform P env c call).store = s.latchIntegrityFailure m env.latchClock := by
  have hdone := perform_performed (P := P) env c s call
  generalize s.perform P env c call = o at hdone h
  cases hdone with
  | refused _ store => exact store
  | leftActive => exact .inl rfl
  | done => cases h

theorem latchIntegrityFailure_failed (s : Store) (error : String) (now : ℚ) :
    (s.latchIntegrityFailure error now).integrityFailed = true := by
  unfold Store.latchIntegrityFailure
  by_cases h : s.integrityFailed = true <;> simp [h]

/-- A latched instance keeps its verified head, and permits no write. -/
theorem latchIntegrityFailure_verified (s : Store) (error : String) (now : ℚ) :
    (s.latchIntegrityFailure error now).verifiedHead = s.verifiedHead ∧
      (s.latchIntegrityFailure error now).verifiedLogSize = s.verifiedLogSize ∧
      ∀ later, (s.latchIntegrityFailure error now).requireWritesAllowed later ≠ .ok () := by
  have hf := latchIntegrityFailure_failed s error now
  refine ⟨?_, ?_, fun later hok => ?_⟩
  · unfold Store.latchIntegrityFailure
    split_ifs <;> rfl
  · unfold Store.latchIntegrityFailure
    split_ifs <;> rfl
  · rw [Store.requireWritesAllowed, hf, Bool.true_or, if_pos rfl] at hok
    cases hok

/-- A write that raises leaves no trace exactly when no transaction was open before it and
    its COMMIT did not leave one. -/
theorem failedWrite_noTrace_iff {env : Env} {c : Conn} {s : Store} {call : Call} {e : PyErr}
    (h : (s.perform P env c call).result = .error e) :
    NoTrace P c s (s.perform P env c call) ↔
      c.pending = none ∧ ¬CommitLeftActive P env c s call := by
  constructor
  · intro hn
    rcases perform_conn h with ⟨hleft, hconn⟩ | ⟨-, r, db, published, -, hconn⟩
    · have hclosed := hn.closed
      rw [hconn] at hclosed
      exact ⟨hclosed, hleft⟩
    · have hclosed := hn.closed
      rw [hconn] at hclosed
      cases hclosed
  · rintro ⟨hfree, hleft⟩
    rcases perform_conn h with ⟨-, hconn⟩ | ⟨hl, -⟩
    · rcases perform_store h with hs | ⟨m, hs⟩
      · refine ⟨by rwa [hconn], by rw [hconn], by rw [hs], by rw [hs], fun _ _ _ => ?_⟩
        rw [hconn, hs]
      · obtain ⟨h₁, h₂, hnever⟩ := latchIntegrityFailure_verified s m env.latchClock
        refine ⟨by rwa [hconn], by rw [hconn], by rw [hs, h₁], by rw [hs, h₂], fun _ _ hok => ?_⟩
        rw [hs] at hok
        exact absurd hok (hnever _)
    · exact absurd hl hleft

/-! ## On the sample registry -/

/-- The disk is full at the COMMIT of a call, whose transaction stays active. -/
def sampleCommitFailure : Env :=
  { Env.calm 0 with commit := .active (.operationalError "database or disk is full") }

/-- The third statement of a call fails. -/
def sampleStatementFailure : Env :=
  { Env.calm 0 with
    faults := fun n => if n = 2 then some ⟨.operationalError "disk I/O error", false⟩ else none }

set_option maxRecDepth 10000 in
theorem failedWrite_noTrace_sample :
    NoTrace Platform.sample sampleConn sampleStore
        (sampleStore.perform .sample sampleStatementFailure sampleConn sampleAppend) ↔
      sampleConn.pending = none ∧
        ¬CommitLeftActive .sample sampleStatementFailure sampleConn sampleStore sampleAppend :=
  failedWrite_noTrace_iff (e := .operationalError "disk I/O error") (by decide +kernel)

set_option maxRecDepth 10000 in
/-- The first append of a registry, whose COMMIT fails and leaves its transaction active, raises
    and leaves its entry to be read. -/
theorem failedCommit_leaves_trace :
    openStore .sample sampleStart false .absent = (sampleConn.disk, .ok sampleStore) ∧
      ∃ e, (sampleStore.perform .sample sampleCommitFailure sampleConn sampleAppend).result =
        .error e ∧
      ¬NoTrace Platform.sample sampleConn sampleStore
        (sampleStore.perform .sample sampleCommitFailure sampleConn sampleAppend) := by
  refine ⟨openStore_sample, .operationalError "database or disk is full", by decide +kernel, ?_⟩
  intro h
  exact absurd (congrArg Db.size h.tables) (by decide +kernel)

end SkillRegistry
