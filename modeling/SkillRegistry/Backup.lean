import SkillRegistry.Checkpoint

/-!
# Vetting a backup

`verify-backup` compares a backup with a checkpoint before it is restored, and the startup
comparison compares the restored database with the same checkpoint. The first compares
boundaries whole, the second their versions, heads and roots.

* `checkpointMatches_iff`: what the first accepts, by the rows of the log;
* `verifyBackup_exact`: it accepts what passes at startup and has the time of the checkpoint.
-/

namespace SkillRegistry

open Wire

variable {P : Platform}

/-- The boundary of a checkpoint, as `_cmd_verify_backup` makes it. -/
def CheckpointView.boundary (c : CheckpointView) : SnapshotBoundary :=
  ⟨c.version, c.logSize, c.head, c.merkleRoot, c.createdAt⟩

/-- `checkpoint_matches`. -/
def checkpointMatches (db : Db) (checkpoint : SnapshotBoundary) : Except PyErr Bool :=
  match snapshotBoundary db (some checkpoint.logSize) with
  | .error e => if e.isUnavailable then .ok false else .error e
  | .ok atCheckpoint => .ok (atCheckpoint = checkpoint)

/-- The version of a boundary is its size. -/
theorem snapshotBoundary_version {db : Db} {maxSeq : Option Int} {b : SnapshotBoundary}
    (h : snapshotBoundary db maxSeq = .ok b) : b.version = b.logSize ∧ 0 ≤ b.logSize := by
  rw [snapshotBoundary] at h
  by_cases hrange : maxSeq.getD db.size < 0 ∨ maxSeq.getD db.size > db.size
  · rw [if_pos hrange] at h
    cases h
  rw [if_neg hrange] at h
  by_cases hzero : maxSeq.getD db.size = 0
  · rw [if_pos hzero] at h
    split at h
    · cases h
    · exact Except.ok.inj h ▸ ⟨rfl, le_rfl⟩
  · rw [if_neg hzero] at h
    split at h
    · cases h
    · split at h
      · cases h
      · split_ifs at h
        exact Except.ok.inj h ▸ ⟨rfl, not_lt.1 fun hneg => hrange (.inl hneg)⟩

/-- A checkpoint built from a database is of the size of some boundary. -/
theorem fromSnapshot_built {db : Db} {key : SigningKey P} {snapshot : Dict}
    (hs : buildSnapshot P db key none none none = .ok snapshot) :
    ∃ (n : Nat) (head merkleRoot createdAt : PyStr),
      CheckpointView.fromSnapshot snapshot = .ok ⟨n, n, head, merkleRoot, createdAt⟩ := by
  obtain ⟨b, hb, hsign⟩ := buildSnapshot_eq_ok.1 hs
  obtain ⟨hversion, hsize⟩ := snapshotBoundary_version hb
  refine ⟨b.logSize.toNat, b.head, b.merkleRoot, b.createdAt, ?_⟩
  rw [fromSnapshot_signed hsign, hversion, Int.toNat_of_nonneg hsize]

/-- A backup either matches a checkpoint or does not; it does when it reaches the size of the
    checkpoint and its boundary there is the checkpoint whole. -/
theorem checkpointMatches_iff {db : Db} (h : Chained P db) {created : PyStr}
    (hc : db.metadataValue (py "created_at") = some created) (n : Nat)
    (head merkleRoot createdAt : PyStr) :
    ∃ accepted, checkpointMatches db ⟨n, n, head, merkleRoot, createdAt⟩ = .ok accepted ∧
      (accepted = true ↔ n ≤ db.log.rows.length ∧
        (boundaryOf P created (db.log.rows.take n)).head = head ∧
        (boundaryOf P created (db.log.rows.take n)).merkleRoot = merkleRoot ∧
        (boundaryOf P created (db.log.rows.take n)).createdAt = createdAt) := by
  by_cases hn : n ≤ db.log.rows.length
  · refine ⟨_, by rw [checkpointMatches, h.snapshotBoundary_eq hc n hn], ?_⟩
    have hversion := boundaryOf_version (P := P) created (db.log.rows.take n)
    have hsize := boundaryOf_logSize (P := P) created (db.log.rows.take n)
    rw [List.length_take, Nat.min_eq_left hn] at hversion hsize
    generalize boundaryOf P created (db.log.rows.take n) = b at hversion hsize
    obtain ⟨version, logSize, bhead, broot, btime⟩ := b
    obtain rfl : version = n := hversion
    obtain rfl : logSize = n := hsize
    rw [decide_eq_true_eq, SnapshotBoundary.mk.injEq]
    exact ⟨fun ⟨_, _, hrest⟩ => ⟨hn, hrest⟩, fun ⟨_, hrest⟩ => ⟨rfl, rfl, hrest⟩⟩
  · have hgt : (db.log.rows.length : Int) < n := by omega
    refine ⟨false, by rw [checkpointMatches, h.snapshotBoundary_of_lt (.inr hgt)]; rfl, ?_⟩
    exact ⟨fun hf => (by cases hf), fun ⟨hle, _⟩ => absurd hle hn⟩

/-- `verify-backup` accepts a backup exactly when the startup comparison with the same checkpoint
    passes on it and its boundary at the size of the checkpoint has the time of the
    checkpoint. So what `verify-backup` accepts is never refused at startup. -/
theorem verifyBackup_exact {A : Db} {c : Conn} (hB : Chained P c.view) {created : PyStr}
    (hc : c.view.metadataValue (py "created_at") = some created) {key : SigningKey P}
    {snapshot : Dict} (hsnapshot : buildSnapshot P A key none none none = .ok snapshot)
    (s : Store) (now : ℚ) :
    ∃ checkpoint accepted, CheckpointView.fromSnapshot snapshot = .ok checkpoint ∧
      checkpointMatches c.view checkpoint.boundary = .ok accepted ∧
      (accepted = true ↔ (s.applyStartupCheckpoint now c checkpoint).result = .ok none ∧
        ∃ b, snapshotBoundary c.view (some checkpoint.logSize) = .ok b ∧
          b.createdAt = checkpoint.createdAt) := by
  obtain ⟨n, head, merkleRoot, createdAt, hview⟩ := fromSnapshot_built hsnapshot
  obtain ⟨accepted, haccepted, hiff⟩ := checkpointMatches_iff hB hc n head merkleRoot createdAt
  refine ⟨_, accepted, hview, haccepted, hiff.trans ?_⟩
  obtain ⟨hresult, -⟩ := applyStartupCheckpoint_eq s now
    (startupDiagnostic_eq hB hc n head merkleRoot createdAt)
  rw [hresult, Except.ok.injEq]
  by_cases hlt : c.view.log.rows.length < n
  · rw [if_pos hlt]
    exact ⟨fun h => absurd h.1 (by omega), fun h => (by cases h.1)⟩
  · have hboundary := hB.snapshotBoundary_eq hc n (not_lt.1 hlt)
    rw [if_neg hlt]
    constructor
    · rintro ⟨-, hhead, hroot, htime⟩
      exact ⟨if_pos ⟨hhead, hroot⟩, _, hboundary, htime⟩
    · rintro ⟨hnone, b, hb, htime⟩
      obtain rfl := Except.ok.inj (hboundary.symm.trans hb)
      split_ifs at hnone with hsame
      exact ⟨not_lt.1 hlt, hsame.1, hsame.2, htime⟩

/-! ## On the sample registry -/

/-- The registry that appended the same record a second later. -/
def sampleLater : Db := (sampleStore.perform .sample (.calm 0) sampleConn
  (.append sampleRecord (py "2024-01-01T00:00:01Z"))).conn.disk

theorem invariant_sampleLater : Invariant .sample sampleLater :=
  invariant_sample.perform (.calm 0) sampleStore _

set_option maxRecDepth 10000 in
theorem verifyBackup_exact_sample : ∃ checkpoint accepted,
    CheckpointView.fromSnapshot sampleSnapshot = .ok checkpoint ∧
      checkpointMatches sampleLater checkpoint.boundary = .ok accepted ∧
      (accepted = true ↔
        (sampleStore.applyStartupCheckpoint 0 ⟨sampleLater, none, false⟩ checkpoint).result =
          .ok none ∧
        ∃ b, snapshotBoundary sampleLater (some checkpoint.logSize) = .ok b ∧
          b.createdAt = checkpoint.createdAt) :=
  verifyBackup_exact (A := sampleGrown) (c := ⟨sampleLater, none, false⟩)
    invariant_sampleLater.toChained
    (show sampleLater.metadataValue (py "created_at") = some sampleTime.text by decide +kernel)
    (show buildSnapshot .sample sampleGrown sampleKey none none none = .ok sampleSnapshot by
      decide +kernel) sampleStore 0

/-- The checkpoint of the first of them. -/
def sampleCheckpoint : CheckpointView :=
  (CheckpointView.fromSnapshot sampleSnapshot).toOption.getD ⟨0, 0, [], [], []⟩

set_option maxRecDepth 10000 in
/-- The later one passes at startup with the checkpoint of the first, and `verify-backup`
    refuses it. -/
theorem laterBackup_refused : Invariant .sample sampleGrown ∧ Invariant .sample sampleLater ∧
    buildSnapshot .sample sampleGrown sampleKey none none none = .ok sampleSnapshot ∧
    CheckpointView.fromSnapshot sampleSnapshot = .ok sampleCheckpoint ∧
    checkpointMatches sampleLater sampleCheckpoint.boundary = .ok false ∧
    (sampleStore.applyStartupCheckpoint 0 ⟨sampleLater, none, false⟩ sampleCheckpoint).result =
      .ok none :=
  ⟨invariant_sampleGrown, invariant_sampleLater, by decide +kernel, by decide +kernel,
    by decide +kernel, by decide +kernel⟩

end SkillRegistry
