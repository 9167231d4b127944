import SkillRegistry.Snapshot
import SkillRegistry.Store.Open

/-!
# The startup checkpoint

At startup the live boundary is compared with a signed checkpoint. The comparison
refuses a database that was rolled back below the checkpoint, or that forked from it.

* `compareCheckpoint` is the comparison, and `Store.applyStartupCheckpoint` latches a
  refusal;
* `startupCheckpoint_exact` says that a checkpoint built from one registry passes on
  another exactly when the log of the first is a prefix of the log of the second.
-/

namespace SkillRegistry

open Wire

variable (P : Platform)

/-- The diagnostics of a refusal. -/
inductive Refusal where
  /-- `restore_below_checkpoint`. -/
  | belowCheckpoint
  /-- `restore_inconsistent_with_checkpoint`. -/
  | inconsistentWithCheckpoint
  /-- `checkpoint_signature_invalid`. -/
  | signatureInvalid
  deriving DecidableEq, Repr

/-- The text of a diagnostic. -/
def Refusal.text : Refusal → String
  | belowCheckpoint => "restore_below_checkpoint"
  | inconsistentWithCheckpoint => "restore_inconsistent_with_checkpoint"
  | signatureInvalid => "checkpoint_signature_invalid"

/-- A `CheckpointView`. -/
structure CheckpointView where
  version : Int
  logSize : Int
  head : PyStr
  merkleRoot : PyStr
  createdAt : PyStr
  deriving DecidableEq, Repr

/-- `CheckpointView.from_snapshot`. -/
def CheckpointView.fromSnapshot (snapshot : Dict) : Except PyErr CheckpointView :=
  match snapshot.get? (py "version"), snapshot.get? (py "log_size"), snapshot.get? (py "head"),
    snapshot.get? (py "merkle_root"), snapshot.get? (py "created_at") with
  | some (.int version), some (.int logSize), some (.str head), some (.str merkleRoot),
    some (.str createdAt) => .ok ⟨version, logSize, head, merkleRoot, createdAt⟩
  | _, _, _, _, _ => .error (.protocolError "snapshot checkpoint boundary is malformed")

/-- `compare_checkpoint`. -/
def compareCheckpoint (live : SnapshotBoundary) (checkpoint : CheckpointView)
    (atCheckpoint : Option SnapshotBoundary) : Option Refusal :=
  if live.version < checkpoint.version ∨ live.logSize < checkpoint.logSize then
    some .belowCheckpoint
  else if live.version = checkpoint.version then
    if live.head = checkpoint.head ∧ live.merkleRoot = checkpoint.merkleRoot ∧
        live.logSize = checkpoint.logSize then none
    else some .inconsistentWithCheckpoint
  else if atCheckpoint.any fun b => b.head = checkpoint.head ∧ b.merkleRoot = checkpoint.merkleRoot then
    none
  else some .inconsistentWithCheckpoint

/-- The live boundary at the size of a checkpoint, read when the live version is above it. -/
def boundaryAtCheckpoint (db : Db) (live : SnapshotBoundary) (checkpoint : CheckpointView) :
    Except PyErr (Option SnapshotBoundary) :=
  if checkpoint.version < live.version then
    match snapshotBoundary db (some checkpoint.logSize) with
    | .ok b => .ok (some b)
    | .error e => if e.isUnavailable then .ok none else .error e
  else .ok none

/-- The live boundary, and the diagnostic of a database against a checkpoint. -/
def startupDiagnostic (db : Db) (checkpoint : CheckpointView) :
    Except PyErr (SnapshotBoundary × Option Refusal) := do
  let live ← snapshotBoundary db none
  let atCheckpoint ← boundaryAtCheckpoint db live checkpoint
  .ok (live, compareCheckpoint live checkpoint atCheckpoint)

namespace Store

/-- `refuse_startup_checkpoint`. -/
def refuseStartupCheckpoint (s : Store) (diagnostic : Refusal) (detail : String) (now : ℚ) : Store :=
  let s := if s.integrityFailed then s else { s with healthCode := diagnostic.text }
  s.latchIntegrityFailure detail now

/-- `apply_startup_checkpoint`. -/
def applyStartupCheckpoint (now : ℚ) (c : Conn) (s : Store) (checkpoint : CheckpointView) :
    Outcome (Option Refusal) :=
  match startupDiagnostic c.view checkpoint with
  | .error e => ⟨.error e, c, s⟩
  | .ok (_, none) => ⟨.ok none, c, s⟩
  | .ok (live, some diagnostic) =>
    ⟨.ok (some diagnostic), c, s.refuseStartupCheckpoint diagnostic
      (s!"startup checkpoint comparison refused: {diagnostic.text} " ++
        s!"(live version {live.version}, checkpoint version {checkpoint.version})") now⟩

end Store

/-! ## What the comparison detects -/

/-- The entry hashes of a log. -/
def Db.entryHashes (db : Db) : List PyStr := db.log.rows.map (·.entryHash)

variable {P}

/-- What a refusal leaves of an instance: it is not ready and writes nothing. -/
theorem refuseStartupCheckpoint_latched (s : Store) (diagnostic : Refusal) (detail : String)
    (now : ℚ) : (s.refuseStartupCheckpoint diagnostic detail now).integrityFailed = true := by
  unfold Store.refuseStartupCheckpoint Store.latchIntegrityFailure
  by_cases h : s.integrityFailed = true <;> simp [h]

theorem not_ready_of_failed {s : Store} (h : s.integrityFailed = true) (now : ℚ) :
    s.ready now = false := by
  rw [Store.ready, s.failed_not_ready h, Bool.false_and]

/-- A checkpoint has the fields of the boundary that was signed. -/
theorem fromSnapshot_signed {key : SigningKey P} {b : SnapshotBoundary} {snapshot : Dict}
    (h : key.signRecord (snapshotBody b) = .ok snapshot) : CheckpointView.fromSnapshot snapshot =
      .ok ⟨b.version, b.logSize, b.head, b.merkleRoot, b.createdAt⟩ := by
  obtain ⟨h₁, h₂, h₃, h₄, -, h₆⟩ := signSnapshot_fields h
  simp only [CheckpointView.fromSnapshot, h₁, h₂, h₃, h₄, h₆]

/-- A checkpoint built from a registry has the fields of its boundary. -/
theorem fromSnapshot_buildSnapshot {db : Db} (h : Chained P db) {key : SigningKey P} {snapshot : Dict}
    (hs : buildSnapshot P db key none none none = .ok snapshot) :
    ∃ created, CheckpointView.fromSnapshot snapshot = .ok
      ⟨db.log.rows.length, db.log.rows.length, (boundaryOf P created db.log.rows).head,
        (boundaryOf P created db.log.rows).merkleRoot,
        (boundaryOf P created db.log.rows).createdAt⟩ := by
  obtain ⟨b, hb, hsign⟩ := buildSnapshot_eq_ok.1 hs
  obtain ⟨created, rfl⟩ := h.eq_boundaryOf hb
  refine ⟨created, ?_⟩
  rw [fromSnapshot_signed hsign, boundaryOf_version, boundaryOf_logSize]

/-- The diagnostic of a database against a checkpoint of some size. -/
theorem startupDiagnostic_eq {db : Db} (h : Chained P db) {created : PyStr}
    (hc : db.metadataValue (py "created_at") = some created) (n : Nat)
    (head merkleRoot createdAt : PyStr) :
    startupDiagnostic db ⟨n, n, head, merkleRoot, createdAt⟩ = .ok (boundaryOf P created db.log.rows,
      if db.log.rows.length < n then some .belowCheckpoint
      else if (boundaryOf P created (db.log.rows.take n)).head = head ∧
        (boundaryOf P created (db.log.rows.take n)).merkleRoot = merkleRoot then none
      else some .inconsistentWithCheckpoint) := by
  rw [startupDiagnostic, h.snapshotBoundary_none hc]
  simp only [bind, Except.bind, boundaryAtCheckpoint, boundaryOf_version]
  rcases lt_trichotomy db.log.rows.length n with hlt | heq | hgt
  · have hv : ¬((n : Int) < db.log.rows.length) := by omega
    rw [if_neg hv, if_pos hlt]
    simp only [compareCheckpoint, boundaryOf_version]
    rw [if_pos (.inl (by omega))]
  · have hv : ¬((n : Int) < db.log.rows.length) := by omega
    rw [if_neg hv, if_neg (by omega), ← heq, List.take_length]
    simp only [compareCheckpoint, boundaryOf_version, boundaryOf_logSize, lt_irrefl, or_self,
      if_false, if_true, and_true]
  · have hv : (n : Int) < db.log.rows.length := by omega
    have hge : ¬((db.log.rows.length : Int) < n ∨ (db.log.rows.length : Int) < n) := by omega
    have hne : (db.log.rows.length : Int) ≠ n := by omega
    rw [if_pos hv, if_neg (by omega), h.snapshotBoundary_eq hc n (by omega)]
    simp only [compareCheckpoint, boundaryOf_version, boundaryOf_logSize, hge, hne, if_false,
      Option.any_some, decide_eq_true_eq]

/-- The result of a comparison is its diagnostic; a refusal changes no table, and latches the
    instance. -/
theorem applyStartupCheckpoint_eq {c : Conn} (s : Store) (now : ℚ) {checkpoint : CheckpointView}
    {live : SnapshotBoundary} {d : Option Refusal}
    (h : startupDiagnostic c.view checkpoint = .ok (live, d)) :
    (s.applyStartupCheckpoint now c checkpoint).result = .ok d ∧
      (s.applyStartupCheckpoint now c checkpoint).conn = c ∧
      (d ≠ none → (s.applyStartupCheckpoint now c checkpoint).store.integrityFailed = true) := by
  rw [Store.applyStartupCheckpoint, h]
  cases d with
  | none => exact ⟨rfl, rfl, fun hd => absurd rfl hd⟩
  | some diagnostic => exact ⟨rfl, rfl, fun _ => refuseStartupCheckpoint_latched _ _ _ _⟩

/-- The checkpoint of a registry passes on another exactly when the log of the first is a
    prefix of the log of the second; a shorter log is below the checkpoint, and any other
    log is inconsistent with it. A refusal changes no table and latches the instance. -/
theorem startupCheckpoint_exact {A : Db} {c : Conn} (hA : Chained P A) (hB : Chained P c.view)
    {created : PyStr} (hc : c.view.metadataValue (py "created_at") = some created)
    {key : SigningKey P} {snapshot : Dict}
    (hsnapshot : buildSnapshot P A key none none none = .ok snapshot)
    (hinj : Set.InjOn P.sha256
      {b | ∃ row, (row ∈ A.log.rows ∨ row ∈ c.view.log.rows) ∧ row.preimage P = b})
    (s : Store) (now : ℚ) :
    ∃ checkpoint, CheckpointView.fromSnapshot snapshot = .ok checkpoint ∧
      let o := s.applyStartupCheckpoint now c checkpoint
      (o.result = .ok none ↔ A.entryHashes <+: c.view.entryHashes) ∧
      (o.result = .ok (some .belowCheckpoint) ↔ c.view.log.rows.length < A.log.rows.length) ∧
      (¬A.entryHashes <+: c.view.entryHashes → ¬c.view.log.rows.length < A.log.rows.length →
        o.result = .ok (some .inconsistentWithCheckpoint)) ∧
      ∀ diagnostic, o.result = .ok (some diagnostic) → o.conn = c ∧
        o.store.integrityFailed = true ∧ ∀ later, o.store.ready later = false := by
  obtain ⟨createdA, hview⟩ := fromSnapshot_buildSnapshot hA hsnapshot
  refine ⟨_, hview, ?_⟩
  obtain ⟨hresult, hconn, hlatched⟩ := applyStartupCheckpoint_eq s now
    (startupDiagnostic_eq hB hc A.log.rows.length (boundaryOf P createdA A.log.rows).head
      (boundaryOf P createdA A.log.rows).merkleRoot (boundaryOf P createdA A.log.rows).createdAt)
  -- at the size of the checkpoint, the boundaries agree when the entry hashes do
  have hsame (hle : A.log.rows.length ≤ c.view.log.rows.length) :
      ((boundaryOf P created (c.view.log.rows.take A.log.rows.length)).head =
          (boundaryOf P createdA A.log.rows).head ∧
        (boundaryOf P created (c.view.log.rows.take A.log.rows.length)).merkleRoot =
          (boundaryOf P createdA A.log.rows).merkleRoot) ↔
        A.entryHashes <+: c.view.entryHashes := by
    obtain ⟨bodiesA, hlogA⟩ := hA.log
    obtain ⟨bodiesB, hlogB⟩ := hB.log
    have hlen : A.entryHashes.length = A.log.rows.length := List.length_map _
    rw [(hlogB.take A.log.rows.length).boundary_eq_iff hlogA hinj
      (fun row hr => ⟨row, .inr (List.mem_of_mem_take hr), rfl⟩) (fun row hr => ⟨row, .inl hr, rfl⟩)
      (by rw [List.length_take]; omega), List.prefix_iff_eq_take, hlen, Db.entryHashes,
      Db.entryHashes, List.map_take, eq_comm]
  have hprefix_le (hp : A.entryHashes <+: c.view.entryHashes) :
      A.log.rows.length ≤ c.view.log.rows.length := by
    have := hp.length_le
    rwa [Db.entryHashes, Db.entryHashes, List.length_map, List.length_map] at this
  simp only [hresult, hconn, Except.ok.injEq]
  refine ⟨?_, ?_, fun hp hlt => ?_, fun diagnostic hd => ⟨trivial, ?_⟩⟩
  · by_cases hlt : c.view.log.rows.length < A.log.rows.length
    · rw [if_pos hlt]
      exact ⟨fun h' => (by cases h'), fun hp => absurd (hprefix_le hp) (by omega)⟩
    · rw [if_neg hlt, ← hsame (by omega)]
      split_ifs with h
      · exact ⟨fun _ => h, fun _ => rfl⟩
      · exact ⟨fun h' => (by cases h'), fun h' => absurd h' h⟩
  · split_ifs with hlt h
    · exact ⟨fun _ => hlt, fun _ => rfl⟩
    · exact ⟨fun h' => (by cases h'), fun h' => absurd h' hlt⟩
    · exact ⟨fun h' => (by cases h'), fun h' => absurd h' hlt⟩
  · rw [if_neg hlt, if_neg fun h => hp ((hsame (by omega)).1 h)]
  · have hf := hlatched (by rw [hd]; exact Option.some_ne_none _)
    exact ⟨hf, not_ready_of_failed hf⟩

/-! ## On the sample registry -/

/-- The snapshot of the registry after its first append. -/
def sampleSnapshot : Dict :=
  (buildSnapshot .sample sampleGrown sampleKey none none none).toOption.getD []

set_option maxRecDepth 10000 in
/-- The registry before its first append is below the checkpoint after it. -/
theorem startupCheckpoint_exact_sample : ∃ checkpoint,
    CheckpointView.fromSnapshot sampleSnapshot = .ok checkpoint ∧
      (sampleStore.applyStartupCheckpoint 0 sampleConn checkpoint).result =
        .ok (some .belowCheckpoint) := by
  have hinj : Set.InjOn Platform.sample.sha256 {b | ∃ row, (row ∈ sampleGrown.log.rows ∨
      row ∈ sampleConn.view.log.rows) ∧ row.preimage .sample = b} := by
    have hempty : sampleConn.view.log.rows = [] := by decide +kernel
    have hlen : sampleGrown.log.rows.length = 1 := by decide +kernel
    obtain ⟨only, honly⟩ := List.length_eq_one_iff.1 hlen
    rintro b ⟨row, hrow, rfl⟩ b' ⟨row', hrow', rfl⟩ -
    simp only [hempty, honly, List.mem_singleton, List.not_mem_nil, or_false] at hrow hrow'
    rw [hrow, hrow']
  obtain ⟨checkpoint, hview, -, hbelow, -⟩ := startupCheckpoint_exact
    invariant_sampleGrown.toChained
    (show Chained .sample sampleConn.view from invariant_sample.toChained)
    (show sampleConn.view.metadataValue (py "created_at") = some sampleTime.text by decide +kernel)
    (show buildSnapshot .sample sampleGrown sampleKey none none none = .ok sampleSnapshot by
      decide +kernel) hinj sampleStore 0
  exact ⟨checkpoint, hview, hbelow.2 (by decide +kernel)⟩

end SkillRegistry
