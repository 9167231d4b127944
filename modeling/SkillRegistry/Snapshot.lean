import SkillRegistry.Ledger

/-!
# Signed snapshots

A snapshot is one boundary of the log, signed. Signing covers the whole boundary, and
the boundary is read back from it.

* `buildSnapshot` is `build_snapshot`, and `boundaryFromDict` reads a boundary back;
* `signSnapshot_fields` says what the members of a signed snapshot are.
-/

namespace SkillRegistry

open Wire

variable (P : Platform)

/-- The body of a snapshot. -/
def snapshotBody (b : SnapshotBoundary) : Dict :=
  [(py "created_at", .str b.createdAt), (py "head", .str b.head), (py "log_size", .int b.logSize),
    (py "merkle_root", .str b.merkleRoot), (py "schema_version", .int 1),
    (py "version", .int b.version)]

/-- `build_snapshot`. -/
def buildSnapshot (db : Db) (key : SigningKey P) (boundary : Option SnapshotBoundary)
    (createdAt : Option PyStr) (version : Option Int) : Except PyErr Dict := do
  let selected ← match boundary with
    | some boundary => .ok boundary
    | none => snapshotBoundary db none
  if createdAt.any (· ≠ selected.createdAt) then
    .error (.valueError "snapshot created_at must equal the committed boundary")
  else if version.any (· ≠ selected.version) then
    .error (.valueError "snapshot version must equal the committed log size")
  else key.signRecord (snapshotBody selected)

/-- `SnapshotBoundary.from_dict` of the five fields of a boundary. -/
def boundaryFromFields (version logSize head merkleRoot createdAt : Option Json) :
    Except PyErr SnapshotBoundary :=
  match version, logSize, head, merkleRoot, createdAt with
  | some (.int version), some (.int logSize), some (.str head), some (.str merkleRoot),
    some (.str createdAt) =>
    if version ≠ logSize ∨ version < 0 ∨ ¬hex256 head ∨ ¬hex256 merkleRoot ∨ createdAt = [] then
      .error (.valueError "snapshot boundary is malformed")
    else .ok ⟨version, logSize, head, merkleRoot, createdAt⟩
  | _, _, _, _, _ => .error (.valueError "snapshot boundary is malformed")

/-- The boundary of a snapshot, from its fields. -/
def boundaryFromDict (snapshot : Dict) : Except PyErr SnapshotBoundary :=
  boundaryFromFields (snapshot.get? (py "version")) (snapshot.get? (py "log_size"))
    (snapshot.get? (py "head")) (snapshot.get? (py "merkle_root")) (snapshot.get? (py "created_at"))

variable {P}

/-- A snapshot of the current boundary. -/
theorem buildSnapshot_eq_ok {db : Db} {key : SigningKey P} {snapshot : Dict} :
    buildSnapshot P db key none none none = .ok snapshot ↔
      ∃ b, snapshotBoundary db none = .ok b ∧ key.signRecord (snapshotBody b) = .ok snapshot := by
  constructor
  · intro h
    obtain ⟨b, hb, h⟩ := Wire.Except.bind_eq_ok h
    exact ⟨b, hb, h⟩
  · rintro ⟨b, hb, h⟩
    rw [buildSnapshot, hb]
    exact h

/-- A snapshot of a given boundary. -/
theorem buildSnapshot_boundary (db : Db) (key : SigningKey P) (b : SnapshotBoundary) :
    buildSnapshot P db key (some b) none none = key.signRecord (snapshotBody b) := rfl

theorem get?_snapshotBody (b : SnapshotBoundary) :
    (snapshotBody b).get? (py "created_at") = some (.str b.createdAt) ∧
    (snapshotBody b).get? (py "head") = some (.str b.head) ∧
    (snapshotBody b).get? (py "log_size") = some (.int b.logSize) ∧
    (snapshotBody b).get? (py "merkle_root") = some (.str b.merkleRoot) ∧
    (snapshotBody b).get? (py "schema_version") = some (.int 1) ∧
    (snapshotBody b).get? (py "version") = some (.int b.version) := by
  refine ⟨?_, ?_, ?_, ?_, ?_, ?_⟩ <;> rfl

theorem sorted_snapshotBody (b : SnapshotBoundary) : (Json.obj (snapshotBody b)).Sorted := by
  refine Json.every_obj.2 ⟨?_, ?_⟩
  · have hkeys : [py "created_at", py "head", py "log_size", py "merkle_root", py "schema_version",
        py "version"].Pairwise (· < ·) := by decide
    exact List.pairwise_map.1 hkeys
  · simp only [snapshotBody, List.forall_mem_cons]
    exact ⟨trivial, trivial, trivial, trivial, trivial, trivial, List.forall_mem_nil _⟩

/-- The members of a signed snapshot are those of its boundary. -/
theorem signSnapshot_fields {key : SigningKey P} {b : SnapshotBoundary} {snapshot : Dict}
    (h : key.signRecord (snapshotBody b) = .ok snapshot) :
    snapshot.get? (py "created_at") = some (.str b.createdAt) ∧
    snapshot.get? (py "head") = some (.str b.head) ∧
    snapshot.get? (py "log_size") = some (.int b.logSize) ∧
    snapshot.get? (py "merkle_root") = some (.str b.merkleRoot) ∧
    snapshot.get? (py "schema_version") = some (.int 1) ∧
    snapshot.get? (py "version") = some (.int b.version) := by
  have keep {l : PyStr} (hl : l ≠ py "sig") := get?_signRecord h hl
  obtain ⟨h₁, h₂, h₃, h₄, h₅, h₆⟩ := get?_snapshotBody b
  exact ⟨(keep (by decide)).trans h₁, (keep (by decide)).trans h₂, (keep (by decide)).trans h₃,
    (keep (by decide)).trans h₄, (keep (by decide)).trans h₅, (keep (by decide)).trans h₆⟩

end SkillRegistry
