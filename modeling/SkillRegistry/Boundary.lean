import SkillRegistry.Countersign
import SkillRegistry.Snapshot
import SkillRegistry.Store.Verify

/-!
# Signed boundaries

A boundary of a log with its signature is a snapshot that a client checks by its shape
before it verifies the signature.

* `SnapshotBoundary.WellFormed` is the shape of a boundary that can be signed and checked,
  and `Chained.wellFormed` finds it in the boundaries of a log;
* `exists_signedBoundary`: such a boundary can be signed;
* `ValidSnapshot.of_signed`: the snapshot is valid, and `boundaryFromDict_signed` reads the
  boundary back from it.
-/

namespace SkillRegistry

open Wire

variable {P : Platform}

/-- The shape of a boundary that is signed. -/
structure SnapshotBoundary.WellFormed (b : SnapshotBoundary) : Prop where
  createdAt : isTimestampForm b.createdAt = true
  head : hex256 b.head = true
  merkleRoot : hex256 b.merkleRoot = true
  version : b.version = b.logSize
  nonneg : 0 ≤ b.logSize
  bounded : b.logSize ≤ maxSafeInteger

theorem isTimestampForm_of_isTimestamp {s : PyStr} (h : isTimestamp s = true) :
    isTimestampForm s = true := by
  simp only [isTimestamp, Bool.and_eq_true] at h
  exact h.1.1.1.1.1.1.1.1

theorem ascii_of_hex256 {s : PyStr} (h : hex256 s = true) :
    s.length = 64 ∧ ∀ c ∈ s, c.val < 0x80 := by
  rw [hex256, Bool.and_eq_true, List.all_eq_true, decide_eq_true_eq] at h
  refine ⟨h.1, fun c hc => ?_⟩
  have := h.2 c hc
  simp only [Bool.or_eq_true, Bool.and_eq_true, decide_eq_true_eq] at this
  omega

theorem scalar_of_hex256 {s : PyStr} (h : hex256 s = true) : Scalar s :=
  scalar_of_ascii (ascii_of_hex256 h).2

/-- The hashes of a chain are those of SHA-256. -/
theorem IsLog.hex256_entryHash {seq : Int} {prev : PyStr} {rows : List LogRow} {bodies : List Bytes}
    (h : IsLog P seq prev rows bodies) {row : LogRow} (hr : row ∈ rows) :
    hex256 row.entryHash = true := by
  obtain ⟨hhash, hlen⟩ := h.leaf_spec row hr
  exact hhash ▸ hex256_hex hlen

/-- The boundary of a log whose times are times. -/
theorem IsLog.wellFormed {rows : List LogRow} {bodies : List Bytes}
    (h : IsLog P 1 genesis rows bodies) (htimely : ∀ row ∈ rows, isTimestamp row.createdAt = true)
    {created : PyStr} (hcreated : isTimestamp created = true)
    (hsize : (rows.length : Int) ≤ maxSafeInteger) : (boundaryOf P created rows).WellFormed := by
  have hmerkle : hex256 (merkleRootOf P (rows.map LogRow.leaf)) = true :=
    merkleRootOf_length fun b hb => by
      obtain ⟨row, hrow, rfl⟩ := List.mem_map.1 hb
      exact (h.leaf_spec row hrow).2
  have hgenesis : hex256 genesis = true := by decide
  rw [boundaryOf]
  cases hlast : rows.getLast? with
  | none =>
    exact ⟨isTimestampForm_of_isTimestamp hcreated, hgenesis, hgenesis, rfl, le_rfl,
      (by decide : (0 : Int) ≤ maxSafeInteger)⟩
  | some row =>
    have hrow := List.mem_of_getLast? hlast
    exact ⟨isTimestampForm_of_isTimestamp (htimely row hrow), h.hex256_entryHash hrow, hmerkle, rfl,
      Int.natCast_nonneg _, hsize⟩

namespace SnapshotBoundary.WellFormed

variable {b : SnapshotBoundary} (h : b.WellFormed)
include h

theorem canonical : Canonical (.obj (snapshotBody b)) := by
  have hint : CanonicalWithin 99 (.int b.logSize) :=
    ⟨⟨(by decide : -maxSafeInteger ≤ 0).trans h.nonneg, h.bounded⟩, Nat.zero_le _⟩
  have hone : CanonicalWithin 99 (.int 1) :=
    ⟨(by decide : -maxSafeInteger ≤ 1 ∧ 1 ≤ maxSafeInteger), Nat.zero_le _⟩
  have hkeys : ∀ k ∈ snapshotFields, Scalar k := by decide
  refine canonical_obj.2 fun m hm => ?_
  simp only [snapshotBody, List.mem_cons, List.not_mem_nil, or_false] at hm
  rcases hm with rfl | rfl | rfl | rfl | rfl | rfl
  · exact ⟨hkeys (py "created_at") (by decide), canonicalWithin_str (scalar_of_isTimestampForm h.createdAt)⟩
  · exact ⟨hkeys (py "head") (by decide), canonicalWithin_str (scalar_of_hex256 h.head)⟩
  · exact ⟨hkeys (py "log_size") (by decide), hint⟩
  · exact ⟨hkeys (py "merkle_root") (by decide), canonicalWithin_str (scalar_of_hex256 h.merkleRoot)⟩
  · exact ⟨hkeys (py "schema_version") (by decide), hone⟩
  · exact ⟨hkeys (py "version") (by decide), h.version ▸ hint⟩

/-- A boundary can be signed. -/
theorem exists_signed (key : SigningKey P) :
    ∃ snapshot, key.signRecord (snapshotBody b) = .ok snapshot :=
  signRecord_of_canonical key h.canonical

/-- A signed boundary is a valid snapshot. -/
theorem validSnapshot {key : SigningKey P} {snapshot : Dict}
    (hs : key.signRecord (snapshotBody b) = .ok snapshot) : ValidSnapshot P snapshot := by
  obtain ⟨hcreated, hhead, hsize, hroot, hschema, hversion⟩ := signSnapshot_fields hs
  obtain ⟨bytes, -, hsig⟩ := get?_sig_signRecord hs
  refine ⟨?_, ?_, ⟨_, hroot, h.merkleRoot⟩, ⟨_, hhead, h.head⟩,
    ⟨b.logSize, b.version, hsize, hversion, h.nonneg, ?_, ?_⟩, ⟨_, hcreated, h.createdAt⟩,
    hsig ▸ isEnvelope_envelope key bytes, canonical_signRecord hs⟩
  · obtain ⟨bytes', -, rfl⟩ := signRecord_eq_ok.1 hs
    rfl
  · rw [hschema]
    rfl
  · exact h.version.ge
  · exact h.version ▸ h.bounded

/-- A boundary is read back from its snapshot. -/
theorem boundaryFromDict_signed {key : SigningKey P} {snapshot : Dict}
    (hs : key.signRecord (snapshotBody b) = .ok snapshot) : boundaryFromDict snapshot = .ok b := by
  obtain ⟨hcreated, hhead, hsize, hroot, -, hversion⟩ := signSnapshot_fields hs
  rw [boundaryFromDict, hcreated, hhead, hsize, hroot, hversion]
  have hne : b.createdAt ≠ [] := fun he => by
    have := h.createdAt
    rw [he] at this
    cases this
  have hneg : ¬b.version < 0 := h.version ▸ h.nonneg.not_gt
  refine if_neg ?_
  rintro (hc | hc | hc | hc | hc)
  · exact hc h.version
  · exact hneg hc
  · exact hc h.head
  · exact hc h.merkleRoot
  · exact hne hc

end SnapshotBoundary.WellFormed

end SkillRegistry
