import SkillRegistry.Bundle
import SkillRegistry.Run

/-!
# Exported bundles

The records and the snapshot of a bundle are read by separate calls of the store, and
other connections may commit between them.

* `exportBundle_eq`: the records are the log that the first statement of the export sees,
  and the snapshot is the one of the log that the first statement of `build_snapshot` sees;
* `exportBundle_consistent_iff`: so a bundle is self-consistent exactly when no append was
  committed between the two.
-/

namespace SkillRegistry

open Wire

variable (P : Platform)

/-- What an import requires of the records and the snapshot of a bundle, the schema version
    being 2 exactly when some record is framed by version 2. -/
def SelfConsistent (bundle : Dict) : Prop :=
  ∃ records snapshot, bundle.get? (py "records") = some (.arr (records.map .obj)) ∧
    bundle.get? (py "snapshot") = some (.obj snapshot) ∧ CommitsTo P snapshot records ∧
    bundle.get? (py "schema_version") =
      some (.int (if ∃ r ∈ records, hasHashVersion2 P r = true then 2 else 1))

variable {P}

/-! ## What is exported -/

theorem get?_bundleOf (key : SigningKey P) (records : List Dict) (snapshot : Dict) :
    (bundleOf key records snapshot).get? (py "public_key") = some (.str key.publicPinned) ∧
    (bundleOf key records snapshot).get? (py "records") = some (.arr (records.map .obj)) ∧
    (bundleOf key records snapshot).get? (py "schema_version") =
      some (.int (if records.any (hasHashVersion2 P) then 2 else 1)) ∧
    (bundleOf key records snapshot).get? (py "snapshot") = some (.obj snapshot) :=
  ⟨rfl, rfl, rfl, rfl⟩

/-- The records of a chain hash to the entry hashes of its rows. -/
theorem IsLog.chainHashes_eq {seq : Int} {prev : PyStr} {rows : List LogRow} {bodies : List Bytes}
    (h : IsLog P seq prev rows bodies) :
    chainHashes P prev (rows.map (LogRow.record P)) = .ok (rows.map (·.entryHash)) := by
  induction h with
  | nil seq prev => rfl
  | cons numbered chained holds hash rest ih =>
    rw [List.map_cons, chainHashes, holds.record_eq, holds.encoded]
    change (entryHash P _ _ >>= fun hash => _) = _
    rw [hash]
    change (chainHashes P _ _ >>= fun hashes => _) = _
    rw [ih]
    rfl

theorem IsLog.merkleRoot_eq {seq : Int} {prev : PyStr} {rows : List LogRow} {bodies : List Bytes}
    (h : IsLog P seq prev rows bodies) (created : PyStr) :
    SkillRegistry.merkleRoot P (rows.map (·.entryHash)) = .ok (boundaryOf P created rows).merkleRoot := by
  rw [h.merkleRoot, boundaryOf_merkleRoot]

section Views

variable {view : Nat → Db} (hv : ∀ n, Grows P (view n) (view (n + 1))) (hi : Invariant P (view 0))
include hv hi

theorem invariant_view (n : Nat) : Invariant P (view n) := by
  induction n with
  | zero => exact hi
  | succ n ih => exact (hv n).invariant ih

/-- What an export reads: the log at its first statement, and the boundary at the first
    statement after the log was read. -/
theorem exportBundle_eq {key : SigningKey P} {s : Db} {bundle : Dict}
    (h : ((StoreRead.exportBundle key) (Shared.sees view) 0 s).result = .ok bundle) :
    ∃ created snapshot,
      key.signRecord (snapshotBody (boundaryOf P created
        (view (boundaryReads (view 0).log.rows + 1)).log.rows)) = .ok snapshot ∧
      bundle = bundleOf key ((view 0).log.rows.map (LogRow.record P)) snapshot := by
  have hall := invariant_view hv hi
  obtain ⟨m, s₁, entries, hentries, hrest⟩ := Shared.bind_eq_ok h
  obtain ⟨s₂, hrun, rfl⟩ := logEntriesLocked_eq hv hall (by rw [hentries])
  rw [hentries, Nat.zero_add] at hrun
  obtain ⟨rfl, rfl, -⟩ := Shared.Outcome.mk.inj hrun
  obtain ⟨m', s₃, snapshot, hsnapshot, hrest⟩ := Shared.bind_eq_ok hrest
  obtain ⟨m'', s₄, b, hb, hsign⟩ := Shared.bind_eq_ok (congrArg Shared.Outcome.result hsnapshot)
  obtain ⟨created, s₅, -, rfl⟩ := snapshotBoundaryLocked_eq hv hall (by rw [hb])
  refine ⟨created, snapshot, hsign, ?_⟩
  rw [← Except.ok.inj hrest, List.map_map]
  rfl

/-- An exported bundle is self-consistent exactly when the log has one size at the first
    statement of the export and at the first one after its records were read. -/
theorem exportBundle_consistent_iff {key : SigningKey P} {s : Db} {bundle : Dict}
    (h : ((StoreRead.exportBundle key) (Shared.sees view) 0 s).result = .ok bundle) :
    SelfConsistent P bundle ↔
      (view (boundaryReads (view 0).log.rows + 1)).size = (view 0).size := by
  obtain ⟨created, snapshot, hsign, rfl⟩ := exportBundle_eq hv hi h
  obtain ⟨-, hrecords, hschema, hsnapshot⟩ :=
    get?_bundleOf key ((view 0).log.rows.map (LogRow.record P)) snapshot
  obtain ⟨-, hhead, hsize, hroot, -, -⟩ := signSnapshot_fields hsign
  have hlater := grows_view hv (Nat.zero_le (boundaryReads (view 0).log.rows + 1))
  have hinv := invariant_view hv hi (boundaryReads (view 0).log.rows + 1)
  rw [hinv.toChained.size_eq, hi.toChained.size_eq]
  rw [boundaryOf_logSize] at hsize
  constructor
  · rintro ⟨records, snapshot', hr, hs, ⟨hashes, root, -, -, -, hsize', -⟩, -⟩
    obtain rfl := Json.obj.inj (Option.some.inj (hsnapshot.symm.trans hs))
    have hr := congrArg List.length (Json.arr.inj (Option.some.inj (hrecords.symm.trans hr)))
    rw [List.length_map, List.length_map, List.length_map] at hr
    rw [hr]
    exact Json.int.inj (Option.some.inj (hsize.symm.trans hsize'))
  · intro hlen
    obtain ⟨bodies, hlog⟩ := hi.log
    have hrows : (view (boundaryReads (view 0).log.rows + 1)).log.rows = (view 0).log.rows :=
      (hlater.log_prefix.eq_of_length (by omega)).symm
    rw [hrows] at hhead hsize hroot
    refine ⟨_, snapshot, hrecords, hsnapshot, ⟨_, _, hlog.chainHashes_eq,
      hlog.merkleRoot_eq created, ?_, ?_, hroot⟩, ?_⟩
    · rw [hhead, boundaryOf_head, List.getLast?_map]
    · rw [hsize, List.length_map]
    · simp only [hschema, List.any_eq_true]

end Views

/-! ## On the sample registry -/

/-- An append that is committed after the records of an export were read. -/
def sampleView (n : Nat) : Db := if n < 3 then sampleConn.disk else sampleGrown

theorem grows_sampleView (n : Nat) : Grows .sample (sampleView n) (sampleView (n + 1)) := by
  unfold sampleView
  split_ifs
  · exact .refl
  · exact grows_perform (.calm 0) sampleConn sampleStore sampleAppend
  · omega
  · exact .refl

/-- The bundle that is exported meanwhile. -/
def sampleTorn : Dict :=
  ((StoreRead.exportBundle sampleKey) (Shared.sees sampleView) 0 .absent).result.toOption.getD []

set_option maxRecDepth 10000 in
theorem exportBundle_consistent_iff_sample : SelfConsistent .sample sampleTorn ↔
    (sampleView (boundaryReads (sampleView 0).log.rows + 1)).size = (sampleView 0).size :=
  exportBundle_consistent_iff grows_sampleView invariant_sample (show ((StoreRead.exportBundle
    sampleKey) (Shared.sees sampleView) 0 .absent).result = .ok sampleTorn by decide +kernel)

set_option maxRecDepth 10000 in
/-- An export of the registry that it starts with returns no record, and a snapshot of one. -/
theorem exportBundle_torn : ∃ (view : Nat → Db) (bundle : Dict),
    openStore .sample sampleStart false .absent = (view 0, .ok sampleStore) ∧
      (∀ n, Grows .sample (view n) (view (n + 1))) ∧
      ((StoreRead.exportBundle sampleKey) (Shared.sees view) 0 (view 0)).result = .ok bundle ∧
      ¬SelfConsistent .sample bundle := by
  refine ⟨sampleView, sampleTorn, openStore_sample, grows_sampleView, by decide +kernel, ?_⟩
  rintro ⟨records, snapshot, hr, hs, ⟨hashes, root, -, -, -, hsize, -⟩, -⟩
  have hnone : sampleTorn.get? (py "records") = some (.arr []) := by decide +kernel
  have hgrown : sampleTorn.get? (py "snapshot") = some (.obj sampleSnapshot) := by decide +kernel
  have hone : sampleSnapshot.get? (py "log_size") = some (.int 1) := by decide +kernel
  have hr := Json.arr.inj (Option.some.inj (hnone.symm.trans hr))
  obtain rfl := Json.obj.inj (Option.some.inj (hgrown.symm.trans hs))
  rw [List.map_eq_nil_iff.1 hr.symm] at hsize
  have := hsize.symm.trans hone
  cases this

end SkillRegistry
