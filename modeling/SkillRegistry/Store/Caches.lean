import SkillRegistry.Store.Verify

/-!
# The caches of the store

The boundaries and the frontier are computed from the log: at startup they are checked
against it and missing rows are filled in; the background verifier only checks them.

* `ensureBoundaries` is the startup check; what it leaves satisfies the invariant
  (`ensureBoundaries_invariant`), and it changes nothing where the invariant holds;
* `boundaryCacheErrors` is the comparison of the background verifier, and
  `Store.refreshHealthVerdict` the pass that publishes a verdict.
-/

namespace SkillRegistry

open Wire Merkle

variable (P : Platform)

/-! ## Startup -/

/-- The leaves of the log, as the recomputation takes them. -/
def Db.prefixLeaves (db : Db) : List (PyStr × PyStr) :=
  db.log.rows.map fun row => (row.entryHash, row.createdAt)

/-- The stored frontier is the recomputed one; an unreadable one is not. -/
def frontierMatches (db : Db) (frontier : List (Summary Bytes)) : Except PyErr Bool :=
  match loadFrontier P db with
  | .ok stored => .ok (stored = frontier)
  | .error (.storeIntegrityError _) => .ok false
  | .error e => .error e

/-- The stored boundaries and frontier, compared with the recomputed ones; what is missing is
    filled in, in a transaction that `begins` says the failure of. -/
def reconcile (begins : Option PyErr) (expected : List BoundaryRow)
    (frontier : List (Summary Bytes)) (db : Db) : Except PyErr Db :=
  if db.boundaries.rows.any fun row => row.logSize < 1 || expected.length < row.logSize then
    .error (.storeIntegrityError "snapshot boundary cache is inconsistent")
  else if expected.any fun row => (db.boundaries.find? row.logSize).any (· ≠ row) then
    .error (.storeIntegrityError "snapshot boundary cache disagrees with the committed log")
  else do
    let agrees ← frontierMatches P db frontier
    let missing := expected.filter fun row => (db.boundaries.find? row.logSize).isNone
    if missing = [] ∧ agrees then .ok db
    else match begins with
    | some e => .error e
    | none => .ok { db with
        boundaries := missing.foldl .put db.boundaries, frontier := frontierTable frontier }

/-- `_ensure_boundaries`, while no other connection writes. -/
def ensureBoundaries (begins : Option PyErr) (db : Db) : Except PyErr Db :=
  if db.log.rows.map (·.seq) ≠ (List.range db.log.rows.length).map fun i : Nat => (i : Int) + 1 then
    .error (.storeIntegrityError "log sequence is not contiguous")
  else do
    let recomputed ← recomputePrefix P db.prefixLeaves
    reconcile P begins (boundaryRows recomputed.1) recomputed.2 db

/-! ## The background verifier -/

/-- `_boundary_cache_errors`. -/
def boundaryCacheErrors (expected : List (PyStr × PyStr × PyStr)) (stored : List BoundaryRow)
    (walkedSize liveSize : Int) (frontierLength : Option Int)
    (storedFrontier recomputedFrontier : List (Summary Bytes)) : List String :=
  (boundaryRows expected).flatMap (fun row =>
    match stored.find? (·.logSize = row.logSize) with
    | none => [s!"snapshot boundary cache is missing log size {row.logSize}"]
    | some cached =>
      flag (cached ≠ row) "snapshot boundary cache disagrees with the committed log") ++
  stored.flatMap (fun row =>
    if row.logSize < 1 then
      [s!"snapshot boundary cache references invalid log size {row.logSize}"]
    else flag (liveSize < row.logSize)
      s!"snapshot boundary cache references uncommitted log size {row.logSize}") ++
  if ¬(frontierLength = some liveSize ∨ frontierLength = none ∧ liveSize = 0) then
    ["merkle frontier does not match the log head"]
  else flag (liveSize = walkedSize ∧ storedFrontier ≠ recomputedFrontier)
    "merkle frontier disagrees with the committed log"

/-- `_verify_boundary_cache_on`. -/
def verifyBoundaryCache (db : Db) : Except PyErr (List String) := do
  let recomputed ← recomputePrefix P db.prefixLeaves
  match loadFrontier P db with
  | .error (.storeIntegrityError m) => return [s!"merkle frontier encoding is invalid: {m}"]
  | .error e => throw e
  | .ok storedFrontier =>
    return boundaryCacheErrors recomputed.1 db.boundaries.rows db.log.rows.length db.size
      ((db.frontier.find? 0).map (·.len)) storedFrontier recomputed.2

/-- The errors of one full verification pass. -/
def healthErrors (db : Db) : Except PyErr (List String) := do
  let errors ← integrityErrors P db
  if errors = [] then verifyBoundaryCache P db else return errors

/-- What happens to a verification pass. -/
structure RefreshEnv where
  /-- The pass itself raises. -/
  fails : Option PyErr
  utcNow : Timestamp
  clock : ℚ

namespace Store

/-- `refresh_health_verdict`: the pass reads the committed database, and publishes the head
    its own connection sees. -/
def refreshHealthVerdict (env : RefreshEnv) (c : Conn) (s : Store) : Store :=
  let errors := match env.fails, healthErrors P c.disk with
    | some e, _ | none, .error e => [s!"health verification failed: {e.message}"]
    | none, .ok errors => errors
  if h : s.integrityFailed then s
  else if errors ≠ [] then s.latchIntegrityFailure ("; ".intercalate errors) env.clock
  else
    match snapshotBoundary c.view none with
    | .error e =>
      s.latchIntegrityFailure s!"snapshot boundary is unavailable: {e.message}" env.clock
    | .ok boundary => { s with
        healthReady := true, verifiedHead := boundary.head, verifiedLogSize := boundary.logSize,
        verifiedAt := env.utcNow.text, healthError := none, lastRefresh := env.clock
        failed_not_ready := fun hf => absurd hf h }

/-- `health_verdict().ready`. -/
def ready (s : Store) (now : ℚ) : Bool := s.healthReady && !s.stale now

end Store

/-! ## What the checks establish -/

variable {P}

theorem numbered_seqs {db : Db} (h : db.log.Numbered) :
    db.log.rows.map (·.seq) = (List.range db.log.rows.length).map fun i : Nat => (i : Int) + 1 := by
  refine List.ext_getElem? fun i => ?_
  rw [List.getElem?_map, List.getElem?_map]
  cases hi : db.log.rows[i]? with
  | none =>
    have := List.getElem?_eq_none_iff.1 hi
    rw [List.getElem?_eq_none (by rw [List.length_range]; exact this)]
    rfl
  | some row =>
    have := (List.getElem?_eq_some_iff.1 hi).1
    rw [List.getElem?_range this]
    exact congrArg some (h i row hi)

theorem frontierMatches_eq_true {db : Db} {frontier : List (Summary Bytes)} :
    frontierMatches P db frontier = .ok true ↔ loadFrontier P db = .ok frontier := by
  unfold frontierMatches
  constructor
  · intro h
    split at h
    · rename_i stored hload
      rw [hload, of_decide_eq_true (Except.ok.inj h)]
    · cases h
    · cases h
  · intro h
    rw [h]
    simp

theorem sorted_boundaryRows (bs : List (PyStr × PyStr × PyStr)) :
    (boundaryRows bs).Pairwise fun a b => a.logSize < b.logSize := by
  rw [List.pairwise_iff_getElem]
  intro i j hi hj hij
  simp only [boundaryRows, List.getElem_mapIdx]
  omega

/-- The rows of the recomputed boundaries, as a table. -/
def boundaryTable (bs : List (PyStr × PyStr × PyStr)) : Table BoundaryRow.logSize :=
  ⟨boundaryRows bs, sorted_boundaryRows bs⟩

/-- What is stored is in range and agrees, so it is part of what is expected. -/
theorem reconcile_stored {db : Db} {bs : List (PyStr × PyStr × PyStr)}
    (hrange : ¬db.boundaries.rows.any fun row =>
      row.logSize < 1 || (boundaryRows bs).length < row.logSize)
    (hagree : ¬(boundaryRows bs).any fun row => (db.boundaries.find? row.logSize).any (· ≠ row)) :
    ∀ row ∈ db.boundaries.rows, row ∈ boundaryRows bs := by
  intro row hr
  simp only [List.any_eq_true, not_exists, not_and, Bool.or_eq_true, decide_eq_true_eq, not_or,
    not_lt] at hrange hagree
  obtain ⟨h₁, h₂⟩ := hrange row hr
  have hlt : row.logSize.toNat - 1 < (boundaryRows bs).length := by omega
  have hmem := List.getElem_mem hlt
  have hkey : (boundaryRows bs)[row.logSize.toNat - 1].logSize = row.logSize := by
    simp only [boundaryRows, List.getElem_mapIdx]
    omega
  have := hagree _ hmem
  rw [hkey, Table.find?_eq_some.2 ⟨hr, rfl⟩, Option.any_some, decide_eq_true_eq, not_not] at this
  exact this ▸ hmem

/-- Where nothing is missing, all that is expected is stored. -/
theorem reconcile_missing {db : Db} {bs : List (PyStr × PyStr × PyStr)}
    (hstored : ∀ row ∈ db.boundaries.rows, row ∈ boundaryRows bs) {row : BoundaryRow} :
    row ∈ boundaryRows bs ↔ row ∈ db.boundaries.rows ∨
      row ∈ (boundaryRows bs).filter fun row => (db.boundaries.find? row.logSize).isNone := by
  constructor
  · intro h
    cases hf : db.boundaries.find? row.logSize with
    | none => exact .inr (List.mem_filter.2 ⟨h, by rw [hf]; rfl⟩)
    | some stored =>
      obtain ⟨hs, hk⟩ := Table.find?_eq_some.1 hf
      exact .inl ((boundaryTable bs).eq_of_key_eq (hstored stored hs) h hk ▸ hs)
  · rintro (h | h)
    · exact hstored row h
    · exact (List.mem_filter.1 h).1

/-- What is stored is not refused where it is part of what is expected. -/
theorem reconcile_of_stored {begins : Option PyErr} {db : Db} {bs : List (PyStr × PyStr × PyStr)}
    {frontier : List (Summary Bytes)} (hstored : ∀ row ∈ db.boundaries.rows, row ∈ boundaryRows bs)
    {agrees : Bool} (hm : frontierMatches P db frontier = .ok agrees) :
    reconcile P begins (boundaryRows bs) frontier db =
      if ((boundaryRows bs).filter fun row => (db.boundaries.find? row.logSize).isNone) = [] ∧
        agrees then .ok db
      else begins.elim (.ok { db with
          boundaries := ((boundaryRows bs).filter fun row =>
            (db.boundaries.find? row.logSize).isNone).foldl .put db.boundaries
          frontier := frontierTable frontier }) .error := by
  have hrange : ¬db.boundaries.rows.any fun row =>
      row.logSize < 1 || (boundaryRows bs).length < row.logSize := by
    simp only [List.any_eq_true, not_exists, not_and, Bool.or_eq_true, decide_eq_true_eq, not_or,
      not_lt]
    intro row hr
    obtain ⟨i, hi, rfl⟩ := List.mem_iff_getElem.1 (hstored row hr)
    rw [boundaryRows, List.length_mapIdx] at hi
    simp only [boundaryRows, List.getElem_mapIdx, List.length_mapIdx]
    omega
  have hagree : ¬(boundaryRows bs).any fun row =>
      (db.boundaries.find? row.logSize).any (· ≠ row) := by
    simp only [List.any_eq_true, not_exists, not_and, Bool.not_eq_true]
    intro row hr
    cases hf : db.boundaries.find? row.logSize with
    | none => rfl
    | some cached =>
      obtain ⟨hmem, hkey⟩ := Table.find?_eq_some.1 hf
      have hsame := (boundaryTable bs).eq_of_key_eq (hstored cached hmem) hr hkey
      rw [Option.any_some, hsame, decide_eq_false_iff_not, not_not]
  rw [reconcile, if_neg hrange, if_neg hagree, hm]
  cases begins <;> rfl

/-- What reconciling leaves: the expected boundaries and a frontier that is read back. -/
theorem reconcile_eq_ok {begins : Option PyErr} {bs : List (PyStr × PyStr × PyStr)}
    {frontier : List (Summary Bytes)} {db db' : Db}
    (h : reconcile P begins (boundaryRows bs) frontier db = .ok db') :
    db'.boundaries.rows = boundaryRows bs ∧ (∃ b f, db' = { db with boundaries := b, frontier := f }) ∧
      (db' = db ∧ loadFrontier P db = .ok frontier ∨ db'.frontier = frontierTable frontier) := by
  unfold reconcile at h
  split_ifs at h with hrange hagree
  obtain ⟨agrees, hm, h⟩ := Wire.Except.bind_eq_ok h
  have hstored := reconcile_stored hrange hagree
  simp only at h
  split_ifs at h with hdone
  · obtain rfl := Except.ok.inj h
    obtain ⟨hnone, rfl⟩ := hdone
    refine ⟨?_, ⟨db.boundaries, db.frontier, rfl⟩, .inl ⟨rfl, frontierMatches_eq_true.1 hm⟩⟩
    refine congrArg Table.rows (Table.ext_mem (t := boundaryTable bs) fun row => ?_)
    exact ⟨hstored row, fun hrow => by simpa [hnone] using (reconcile_missing hstored).1 hrow⟩
  · split at h
    · cases h
    · obtain rfl := Except.ok.inj h
      refine ⟨?_, ⟨_, _, rfl⟩, .inr rfl⟩
      refine congrArg Table.rows (Table.ext_mem (t := boundaryTable bs) fun row => ?_)
      exact (Table.mem_foldl_put (u := boundaryTable bs) hstored
        fun row hrow => (List.mem_filter.1 hrow).1).trans (reconcile_missing hstored).symm

/-- What the startup check leaves satisfies the invariant. -/
theorem ensureBoundaries_invariant {begins : Option PyErr} {db db' : Db} {bodies : List Bytes}
    (hlog : IsLog P 1 genesis db.log.rows bodies) (hn : (db.log.rows.length : Int) ≤ maxInteger)
    (h : ensureBoundaries P begins db = .ok db') :
    Invariant P db' ∧ ∃ b f, db' = { db with boundaries := b, frontier := f } := by
  obtain ⟨f, hf, hf'⟩ := hlog.recomputePrefix hn
  unfold ensureBoundaries at h
  split_ifs at h
  rw [show recomputePrefix P db.prefixLeaves = _ from hf] at h
  obtain ⟨hb, ⟨b, t, rfl⟩, hfrontier⟩ := reconcile_eq_ok h
  refine ⟨⟨⟨⟨bodies, hlog⟩, hb⟩, ⟨f, ?_, hf'⟩, hn⟩, b, t, rfl⟩
  exact hfrontier.elim (fun hsame => hsame.1 ▸ hsame.2) (hlog.loadFrontier hf')

/-- The startup check changes nothing where the invariant holds. -/
theorem Invariant.ensureBoundaries {db : Db} (h : Invariant P db) (begins : Option PyErr) :
    SkillRegistry.ensureBoundaries P begins db = .ok db := by
  obtain ⟨bodies, hlog⟩ := h.log
  obtain ⟨f, hf, hf'⟩ := hlog.recomputePrefix h.bounded
  obtain ⟨g, hg, hg'⟩ := h.frontier
  obtain rfl := hf'.unique hg'
  have hrows := h.boundaries
  have hfind : ∀ row ∈ boundaryRows (prefixBoundaries P [] (leaves db.log.rows)),
      db.boundaries.find? row.logSize = some row := fun row hr =>
    Table.find?_eq_some.2 ⟨hrows ▸ hr, rfl⟩
  rw [SkillRegistry.ensureBoundaries, if_neg (not_not.2 (numbered_seqs h.numbered)),
    show recomputePrefix P db.prefixLeaves = _ from hf]
  change reconcile P begins (boundaryRows (prefixBoundaries P [] (leaves db.log.rows))) f db = _
  rw [reconcile_of_stored (fun row hr => hrows ▸ hr) (frontierMatches_eq_true.2 hg),
    if_pos ⟨List.filter_eq_nil_iff.2 fun row hr => by rw [hfind row hr]; simp, rfl⟩]

/-! ## What the background verifier finds -/

/-- The row of the first level has the length of the frontier. -/
theorem loadFrontier_length {db : Db} {f : List (Summary Bytes)} (h : loadFrontier P db = .ok f) :
    (db.frontier.find? 0).map (·.len) = f.head?.map fun m => (m.length : Int) := by
  unfold loadFrontier at h
  rw [Table.find?]
  cases hr : db.frontier.rows with
  | nil =>
    rw [hr] at h
    obtain rfl := Except.ok.inj h
    rfl
  | cons row rows =>
    rw [hr] at h
    obtain ⟨m, hm, h⟩ := Wire.Except.bind_eq_ok h
    obtain ⟨ms, -, h⟩ := Wire.Except.bind_eq_ok h
    obtain rfl := Except.ok.inj h
    obtain ⟨hlevel, hlen, -, -⟩ := loadLevel_eq_ok hm
    have h0 : row.level = 0 := hlevel
    rw [List.find?_cons, h0]
    exact congrArg some hlen

/-- The caches of a database that satisfies the invariant have no errors. -/
theorem Invariant.verifyBoundaryCache {db : Db} (h : Invariant P db) :
    SkillRegistry.verifyBoundaryCache P db = .ok [] := by
  obtain ⟨bodies, hlog⟩ := h.log
  obtain ⟨f, hf, hf'⟩ := hlog.recomputePrefix h.bounded
  obtain ⟨g, hg, hg'⟩ := h.frontier
  obtain rfl := hf'.unique hg'
  have hrows := h.boundaries
  have hsize := h.size_eq
  have hlen : (db.frontier.find? 0).map (·.len) = some db.size ∨
      (db.frontier.find? 0).map (·.len) = none ∧ db.size = 0 := by
    rw [loadFrontier_length hg]
    have hl := hf'.length_eq
    rw [List.length_map] at hl
    cases f with
    | nil => exact .inr ⟨rfl, by rw [hsize, ← hl]; rfl⟩
    | cons m f => exact .inl (by rw [hsize, ← hl]; rfl)
  have herrors : boundaryCacheErrors (prefixBoundaries P [] (leaves db.log.rows)) db.boundaries.rows
      db.log.rows.length db.size ((db.frontier.find? 0).map (·.len)) f f = [] := by
    rw [boundaryCacheErrors, if_neg (not_not.2 hlen), List.append_eq_nil_iff,
      List.append_eq_nil_iff, List.flatMap_eq_nil_iff, List.flatMap_eq_nil_iff]
    refine ⟨⟨fun row hr => ?_, fun row hr => ?_⟩, flag_eq_nil.2 fun hne => hne.2 rfl⟩
    · have hfind : db.boundaries.rows.find? (·.logSize = row.logSize) = some row :=
        (Table.find?_eq_some (t := db.boundaries)).2 ⟨hrows ▸ hr, rfl⟩
      rw [hfind]
      exact flag_eq_nil.2 (not_not.2 rfl)
    · obtain ⟨i, hi⟩ := List.mem_iff_getElem?.1 hr
      have hk := numbered_boundaries hrows i row hi
      have hlt := (List.getElem?_eq_some_iff.1 hi).1
      rw [hrows, boundaryRows, List.length_mapIdx, prefixBoundaries_length, leaves_length] at hlt
      rw [if_neg (by omega)]
      exact flag_eq_nil.2 (by omega)
  rw [SkillRegistry.verifyBoundaryCache, show recomputePrefix P db.prefixLeaves = _ from hf, hg]
  exact congrArg Except.ok herrors

/-- A verification pass finds nothing in a verified database that satisfies the invariant. -/
theorem healthErrors_eq_nil {db : Db} (hv : Verified P db) (h : Invariant P db) :
    healthErrors P db = .ok [] := by
  rw [healthErrors, integrityErrors_eq_nil.2 hv]
  exact h.verifyBoundaryCache

end SkillRegistry
