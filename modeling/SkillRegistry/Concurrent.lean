import SkillRegistry.Store.Open
import SkillRegistry.Store.Served
import SkillRegistry.Snapshot
import SkillRegistry.Structure.Shared

/-!
# Reads beside other writers

Outside a transaction each statement of a connection sees what is committed when it
starts. What other connections commit in between are whole calls and whole starts
(`Writes`), so a statement sees a database that has only grown (`Grows`): it extends
the log, and keeps the invariant.

* the reads of a boundary, of a log and of a snapshot are given statement by statement,
  and are the ones of one database when nothing is committed in between
  (`still_snapshotBoundaryLocked`, `still_logEntriesLocked`);
* a boundary is the one of the log that its first statement sees, whatever is committed
  before the others (`snapshotBoundaryLocked_eq`).
-/

namespace SkillRegistry

open Wire

variable (P : Platform)

/-! ## Other writers -/

/-- What another connection may commit in one transaction, or during one start. -/
inductive Writes (db : Db) : Db → Prop
  | call {call : Call} {r : Response} {published : Option LogEntry} {db' : Db}
      (performs : Performs P call db r published db') : Writes db db'
  | start (env : OpenEnv) (locked : Bool) : Writes db (openStore P env locked db).1

/-- What other connections may make of a database. -/
def Grows : Db → Db → Prop := Relation.ReflTransGen (Writes P)

variable {P}

theorem Writes.log_prefix {db db' : Db} (h : Writes P db db') : db.log.rows <+: db'.log.rows := by
  cases h with
  | call performs =>
    obtain ⟨entries, he⟩ := performs.log_rows
    exact he ▸ List.prefix_append _ _
  | start env locked => exact (openStore_kept env locked db).log ▸ List.prefix_rfl

theorem Writes.invariant {db db' : Db} (h : Writes P db db') (hi : Invariant P db) :
    Invariant P db' := by
  cases h with
  | call performs => exact performs.invariant hi
  | start env locked => exact (openStore_kept env locked db).invariant hi

namespace Grows

variable {db db' : Db}

theorem log_prefix (h : Grows P db db') : db.log.rows <+: db'.log.rows := by
  induction h with
  | refl => exact List.prefix_rfl
  | tail _ hw ih => exact ih.trans hw.log_prefix

theorem invariant (h : Grows P db db') (hi : Invariant P db) : Invariant P db' := by
  induction h with
  | refl => exact hi
  | tail _ hw ih => exact hw.invariant ih

/-- The rows up to the size of the log do not change. -/
theorem take_length (h : Grows P db db') :
    db'.log.rows.take db.log.rows.length = db.log.rows := by
  obtain ⟨rest, hrest⟩ := h.log_prefix
  rw [← hrest, List.take_left]

end Grows

/-- A call makes the database grow, or leaves it alone. -/
theorem grows_perform (env : Env) (c : Conn) (s : Store) (call : Call) :
    Grows P c.disk (s.perform P env c call).conn.disk := by
  have h := perform_performed (P := P) env c s call
  generalize s.perform P env c call = o at h
  cases h with
  | refused => exact .refl
  | leftActive => exact .refl
  | done _ _ _ _ _ performs => exact .single (.call performs)

/-! ## Statements -/

/-- A program of the store outside a transaction. -/
abbrev StoreRead := Shared Db PyErr

namespace StoreRead

/-- The rows of the log that a cached boundary is checked against. -/
def checkAnchors (boundary : Int) (cached : BoundaryRow) : StoreRead SnapshotBoundary := do
  let anchor ← Shared.select fun db => db.log.find? boundary
  if anchor.all fun row => row.entryHash ≠ cached.head ∨ row.createdAt ≠ cached.createdAt then
    Shared.lift (.error (.storeIntegrityError "log head does not match the snapshot boundary"))
  else do
    let first ← Shared.select fun db => db.log.find? 1
    Shared.lift (if first.isNone then
        .error (.storeIntegrityError "log sequence is not contiguous")
      else .ok ⟨boundary, boundary, cached.head, cached.merkleRoot, cached.createdAt⟩)

/-- The boundary of a log whose greatest sequence number was read. -/
def boundaryUpTo (current boundary : Int) : StoreRead SnapshotBoundary :=
  if boundary < 0 ∨ boundary > current then
    Shared.lift (.error (.valueError "snapshot boundary is unavailable"))
  else if boundary = 0 then do
    let metadata ← Shared.select fun db => db.metadataValue (py "created_at")
    Shared.lift (match metadata with
      | none => .error (.storeIntegrityError "service creation metadata is missing")
      | some createdAt => .ok ⟨0, 0, genesis, genesis, createdAt⟩)
  else do
    let cached ← Shared.select fun db => db.boundaries.find? boundary
    match cached with
    | none => Shared.lift (.error
        (.storeIntegrityError "snapshot boundary cache is missing; restart to rebuild"))
    | some cached => checkAnchors boundary cached

/-- `_snapshot_boundary_locked`, statement by statement. -/
def snapshotBoundaryLocked (maxSeq : Option Int) : StoreRead SnapshotBoundary := do
  let current ← Shared.select Db.size
  boundaryUpTo current (maxSeq.getD current)

variable (P) in
/-- `log_entries`, statement by statement. -/
def logEntriesLocked (since : Int) (maxSeq : Option Int) : StoreRead (List LogEntry) := do
  let boundary ← snapshotBoundaryLocked maxSeq
  Shared.lift (bindInt [since, boundary.logSize])
  let rows ← Shared.select fun db => db.logBetween since boundary.logSize
  Shared.lift (rows.mapM (entryFromRow P))

variable (P) in
/-- `build_snapshot` at the current boundary, statement by statement. -/
def buildSnapshotLocked (key : SigningKey P) : StoreRead Dict := do
  let selected ← snapshotBoundaryLocked none
  Shared.lift (key.signRecord (snapshotBody selected))

/-! ## Without other writers -/

theorem still_snapshotBoundaryLocked (db : Db) (maxSeq : Option Int) :
    Shared.Still db (snapshotBoundaryLocked maxSeq) (snapshotBoundary db maxSeq) := by
  refine Shared.still_select ?_
  rw [boundaryUpTo]
  by_cases hrange : maxSeq.getD db.size < 0 ∨ maxSeq.getD db.size > db.size
  · simp only [snapshotBoundary]
    rw [if_pos hrange, if_pos hrange]
    exact Shared.still_lift _ _
  by_cases hzero : maxSeq.getD db.size = 0
  · simp only [snapshotBoundary]
    rw [if_neg hrange, if_neg hrange, if_pos hzero, if_pos hzero]
    refine Shared.still_select ?_
    exact Shared.still_lift _ _
  simp only [snapshotBoundary]
  rw [if_neg hrange, if_neg hrange, if_neg hzero, if_neg hzero]
  refine Shared.still_select ?_
  cases db.boundaries.find? (maxSeq.getD db.size) with
  | none => exact Shared.still_lift _ _
  | some cached =>
    refine Shared.still_select ?_
    cases db.log.find? (maxSeq.getD db.size) with
    | none => exact Shared.still_lift _ _
    | some anchor =>
      simp only [Option.all_some, decide_eq_true_eq]
      by_cases hanchor : anchor.entryHash ≠ cached.head ∨ anchor.createdAt ≠ cached.createdAt
      · rw [if_pos hanchor, if_pos hanchor]
        exact Shared.still_lift _ _
      · rw [if_neg hanchor, if_neg hanchor]
        refine Shared.still_select ?_
        exact Shared.still_lift _ _

theorem still_logEntriesLocked (P : Platform) (db : Db) (since : Int) (maxSeq : Option Int) :
    Shared.Still db (logEntriesLocked P since maxSeq) (logEntries P db since maxSeq) := by
  refine Shared.still_bind (still_snapshotBoundaryLocked db maxSeq) fun boundary => ?_
  refine Shared.still_bind (Shared.still_lift _ _) fun _ => ?_
  refine Shared.still_select ?_
  exact Shared.still_lift _ _

theorem still_buildSnapshotLocked (db : Db) (key : SigningKey P) :
    Shared.Still db (buildSnapshotLocked P key) (buildSnapshot P db key none none none) :=
  Shared.still_bind (still_snapshotBoundaryLocked db none) fun _ => Shared.still_lift _ _

end StoreRead

/-! ## Beside other writers -/

section Views

variable {view : Nat → Db} (hv : ∀ n, Grows P (view n) (view (n + 1)))
include hv

theorem grows_view {m n : Nat} (h : m ≤ n) : Grows P (view m) (view n) := by
  induction h with
  | refl => exact .refl
  | step _ ih => exact ih.trans (hv _)

variable (hi : ∀ n, Invariant P (view n))
include hi

/-- The row of the boundaries at the size of the log that an earlier statement saw. -/
theorem find?_boundary_view {m n : Nat} (h : m ≤ n) {row : LogRow}
    (hrow : (view m).log.rows.getLast? = some row) :
    (view n).boundaries.find? (view m).log.rows.length = some ⟨(view m).log.rows.length,
        row.entryHash, merkleRootOf P ((view m).log.rows.map LogRow.leaf), row.createdAt⟩ ∧
      (view n).log.find? (view m).log.rows.length = some row ∧
      ((view n).log.find? 1).isSome := by
  obtain ⟨before, hbefore⟩ := List.getLast?_eq_some_iff.1 hrow
  have hlen : (view m).log.rows.length = before.length + 1 := by
    rw [hbefore, List.length_append, List.length_singleton]
  have htake := (grows_view hv h).take_length
  have hget : (view n).log.rows[before.length]? = some row := by
    have : ((view n).log.rows.take (view m).log.rows.length)[before.length]? = some row := by
      rw [htake, hbefore, List.getElem?_concat_length]
    rwa [List.getElem?_take, if_pos (by omega)] at this
  have hchained := (hi n).toChained
  have hfind := hchained.find?_boundary hget
  have hnumbered := hchained.numbered.find? before.length
  have hfirst := hchained.numbered.find? 0
  rw [← hlen, htake] at hfind
  rw [hget] at hnumbered
  have hpos : 0 < (view n).log.rows.length := by
    have := (List.getElem?_eq_some_iff.1 hget).1
    omega
  rw [List.getElem?_eq_getElem hpos] at hfirst
  refine ⟨?_, ?_, ?_⟩
  · rw [hlen]
    push_cast
    exact hfind
  · rw [hlen]
    push_cast
    exact hnumbered
  · change ((view n).log.find? ((0 : Nat) + 1)).isSome = true
    rw [hfirst]
    rfl

/-- The statements that read a boundary of a log. -/
def boundaryReads (rows : List LogRow) : Nat := if rows = [] then 2 else 4

/-- The boundary is the one of the log its first statement sees. -/
theorem snapshotBoundaryLocked_eq {n : Nat} {s : Db} {b : SnapshotBoundary}
    (h : ((StoreRead.snapshotBoundaryLocked none) (Shared.sees view) n s).result = .ok b) :
    ∃ created s', StoreRead.snapshotBoundaryLocked none (Shared.sees view) n s =
      ⟨n + boundaryReads (view n).log.rows, s', .ok b⟩ ∧
        b = boundaryOf P created (view n).log.rows := by
  have hsize := (hi n).toChained.size_eq
  rw [StoreRead.snapshotBoundaryLocked, Shared.select_bind, Shared.sees_apply, Option.getD_none,
    StoreRead.boundaryUpTo, if_neg (by omega)] at h ⊢
  cases hlast : (view n).log.rows.getLast? with
  | none =>
    have hnil := List.getLast?_eq_none_iff.1 hlast
    have hzero : (view n).size = 0 := by rw [hsize, hnil]; rfl
    rw [if_pos hzero, Shared.select_bind, Shared.lift_apply, Shared.sees_apply] at h ⊢
    rw [boundaryReads, if_pos hnil]
    cases hm : (view (n + 1)).metadataValue (py "created_at") with
    | none =>
      rw [hm] at h
      cases h
    | some created =>
      rw [hm] at h
      refine ⟨created, _, congrArg _ h, ?_⟩
      rw [boundaryOf, hlast]
      exact (Except.ok.inj h).symm
  | some row =>
    have hne : (view n).log.rows ≠ [] := by
      intro hnil
      rw [hnil] at hlast
      cases hlast
    have hpos : (view n).size ≠ 0 := by
      have := List.length_pos_iff.2 hne
      omega
    have hcached := (find?_boundary_view hv hi (Nat.le_add_right n 1) hlast).1
    have hanchor := (find?_boundary_view hv hi (Nat.le_add_right n 2) hlast).2.1
    have hfirst := (find?_boundary_view hv hi (Nat.le_add_right n 3) hlast).2.2
    rw [← hsize] at hcached hanchor
    obtain ⟨first, hfirst⟩ := Option.isSome_iff_exists.1 hfirst
    rw [if_neg hpos, Shared.select_bind, Shared.sees_apply, hcached] at h ⊢
    dsimp only at h ⊢
    rw [StoreRead.checkAnchors, Shared.select_bind, Shared.sees_apply, hanchor] at h ⊢
    simp only [Option.all_some, ne_eq, not_true_eq_false, or_self, decide_false,
      Bool.false_eq_true, if_false, Shared.select_bind, Shared.sees_apply, Shared.lift_apply,
      hfirst, Option.isNone_some] at h ⊢
    rw [boundaryReads, if_neg hne]
    refine ⟨[], _, congrArg _ h, ?_⟩
    rw [boundaryOf, hlast, ← Except.ok.inj h, hsize]

/-- The entries are the ones of the log that the first statement sees. -/
theorem logEntriesLocked_eq {n : Nat} {s : Db} {entries : List LogEntry}
    (h : ((StoreRead.logEntriesLocked P 0 none) (Shared.sees view) n s).result = .ok entries) :
    ∃ s', StoreRead.logEntriesLocked P 0 none (Shared.sees view) n s =
      ⟨n + boundaryReads (view n).log.rows + 1, s', .ok entries⟩ ∧
        entries = (view n).log.rows.map (LogRow.entry P) := by
  obtain ⟨m, s', b, hb, hrest⟩ := Shared.bind_eq_ok h
  obtain ⟨created, s'', hrun, rfl⟩ := snapshotBoundaryLocked_eq hv hi (by rw [hb])
  rw [hb] at hrun
  obtain ⟨rfl, rfl, -⟩ := Shared.Outcome.mk.inj hrun
  obtain ⟨m', s₁, u, hbind, hrest⟩ := Shared.bind_eq_ok hrest
  obtain ⟨rfl, rfl, -⟩ := Shared.Outcome.mk.inj hbind
  have hrows : (view (n + boundaryReads (view n).log.rows)).logBetween 0
      (boundaryOf P created (view n).log.rows).logSize = (view n).log.rows := by
    have := (hi (n + boundaryReads (view n).log.rows)).toChained.logBetween_eq 0
      (view n).log.rows.length
    rw [(grows_view hv (Nat.le_add_right n _)).take_length, List.drop_zero] at this
    rw [boundaryOf_logSize]
    exact this
  obtain ⟨bodies, hlog⟩ := (hi n).log
  have hentries := hlog.mapM_entryFromRow (List.Subset.refl _)
  rw [Shared.select_bind, Shared.sees_apply, hrows, Shared.lift_apply, hentries] at hrest
  refine ⟨view (n + boundaryReads (view n).log.rows), ?_, (Except.ok.inj hrest).symm⟩
  rw [StoreRead.logEntriesLocked, Shared.bind_of_ok hb, Shared.bind_of_ok hbind,
    Shared.select_bind, Shared.sees_apply, hrows, Shared.lift_apply, hentries]
  exact congrArg _ hrest

end Views

end SkillRegistry
