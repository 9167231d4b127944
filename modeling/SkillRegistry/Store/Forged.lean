import Mathlib.Data.List.Dedup
import Mathlib.Data.List.ProdSigma
import SkillRegistry.Failure
import SkillRegistry.Store.Total
import SkillRegistry.Wire.Grammar

/-!
# Appends to a frontier of unknown origin

What an append does on a log whose boundaries are those of its prefixes, whatever the frontier
table holds. The checks leave two things open. A forged frontier, whose top level has another
node before the root, passes them all, and the append of an entry commits a root that is wrong.
A tail on which `json.loads` raises otherwise than on a malformed text is not reported as an
integrity failure.

* `append_cases`: the append commits, or is refused for good, or the frontier is unreadable;
* `append_attests_iff`: it does what it must exactly when the frontier is neither unreadable
  nor forged.
-/

namespace SkillRegistry

open Wire Merkle

variable {P : Platform}

/-! ## Reading the frontier -/

theorem pyHooks_raises : (pyHooks P).Raises fun e => ∀ m, e ≠ .storeIntegrityError m where
  malformed := fun _ he => by cases he
  int := by
    intro t e he m hm
    change (pyInt t).map Json.int = .error e at he
    have herror := Wire.Except.map_eq_error he
    rw [pyInt] at herror
    split_ifs at herror
    cases (Except.error.inj herror).trans hm
  float := fun he => by cases he
  constant := fun he => by cases he
  pairs := fun he => by cases he
  nest := by
    intro depth e he m hm
    change (if P.nesting ≤ depth then some PyErr.recursionError else none) = some e at he
    split_ifs at he
    cases (Option.some.inj he).trans hm

variable (P) in
/-- `json.loads` raises on the tail of a row, after rows that are read, and not because its text
    is malformed. -/
def Db.FrontierUnreadable (db : Db) : Prop :=
  ∃ (before : List FrontierRow) (row : FrontierRow) (after : List FrontierRow)
    (levels : List (Summary Bytes)) (e : PyErr), db.frontier.rows = before ++ row :: after ∧
    loadLevels P 0 before = .ok levels ∧ row.level = before.length ∧
    pyLoads P row.tail = .error e ∧ e ≠ .jsonDecodeError

variable (P) in
/-- The frontier is forged, and the next entry gets the next `seq`. -/
def Db.FrontierForged (db : Db) : Prop :=
  db.logSequence ≤ db.size ∧ ∃ f, loadFrontier P db = .ok f ∧
    Forges (merklePairHash P) (db.log.rows.map LogRow.leaf) f

/-- A frontier that is not read is refused as one, or is unreadable. -/
theorem loadLevels_eq_error_cases {rows : List FrontierRow} {index : Nat} {e : PyErr}
    (h : loadLevels P index rows = .error e) : (∃ m, e = .storeIntegrityError m) ∨
      ∃ (before : List FrontierRow) (row : FrontierRow) (after : List FrontierRow)
        (levels : List (Summary Bytes)), rows = before ++ row :: after ∧
        loadLevels P index before = .ok levels ∧ row.level = (index + before.length : Nat) ∧
        pyLoads P row.tail = .error e ∧ e ≠ .jsonDecodeError := by
  induction rows generalizing index with
  | nil => cases h
  | cons row rows ih =>
    rcases Wire.Except.bind_eq_error.1 h with hlevel | ⟨level, hlevel, h⟩
    · exact (loadLevel_eq_error hlevel).imp_right fun ⟨hplace, hloads, hne⟩ =>
        ⟨[], row, rows, [], rfl, rfl, hplace, hloads, hne⟩
    · rcases Wire.Except.bind_eq_error.1 h with hlevels | ⟨levels, -, h⟩
      · refine (ih hlevels).imp_right ?_
        rintro ⟨before, r, after, levels, rfl, hbefore, hplace, hrest⟩
        refine ⟨row :: before, r, after, level :: levels, rfl, ?_, ?_, hrest⟩
        · rw [loadLevels, hlevel, hbefore]
          rfl
        · rw [hplace, List.length_cons]
          congr 1
          omega
      · cases h

/-- An unreadable frontier raises what `json.loads` raises. -/
theorem loadLevels_of_unreadable {before after : List FrontierRow} {row : FrontierRow} {index : Nat}
    {levels : List (Summary Bytes)} {e : PyErr} (hbefore : loadLevels P index before = .ok levels)
    (hplace : row.level = (index + before.length : Nat)) (hloads : pyLoads P row.tail = .error e)
    (hne : e ≠ .jsonDecodeError) : loadLevels P index (before ++ row :: after) = .error e := by
  induction before generalizing index levels with
  | nil =>
    have hindex : ¬row.level ≠ index := not_not.2 hplace
    have hlevel : loadLevel P index row = .error e := by
      rw [loadLevel, if_neg hindex, hloads]
      cases e <;> first | rfl | exact absurd rfl hne
    rw [List.nil_append, loadLevels, hlevel]
    rfl
  | cons first before ih =>
    obtain ⟨level, hlevel, h⟩ := Wire.Except.bind_eq_ok hbefore
    obtain ⟨levels', hlevels, -⟩ := Wire.Except.bind_eq_ok h
    rw [List.cons_append, loadLevels, hlevel, ih hlevels (by
      rw [hplace, List.length_cons]
      congr 1
      omega)]
    rfl

/-- A frontier is unreadable when reading it raises something other than an integrity error. -/
theorem frontierUnreadable_iff {db : Db} : db.FrontierUnreadable P ↔
    ∃ e, loadFrontier P db = .error e ∧ ∀ m, e ≠ .storeIntegrityError m := by
  constructor
  · rintro ⟨before, row, after, levels, e, hrows, hbefore, hplace, hloads, hne⟩
    refine ⟨e, ?_, loads_raises pyHooks_raises hloads⟩
    rw [loadFrontier, hrows]
    exact loadLevels_of_unreadable hbefore (by rw [hplace, Nat.zero_add]) hloads hne
  · rintro ⟨e, hload, hne⟩
    rcases loadLevels_eq_error_cases hload with
      ⟨m, hm⟩ | ⟨before, row, after, levels, hrows, hbefore, hplace, hrest⟩
    · exact absurd hm (hne m)
    · exact ⟨before, row, after, levels, e, hrows, hbefore, by rw [hplace, Nat.zero_add], hrest⟩

/-! ## Appends that fail -/

namespace StoreTx

theorem fails_ofExcept {α : Type} {x : Except PyErr α} {e : PyErr} (h : x = .error e) (db : Db) :
    Tx.Fails db (ofExcept x) ⟨e, none, false⟩ :=
  Tx.fails_lift (by rw [h]; rfl) db

/-- `_fail_append_locked` takes an integrity error over. -/
theorem fails_latching {α : Type} {x : StoreTx α} {m : String} {db : Db}
    (h : Tx.Fails db x ⟨.storeIntegrityError m, none, false⟩) : Tx.Fails db x.latching (latched m) :=
  h.rethrow _

/-- Other exceptions pass. -/
theorem fails_latching_of_ne {α : Type} {x : StoreTx α} {e : PyErr} {db : Db}
    (h : Tx.Fails db x ⟨e, none, false⟩) (hne : ∀ m, e ≠ .storeIntegrityError m) :
    Tx.Fails db x.latching ⟨e, none, false⟩ := by
  have hl : Tx.Fails db x.latching _ := h.rethrow _
  cases e <;> first | exact hl | exact absurd rfl (hne _)

end StoreTx

section Fails

open StoreTx

variable {db : Db} {record : Dict} {createdAt : PyStr} {body : Bytes}
  (hbody : checkAppendable P record = .ok body)

include hbody

theorem appendLocked_fails_of_load {a : Abort}
    (hload : Tx.Fails db (StoreTx.loadFrontier P).latching a) :
    Tx.Fails db (appendLocked P record createdAt) a :=
  (runs_ofExcept hbody db).fails ((Tx.runs_select _ db).fails (hload.bind _))

/-- A frontier that is not anchored in the log is refused for good. -/
theorem appendLocked_fails_of_anchors (hdb : Chained P db) {old : List (Summary Bytes)}
    (hload : loadFrontier P db = .ok old)
    (hanchored : ¬Anchored P (db.log.rows.map LogRow.leaf) old) :
    ∃ m, Tx.Fails db (appendLocked P record createdAt) (latched m) := by
  obtain ⟨m, hm⟩ := (checks_validateAppendAnchors hdb (loadLevels_pos hload)).refuses hanchored
  refine ⟨m, (runs_ofExcept hbody db).fails ((Tx.runs_select _ db).fails ?_)⟩
  refine (((Tx.runs_select _ db).bind (runs_ofExcept hload db)).rethrow _).fails ?_
  exact hm.bind _

/-- So is an append that gets another `seq` than the next, or a frontier that cannot be climbed. -/
theorem appendLocked_fails_of_climb (hdb : Chained P db) (hr : Appendable record)
    (hc : Scalar createdAt) (hroom : max db.logSequence db.size < maxInteger)
    {old : List (Summary Bytes)} (hload : loadFrontier P db = .ok old)
    (hanchored : Anchored P (db.log.rows.map LogRow.leaf) old)
    (hfails : db.logSequence ≤ db.size → ∃ m, frontierAppend (merklePairHash P) old
      (rawLink P db.headHash body) = .error (.storeIntegrityError m)) :
    ∃ m, Tx.Fails db (appendLocked P record createdAt) (latched m) := by
  obtain ⟨bodies, hlog⟩ := hdb.log
  have hload' := ((Tx.runs_select (SkillRegistry.loadFrontier P) db).bind
    (runs_ofExcept hload db)).rethrow (ε := Abort)
  refine Exists.imp (fun m hm => (runs_ofExcept hbody db).fails ((Tx.runs_select _ db).fails
    ((hload' _).fails (((checks_validateAppendAnchors hdb (loadLevels_pos hload)).passes
      hanchored).fails ((runs_ofExcept (hlog.entryHash_headHash body) db).fails
        ((runs_ofExcept (jsonDumps_of_canonical hr.canonical) db).fails
          ((runs_ofExcept (hr.bindText_row hlog hc _) db).fails hm))))))) ?_
  have hinsert := insertLog_runs hroom fun seq =>
    logRow ⟨seq, hex (rawLink P db.headHash body), db.headHash, record⟩ (Json.obj record).dumps
      createdAt
  by_cases hseq : db.logSequence ≤ db.size
  · obtain ⟨m, hm⟩ := hfails hseq
    rw [max_eq_right hseq] at hinsert
    exact ⟨m, hinsert.fails ((runs_require rfl _ _).fails ((runs_ofExcept (bytesFromHex_hex _) _).fails
      ((fails_latching (fails_ofExcept hm _)).bind _)))⟩
  · have hne : ¬max db.logSequence db.size + 1 = db.size + 1 := by omega
    obtain ⟨m, hm⟩ := (checks_require _ "log sequence is not contiguous").refuses hne
    exact ⟨m, hinsert.fails (hm.bind _)⟩

end Fails

/-! ## Appends that commit -/

/-- The nodes an append meets: those of the trees before and after it, and those of the frontier
    table. -/
def Db.nodes (P : Platform) (db : Db) (leaf : Bytes) : Set Bytes :=
  {b | (∃ t ∈ levels (merklePairHash P) (db.log.rows.map LogRow.leaf), b ∈ t) ∨
    (∃ t ∈ levels (merklePairHash P) (db.log.rows.map LogRow.leaf ++ [leaf]), b ∈ t) ∨
    ∃ f, loadFrontier P db = .ok f ∧ ∃ m ∈ f, b ∈ m.tail.toList}

/-- The pair hash has no collision on the nodes an append meets, and the leaves are distinct from
    each other and from its hashes. -/
structure Db.Collisionless (P : Platform) (db : Db) (leaf : Bytes) : Prop where
  injective : (db.nodes P leaf ×ˢ db.nodes P leaf).InjOn (Function.uncurry (merklePairHash P))
  acyclic : ∀ a ∈ db.nodes P leaf, ∀ b ∈ db.nodes P leaf,
    merklePairHash P a b ∉ db.log.rows.map LogRow.leaf
  distinct : (db.log.rows.map LogRow.leaf).Nodup

/-- The call committed an entry, with the root of the log as its boundary's, or it was refused
    for good and committed nothing. -/
def Attests (P : Platform) (c : Conn) (o : Outcome Response) : Prop :=
  (∃ entry boundary, o.result = .ok (.entry entry) ∧ entry.seq = c.disk.size + 1 ∧
      o.conn.disk.log.rows.length = c.disk.log.rows.length + 1 ∧
      o.conn.disk.boundaries.find? entry.seq = some boundary ∧
      merkleRoot P (o.conn.disk.log.rows.map (·.entryHash)) = .ok boundary.merkleRoot) ∨
    ∃ m, o.result = .error (.storeIntegrityError m) ∧ o.store.integrityFailed = true ∧ o.conn = c

/-- The root an append commits is the root of the log, when the frontier it climbs was anchored
    in it and is not forged. -/
theorem climbed_root {db : Db} {old F : List (Summary Bytes)} {leaf : Bytes}
    (hload : loadFrontier P db = .ok old)
    (hanchored : Anchored P (db.log.rows.map LogRow.leaf) old)
    (hclimb : frontierAppend (merklePairHash P) old leaf = .ok F) (hnodes : db.Collisionless P leaf) :
    frontierLast F = root (merklePairHash P) (db.log.rows.map LogRow.leaf ++ [leaf]) ∨
      Forges (merklePairHash P) (db.log.rows.map LogRow.leaf) old := by
  cases hold : old with
  | nil =>
    rw [hold] at hanchored hclimb
    rw [anchored_nil.1 hanchored]
    obtain rfl := Except.ok.inj hclimb
    exact .inl rfl
  | cons first rest =>
    rw [hold] at hload hanchored hclimb
    obtain ⟨hne, hfirst, hlinked, hroot⟩ := anchored_cons.1 hanchored
    exact frontierAppend_root hne hfirst hlinked hroot hclimb hnodes.injective hnodes.acyclic
      (fun m hm b hb => .inr (.inr ⟨_, hload, m, hm, hb⟩)) (fun t ht b hb => .inl ⟨t, ht, hb⟩)
      hnodes.distinct

/-- A forged frontier can be climbed, to a root that is wrong. -/
theorem Forges.climbed {db : Db} {old : List (Summary Bytes)} {leaf : Bytes}
    (hforged : Forges (merklePairHash P) (db.log.rows.map LogRow.leaf) old) (hdb : Chained P db)
    (hroom : db.size < maxInteger) (hload : loadFrontier P db = .ok old)
    (hnodes : db.Collisionless P leaf) :
    ∃ F, frontierAppend (merklePairHash P) old leaf = .ok F ∧
      frontierLast F ≠ root (merklePairHash P) (db.log.rows.map LogRow.leaf ++ [leaf]) := by
  refine hforged.append ?_ leaf hnodes.injective (fun m hm b hb => .inr (.inr ⟨_, hload, m, hm, hb⟩))
    fun t ht b hb => .inr (.inl ⟨t, ht, hb⟩)
  have hsize := hdb.size_eq
  rw [List.length_map]
  rw [maxInteger] at hroom
  omega

/-- The hashes of the log after an append. -/
theorem Appended.merkleRoot_eq {db db' : Db} {record : Dict} {createdAt : PyStr} {body root : Bytes}
    {frontier : List (Summary Bytes)} {entry : LogEntry}
    (h : Appended P db record createdAt body frontier root entry db') (hdb : Chained P db) :
    merkleRoot P (db'.log.rows.map (·.entryHash)) =
      .ok (merkleRootOf P (db.log.rows.map LogRow.leaf ++ [rawLink P db.headHash body])) := by
  obtain ⟨bodies, hlog⟩ := hdb.log
  rw [← merkleRoot_hexes, hexes, h.log_rows, List.map_append, List.map_append, List.map_map]
  congr 2
  · exact List.map_congr_left fun row hr => (hlog.leaf_spec row hr).1.symm
  · rw [List.map_singleton, List.map_singleton]
    exact congrArg ([·]) h.headHash_eq

theorem Appended.boundary_eq {db db' : Db} {record : Dict} {createdAt : PyStr} {body root : Bytes}
    {frontier : List (Summary Bytes)} {entry : LogEntry}
    (h : Appended P db record createdAt body frontier root entry db') :
    db'.boundaries.find? entry.seq = some ⟨entry.seq, entry.entryHash, hex root, createdAt⟩ := by
  rw [h.result]
  exact (Table.find?_put _ _ _).trans (if_pos rfl)

theorem frontierLast_of_frontierRoot {F : List (Summary Bytes)} {r : Bytes} (hne : F ≠ [])
    (h : frontierRoot F = .ok r) : frontierLast F = some r := by
  obtain ⟨v, hv⟩ : ∃ v, frontierLast F = some v := by
    rw [frontierLast, List.getLast?_eq_getLast_of_ne_nil hne]
    exact ⟨_, rfl⟩
  rw [frontierRoot, hv] at h
  rw [hv, Except.ok.inj h]

/-- The boundary of an append has the root of the log exactly when the frontier was not forged. -/
theorem Appended.rooted_iff {db db' : Db} {record : Dict} {createdAt : PyStr} {body root : Bytes}
    {frontier : List (Summary Bytes)} {entry : LogEntry}
    (h : Appended P db record createdAt body frontier root entry db') (hdb : Chained P db)
    (hnodes : db.Collisionless P (rawLink P db.headHash body)) {old : List (Summary Bytes)}
    (hload : loadFrontier P db = .ok old) (hanchored : Anchored P (db.log.rows.map LogRow.leaf) old) :
    merkleRoot P (db'.log.rows.map (·.entryHash)) = .ok (hex root) ↔
      ¬Forges (merklePairHash P) (db.log.rows.map LogRow.leaf) old := by
  obtain ⟨old', leaf, hload', hhex, hclimb⟩ := h.climbed
  obtain rfl : old' = old := Except.ok.inj (hload'.symm.trans hload)
  obtain rfl : leaf = rawLink P db.headHash body := by
    rw [h.headHash_eq, link, bytesFromHex_hex] at hhex
    exact (Except.ok.inj hhex).symm
  have hlast := frontierLast_of_frontierRoot (frontierAppend_ne_nil hclimb) h.rooted
  obtain ⟨r, hr⟩ := Option.isSome_iff_exists.1 (root_isSome (merklePairHash P)
    (List.append_ne_nil_of_right_ne_nil (db.log.rows.map LogRow.leaf)
      (List.cons_ne_nil (rawLink P db.headHash body) [])))
  have hiff : merkleRoot P (db'.log.rows.map (·.entryHash)) = .ok (hex root) ↔
      frontierLast frontier =
        Merkle.root (merklePairHash P) (db.log.rows.map LogRow.leaf ++ [rawLink P db.headHash body]) := by
    rw [h.merkleRoot_eq hdb, merkleRootOf, hr, hlast]
    exact ⟨fun he => congrArg some (hex_injective (Except.ok.inj he)).symm,
      fun he => congrArg (Except.ok ∘ hex) (Option.some.inj he).symm⟩
  rw [hiff]
  constructor
  · intro hroot hforged
    obtain ⟨F, hF, hne⟩ := hforged.climbed hdb h.room hload hnodes
    obtain rfl : F = frontier := Except.ok.inj (hF.symm.trans hclimb)
    exact hne hroot
  · exact fun hforged =>
      (climbed_root hload hanchored hclimb hnodes).resolve_right hforged

/-! ## Calls of append -/

theorem perform_append_of_runs {env : Env} (henv : env.Undisturbed) {c : Conn} (hc : c.Free) {s : Store}
    (hgate : s.requireWritesAllowed env.gateClock = .ok ()) {record : Record} {createdAt : PyStr}
    {entry : LogEntry} {db : Db}
    (h : Tx.Runs c.disk (StoreTx.appendLocked P record.members createdAt) entry db) :
    s.perform P env c (.append record createdAt) =
      ⟨.ok (.entry entry), { c with disk := db }, s.publish (some entry)⟩ :=
  transact_of_runs henv hc ((StoreTx.runs_ofExcept hgate _).bind (h.bind (Tx.runs_pure _ _)))

theorem perform_append_of_fails {env : Env} (henv : env.Undisturbed) {c : Conn} (hc : c.Free)
    {s : Store} (hgate : s.requireWritesAllowed env.gateClock = .ok ()) {record : Record}
    {createdAt : PyStr} {a : Abort} (hended : a.ended = false)
    (h : Tx.Fails c.disk (StoreTx.appendLocked P record.members createdAt) a) :
    s.perform P env c (.append record createdAt) = ⟨.error (operationDeadline env a.error), c,
      a.latch.elim s fun m => s.latchIntegrityFailure m env.latchClock⟩ := by
  have hbody : Tx.Fails c.disk (do
      StoreTx.gate s env
      Call.body P (.append record createdAt)) a :=
    (StoreTx.runs_ofExcept hgate c.disk).fails (h.bind _)
  have hfails := hbody (fun n => (env.faults n).map Fault.abort)
    (fun n => by rw [henv.faults n]; rfl) 0
  change transact env c s _ = _
  rw [transact, hc.beginImmediate henv]
  dsimp only
  rw [hfails]
  dsimp only
  rw [if_neg (by rw [hended]; exact Bool.false_ne_true)]
  cases a.latch <;> rfl

/-- On a log whose boundaries are those of its prefixes an append commits the root of the log, or
    is refused for good, exactly when the frontier table can be read and is not forged. -/
theorem append_attests_iff {env : Env} (henv : env.Undisturbed) {c : Conn} (hc : c.Free) {s : Store}
    (hgate : s.requireWritesAllowed env.gateClock = .ok ()) {record : Record}
    (hr : Appendable record.members) {createdAt : PyStr} (hcreated : Scalar createdAt)
    (hdb : Chained P c.disk) (hroom : max c.disk.logSequence c.disk.size < maxInteger) {body : Bytes}
    (hbody : canonicalBytes P record.members = .ok body)
    (hnodes : c.disk.Collisionless P (rawLink P c.disk.headHash body)) :
    Attests P c (s.perform P env c (.append record createdAt)) ↔
      ¬c.disk.FrontierUnreadable P ∧ ¬c.disk.FrontierForged P := by
  have hcheck : checkAppendable P record.members = .ok body := by
    obtain ⟨b, hb⟩ := hr.checkAppendable_eq (P := P)
    obtain rfl : b = body := Except.ok.inj ((checkAppendable_eq_ok hb).2.2.symm.trans hbody)
    exact hb
  have hopen : s.integrityFailed = false := by
    rw [Store.requireWritesAllowed] at hgate
    split_ifs at hgate with hfailed
    exact (Bool.or_eq_false_iff.1 (Bool.eq_false_iff.2 hfailed)).1
  have latchedAttests {m : String}
      (h : Tx.Fails c.disk (StoreTx.appendLocked P record.members createdAt) (StoreTx.latched m)) :
      Attests P c (s.perform P env c (.append record createdAt)) := by
    rw [perform_append_of_fails henv hc hgate rfl h]
    exact .inr ⟨m, rfl, latchIntegrityFailure_failed s m env.latchClock, rfl⟩
  cases hload : loadFrontier P c.disk with
  | error e =>
    have hforged : ¬c.disk.FrontierForged P := by
      rintro ⟨-, f, hf, -⟩
      rw [hload] at hf
      cases hf
    have hfails : Tx.Fails c.disk (StoreTx.loadFrontier P) ⟨e, none, false⟩ :=
      (Tx.runs_select _ _).fails (StoreTx.fails_ofExcept hload _)
    by_cases he : ∃ m, e = .storeIntegrityError m
    · obtain ⟨m, rfl⟩ := he
      refine iff_of_true (latchedAttests (appendLocked_fails_of_load hcheck
        (StoreTx.fails_latching hfails))) ⟨fun hunreadable => ?_, hforged⟩
      obtain ⟨e, he, hne⟩ := frontierUnreadable_iff.1 hunreadable
      exact hne m (Except.error.inj (he.symm.trans hload))
    · rw [not_exists] at he
      -- the exception is not latched, so nothing tells that the frontier was refused
      rw [perform_append_of_fails henv hc hgate rfl (appendLocked_fails_of_load hcheck
        (StoreTx.fails_latching_of_ne hfails he))]
      refine iff_of_false ?_ fun h => h.1 (frontierUnreadable_iff.2 ⟨e, hload, he⟩)
      rintro (⟨entry, boundary, hresult, -⟩ | ⟨m, -, hfailed, -⟩)
      · cases hresult
      · exact Bool.false_ne_true (hopen.symm.trans hfailed)
  | ok old =>
    have hread : ¬c.disk.FrontierUnreadable P := fun h => by
      obtain ⟨e, he, -⟩ := frontierUnreadable_iff.1 h
      rw [hload] at he
      cases he
    have hforges : c.disk.FrontierForged P ↔ c.disk.logSequence ≤ c.disk.size ∧
        Forges (merklePairHash P) (c.disk.log.rows.map LogRow.leaf) old := by
      constructor
      · rintro ⟨hseq, f, hf, hforged⟩
        obtain rfl : f = old := Except.ok.inj (hf.symm.trans hload)
        exact ⟨hseq, hforged⟩
      · exact fun h => ⟨h.1, old, hload, h.2⟩
    by_cases hanchored : Anchored P (c.disk.log.rows.map LogRow.leaf) old
    · by_cases hclimb : c.disk.logSequence ≤ c.disk.size → ∃ m, frontierAppend (merklePairHash P) old
          (rawLink P c.disk.headHash body) = .error (.storeIntegrityError m)
      · obtain ⟨m, hm⟩ := appendLocked_fails_of_climb hcheck hdb hr hcreated hroom hload hanchored
          hclimb
        refine iff_of_true (latchedAttests hm) ⟨hread, fun h => ?_⟩
        obtain ⟨hseq, hforged⟩ := hforges.1 h
        obtain ⟨F, hF, -⟩ := hforged.climbed hdb ((le_max_right _ _).trans_lt hroom) hload hnodes
        obtain ⟨m, hm⟩ := hclimb hseq
        rw [hF] at hm
        cases hm
      · rw [not_forall] at hclimb
        obtain ⟨hseq, hclimb⟩ := hclimb
        cases happend : frontierAppend (merklePairHash P) old (rawLink P c.disk.headHash body) with
        | error e =>
          obtain ⟨m, rfl⟩ := frontierAppend_eq_error (loadLevels_pos hload) happend
          exact absurd ⟨m, happend⟩ hclimb
        | ok F =>
          have hroom' : c.disk.size < maxInteger := (le_max_right _ _).trans_lt hroom
          obtain ⟨entry, db', hruns⟩ := appendLocked_runs_of_anchored hdb hseq hroom' hr hcreated
            hcheck hload hanchored happend
          obtain ⟨b, f, root, ha⟩ := hruns.of_triple (appendLocked_spec c.disk record.members createdAt)
          obtain rfl : b = body := Except.ok.inj (ha.checked.symm.trans hcheck)
          rw [perform_append_of_runs henv hc hgate hruns, hforges,
            and_iff_right hread, not_and, ← ha.rooted_iff hdb hnodes hload hanchored]
          constructor
          · rintro (⟨entry', boundary, hresult, -, -, hboundary, hroot⟩ | ⟨m, hresult, -⟩) -
            · obtain rfl : entry = entry' := Response.entry.inj (Except.ok.inj hresult)
              obtain rfl := Option.some.inj (ha.boundary_eq.symm.trans hboundary)
              exact hroot
            · cases hresult
          · intro hroot
            refine .inl ⟨entry, _, rfl, ha.seq, ?_, ha.boundary_eq, hroot hseq⟩
            change db'.log.rows.length = c.disk.log.rows.length + 1
            rw [ha.log_rows, List.length_append, List.length_singleton]
    · obtain ⟨m, hm⟩ : ∃ m, Tx.Fails c.disk (StoreTx.appendLocked P record.members createdAt)
          (StoreTx.latched m) :=
        appendLocked_fails_of_anchors hcheck hdb hload hanchored
      exact iff_of_true (latchedAttests hm)
        ⟨hread, fun h => hanchored (hforges.1 h).2.anchored⟩

/-! ## On the sample registry -/

/-- The nodes an append meets, as a list. -/
def Db.nodeList (P : Platform) (db : Db) (leaf : Bytes) : List Bytes :=
  ((levels (merklePairHash P) (db.log.rows.map LogRow.leaf)).flatten ++
    (levels (merklePairHash P) (db.log.rows.map LogRow.leaf ++ [leaf])).flatten ++
    ((loadFrontier P db).toOption.getD []).flatMap (·.tail.toList)).dedup

theorem Db.mem_nodeList {db : Db} {leaf b : Bytes} (h : b ∈ db.nodes P leaf) :
    b ∈ db.nodeList P leaf := by
  rw [Db.nodeList, List.mem_dedup, List.mem_append, List.mem_append, List.mem_flatten,
    List.mem_flatten, List.mem_flatMap]
  rcases h with ⟨t, ht, hb⟩ | ⟨t, ht, hb⟩ | ⟨f, hf, m, hm, hb⟩
  · exact .inl (.inl ⟨t, ht, hb⟩)
  · exact .inl (.inr ⟨t, ht, hb⟩)
  · exact .inr ⟨m, by rw [hf]; exact hm, hb⟩

/-- The hashes of all pairs of nodes are compared. -/
theorem Db.collisionless_of_nodup {db : Db} {leaf : Bytes}
    (hinjective : ((db.nodeList P leaf ×ˢ db.nodeList P leaf).map
      (Function.uncurry (merklePairHash P))).Nodup)
    (hacyclic : ∀ a ∈ db.nodeList P leaf, ∀ b ∈ db.nodeList P leaf,
      merklePairHash P a b ∉ db.log.rows.map LogRow.leaf)
    (hdistinct : (db.log.rows.map LogRow.leaf).Nodup) : db.Collisionless P leaf where
  injective := by
    rintro ⟨a, b⟩ ⟨ha, hb⟩ ⟨x, y⟩ ⟨hx, hy⟩ he
    exact List.inj_on_of_nodup_map hinjective
      (List.pair_mem_product.2 ⟨Db.mem_nodeList ha, Db.mem_nodeList hb⟩)
      (List.pair_mem_product.2 ⟨Db.mem_nodeList hx, Db.mem_nodeList hy⟩) he
  acyclic a ha b hb := hacyclic a (Db.mem_nodeList ha) b (Db.mem_nodeList hb)
  distinct := hdistinct

set_option maxRecDepth 10000 in
theorem appendable_sampleRecord : Appendable sampleRecord.members where
  fields := by
    have hfields : ∀ key ∈ requiredFields, ∃ c s,
        sampleRecord.members.get? key = some (.str (c :: s)) := by
      simp only [requiredFields, List.forall_mem_cons, List.not_mem_nil, false_imp_iff,
        imp_true_iff, and_true]
      exact ⟨⟨_, _, rfl⟩, ⟨_, _, rfl⟩, ⟨_, _, rfl⟩, ⟨_, _, rfl⟩, ⟨_, _, rfl⟩⟩
    intro key hkey
    obtain ⟨c, s, hs⟩ := hfields key hkey
    exact ⟨_, hs, List.cons_ne_nil c s⟩
  hashVersion := by decide +kernel
  canonical := by
    have h : canonicalDocument .sample (.obj sampleRecord.members) =
        .ok (utf8 (Json.obj sampleRecord.members).dumps) := by decide +kernel
    exact (canonicalDocument_eq_ok.1 h).1

set_option maxRecDepth 10000 in
/-- The second append of a registry. -/
theorem append_attests_sample :
    Attests .sample ⟨sampleGrown, none, false⟩ (sampleStore.perform .sample (.calm 0)
      ⟨sampleGrown, none, false⟩ sampleAppend) ↔
      ¬sampleGrown.FrontierUnreadable .sample ∧ ¬sampleGrown.FrontierForged .sample :=
  append_attests_iff ⟨rfl, fun _ => rfl, rfl⟩ ⟨rfl, rfl⟩ (by decide +kernel) appendable_sampleRecord
    (by decide +kernel) invariant_sampleGrown.toChained (by decide +kernel)
    (show canonicalBytes .sample sampleRecord.members =
      .ok ((canonicalBytes .sample sampleRecord.members).toOption.getD []) by decide +kernel)
    (Db.collisionless_of_nodup (by decide +kernel) (by decide +kernel) (by decide +kernel))

/-- The connection of a registry with two entries. -/
def sampleTwice : Conn :=
  (sampleStore.perform .sample (.calm 0) ⟨sampleGrown, none, false⟩ sampleAppend).conn

/-- A registry with two entries, the top level of whose frontier has another node before the
    root. -/
def sampleForged : Db := { sampleTwice.disk with
  frontier := sampleTwice.disk.frontier.map (f := fun row =>
    if row.level = 1 then
      { row with len := 2, tail := tailText (.two (List.replicate 32 0)
        ((root (merklePairHash .sample) (sampleTwice.disk.log.rows.map LogRow.leaf)).getD [])) }
    else row) fun row => by split_ifs <;> rfl }

set_option maxRecDepth 10000 in
/-- The append to a forged frontier commits a boundary whose root is not the one of the log. -/
theorem forgedFrontier_attested : Chained .sample sampleForged ∧
    max sampleForged.logSequence sampleForged.size < maxInteger ∧
    sampleStore.requireWritesAllowed 0 = .ok () ∧ Appendable sampleRecord.members ∧
    sampleForged.Collisionless .sample (rawLink .sample sampleForged.headHash
      ((canonicalBytes .sample sampleRecord.members).toOption.getD [])) ∧
    (∃ r, (sampleStore.perform .sample (.calm 0) ⟨sampleForged, none, false⟩
      sampleAppend).result = .ok r) ∧
    ¬Attests .sample ⟨sampleForged, none, false⟩ (sampleStore.perform .sample (.calm 0)
      ⟨sampleForged, none, false⟩ sampleAppend) := by
  have hchained : Chained .sample sampleTwice.disk :=
    (invariant_sampleGrown.perform (c := ⟨sampleGrown, none, false⟩) (.calm 0) sampleStore
      sampleAppend).toChained
  refine ⟨⟨hchained.log, hchained.boundaries⟩, by decide +kernel, by decide +kernel,
    appendable_sampleRecord, Db.collisionless_of_nodup (by decide +kernel) (by decide +kernel)
    (by decide +kernel), ?_⟩
  have hdone : (sampleStore.perform .sample (.calm 0) ⟨sampleForged, none, false⟩
      sampleAppend).result.toOption.isSome = true ∧ ∀ boundary ∈ (sampleStore.perform .sample
        (.calm 0) ⟨sampleForged, none, false⟩ sampleAppend).conn.disk.boundaries.find?
          (sampleForged.size + 1), merkleRoot .sample ((sampleStore.perform .sample (.calm 0)
            ⟨sampleForged, none, false⟩ sampleAppend).conn.disk.log.rows.map (·.entryHash)) ≠
          .ok boundary.merkleRoot := by decide +kernel
  generalize sampleStore.perform .sample (.calm 0) ⟨sampleForged, none, false⟩ sampleAppend = o
    at hdone
  obtain ⟨hresult, hroot⟩ := hdone
  constructor
  · cases ho : o.result with
    | error e =>
      rw [ho] at hresult
      cases hresult
    | ok r => exact ⟨r, rfl⟩
  · rintro (⟨entry, boundary, -, hseq, -, hboundary, hr⟩ | ⟨m, he, -⟩)
    · change entry.seq = sampleForged.size + 1 at hseq
      rw [hseq] at hboundary
      exact hroot boundary hboundary hr
    · rw [he] at hresult
      cases hresult

end SkillRegistry
