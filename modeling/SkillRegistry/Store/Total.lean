import SkillRegistry.Boundary
import SkillRegistry.Store.Anchors
import SkillRegistry.Store.Growth

/-!
# Appends that succeed

On a database whose caches are those of its log an append of a record that can be encoded
succeeds, as long as there is a next `seq` and no statement fails.

* `Ready`: what an append needs of the database, next to the invariant;
* `Appendable`: what an append needs of a record;
* `appendLocked_runs`: the append succeeds, and the database stays ready;
* `importRecords_runs`: so does the import of records, one after another;
* `transact_of_runs`: and the call that makes it, when nothing fails during the call.
-/

namespace SkillRegistry

open Wire Merkle Firsts

variable {P : Platform}

/-! ## The statements of an append -/

namespace StoreTx

theorem insertLevels_runs (db : Db) (rows : List FrontierRow)
    (hs : (db.frontier.rows ++ rows).Pairwise fun a b => a.level < b.level) :
    ∃ t, t.rows = db.frontier.rows ++ rows ∧
      Tx.Runs db (insertLevels rows) () { db with frontier := t } := by
  induction rows generalizing db with
  | nil => exact ⟨db.frontier, (List.append_nil _).symm, Tx.runs_pure () db⟩
  | cons row rows ih =>
    have hlt : ∀ x ∈ db.frontier.rows, x.level < row.level := fun x hx =>
      (List.pairwise_append.1 hs).2.2 x hx row List.mem_cons_self
    have hrows := Table.rows_put_of_lt hlt
    have hinsert : db.frontier.insert? row = some (db.frontier.put row) :=
      Table.insert?_eq_some.2 ⟨Table.find?_eq_none.2 fun x hx => (hlt x hx).ne, rfl⟩
    obtain ⟨t, ht, hrest⟩ := ih { db with frontier := db.frontier.put row } (by
      change ((db.frontier.put row).rows ++ rows).Pairwise _
      rwa [hrows, List.append_assoc])
    refine ⟨t, ?_, Tx.Runs.bind (Tx.runs_stmt (by rw [hinsert])) hrest⟩
    rw [ht]
    change (db.frontier.put row).rows ++ rows = _
    rw [hrows, List.append_assoc]
    rfl

theorem saveFrontier_runs (db : Db) (f : List (Summary Bytes)) :
    Tx.Runs db (saveFrontier f) () { db with frontier := frontierTable f } := by
  obtain ⟨t, ht, hruns⟩ := insertLevels_runs { db with frontier := .empty } (frontierRows 0 f)
    (frontierTable f).sorted
  rw [show t = frontierTable f from Table.ext ht] at hruns
  exact (Tx.runs_execute _ db).bind hruns

theorem insertLog_runs {db : Db} (hroom : max db.logSequence db.size < maxInteger)
    (row : Int → LogRow) : Tx.Runs db (insertLog row) (max db.logSequence db.size + 1)
      { db with
        log := db.log.put (row (max db.logSequence db.size + 1))
        logSequence := max db.logSequence db.size + 1 } :=
  Tx.runs_stmt (if_neg (not_le.2 hroom))

theorem insertBoundary_runs {db : Db} {row : BoundaryRow}
    (hfresh : db.boundaries.find? row.logSize = none) :
    Tx.Runs db (insertBoundary row) () { db with boundaries := db.boundaries.put row } := by
  refine Tx.runs_stmt ?_
  rw [Table.insert?_eq_some.2 ⟨hfresh, rfl⟩]

end StoreTx

/-! ## Appends -/

theorem Timestamp.scalar (t : Timestamp) : Scalar t.text :=
  scalar_of_isTimestampForm (isTimestampForm_of_isTimestamp t.valid)

/-- What an append needs of a record. -/
structure Appendable (record : Dict) : Prop where
  fields : ∀ key ∈ requiredFields, HasStr (record.get? key) (· ≠ [])
  hashVersion : validateHashVersion record = .ok ()
  canonical : Canonical (.obj record)

/-- A database in which a record can be appended: its caches are those of its log, and no
    `seq` was used that is not in the log. -/
structure Ready (P : Platform) (db : Db) : Prop extends Invariant P db where
  sequence : db.logSequence ≤ db.size

theorem forM_of_forall {α : Type} {l : List α} {f : α → Except PyErr Unit}
    (h : ∀ x ∈ l, f x = .ok ()) : l.forM f = .ok () := forM_eq_ok.2 h

namespace Appendable

variable {record : Dict} (h : Appendable record)
include h

theorem checkAppendable_eq : ∃ body, checkAppendable P record = .ok body := by
  have hfields : requiredFields.forM (requireField record) = .ok () := by
    refine forM_of_forall fun key hkey => ?_
    obtain ⟨s, hs, hne⟩ := h.fields key hkey
    obtain ⟨c, s, rfl⟩ := List.exists_cons_of_ne_nil hne
    rw [requireField, hs]
  refine ⟨utf8 (Json.obj (record.erase (py "sig"))).dumps, ?_⟩
  rw [checkAppendable, hfields]
  change (validateHashVersion record >>= fun _ => _) = _
  rw [h.hashVersion]
  exact canonicalDocument_eq_ok.2 ⟨h.canonical.erase _, rfl⟩

theorem scalar_field {key : PyStr} (hkey : key ∈ requiredFields) : Scalar (strField record key) := by
  obtain ⟨s, hs, -⟩ := h.fields key hkey
  rw [strField, hs]
  exact (h.canonical.get? hs).1

end Appendable

theorem IsLog.scalar_headHash {db : Db} {bodies : List Bytes}
    (h : IsLog P 1 genesis db.log.rows bodies) :
    Scalar db.headHash ∧ (ascii db.headHash).isSome := by
  rw [Db.headHash, Table.last?]
  cases hr : db.log.rows.getLast? with
  | none => exact ⟨by decide, by decide⟩
  | some row =>
    obtain ⟨hhex, -⟩ := h.leaf_spec row (List.mem_of_getLast? hr)
    rw [Option.map_some, Option.getD_some, ← hhex]
    obtain ⟨p, hp, -⟩ := ascii_hex row.leaf
    exact ⟨scalar_hex _, by rw [hp]; rfl⟩

/-- The hash of the next entry. -/
theorem IsLog.entryHash_headHash {db : Db} {bodies : List Bytes}
    (h : IsLog P 1 genesis db.log.rows bodies) (body : Bytes) :
    entryHash P db.headHash body = .ok (hex (rawLink P db.headHash body)) := by
  obtain ⟨p, hp⟩ := Option.isSome_iff_exists.1 h.scalar_headHash.2
  rw [entryHash, hp, rawLink, hp]
  rfl

/-- The texts of the next row can be bound. -/
theorem Appendable.bindText_row {record : Dict} (hr : Appendable record) {db : Db}
    {bodies : List Bytes} (hlog : IsLog P 1 genesis db.log.rows bodies) {createdAt : PyStr}
    (hc : Scalar createdAt) (hash : Bytes) :
    bindText [hex hash, db.headHash, strField record (py "name"),
      strField record (py "source_identity"), strField record (py "commit"),
      strField record (py "content_sha256"), strField record (py "status"),
      (Json.obj record).dumps, createdAt] = .ok () := by
  refine bindText_eq_ok.2 ?_
  simp only [List.forall_mem_cons, List.not_mem_nil, false_imp_iff, imp_true_iff, and_true]
  exact ⟨scalar_hex _, hlog.scalar_headHash.1, hr.scalar_field (by decide),
    hr.scalar_field (by decide), hr.scalar_field (by decide), hr.scalar_field (by decide),
    hr.scalar_field (by decide), scalar_dumps hr.canonical.1, hc⟩

/-- Unless a statement fails, an append to a frontier that is anchored and can be climbed
    succeeds. -/
theorem appendLocked_runs_of_anchored {db : Db} (hdb : Chained P db)
    (hsequence : db.logSequence ≤ db.size) (hroom : db.size < maxInteger) {record : Dict}
    (hr : Appendable record) {createdAt : PyStr} (hc : Scalar createdAt) {body : Bytes}
    (hbody : checkAppendable P record = .ok body) {old f : List (Summary Bytes)}
    (hload : loadFrontier P db = .ok old)
    (hanchored : Anchored P (db.log.rows.map LogRow.leaf) old)
    (hclimb : frontierAppend (merklePairHash P) old (rawLink P db.headHash body) = .ok f) :
    ∃ entry db', Tx.Runs db (StoreTx.appendLocked P record createdAt) entry db' := by
  obtain ⟨bodies, hlog⟩ := hdb.log
  have hhash := hlog.entryHash_headHash body
  have hsize := hdb.size_eq
  obtain ⟨root, hroot⟩ : ∃ root, frontierRoot f = .ok root := by
    have hne := frontierAppend_ne_nil hclimb
    rw [frontierRoot, frontierLast, List.getLast?_eq_getLast_of_ne_nil hne]
    exact ⟨_, rfl⟩
  have hfresh : db.boundaries.find? (db.size + 1) = none := by
    refine (numbered_boundaries hdb.boundaries).find?_eq_none (.inr ?_)
    rw [hdb.boundaries, boundaryRows, List.length_mapIdx, prefixBoundaries_length, leaves_length,
      hsize]
    omega
  let entry : LogEntry := ⟨db.size + 1, hex (rawLink P db.headHash body), db.headHash, record⟩
  suffices h : Tx.Runs db (StoreTx.appendLocked P record createdAt) entry { db with
      log := db.log.put (logRow entry (Json.obj record).dumps createdAt)
      logSequence := db.size + 1
      frontier := frontierTable f
      boundaries := db.boundaries.put ⟨db.size + 1, entry.entryHash, hex root, createdAt⟩ } from
    ⟨_, _, h⟩
  refine (StoreTx.runs_ofExcept hbody db).bind ((Tx.runs_select _ db).bind ?_)
  refine (((Tx.runs_select _ db).bind (StoreTx.runs_ofExcept hload db)).rethrow _).bind ?_
  refine ((StoreTx.checks_validateAppendAnchors hdb (loadLevels_pos hload)).passes hanchored).bind ?_
  refine (StoreTx.runs_ofExcept hhash db).bind ?_
  refine (StoreTx.runs_ofExcept (jsonDumps_of_canonical hr.canonical) db).bind ?_
  refine (StoreTx.runs_ofExcept (hr.bindText_row hlog hc _) db).bind ?_
  have hinsert := StoreTx.insertLog_runs (by rwa [max_eq_right hsequence]) fun seq =>
    logRow ⟨seq, entry.entryHash, db.headHash, record⟩ (Json.obj record).dumps createdAt
  rw [max_eq_right hsequence] at hinsert
  refine hinsert.bind ((StoreTx.runs_require rfl _ _).bind ?_)
  refine (StoreTx.runs_ofExcept (bytesFromHex_hex _) _).bind ?_
  refine ((StoreTx.runs_ofExcept hclimb _).rethrow _).bind ?_
  refine (StoreTx.runs_ofExcept hroot _).bind ?_
  refine (StoreTx.saveFrontier_runs _ _).bind ?_
  exact ((StoreTx.insertBoundary_runs hfresh).rethrow _).bind (Tx.runs_pure _ _)

/-- Unless a statement fails, an append to a database that is ready succeeds. -/
theorem appendLocked_runs {db : Db} (hdb : Ready P db) (hroom : db.size < maxInteger)
    {record : Dict} (hr : Appendable record) {createdAt : PyStr} (hc : Scalar createdAt) :
    ∃ entry db', Tx.Runs db (StoreTx.appendLocked P record createdAt) entry db' := by
  obtain ⟨old, hload, hold⟩ := hdb.frontier
  obtain ⟨body, hbody⟩ := hr.checkAppendable_eq (P := P)
  have hlen : (db.log.rows.map LogRow.leaf).length < 2 ^ 64 := by
    rw [List.length_map]
    have := hdb.bounded
    rw [maxInteger] at this
    omega
  obtain ⟨f, hclimb, -⟩ := frontierAppend_isFrontier hold hlen (rawLink P db.headHash body)
  exact appendLocked_runs_of_anchored hdb.toChained hdb.sequence hroom hr hc hbody hload hold.anchored
    hclimb

/-- A valid record can be appended. -/
theorem ValidRecord.appendable {record : Dict} (h : ValidRecord record) : Appendable record where
  fields := by
    have nonempty {key : PyStr} {form : PyStr → Prop} (hk : HasStr (record.get? key) form)
        (hnil : ¬form []) : HasStr (record.get? key) (· ≠ []) := by
      obtain ⟨s, hs, hform⟩ := hk
      exact ⟨s, hs, fun hne => hnil (hne ▸ hform)⟩
    simp only [requiredFields, List.forall_mem_cons, List.not_mem_nil, false_imp_iff, imp_true_iff,
      and_true]
    exact ⟨nonempty h.name (by decide), nonempty h.sourceIdentity (by decide),
      nonempty h.commit (by decide), nonempty h.contentSha256 (by decide),
      nonempty h.status (by decide)⟩
  hashVersion := h.hashVersion
  canonical := h.canonical

theorem Appended.size_eq {db db' : Db} {record : Dict} {createdAt : PyStr} {body root : Bytes}
    {frontier : List (Summary Bytes)} {entry : LogEntry}
    (h : Appended P db record createdAt body frontier root entry db') : db'.size = db.size + 1 := by
  rw [← h.seq, Db.size, Table.last?, h.log_rows, List.getLast?_concat]
  rfl

theorem Appended.ready {db db' : Db} {record : Dict} {createdAt : PyStr} {body root : Bytes}
    {frontier : List (Summary Bytes)} {entry : LogEntry}
    (h : Appended P db record createdAt body frontier root entry db')
    (hs : (Json.obj record).Sorted) (hn : (Json.obj record).Numeral) (hdb : Ready P db) :
    Ready P db' where
  toInvariant := h.invariant hs hn hdb.toInvariant
  sequence := by
    rw [h.size_eq, h.result, ← h.seq]

theorem Ready.congr {db db' : Db} (h : Ready P db) (hl : db'.log = db.log)
    (hb : db'.boundaries = db.boundaries) (hf : db'.frontier = db.frontier)
    (hs : db'.logSequence = db.logSequence) : Ready P db' where
  toInvariant := h.toInvariant.congr hl hb hf
  sequence := by
    rw [hs, Db.size, hl]
    exact h.sequence

/-! ## Imports -/

theorem Imports.size_eq {createdAt : PyStr} {records : List (PyStr × Dict)} {db db' : Db}
    {entries : List LogEntry} (h : Imports P createdAt records db entries db') :
    db'.size = db.size + entries.length := by
  induction h with
  | nil => exact (Int.add_zero _).symm
  | skip _ _ ih => exact ih
  | @take fingerprint record records db db₁ db' body root frontier entry entries fresh appended _ ih =>
    rw [ih, List.length_cons]
    change db₁.size + (entries.length : Int) = db.size + ((entries.length + 1 : Nat) : Int)
    rw [appended.size_eq]
    push_cast
    ring

theorem Imports.ready {createdAt : PyStr} {records : List (PyStr × Dict)} {db db' : Db}
    {entries : List LogEntry} (h : Imports P createdAt records db entries db')
    (hr : ∀ r ∈ records, (Json.obj r.2).Sorted ∧ (Json.obj r.2).Numeral) (hdb : Ready P db) :
    Ready P db' := by
  induction h with
  | nil => exact hdb
  | skip _ _ ih => exact ih (List.forall_mem_cons.1 hr).2 hdb
  | @take fingerprint record records db db₁ db' body root frontier entry entries fresh appended _ ih =>
    obtain ⟨⟨hs, hn⟩, hrest⟩ := List.forall_mem_cons.1 hr
    exact ih hrest ((appended.ready hs hn hdb).congr rfl rfl rfl rfl)

/-- A call that succeeds leaves a database that is ready. -/
theorem Performs.ready {call : Call} {db db' : Db} {response : Response}
    {published : Option LogEntry} (h : Performs P call db response published db')
    (hdb : Ready P db) : Ready P db' := by
  have append {d d' : Db} {record : Record} {createdAt : PyStr} {body root : Bytes}
      {frontier : List (Summary Bytes)} {entry : LogEntry} (hd : Ready P d)
      (ha : Appended P d record.members createdAt body frontier root entry d') : Ready P d' :=
    ha.ready record.sorted record.numeral hd
  cases h with
  | append appended => exact append hdb appended
  | replay => exact hdb.congr rfl rfl rfl rfl
  | @submit _ _ _ _ _ now _ _ _ _ _ _ _ _ _ _ appended =>
    have hpruned : Ready P (db.pruned now) := hdb.congr rfl rfl rfl rfl
    exact (append hpruned appended).congr rfl rfl rfl rfl
  | imports h => exact h.ready (sorted_recordDicts _) hdb
  | importsOffered _ _ h => exact (h.ready (sorted_recordDicts _) hdb).congr rfl rfl rfl rfl
  | upstream _ _ h =>
    split_ifs
    · exact (h.ready (sorted_recordDicts _) hdb).congr rfl rfl rfl rfl
    · exact h.ready (sorted_recordDicts _) hdb

/-- Unless a statement fails, an import into a database that is ready succeeds: the number of
    records it takes is the only thing it needs room for. -/
theorem importRecords_runs {createdAt : PyStr} (hc : Scalar createdAt)
    {records : List (PyStr × Dict)}
    (hr : ∀ x ∈ records, Scalar x.1 ∧ Appendable x.2 ∧ (Json.obj x.2).Sorted) {db : Db}
    (hdb : Ready P db)
    (hroom : db.size + (firsts Prod.fst db.fingerprints records).length ≤ maxInteger)
    (imported : Nat) (last : Option LogEntry) :
    ∃ r db', Tx.Runs db (StoreTx.importRecords P createdAt records imported last) r db' := by
  induction records generalizing db imported last with
  | nil => exact ⟨_, db, Tx.runs_pure _ db⟩
  | cons x records ih =>
    obtain ⟨fingerprint, record⟩ := x
    obtain ⟨⟨hscalar, happendable, hsorted⟩, hrest⟩ := List.forall_mem_cons.1 hr
    have hbound : bindText [fingerprint] = .ok () :=
      bindText_eq_ok.2 (List.forall_mem_singleton.2 hscalar)
    cases hfind : db.imported.find? fingerprint with
    | some row =>
      have hknown : fingerprint ∈ db.fingerprints := Db.mem_fingerprints.2 (hfind ▸ rfl)
      rw [firsts, if_pos hknown] at hroom
      obtain ⟨r, db', hruns⟩ := ih hrest hdb hroom imported last
      refine ⟨r, db', (StoreTx.runs_ofExcept hbound db).bind ((Tx.runs_select _ db).bind ?_)⟩
      rw [hfind]
      exact hruns
    | none =>
      have hfresh : fingerprint ∉ db.fingerprints := by
        rw [Db.mem_fingerprints, hfind]
        exact Bool.false_ne_true
      rw [firsts, if_neg hfresh, List.length_cons] at hroom
      push_cast at hroom
      obtain ⟨entry, db₁, happend⟩ := appendLocked_runs hdb (by omega) happendable hc
      obtain ⟨body, frontier, root, ha⟩ := happend.of_triple (appendLocked_spec db record createdAt)
      have hready := ha.ready hsorted (Canonical.numeral happendable.canonical.1) hdb
      have hsize : (db₁.markImported fingerprint createdAt entry).size = db.size + 1 := ha.size_eq
      obtain ⟨r, db', hruns⟩ := ih hrest
        (hready.congr rfl rfl rfl rfl : Ready P (db₁.markImported fingerprint createdAt entry)) (by
          rw [firsts_congr (ha.mem_fingerprints fingerprint), hsize]
          omega) (imported + 1) (some entry)
      refine ⟨r, db', (StoreTx.runs_ofExcept hbound db).bind ((Tx.runs_select _ db).bind ?_)⟩
      rw [hfind]
      refine happend.bind (Tx.Runs.bind (a := ()) (Tx.runs_stmt ?_) hruns)
      rw [Table.insert?_eq_some.2 ⟨?_, rfl⟩]
      · rfl
      · rw [ha.imported_eq]
        exact hfind

/-! ## Marks -/

namespace StoreTx

theorem getUpstreamHighWater_runs {keyId : PyStr} (h : Scalar keyId) (db : Db) :
    Tx.Runs db (getUpstreamHighWater keyId) (db.highWater.find? keyId) db :=
  (runs_ofExcept (bindText_eq_ok.2 (List.forall_mem_singleton.2 h)) db).bind (Tx.runs_select _ db)

theorem putUpstreamHighWater_runs {row : UpstreamHighWater}
    (htext : bindText [row.keyId, row.head, row.merkleRoot, row.updatedAt] = .ok ())
    (hint : bindInt [row.version, row.logSize] = .ok ()) (db : Db) :
    Tx.Runs db (putUpstreamHighWater row) () (db.putHighWater row) :=
  (runs_ofExcept htext db).bind ((runs_ofExcept hint db).bind (Tx.runs_execute _ db))

theorem appendUpstreamImportBody_runs {records : List (PyStr × Dict)} {createdAt : PyStr}
    {offered : UpstreamHighWater} {acceptOlder : Bool} {db db₁ : Db} {outcome : ImportOutcome}
    {imported : Nat × Option LogEntry}
    (htext : bindText [offered.keyId, offered.head, offered.merkleRoot, offered.updatedAt] = .ok ())
    (hint : bindInt [offered.version, offered.logSize] = .ok ())
    (hdecided : upstreamDecision (db.highWater.find? offered.keyId) offered acceptOlder = .ok outcome)
    (himports : Tx.Runs db (importRecords P createdAt records 0 none) imported db₁) :
    ∃ db', Tx.Runs db (appendUpstreamImportBody P records createdAt offered acceptOlder)
      (⟨imported.1, db.highWater.find? offered.keyId, outcome⟩, imported.2) db' := by
  have hget := getUpstreamHighWater_runs (bindText_eq_ok.1 htext _ List.mem_cons_self) db
  by_cases hadvanced : outcome = .advanced
  · refine ⟨db₁.putHighWater offered, hget.bind ((runs_ofExcept hdecided db).bind
      (himports.bind ?_))⟩
    rw [if_pos hadvanced]
    exact (putUpstreamHighWater_runs htext hint db₁).bind (Tx.runs_pure _ _)
  · refine ⟨db₁, hget.bind ((runs_ofExcept hdecided db).bind (himports.bind ?_))⟩
    rw [if_neg hadvanced]
    exact Tx.runs_pure _ _

end StoreTx

/-! ## Transactions -/

/-- A call during which nothing fails. -/
structure Env.Undisturbed (env : Env) : Prop where
  begins : env.begins = none
  faults : ∀ n, env.faults n = none
  commit : env.commit = .done

/-- A connection that can begin a transaction. -/
def Conn.Free (c : Conn) : Prop := c.pending = none ∧ c.locked = false

theorem Conn.Free.beginImmediate {c : Conn} (hc : c.Free) {env : Env} (henv : env.Undisturbed) :
    beginImmediate env c = none := by
  rw [SkillRegistry.beginImmediate, hc.1, hc.2, henv.begins]
  rfl

theorem transact_of_runs {α : Type} {env : Env} {c : Conn} {s : Store}
    {body : StoreTx (α × Option LogEntry)} {a : α} {entry : Option LogEntry} {db : Db}
    (henv : env.Undisturbed) (hc : c.Free) (h : Tx.Runs c.disk body (a, entry) db) :
    transact env c s body = ⟨.ok a, { c with disk := db }, s.publish entry⟩ := by
  obtain ⟨m, hm⟩ := h (fun n => (env.faults n).map Fault.abort)
    (fun n => by rw [henv.faults n]; rfl) 0
  rw [transact, hc.beginImmediate henv]
  dsimp only
  rw [hm]
  dsimp only
  rw [henv.commit]

theorem requireWritesAllowed_publish (s : Store) (entry : Option LogEntry) (now : ℚ) :
    (s.publish entry).requireWritesAllowed now = s.requireWritesAllowed now := by
  cases entry <;> rfl

end SkillRegistry
