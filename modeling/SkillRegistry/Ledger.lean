import SkillRegistry.Store.Performed
import SkillRegistry.Structure.HashChain

/-!
# The ledger

What a database of the registry is meant to hold: a log whose entries form a hash
chain over the canonical bytes of their records, the boundary of every prefix of it,
the Merkle frontier of all of it, and submissions that name its entries.

* `IsLog` is the chain, and `IsLog.hashes` says that it is a `HashChain`;
* `Chained` and `Invariant` are the representation invariant of a database, and `Appended.invariant`
  says that an append keeps it;
* `Chained.snapshotBoundary_eq` says which boundary is read at each size.
-/

namespace SkillRegistry

open Wire Merkle

variable (P : Platform)

/-! ## The chain -/

/-- The hash of an entry, in raw bytes. -/
def rawLink (prev : PyStr) (body : Bytes) : Bytes := P.sha256 ((ascii prev).getD [] ++ body)

/-- The hash of an entry. -/
def link (prev : PyStr) (body : Bytes) : PyStr := hex (rawLink P prev body)

/-- The record of a row and its canonical bytes. -/
def parseStored (recordJson : PyStr) : Except PyErr (Dict × Bytes) := do
  match ← pyLoads P recordJson with
  | .obj record => (canonicalBytes P record).map (record, ·)
  | _ => .error (.valueError "record is not an object")

/-- The bytes the hash of a row is computed from. -/
def LogRow.preimage (row : LogRow) : Bytes :=
  (ascii row.prevHash).getD [] ++ match parseStored P row.recordJson with
    | .ok (_, body) => body
    | .error _ => []

/-- A row of the log holds a record with some canonical bytes. -/
structure Holds (row : LogRow) (record : Dict) (body : Bytes) : Prop where
  loads : pyLoads P row.recordJson = .ok (.obj record)
  encoded : canonicalBytes P record = .ok body
  name : record.get? (py "name") = some (.str row.name)
  sourceIdentity : record.get? (py "source_identity") = some (.str row.sourceIdentity)
  commit : record.get? (py "commit") = some (.str row.commitHash)
  contentSha256 : record.get? (py "content_sha256") = some (.str row.contentSha256)
  status : record.get? (py "status") = some (.str row.status)

/-- The rows of a log from `seq` on, after the hash `prev`, and the canonical bytes of
    their records. -/
inductive IsLog : (seq : Int) → (prev : PyStr) → List LogRow → List Bytes → Prop
  | nil (seq : Int) (prev : PyStr) : IsLog seq prev [] []
  | cons {seq : Int} {prev : PyStr} {row : LogRow} {record : Dict} {body : Bytes}
      {rows : List LogRow} {bodies : List Bytes} (numbered : row.seq = seq)
      (chained : row.prevHash = prev) (holds : Holds P row record body)
      (hash : entryHash P prev body = .ok row.entryHash)
      (rest : IsLog (seq + 1) row.entryHash rows bodies) :
      IsLog seq prev (row :: rows) (body :: bodies)

variable {P}

theorem entryHash_eq_ok {prev h : PyStr} {body : Bytes} (he : entryHash P prev body = .ok h) :
    h = link P prev body ∧ (ascii prev).isSome := by
  unfold entryHash at he
  split at he
  · rename_i p hp
    rw [link, rawLink, hp]
    exact ⟨(Except.ok.inj he).symm, rfl⟩
  · cases he

theorem rawLink_length (prev : PyStr) (body : Bytes) : (rawLink P prev body).length = 32 :=
  P.sha256_length _

/-- A row holds one record. -/
theorem Holds.unique {row : LogRow} {r r' : Dict} {b b' : Bytes} (h : Holds P row r b)
    (h' : Holds P row r' b') : r = r' ∧ b = b' := by
  obtain rfl : r = r' := Json.obj.inj (Except.ok.inj (h.loads.symm.trans h'.loads))
  exact ⟨rfl, Except.ok.inj (h.encoded.symm.trans h'.encoded)⟩

theorem Holds.sorted {row : LogRow} {r : Dict} {b : Bytes} (h : Holds P row r b) :
    (Json.obj r).Sorted := pyLoads_sorted h.loads

namespace IsLog

variable {seq : Int} {prev : PyStr} {rows : List LogRow} {bodies : List Bytes}

theorem length_eq (h : IsLog P seq prev rows bodies) : bodies.length = rows.length := by
  induction h with
  | nil => rfl
  | cons _ _ _ _ _ ih => exact congrArg (· + 1) ih

/-- The entry hashes are those of the chain over the bodies. -/
theorem hashes (h : IsLog P seq prev rows bodies) :
    rows.map (·.entryHash) = HashChain.hashes (link P) prev bodies := by
  induction h with
  | nil => rfl
  | cons _ _ _ hash _ ih =>
    rw [List.map_cons, HashChain.hashes, ← (entryHash_eq_ok hash).1, ih]

theorem seq_eq (h : IsLog P seq prev rows bodies) (i : Nat) (row : LogRow)
    (hi : rows[i]? = some row) : row.seq = seq + i := by
  induction h generalizing i with
  | nil => cases hi
  | cons numbered _ _ _ _ ih =>
    cases i with
    | zero => obtain rfl := Option.some.inj hi; simpa using numbered
    | succ i =>
      rw [ih i hi]
      push_cast
      omega

/-- Each row holds the record whose bytes stand at its place. -/
theorem holds (h : IsLog P seq prev rows bodies) (i : Nat) (row : LogRow)
    (hi : rows[i]? = some row) : ∃ record body, bodies[i]? = some body ∧ Holds P row record body := by
  induction h generalizing i with
  | nil => cases hi
  | cons _ _ hrow _ _ ih =>
    cases i with
    | zero =>
      obtain rfl := Option.some.inj hi
      exact ⟨_, _, rfl, hrow⟩
    | succ i => exact ih i hi

theorem holds_of_mem (h : IsLog P seq prev rows bodies) {row : LogRow} (hr : row ∈ rows) :
    ∃ record body, Holds P row record body := by
  obtain ⟨i, hi⟩ := List.mem_iff_getElem?.1 hr
  obtain ⟨record, body, -, hb⟩ := h.holds i row hi
  exact ⟨record, body, hb⟩

/-- A log has one list of bodies. -/
theorem unique (h : IsLog P seq prev rows bodies) {bodies' : List Bytes}
    (h' : IsLog P seq prev rows bodies') : bodies = bodies' := by
  induction h generalizing bodies' with
  | nil => cases h'; rfl
  | cons _ _ hrow _ _ ih =>
    cases h' with
    | cons _ _ hrow' _ rest' => rw [(hrow.unique hrow').2, ih rest']

/-- The last hash of the chain is the one of the last row. -/
theorem head_eq (h : IsLog P seq prev rows bodies) :
    (rows.getLast?.map (·.entryHash)).getD prev = HashChain.head (link P) prev bodies := by
  rw [← HashChain.hashes_getLast?, ← h.hashes, List.getLast?_map]

/-- A row that follows the log extends it. -/
theorem concat (h : IsLog P seq prev rows bodies) {row : LogRow} {record : Dict} {body : Bytes}
    (hseq : row.seq = seq + rows.length)
    (hprev : row.prevHash = (rows.getLast?.map (·.entryHash)).getD prev)
    (hrow : Holds P row record body) (hash : entryHash P row.prevHash body = .ok row.entryHash) :
    IsLog P seq prev (rows ++ [row]) (bodies ++ [body]) := by
  induction h with
  | nil seq prev =>
    have hp : row.prevHash = prev := hprev
    exact .cons (by simpa using hseq) hp hrow (hp ▸ hash) (.nil _ _)
  | cons numbered chained holds hash' _ ih =>
    refine .cons numbered chained holds hash' (ih ?_ ?_)
    · rw [hseq, List.length_cons]
      push_cast
      omega
    · rw [hprev, List.getLast?_cons]
      cases List.getLast? _ <;> rfl

/-- Every prefix of a log is a log. -/
theorem take (h : IsLog P seq prev rows bodies) (n : Nat) :
    IsLog P seq prev (rows.take n) (bodies.take n) := by
  induction h generalizing n with
  | nil => rw [List.take_nil, List.take_nil]; exact .nil _ _
  | cons numbered chained hrow hash _ ih =>
    cases n with
    | zero => exact .nil _ _
    | succ n => exact .cons numbered chained hrow hash (ih n)

end IsLog

theorem parseStored_eq_ok {recordJson : PyStr} {record : Dict} {body : Bytes} :
    parseStored P recordJson = .ok (record, body) ↔
      pyLoads P recordJson = .ok (.obj record) ∧ canonicalBytes P record = .ok body := by
  constructor
  · intro h
    obtain ⟨v, hv, h⟩ := Wire.Except.bind_eq_ok h
    cases v with
    | obj r =>
      obtain ⟨b, hb, he⟩ := Wire.Except.map_eq_ok h
      obtain ⟨rfl, rfl⟩ := Prod.mk.inj he
      exact ⟨hv, hb⟩
    | null | bool | int | float | str | arr => cases h
  · rintro ⟨hv, hb⟩
    rw [parseStored, hv]
    change (canonicalBytes P record).map (record, ·) = _
    rw [hb]
    rfl

/-! ## Commitment -/

/-- What the hash of an entry is computed from. -/
def linkBytes (x : PyStr × Bytes) : Bytes := (ascii x.1).getD [] ++ x.2

theorem ascii_hex (b : Bytes) : ∃ p, ascii (hex b) = some p ∧ p.length = 2 * b.length := by
  have hall : (hex b).all (·.val < 0x80) = true := List.all_eq_true.2 fun c hc => by
    obtain ⟨n, hn, rfl⟩ := mem_hex hc
    have hdigit : ∀ m < 16, (hexDigit m).val < 0x80 := by decide
    exact decide_eq_true (hdigit n hn)
  have ha : ascii (hex b) = some ((hex b).map fun c => .ofNat c.val) := if_pos hall
  exact ⟨_, ha, by rw [List.length_map, hex_length]⟩

/-- Along a chain, every hash is 64 ASCII characters when the first one is. -/
theorem ascii_of_mem_inputs {prev : PyStr} {bodies : List Bytes} {x : PyStr × Bytes}
    (hp : ∃ p, ascii prev = some p ∧ p.length = 64)
    (h : x ∈ HashChain.inputs (link P) prev bodies) : ∃ p, ascii x.1 = some p ∧ p.length = 64 := by
  induction bodies generalizing prev with
  | nil => cases h
  | cons b bodies ih =>
    rcases List.mem_cons.1 h with rfl | h
    · exact hp
    · obtain ⟨p, hp, hlen⟩ := ascii_hex (rawLink P prev b)
      exact ih ⟨p, hp, by rw [hlen, rawLink_length]⟩ h

/-- The rows of a log were hashed as the links of its chain. -/
theorem IsLog.preimages {seq : Int} {prev : PyStr} {rows : List LogRow} {bodies : List Bytes}
    (h : IsLog P seq prev rows bodies) :
    rows.map (LogRow.preimage P) = (HashChain.inputs (link P) prev bodies).map linkBytes := by
  induction h with
  | nil => rfl
  | cons _ chained hrow hash _ ih =>
    rw [List.map_cons, HashChain.inputs, List.map_cons, ← (entryHash_eq_ok hash).1, ih,
      LogRow.preimage, chained, parseStored_eq_ok.2 ⟨hrow.loads, hrow.encoded⟩]
    rfl

/-- Logs of one length with the same head hold the same bodies, where SHA-256 has no
    collision on what was hashed. -/
theorem IsLog.eq_of_head_eq {rows rows' : List LogRow} {bodies bodies' : List Bytes}
    (h : IsLog P 1 genesis rows bodies) (h' : IsLog P 1 genesis rows' bodies') {s : Set Bytes}
    (hinj : s.InjOn P.sha256) (hs : ∀ row ∈ rows, row.preimage P ∈ s)
    (hs' : ∀ row ∈ rows', row.preimage P ∈ s) (hlen : rows.length = rows'.length)
    (hhead : (rows.getLast?.map (·.entryHash)).getD genesis =
      (rows'.getLast?.map (·.entryHash)).getD genesis) : bodies = bodies' := by
  have hmem {rows : List LogRow} {bodies : List Bytes} (hl : IsLog P 1 genesis rows bodies)
      (hs : ∀ row ∈ rows, row.preimage P ∈ s) :
      ∀ x ∈ HashChain.inputs (link P) genesis bodies,
        linkBytes x ∈ s ∧ ∃ p, ascii x.1 = some p ∧ p.length = 64 := by
    intro x hx
    refine ⟨?_, ascii_of_mem_inputs ⟨_, rfl, rfl⟩ hx⟩
    have : linkBytes x ∈ rows.map (LogRow.preimage P) := hl.preimages ▸ List.mem_map_of_mem hx
    obtain ⟨row, hrow, he⟩ := List.mem_map.1 this
    exact he ▸ hs row hrow
  have hlink : Set.InjOn (Function.uncurry (link P))
      {x | linkBytes x ∈ s ∧ ∃ p, ascii x.1 = some p ∧ p.length = 64} := by
    rintro ⟨p, b⟩ ⟨hb, p', hp, hlp⟩ ⟨q, c⟩ ⟨hc, q', hq, hlq⟩ he
    have heq : linkBytes (p, b) = linkBytes (q, c) := hinj hb hc (hex_injective he)
    simp only [linkBytes, hp, hq, Option.getD_some] at heq
    obtain ⟨hpq, rfl⟩ := List.append_inj heq (hlp.trans hlq.symm)
    exact congrArg (·, b) (ascii_inj hp (hpq ▸ hq))
  refine HashChain.eq_of_head_eq (link P) hlink (hmem h hs) (hmem h' hs') ?_ ?_
  · rw [h.length_eq, h'.length_eq, hlen]
  · rwa [← h.head_eq, ← h'.head_eq]

/-! ## Boundaries -/

/-- The raw hash of a row. -/
def LogRow.leaf (row : LogRow) : Bytes := (fromHex row.entryHash).getD []

/-- The leaves of the Merkle tree, with the times of their entries. -/
def leaves (rows : List LogRow) : List (Bytes × PyStr) := rows.map fun r => (r.leaf, r.createdAt)

@[simp] theorem leaves_length (rows : List LogRow) : (leaves rows).length = rows.length :=
  List.length_map _

theorem leaves_fst (rows : List LogRow) :
    (leaves rows).map Prod.fst = rows.map LogRow.leaf := List.map_map

theorem leaves_concat (rows : List LogRow) (row : LogRow) :
    leaves (rows ++ [row]) = leaves rows ++ [(row.leaf, row.createdAt)] := List.map_append

/-- The rows of some boundaries, from the one of size 1 on. -/
def boundaryRows (bs : List (PyStr × PyStr × PyStr)) : List BoundaryRow :=
  bs.mapIdx fun i b => ⟨i + 1, b.1, b.2.1, b.2.2⟩

theorem boundaryRows_concat (bs : List (PyStr × PyStr × PyStr)) (b : PyStr × PyStr × PyStr) :
    boundaryRows (bs ++ [b]) = boundaryRows bs ++ [⟨bs.length + 1, b.1, b.2.1, b.2.2⟩] :=
  List.mapIdx_concat

theorem IsLog.leaf_spec {seq : Int} {prev : PyStr} {rows : List LogRow} {bodies : List Bytes}
    (h : IsLog P seq prev rows bodies) :
    ∀ row ∈ rows, hex row.leaf = row.entryHash ∧ row.leaf.length = 32 := by
  induction h with
  | nil => nofun
  | cons _ _ _ hash _ ih =>
    refine List.forall_mem_cons.2 ⟨?_, ih⟩
    rw [LogRow.leaf, (entryHash_eq_ok hash).1, link, fromHex_hex]
    exact ⟨rfl, rawLink_length _ _⟩

theorem prefixBoundaries_concat (before : List Bytes) (ls : List (Bytes × PyStr)) (l : Bytes × PyStr) :
    prefixBoundaries P before (ls ++ [l]) = prefixBoundaries P before ls ++
      [(hex l.1, merkleRootOf P (before ++ ls.map Prod.fst ++ [l.1]), l.2)] := by
  induction ls generalizing before with
  | nil => simp [prefixBoundaries]
  | cons k ls ih =>
    obtain ⟨leaf, createdAt⟩ := k
    rw [List.cons_append, prefixBoundaries, ih, prefixBoundaries]
    simp

@[simp] theorem prefixBoundaries_length (before : List Bytes) (ls : List (Bytes × PyStr)) :
    (prefixBoundaries P before ls).length = ls.length := by
  induction ls generalizing before with
  | nil => rfl
  | cons l ls ih => exact congrArg (· + 1) (ih _)

/-- The boundary of a prefix: the hash and the time of its last leaf, and its root. -/
theorem prefixBoundaries_getElem? (before : List Bytes) (ls : List (Bytes × PyStr)) (i : Nat) :
    (prefixBoundaries P before ls)[i]? = ls[i]?.map fun l =>
      (hex l.1, merkleRootOf P (before ++ (ls.take (i + 1)).map Prod.fst), l.2) := by
  induction ls generalizing before i with
  | nil => rfl
  | cons l ls ih =>
    cases i with
    | zero => rfl
    | succ i =>
      rw [prefixBoundaries, List.getElem?_cons_succ, ih]
      simp

/-! ## The invariant -/

variable (P) in
/-- The log of a database is a chain, and its boundaries are those of the prefixes. -/
structure Chained (db : Db) : Prop where
  log : ∃ bodies, IsLog P 1 genesis db.log.rows bodies
  boundaries : db.boundaries.rows = boundaryRows (prefixBoundaries P [] (leaves db.log.rows))

variable (P) in
/-- The log of a database is a chain, and its caches agree with it. -/
structure Invariant (db : Db) : Prop extends Chained P db where
  frontier : ∃ f, loadFrontier P db = .ok f ∧
    IsFrontier (merklePairHash P) (db.log.rows.map LogRow.leaf) f
  bounded : db.log.rows.length ≤ maxInteger

variable (P) in
/-- A submission names an entry of the log. -/
def Names (db : Db) (row : IdempotencyRow) : Prop :=
  ∃ entry ∈ db.log.rows, entry.seq = row.seq ∧ pyLoads P row.responseJson =
    .ok (.obj [(py "entry_hash", .str entry.entryHash), (py "seq", .int entry.seq)])

theorem numbered_log {db : Db} {bodies : List Bytes} (h : IsLog P 1 genesis db.log.rows bodies) :
    db.log.Numbered := fun i r hr => by
  rw [h.seq_eq i r hr]
  omega

theorem numbered_boundaries {db : Db} {bs : List (PyStr × PyStr × PyStr)}
    (h : db.boundaries.rows = boundaryRows bs) : db.boundaries.Numbered := fun i r hr => by
  rw [h, boundaryRows, List.getElem?_mapIdx] at hr
  obtain ⟨b, -, rfl⟩ := Option.map_eq_some_iff.1 hr
  rfl

/-- The frontier of a log is read back from its table. -/
theorem IsLog.loadFrontier {seq : Int} {prev : PyStr} {rows : List LogRow} {bodies : List Bytes}
    (h : IsLog P seq prev rows bodies) {f : List (Summary Bytes)}
    (hf : IsFrontier (merklePairHash P) (rows.map LogRow.leaf) f) {db : Db}
    (hdb : db.frontier = frontierTable f) : SkillRegistry.loadFrontier P db = .ok f := by
  rw [SkillRegistry.loadFrontier, hdb]
  refine loadLevels_frontierRows (hf.isLevel fun b hb => ?_)
  obtain ⟨row, hrow, rfl⟩ := List.mem_map.1 hb
  exact (h.leaf_spec row hrow).2

/-- The prefixes of a log, recomputed from its rows. -/
theorem IsLog.recomputePrefix {seq : Int} {prev : PyStr} {rows : List LogRow} {bodies : List Bytes}
    (h : IsLog P seq prev rows bodies) (hn : (rows.length : Int) ≤ maxInteger) :
    ∃ f, SkillRegistry.recomputePrefix P (rows.map fun r => (r.entryHash, r.createdAt)) =
        .ok (prefixBoundaries P [] (leaves rows), f) ∧
      IsFrontier (merklePairHash P) (rows.map LogRow.leaf) f := by
  have hl : rows.map (fun r => (r.entryHash, r.createdAt)) =
      (leaves rows).map fun l => (hex l.1, l.2) := by
    rw [leaves, List.map_map]
    exact List.map_congr_left fun row hr => congrArg (·, row.createdAt) (h.leaf_spec row hr).1.symm
  have hnil : IsFrontier (merklePairHash P) [] [] := isFrontier_nil.2 rfl
  obtain ⟨f, hf, hf'⟩ := recomputeFrom_eq hnil (leaves rows)
    (by rw [leaves_length, List.length_nil]; unfold maxInteger at hn; omega)
  rw [List.nil_append, leaves_fst] at hf'
  exact ⟨f, hl ▸ hf, hf'⟩

theorem invariant_of_empty {db : Db} (hl : db.log.rows = []) (hb : db.boundaries.rows = [])
    (hf : db.frontier.rows = []) : Invariant P db := by
  refine ⟨⟨⟨[], hl ▸ .nil _ _⟩, by rw [hl, hb]; rfl⟩, ⟨[], ?_, ?_⟩, ?_⟩
  · rw [loadFrontier, hf]
    rfl
  · rw [hl]
    exact isFrontier_nil.2 rfl
  · rw [hl]
    decide

/-- The invariant depends on three tables only. -/
theorem Invariant.congr {db db' : Db} (h : Invariant P db) (hl : db'.log = db.log)
    (hb : db'.boundaries = db.boundaries) (hf : db'.frontier = db.frontier) : Invariant P db' := by
  obtain ⟨⟨log, boundaries⟩, frontier, bounded⟩ := h
  refine ⟨⟨hl ▸ log, ?_⟩, ?_, hl ▸ bounded⟩
  · rw [hb, hl, boundaries]
  · rwa [loadFrontier, hf, hl]

namespace Chained

variable {db : Db}

theorem numbered (h : Chained P db) : db.log.Numbered :=
  h.log.elim fun _ hl => numbered_log hl

theorem size_eq (h : Chained P db) : db.size = db.log.rows.length := h.numbered.last?

/-- The boundary row of a size. -/
theorem find?_boundary (h : Chained P db) {i : Nat} {row : LogRow} (hi : db.log.rows[i]? = some row) :
    db.boundaries.find? (i + 1) = some ⟨i + 1, row.entryHash,
      merkleRootOf P ((db.log.rows.take (i + 1)).map LogRow.leaf), row.createdAt⟩ := by
  obtain ⟨bodies, hlog⟩ := h.log
  have hrow := (hlog.leaf_spec row (List.mem_of_getElem? hi)).1
  rw [(numbered_boundaries h.boundaries).find?, h.boundaries, boundaryRows, List.getElem?_mapIdx,
    prefixBoundaries_getElem?, leaves, List.getElem?_map, hi]
  simp only [Option.map_some, hrow, ← List.map_take, List.map_map, List.nil_append]
  rfl

end Chained

/-! ## Reading a boundary -/

variable (P) in
/-- The boundary after the rows of a log: at size 0 its time is the one of the service. -/
def boundaryOf (created : PyStr) (rows : List LogRow) : SnapshotBoundary :=
  match rows.getLast? with
  | none => ⟨0, 0, genesis, genesis, created⟩
  | some row => ⟨rows.length, rows.length, row.entryHash, merkleRootOf P (rows.map LogRow.leaf),
      row.createdAt⟩

theorem boundaryOf_logSize (created : PyStr) (rows : List LogRow) :
    (boundaryOf P created rows).logSize = rows.length := by
  unfold boundaryOf
  cases h : rows.getLast? with
  | none => rw [List.getLast?_eq_none_iff.1 h]; rfl
  | some row => rfl

theorem boundaryOf_version (created : PyStr) (rows : List LogRow) :
    (boundaryOf P created rows).version = rows.length := by
  unfold boundaryOf
  cases h : rows.getLast? with
  | none => rw [List.getLast?_eq_none_iff.1 h]; rfl
  | some row => rfl

theorem boundaryOf_head (created : PyStr) (rows : List LogRow) :
    (boundaryOf P created rows).head = (rows.getLast?.map (·.entryHash)).getD genesis := by
  unfold boundaryOf
  cases rows.getLast? <;> rfl

theorem boundaryOf_merkleRoot (created : PyStr) (rows : List LogRow) :
    (boundaryOf P created rows).merkleRoot = merkleRootOf P (rows.map LogRow.leaf) := by
  unfold boundaryOf
  cases h : rows.getLast? with
  | none => rw [List.getLast?_eq_none_iff.1 h]; rfl
  | some row => rfl

/-- Logs of one length have the same boundary, but for its time, exactly when their entry
    hashes are the same. -/
theorem IsLog.boundary_eq_iff {rows rows' : List LogRow} {bodies bodies' : List Bytes}
    (h : IsLog P 1 genesis rows bodies) (h' : IsLog P 1 genesis rows' bodies') {s : Set Bytes}
    (hinj : s.InjOn P.sha256) (hs : ∀ row ∈ rows, row.preimage P ∈ s)
    (hs' : ∀ row ∈ rows', row.preimage P ∈ s) (hlen : rows.length = rows'.length)
    (created created' : PyStr) :
    (boundaryOf P created rows).head = (boundaryOf P created' rows').head ∧
        (boundaryOf P created rows).merkleRoot = (boundaryOf P created' rows').merkleRoot ↔
      rows.map (·.entryHash) = rows'.map (·.entryHash) := by
  rw [boundaryOf_head, boundaryOf_head, boundaryOf_merkleRoot, boundaryOf_merkleRoot]
  have hleaf (l : List LogRow) : l.map LogRow.leaf =
      (l.map (·.entryHash)).map fun e => (fromHex e).getD [] := by
    rw [List.map_map]
    rfl
  constructor
  · rintro ⟨hhead, -⟩
    rw [h.hashes, h'.hashes, h.eq_of_head_eq h' hinj hs hs' hlen hhead]
  · intro he
    refine ⟨?_, by rw [hleaf, hleaf, he]⟩
    rw [← List.getLast?_map, ← List.getLast?_map, he]

namespace Chained

variable {db : Db}

/-- The boundary read at a size from 1 on is the one of the rows up to it. -/
theorem snapshotBoundary_succ (h : Chained P db) (created : PyStr) {n : Nat}
    (hn : n < db.log.rows.length) :
    snapshotBoundary db (some (n + 1 : Nat)) =
      .ok (boundaryOf P created (db.log.rows.take (n + 1))) := by
  have hsize := h.size_eq
  have hrange : ¬(((n + 1 : Nat) : Int) < 0 ∨ ((n + 1 : Nat) : Int) > db.size) := by omega
  obtain ⟨row, hrow⟩ : ∃ row, db.log.rows[n]? = some row := ⟨_, List.getElem?_eq_getElem hn⟩
  have hpos : 0 < db.log.rows.length := by omega
  have hfirst : db.log.find? 1 = some db.log.rows[0] := by
    have := h.numbered.find? 0
    rw [List.getElem?_eq_getElem hpos] at this
    exact this
  have hlast : (db.log.rows.take (n + 1)).getLast? = some row := by
    rw [List.getLast?_take, if_neg (by omega), Nat.add_sub_cancel, hrow, Option.some_or]
  have hlen : (db.log.rows.take (n + 1)).length = n + 1 := by
    rw [List.length_take]
    omega
  have hne : ((n + 1 : Nat) : Int) ≠ 0 := by omega
  have hcast : ((n + 1 : Nat) : Int) = n + 1 := by push_cast; rfl
  simp only [snapshotBoundary, Option.getD_some]
  rw [if_neg hrange, if_neg hne, hcast, h.find?_boundary hrow, h.numbered.find? n, hrow, hfirst]
  simp only [ne_eq, not_true_eq_false, or_self, if_false, Option.isNone_some, Bool.false_eq_true]
  rw [boundaryOf, hlast, hlen]
  push_cast
  rfl

/-- The boundary read at a size is the one of the rows up to it. -/
theorem snapshotBoundary_eq (h : Chained P db) {created : PyStr}
    (hc : db.metadataValue (py "created_at") = some created) (n : Nat)
    (hn : n ≤ db.log.rows.length) :
    snapshotBoundary db (some n) = .ok (boundaryOf P created (db.log.rows.take n)) := by
  cases n with
  | zero =>
    have hsize := h.size_eq
    have hrange : ¬(((0 : Nat) : Int) < 0 ∨ ((0 : Nat) : Int) > db.size) := by omega
    simp only [snapshotBoundary, Option.getD_some]
    rw [if_neg hrange, if_pos Nat.cast_zero, hc]
    rfl
  | succ n => exact h.snapshotBoundary_succ created hn

/-- The current boundary is the one of all rows. -/
theorem snapshotBoundary_none (h : Chained P db) {created : PyStr}
    (hc : db.metadataValue (py "created_at") = some created) :
    snapshotBoundary db none = .ok (boundaryOf P created db.log.rows) := by
  have hs : snapshotBoundary db none = snapshotBoundary db (some db.size) := rfl
  rw [hs, h.size_eq, h.snapshotBoundary_eq hc _ le_rfl, List.take_length]

/-- A boundary is read only at a size the log has. -/
theorem snapshotBoundary_of_lt (h : Chained P db) {n : Int}
    (hn : n < 0 ∨ db.log.rows.length < n) :
    snapshotBoundary db (some n) = .error (.valueError "snapshot boundary is unavailable") := by
  have hsize := h.size_eq
  simp only [snapshotBoundary, Option.getD_some]
  rw [if_pos (by omega)]

/-- A boundary that is read is the one of the rows up to some size. -/
theorem exists_boundaryOf (h : Chained P db) {m : Int} {b : SnapshotBoundary}
    (hb : snapshotBoundary db (some m) = .ok b) : ∃ n : Nat, m = n ∧ n ≤ db.log.rows.length ∧
      ∃ created, b = boundaryOf P created (db.log.rows.take n) := by
  by_cases hrange : m < 0 ∨ db.log.rows.length < m
  · rw [h.snapshotBoundary_of_lt hrange] at hb
    cases hb
  have hsize := h.size_eq
  obtain ⟨n, rfl⟩ := Int.eq_ofNat_of_zero_le (show 0 ≤ m by omega)
  refine ⟨n, rfl, by omega, ?_⟩
  cases n with
  | zero =>
    have hin : ¬(((0 : Nat) : Int) < 0 ∨ ((0 : Nat) : Int) > db.size) := by omega
    simp only [snapshotBoundary, Option.getD_some] at hb
    rw [if_neg hin, if_pos Nat.cast_zero] at hb
    split at hb
    · cases hb
    · rename_i created _
      exact ⟨created, (Except.ok.inj hb).symm⟩
  | succ n =>
    exact ⟨[], Except.ok.inj (hb.symm.trans (h.snapshotBoundary_succ [] (by omega)))⟩

/-- A current boundary that is read is the one of all rows. -/
theorem eq_boundaryOf (h : Chained P db) {b : SnapshotBoundary}
    (hb : snapshotBoundary db none = .ok b) : ∃ created, b = boundaryOf P created db.log.rows := by
  have hs : snapshotBoundary db none = snapshotBoundary db (some db.size) := rfl
  obtain ⟨n, hn, -, created, rfl⟩ := h.exists_boundaryOf (hs ▸ hb)
  rw [h.size_eq, Int.natCast_inj] at hn
  exact ⟨created, by rw [← hn, List.take_length]⟩

end Chained

/-! ## Appending keeps the invariant -/

/-- A list of checks passes when each of them does. -/
theorem forM_eq_ok {α : Type} {l : List α} {f : α → Except PyErr Unit} :
    l.forM f = .ok () ↔ ∀ x ∈ l, f x = .ok () := by
  induction l with
  | nil => exact ⟨fun _ => nofun, fun _ => rfl⟩
  | cons a l ih =>
    change f a >>= (fun _ => l.forM f) = .ok () ↔ _
    rw [check_bind_eq_ok, ih, List.forall_mem_cons]

theorem requireField_eq_ok {record : Dict} {key : PyStr} (h : requireField record key = .ok ()) :
    record.get? key = some (.str (strField record key)) ∧ strField record key ≠ [] := by
  unfold requireField at h
  split at h
  · rename_i c s hs
    rw [strField, hs]
    exact ⟨rfl, List.cons_ne_nil _ _⟩
  · cases h

theorem checkAppendable_eq_ok {record : Dict} {body : Bytes}
    (h : checkAppendable P record = .ok body) :
    (∀ key ∈ requiredFields, record.get? key = some (.str (strField record key)) ∧
      strField record key ≠ []) ∧ validateHashVersion record = .ok () ∧
      canonicalBytes P record = .ok body := by
  obtain ⟨hf, h⟩ := check_bind_eq_ok.1 h
  obtain ⟨hv, h⟩ := check_bind_eq_ok.1 h
  exact ⟨fun key hk => requireField_eq_ok (forM_eq_ok.1 hf key hk), hv, h⟩

theorem Db.seq_le_size (db : Db) : ∀ row ∈ db.log.rows, row.seq ≤ db.size := by
  intro row hr
  unfold Db.size
  cases hl : db.log.last? with
  | none => exact absurd (List.getLast?_eq_none_iff.1 hl) (List.ne_nil_of_mem hr)
  | some last => exact Table.key_le_last? hl hr

namespace Appended

variable {db db' : Db} {record : Dict} {createdAt : PyStr} {body root : Bytes}
  {frontier : List (Summary Bytes)} {entry : LogEntry}
  (h : Appended P db record createdAt body frontier root entry db')

include h

/-- An append adds one row at the end of the log. -/
theorem log_rows : db'.log.rows =
    db.log.rows ++ [logRow entry (Json.obj record).dumps createdAt] := by
  rw [h.result]
  refine Table.rows_put_of_lt fun row hr => ?_
  have := db.seq_le_size row hr
  have := h.seq
  change row.seq < entry.seq
  omega

theorem holds (hs : (Json.obj record).Sorted) (hn : (Json.obj record).Numeral) :
    Holds P (logRow entry (Json.obj record).dumps createdAt) record body := by
  obtain ⟨hf, -, hb⟩ := checkAppendable_eq_ok h.checked
  have field (key : PyStr) (hk : key ∈ requiredFields) := (hf key hk).1
  refine ⟨pyLoads_jsonDumps h.dumped hs hn, hb, ?_, ?_, ?_, ?_, ?_⟩ <;>
    rw [logRow, h.recorded] <;> exact field _ (by decide)

theorem headHash_eq : entry.entryHash = link P db.headHash body := (entryHash_eq_ok h.hash).1

/-- The leaf of the row that is appended. -/
theorem leaf_eq : (logRow entry (Json.obj record).dumps createdAt).leaf =
    rawLink P db.headHash body := by
  change (fromHex entry.entryHash).getD [] = _
  rw [h.headHash_eq, link, fromHex_hex]
  rfl

/-- The frontier that was climbed is the one of the leaves. -/
theorem isFrontier (hinv : Invariant P db) :
    IsFrontier (merklePairHash P) (db'.log.rows.map LogRow.leaf) frontier := by
  obtain ⟨old, leaf, hload, hhex, hclimb⟩ := h.climbed
  obtain ⟨f, hf, hfrontier⟩ := hinv.frontier
  obtain rfl : old = f := Except.ok.inj (hload.symm.trans hf)
  obtain rfl : leaf = rawLink P db.headHash body := by
    rw [h.headHash_eq, link, bytesFromHex_hex] at hhex
    exact (Except.ok.inj hhex).symm
  have hroom := h.room
  have hsize := hinv.size_eq
  obtain ⟨g, hg, hg'⟩ := frontierAppend_isFrontier hfrontier
    (by rw [List.length_map]; unfold maxInteger at hroom; omega) (rawLink P db.headHash body)
  obtain rfl : g = frontier := Except.ok.inj (hg.symm.trans hclimb)
  rw [h.log_rows, List.map_append, List.map_singleton, h.leaf_eq]
  exact hg'

/-- An append keeps the invariant. -/
theorem invariant (hs : (Json.obj record).Sorted) (hn : (Json.obj record).Numeral)
    (hinv : Invariant P db) : Invariant P db' := by
  obtain ⟨bodies, hlog⟩ := hinv.log
  have hrows := h.log_rows
  have hsize := hinv.size_eq
  have hseq := h.seq
  have hlog' : IsLog P 1 genesis db'.log.rows (bodies ++ [body]) := by
    rw [hrows]
    refine hlog.concat ?_ ?_ (h.holds hs hn) ?_
    · change entry.seq = _
      omega
    · exact h.prevHash
    · change entryHash P entry.prevHash body = _
      rw [h.prevHash, h.hash]
      rfl
  have hlen : db'.log.rows.length = db.log.rows.length + 1 := by
    rw [hrows, List.length_append, List.length_singleton]
  have hroom := h.room
  have hfrontier := h.isFrontier hinv
  obtain ⟨r, hr, hroot⟩ := frontierRoot_eq hfrontier
    (by rw [hrows, List.map_append, List.map_singleton]; simp)
  obtain rfl : r = root := Except.ok.inj (hr.symm.trans h.rooted)
  refine ⟨⟨⟨_, hlog'⟩, ?_⟩, ⟨frontier, ?_, hfrontier⟩, by rw [hlen]; push_cast; omega⟩
  · have hput := (numbered_boundaries hinv.boundaries).put
      (r := ⟨entry.seq, entry.entryHash, hex r, createdAt⟩) (by
        rw [hinv.boundaries, boundaryRows, List.length_mapIdx, prefixBoundaries_length,
          leaves_length]
        change entry.seq = _
        omega)
    rw [hrows, List.map_append, List.map_singleton, h.leaf_eq] at hroot
    rw [hrows, leaves_concat, prefixBoundaries_concat, boundaryRows_concat,
      prefixBoundaries_length, leaves_length, leaves_fst, h.leaf_eq, List.nil_append, ← hroot,
      h.result, hput.1, hinv.boundaries]
    refine congrArg (_ ++ [·]) ?_
    rw [BoundaryRow.mk.injEq]
    exact ⟨by omega, h.headHash_eq, rfl, rfl⟩
  · exact hlog'.loadFrontier hfrontier (by rw [h.result])

end Appended

/-! ## What the calls keep -/

/-- The row of an entry an import appended. -/
def LogEntry.row (createdAt : PyStr) (entry : LogEntry) : LogRow :=
  logRow entry (Json.obj entry.record).dumps createdAt

/-- The time a call gives to its entries. -/
def Call.createdAt : Call → PyStr
  | append _ createdAt | appendIdempotent _ _ _ _ createdAt _ _ | appendImports _ createdAt _
  | appendUpstreamImport _ createdAt _ _ => createdAt

theorem Appended.row_eq {db db' : Db} {record : Dict} {createdAt : PyStr} {body root : Bytes}
    {frontier : List (Summary Bytes)} {entry : LogEntry}
    (h : Appended P db record createdAt body frontier root entry db') :
    db'.log.rows = db.log.rows ++ [entry.row createdAt] := by
  rw [h.log_rows, LogEntry.row, h.recorded]

namespace Imports

variable {createdAt : PyStr} {records : List (PyStr × Dict)} {db db' : Db} {entries : List LogEntry}

/-- An import adds a row for each entry. -/
theorem log_rows (h : Imports P createdAt records db entries db') :
    db'.log.rows = db.log.rows ++ entries.map (LogEntry.row createdAt) := by
  induction h with
  | nil => simp
  | skip _ _ ih => exact ih
  | take _ appended _ ih =>
    rw [ih, Db.log_markImported, appended.row_eq, List.map_cons, List.append_assoc,
      List.singleton_append]

theorem invariant (h : Imports P createdAt records db entries db')
    (hr : ∀ r ∈ records, (Json.obj r.2).Sorted ∧ (Json.obj r.2).Numeral) (hi : Invariant P db) :
    Invariant P db' := by
  induction h with
  | nil => exact hi
  | skip _ _ ih => exact ih (List.forall_mem_cons.1 hr).2 hi
  | take _ appended _ ih =>
    obtain ⟨⟨hs, hn⟩, hr⟩ := List.forall_mem_cons.1 hr
    exact ih hr ((appended.invariant hs hn hi).congr rfl rfl rfl)

/-- What an import leaves as it was. -/
theorem frame (h : Imports P createdAt records db entries db') : db'.existed = db.existed ∧
    db'.userVersion = db.userVersion ∧ db'.metadata = db.metadata ∧
    db'.idempotency = db.idempotency ∧ db'.highWater = db.highWater := by
  induction h with
  | nil => exact ⟨rfl, rfl, rfl, rfl, rfl⟩
  | skip _ _ ih => exact ih
  | take _ appended _ ih =>
    obtain ⟨h₁, h₂, h₃, h₄, h₅⟩ := ih
    have hr := appended.result
    subst hr
    exact ⟨h₁, h₂, h₃, h₄, h₅⟩

end Imports

theorem sorted_recordDicts (records : List (PyStr × Record)) :
    ∀ r ∈ recordDicts records, (Json.obj r.2).Sorted ∧ (Json.obj r.2).Numeral := by
  intro r hr
  obtain ⟨s, -, rfl⟩ := List.mem_map.1 hr
  exact ⟨s.2.sorted, s.2.numeral⟩

namespace Performs

variable {call : Call} {db db' : Db} {response : Response} {published : Option LogEntry}

/-- A call keeps the rows of the log, and adds rows of its own time after them. -/
theorem log_rows (h : Performs P call db response published db') :
    ∃ entries : List LogEntry,
      db'.log.rows = db.log.rows ++ entries.map (LogEntry.row call.createdAt) := by
  cases h with
  | append appended => exact ⟨[_], appended.row_eq⟩
  | replay => exact ⟨[], (List.append_nil _).symm⟩
  | submit _ _ _ appended => exact ⟨[_], appended.row_eq⟩
  | imports h => exact ⟨_, h.log_rows⟩
  | importsOffered _ _ h => exact ⟨_, h.log_rows⟩
  | @upstream _ _ _ _ _ _ entries _ _ _ h =>
    refine ⟨entries, ?_⟩
    split_ifs <;> exact h.log_rows

/-- A call keeps the invariant. -/
theorem invariant (h : Performs P call db response published db') (hi : Invariant P db) :
    Invariant P db' := by
  cases h with
  | @append record _ _ _ _ _ _ _ appended =>
    exact appended.invariant record.sorted record.numeral hi
  | replay => exact hi.congr rfl rfl rfl
  | @submit record _ _ _ _ _ _ _ _ _ _ _ _ _ _ _ appended =>
    exact (appended.invariant record.sorted record.numeral (hi.congr rfl rfl rfl)).congr rfl rfl rfl
  | imports h => exact h.invariant (sorted_recordDicts _) hi
  | importsOffered _ _ h => exact (h.invariant (sorted_recordDicts _) hi).congr rfl rfl rfl
  | upstream _ _ h =>
    split_ifs
    · exact (h.invariant (sorted_recordDicts _) hi).congr rfl rfl rfl
    · exact h.invariant (sorted_recordDicts _) hi

/-- A call does not touch the metadata. -/
theorem metadata (h : Performs P call db response published db') :
    db'.existed = db.existed ∧ db'.userVersion = db.userVersion ∧ db'.metadata = db.metadata := by
  cases h with
  | append appended => exact appended.result ▸ ⟨rfl, rfl, rfl⟩
  | replay => exact ⟨rfl, rfl, rfl⟩
  | submit _ _ _ appended => exact appended.result ▸ ⟨rfl, rfl, rfl⟩
  | imports h => exact ⟨h.frame.1, h.frame.2.1, h.frame.2.2.1⟩
  | importsOffered _ _ h => exact ⟨h.frame.1, h.frame.2.1, h.frame.2.2.1⟩
  | upstream _ _ h => split_ifs <;> exact ⟨h.frame.1, h.frame.2.1, h.frame.2.2.1⟩

end Performs

end SkillRegistry
