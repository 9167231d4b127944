import SkillRegistry.Store.Read
import SkillRegistry.Protocol

/-!
# Appending an entry

`_append_locked`, inside the write transaction of its caller: the record is checked,
the anchors of the frontier and the boundaries are validated against the log, and the
log row, the frontier and the boundary are written. A mismatch of the anchors latches
an integrity failure.

`Appended` says all that a successful append does, and `appendLocked_spec` that it
does it.
-/

namespace SkillRegistry

open Wire Merkle

variable (P : Platform)

/-! ## The record -/

/-- The fields a record must have to be appended. -/
def requiredFields : List PyStr :=
  [py "name", py "source_identity", py "commit", py "content_sha256", py "status"]

/-- The check of one required field. -/
def requireField (record : Dict) (key : PyStr) : Except PyErr Unit :=
  match record.get? key with
  | some (.str (_ :: _)) => .ok ()
  | _ => .error (.valueError ("record requires a non-empty string " ++ pyRepr key))

/-- The checks of a record, and its canonical bytes. -/
def checkAppendable (record : Dict) : Except PyErr Bytes := do
  requiredFields.forM (requireField record)
  validateHashVersion record
  canonicalBytes P record

/-- The string in a field, which is one after `checkAppendable`. -/
def strField (record : Dict) (key : PyStr) : PyStr :=
  match record.get? key with
  | some (.str s) => s
  | _ => []

/-- `hashlib.sha256(prev_hash.encode("ascii") + record_bytes).hexdigest()`. -/
def entryHash (prevHash : PyStr) (body : Bytes) : Except PyErr PyStr :=
  match ascii prevHash with
  | some p => .ok (hex (P.sha256 (p ++ body)))
  | none => .error .unicodeEncodeError

/-- The row of an entry. -/
def logRow (entry : LogEntry) (recordJson createdAt : PyStr) : LogRow where
  seq := entry.seq
  entryHash := entry.entryHash
  prevHash := entry.prevHash
  name := strField entry.record (py "name")
  sourceIdentity := strField entry.record (py "source_identity")
  commitHash := strField entry.record (py "commit")
  contentSha256 := strField entry.record (py "content_sha256")
  status := strField entry.record (py "status")
  recordJson
  createdAt

/-! ## Statements -/

namespace StoreTx

/-- Latch an integrity failure unless a condition holds. -/
def require (c : Prop) [Decidable c] (error : String) : StoreTx Unit :=
  if c then pure () else failAppend error

/-- `INSERT INTO log`: the row gets the next `seq`. -/
def insertLog (row : Int → LogRow) : StoreTx Int := Tx.stmt fun db =>
  let last := max db.logSequence db.size
  if maxInteger ≤ last then .error ⟨.operationalError "database or disk is full", none, false⟩
  else .ok (last + 1, { db with log := db.log.put (row (last + 1)), logSequence := last + 1 })

/-- `INSERT INTO boundaries`. -/
def insertBoundary (row : BoundaryRow) : StoreTx Unit := Tx.stmt fun db =>
  match db.boundaries.insert? row with
  | some boundaries => .ok ((), { db with boundaries })
  | none =>
    .error ⟨.integrityError "UNIQUE constraint failed: boundaries.log_size", none, false⟩

/-- `INSERT INTO merkle_frontier`, row after row. -/
def insertLevels : List FrontierRow → StoreTx Unit
  | [] => pure ()
  | row :: rows => do
    Tx.stmt fun db =>
      match db.frontier.insert? row with
      | some frontier => .ok ((), { db with frontier })
      | none =>
        .error ⟨.integrityError "UNIQUE constraint failed: merkle_frontier.level", none, false⟩
    insertLevels rows

/-- `_save_frontier`. -/
def saveFrontier (frontier : List (Summary Bytes)) : StoreTx Unit := do
  Tx.execute fun db => { db with frontier := .empty }
  insertLevels (frontierRows 0 frontier)

/-- `_load_frontier`, on the connection of the store. -/
def loadFrontier : StoreTx (List (Summary Bytes)) := do
  let loaded ← Tx.select (SkillRegistry.loadFrontier P)
  ofExcept loaded

/-! ## Anchors -/

/-- The check of the last one or two leaves against the log. -/
def validateLeaves (previousSeq : Int) (prevHash : PyStr) :
    List (Summary Bytes) → StoreTx Unit
  | [] => raise .indexError
  | first :: _ =>
    if previousSeq = 1 then
      match first.tail with
      | .one leaf => do
        let last ← ofExcept (bytesFromHex prevHash)
        require (leaf = last) "merkle frontier disagrees with the committed log"
      | .two _ _ => failAppend "merkle frontier disagrees with the committed log"
    else do
      let second ← Tx.select fun db => db.log.find? (previousSeq - 1)
      match second with
      | none => failAppend "log sequence is not contiguous"
      | some second => do
        let before ← ofExcept (bytesFromHex second.entryHash)
        let last ← ofExcept (bytesFromHex prevHash)
        require (first.tail = .two before last) "merkle frontier disagrees with the committed log"

/-- The check of each level against the one below it. -/
def validateLinks : List (Summary Bytes) → StoreTx Unit
  | lower :: upper :: rest => do
    require (¬(2 ≤ lower.length ∧ lower.tail.before = none)) "merkle frontier tail is incomplete"
    let last ← ofExcept (lastParent (merklePairHash P) lower)
    require (upper.tail.last = last) "merkle frontier disagrees with the committed log"
    validateLinks (upper :: rest)
  | _ => pure ()

/-- The anchors of a log that is not empty. -/
def validateAnchors (previousSeq : Int) (prevHash : PyStr) (frontier : List (Summary Bytes)) :
    StoreTx Unit := do
  let boundary ← Tx.select fun db => db.boundaries.find? previousSeq
  match boundary with
  | none => failAppend s!"snapshot boundary cache is missing log size {previousSeq}"
  | some boundary => do
    require (boundary.head = prevHash) "log head does not match the snapshot boundary"
    validateLeaves previousSeq prevHash frontier
    validateLinks P frontier
    let root ← ofExcept (frontierRoot frontier)
    require (hex root = boundary.merkleRoot) "merkle frontier disagrees with the committed log"

/-- `_validate_append_anchors_locked`. -/
def validateAppendAnchors (previousSeq : Int) (prevHash : PyStr)
    (frontier : List (Summary Bytes)) : StoreTx Unit := do
  require (((frontier.head?.map (·.length)).getD 0 : Nat) = previousSeq)
    "merkle frontier does not match the log head"
  if previousSeq = 0 then require (frontier = []) "merkle frontier does not match the log head"
  else validateAnchors P previousSeq prevHash frontier

/-- `_append_locked`. -/
def appendLocked (record : Dict) (createdAt : PyStr) : StoreTx LogEntry := do
  let body ← ofExcept (checkAppendable P record)
  let row ← Tx.select fun db => db.log.last?
  let previousSeq := (row.map (·.seq)).getD 0
  let prevHash := (row.map (·.entryHash)).getD genesis
  let frontier ← latching (loadFrontier P)
  validateAppendAnchors P previousSeq prevHash frontier
  let hash ← ofExcept (entryHash P prevHash body)
  let recordJson ← ofExcept (jsonDumps P (.obj record))
  let row (seq : Int) := logRow ⟨seq, hash, prevHash, record⟩ recordJson createdAt
  ofExcept (bindText [(row 0).entryHash, (row 0).prevHash, (row 0).name, (row 0).sourceIdentity,
    (row 0).commitHash, (row 0).contentSha256, (row 0).status, recordJson, createdAt])
  let seq ← insertLog row
  require (seq = previousSeq + 1) "log sequence is not contiguous"
  let leaf ← ofExcept (bytesFromHex hash)
  let frontier ← latching (ofExcept (frontierAppend (merklePairHash P) frontier leaf))
  let root ← ofExcept (frontierRoot frontier)
  saveFrontier frontier
  (insertBoundary ⟨seq, hash, hex root, createdAt⟩).rethrow fun a =>
    match a.error with
    | .integrityError _ =>
      ⟨.storeIntegrityError "snapshot boundary cache is inconsistent",
        some "snapshot boundary cache is inconsistent", a.ended⟩
    | _ => a
  return ⟨seq, hash, prevHash, record⟩

end StoreTx

/-! ## What an append does -/

/-- What a successful append does to the database. -/
structure Appended (db : Db) (record : Dict) (createdAt : PyStr) (body : Bytes)
    (frontier : List (Summary Bytes)) (root : Bytes) (entry : LogEntry) (db' : Db) : Prop where
  checked : checkAppendable P record = .ok body
  dumped : jsonDumps P (.obj record) = .ok (Json.obj record).dumps
  seq : entry.seq = db.size + 1
  prevHash : entry.prevHash = db.headHash
  recorded : entry.record = record
  hash : entryHash P db.headHash body = .ok entry.entryHash
  room : db.size < maxInteger
  sequence : db.logSequence ≤ db.size
  climbed : ∃ old leaf, loadFrontier P db = .ok old ∧ bytesFromHex entry.entryHash = .ok leaf ∧
    frontierAppend (merklePairHash P) old leaf = .ok frontier
  rooted : frontierRoot frontier = .ok root
  fresh : db.boundaries.find? entry.seq = none
  result : db' = { db with
    log := db.log.put (logRow entry (Json.obj record).dumps createdAt)
    logSequence := entry.seq
    frontier := frontierTable frontier
    boundaries := db.boundaries.put ⟨entry.seq, entry.entryHash, hex root, createdAt⟩ }

namespace StoreTx

variable {P}

theorem triple_ofExcept {α : Type} {x : Except PyErr α} {p : Db → Prop} {q : α → Db → Prop}
    (h : ∀ db a, p db → x = .ok a → q a db) : Tx.Triple p (ofExcept x) q := by
  refine Tx.triple_lift fun db a hp hx => h db a hp ?_
  cases x with
  | error e => cases hx
  | ok b => exact congrArg Except.ok (Except.ok.inj hx)

theorem triple_bind_ofExcept {α β : Type} {x : Except PyErr α} {f : α → StoreTx β} {db₀ : Db}
    {r : β → Db → Prop} (hf : ∀ a, x = .ok a → Tx.Triple (· = db₀) (f a) r) :
    Tx.Triple (· = db₀) (ofExcept x >>= f) r :=
  Tx.triple_bind_and (φ := fun a => x = .ok a) (triple_ofExcept fun _ _ hp hx => ⟨hp, hx⟩) hf

theorem triple_require {c : Prop} [Decidable c] {error : String} {p : Db → Prop}
    {q : Unit → Db → Prop} (h : ∀ db, p db → c → q () db) : Tx.Triple p (require c error) q := by
  refine Tx.triple_ite (fun hc => ?_) fun _ => Tx.triple_fail _
  exact (Tx.triple_pure (Q := q) ()).mono (fun db hp => h db hp hc) fun _ _ hq => hq

theorem triple_bind_require {β : Type} {c : Prop} [Decidable c] {error : String}
    {f : Unit → StoreTx β} {db₀ : Db} {r : β → Db → Prop}
    (hf : c → Tx.Triple (· = db₀) (f ()) r) : Tx.Triple (· = db₀) (require c error >>= f) r :=
  Tx.triple_bind_and (φ := fun _ => c) (triple_require fun _ hp hc => ⟨hp, hc⟩) fun _ => hf

theorem readOnly_ofExcept {α : Type} (x : Except PyErr α) : Tx.ReadOnly (ofExcept x) :=
  fun _ => triple_ofExcept fun _ _ hp _ => hp

theorem readOnly_require {c : Prop} [Decidable c] {error : String} :
    Tx.ReadOnly (require c error) := fun _ => triple_require fun _ hp _ => hp

theorem readOnly_validateLeaves (previousSeq : Int) (prevHash : PyStr)
    (frontier : List (Summary Bytes)) :
    Tx.ReadOnly (validateLeaves previousSeq prevHash frontier) := by
  cases frontier with
  | nil => exact Tx.readOnly_fail _
  | cons first rest =>
    refine Tx.readOnly_ite (fun _ => ?_) fun _ => ?_
    · cases first.tail with
      | one leaf => exact Tx.readOnly_bind (readOnly_ofExcept _) fun _ => readOnly_require
      | two a b => exact Tx.readOnly_fail _
    · refine Tx.readOnly_bind (Tx.readOnly_select _) fun second => ?_
      cases second with
      | none => exact Tx.readOnly_fail _
      | some second =>
        exact Tx.readOnly_bind (readOnly_ofExcept _) fun _ =>
          Tx.readOnly_bind (readOnly_ofExcept _) fun _ => readOnly_require

theorem readOnly_validateLinks (frontier : List (Summary Bytes)) :
    Tx.ReadOnly (validateLinks P frontier) := by
  induction frontier with
  | nil => exact Tx.readOnly_pure ()
  | cons lower frontier ih =>
    cases frontier with
    | nil => exact Tx.readOnly_pure ()
    | cons upper rest =>
      exact Tx.readOnly_bind readOnly_require fun _ => Tx.readOnly_bind (readOnly_ofExcept _)
        fun _ => Tx.readOnly_bind readOnly_require fun _ => ih

/-- Validating the anchors changes nothing. -/
theorem readOnly_validateAppendAnchors (previousSeq : Int) (prevHash : PyStr)
    (frontier : List (Summary Bytes)) :
    Tx.ReadOnly (validateAppendAnchors P previousSeq prevHash frontier) := by
  refine Tx.readOnly_bind readOnly_require fun _ => Tx.readOnly_ite (fun _ => readOnly_require)
    fun _ => Tx.readOnly_bind (Tx.readOnly_select _) fun boundary => ?_
  cases boundary with
  | none => exact Tx.readOnly_fail _
  | some boundary =>
    exact Tx.readOnly_bind readOnly_require fun _ =>
      Tx.readOnly_bind (readOnly_validateLeaves _ _ _) fun _ =>
        Tx.readOnly_bind (readOnly_validateLinks _) fun _ =>
          Tx.readOnly_bind (readOnly_ofExcept _) fun _ => readOnly_require

/-- Inserting rows above all others appends them. -/
theorem triple_insertLevels (db₀ : Db) (rows : List FrontierRow)
    (hs : (db₀.frontier.rows ++ rows).Pairwise fun a b => a.level < b.level) :
    Tx.Triple (· = db₀) (insertLevels rows) fun _ db =>
      ∃ t, db = { db₀ with frontier := t } ∧ t.rows = db₀.frontier.rows ++ rows := by
  induction rows generalizing db₀ with
  | nil =>
    refine (Tx.triple_pure ()).mono (fun db hdb => ?_) fun _ _ hq => hq
    exact ⟨db₀.frontier, hdb, (List.append_nil _).symm⟩
  | cons row rows ih =>
    have hlt : ∀ x ∈ db₀.frontier.rows, x.level < row.level := fun x hx =>
      (List.pairwise_append.1 hs).2.2 x hx row List.mem_cons_self
    have hrows := Table.rows_put_of_lt hlt
    refine Tx.triple_bind (Q := fun _ db => db = { db₀ with frontier := db₀.frontier.put row })
      (Tx.triple_stmt fun db _ db' hdb hr => ?_) fun _ => ?_
    · subst hdb
      cases hi : db.frontier.insert? row with
      | none => rw [hi] at hr; cases hr
      | some t =>
        rw [hi] at hr
        rw [← (Table.insert?_eq_some.1 hi).2]
        exact (Prod.mk.inj (Except.ok.inj hr)).2.symm
    · refine (ih _ ?_).mono (fun _ h => h) fun _ db ⟨t, hdb, ht⟩ => ⟨t, hdb, ?_⟩
      · change ((db₀.frontier.put row).rows ++ rows).Pairwise _
        rwa [hrows, List.append_assoc]
      · rw [ht]
        change (db₀.frontier.put row).rows ++ rows = _
        rw [hrows, List.append_assoc]
        rfl

/-- Saving a frontier replaces the rows of the old one. -/
theorem triple_saveFrontier (db₀ : Db) (frontier : List (Summary Bytes)) :
    Tx.Triple (· = db₀) (saveFrontier frontier) fun _ db =>
      db = { db₀ with frontier := frontierTable frontier } := by
  refine Tx.triple_bind (Q := fun _ db => db = { db₀ with frontier := .empty })
    (Tx.triple_execute.mono (fun db hdb => hdb ▸ rfl) fun _ _ h => h) fun _ => ?_
  refine (triple_insertLevels { db₀ with frontier := .empty } _ ?_).mono (fun _ h => h) ?_
  · exact (frontierTable frontier).sorted
  · rintro _ db ⟨t, rfl, ht⟩
    rw [show t = frontierTable frontier from Table.ext ht]

/-- What `_load_frontier` loads. -/
theorem triple_loadFrontier (db₀ : Db) : Tx.Triple (· = db₀) (latching (loadFrontier P))
    fun f db => db = db₀ ∧ SkillRegistry.loadFrontier P db₀ = .ok f :=
  Tx.triple_rethrow (Tx.triple_bind_select (triple_ofExcept fun _ _ hp hx => ⟨hp, hx⟩))

/-- The next `seq` follows every one before. -/
theorem triple_insertLog (db₀ : Db) (row : Int → LogRow) :
    Tx.Triple (· = db₀) (insertLog row) fun seq db =>
      seq = max db₀.logSequence db₀.size + 1 ∧ max db₀.logSequence db₀.size < maxInteger ∧
        db = { db₀ with log := db₀.log.put (row seq), logSequence := seq } := by
  refine Tx.triple_stmt fun db seq db' hdb hr => ?_
  subst hdb
  simp only at hr
  split_ifs at hr with hlt
  obtain ⟨rfl, rfl⟩ := Prod.mk.inj (Except.ok.inj hr)
  exact ⟨rfl, not_le.1 hlt, rfl⟩

theorem triple_insertBoundary (db₀ : Db) (row : BoundaryRow) (handle : Abort → Abort) :
    Tx.Triple (· = db₀) ((insertBoundary row).rethrow handle) fun _ db =>
      db = { db₀ with boundaries := db₀.boundaries.put row } ∧
        db₀.boundaries.find? row.logSize = none := by
  refine Tx.triple_rethrow (Tx.triple_stmt fun db _ db' hdb hr => ?_)
  subst hdb
  cases hi : db.boundaries.insert? row with
  | none => rw [hi] at hr; cases hr
  | some t =>
    rw [hi] at hr
    obtain ⟨hnone, rfl⟩ := Table.insert?_eq_some.1 hi
    exact ⟨(Prod.mk.inj (Except.ok.inj hr)).2.symm, hnone⟩

end StoreTx

variable {P}

/-- A successful append does what `Appended` says. -/
theorem appendLocked_spec (db₀ : Db) (record : Dict) (createdAt : PyStr) :
    Tx.Triple (· = db₀) (StoreTx.appendLocked P record createdAt) fun entry db =>
      ∃ body frontier root, Appended P db₀ record createdAt body frontier root entry db := by
  refine StoreTx.triple_bind_ofExcept fun body hbody => Tx.triple_bind_select ?_
  refine Tx.triple_bind_and (StoreTx.triple_loadFrontier db₀) fun old hold => ?_
  refine (StoreTx.readOnly_validateAppendAnchors _ _ _).triple_bind fun _ => ?_
  refine StoreTx.triple_bind_ofExcept fun hash hhash => ?_
  refine StoreTx.triple_bind_ofExcept fun recordJson hjson => ?_
  refine StoreTx.triple_bind_ofExcept fun _ _ => ?_
  obtain ⟨-, -, rfl⟩ := jsonDumps_eq_ok hjson
  -- from here on the database changes, one statement after another
  refine Tx.triple_bind_each (StoreTx.triple_insertLog db₀ _) fun seq db ⟨hseq, hroom, hdb⟩ => ?_
  refine StoreTx.triple_bind_require fun hnext => ?_
  have hsize : max db₀.logSequence db₀.size = db₀.size := by
    have : seq = db₀.size + 1 := hnext
    omega
  refine StoreTx.triple_bind_ofExcept fun leaf hleaf => ?_
  refine Tx.triple_bind_and (φ := fun f => frontierAppend (merklePairHash P) old leaf = .ok f)
    (Tx.triple_rethrow (StoreTx.triple_ofExcept fun _ _ hp hx => ⟨hp, hx⟩)) fun frontier hclimb => ?_
  refine StoreTx.triple_bind_ofExcept fun root hroot => ?_
  refine Tx.triple_bind (StoreTx.triple_saveFrontier db frontier) fun _ => ?_
  refine Tx.triple_bind_and (StoreTx.triple_insertBoundary _ _ _) fun _ hfresh => ?_
  refine (Tx.triple_pure _).mono (fun db' hdb' => ?_) fun _ _ h => h
  subst hdb
  exact ⟨body, frontier, root, hbody, hjson, hnext, rfl, rfl, hhash, hsize ▸ hroom, by omega,
    ⟨old, leaf, hold, hleaf, hclimb⟩, hroot, hfresh, hdb'⟩

end SkillRegistry
