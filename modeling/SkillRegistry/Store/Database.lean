import SkillRegistry.Signing
import SkillRegistry.Frontier
import SkillRegistry.Structure.Table
import SkillRegistry.Structure.Transaction

/-!
# The database

The SQLite database of a registry: its tables, and programs that run statements on
it inside a write transaction. A column is a text or an integer; the texts are those
SQLite returns.

* `Db` holds the tables; `StoreTx` is the monad of a transaction's body, whose
  exceptions (`Abort`) say whether the store latched an integrity failure first;
* `loadFrontier` and `frontierTable` decode and encode the rows of the frontier, and
  `loadFrontier_frontierTable` says that they are inverse.
-/

namespace SkillRegistry

open Wire Merkle

/-! ## Rows -/

/-- A row of `log`. -/
structure LogRow where
  seq : Int
  entryHash : PyStr
  prevHash : PyStr
  name : PyStr
  sourceIdentity : PyStr
  commitHash : PyStr
  contentSha256 : PyStr
  status : PyStr
  recordJson : PyStr
  createdAt : PyStr
  deriving DecidableEq, Repr

/-- A row of `metadata`. -/
structure MetadataRow where
  key : PyStr
  value : PyStr
  deriving DecidableEq, Repr

/-- A row of `imported_records`. -/
structure ImportedRow where
  fingerprint : PyStr
  importedAt : PyStr
  seq : Option Int
  deriving DecidableEq, Repr

/-- A row of `idempotency`. -/
structure IdempotencyRow where
  auditorId : PyStr
  key : PyStr
  bodySha256 : PyStr
  responseJson : PyStr
  seq : Int
  expiresAt : Int
  deriving DecidableEq, Repr

/-- The primary key of `idempotency`. -/
def IdempotencyRow.primaryKey (r : IdempotencyRow) : PyStr ×ₗ PyStr := toLex (r.auditorId, r.key)

/-- A row of `boundaries`. -/
structure BoundaryRow where
  logSize : Int
  head : PyStr
  merkleRoot : PyStr
  createdAt : PyStr
  deriving DecidableEq, Repr

/-- A row of `merkle_frontier`. -/
structure FrontierRow where
  level : Int
  len : Int
  tail : PyStr
  deriving DecidableEq, Repr

/-- A database file. -/
structure Db where
  /-- The file exists and is not empty. -/
  existed : Bool
  /-- `PRAGMA user_version`. -/
  userVersion : Nat
  log : Table LogRow.seq
  /-- The greatest `seq` ever used, as AUTOINCREMENT keeps it. -/
  logSequence : Int
  metadata : Table MetadataRow.key
  imported : Table ImportedRow.fingerprint
  idempotency : Table IdempotencyRow.primaryKey
  boundaries : Table BoundaryRow.logSize
  frontier : Table FrontierRow.level
  highWater : Table UpstreamHighWater.keyId
  deriving DecidableEq

namespace Db

/-- The file before the first start. -/
def absent : Db :=
  ⟨false, 0, .empty, 0, .empty, .empty, .empty, .empty, .empty, .empty⟩

/-- The value of a metadata key. -/
def metadataValue (db : Db) (key : PyStr) : Option PyStr := (db.metadata.find? key).map (·.value)

/-- The greatest `seq`, or `0`. -/
def size (db : Db) : Int := (db.log.last?.map (·.seq)).getD 0

/-- The entry hash of the last row, or the genesis value. -/
def headHash (db : Db) : PyStr := (db.log.last?.map (·.entryHash)).getD genesis

end Db

/-! ## Transactions -/

/-- How the body of a write transaction ends with an exception. -/
structure Abort where
  error : PyErr
  /-- The integrity failure the store latched before raising. -/
  latch : Option String
  /-- SQLite has ended the transaction already. -/
  ended : Bool
  deriving DecidableEq, Repr

/-- The failure of a statement. -/
structure Fault where
  error : PyErr
  /-- SQLite rolls the transaction back on its own. -/
  ended : Bool
  deriving DecidableEq, Repr

/-- A failing statement ends the body. -/
def Fault.abort (f : Fault) : Abort := ⟨f.error, none, f.ended⟩

/-- The body of a write transaction. -/
abbrev StoreTx := Tx Db Abort

namespace StoreTx

variable {α : Type}

/-- Raise an exception. -/
def raise (e : PyErr) : StoreTx α := Tx.fail ⟨e, none, false⟩

/-- `_fail_append_locked`: latch an integrity failure and raise it. -/
def failAppend (error : String) : StoreTx α :=
  Tx.fail ⟨.storeIntegrityError error, some error, false⟩

/-- A computation that may raise. -/
def ofExcept (x : Except PyErr α) : StoreTx α := Tx.lift (x.mapError fun e => ⟨e, none, false⟩)

/-- `except StoreIntegrityError as exc: self._fail_append_locked(str(exc))`. -/
def latching (x : StoreTx α) : StoreTx α := x.rethrow fun a =>
  match a.error with
  | .storeIntegrityError m => ⟨.storeIntegrityError m, some m, a.ended⟩
  | _ => a

end StoreTx

/-- The binding of text parameters. -/
def bindText : List PyStr → Except PyErr Unit
  | [] => .ok ()
  | s :: ss => if Scalar s then bindText ss else .error .unicodeEncodeError

/-- The greatest integer SQLite stores. -/
def maxInteger : Int := 2 ^ 63 - 1

/-- The binding of integer parameters. -/
def bindInt : List Int → Except PyErr Unit
  | [] => .ok ()
  | n :: ns => if -maxInteger - 1 ≤ n ∧ n ≤ maxInteger then bindInt ns else .error .overflowError

theorem bindInt_eq_ok {ns : List Int} :
    bindInt ns = .ok () ↔ ∀ n ∈ ns, -maxInteger - 1 ≤ n ∧ n ≤ maxInteger := by
  induction ns with
  | nil => exact ⟨fun _ => List.forall_mem_nil _, fun _ => rfl⟩
  | cons n ns ih =>
    rw [bindInt, List.forall_mem_cons]
    split_ifs with hn
    · rw [ih, and_iff_right hn]
    · exact ⟨fun h => (by cases h), fun h => absurd h.1 hn⟩

theorem bindText_eq_ok {ss : List PyStr} : bindText ss = .ok () ↔ ∀ s ∈ ss, Scalar s := by
  induction ss with
  | nil => exact ⟨fun _ => List.forall_mem_nil _, fun _ => rfl⟩
  | cons s ss ih =>
    rw [bindText, List.forall_mem_cons]
    split_ifs with h
    · exact ih.trans ⟨fun hs => ⟨h, hs⟩, fun hs => hs.2⟩
    · exact ⟨fun hr => (by cases hr), fun hs => absurd hs.1 h⟩

/-! ## The rows of the frontier -/

variable (P : Platform)

/-- The tail of a row, before its hashes are decoded. -/
def tailHex : Json → Option (Tail PyStr)
  | .arr [.str a] => if hex256 a then some (.one a) else none
  | .arr [.str a, .str b] => if hex256 a && hex256 b then some (.two a b) else none
  | _ => none

/-- The bytes of a tail. -/
def tailBytes : Tail PyStr → Except PyErr (Tail Bytes)
  | .one a => (bytesFromHex a).map .one
  | .two a b => do
    let x ← bytesFromHex a
    let y ← bytesFromHex b
    .ok (.two x y)

/-- The level of one row of the frontier. -/
def loadLevel (index : Nat) (row : FrontierRow) : Except PyErr (Summary Bytes) :=
  if row.level ≠ index then
    .error (.storeIntegrityError "merkle frontier levels are not contiguous")
  else
    match pyLoads P row.tail with
    | .error .jsonDecodeError =>
      .error (.storeIntegrityError "merkle frontier encoding is invalid")
    | .error e => .error e
    | .ok v =>
      match tailHex v with
      | none => .error (.storeIntegrityError "merkle frontier encoding is invalid")
      | some tail =>
        if row.len < 1 ∨ row.len < tail.toList.length then
          .error (.storeIntegrityError "merkle frontier length is invalid")
        else (tailBytes tail).map (⟨row.len.toNat, ·⟩)

/-- The levels of the rows from `index` on. -/
def loadLevels (index : Nat) : List FrontierRow → Except PyErr (List (Summary Bytes))
  | [] => .ok []
  | row :: rows => do
    let level ← loadLevel P index row
    let levels ← loadLevels (index + 1) rows
    .ok (level :: levels)

/-- `_load_frontier`. -/
def loadFrontier (db : Db) : Except PyErr (List (Summary Bytes)) := loadLevels P 0 db.frontier.rows

/-- The text of a tail: `json.dumps([item.hex() for item in entry.tail], ...)`. -/
def tailText (t : Tail Bytes) : PyStr := (Json.arr (t.toList.map fun b => .str (hex b))).dumps

/-- The row of a level. -/
def frontierRow (index : Nat) (level : Summary Bytes) : FrontierRow :=
  ⟨index, level.length, tailText level.tail⟩

/-- The rows of the levels from `index` on. -/
def frontierRows (index : Nat) : List (Summary Bytes) → List FrontierRow
  | [] => []
  | level :: levels => frontierRow index level :: frontierRows (index + 1) levels

theorem le_of_mem_frontierRows {index : Nat} {f : List (Summary Bytes)} {row : FrontierRow}
    (h : row ∈ frontierRows index f) : (index : Int) ≤ row.level := by
  induction f generalizing index with
  | nil => cases h
  | cons level levels ih =>
    rcases List.mem_cons.1 h with rfl | h
    · exact le_rfl
    · have := ih h
      push_cast at this
      omega

/-- The table of a frontier. -/
def frontierTable (f : List (Summary Bytes)) : Table FrontierRow.level where
  rows := frontierRows 0 f
  sorted := by
    generalize 0 = index
    induction f generalizing index with
    | nil => exact .nil
    | cons level levels ih =>
      refine List.pairwise_cons.2 ⟨fun row hr => ?_, ih (index + 1)⟩
      have := le_of_mem_frontierRows hr
      push_cast at this
      change (index : Int) < row.level
      omega

/-- A level of hashes with no more nodes in its tail than in it. -/
def IsLevel (m : Summary Bytes) : Prop :=
  m.tail.toList.length ≤ m.length ∧ ∀ b ∈ m.tail.toList, b.length = 32

variable {P}

theorem pyLoads_tailText (t : Tail Bytes) :
    pyLoads P (tailText t) = .ok (.arr (t.toList.map fun b => .str (hex b))) := by
  have hn := P.nesting_lt
  have hd : (Json.arr (t.toList.map fun b => Json.str (hex b))).depth = 1 := by
    cases t <;> rfl
  have hf : intsFit (Json.arr (t.toList.map fun b => Json.str (hex b))) = true := by
    cases t <;> rfl
  have every {p : Json → Prop} (ha : ∀ items, p (.arr items)) (hs : ∀ s, p (.str s)) :
      (Json.arr (t.toList.map fun b => Json.str (hex b))).Every p := by
    refine Json.every_arr.2 ⟨ha _, fun v hv => ?_⟩
    obtain ⟨b, -, rfl⟩ := List.mem_map.1 hv
    exact hs _
  refine pyLoads_jsonDumps ?_ (every (fun _ => trivial) fun _ => trivial)
    (every (fun _ => trivial) fun _ => trivial)
  rw [jsonDumps, if_neg (by omega), if_pos hf]
  rfl

/-- A level is read back from its row. -/
theorem loadLevel_frontierRow {index : Nat} {m : Summary Bytes} (h : IsLevel m) :
    loadLevel P index (frontierRow index m) = .ok m := by
  obtain ⟨n, t⟩ := m
  obtain ⟨hlen, ht⟩ := h
  have hx (b : Bytes) (hb : b ∈ t.toList) : hex256 (hex b) = true := hex256_hex (ht b hb)
  rw [loadLevel, frontierRow, if_neg (not_not.2 rfl), pyLoads_tailText]
  cases t with
  | one a =>
    have ha := hx a (by simp [Tail.toList])
    have hn : ¬((n : Int) < 1 ∨ (n : Int) < (Tail.one (hex a)).toList.length) := by
      simp only [Tail.toList, List.length_singleton] at hlen ⊢
      omega
    simp only [Tail.toList, List.map_cons, List.map_nil, tailHex, ha, if_true, tailBytes,
      bytesFromHex_hex, Int.toNat_natCast]
    exact if_neg hn
  | two a b =>
    have ha := hx a (by simp [Tail.toList])
    have hb := hx b (by simp [Tail.toList])
    have hn : ¬((n : Int) < 1 ∨ (n : Int) < (Tail.two (hex a) (hex b)).toList.length) := by
      simp only [Tail.toList, List.length_cons, List.length_nil] at hlen ⊢
      omega
    simp only [Tail.toList, List.map_cons, List.map_nil, tailHex, ha, hb, Bool.and_self, if_true,
      tailBytes, bytesFromHex_hex, Int.toNat_natCast]
    exact if_neg hn

/-- The tails that are read are those of hashes. -/
theorem exists_tailBytes {v : Json} {t : Tail PyStr} (h : tailHex v = some t) :
    ∃ u, tailBytes t = .ok u ∧ u.toList.length = t.toList.length ∧ ∀ b ∈ u.toList, b.length = 32 := by
  unfold tailHex at h
  split at h
  · split_ifs at h with ha
    obtain rfl := Option.some.inj h
    obtain ⟨x, rfl, hx⟩ := exists_of_hex256 ha
    exact ⟨.one x, by rw [tailBytes, bytesFromHex_hex]; rfl, rfl, List.forall_mem_singleton.2 hx⟩
  · split_ifs at h with hab
    obtain rfl := Option.some.inj h
    obtain ⟨ha, hb⟩ := Bool.and_eq_true_iff.1 hab
    obtain ⟨x, rfl, hx⟩ := exists_of_hex256 ha
    obtain ⟨y, rfl, hy⟩ := exists_of_hex256 hb
    refine ⟨.two x y, by rw [tailBytes, bytesFromHex_hex, bytesFromHex_hex]; rfl, rfl, ?_⟩
    exact List.forall_mem_cons.2 ⟨hx, List.forall_mem_singleton.2 hy⟩
  · cases h

/-- A level that is read stands at its place, with the length its row says. -/
theorem loadLevel_eq_ok {index : Nat} {row : FrontierRow} {m : Summary Bytes}
    (h : loadLevel P index row = .ok m) :
    row.level = index ∧ row.len = m.length ∧ 1 ≤ m.length ∧ IsLevel m := by
  unfold loadLevel at h
  split_ifs at h with hlevel
  split at h
  · cases h
  · cases h
  · split at h
    · cases h
    · rename_i tail htail
      split_ifs at h with hlen
      obtain ⟨u, hu, hcount, hbytes⟩ := exists_tailBytes htail
      rw [hu] at h
      obtain rfl := Except.ok.inj h
      rw [not_or, not_lt, not_lt] at hlen
      refine ⟨not_not.1 hlevel, by simp only; omega, by simp only; omega, ?_, hbytes⟩
      simp only [hcount]
      omega

/-- A row that is refused is refused as one of a frontier, unless its tail cannot be read. -/
theorem loadLevel_eq_error {index : Nat} {row : FrontierRow} {e : PyErr}
    (h : loadLevel P index row = .error e) :
    (∃ m, e = .storeIntegrityError m) ∨
      row.level = index ∧ pyLoads P row.tail = .error e ∧ e ≠ .jsonDecodeError := by
  unfold loadLevel at h
  split_ifs at h with hlevel
  · exact .inl ⟨_, (Except.error.inj h).symm⟩
  · split at h
    · exact .inl ⟨_, (Except.error.inj h).symm⟩
    · rename_i e' hne hloads
      obtain rfl := Except.error.inj h
      exact .inr ⟨not_not.1 hlevel, hloads, fun he => hne he⟩
    · split at h
      · exact .inl ⟨_, (Except.error.inj h).symm⟩
      · rename_i tail htail
        split_ifs at h
        · exact .inl ⟨_, (Except.error.inj h).symm⟩
        · obtain ⟨u, hu, -⟩ := exists_tailBytes htail
          rw [hu] at h
          cases h

/-- A frontier is read back from its rows. -/
theorem loadLevels_frontierRows {index : Nat} {f : List (Summary Bytes)} (h : ∀ m ∈ f, IsLevel m) :
    loadLevels P index (frontierRows index f) = .ok f := by
  induction f generalizing index with
  | nil => rfl
  | cons m f ih =>
    rw [frontierRows, loadLevels, loadLevel_frontierRow (h m List.mem_cons_self),
      ih fun n hn => h n (List.mem_cons_of_mem _ hn)]
    rfl

/-- The levels of a frontier of hashes. -/
theorem IsFrontier.isLevel {l : List Bytes} {f : List (Summary Bytes)}
    (hf : IsFrontier (merklePairHash P) l f) (hl : ∀ b ∈ l, b.length = 32) : ∀ m ∈ f, IsLevel m := by
  have tail {s : List Bytes} {m : Summary Bytes} (hs : ∀ b ∈ s, b.length = 32)
      (hm : Summarizes s m) : IsLevel m := by
    obtain ⟨n, t⟩ := m
    have hn : n = s.length := hm.length
    have ht : IsTail s t := hm.tail
    subst hn
    cases ht with
    | one b => exact ⟨le_rfl, by simpa [Tail.toList] using hs⟩
    | two s a b => exact ⟨by simp [Tail.toList], by simpa [Tail.toList] using
        ⟨hs a (by simp), hs b (by simp)⟩⟩
  have next {s : List Bytes} (hs : ∀ b ∈ s, b.length = 32) :
      ∀ b ∈ nextLevel (merklePairHash P) s, b.length = 32 := by
    fun_induction nextLevel (merklePairHash P) s with
    | case1 => exact List.forall_mem_nil _
    | case2 a => exact List.forall_mem_cons.2 ⟨P.sha256_length _, List.forall_mem_nil _⟩
    | case3 a b s ih =>
      exact List.forall_mem_cons.2 ⟨P.sha256_length _,
        ih fun c hc => hs c (List.mem_cons_of_mem _ (List.mem_cons_of_mem _ hc))⟩
  have all {s : List Bytes} (hs : ∀ b ∈ s, b.length = 32) :
      ∀ t ∈ levels (merklePairHash P) s, ∀ b ∈ t, b.length = 32 := by
    induction s using levels_induction (merklePairHash P) with
    | one s h =>
      rw [levels_of_length_le _ h]
      exact List.forall_mem_cons.2 ⟨hs, List.forall_mem_nil _⟩
    | more s h ih =>
      rw [levels_of_length_lt _ h]
      exact List.forall_mem_cons.2 ⟨hs, ih (next hs)⟩
  by_cases hnil : l = []
  · subst hnil
    rw [isFrontier_nil.1 hf]
    exact List.forall_mem_nil _
  · have hall := all hl
    rw [IsFrontier, if_neg hnil] at hf
    generalize levels (merklePairHash P) l = ls at hf hall
    induction hf with
    | nil => exact List.forall_mem_nil _
    | cons hm _ ih =>
      exact List.forall_mem_cons.2 ⟨tail (hall _ List.mem_cons_self) hm,
        ih fun t ht => hall t (List.mem_cons_of_mem _ ht)⟩

end SkillRegistry
