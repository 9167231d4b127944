import SkillRegistry.Ledger
import SkillRegistry.Links

/-!
# The anchors of an append

Before an append the frontier is compared with the log and its last boundary: the length and
the tail of its first level, one link between each two levels, and its last node. On a log
whose boundaries are those of its prefixes these checks are decided by the frontier alone.

* `Checks` says of a program that it passes when a condition holds, and fails for good when it
  does not;
* `Anchored` is what the checks of an append establish of a frontier;
* `checks_validateAppendAnchors`: they pass just when it holds.
-/

namespace SkillRegistry

open Wire Merkle

variable {P : Platform}

namespace StoreTx

theorem runs_ofExcept {α : Type} {x : Except PyErr α} {a : α} (h : x = .ok a) (db : Db) :
    Tx.Runs db (ofExcept x) a db :=
  Tx.runs_lift (by rw [h]; rfl) db

theorem runs_require {c : Prop} [Decidable c] (h : c) (error : String) (db : Db) :
    Tx.Runs db (require c error) () db := by
  rw [require, if_pos h]
  exact Tx.runs_pure () db

/-! ## Programs that check -/

/-- What `_fail_append_locked` raises. -/
def latched (m : String) : Abort := ⟨.storeIntegrityError m, some m, false⟩

/-- The program passes on `db` when `c` holds, and fails for good when it does not. -/
structure Checks (db : Db) (x : StoreTx Unit) (c : Prop) : Prop where
  passes : c → Tx.Runs db x () db
  refuses : ¬c → ∃ m, Tx.Fails db x (latched m)

variable {db : Db} {c d : Prop}

theorem checks_pure (h : c) : Checks db (pure ()) c :=
  ⟨fun _ => Tx.runs_pure () db, fun hc => absurd h hc⟩

theorem checks_fail (h : ¬c) (m : String) : Checks db (failAppend m) c :=
  ⟨fun hc => absurd hc h, fun _ => ⟨m, Tx.fails_fail _ db⟩⟩

theorem checks_require (c : Prop) [Decidable c] (m : String) : Checks db (require c m) c where
  passes h := runs_require h m db
  refuses h := ⟨m, by
    rw [require, if_neg h]
    exact Tx.fails_fail _ db⟩

theorem Checks.congr {x : StoreTx Unit} (h : Checks db x c) (hcd : c ↔ d) : Checks db x d :=
  ⟨fun hd => h.passes (hcd.2 hd), fun hd => h.refuses (mt hcd.1 hd)⟩

/-- Two checks one after the other; the second may rely on the first. -/
theorem Checks.bind {x : StoreTx Unit} {y : Unit → StoreTx Unit} (hx : Checks db x c)
    (hy : c → Checks db (y ()) d) : Checks db (x >>= y) (c ∧ d) where
  passes h := (hx.passes h.1).bind ((hy h.1).passes h.2)
  refuses h := by
    by_cases hc : c
    · obtain ⟨m, hm⟩ := (hy hc).refuses fun hd => h ⟨hc, hd⟩
      exact ⟨m, (hx.passes hc).fails hm⟩
    · obtain ⟨m, hm⟩ := hx.refuses hc
      exact ⟨m, hm.bind y⟩

/-- A check after something is read. -/
theorem Checks.after {α : Type} {x : StoreTx α} {a : α} {f : α → StoreTx Unit}
    (hx : Tx.Runs db x a db) (hf : Checks db (f a) c) : Checks db (x >>= f) c where
  passes h := hx.bind (hf.passes h)
  refuses h := (hf.refuses h).imp fun _ hm => hx.fails hm

/-! ## The checks of the levels -/

/-- The last hashes of the log are those of its last two leaves. -/
theorem bytesFromHex_entryHash {bodies : List Bytes} (hlog : IsLog P 1 genesis db.log.rows bodies)
    {row : LogRow} (hr : row ∈ db.log.rows) : bytesFromHex row.entryHash = .ok row.leaf := by
  rw [← (hlog.leaf_spec row hr).1, bytesFromHex_hex]

theorem Db.headHash_of_concat {rows : List LogRow} {row : LogRow}
    (h : db.log.rows = rows ++ [row]) : db.headHash = row.entryHash := by
  rw [Db.headHash, Table.last?, h, List.getLast?_concat]
  rfl

/-- The last leaves of the frontier are compared with the last entries of the log. -/
theorem checks_validateLeaves {bodies : List Bytes}
    (hlog : IsLog P 1 genesis db.log.rows bodies) (hne : db.log.rows ≠ []) (first : Summary Bytes)
    (rest : List (Summary Bytes)) :
    Checks db (validateLeaves db.log.rows.length db.headHash (first :: rest))
      (IsTail (db.log.rows.map LogRow.leaf) first.tail) := by
  obtain ⟨t, ht⟩ := exists_isTail (mt List.map_eq_nil_iff.1 hne)
  have htail : first.tail = t ↔ IsTail (db.log.rows.map LogRow.leaf) first.tail :=
    ⟨fun h => h ▸ ht, fun h => h.unique ht⟩
  refine Checks.congr ?_ htail
  generalize hl : db.log.rows.map LogRow.leaf = l at ht
  cases ht with
  | one b =>
    obtain ⟨row, hrow, rfl⟩ := List.map_eq_singleton_iff.1 hl
    have hone : ((db.log.rows.length : Nat) : Int) = 1 := by rw [hrow]; rfl
    have hlast : bytesFromHex db.headHash = .ok row.leaf := by
      rw [Db.headHash_of_concat (hrow.trans (List.nil_append [row]).symm)]
      exact bytesFromHex_entryHash hlog (hrow ▸ List.mem_singleton_self _)
    rw [validateLeaves, if_pos hone]
    obtain ⟨n, u⟩ := first
    cases u with
    | one leaf =>
      refine .after (runs_ofExcept hlast db) ((checks_require _ _).congr ?_)
      exact ⟨congrArg Tail.one, Tail.one.inj⟩
    | two x y => exact checks_fail (fun h => by cases h) _
  | two s a b =>
    obtain ⟨rows, last, hrows, -, hlast⟩ := List.map_eq_append_iff.1 hl
    obtain ⟨x, y, rfl⟩ : ∃ x y, last = [x, y] :=
      List.length_eq_two.1 (by rw [← List.length_map, hlast]; rfl)
    obtain ⟨rfl, hy⟩ := List.cons_eq_cons.1 hlast
    obtain ⟨rfl, -⟩ := List.cons_eq_cons.1 hy
    have hlen : db.log.rows.length = rows.length + 2 := by
      rw [hrows, List.length_append]
      rfl
    have hsecond : db.log.find? ((db.log.rows.length : Nat) - 1) = some x := by
      have hi : ((db.log.rows.length : Nat) : Int) - 1 = (rows.length : Nat) + 1 := by omega
      rw [hi, (numbered_log hlog).find?, hrows, List.getElem?_append_right le_rfl, Nat.sub_self]
      rfl
    have hend : bytesFromHex db.headHash = .ok y.leaf := by
      rw [Db.headHash_of_concat (show db.log.rows = (rows ++ [x]) ++ [y] by
        rw [hrows, List.append_assoc]
        rfl)]
      exact bytesFromHex_entryHash hlog (hrows ▸ by simp)
    rw [validateLeaves, if_neg (by omega)]
    refine .after (Tx.runs_select _ db) ?_
    rw [hsecond]
    exact .after (runs_ofExcept (bytesFromHex_entryHash hlog (hrows ▸ by simp)) db)
      (.after (runs_ofExcept hend db) (checks_require _ _))

/-- Each level is compared with the one below it. -/
theorem checks_validateLinks {f : List (Summary Bytes)} (hf : ∀ m ∈ f, 1 ≤ m.length) :
    Checks db (validateLinks P f) (Linked (merklePairHash P) f) := by
  induction f with
  | nil => exact checks_pure .nil
  | cons lower f ih =>
    cases f with
    | nil => exact checks_pure (.one lower)
    | cons upper rest =>
      obtain ⟨hlower, hrest⟩ := List.forall_mem_cons.1 hf
      rw [validateLinks]
      by_cases hcomplete : ¬(2 ≤ lower.length ∧ lower.tail.before = none)
      · have hc : Complete lower := fun heven => by
          rw [Option.isSome_iff_ne_none]
          exact fun hb => hcomplete ⟨by omega, hb⟩
        obtain ⟨v, hv⟩ := hc.lastParent (merklePairHash P)
        refine ((checks_require _ _).bind fun _ => .after (runs_ofExcept hv db)
          ((checks_require _ _).bind fun _ => ih hrest)).congr ?_
        constructor
        · rintro ⟨-, rfl, habove⟩
          exact .link hcomplete hv habove
        · rintro (_ | _ | ⟨-, parent, habove⟩)
          exact ⟨hcomplete, (Except.ok.inj (hv.symm.trans parent)).symm, habove⟩
      · refine ((checks_require _ _).bind (d := False) fun hc => absurd hc hcomplete).congr ?_
        constructor
        · exact fun h => h.2.elim
        · rintro (_ | _ | ⟨complete, -, -⟩)
          exact absurd complete hcomplete

end StoreTx

/-! ## The checks of an append -/

/-- A frontier that is read has no empty level. -/
theorem loadLevels_pos {rows : List FrontierRow} {index : Nat} {f : List (Summary Bytes)}
    (h : loadLevels P index rows = .ok f) : ∀ m ∈ f, 1 ≤ m.length := by
  induction rows generalizing index f with
  | nil =>
    obtain rfl := Except.ok.inj h
    exact List.forall_mem_nil _
  | cons row rows ih =>
    obtain ⟨level, hlevel, h⟩ := Wire.Except.bind_eq_ok h
    obtain ⟨levels, hlevels, h⟩ := Wire.Except.bind_eq_ok h
    obtain rfl := Except.ok.inj h
    exact List.forall_mem_cons.2 ⟨(loadLevel_eq_ok hlevel).2.2.1, ih hlevels⟩

/-- What the checks of an append establish of a frontier: its first level is that of the
    leaves, its levels are linked, and its last node is the root. -/
inductive Anchored (P : Platform) : List Bytes → List (Summary Bytes) → Prop
  | nil : Anchored P [] []
  | cons {l : List Bytes} {first : Summary Bytes} {rest : List (Summary Bytes)} (ne : l ≠ [])
      (leaves : Summarizes l first) (linked : Linked (merklePairHash P) (first :: rest))
      (rooted : frontierLast (first :: rest) = root (merklePairHash P) l) :
      Anchored P l (first :: rest)

theorem anchored_nil {l : List Bytes} : Anchored P l [] ↔ l = [] := by
  constructor
  · rintro ⟨⟩
    rfl
  · rintro rfl
    exact .nil

theorem anchored_cons {l : List Bytes} {first : Summary Bytes} {rest : List (Summary Bytes)} :
    Anchored P l (first :: rest) ↔ l ≠ [] ∧ Summarizes l first ∧
      Linked (merklePairHash P) (first :: rest) ∧
      frontierLast (first :: rest) = root (merklePairHash P) l := by
  constructor
  · rintro (_ | ⟨ne, leaves, linked, rooted⟩)
    exact ⟨ne, leaves, linked, rooted⟩
  · rintro ⟨ne, leaves, linked, rooted⟩
    exact .cons ne leaves linked rooted

/-- The frontier of some leaves is anchored in them. -/
theorem IsFrontier.anchored {l : List Bytes} {f : List (Summary Bytes)}
    (hf : IsFrontier (merklePairHash P) l f) : Anchored P l f := by
  by_cases hl : l = []
  · subst hl
    rw [isFrontier_nil.1 hf]
    exact .nil
  · have hlevels := hf
    rw [IsFrontier, if_neg hl] at hlevels
    have hlinked := linked_levels hlevels
    have hlast := hf.last_eq
    rw [levels_eq] at hlevels
    obtain ⟨first, rest, hfirst, -, rfl⟩ := List.forall₂_cons_left_iff.1 hlevels
    exact .cons hl hfirst hlinked hlast

/-- So is a forged one. -/
theorem Forges.anchored {l : List Bytes} {f : List (Summary Bytes)}
    (hf : Forges (merklePairHash P) l f) : Anchored P l f := by
  obtain ⟨first, rest, rfl, hfirst, hlinked, hroot⟩ := hf.checks
  exact .cons hfirst.tail.ne_nil hfirst hlinked hroot

/-- On a log with its boundaries the anchors of a frontier are validated by the frontier
    alone. -/
theorem StoreTx.checks_validateAppendAnchors {db : Db} (hdb : Chained P db) {f : List (Summary Bytes)}
    (hf : ∀ m ∈ f, 1 ≤ m.length) :
    Checks db (validateAppendAnchors P db.size db.headHash f)
      (Anchored P (db.log.rows.map LogRow.leaf) f) := by
  obtain ⟨bodies, hlog⟩ := hdb.log
  have hsize : db.size = db.log.rows.length := hdb.size_eq
  rw [validateAppendAnchors]
  by_cases hnil : db.log.rows = []
  · have hzero : db.size = 0 := by rw [hsize, hnil]; rfl
    rw [if_pos hzero]
    refine ((checks_require _ _).bind fun _ => checks_require _ _).congr ?_
    rw [hnil, List.map_nil]
    constructor
    · rintro ⟨-, rfl⟩
      exact .nil
    · rintro (_ | ⟨hne, -, -, -⟩)
      · exact ⟨hzero.symm, rfl⟩
      · exact absurd rfl hne
  · obtain ⟨rows, row, hrows⟩ := (List.eq_nil_or_concat _).resolve_left hnil
    rw [List.concat_eq_append] at hrows
    have hlen : db.log.rows.length = rows.length + 1 := by
      rw [hrows, List.length_append, List.length_singleton]
    have hlast : db.log.rows[rows.length]? = some row := by
      rw [hrows, List.getElem?_concat_length]
    have hboundary := hdb.find?_boundary hlast
    rw [List.take_of_length_le hlen.le] at hboundary
    have hl : db.log.rows.map LogRow.leaf ≠ [] := mt List.map_eq_nil_iff.1 hnil
    obtain ⟨r, hr⟩ := Option.isSome_iff_exists.1 (root_isSome (merklePairHash P) hl)
    have hhex : merkleRootOf P (db.log.rows.map LogRow.leaf) = hex r := by rw [merkleRootOf, hr]
    rw [if_neg (by omega), validateAnchors]
    cases f with
    | nil =>
      refine ((checks_require _ _).bind (d := False) fun h => ?_).congr ?_
      · change ((0 : Nat) : Int) = db.size at h
        omega
      · exact ⟨fun h => h.2.elim, fun h => absurd (anchored_nil.1 h) hl⟩
    | cons first rest =>
      obtain ⟨v, hv⟩ : ∃ v, frontierLast (first :: rest) = some v := by
        rw [frontierLast, List.getLast?_eq_getLast_of_ne_nil (List.cons_ne_nil _ _)]
        exact ⟨_, rfl⟩
      have hroot : frontierRoot (first :: rest) = .ok v := by rw [frontierRoot, hv]
      have hanchors : Checks db (validateLeaves db.size db.headHash (first :: rest) >>= fun _ =>
          validateLinks P (first :: rest) >>= fun _ => ofExcept (frontierRoot (first :: rest)) >>=
            fun root => require (hex root = merkleRootOf P (db.log.rows.map LogRow.leaf))
              "merkle frontier disagrees with the committed log")
          (IsTail (db.log.rows.map LogRow.leaf) first.tail ∧
            Linked (merklePairHash P) (first :: rest) ∧ hex v = hex r) := by
        rw [hsize, hhex]
        exact (checks_validateLeaves hlog hnil first rest).bind fun _ =>
          (checks_validateLinks hf).bind fun _ => .after (runs_ofExcept hroot db) (checks_require _ _)
      have hfind : db.boundaries.find? db.size = some ⟨db.size, row.entryHash,
          merkleRootOf P (db.log.rows.map LogRow.leaf), row.createdAt⟩ := by
        rw [hsize, hlen, Nat.cast_succ]
        exact hboundary
      refine Checks.congr (c := ((first.length : Nat) : Int) = db.size ∧
          row.entryHash = db.headHash ∧ IsTail (db.log.rows.map LogRow.leaf) first.tail ∧
            Linked (merklePairHash P) (first :: rest) ∧ hex v = hex r)
        ((checks_require _ _).bind fun _ => .after (Tx.runs_select _ db) ?_) ?_
      · rw [hfind]
        exact (checks_require _ _).bind fun _ => hanchors
      · constructor
        · rintro ⟨hfirst, -, htail, hlinked, hv'⟩
          refine .cons hl ⟨?_, htail⟩ hlinked ?_
          · rw [List.length_map]
            omega
          · rw [hv, hr, hex_injective hv']
        · rw [anchored_cons]
          rintro ⟨-, hfirst, hlinked, hlast⟩
          refine ⟨?_, ?_, hfirst.tail, hlinked, ?_⟩
          · rw [hfirst.length, List.length_map, hsize]
          · rw [Db.headHash_of_concat hrows]
          · rw [Option.some.inj (hv.symm.trans (hlast.trans hr))]

end SkillRegistry
