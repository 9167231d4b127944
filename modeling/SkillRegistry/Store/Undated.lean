import SkillRegistry.Store.Growth

/-!
# Databases up to dates

Two imports of the same records at different times leave databases that differ in the
dates of their rows only.

* `Db.undated`: a database without the dates of its rows;
* `Imports.undated_eq`: imports of the same records append the same entries, up to dates;
* `Imports.of_append`, `Imports.skip_all`: an import of a list is an import of its first
  part and one of the rest, and what was imported before is skipped.
-/

namespace SkillRegistry

open Wire Merkle

variable {P : Platform}

/-! ## Without dates -/

/-- A log row without its date. -/
def LogRow.undated (row : LogRow) : LogRow := { row with createdAt := [] }

theorem LogRow.seq_undated (row : LogRow) : row.undated.seq = row.seq := rfl

/-- A boundary without its date. -/
def BoundaryRow.undated (row : BoundaryRow) : BoundaryRow := { row with createdAt := [] }

theorem BoundaryRow.logSize_undated (row : BoundaryRow) : row.undated.logSize = row.logSize := rfl

/-- An imported record without its date. -/
def ImportedRow.undated (row : ImportedRow) : ImportedRow := { row with importedAt := [] }

theorem ImportedRow.fingerprint_undated (row : ImportedRow) :
    row.undated.fingerprint = row.fingerprint := rfl

/-- The body of a high-water mark: the mark without its date. -/
def UpstreamHighWater.undated (row : UpstreamHighWater) : UpstreamHighWater :=
  { row with updatedAt := [] }

theorem UpstreamHighWater.keyId_undated (row : UpstreamHighWater) :
    row.undated.keyId = row.keyId := rfl

namespace Db

/-- A database without the dates of its rows and without its high-water marks. -/
def unmarked (db : Db) : Db := { db with
  log := db.log.map LogRow.seq_undated
  boundaries := db.boundaries.map BoundaryRow.logSize_undated
  imported := db.imported.map ImportedRow.fingerprint_undated
  highWater := .empty }

/-- The bodies of the high-water marks of a database. -/
def marks (db : Db) : Table UpstreamHighWater.keyId :=
  db.highWater.map UpstreamHighWater.keyId_undated

/-- A database without the dates of its rows. -/
def undated (db : Db) : Db := { db.unmarked with highWater := db.marks }

theorem size_unmarked (db : Db) : db.unmarked.size = db.size := by
  rw [size, unmarked, Table.last?_map, Option.map_map]
  rfl

theorem headHash_unmarked (db : Db) : db.unmarked.headHash = db.headHash := by
  rw [headHash, unmarked, Table.last?_map, Option.map_map]
  rfl

theorem find?_unmarked (db : Db) (fingerprint : PyStr) :
    (db.unmarked.imported.find? fingerprint).isSome = (db.imported.find? fingerprint).isSome := by
  rw [unmarked, Table.find?_map, Option.isSome_map]

theorem unmarked_append (db : Db) (row : LogRow) (seq : Int) (f : List (Summary Bytes))
    (boundary : BoundaryRow) :
    unmarked { db with
      log := db.log.put row
      logSequence := seq
      frontier := frontierTable f
      boundaries := db.boundaries.put boundary } =
    { db.unmarked with
      log := db.unmarked.log.put row.undated
      logSequence := seq
      frontier := frontierTable f
      boundaries := db.unmarked.boundaries.put boundary.undated } := by
  simp only [unmarked, Table.map_put]

theorem unmarked_markImported (db : Db) (fingerprint createdAt : PyStr) (entry : LogEntry) :
    (db.markImported fingerprint createdAt entry).unmarked =
      { db.unmarked with
        imported := db.unmarked.imported.put ⟨fingerprint, [], some entry.seq⟩ } := by
  simp only [markImported, unmarked, Table.map_put]
  rfl

end Db

/-! ## Appends -/

/-- Appends of one record to databases that are equal up to dates and marks append the same
    entry, and leave databases that are. -/
theorem Appended.unmarked_eq {db db₁ db' db₁' : Db} {record : Dict} {createdAt createdAt' : PyStr}
    {body body' root root' : Bytes} {frontier frontier' : List (Summary Bytes)}
    {entry entry' : LogEntry} (h : Appended P db record createdAt body frontier root entry db₁)
    (h' : Appended P db' record createdAt' body' frontier' root' entry' db₁')
    (hsame : db.unmarked = db'.unmarked) : entry = entry' ∧ db₁.unmarked = db₁'.unmarked := by
  have hsize : db.size = db'.size := by
    rw [← db.size_unmarked, hsame, db'.size_unmarked]
  have hhead : db.headHash = db'.headHash := by
    rw [← db.headHash_unmarked, hsame, db'.headHash_unmarked]
  obtain rfl : body = body' := Except.ok.inj (h.checked.symm.trans h'.checked)
  have hentry : entry = entry' := by
    obtain ⟨seq, entryHash, prevHash, record'⟩ := entry
    obtain ⟨seq', entryHash', prevHash', record''⟩ := entry'
    obtain rfl : seq = seq' := by
      have hseq : seq = db.size + 1 := h.seq
      have hseq' : seq' = db'.size + 1 := h'.seq
      rw [hseq, hseq', hsize]
    obtain rfl : prevHash = prevHash' := h.prevHash.trans (hhead.trans h'.prevHash.symm)
    obtain rfl : record' = record'' := h.recorded.trans h'.recorded.symm
    have hhash := h'.hash
    rw [← hhead, h.hash] at hhash
    obtain rfl : entryHash = entryHash' := Except.ok.inj hhash
    rfl
  subst hentry
  refine ⟨rfl, ?_⟩
  obtain ⟨old, leaf, hload, hleaf, hclimb⟩ := h.climbed
  obtain ⟨old', leaf', hload', hleaf', hclimb'⟩ := h'.climbed
  have hfrontier : loadFrontier P db = loadFrontier P db' := by
    have heq : db.unmarked.frontier = db'.unmarked.frontier := by rw [hsame]
    exact congrArg (fun t : Table FrontierRow.level => loadLevels P 0 t.rows) heq
  obtain rfl := Except.ok.inj (hload.symm.trans (hfrontier.trans hload'))
  obtain rfl := Except.ok.inj (hleaf.symm.trans hleaf')
  obtain rfl := Except.ok.inj (hclimb.symm.trans hclimb')
  obtain rfl := Except.ok.inj (h.rooted.symm.trans h'.rooted)
  rw [h.result, h'.result, Db.unmarked_append, Db.unmarked_append, hsame]
  rfl

/-! ## Imports -/

namespace Imports

variable {createdAt createdAt' : PyStr} {records : List (PyStr × Dict)}

/-- Imports of the same records append the same entries, up to dates. -/
theorem unmarked_eq {db db₁ db' db₁' : Db} {entries entries' : List LogEntry}
    (h : Imports P createdAt records db entries db₁)
    (h' : Imports P createdAt' records db' entries' db₁') (hsame : db.unmarked = db'.unmarked) :
    entries = entries' ∧ db₁.unmarked = db₁'.unmarked := by
  have hknown {d d' : Db} (hd : d.unmarked = d'.unmarked) (fingerprint : PyStr) :
      (d.imported.find? fingerprint).isSome = (d'.imported.find? fingerprint).isSome := by
    rw [← d.find?_unmarked, hd, d'.find?_unmarked]
  induction h generalizing db' entries' with
  | nil db =>
    cases h'
    exact ⟨rfl, hsame⟩
  | @skip fingerprint record records db db₁ entries known rest ih =>
    cases h' with
    | skip _ rest' => exact ih rest' hsame
    | take fresh =>
      have := hknown hsame fingerprint
      rw [known, fresh] at this
      cases this
  | @take fingerprint record records db _ db₁ body root frontier entry entries fresh appended rest ih =>
    cases h' with
    | skip known =>
      have := hknown hsame fingerprint
      rw [known, fresh] at this
      cases this
    | take _ appended' rest' =>
      obtain ⟨rfl, hafter⟩ := appended.unmarked_eq appended' hsame
      obtain ⟨rfl, hrest⟩ := ih rest' (by
        rw [Db.unmarked_markImported, Db.unmarked_markImported, hafter])
      exact ⟨rfl, hrest⟩

/-- An import of a list imports its first part, and then the rest. -/
theorem of_append {more : List (PyStr × Dict)} {db db' : Db} {entries : List LogEntry}
    (h : Imports P createdAt (records ++ more) db entries db') :
    ∃ before after db₁, entries = before ++ after ∧ Imports P createdAt records db before db₁ ∧
      Imports P createdAt more db₁ after db' := by
  induction records generalizing db entries with
  | nil => exact ⟨[], entries, db, rfl, .nil db, h⟩
  | cons x records ih =>
    cases h with
    | skip known rest =>
      obtain ⟨before, after, db₁, rfl, hbefore, hafter⟩ := ih rest
      exact ⟨before, after, db₁, rfl, .skip known hbefore, hafter⟩
    | @take _ _ _ _ _ _ _ _ _ entry entries fresh appended rest =>
      obtain ⟨before, after, db₁, rfl, hbefore, hafter⟩ := ih rest
      exact ⟨entry :: before, after, db₁, rfl, .take fresh appended hbefore, hafter⟩

/-- What was imported before is skipped. -/
theorem skip_all {more : List (PyStr × Dict)} {db db' : Db} {entries : List LogEntry}
    (hknown : ∀ x ∈ records, x.1 ∈ db.fingerprints) (h : Imports P createdAt more db entries db') :
    Imports P createdAt (records ++ more) db entries db' := by
  induction records with
  | nil => exact h
  | cons x records ih =>
    obtain ⟨hx, hrest⟩ := List.forall_mem_cons.1 hknown
    exact .skip (Db.mem_fingerprints.1 hx) (ih hrest)

end Imports

end SkillRegistry
