import SkillRegistry.Store.Verify
import SkillRegistry.Structure.Firsts

/-!
# What a growing log keeps verified

* `Verified.grow`: a database that only added rows is verified when the rows that it
  added are;
* `Imports.records_eq`: an import takes the first record of each fingerprint that was not
  imported before, and `Imports.mem_imported` says which fingerprints it adds.
-/

namespace SkillRegistry

open Wire Firsts

variable {P : Platform}

/-! ## Verification -/

variable (P) in
/-- A submission that the verification accepts. -/
def SubmissionSound (db : Db) (row : IdempotencyRow) : Prop :=
  (∃ entry, db.log.find? row.seq = some entry) ∧
    ∃ response, loadsOrNone P row.responseJson = .ok response ∧
      submissionConsistent P db row response = true

variable (P) in
/-- An import that the verification accepts. -/
def ImportSound (db : Db) (row : ImportedRow) : Prop :=
  ∃ seq entry record, row.seq = some seq ∧ db.log.find? seq = some entry ∧
    loadsOrNone P entry.recordJson = .ok record ∧
    importFingerprint P record = .ok (some row.fingerprint)

section Mono

variable {db db' : Db} (hlog : db.log.rows <+: db'.log.rows)
include hlog

theorem SubmissionSound.mono {row : IdempotencyRow} (h : SubmissionSound P db row) :
    SubmissionSound P db' row := by
  obtain ⟨⟨entry, he⟩, response, hr, hc⟩ := h
  have he' := Table.find?_mono hlog.subset he
  refine ⟨⟨entry, he'⟩, response, hr, ?_⟩
  rw [← hc]
  simp only [submissionConsistent, he, he']

theorem ImportSound.mono {row : ImportedRow} (h : ImportSound P db row) : ImportSound P db' row := by
  obtain ⟨seq, entry, record, hseq, he, hr, hf⟩ := h
  exact ⟨seq, entry, record, hseq, Table.find?_mono hlog.subset he, hr, hf⟩

/-- A database that only added rows is verified when these are. -/
theorem Verified.grow (h : Verified P db) (hchain : ∃ bodies, IsLog P 1 genesis db'.log.rows bodies)
    (htimely : ∀ row ∈ db'.log.rows, row ∈ db.log.rows ∨ isTimestamp row.createdAt = true)
    (hmetadata : db'.metadata = db.metadata)
    (hsubmissions : ∀ row ∈ db'.idempotency.rows,
      row ∈ db.idempotency.rows ∨ SubmissionSound P db' row)
    (himports : ∀ row ∈ db'.imported.rows, row ∈ db.imported.rows ∨ ImportSound P db' row)
    (hhighWater : ∀ row ∈ db'.highWater.rows, row ∈ db.highWater.rows ∨ row.wellFormed = true) :
    Verified P db' where
  created := by rw [Db.metadataValue, hmetadata]; exact h.created
  schema := by rw [Db.metadataValue, hmetadata]; exact h.schema
  log := hchain
  timely row hr := (htimely row hr).elim (h.timely row) id
  submissions row hr := (hsubmissions row hr).elim
    (fun hr => SubmissionSound.mono hlog (h.submissions row hr)) id
  imports row hr := (himports row hr).elim (fun hr => ImportSound.mono hlog (h.imports row hr)) id
  highWater row hr := (hhighWater row hr).elim (h.highWater row) id

end Mono

/-! ## Imports -/

/-- The fingerprints that were imported. -/
def Db.fingerprints (db : Db) : List PyStr := db.imported.rows.map (·.fingerprint)

theorem Db.mem_fingerprints {db : Db} {f : PyStr} :
    f ∈ db.fingerprints ↔ (db.imported.find? f).isSome := by
  rw [Db.fingerprints, List.mem_map]
  constructor
  · rintro ⟨row, hr, rfl⟩
    rw [Table.mem_rows.1 hr]
    rfl
  · intro h
    obtain ⟨row, hr⟩ := Option.isSome_iff_exists.1 h
    exact ⟨row, Table.find?_eq_some.1 hr⟩

theorem Appended.imported_eq {db db' : Db} {record : Dict} {createdAt : PyStr} {body root : Bytes}
    {frontier : List (Merkle.Summary Bytes)} {entry : LogEntry}
    (h : Appended P db record createdAt body frontier root entry db') : db'.imported = db.imported := by
  rw [h.result]

theorem Appended.mem_fingerprints {db db' : Db} {record : Dict} {createdAt : PyStr}
    {body root : Bytes} {frontier : List (Merkle.Summary Bytes)} {entry : LogEntry}
    (h : Appended P db record createdAt body frontier root entry db') (fingerprint f : PyStr) :
    f ∈ (db'.markImported fingerprint createdAt entry).fingerprints ↔
      f ∈ fingerprint :: db.fingerprints := by
  rw [Db.mem_fingerprints, Db.markImported, Table.find?_put, h.imported_eq, List.mem_cons,
    Db.mem_fingerprints]
  split_ifs with hf
  · exact ⟨fun _ => .inl hf, fun _ => rfl⟩
  · exact (or_iff_right hf).symm

namespace Imports

variable {createdAt : PyStr} {records : List (PyStr × Dict)} {db db' : Db} {entries : List LogEntry}

/-- An import takes the first record of each fingerprint that was not imported before. -/
theorem records_eq (h : Imports P createdAt records db entries db') :
    entries.map (·.record) = (firsts Prod.fst db.fingerprints records).map Prod.snd := by
  induction h with
  | nil => rfl
  | @skip fingerprint record records db db' entries known _ ih =>
    rw [firsts, if_pos (Db.mem_fingerprints.2 known), ih]
  | @take fingerprint record records db db₁ db' body root frontier entry entries fresh appended _ ih =>
    have hfresh : fingerprint ∉ db.fingerprints := by
      rw [Db.mem_fingerprints, fresh]
      exact Bool.false_ne_true
    rw [firsts, if_neg hfresh, List.map_cons, List.map_cons, appended.recorded, ih,
      firsts_congr (appended.mem_fingerprints fingerprint)]

/-- The fingerprints that are known after an import. -/
theorem mem_fingerprints (h : Imports P createdAt records db entries db') (f : PyStr) :
    f ∈ db'.fingerprints ↔ f ∈ db.fingerprints ∨ f ∈ records.map Prod.fst := by
  induction h with
  | nil => rw [List.map_nil, or_iff_left List.not_mem_nil]
  | skip known _ ih =>
    rw [ih, List.map_cons, List.mem_cons]
    constructor
    · rintro (h | h)
      · exact .inl h
      · exact .inr (.inr h)
    · rintro (h | rfl | h)
      · exact .inl h
      · exact .inl (Db.mem_fingerprints.2 known)
      · exact .inr h
  | @take fingerprint _ _ _ _ _ _ _ _ _ _ _ appended _ ih =>
    rw [ih, appended.mem_fingerprints fingerprint, List.map_cons, List.mem_cons, List.mem_cons]
    exact or_assoc.trans or_left_comm

/-- The row of an import names the entry that was appended for it. -/
theorem mem_imported (h : Imports P createdAt records db entries db') (row : ImportedRow) :
    row ∈ db'.imported.rows ↔ row ∈ db.imported.rows ∨
      ∃ x ∈ (firsts Prod.fst db.fingerprints records).zip entries,
        row = ⟨x.1.1, createdAt, some x.2.seq⟩ := by
  induction h with
  | nil => simp [firsts]
  | @skip fingerprint record records db db' entries known _ ih =>
    rw [firsts, if_pos (Db.mem_fingerprints.2 known), ih]
  | @take fingerprint record records db db₁ db' body root frontier entry entries fresh appended _ ih =>
    have hfresh : fingerprint ∉ db.fingerprints := by
      rw [Db.mem_fingerprints, fresh]
      exact Bool.false_ne_true
    have hnew (row : ImportedRow) (hr : row ∈ db.imported.rows) : row.fingerprint ≠ fingerprint := by
      rintro rfl
      exact hfresh (List.mem_map_of_mem hr)
    rw [firsts_congr (appended.mem_fingerprints fingerprint)] at ih
    rw [firsts, if_neg hfresh, List.zip_cons_cons, ih, Db.markImported, Table.mem_put,
      appended.imported_eq, List.exists_mem_cons_iff]
    constructor
    · rintro ((rfl | ⟨hr, -⟩) | hr)
      · exact .inr (.inl rfl)
      · exact .inl hr
      · exact .inr (.inr hr)
    · rintro (hr | rfl | hr)
      · exact .inl (.inr ⟨hr, hnew row hr⟩)
      · exact .inl (.inl rfl)
      · exact .inr hr

/-- What an import takes, with the entry that it appended for it. -/
theorem exists_entry (h : Imports P createdAt records db entries db') {x : PyStr × Dict}
    (hx : x ∈ firsts Prod.fst db.fingerprints records) : ∃ entry ∈ entries, entry.record = x.2 ∧
      (⟨x.1, createdAt, some entry.seq⟩ : ImportedRow) ∈ db'.imported.rows := by
  obtain ⟨i, hi⟩ := List.mem_iff_getElem?.1 hx
  have hrecords := congrArg (·[i]?) h.records_eq
  simp only [List.getElem?_map, hi, Option.map_some] at hrecords
  obtain ⟨entry, hentry, hrecord⟩ := Option.map_eq_some_iff.1 hrecords
  refine ⟨entry, List.mem_of_getElem? hentry, hrecord, (h.mem_imported _).2 (.inr ⟨(x, entry), ?_, rfl⟩)⟩
  exact List.mem_of_getElem? (i := i) (List.getElem?_zip_eq_some.2 ⟨hi, hentry⟩)

/-- The rows that an import adds. -/
theorem imported_cases (h : Imports P createdAt records db entries db') {row : ImportedRow}
    (hr : row ∈ db'.imported.rows) : row ∈ db.imported.rows ∨
      ∃ x ∈ firsts Prod.fst db.fingerprints records, ∃ entry ∈ entries, entry.record = x.2 ∧
        row = ⟨x.1, createdAt, some entry.seq⟩ := by
  rcases (h.mem_imported row).1 hr with hr | ⟨⟨x, entry⟩, hx, rfl⟩
  · exact .inl hr
  obtain ⟨i, hi⟩ := List.mem_iff_getElem?.1 hx
  obtain ⟨hxi, hentry⟩ := List.getElem?_zip_eq_some.1 hi
  have hrecords := congrArg (·[i]?) h.records_eq
  simp only [List.getElem?_map, hxi, hentry, Option.map_some] at hrecords
  exact .inr ⟨x, List.mem_of_getElem? hxi, entry, List.mem_of_getElem? hentry,
    Option.some.inj hrecords, rfl⟩

end Imports

end SkillRegistry
