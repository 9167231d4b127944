import SkillRegistry.Ledger

/-!
# Verifying the store

The full verification of a database, at startup and by the background verifier: the
chain walk, the ledgers that refer to it, and the caches computed from it.

* `integrityErrors` is `_integrity_errors_on`; `Verified` is what it checks, and
  `integrityErrors_eq_nil` says that no error is reported exactly then;
* `ensureBoundaries` is the startup check of the caches, with its backfill;
* `boundaryCacheErrors` is the read-only counterpart, and `Store.refreshHealthVerdict`
  the pass that publishes a verdict.
-/

namespace SkillRegistry

open Wire Merkle

variable (P : Platform)

/-! ## Times -/

/-- The days of a month. -/
def daysInMonth (year month : Nat) : Nat :=
  if month = 2 then
    if year % 4 = 0 ∧ (year % 100 ≠ 0 ∨ year % 400 = 0) then 29 else 28
  else if month = 4 ∨ month = 6 ∨ month = 9 ∨ month = 11 then 30
  else 31

/-- `_timestamp`: a time of a calendar day, in the form `isoformat` writes. -/
def isTimestamp (value : PyStr) : Bool :=
  let field (start length : Nat) := ofDecimal ((value.drop start).take length)
  isTimestampForm value && 1 ≤ field 0 4 && 1 ≤ field 5 2 && field 5 2 ≤ 12 && 1 ≤ field 8 2 &&
    field 8 2 ≤ daysInMonth (field 0 4) (field 5 2) && field 11 2 < 24 && field 14 2 < 60 &&
    field 17 2 < 60

/-- A time `utc_now` returns. -/
structure Timestamp where
  text : PyStr
  valid : isTimestamp text = true

/-! ## Import fingerprints -/

/-- The string in a field, unless it is empty. -/
def nonEmptyStr : Option Json → Option PyStr
  | some (.str (c :: s)) => some (c :: s)
  | _ => none

/-- The signature of the first `upstream-import` endorsement that has one. -/
def upstreamSignature : List Json → Option PyStr
  | [] => none
  | .obj endorsement :: endorsements =>
    if Dict.get? endorsement (py "endorser") = some (.str (py "upstream-import")) then
      match Dict.get? endorsement (py "sig") with
      | some (.obj envelope) =>
        match Dict.get? envelope (py "signature") with
        | some (.str signature) => some signature
        | _ => upstreamSignature endorsements
      | _ => upstreamSignature endorsements
    else upstreamSignature endorsements
  | _ :: endorsements => upstreamSignature endorsements

/-- The SHA-256 of a list of strings, as JSON. -/
def fingerprintOf (fields : List PyStr) : Except PyErr PyStr :=
  match encodeUtf8 (Json.arr (fields.map .str)).dumps with
  | some payload => .ok (hex (P.sha256 payload))
  | none => .error .unicodeEncodeError

/-- `_import_fingerprint`. -/
def importFingerprint (record : Json) : Except PyErr (Option PyStr) :=
  match record with
  | .obj record =>
    match Dict.get? record (py "endorsements") with
    | some (.arr endorsements) =>
      match nonEmptyStr (Dict.get? record (py "source_identity")),
          nonEmptyStr (Dict.get? record (py "commit")),
          nonEmptyStr (Dict.get? record (py "content_sha256")),
          nonEmptyStr (Dict.get? record (py "status")),
          nonEmptyStr ((upstreamSignature endorsements).map .str) with
      | some sourceIdentity, some commit, some contentSha256, some status, some signature =>
        (fingerprintOf P [sourceIdentity, commit, contentSha256, status, signature]).map some
      | _, _, _, _, _ => .ok none
    | _ => .ok none
  | _ => .ok none

/-! ## Integrity -/

/-- A message, when a condition holds. -/
def flag (c : Prop) [Decidable c] (message : String) : List String := if c then [message] else []

/-- `_SCHEMA_VERSION`, as the metadata has it. -/
def schemaVersion : PyStr := py "4"

/-- The columns of a row that repeat a field of its record. -/
def LogRow.repeated (row : LogRow) : List (String × PyStr × PyStr) :=
  [("name", py "name", row.name), ("source_identity", py "source_identity", row.sourceIdentity),
    ("commit_hash", py "commit", row.commitHash),
    ("content_sha256", py "content_sha256", row.contentSha256), ("status", py "status", row.status)]

/-- The errors of a row against its record and the hash before it. -/
def rowErrors (previous : PyStr) (row : LogRow) (record : Dict) (encoded : Bytes) :
    Except PyErr (List String) := do
  let expectedHash ← entryHash P previous encoded
  .ok (flag (row.prevHash ≠ previous) s!"log sequence {row.seq} has wrong previous hash" ++
    flag (row.entryHash ≠ expectedHash) s!"log sequence {row.seq} has wrong entry hash" ++
    flag (¬isTimestamp row.createdAt) s!"log sequence {row.seq} has malformed creation time" ++
    row.repeated.flatMap fun c => flag (record.get? c.2.1 ≠ some (.str c.2.2))
      s!"log sequence {row.seq} has inconsistent {c.1}")

/-- The errors of a row. -/
def walkRow (previous : PyStr) (row : LogRow) : Except PyErr (List String) :=
  match parseStored P row.recordJson with
  | .ok (record, encoded) => rowErrors P previous row record encoded
  | .error e =>
    if e.isValueError ∨ e = .typeError then
      (rowErrors P previous row [] []).map
        (s!"log sequence {row.seq} has invalid record JSON: {e.message}" :: ·)
    else .error e

/-- The chain walk. -/
def walk (expectedSeq : Int) (previous : PyStr) : List LogRow → Except PyErr (List String)
  | [] => .ok []
  | row :: rows => do
    let errors ← walkRow P previous row
    let rest ← walk (row.seq + 1) row.entryHash rows
    .ok (flag (row.seq ≠ expectedSeq) s!"log sequence {row.seq} follows {expectedSeq - 1}" ++
      errors ++ rest)

/-- `json.loads`, `None` on a text that is not JSON. -/
def loadsOrNone (t : PyStr) : Except PyErr Json :=
  match pyLoads P t with
  | .error .jsonDecodeError => .ok .null
  | x => x

/-- A submission agrees with the log. -/
def submissionConsistent (db : Db) (row : IdempotencyRow) (response : Json) : Bool :=
  -- every row of the log was walked, so a look-up finds what the walk collected
  let expected := match db.log.find? row.seq with
    | some entry => Json.str entry.entryHash
    | none => .null
  match response with
  | .obj response =>
    row.auditorId ≠ [] && 1 ≤ row.key.length && row.key.length ≤ 256 &&
      row.key.all (fun c => 0x21 ≤ c.val && c.val ≤ 0x7E) &&
      Dict.keys response = [py "entry_hash", py "seq"] &&
      pyEqInt P ((Dict.get? response (py "seq")).getD .null) row.seq &&
      Dict.get? response (py "entry_hash") = some expected && hex256 row.bodySha256
  | _ => false

/-- The errors of a submission. -/
def submissionErrors (db : Db) (row : IdempotencyRow) : Except PyErr (List String) := do
  let response ← loadsOrNone P row.responseJson
  .ok (flag (¬submissionConsistent P db row response)
    s!"idempotency entry {pyRepr row.auditorId}/{pyRepr row.key} is inconsistent")

/-- The errors of an imported record. -/
def importErrors (db : Db) (row : ImportedRow) : Except PyErr (List String) :=
  match row.seq with
  | none => .ok [s!"import fingerprint {pyRepr row.fingerprint} has no log sequence"]
  | some seq =>
    match db.log.find? seq with
    | none => .ok [s!"import fingerprint {pyRepr row.fingerprint} is orphaned"]
    | some entry => do
      let record ← loadsOrNone P entry.recordJson
      let fingerprint ← importFingerprint P record
      .ok (flag (fingerprint ≠ some row.fingerprint)
        s!"import fingerprint {pyRepr row.fingerprint} is inconsistent")

/-- A high water is well formed. -/
def UpstreamHighWater.wellFormed (row : UpstreamHighWater) : Bool :=
  isKeyId row.keyId && 0 ≤ row.version && 0 ≤ row.logSize && row.logSize ≤ row.version &&
    hex256 row.head && hex256 row.merkleRoot && isTimestamp row.updatedAt

/-- `PRAGMA foreign_key_check`; the number of the row is not modelled. -/
def foreignKeyErrors (db : Db) : List String :=
  (db.imported.rows.flatMap fun row =>
    flag (∃ seq ∈ row.seq, db.log.find? seq = none)
      "foreign key violation in imported_records referencing log") ++
  db.idempotency.rows.flatMap fun row =>
    flag (db.log.find? row.seq = none) "foreign key violation in idempotency referencing log"

/-- The errors of the metadata. -/
def metadataErrors (db : Db) : List String :=
  flag (¬(db.metadataValue (py "created_at")).any isTimestamp)
    "service creation metadata is missing or malformed" ++
  flag (db.metadataValue (py "schema_version") ≠ some schemaVersion)
    "database schema metadata is missing or malformed"

/-- `_integrity_errors_on`; the file itself is sound, so `PRAGMA integrity_check` finds
    nothing. -/
def integrityErrors (db : Db) : Except PyErr (List String) := do
  let walked ← walk P 1 genesis db.log.rows
  let submissions ← db.idempotency.rows.mapM (submissionErrors P db)
  let imports ← db.imported.rows.mapM (importErrors P db)
  .ok (foreignKeyErrors db ++ metadataErrors db ++ walked ++ submissions.flatten ++
    imports.flatten ++ db.highWater.rows.flatMap fun row =>
      flag (¬row.wellFormed) s!"upstream high-water {pyRepr row.keyId} is malformed")

/-! ## What the verification checks -/

/-- What a database without integrity errors satisfies. -/
structure Verified (db : Db) : Prop where
  created : ∃ t, db.metadataValue (py "created_at") = some t ∧ isTimestamp t = true
  schema : db.metadataValue (py "schema_version") = some schemaVersion
  log : ∃ bodies, IsLog P 1 genesis db.log.rows bodies
  timely : ∀ row ∈ db.log.rows, isTimestamp row.createdAt = true
  submissions : ∀ row ∈ db.idempotency.rows, (∃ entry, db.log.find? row.seq = some entry) ∧
    ∃ response, loadsOrNone P row.responseJson = .ok response ∧
      submissionConsistent P db row response = true
  imports : ∀ row ∈ db.imported.rows, ∃ seq entry record, row.seq = some seq ∧
    db.log.find? seq = some entry ∧ loadsOrNone P entry.recordJson = .ok record ∧
      importFingerprint P record = .ok (some row.fingerprint)
  highWater : ∀ row ∈ db.highWater.rows, row.wellFormed = true

variable {P}

@[simp] theorem flag_eq_nil {c : Prop} [Decidable c] {message : String} :
    flag c message = [] ↔ ¬c := by
  unfold flag
  split_ifs with h <;> simp [h]

/-- A row has no errors when it holds the record it was parsed from and follows the hash
    before it. -/
theorem walkRow_eq_nil {previous : PyStr} {row : LogRow} :
    walkRow P previous row = .ok [] ↔ row.prevHash = previous ∧ isTimestamp row.createdAt = true ∧
      ∃ record body, Holds P row record body ∧ entryHash P previous body = .ok row.entryHash := by
  have herrors {record : Dict} {encoded : Bytes} {es : List String}
      (h : rowErrors P previous row record encoded = .ok es) (hes : es = []) :
      row.prevHash = previous ∧ isTimestamp row.createdAt = true ∧
        entryHash P previous encoded = .ok row.entryHash ∧
        ∀ c ∈ row.repeated, record.get? c.2.1 = some (.str c.2.2) := by
    subst hes
    obtain ⟨hash, hh, h⟩ := Wire.Except.bind_eq_ok h
    have hnil := Except.ok.inj h
    simp only [List.append_eq_nil_iff, flag_eq_nil, not_not, List.flatMap_eq_nil_iff] at hnil
    obtain ⟨⟨⟨hp, he⟩, ht⟩, hc⟩ := hnil
    exact ⟨hp, ht, he ▸ hh, hc⟩
  constructor
  · intro h
    unfold walkRow at h
    split at h
    · rename_i record encoded hparse
      obtain ⟨hload, hbytes⟩ := parseStored_eq_ok.1 hparse
      obtain ⟨hp, ht, hh, hc⟩ := herrors h rfl
      simp only [LogRow.repeated, List.forall_mem_cons] at hc
      obtain ⟨h₁, h₂, h₃, h₄, h₅, -⟩ := hc
      exact ⟨hp, ht, record, encoded, ⟨hload, hbytes, h₁, h₂, h₃, h₄, h₅⟩, hh⟩
    · split_ifs at h
      obtain ⟨_, -, h⟩ := Wire.Except.map_eq_ok h
      cases h
  · rintro ⟨rfl, ht, record, body, hrow, hh⟩
    rw [walkRow, parseStored_eq_ok.2 ⟨hrow.loads, hrow.encoded⟩]
    simp only [rowErrors, hh, bind, Except.bind, Except.ok.injEq, List.append_eq_nil_iff,
      flag_eq_nil, not_not, List.flatMap_eq_nil_iff, LogRow.repeated, List.forall_mem_cons, ht,
      true_and]
    exact ⟨hrow.name, hrow.sourceIdentity, hrow.commit, hrow.contentSha256, hrow.status, nofun⟩

/-- The walk finds nothing exactly in a log whose times are well formed. -/
theorem walk_eq_nil {seq : Int} {previous : PyStr} {rows : List LogRow} :
    walk P seq previous rows = .ok [] ↔ (∃ bodies, IsLog P seq previous rows bodies) ∧
      ∀ row ∈ rows, isTimestamp row.createdAt = true := by
  induction rows generalizing seq previous with
  | nil => exact ⟨fun _ => ⟨⟨[], .nil _ _⟩, nofun⟩, fun _ => rfl⟩
  | cons row rows ih =>
    constructor
    · intro h
      obtain ⟨errors, hrow, h⟩ := Wire.Except.bind_eq_ok h
      obtain ⟨rest, hrest, h⟩ := Wire.Except.bind_eq_ok h
      have hnil := Except.ok.inj h
      simp only [List.append_eq_nil_iff, flag_eq_nil, not_not] at hnil
      obtain ⟨⟨rfl, rfl⟩, rfl⟩ := hnil
      obtain ⟨hp, ht, record, body, hholds, hhash⟩ := walkRow_eq_nil.1 hrow
      obtain ⟨⟨bodies, hlog⟩, htimes⟩ := ih.1 hrest
      exact ⟨⟨body :: bodies, .cons rfl hp hholds hhash hlog⟩, List.forall_mem_cons.2 ⟨ht, htimes⟩⟩
    · rintro ⟨⟨_, hlog⟩, htimes⟩
      obtain ⟨ht, htimes⟩ := List.forall_mem_cons.1 htimes
      cases hlog with
      | cons hseq hp hholds hhash hrest =>
        rw [walk, walkRow_eq_nil.2 ⟨hp, ht, _, _, hholds, hhash⟩,
          ih.2 ⟨⟨_, hseq ▸ hrest⟩, htimes⟩]
        simp [bind, Except.bind, hseq]

/-- A list of checks finds nothing when each of them does. -/
theorem mapM_flatten_eq_nil {α : Type} {l : List α} {f : α → Except PyErr (List String)} :
    (∃ ys, l.mapM f = .ok ys ∧ ys.flatten = []) ↔ ∀ x ∈ l, f x = .ok [] := by
  induction l with
  | nil => exact ⟨fun _ => nofun, fun _ => ⟨[], rfl, rfl⟩⟩
  | cons a l ih =>
    rw [List.forall_mem_cons, ← ih, List.mapM_cons]
    constructor
    · rintro ⟨_, h, hnil⟩
      obtain ⟨y, hy, h⟩ := Wire.Except.bind_eq_ok h
      obtain ⟨ys, hys, h⟩ := Wire.Except.bind_eq_ok h
      obtain rfl := Except.ok.inj h
      obtain ⟨rfl, hnil⟩ := List.append_eq_nil_iff.1 hnil
      exact ⟨hy, ys, hys, hnil⟩
    · rintro ⟨hy, ys, hys, hnil⟩
      refine ⟨[] :: ys, ?_, hnil⟩
      rw [hy, hys]
      rfl

theorem submissionErrors_eq_nil {db : Db} {row : IdempotencyRow} :
    submissionErrors P db row = .ok [] ↔ ∃ response, loadsOrNone P row.responseJson = .ok response ∧
      submissionConsistent P db row response = true := by
  constructor
  · intro h
    obtain ⟨response, hr, h⟩ := Wire.Except.bind_eq_ok h
    exact ⟨response, hr, not_not.1 (flag_eq_nil.1 (Except.ok.inj h))⟩
  · rintro ⟨response, hr, h⟩
    rw [submissionErrors, hr]
    exact congrArg Except.ok (flag_eq_nil.2 (not_not.2 h))

theorem importErrors_eq_nil {db : Db} {row : ImportedRow} :
    importErrors P db row = .ok [] ↔ ∃ seq entry record, row.seq = some seq ∧
      db.log.find? seq = some entry ∧ loadsOrNone P entry.recordJson = .ok record ∧
        importFingerprint P record = .ok (some row.fingerprint) := by
  constructor
  · intro h
    unfold importErrors at h
    split at h
    · cases h
    · rename_i seq hseq
      split at h
      · cases h
      · rename_i entry hentry
        obtain ⟨record, hr, h⟩ := Wire.Except.bind_eq_ok h
        obtain ⟨fingerprint, hf, h⟩ := Wire.Except.bind_eq_ok h
        have he := not_not.1 (flag_eq_nil.1 (Except.ok.inj h))
        exact ⟨seq, entry, record, hseq, hentry, hr, he ▸ hf⟩
  · rintro ⟨seq, entry, record, hseq, hentry, hr, hf⟩
    rw [importErrors, hseq]
    simp only [hentry, hr, hf, bind, Except.bind]
    exact congrArg Except.ok (flag_eq_nil.2 (not_not.2 rfl))

theorem metadataErrors_eq_nil {db : Db} : metadataErrors db = [] ↔
    (∃ t, db.metadataValue (py "created_at") = some t ∧ isTimestamp t = true) ∧
      db.metadataValue (py "schema_version") = some schemaVersion := by
  rw [metadataErrors, List.append_eq_nil_iff, flag_eq_nil, flag_eq_nil, not_not, not_not,
    Option.any_eq_true]

theorem foreignKeyErrors_eq_nil {db : Db} : foreignKeyErrors db = [] ↔
    (∀ row ∈ db.imported.rows, ∀ seq ∈ row.seq, db.log.find? seq ≠ none) ∧
      ∀ row ∈ db.idempotency.rows, db.log.find? row.seq ≠ none := by
  simp only [foreignKeyErrors, List.append_eq_nil_iff, List.flatMap_eq_nil_iff, flag_eq_nil,
    not_exists, not_and, ne_eq]

/-- No integrity error is reported exactly on the databases that satisfy `Verified`. -/
theorem integrityErrors_eq_nil {db : Db} : integrityErrors P db = .ok [] ↔ Verified P db := by
  constructor
  · intro h
    obtain ⟨walked, hw, h⟩ := Wire.Except.bind_eq_ok h
    obtain ⟨submissions, hs, h⟩ := Wire.Except.bind_eq_ok h
    obtain ⟨imports, hi, h⟩ := Wire.Except.bind_eq_ok h
    have hnil := Except.ok.inj h
    simp only [List.append_eq_nil_iff, List.flatMap_eq_nil_iff, flag_eq_nil, not_not] at hnil
    obtain ⟨⟨⟨⟨⟨hf, hm⟩, rfl⟩, hs'⟩, hi'⟩, hh⟩ := hnil
    obtain ⟨hlog, htimes⟩ := walk_eq_nil.1 hw
    obtain ⟨hcreated, hschema⟩ := metadataErrors_eq_nil.1 hm
    have hsub := mapM_flatten_eq_nil.1 ⟨_, hs, hs'⟩
    have himp := mapM_flatten_eq_nil.1 ⟨_, hi, hi'⟩
    refine ⟨hcreated, hschema, hlog, htimes, fun row hr => ?_, fun row hr =>
      importErrors_eq_nil.1 (himp row hr), hh⟩
    exact ⟨Option.ne_none_iff_exists'.1 ((foreignKeyErrors_eq_nil.1 hf).2 row hr),
      submissionErrors_eq_nil.1 (hsub row hr)⟩
  · intro h
    obtain ⟨ss, hs, hs'⟩ := mapM_flatten_eq_nil.2 fun row hr =>
      submissionErrors_eq_nil.2 (h.submissions row hr).2
    obtain ⟨is, hi, hi'⟩ := mapM_flatten_eq_nil.2 fun row hr =>
      importErrors_eq_nil.2 (h.imports row hr)
    have hf : foreignKeyErrors db = [] := foreignKeyErrors_eq_nil.2
      ⟨fun row hr seq hseq => by
        obtain ⟨seq', entry, -, hseq', hentry, -⟩ := h.imports row hr
        obtain rfl : seq = seq' := Option.some.inj (hseq.symm.trans hseq')
        rw [hentry]
        nofun,
      fun row hr => Option.ne_none_iff_exists'.2 (h.submissions row hr).1⟩
    have hh : (db.highWater.rows.flatMap fun row =>
        flag (¬row.wellFormed) s!"upstream high-water {pyRepr row.keyId} is malformed") = [] :=
      List.flatMap_eq_nil_iff.2 fun row hr => flag_eq_nil.2 (not_not.2 (h.highWater row hr))
    rw [integrityErrors, walk_eq_nil.2 ⟨h.log, h.timely⟩, hs, hi]
    simp only [bind, Except.bind, hf, metadataErrors_eq_nil.2 ⟨h.created, h.schema⟩, hs', hi', hh,
      List.append_nil]

end SkillRegistry
