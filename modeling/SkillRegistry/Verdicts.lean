import SkillRegistry.App.Reference
import SkillRegistry.ImportIntegrity
import SkillRegistry.RoundTrip

/-!
# Served verdicts

What `/v1/records` serves for the key of an artifact, in a registry and in an empty store that
imported what the registry exports.

* `serves_iff`: a record is served for a key when it is the latest one of the log with the key;
* `importedCopy_injective`: a copy names the record it was made of;
* `import_keepsVerdicts_iff`: the copies of what the registry serves are what the store serves,
  exactly when no record of a key was submitted for the first time after its latest one was.
-/

namespace SkillRegistry

open Wire Firsts Latest

variable (P : Platform)

/-! ## What is served for a key -/

/-- A record that is served for a key. -/
def Serves (db : Db) (key : RecordKey) (record : Dict) : Prop :=
  artifactKey record = key ∧ ∃ (q : RecordsQuery) (limit offset : Nat) (records : List Json)
    (more : Bool), recordsPage P db q limit offset none none = .ok (records, more) ∧
      .obj record ∈ records

/-- A database that answers for the records of its log. -/
structure Servable (db : Db) : Prop extends Ready P db where
  created : ∃ t, db.metadataValue (py "created_at") = some t
  recorded : Recorded P db
  valid : ∀ row ∈ db.log.rows, ValidRecord (row.record P)

/-- The records of a log, in order. -/
def Db.records (db : Db) : List Dict := db.log.rows.map (LogRow.record P)

variable {P}

namespace Servable

variable {db : Db} (h : Servable P db)
include h

/-- The latest rows are those of the latest records. -/
theorem mem_latest_records {record : Dict} : record ∈ latest artifactKey (db.records P) ↔
    ∃ row ∈ latest (LogRow.key P) db.log.rows, row.record P = record := by
  obtain ⟨bodies, hlog⟩ := h.log
  have hkey : ∀ row ∈ db.log.rows, (artifactKey ∘ LogRow.record P) row = row.key P := by
    intro row hrow
    obtain ⟨body, hholds⟩ := hlog.holds_record hrow
    exact hholds.key_eq.symm
  rw [Db.records, latest_map, latest_congr hkey, List.mem_map]

/-- What is served are the latest records of the keys. -/
theorem serves_iff {key : RecordKey} {record : Dict} :
    Serves P db key record ↔ artifactKey record = key ∧ record ∈ latest artifactKey (db.records P) := by
  obtain ⟨created, hcreated⟩ := h.created
  have hnone := h.toChained.snapshotBoundary_none hcreated
  have hall : db.upTo (boundaryOf P created db.log.rows) = db.log.rows := by
    have htake := h.toChained.filter_upTo db.log.rows.length fun _ => true
    rw [Db.upTo, boundaryOf_logSize]
    simpa only [Bool.and_true, List.filter_true, List.take_length] using htake
  refine and_congr_right fun _ => ?_
  rw [h.mem_latest_records]
  constructor
  · rintro ⟨q, limit, offset, records, more, hpage, hmem⟩
    rw [recordsPage] at hpage
    split_ifs at hpage with hversion hpair hsome
    · obtain ⟨rfl, -⟩ := Prod.mk.inj (Except.ok.inj hpage)
      cases hmem
    · obtain ⟨cap, hcap, hpage⟩ := Wire.Except.bind_eq_ok hpage
      obtain ⟨-, -, hpage⟩ := Wire.Except.bind_eq_ok hpage
      obtain ⟨-, -, hpage⟩ := Wire.Except.bind_eq_ok hpage
      obtain ⟨ranked, hranked, hpage⟩ := Wire.Except.bind_eq_ok hpage
      obtain ⟨read, hread, hpage⟩ := Wire.Except.bind_eq_ok hpage
      obtain ⟨rfl, -⟩ := Prod.mk.inj (Except.ok.inj hpage)
      obtain rfl := Except.ok.inj (hnone.symm.trans hcap)
      rw [rankedRows_keyed fun row hrow =>
        h.recorded.keyedRow_eq (List.mem_of_mem_filter hrow), hall] at hranked
      obtain rfl := Except.ok.inj hranked
      obtain ⟨x, hx, hload⟩ := exists_of_mem_mapM hread hmem
      rw [page_fst] at hx
      obtain ⟨row, hrow, rfl⟩ := List.mem_map.1 (List.mem_of_mem_drop (List.mem_of_mem_take hx))
      have hlatest := mem_projection.1 (List.mem_of_mem_filter hrow)
      obtain ⟨bodies, hlog⟩ := h.log
      obtain ⟨body, hholds⟩ := hlog.holds_record (latest_subset _ _ hlatest)
      exact ⟨row, hlatest, Json.obj.inj (Except.ok.inj (hholds.loads.symm.trans hload))⟩
  · rintro ⟨row, hlatest, rfl⟩
    have hrow := latest_subset _ _ hlatest
    obtain ⟨bodies, hlog⟩ := h.log
    obtain ⟨body, hholds⟩ := hlog.holds_record hrow
    have hrecord := h.valid row hrow
    -- the query for the source and the commit of the row, a record a page
    let request : RecordsRequest :=
      ⟨[], row.sourceIdentity, row.commitHash, [], [], ⟨1, by decide⟩, []⟩
    have hsource : row.sourceIdentity ≠ [] := by
      obtain ⟨s, hs, hform⟩ := hrecord.sourceIdentity
      obtain rfl := Json.str.inj (Option.some.inj (hholds.sourceIdentity.symm.trans hs))
      exact fun hnil => absurd (hnil ▸ hform) (by decide)
    have hcommit : row.commitHash ≠ [] := by
      obtain ⟨s, hs, hform⟩ := hrecord.commit
      obtain rfl := Json.str.inj (Option.some.inj (hholds.commit.symm.trans hs))
      exact fun hnil => absurd (hnil ▸ hform) (by decide)
    have hwants : request.wants P row = true := by
      simp [RecordsRequest.wants, request]
    have hmem : row ∈ (projection (LogRow.key P) db.log.rows).filter (request.wants P) :=
      List.mem_filter.2 ⟨mem_projection.2 hlatest, hwants⟩
    obtain ⟨i, hi, hget⟩ := List.getElem_of_mem hmem
    have hbounded := h.bounded
    have hlength : i < db.log.rows.length :=
      hi.trans_le ((List.length_filter_le _ _).trans (length_projection_le _))
    have htext : bindText [row.sourceIdentity, row.commitHash, []] = .ok () := by
      refine bindText_eq_ok.2 ?_
      simp only [List.forall_mem_cons]
      exact ⟨(hrecord.canonical.get? hholds.sourceIdentity).1,
        (hrecord.canonical.get? hholds.commit).1, by decide, List.forall_mem_nil _⟩
    have hbind : bindInt [(db.log.rows.length : Int), (1 : Nat) + 1, i] = .ok () := by
      refine bindInt_eq_ok.2 fun n hn => ?_
      simp only [List.mem_cons, List.not_mem_nil, or_false] at hn
      unfold maxInteger at hbounded ⊢
      omega
    have hcap : pageBoundary db none none = .ok (boundaryOf P created db.log.rows) := hnone
    have hpage : recordsPage P db request.filters 1 i none none = _ :=
      recordsPage_eq h.toChained hcap (boundaryOf_logSize _ _) (by simp [request,
        RecordsRequest.filters, RecordsRequest.selectedHashVersion]) (iff_of_false hsource hcommit)
        (fun hn => hsource hn.1) htext hbind
    rw [← boundaryOf_logSize created db.log.rows, rankedRows_eq h.recorded, hall] at hpage
    refine ⟨request.filters, 1, i, _, _, hpage, List.mem_map.2 ⟨(row.key P, row), ?_, rfl⟩⟩
    rw [page_fst, ← List.map_drop, List.drop_eq_getElem_cons hi, hget]
    exact List.mem_cons_self

end Servable

/-! ## The upstream registry -/

/-- The databases that submissions to a registry with one key lead to. -/
inductive Submissions (key : SigningKey P) : Db → Prop
  | opened {env : OpenEnv} {locked : Bool} {db : Db} {s : Store}
      (h : openStore P env locked .absent = (db, .ok s)) : Submissions key db
  | started {db : Db} (h : Submissions key db) (env : OpenEnv) (locked : Bool) :
      Submissions key (openStore P env locked db).1
  | submitted {db : Db} (h : Submissions key db) {c : Conn} (hc : c.disk = db) (env : Env) (s : Store)
      (request : Submission) (utcNow : Timestamp) (now : Int) :
      Submissions key (s.submit env c key request utcNow now).conn.disk

/-- The keys of a home that was made with its first key. -/
def firstKeys (key : SigningKey P) : KeyHistory P :=
  ⟨(initializeKey ⟨none⟩ false key (fun _ => none) 0 Home.empty).state, [key.publicPinned], []⟩

theorem firstKeys_signer (key : SigningKey P) :
    (firstKeys key).home.active.map (·.key) = some key := by
  have hpins : uniquePins [] [key.publicPinned] = .ok [key.publicPinned] := by
    rw [uniquePins, checkPin, parsePublicKey_publicPinned]
    rfl
  simp only [firstKeys, initializeKey, writePublicKeys, hpins]
  rfl

theorem firstKeys_reachable (key : SigningKey P) : (firstKeys key).Reachable {⟨none⟩} := by
  refine .initialized (Set.mem_singleton _) key (fun _ => none) (.inr rfl) ?_
  obtain ⟨file, hfile, rfl⟩ := Option.map_eq_some_iff.1 (firstKeys_signer key)
  have hactive : (initializeKey ⟨none⟩ false file.key (fun _ => none) 0 Home.empty).state.active =
      some file := hfile
  rw [Home.activePin, hactive]
  rfl

/-- New rows of a countersigned write hold the records that they were written for. -/
theorem Countersigned.recorded {key : SigningKey P} {db db' : Db} (h : Countersigned key db db')
    (hr : Recorded P db) : Recorded P db' := by
  obtain ⟨entries, createdAt, hrows, hentries⟩ := h.rows
  intro row hrow
  rw [hrows] at hrow
  rcases List.mem_append.1 hrow with hrow | hrow
  · exact hr row hrow
  · obtain ⟨entry, he, rfl⟩ := List.mem_map.1 hrow
    obtain ⟨hsorted, hvalid, -⟩ := hentries entry he
    exact ⟨⟨entry.record, hsorted, Canonical.numeral hvalid.canonical.1⟩, rfl,
      entry.record_row hsorted hvalid createdAt.text⟩

/-- Countersigned writes keep a database servable. -/
theorem Servable.write {key : SigningKey P} {db db' : Db} (h : Servable P db)
    (hdb : Countersigned key db db') : Servable P db' where
  toReady := hdb.ready h.toReady
  created := by
    rw [Db.metadataValue, hdb.metadata]
    exact h.created
  recorded := hdb.recorded h.recorded
  valid row hrow := by
    obtain ⟨entries, createdAt, hrows, hentries⟩ := hdb.rows
    rw [hrows] at hrow
    rcases List.mem_append.1 hrow with hrow | hrow
    · exact h.valid row hrow
    · obtain ⟨entry, he, rfl⟩ := List.mem_map.1 hrow
      obtain ⟨hsorted, hvalid, -⟩ := hentries entry he
      rw [entry.record_row hsorted hvalid]
      exact hvalid

/-- A new store is servable. -/
theorem servable_opened {env : OpenEnv} {locked : Bool} {db : Db} {s : Store}
    (h : openStore P env locked .absent = (db, .ok s)) : Servable P db := by
  obtain ⟨hrows, -⟩ := openStore_absent h
  obtain ⟨hverified, hinv, -⟩ := openStore_ready (by decide) h
  have hkept := openStore_kept (P := P) env locked .absent
  rw [h] at hkept
  obtain ⟨created, hcreated, -⟩ := hverified.created
  refine ⟨⟨hinv, ?_⟩, ⟨created, hcreated⟩, ?_, ?_⟩
  · rw [hkept.sequence, Db.size, hkept.log]
    exact le_rfl
  · intro row hrow
    rw [hrows] at hrow
    cases hrow
  · intro row hrow
    rw [hrows] at hrow
    cases hrow

namespace Submissions

variable {key : SigningKey P} {db : Db} (h : Submissions key db)
include h

theorem reachable : Registry.Reachable {⟨none⟩} ⟨firstKeys key, db⟩ := by
  induction h with
  | opened h => exact .opened (firstKeys_reachable key) h
  | started h env locked ih => exact ih.started env locked
  | submitted h hc env s request utcNow now ih =>
    exact ih.submitted (firstKeys_signer key) hc env s request utcNow now

theorem servable : Servable P db := by
  induction h with
  | opened h => exact servable_opened h
  | @started db h env locked ih =>
    have hkept := openStore_kept (P := P) env locked db
    have hsigned := (h.started env locked).reachable.signed
    obtain ⟨t, ht, -⟩ := hsigned.created
    refine ⟨hsigned.ready, ⟨t, ht⟩, ih.recorded.congr (congrArg Table.rows hkept.log), ?_⟩
    exact fun row hrow => (hsigned.rows row hrow).1
  | submitted h hc env s request utcNow now ih =>
    exact ih.write (hc ▸ submit_countersigned env _ s key request utcNow now)

/-- The records of the registry verify under its key, and carry the signature of their
    auditor as an endorsement. -/
theorem endorsed : ∀ record ∈ db.records P, verifySigned P key.publicPinned record = true ∧
    ∃ es, record.get? (py "endorsements") = some (.arr es) := by
  induction h with
  | opened h =>
    rw [Db.records, (openStore_absent h).1]
    exact List.forall_mem_nil _
  | @started db h env locked ih =>
    have hkept := openStore_kept (P := P) env locked db
    rw [Db.records, hkept.log]
    exact ih
  | @submitted db h c hc env s request utcNow now ih =>
    rcases submit_disk env c s key request utcNow now with hsame |
      ⟨original, record, call, r, published, haccept, hcall, hperforms⟩
    · rw [hsame, hc]
      exact ih
    rcases hperforms.log_submitted hcall with hsame | ⟨entry, hentry, hrows⟩
    · rw [Db.records, hsame, hc]
      exact ih
    · rw [Db.records, hrows, List.map_append, List.forall_mem_append, hc]
      refine ⟨ih, ?_⟩
      obtain ⟨-, -, hsigned⟩ := acceptSubmission_eq_ok.1 haccept
      obtain ⟨_, -, hvalid, -⟩ := exists_countersignedRecord haccept
      have hrecord : (entry.row utcNow.text).record P = entry.record :=
        entry.record_row (hentry ▸ record.sorted) (hentry ▸ hvalid) utcNow.text
      rw [List.map_singleton, List.forall_mem_singleton, hrecord, hentry]
      have hendorsed := get?_signRecord hsigned (l := py "endorsements") (by decide)
      exact ⟨verifySigned_signRecord hsigned, _,
        hendorsed.trans (endorsements_countersignedBody _ _)⟩

end Submissions

/-! ## Copies -/

section Copies

variable {record record' : Dict} (h : ValidRecord record) (key : SigningKey P)
include h

theorem artifactKey_importedCopy : artifactKey (importedCopy key record) = artifactKey record := by
  have hkeep {l : PyStr} (hs : l ≠ py "sig") (he : l ≠ py "endorsements") :
      strField (importedCopy key record) l = strField record l := by
    rw [strField, get?_importedCopy h key hs he, strField]
  rw [artifactKey, artifactKey, hkeep (by decide) (by decide), hkeep (by decide) (by decide),
    hkeep (by decide) (by decide), hkeep (by decide) (by decide),
    get?_importedCopy h key (by decide) (by decide)]

/-- A copy names the record it was made of, when it has endorsements. -/
theorem importedCopy_injective (h' : ValidRecord record') (hs : (Json.obj record).Sorted)
    (hs' : (Json.obj record').Sorted) {es es' : List Json}
    (he : record.get? (py "endorsements") = some (.arr es))
    (he' : record'.get? (py "endorsements") = some (.arr es'))
    (hcopy : importedCopy key record = importedCopy key record') : record = record' := by
  have hends := endorsements_importedCopy h key
  rw [hcopy, endorsements_importedCopy h' key] at hends
  have happend := Json.arr.inj (Option.some.inj hends)
  have hofrecord : endorsementsOf record = es := by rw [endorsementsOf, he]
  have hofrecord' : endorsementsOf record' = es' := by rw [endorsementsOf, he']
  rw [hofrecord, hofrecord'] at happend
  obtain ⟨rfl, hlast⟩ := List.append_inj' happend rfl
  obtain ⟨v, hv, -⟩ := h.get?_sig
  obtain ⟨v', hv', -⟩ := h'.get?_sig
  have hsig : v' = v := by
    have hendorsement := List.singleton_inj.1 hlast
    simp only [endorsement, hv, hv', Option.getD_some, Json.obj.injEq, List.cons.injEq,
      Prod.mk.injEq, true_and, and_true] at hendorsement
    exact hendorsement
  refine Dict.ext (Json.every_obj.1 hs).1 (Json.every_obj.1 hs').1 fun l => ?_
  by_cases hl : l = py "sig"
  · rw [hl, hv, hv', hsig]
  by_cases hl' : l = py "endorsements"
  · rw [hl', he, he']
  · rw [← get?_importedCopy h key hl hl', hcopy, get?_importedCopy h' key hl hl']

end Copies

/-! ## Verdicts after an import -/

variable (P) in
/-- What one database serves for a key are the copies of what the other serves for it. -/
def SameVerdicts (key : SigningKey P) (upstream downstream : Db) : Prop :=
  ∀ artifact record, Serves P downstream artifact record ↔
    ∃ original, Serves P upstream artifact original ∧ record = importedCopy key original

variable (P) in
/-- When the latest record of a key was submitted for the first time, every other record of
    the key had been submitted before. -/
def NewestLast (records : List Dict) : Prop := ∀ record ∈ latest artifactKey records, ∃ xs ys,
  records = xs ++ record :: ys ∧ fingerprint P record ∉ xs.map (fingerprint P) ∧
    ∀ x ∈ firsts (fingerprint P) ((xs ++ [record]).map (fingerprint P)) ys,
      artifactKey x ≠ artifactKey record

/-- The latest record of each key is the latest one of those that are imported. -/
theorem newestLast_iff {records : List Dict} : NewestLast P records ↔
    ∀ record ∈ latest artifactKey records,
      record ∈ latest artifactKey (firsts (fingerprint P) [] records) :=
  forall₂_congr fun _ _ => mem_latest_firsts.symm

/-- Copies of the first record of each fingerprint serve what the records do, exactly when the
    latest record of each key is among the latest of them. -/
theorem sameVerdicts_iff {key : SigningKey P} {up down : Db} (hup : Servable P up)
    (hdown : Servable P down)
    (hendorsed : ∀ record ∈ up.records P, ∃ es, record.get? (py "endorsements") = some (.arr es))
    (hcopied : down.records P =
      (firsts (fingerprint P) [] (up.records P)).map (importedCopy key)) :
    SameVerdicts P key up down ↔ NewestLast P (up.records P) := by
  have hrecords : ∀ record ∈ up.records P, ValidRecord record ∧ (Json.obj record).Sorted := by
    intro record hmem
    obtain ⟨row, hrow, rfl⟩ := List.mem_map.1 hmem
    obtain ⟨bodies, hlog⟩ := hup.log
    obtain ⟨body, hholds⟩ := hlog.holds_record hrow
    exact ⟨hup.valid row hrow, hholds.sorted⟩
  have hfirst : ∀ record ∈ firsts (fingerprint P) [] (up.records P), record ∈ up.records P :=
    fun record hmem => (firsts_sublist _ _).subset hmem
  have hlatest : ∀ record ∈ latest artifactKey (up.records P), record ∈ up.records P :=
    latest_subset _
  have htaken : ∀ record ∈ latest artifactKey (firsts (fingerprint P) [] (up.records P)),
      record ∈ up.records P := fun record hmem => hfirst record (latest_subset _ _ hmem)
  have hserves (artifact : RecordKey) (record : Dict) : Serves P down artifact record ↔
      ∃ original ∈ latest artifactKey (firsts (fingerprint P) [] (up.records P)),
        artifactKey original = artifact ∧ record = importedCopy key original := by
    have hkey : ∀ r ∈ firsts (fingerprint P) [] (up.records P),
        (artifactKey ∘ importedCopy key) r = artifactKey r :=
      fun r hr => artifactKey_importedCopy (hrecords r (hfirst r hr)).1 key
    rw [hdown.serves_iff, hcopied, latest_map, latest_congr hkey, List.mem_map]
    constructor
    · rintro ⟨hartifact, original, horiginal, rfl⟩
      refine ⟨original, horiginal, ?_, rfl⟩
      rw [← hartifact, artifactKey_importedCopy (hrecords original (htaken original horiginal)).1]
    · rintro ⟨original, horiginal, rfl, rfl⟩
      exact ⟨artifactKey_importedCopy (hrecords original (htaken original horiginal)).1 key, original,
        horiginal, rfl⟩
  rw [newestLast_iff]
  constructor
  · intro hsame record hmem
    obtain ⟨original, horiginal, -, hcopy⟩ := (hserves _ _).1 ((hsame (artifactKey record) _).2
      ⟨record, hup.serves_iff.2 ⟨rfl, hmem⟩, rfl⟩)
    have hr := hlatest record hmem
    have ho := htaken original horiginal
    obtain ⟨es, hes⟩ := hendorsed record hr
    obtain ⟨es', hes'⟩ := hendorsed original ho
    have heq := importedCopy_injective (hrecords record hr).1 key (hrecords original ho).1
      (hrecords record hr).2 (hrecords original ho).2 hes hes' hcopy
    exact heq ▸ horiginal
  · intro hnewest artifact record
    rw [hserves]
    constructor
    · rintro ⟨original, horiginal, hartifact, rfl⟩
      -- the latest record of the key is taken, and so it is the latest that is
      obtain ⟨last, hlast, hkey⟩ : ∃ last ∈ latest artifactKey (up.records P),
          artifactKey last = artifactKey original := exists_mem_latest (htaken original horiginal)
      obtain rfl := eq_of_mem_latest (hnewest last hlast) horiginal hkey
      exact ⟨last, hup.serves_iff.2 ⟨hartifact, hlast⟩, rfl⟩
    · rintro ⟨original, hserved, rfl⟩
      obtain ⟨hartifact, hmem⟩ := hup.serves_iff.1 hserved
      exact ⟨original, hnewest original hmem, hartifact, rfl⟩

/-- What an import of an export leaves in a new store. -/
theorem Submissions.imported {key : SigningKey P} {up : Db} (h : Submissions key up) {bundle : Dict}
    (hexport : exportAlone key up = .ok bundle) {c : Conn} {start : OpenEnv} {locked : Bool}
    {opened : Store} (hnew : openStore P start locked .absent = (c.disk, .ok opened)) {env : Env}
    {s : Store} {importer : SigningKey P} {acceptOlder : Bool} {now : Timestamp} {n : Nat}
    (hcommits : (s.importBundle env c importer (.obj bundle) key.publicPinned acceptOlder
      now).result = .ok n) :
    let down := (s.importBundle env c importer (.obj bundle) key.publicPinned acceptOlder now).conn.disk
    Servable P down ∧ down.records P =
      (firsts (fingerprint P) [] (up.records P)).map (importedCopy importer) := by
  intro down
  have hup := h.servable
  have hsize : up.size ≤ maxSafeInteger := by
    rw [exportAlone_eq] at hexport
    obtain ⟨entries, -, hexport⟩ := Wire.Except.bind_eq_ok hexport
    obtain ⟨snapshot, hsnapshot, -⟩ := Wire.Except.bind_eq_ok hexport
    obtain ⟨b, hb, hs⟩ := buildSnapshot_eq_ok.1 hsnapshot
    obtain ⟨created, rfl⟩ := hup.toChained.eq_boundaryOf hb
    rw [hup.toChained.size_eq, ← boundaryOf_logSize created]
    exact signSnapshot_bounded hs
  obtain ⟨snapshot, hexported, hsnapshot, hcommitsTo, hsorted⟩ :=
    h.reachable.signed.export_eq key hsize
  have hsame : exportAlone key up = .ok (bundleOf key (up.records P) snapshot) := hexported
  obtain rfl := Except.ok.inj (hsame.symm.trans hexport)
  have hvalid : ∀ record ∈ up.records P, ValidRecord record := by
    intro record hmem
    obtain ⟨row, hrow, rfl⟩ := List.mem_map.1 hmem
    exact hup.valid row hrow
  obtain ⟨⟨snapshot', verified⟩, haccepted⟩ := (verifyBundle_bundleOf hvalid hsnapshot hcommitsTo).2
    fun record hmem => (h.endorsed record hmem).1
  obtain rfl := verified_bundleOf haccepted
  obtain ⟨hempty, hfingerprints⟩ := openStore_absent hnew
  obtain ⟨entries, hrows, hrecords, -⟩ :=
    importBundle_copies hsorted haccepted hempty hfingerprints hcommits
  have hdown := (servable_opened hnew).write
    (importBundle_countersigned env c s importer hsorted key.publicPinned acceptOlder now)
  have hlog : down.log.rows = entries.map (LogEntry.row now.text) := hrows
  refine ⟨hdown, ?_⟩
  rw [← hrecords, Db.records, hlog, List.map_map]
  refine List.map_congr_left fun entry he => ?_
  have hmem : entry.record ∈ (firsts (fingerprint P) [] (up.records P)).map (importedCopy importer) :=
    hrecords ▸ List.mem_map_of_mem he
  obtain ⟨record, hr, hcopy⟩ := List.mem_map.1 hmem
  have hrecord := (firsts_sublist _ _).subset hr
  obtain ⟨row, hrow, hrowrecord⟩ := List.mem_map.1 hrecord
  obtain ⟨bodies, hlog⟩ := hup.log
  obtain ⟨body, hholds⟩ := hlog.holds_record hrow
  have hvalidcopy := (hvalid record hrecord).imported ((hvalid record hrecord).importedCopy_eq importer)
  have hsortedcopy := (importedCopy_sorted (hvalid record hrecord)
    (hrowrecord ▸ hholds.sorted) importer).1
  exact entry.record_row (hcopy ▸ hsortedcopy) (hcopy ▸ hvalidcopy) now.text

/-- A new store that imported what a registry exports serves for every key the copy of what
    the registry serves, exactly when the latest record of each key is the one that was
    submitted for the first time last. -/
theorem import_keepsVerdicts_iff {key : SigningKey P} {up : Db} (h : Submissions key up)
    {bundle : Dict} (hexport : exportAlone key up = .ok bundle) {c : Conn} {start : OpenEnv}
    {locked : Bool} {opened : Store}
    (hnew : openStore P start locked .absent = (c.disk, .ok opened)) {env : Env} {s : Store}
    {importer : SigningKey P} {acceptOlder : Bool} {now : Timestamp} {n : Nat}
    (hcommits : (s.importBundle env c importer (.obj bundle) key.publicPinned acceptOlder
      now).result = .ok n) :
    SameVerdicts P importer up
        (s.importBundle env c importer (.obj bundle) key.publicPinned acceptOlder now).conn.disk ↔
      NewestLast P (up.records P) := by
  obtain ⟨hdown, hcopied⟩ := h.imported hexport hnew hcommits
  exact sameVerdicts_iff h.servable hdown (fun record hmem => (h.endorsed record hmem).2) hcopied

/-! ## A record that was submitted again -/

/-- The sample registry after its record was revoked. -/
@[irreducible] def sampleRevoked : Db :=
  (sampleStore.submit (.calm 0) ⟨sampleDb, none, false⟩ (sampleSigner 1)
    (sampleRequest (py "revoked")) sampleTime 0).conn.disk

/-- The sample registry after its first record was submitted again. -/
@[irreducible] def sampleRelisted : Db :=
  (sampleStore.submit (.calm 0) ⟨sampleRevoked, none, false⟩ (sampleSigner 1)
    (sampleRequest (py "audited")) sampleTime 0).conn.disk

theorem submissions_sampleRevoked : Submissions (sampleSigner 1) sampleRevoked := by
  have hopened : Submissions (sampleSigner 1) sampleConn.disk := .opened openStore_sample
  have hfirst : Submissions (sampleSigner 1) sampleDb := by
    have hsubmitted := hopened.submitted (c := sampleConn) rfl (.calm 0) sampleStore
      (sampleRequest (py "audited")) sampleTime 0
    unfold sampleDb sampleSubmitted
    exact hsubmitted
  unfold sampleRevoked
  exact hfirst.submitted (c := ⟨sampleDb, none, false⟩) rfl (.calm 0) sampleStore
    (sampleRequest (py "revoked")) sampleTime 0

theorem submissions_sampleRelisted : Submissions (sampleSigner 1) sampleRelisted := by
  unfold sampleRelisted
  exact submissions_sampleRevoked.submitted (c := ⟨sampleRevoked, none, false⟩) rfl (.calm 0)
    sampleStore (sampleRequest (py "audited")) sampleTime 0

/-- The import of an export into the sample store. -/
def sampleMirror (bundle : Dict) : Outcome Nat :=
  sampleStore.importBundle (.calm 0) sampleConn sampleKey (.obj bundle) (sampleSigner 1).publicPinned
    false sampleTime

set_option maxRecDepth 10000 in
/-- A revocation is imported. -/
theorem import_keepsVerdicts_sample : ∃ bundle,
    exportAlone (sampleSigner 1) sampleRevoked = .ok bundle ∧
      SameVerdicts .sample sampleKey sampleRevoked (sampleMirror bundle).conn.disk := by
  have himport : (exportAlone (sampleSigner 1) sampleRevoked).map
      (fun bundle => (sampleMirror bundle).result.toOption) = .ok (some 2) := by decide +kernel
  obtain ⟨bundle, hexport, hresult⟩ := Except.map_eq_ok himport
  have hnewest : NewestLast .sample (sampleRevoked.records .sample) := by
    rw [newestLast_iff]
    decide +kernel
  exact ⟨bundle, hexport, (import_keepsVerdicts_iff submissions_sampleRevoked hexport openStore_sample
    (eq_ok_of_toOption hresult)).2 hnewest⟩

set_option maxRecDepth 10000 in
/-- Where a record is audited, revoked, and audited again as before, the revocation is what a
    store that imports the registry serves. -/
theorem import_losesVerdict : ∃ bundle n, Submissions (sampleSigner 1) sampleRelisted ∧
    exportAlone (sampleSigner 1) sampleRelisted = .ok bundle ∧ (sampleMirror bundle).result = .ok n ∧
      ¬SameVerdicts .sample sampleKey sampleRelisted (sampleMirror bundle).conn.disk := by
  have himport : (exportAlone (sampleSigner 1) sampleRelisted).map
      (fun bundle => (sampleMirror bundle).result.toOption) = .ok (some 2) := by decide +kernel
  obtain ⟨bundle, hexport, hresult⟩ := Except.map_eq_ok himport
  have hcommits := eq_ok_of_toOption hresult
  obtain ⟨hdown, hcopied⟩ := submissions_sampleRelisted.imported hexport openStore_sample hcommits
  have hresubmitted : ¬NewestLast .sample (sampleRelisted.records .sample) := by
    rw [newestLast_iff]
    decide +kernel
  refine ⟨bundle, 2, submissions_sampleRelisted, hexport, hcommits, fun hsame => hresubmitted ?_⟩
  exact (sameVerdicts_iff submissions_sampleRelisted.servable hdown
    (fun record hmem => (submissions_sampleRelisted.endorsed record hmem).2) hcopied).1 hsame

end SkillRegistry
