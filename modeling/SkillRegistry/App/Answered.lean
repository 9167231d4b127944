import SkillRegistry.App.Pages
import SkillRegistry.Registry

/-!
# What a read is answered

A read of a valid store is answered by a page, or by an exception that is mapped to a
response: an `APIError` of the request, or one of the storage.

* `firstPage_eq` and `cursorPage_eq`: what a page of a valid store is read from;
* `logPage_eq` and `recordsPage_eq`: what is read;
* `reads_answered_iff`: which requests are answered so. One without a cursor whose `since` is
  no integer of SQLite is not, and neither is one whose boundary is too large to be signed.
-/

namespace SkillRegistry

open Wire Latest

variable {P : Platform}

/-! ## Valid stores -/

variable (P) in
/-- A store whose startup verification passes. -/
structure ValidStore (db : Db) : Prop extends Invariant P db where
  verified : Verified P db

theorem boundaryAvailable_eq_true {db : Db} {b : SnapshotBoundary} :
    boundaryAvailable db b = .ok true ↔ snapshotBoundary db (some b.logSize) = .ok b := by
  rw [boundaryAvailable]
  cases h : snapshotBoundary db (some b.logSize) with
  | ok actual => simp
  | error e =>
    change (if e.isUnavailable = true then Except.ok false else .error e) = .ok true ↔ _
    refine ⟨fun he => ?_, fun he => (by cases he)⟩
    split_ifs at he
    cases he

theorem pageBoundary_eq {db : Db} {b : SnapshotBoundary}
    (h : snapshotBoundary db (some b.logSize) = .ok b) : pageBoundary db (some b) none = .ok b := by
  rw [pageBoundary, h]
  exact if_neg (not_not.2 rfl)

/-- What is signed is in the range of integers that are signed. -/
theorem signSnapshot_bounded {key : SigningKey P} {b : SnapshotBoundary} {snapshot : Dict}
    (h : key.signRecord (snapshotBody b) = .ok snapshot) : b.logSize ≤ maxSafeInteger := by
  have hcanonical := (canonical_signRecord h).get? (signSnapshot_fields h).2.2.1
  have hrange : -maxSafeInteger ≤ b.logSize ∧ b.logSize ≤ maxSafeInteger := hcanonical.1
  exact hrange.2

theorem signRecord_handled {key : SigningKey P} {body : Dict} {e : PyErr}
    (h : key.signRecord body = .error e) : Handled e := by
  rw [SigningKey.signRecord] at h
  rcases Except.bind_eq_error.1 h with h | ⟨b, -, h⟩
  · exact canonicalDocument_handled h
  · cases h

namespace ValidStore

variable {db : Db} (h : ValidStore P db)
include h

/-- The current boundary. -/
theorem exists_boundary : ∃ b, snapshotBoundary db none = .ok b ∧
    snapshotBoundary db (some db.log.rows.length) = .ok b ∧
    b.logSize = db.log.rows.length ∧
    ((db.log.rows.length : Int) ≤ maxSafeInteger → b.WellFormed) := by
  obtain ⟨created, hcreated, htimestamp⟩ := h.verified.created
  obtain ⟨bodies, hlog⟩ := h.log
  have hat := h.snapshotBoundary_eq hcreated db.log.rows.length le_rfl
  rw [List.take_length] at hat
  exact ⟨_, h.snapshotBoundary_none hcreated, hat, boundaryOf_logSize _ _,
    hlog.wellFormed h.verified.timely htimestamp⟩

/-- A first page is read up to the size of the log, which is signed. -/
theorem firstPage_eq (service : Service P) (hsize : (db.log.rows.length : Int) ≤ maxSafeInteger) :
    ∃ (b : SnapshotBoundary) (snapshot : Dict), b.logSize = db.log.rows.length ∧
      snapshotBoundary db (some db.log.rows.length) = .ok b ∧ ValidSnapshot P snapshot ∧
      ∀ read, firstPage service db read =
        (read 0 (some db.log.rows.length) none).map fun items => ⟨0, snapshot, items⟩ := by
  obtain ⟨b, hb, hat, hlen, hwf⟩ := h.exists_boundary
  obtain ⟨snapshot, hs⟩ := (hwf hsize).exists_signed service.signingKey
  refine ⟨b, snapshot, hlen, hat, (hwf hsize).validSnapshot hs, fun read => ?_⟩
  rw [firstPage, hb]
  change (buildSnapshot P db service.signingKey (some b) none none >>= _) = _
  rw [buildSnapshot_boundary, hs, ← hlen]
  change (read 0 (some b.logSize) none >>= _) = _
  cases read 0 (some b.logSize) none <;> rfl

/-- A boundary that is too large is not signed. -/
theorem firstPage_error (service : Service P)
    (hsize : maxSafeInteger < (db.log.rows.length : Int)) (read : Reader) :
    ∃ e, firstPage service db read = .error e ∧ Handled e := by
  obtain ⟨b, hb, -, hlen, -⟩ := h.exists_boundary
  cases hs : service.signingKey.signRecord (snapshotBody b) with
  | ok snapshot => exact absurd (hlen ▸ signSnapshot_bounded hs) hsize.not_ge
  | error e =>
    refine ⟨e, ?_, signRecord_handled hs⟩
    rw [firstPage, hb]
    change (buildSnapshot P db service.signingKey (some b) none none >>= _) = _
    rw [buildSnapshot_boundary, hs]
    rfl

end ValidStore

/-! ## Reading -/

section Reading

variable {db : Db} (h : Chained P db) {limit offset n : Nat} {maxSeq : Option Int}
  {boundary : Option SnapshotBoundary} {cap : SnapshotBoundary}
  (hcap : pageBoundary db boundary maxSeq = .ok cap) (hn : cap.logSize = n)
include h hcap hn

/-- A page of the log up to `n`. -/
theorem logPage_eq {since : Nat}
    (hbind : bindInt [since, n, limit + 1, offset] = .ok ()) :
    logPage P db since limit offset maxSeq boundary =
      .ok ((page limit offset ((db.log.rows.take n).drop since)).1.map (LogRow.entry P),
        (page limit offset ((db.log.rows.take n).drop since)).2) := by
  obtain ⟨bodies, hlog⟩ := h.log
  have hread : (page limit offset ((db.log.rows.take n).drop since)).1.mapM (entryFromRow P) =
      .ok ((page limit offset ((db.log.rows.take n).drop since)).1.map (LogRow.entry P)) := by
    refine hlog.mapM_entryFromRow fun row hrow => ?_
    rw [page_fst] at hrow
    exact List.mem_of_mem_take
      (List.mem_of_mem_drop (List.mem_of_mem_drop (List.mem_of_mem_take hrow)))
  rw [logPage, hcap]
  change (bindInt [(since : Int), cap.logSize, limit + 1, offset] >>= fun _ => _) = _
  rw [hn, hbind]
  change ((page limit offset (db.logBetween since n)).1.mapM (entryFromRow P) >>= _) = _
  rw [h.logBetween_eq, hread]
  rfl

/-- A page of the records up to `n`, of the rows that are ranked first. -/
theorem recordsPage_eq {q : RecordsQuery}
    (hversion : ¬(q.hashVersion ≠ none ∧
      ((q.hashVersion ≠ some 1 ∧ q.hashVersion ≠ some 2) ∨ q.contentSha256 = [])))
    (hpair : q.sourceIdentity = [] ↔ q.commit = [])
    (hsome : ¬(q.sourceIdentity = [] ∧ q.contentSha256 = []))
    (htext : bindText [q.sourceIdentity, q.commit, q.contentSha256] = .ok ())
    (hbind : bindInt [n, limit + 1, offset] = .ok ()) :
    recordsPage P db q limit offset maxSeq boundary =
      (rankedRows db q n).map fun ranked =>
        ((page limit offset ranked).1.map fun row => .obj (row.2.record P),
          (page limit offset ranked).2) := by
  obtain ⟨bodies, hlog⟩ := h.log
  rw [recordsPage, if_neg hversion, if_neg (not_not.2 hpair), if_neg hsome, hcap]
  change (bindText [q.sourceIdentity, q.commit, q.contentSha256] >>= fun _ => _) = _
  rw [htext]
  change (bindInt [cap.logSize, limit + 1, offset] >>= fun _ => _) = _
  rw [hn, hbind]
  change (rankedRows db q n >>= _) = _
  cases hranked : rankedRows db q n with
  | error e => rfl
  | ok ranked =>
    have hread : (page limit offset ranked).1.mapM (fun row => pyLoads P row.2.recordJson) =
        .ok ((page limit offset ranked).1.map fun row => .obj (row.2.record P)) := by
      refine mapM_eq_ok fun row hrow => ?_
      rw [page_fst] at hrow
      have hmem := mem_of_mem_rankedRows hranked (List.mem_of_mem_drop (List.mem_of_mem_take hrow))
      obtain ⟨body, hholds⟩ := hlog.holds_record hmem
      exact hholds.loads
    change ((page limit offset ranked).1.mapM (fun row => pyLoads P row.2.recordJson) >>= _) = _
    rw [hread]
    rfl

end Reading

/-- No more rows are ranked first than there are. -/
theorem rankedRows_length {db : Db} (h : Chained P db) {q : RecordsQuery} {n : Nat}
    {ranked : List (RecordKey × LogRow)} (hranked : rankedRows db q n = .ok ranked) :
    ranked.length ≤ n := by
  obtain ⟨keyed, hkeyed, hr⟩ := Wire.Except.bind_eq_ok hranked
  obtain rfl := Except.ok.inj hr
  rw [h.filter_upTo n] at hkeyed
  calc (projection Prod.fst (keyed.filter fun row => q.versions row.1)).length
      ≤ (keyed.filter fun row => q.versions row.1).length := length_projection_le _
    _ ≤ keyed.length := List.length_filter_le _ _
    _ = ((db.log.rows.take n).filter q.columns).length := (forall₂_of_mapM hkeyed).length_eq.symm
    _ ≤ (db.log.rows.take n).length := List.length_filter_le _ _
    _ ≤ n := List.length_take_le _ _

/-- SQLite fails to read a record only as malformed JSON. -/
theorem sqliteHooks_raises : sqliteHooks.Raises fun e => ∃ m, e = .operationalError m where
  malformed := ⟨_, rfl⟩
  int h := by cases h
  float h := by cases h
  constant h := by cases h
  pairs h := by cases h
  nest h := by cases h

theorem rankedRows_error {db : Db} {q : RecordsQuery} {cap : Int} {e : PyErr}
    (h : rankedRows db q cap = .error e) : ∃ m, e = .operationalError m := by
  rcases Except.bind_eq_error.1 h with h | ⟨keyed, -, h⟩
  · obtain ⟨row, -, hrow⟩ := exists_of_mapM_eq_error h
    rcases Except.bind_eq_error.1 (Except.map_eq_error (Except.map_eq_error hrow)) with
      hrow | ⟨v, -, hrow⟩
    · exact loads_raises sqliteHooks_raises hrow
    · split at hrow
      · split at hrow <;> cases hrow
      · cases hrow
  · cases h

/-! ## What a cursor carries -/

theorem boundaryFromDict_eq_ok {snapshot : Dict} {b : SnapshotBoundary}
    (h : boundaryFromDict snapshot = .ok b) : snapshot.get? (py "log_size") = some (.int b.logSize) ∧
      b.version = b.logSize ∧ 0 ≤ b.version := by
  unfold boundaryFromDict boundaryFromFields at h
  split at h
  · rename_i version logSize head merkleRoot createdAt hversion hsize hhead hroot hcreated
    split_ifs at h with hform
    obtain rfl := Except.ok.inj h
    rw [not_or, not_or, not_not, not_lt] at hform
    exact ⟨hsize, hform.1, hform.2.1⟩
  · cases h

/-- The numbers of a cursor that is accepted are signed, and its boundary is one of the
    store. -/
theorem cursorState_bounds {db : Db} {cursor : PyStr} {endpoint : Endpoint} {query : Dict}
    {keys : List PyStr} {now : Int} {offset : Nat} {boundary : SnapshotBoundary} {snapshot : Dict}
    (h : cursorState P db cursor endpoint query keys now = .ok (offset, boundary, snapshot)) :
    (∃ n : Nat, boundary.logSize = n ∧ (n : Int) ≤ maxSafeInteger) ∧
      (offset : Int) ≤ maxSafeInteger ∧ CanonicalWithin 99 (.obj query) ∧
      ValidSnapshot P snapshot ∧ snapshotBoundary db (some boundary.logSize) = .ok boundary := by
  obtain ⟨payload, digest, expiresAt, -, hload, hdigest, hvalid, -, hboundary, havailable, -⟩ :=
    cursorState_eq_ok.1 h
  obtain ⟨hsize, hversion, hnonneg⟩ := boundaryFromDict_eq_ok hboundary
  obtain ⟨logSize, version, hlog, -, hpos, hle, hmax⟩ := hvalid.sizes
  have hlogSize : boundary.logSize = logSize := by
    have := hsize.symm.trans hlog
    simpa using this
  have hcanonical := (Loaded.bytes hload).canonical
  have hoffset := hcanonical.get? (get?_cursorBody digest snapshot offset expiresAt).2.2.1
  have hrange : -maxSafeInteger ≤ (offset : Int) ∧ (offset : Int) ≤ maxSafeInteger := hoffset.1
  refine ⟨⟨boundary.logSize.toNat, ?_, ?_⟩, hrange.2, canonical_of_queryDigest hdigest, hvalid,
    boundaryAvailable_eq_true.1 havailable⟩
  · rw [hlogSize, Int.toNat_of_nonneg hpos]
  · rw [hlogSize, Int.toNat_of_nonneg hpos]
    exact hle.trans hmax

/-! ## Answers -/

/-- The exceptions that are mapped to a response: of the request, or of the storage. -/
def Tolerated : PyErr → Prop
  | .apiError status _ _ => status = 400 ∨ status = 404
  | .storeIntegrityError _ | .integrityError _ | .interrupted | .operationalError _ => True
  | _ => False

/-- A request is answered by a page, or by an exception that is mapped to a response. -/
def Answered (answer : Except PyErr Page) : Prop := ∀ e, answer = .error e → Tolerated e

theorem Handled.not_tolerated {e : PyErr} (h : Handled e) : ¬Tolerated e := by
  rcases h with h | rfl
  · cases e with
    | apiError | storeIntegrityError | integrityError | interrupted | operationalError => cases h
    | _ => exact id
  · exact id

theorem validateQueryParameters_tolerated {allowed seen : List PyStr}
    {params : List (PyStr × PyStr)} {e : PyErr}
    (h : validateQueryParameters allowed seen params = .error e) : Tolerated e := by
  induction params generalizing seen with
  | nil => cases h
  | cons param params ih =>
    rw [validateQueryParameters] at h
    split_ifs at h
    · exact Except.error.inj h ▸ .inl rfl
    · exact ih h

/-- What a request of records that passes its checks satisfies. -/
structure RecordsRequest.Checked (request : RecordsRequest) : Prop where
  pair : request.sourceIdentity = [] ↔ request.commit = []
  nonempty : ¬(request.sourceIdentity = [] ∧ request.contentSha256 = [])
  commit : request.commit ≠ [] → isCommit request.commit = true
  contentSha256 : request.contentSha256 ≠ [] → isSha256 request.contentSha256 = true

theorem RecordsRequest.checked {request : RecordsRequest} (h : request.validate = .ok ()) :
    request.Checked := by
  obtain ⟨-, -, h⟩ := Wire.Except.bind_eq_ok h
  split_ifs at h with hpair hsome hidentity hcommit hcontent hversion
  exact ⟨hpair, hsome, fun hne => by_contra fun hc => hcommit ⟨hne, hc⟩,
    fun hne => by_contra fun hc => hcontent ⟨hne, hc⟩⟩

theorem RecordsRequest.validate_tolerated {request : RecordsRequest} {e : PyErr}
    (h : request.validate = .error e) : Tolerated e := by
  rcases Except.bind_eq_error.1 h with h | ⟨-, -, h⟩
  · exact validateQueryParameters_tolerated h
  · split_ifs at h <;> exact Except.error.inj h ▸ .inl rfl

section Serve

variable {service : Service P} {db : Db} {endpoint : Endpoint} {query : Dict} {clock : Clock}
  {cursor : PyStr} {read : Reader}

/-- A page is served from what is found, when it can name the next one. -/
theorem answered_servePage
    (herror : ∀ e, findPage service db endpoint query clock cursor read = .error e → Tolerated e)
    (hok : ∀ f, findPage service db endpoint query clock cursor read = .ok f →
      ValidSnapshot P f.snapshot ∧ (f.items.2 = true → CanonicalWithin 99 (.obj query) ∧
        ((f.offset + f.items.1.length : Nat) : Int) ≤ maxSafeInteger)) :
    Answered (servePage service db endpoint query clock cursor read) := by
  intro e he
  rcases Except.bind_eq_error.1 he with he | ⟨f, hf, he⟩
  · exact herror e he
  · obtain ⟨next, hnext⟩ :=
      exists_nextCursor service endpoint query clock (hok f hf).1 (hok f hf).2
    rw [hnext] at he
    cases he

/-- A page with a cursor is answered, where what the cursor says can be read. -/
theorem answered_cursor (hcursor : cursor ≠ [])
    (hread : ∀ (b : SnapshotBoundary) (n offset : Nat),
      snapshotBoundary db (some b.logSize) = .ok b → b.logSize = n → (n : Int) ≤ maxSafeInteger →
      (offset : Int) ≤ maxSafeInteger → CanonicalWithin 99 (.obj query) →
      (∀ e, read offset none (some b) = .error e → Tolerated e) ∧
        ∀ items, read offset none (some b) = .ok items →
          items.2 = true → offset + items.1.length ≤ n) :
    Answered (servePage service db endpoint query clock cursor read) := by
  refine answered_servePage (fun e he => ?_) fun f hf => ?_
  · rw [findPage, if_neg hcursor] at he
    rcases Except.bind_eq_error.1 he with he | ⟨⟨offset, b, snapshot⟩, hstate, he⟩
    · exact cursorState_error he ▸ .inr rfl
    obtain ⟨⟨n, hn, hmax⟩, hoffset, hquery, -, hb⟩ := cursorState_bounds hstate
    rcases Except.bind_eq_error.1 he with he | ⟨items, -, he⟩
    · obtain ⟨e', he', rfl⟩ := mapError_eq_error he
      have := (hread b n offset hb hn hmax hoffset hquery).1 e' he'
      cases e' with
      | cursorBoundaryMismatch => exact .inr rfl
      | _ => exact this
    · cases he
  · rw [findPage, if_neg hcursor] at hf
    obtain ⟨⟨offset, b, snapshot⟩, hstate, hf⟩ := Wire.Except.bind_eq_ok hf
    obtain ⟨items, hitems, hf⟩ := Wire.Except.bind_eq_ok hf
    obtain rfl := Except.ok.inj hf
    obtain ⟨⟨n, hn, hmax⟩, hoffset, hquery, hvalid, hb⟩ := cursorState_bounds hstate
    refine ⟨hvalid, fun hmore => ⟨hquery, ?_⟩⟩
    have := (hread b n offset hb hn hmax hoffset hquery).2 items (mapError_eq_ok.1 hitems) hmore
    exact (Int.ofNat_le.2 this).trans hmax

/-- A first page is answered, where the log can be read up to its size. -/
theorem answered_first (h : ValidStore P db) (hsize : (db.log.rows.length : Int) ≤ maxSafeInteger)
    (hread : ∀ b : SnapshotBoundary, snapshotBoundary db (some db.log.rows.length) = .ok b →
      b.logSize = db.log.rows.length →
      (∀ e, read 0 (some db.log.rows.length) none = .error e → Tolerated e) ∧
        ∀ items, read 0 (some db.log.rows.length) none = .ok items → items.2 = true →
          CanonicalWithin 99 (.obj query) ∧ 0 + items.1.length ≤ db.log.rows.length) :
    Answered (servePage service db endpoint query clock [] read) := by
  obtain ⟨b, snapshot, hlen, hb, hvalid, hfirst⟩ := h.firstPage_eq service hsize
  obtain ⟨herror, hok⟩ := hread b hb hlen
  refine answered_servePage (fun e he => ?_) fun f hf => ?_
  · rw [findPage, if_pos rfl, hfirst] at he
    exact herror e (Except.map_eq_error he)
  · rw [findPage, if_pos rfl, hfirst] at hf
    obtain ⟨items, hitems, rfl⟩ := Except.map_eq_ok hf
    refine ⟨hvalid, fun hmore => ?_⟩
    obtain ⟨hquery, hle⟩ := hok items hitems hmore
    exact ⟨hquery, (Int.ofNat_le.2 hle).trans hsize⟩

/-- A first page whose boundary is too large to be signed is not answered. -/
theorem not_answered_large (h : ValidStore P db)
    (hsize : maxSafeInteger < (db.log.rows.length : Int)) :
    ¬Answered (servePage service db endpoint query clock [] read) := by
  obtain ⟨e, he, hhandled⟩ := h.firstPage_error service hsize read
  intro hanswered
  refine hhandled.not_tolerated (hanswered e ?_)
  rw [servePage, findPage, if_pos rfl, he]
  rfl

/-- A first page for which the store cannot be read is not answered. -/
theorem not_answered_read (h : ValidStore P db)
    (hsize : (db.log.rows.length : Int) ≤ maxSafeInteger) {e : PyErr}
    (hread : ∀ b : SnapshotBoundary, snapshotBoundary db (some db.log.rows.length) = .ok b →
      b.logSize = db.log.rows.length → read 0 (some db.log.rows.length) none = .error e)
    (he : ¬Tolerated e) : ¬Answered (servePage service db endpoint query clock [] read) := by
  obtain ⟨b, snapshot, hlen, hb, -, hfirst⟩ := h.firstPage_eq service hsize
  intro hanswered
  refine he (hanswered e ?_)
  rw [servePage, findPage, if_pos rfl, hfirst, hread b hb hlen]
  rfl

end Serve

/-! ## The log -/

theorem maxSafeInteger_le : maxSafeInteger ≤ maxInteger := by decide

section Log

variable {db : Db} {request : LogRequest}

/-- Only a `since` that is signed is in a query that is signed. -/
theorem LogRequest.canonical_query :
    CanonicalWithin 99 (.obj request.query) ↔ (request.since : Int) ≤ maxSafeInteger := by
  have hmin : ∀ n : Nat, -maxSafeInteger ≤ (n : Int) := fun n =>
    (by decide : -maxSafeInteger ≤ 0).trans (Int.natCast_nonneg n)
  have hlimit : (request.limit.val : Int) ≤ maxSafeInteger :=
    (Int.ofNat_le.2 request.limit.2.2).trans (by decide)
  rw [canonicalWithin_obj (n := 98), LogRequest.query]
  simp only [List.forall_mem_cons]
  constructor
  · rintro ⟨-, ⟨-, hsince⟩, -⟩
    have hrange : -maxSafeInteger ≤ (request.since : Int) ∧ (request.since : Int) ≤ maxSafeInteger :=
      hsince.1
    exact hrange.2
  · intro hsince
    exact ⟨⟨by decide, canonicalWithin_int ⟨hmin _, hlimit⟩ _⟩,
      ⟨by decide, canonicalWithin_int ⟨hmin _, hsince⟩ _⟩, List.forall_mem_nil _⟩

/-- The parameters of a page of the log are integers of SQLite. -/
theorem LogRequest.bindInt_eq_ok {n offset : Nat} (hmax : (n : Int) ≤ maxSafeInteger)
    (hoffset : (offset : Int) ≤ maxSafeInteger) (hsince : (request.since : Int) ≤ maxInteger) :
    bindInt [request.since, n, request.limit + 1, offset] = .ok () := by
  have hmin : ∀ m : Nat, -maxInteger - 1 ≤ (m : Int) := fun m =>
    (by decide : -maxInteger - 1 ≤ 0).trans (Int.natCast_nonneg m)
  have hlimit : (request.limit.val : Int) + 1 ≤ maxInteger :=
    (Int.add_le_add_right (Int.ofNat_le.2 request.limit.2.2) 1).trans (by decide)
  refine SkillRegistry.bindInt_eq_ok.2 ?_
  simp only [List.forall_mem_cons]
  exact ⟨⟨hmin _, hsince⟩, ⟨hmin _, hmax.trans maxSafeInteger_le⟩,
    ⟨hmin (request.limit.val + 1), hlimit⟩, ⟨hmin _, hoffset.trans maxSafeInteger_le⟩,
    List.forall_mem_nil _⟩

variable {maxSeq : Option Int} {boundary : Option SnapshotBoundary} {cap : SnapshotBoundary}
  {n offset : Nat} (hcap : pageBoundary db boundary maxSeq = .ok cap) (hn : cap.logSize = n)
include hcap hn

/-- The log is read where `since` is an integer of SQLite, and more follows only below the
    boundary. -/
theorem LogRequest.reader_eq (h : Chained P db) (hmax : (n : Int) ≤ maxSafeInteger)
    (hoffset : (offset : Int) ≤ maxSafeInteger) (hsince : (request.since : Int) ≤ maxInteger) :
    ∃ items, request.reader P db offset maxSeq boundary = .ok items ∧
      (items.2 = true → request.since < n ∧ offset + items.1.length ≤ n) := by
  have hbind := LogRequest.bindInt_eq_ok hmax hoffset hsince
  refine ⟨_, by rw [LogRequest.reader, logPage_eq h hcap hn hbind]; rfl, fun hmore => ?_⟩
  have hlt := (page_snd _ _ _).1 hmore
  have hlen : ((db.log.rows.take n).drop request.since).length ≤ n - request.since := by
    rw [List.length_drop]
    exact Nat.sub_le_sub_right (List.length_take_le _ _) _
  have hpage := page_length hmore
  simp only [List.length_map]
  omega

omit hn in
/-- A `since` that is no integer of SQLite is not bound. -/
theorem LogRequest.reader_overflow (hsince : maxInteger < (request.since : Int)) :
    request.reader P db offset maxSeq boundary = .error .overflowError := by
  have hbind : bindInt [request.since, cap.logSize, request.limit + 1, offset] =
      .error .overflowError := if_neg fun hrange => hsince.not_ge hrange.2
  rw [LogRequest.reader, logPage, hcap]
  change ((bindInt [(request.since : Int), cap.logSize, request.limit + 1, offset] >>=
    fun _ => _) : Except PyErr _).map _ = _
  rw [hbind]
  rfl

end Log

/-! ## The records -/

theorem scalar_of_isLowerHex {s : PyStr} (h : s.all isLowerHex = true) : Scalar s := by
  refine scalar_of_ascii fun c hc => ?_
  have := List.all_eq_true.1 h c hc
  simp only [isLowerHex, Bool.or_eq_true, Bool.and_eq_true, decide_eq_true_eq] at this
  omega

theorem scalar_of_isCommit {s : PyStr} (h : isCommit s = true) : Scalar s := by
  rw [isCommit, Bool.and_eq_true] at h
  exact scalar_of_isLowerHex h.2

theorem scalar_of_isSha256 {s : PyStr} (h : isSha256 s = true) : Scalar s := by
  rw [isSha256, Bool.and_eq_true] at h
  obtain ⟨t, rfl⟩ := List.isPrefixOf_iff_prefix.1 h.1
  have ht : Scalar t := scalar_of_hex256 h.2
  have hscheme : Scalar (py "sha256:") := by decide
  exact fun c hc => (List.mem_append.1 hc).elim (hscheme c) (ht c)

theorem bindText_handled {ss : List PyStr} {e : PyErr} (h : bindText ss = .error e) :
    Handled e := by
  induction ss with
  | nil => cases h
  | cons s ss ih =>
    rw [bindText] at h
    split_ifs at h
    · exact ih h
    · exact .inl (Except.error.inj h ▸ rfl)

/-- The `hash_version` of a request is one that the store takes. -/
theorem RecordsRequest.hashVersion_filters (request : RecordsRequest) :
    ¬(request.filters.hashVersion ≠ none ∧
      ((request.filters.hashVersion ≠ some 1 ∧ request.filters.hashVersion ≠ some 2) ∨
        request.filters.contentSha256 = [])) := by
  rw [RecordsRequest.filters, RecordsRequest.selectedHashVersion]
  dsimp only
  split_ifs with hcontent htwo
  · exact fun h => h.1 rfl
  · exact fun h => h.2.elim (fun hne => hne.2 rfl) hcontent
  · exact fun h => h.2.elim (fun hne => hne.1 rfl) hcontent

section Records

variable {db : Db} {request : RecordsRequest} (hchecked : request.Checked)
include hchecked

namespace RecordsRequest.Checked

theorem scalar_commit : Scalar request.commit := by
  by_cases hne : request.commit = []
  · rw [hne]
    decide
  · exact scalar_of_isCommit (hchecked.commit hne)

theorem scalar_contentSha256 : Scalar request.contentSha256 := by
  by_cases hne : request.contentSha256 = []
  · rw [hne]
    decide
  · exact scalar_of_isSha256 (hchecked.contentSha256 hne)

/-- Only a source identity that is signed is in a query that is signed. -/
theorem canonical_query :
    CanonicalWithin 99 (.obj request.query) ↔ Scalar request.sourceIdentity := by
  have hlimit : -maxSafeInteger ≤ (request.limit.val : Int) ∧
      (request.limit.val : Int) ≤ maxSafeInteger :=
    ⟨(by decide : -maxSafeInteger ≤ 0).trans (Int.natCast_nonneg _),
      (Int.ofNat_le.2 request.limit.2.2).trans (by decide)⟩
  have hversion : ∀ m ∈ (if request.selectedHashVersion = some 2 then [(py "hash_version", .int 2)]
      else [] : Dict), Scalar m.1 ∧ CanonicalWithin 98 m.2 := by
    split_ifs
    · exact List.forall_mem_singleton.2 ⟨by decide, canonicalWithin_int (by decide) _⟩
    · exact List.forall_mem_nil _
  rw [canonicalWithin_obj (n := 98), RecordsRequest.query]
  simp only [List.forall_mem_append, List.forall_mem_cons]
  constructor
  · rintro ⟨-, -, ⟨-, hidentity⟩, -⟩
    exact hidentity.1
  · intro hidentity
    exact ⟨⟨⟨⟨by decide, canonicalWithin_str hchecked.scalar_commit⟩,
      ⟨by decide, canonicalWithin_str hchecked.scalar_contentSha256⟩, List.forall_mem_nil _⟩,
      hversion⟩, ⟨by decide, canonicalWithin_int hlimit _⟩,
      ⟨by decide, canonicalWithin_str hidentity⟩, List.forall_mem_nil _⟩

theorem bindText_eq_ok : bindText [request.sourceIdentity, request.commit, request.contentSha256] =
    .ok () ↔ Scalar request.sourceIdentity := by
  rw [SkillRegistry.bindText_eq_ok]
  simp only [List.forall_mem_cons]
  exact ⟨fun h => h.1, fun h => ⟨h, hchecked.scalar_commit, hchecked.scalar_contentSha256,
    List.forall_mem_nil _⟩⟩

end RecordsRequest.Checked

variable {maxSeq : Option Int} {boundary : Option SnapshotBoundary} {cap : SnapshotBoundary}
  {n offset : Nat} (hcap : pageBoundary db boundary maxSeq = .ok cap) (hn : cap.logSize = n)
include hcap hn

/-- The records are read as the rows that are ranked first. -/
theorem RecordsRequest.reader_eq (h : Chained P db) (hmax : (n : Int) ≤ maxSafeInteger)
    (hoffset : (offset : Int) ≤ maxSafeInteger) (hidentity : Scalar request.sourceIdentity) :
    request.reader P db offset maxSeq boundary =
      (rankedRows db request.filters n).map fun ranked =>
        ((page request.limit offset ranked).1.map fun row => .obj (row.2.record P),
          (page request.limit offset ranked).2) := by
  have hmin : ∀ m : Nat, -maxInteger - 1 ≤ (m : Int) := fun m =>
    (by decide : -maxInteger - 1 ≤ 0).trans (Int.natCast_nonneg m)
  have hlimit : (request.limit.val : Int) + 1 ≤ maxInteger :=
    (Int.add_le_add_right (Int.ofNat_le.2 request.limit.2.2) 1).trans (by decide)
  refine recordsPage_eq h hcap hn request.hashVersion_filters hchecked.pair hchecked.nonempty
    (hchecked.bindText_eq_ok.2 hidentity) (bindInt_eq_ok.2 ?_)
  simp only [List.forall_mem_cons]
  exact ⟨⟨hmin _, hmax.trans maxSafeInteger_le⟩, ⟨hmin (request.limit.val + 1), hlimit⟩,
    ⟨hmin _, hoffset.trans maxSafeInteger_le⟩, List.forall_mem_nil _⟩

/-- Reading records fails only in SQLite, and more follow only below the boundary. -/
theorem RecordsRequest.reader_spec (h : Chained P db) (hmax : (n : Int) ≤ maxSafeInteger)
    (hoffset : (offset : Int) ≤ maxSafeInteger) (hidentity : Scalar request.sourceIdentity) :
    (∀ e, request.reader P db offset maxSeq boundary = .error e → Tolerated e) ∧
      ∀ items, request.reader P db offset maxSeq boundary = .ok items → items.2 = true →
        offset + items.1.length ≤ n := by
  rw [RecordsRequest.reader_eq hchecked hcap hn h hmax hoffset hidentity]
  refine ⟨fun e he => ?_, fun items hitems hmore => ?_⟩
  · obtain ⟨m, rfl⟩ := rankedRows_error (Except.map_eq_error he)
    trivial
  · obtain ⟨ranked, hranked, rfl⟩ := Except.map_eq_ok hitems
    have hlt := (page_snd _ _ _).1 hmore
    have hlen := rankedRows_length h hranked
    have hpage := page_length hmore
    simp only [List.length_map]
    omega

omit hn in
/-- A source identity that is no text of SQLite is not bound. -/
theorem RecordsRequest.reader_unscalar (hidentity : ¬Scalar request.sourceIdentity) :
    ∃ e, request.reader P db offset maxSeq boundary = .error e ∧ Handled e := by
  cases hbind : bindText [request.sourceIdentity, request.commit, request.contentSha256] with
  | ok u => exact absurd (hchecked.bindText_eq_ok.1 hbind) hidentity
  | error e =>
    refine ⟨e, ?_, bindText_handled hbind⟩
    have hpair : ¬¬(request.filters.sourceIdentity = [] ↔ request.filters.commit = []) :=
      not_not.2 hchecked.pair
    have hnonempty : ¬(request.filters.sourceIdentity = [] ∧ request.filters.contentSha256 = []) :=
      hchecked.nonempty
    rw [RecordsRequest.reader, recordsPage, if_neg request.hashVersion_filters, if_neg hpair,
      if_neg hnonempty, hcap]
    change (bindText [request.sourceIdentity, request.commit, request.contentSha256] >>=
      fun _ => _) = _
    rw [hbind]
    rfl

end Records

/-! ## Which requests are answered -/

variable (db : Db)

/-- A request of the log that is not answered: it is valid and has no cursor, and its `since`
    is no integer of SQLite or the boundary is too large to be signed. -/
def LogRequest.Unanswered (request : LogRequest) : Prop :=
  request.validate = .ok () ∧ request.cursor = [] ∧
    (maxInteger < (request.since : Int) ∨ maxSafeInteger < (db.log.rows.length : Int))

/-- A request of records that is not answered: it is valid and has no cursor, and its source
    identity is no text of SQLite or the boundary is too large to be signed. -/
def RecordsRequest.Unanswered (request : RecordsRequest) : Prop :=
  request.validate = .ok () ∧ request.cursor = [] ∧
    (¬Scalar request.sourceIdentity ∨ maxSafeInteger < (db.log.rows.length : Int))

variable {db}

/-- A request is answered when it is refused, when it has a cursor, and else when its first
    page is. -/
theorem answered_iff {validated : Except PyErr Unit} {service : Service P} {endpoint : Endpoint}
    {query : Dict} {clock : Clock} {cursor : PyStr} {read : Reader} {u : Prop}
    (hvalid : ∀ e, validated = .error e → Tolerated e)
    (hcursor : validated = .ok () → cursor ≠ [] →
      Answered (servePage service db endpoint query clock cursor read))
    (hfirst : validated = .ok () →
      (Answered (servePage service db endpoint query clock [] read) ↔ ¬u)) :
    Answered (validated >>= fun _ => servePage service db endpoint query clock cursor read) ↔
      ¬(validated = .ok () ∧ cursor = [] ∧ u) := by
  cases validated with
  | error e =>
    refine iff_of_true (fun e' he => ?_) fun hu => (by cases hu.1)
    exact Except.error.inj he ▸ hvalid e rfl
  | ok v =>
    change Answered (servePage service db endpoint query clock cursor read) ↔ _
    by_cases hc : cursor = []
    · rw [hc]
      exact (hfirst rfl).trans (not_congr ⟨fun hu => ⟨rfl, rfl, hu⟩, fun hu => hu.2.2⟩)
    · exact iff_of_true (hcursor rfl hc) fun hu => hc hu.2.1

theorem zero_le_maxSafeInteger : ((0 : Nat) : Int) ≤ maxSafeInteger := by decide

section Endpoints

variable (h : ValidStore P db) (service : Service P) (clock : Clock)
include h

/-- A first page of the log. -/
theorem LogRequest.answered_first_iff (request : LogRequest) :
    Answered (servePage service db .log request.query clock [] (request.reader P db)) ↔
      ¬(maxInteger < (request.since : Int) ∨ maxSafeInteger < (db.log.rows.length : Int)) := by
  by_cases hsize : maxSafeInteger < (db.log.rows.length : Int)
  · exact iff_of_false (not_answered_large h hsize) (not_not.2 (.inr hsize))
  rw [not_lt] at hsize
  by_cases hsince : maxInteger < (request.since : Int)
  · refine iff_of_false (not_answered_read (e := .overflowError) h hsize (fun b hb _ => ?_) id)
      (not_not.2 (.inl hsince))
    have hcap : pageBoundary db none (some db.log.rows.length) = .ok b := hb
    exact LogRequest.reader_overflow hcap hsince
  · refine iff_of_true (answered_first h hsize fun b hb hlen => ?_)
      fun hu => hu.elim hsince hsize.not_gt
    have hcap : pageBoundary db none (some db.log.rows.length) = .ok b := hb
    obtain ⟨items, hitems, hmore⟩ := LogRequest.reader_eq hcap hlen h.toChained hsize zero_le_maxSafeInteger
      (not_lt.1 hsince)
    rw [hitems]
    refine ⟨fun e he => (by cases he), fun items' hok hmore' => ?_⟩
    obtain rfl := Except.ok.inj hok
    obtain ⟨hlt, hle⟩ := hmore hmore'
    exact ⟨LogRequest.canonical_query.2 ((Int.ofNat_le.2 hlt.le).trans hsize), hle⟩

/-- A page of the log with a cursor. -/
theorem LogRequest.answered_cursor (request : LogRequest) {cursor : PyStr} (hcursor : cursor ≠ []) :
    Answered (servePage service db .log request.query clock cursor (request.reader P db)) := by
  refine SkillRegistry.answered_cursor hcursor fun b n offset hb hn hmax hoffset hquery => ?_
  have hsince := (LogRequest.canonical_query.1 hquery).trans maxSafeInteger_le
  obtain ⟨items, hitems, hmore⟩ := LogRequest.reader_eq (pageBoundary_eq hb) hn h.toChained hmax
    hoffset hsince
  rw [hitems]
  refine ⟨fun e he => (by cases he), fun items' hok hmore' => ?_⟩
  obtain rfl := Except.ok.inj hok
  exact (hmore hmore').2

/-- A first page of the records. -/
theorem RecordsRequest.answered_first_iff {request : RecordsRequest} (hchecked : request.Checked) :
    Answered (servePage service db .records request.query clock [] (request.reader P db)) ↔
      ¬(¬Scalar request.sourceIdentity ∨ maxSafeInteger < (db.log.rows.length : Int)) := by
  by_cases hsize : maxSafeInteger < (db.log.rows.length : Int)
  · exact iff_of_false (not_answered_large h hsize) (not_not.2 (.inr hsize))
  rw [not_lt] at hsize
  by_cases hidentity : Scalar request.sourceIdentity
  · refine iff_of_true (answered_first h hsize fun b hb hlen => ?_)
      fun hu => hu.elim (absurd hidentity) hsize.not_gt
    have hcap : pageBoundary db none (some db.log.rows.length) = .ok b := hb
    obtain ⟨herror, hok⟩ := RecordsRequest.reader_spec hchecked hcap hlen h.toChained hsize zero_le_maxSafeInteger
      hidentity
    exact ⟨herror, fun items hitems hmore =>
      ⟨hchecked.canonical_query.2 hidentity, hok items hitems hmore⟩⟩
  · obtain ⟨b, -, hb, -⟩ := h.exists_boundary
    have hcap {b : SnapshotBoundary} (hb : snapshotBoundary db (some db.log.rows.length) = .ok b) :
        pageBoundary db none (some db.log.rows.length) = .ok b := hb
    obtain ⟨e, he, hhandled⟩ := RecordsRequest.reader_unscalar hchecked (hcap hb) hidentity
    exact iff_of_false (not_answered_read h hsize (fun _ _ _ => he) hhandled.not_tolerated)
      (not_not.2 (.inl hidentity))

/-- A page of the records with a cursor. -/
theorem RecordsRequest.answered_cursor {request : RecordsRequest} (hchecked : request.Checked)
    {cursor : PyStr} (hcursor : cursor ≠ []) :
    Answered (servePage service db .records request.query clock cursor (request.reader P db)) := by
  refine SkillRegistry.answered_cursor hcursor fun b n offset hb hn hmax hoffset hquery => ?_
  exact RecordsRequest.reader_spec hchecked (pageBoundary_eq hb) hn h.toChained hmax hoffset
    (hchecked.canonical_query.1 hquery)

/-- Which reads of a valid store are answered by a page or by an exception that is mapped to a
    response: all that are refused by their checks, all with a cursor, and the first pages
    whose parameters SQLite can bind, of a boundary that can be signed. -/
theorem reads_answered_iff :
    (∀ request : LogRequest,
      Answered (log service db clock request) ↔ ¬request.Unanswered db) ∧
    ∀ request : RecordsRequest,
      Answered (records service db clock request) ↔ ¬request.Unanswered db := by
  refine ⟨fun request => ?_, fun request => ?_⟩
  · exact answered_iff (fun _ => validateQueryParameters_tolerated)
      (fun _ hcursor => request.answered_cursor h service clock hcursor)
      fun _ => request.answered_first_iff h service clock
  · exact answered_iff (fun _ => RecordsRequest.validate_tolerated)
      (fun hvalid hcursor => RecordsRequest.answered_cursor h service clock
        (RecordsRequest.checked hvalid) hcursor)
      fun hvalid => RecordsRequest.answered_first_iff h service clock
        (RecordsRequest.checked hvalid)

end Endpoints

/-! ## On the sample registry -/

theorem validStore_sample : ValidStore .sample sampleConn.disk := by
  obtain ⟨hverified, hinvariant, -⟩ := openStore_ready (by decide) openStore_sample
  exact ⟨hinvariant, hverified⟩

/-- A service of one key. -/
def sampleService : Service .sample := ⟨sampleKey, []⟩

/-- A clock that stands still. -/
def sampleClock : Clock := ⟨0, 0, by decide⟩

/-- A request of the log from past the integers of SQLite on, without a cursor. -/
def sampleFarRequest : LogRequest :=
  ⟨[(py "since", py "9223372036854775808")], 9223372036854775808, ⟨100, by decide⟩, []⟩

theorem reads_answered_iff_sample :
    (∀ request : LogRequest, Answered (log sampleService sampleConn.disk sampleClock request) ↔
      ¬request.Unanswered sampleConn.disk) ∧
    ∀ request : RecordsRequest,
      Answered (records sampleService sampleConn.disk sampleClock request) ↔
        ¬request.Unanswered sampleConn.disk :=
  reads_answered_iff validStore_sample sampleService sampleClock

set_option maxRecDepth 10000 in
/-- A valid request of the log raises an exception that no handler maps. -/
theorem farRequest_overflows : ValidStore .sample sampleConn.disk ∧
    sampleFarRequest.validate = .ok () ∧
    log sampleService sampleConn.disk sampleClock sampleFarRequest = .error .overflowError ∧
    ¬Answered (log sampleService sampleConn.disk sampleClock sampleFarRequest) := by
  have hlog : log sampleService sampleConn.disk sampleClock sampleFarRequest =
      .error .overflowError := by decide +kernel
  exact ⟨validStore_sample, by decide +kernel, hlog, fun h => h _ hlog⟩

end SkillRegistry
