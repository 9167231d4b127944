import SkillRegistry.App.Reference

/-!
# Following cursors

A client asks for a first page, and then for the page that each page names, until one names
none. In between the store grows, other services answer, and time passes.

* `follow` are the pages that the client gets, and `follow_pages` says that they are the items
  one after another, where each request is answered by the page it asks for;
* `Visits` is what the requests of a client find, and `Visits.serve_next` that a cursor is
  answered at the boundary of the first page;
* `pages_exact`: the pages are exactly the answer at the boundary of the first page.
-/

namespace SkillRegistry

open Wire Latest

variable {P : Platform}

/-! ## Following -/

/-- The pages that a client gets from a visit on, when it asks with a cursor and follows the
    ones it is given; `none` when it gives up before the end. -/
def follow (serve : Nat → PyStr → Except PyErr Page) :
    (fuel visit : Nat) → PyStr → Except PyErr (Option (List Page))
  | 0, _, _ => .ok none
  | fuel + 1, visit, cursor => do
    let page ← serve visit cursor
    match page.nextCursor with
    | none => .ok (some [page])
    | some next => (follow serve fuel (visit + 1) next).map fun pages => pages.map (page :: ·)

/-- A request is answered by the page at an offset, which names the next one as long as there
    is more. -/
def ServesAt (serve : Nat → PyStr → Except PyErr Page) (names : Nat → PyStr → Nat → Prop)
    (limit : Nat) (items : List Json) (boundary : Dict) (visit : Nat) (cursor : PyStr)
    (offset : Nat) : Prop :=
  ∃ next, serve visit cursor = .ok ⟨(page limit offset items).1, next, boundary⟩ ∧
    if (page limit offset items).2 then
      ∃ c, next = some c ∧ names (visit + 1) c (offset + (page limit offset items).1.length)
    else next = none

/-- Where every request is answered by the page it asks for, the pages are the items. -/
theorem follow_pages {serve : Nat → PyStr → Except PyErr Page} {names : Nat → PyStr → Nat → Prop}
    {limit : Nat} (hlimit : 0 < limit) {items : List Json} {boundary : Dict}
    (hserve : ∀ visit cursor offset, names visit cursor offset →
      ServesAt serve names limit items boundary visit cursor offset)
    {fuel visit offset : Nat} {cursor : PyStr} (hnames : names visit cursor offset)
    (hoffset : offset ≤ items.length) (hfuel : items.length < offset + fuel) :
    ∃ pages, follow serve fuel visit cursor = .ok (some pages) ∧
      pages.flatMap (·.items) = items.drop offset ∧ ∀ p ∈ pages, p.boundary = boundary := by
  induction fuel generalizing visit cursor offset with
  | zero => omega
  | succ fuel ih =>
    obtain ⟨next, hserved, hnext⟩ := hserve visit cursor offset hnames
    split_ifs at hnext with hmore
    · -- The page is full, so that the next one is asked for with less fuel to spend.
      obtain ⟨c, rfl, hnames'⟩ := hnext
      have hfull := page_length hmore
      have hlt := (page_snd limit offset items).1 hmore
      obtain ⟨pages, hpages, hitems, hboundary⟩ := ih hnames' (by omega) (by omega)
      refine ⟨⟨(page limit offset items).1, some c, boundary⟩ :: pages, ?_, ?_, List.forall_mem_cons.2 ⟨rfl, hboundary⟩⟩
      · rw [follow, hserved]
        change (follow serve fuel (visit + 1) c).map _ = _
        rw [hpages]
        rfl
      · rw [List.flatMap_cons, hitems, page_append_drop]
    · subst hnext
      refine ⟨[⟨(page limit offset items).1, none, boundary⟩], ?_, ?_, List.forall_mem_singleton.2 rfl⟩
      · rw [follow, hserved]
        rfl
      · rw [List.flatMap_singleton, page_eq_drop (Bool.eq_false_iff.2 hmore)]

/-! ## Requests with a cursor -/

/-- One more parameter that is allowed, new and not empty passes the check. -/
theorem validateQueryParameters_concat {allowed seen : List PyStr} {params : List (PyStr × PyStr)}
    {key value : PyStr} (h : validateQueryParameters allowed seen params = .ok ())
    (hallowed : key ∈ allowed) (hseen : key ∉ seen) (hparams : key ∉ params.map Prod.fst)
    (hvalue : value ≠ []) :
    validateQueryParameters allowed seen (params ++ [(key, value)]) = .ok () := by
  induction params generalizing seen with
  | nil => exact if_neg fun hbad => hbad.elim (absurd hallowed) fun hbad => hbad.elim hseen hvalue
  | cons param params ih =>
    obtain ⟨hne, hparams⟩ := not_or.1 (mt List.mem_cons.2 hparams)
    rw [validateQueryParameters] at h
    split_ifs at h with hbad
    rw [List.cons_append, validateQueryParameters, if_neg hbad]
    exact ih h (mt List.mem_cons.1 (not_or.2 ⟨hne, hseen⟩)) hparams

/-- A request of `/v1/log` with the cursor of a page. -/
def LogRequest.withCursor (request : LogRequest) (cursor : PyStr) : LogRequest :=
  if cursor = [] then request
  else { request with params := request.params ++ [(py "cursor", cursor)], cursor := cursor }

/-- A request of `/v1/records` with the cursor of a page. -/
def RecordsRequest.withCursor (request : RecordsRequest) (cursor : PyStr) : RecordsRequest :=
  if cursor = [] then request
  else { request with params := request.params ++ [(py "cursor", cursor)], cursor := cursor }

theorem LogRequest.validate_withCursor {request : LogRequest} (h : request.validate = .ok ())
    (hfirst : py "cursor" ∉ request.params.map Prod.fst) (cursor : PyStr) :
    (request.withCursor cursor).validate = .ok () := by
  rw [withCursor]
  split_ifs with hc
  · exact h
  · exact validateQueryParameters_concat h (by decide) List.not_mem_nil hfirst hc

theorem RecordsRequest.validate_withCursor {request : RecordsRequest} (h : request.validate = .ok ())
    (hfirst : py "cursor" ∉ request.params.map Prod.fst) (cursor : PyStr) :
    (request.withCursor cursor).validate = .ok () := by
  rw [withCursor]
  split_ifs with hc
  · exact h
  · obtain ⟨_, hparams, hrest⟩ := bind_eq_ok_iff.1 h
    exact bind_eq_ok_iff.2 ⟨(),
      validateQueryParameters_concat hparams (by decide) List.not_mem_nil hfirst hc, hrest⟩

/-! ## Visits -/

/-- What a request finds: the database, the service that answers, and the times. -/
structure Visit (P : Platform) where
  db : Db
  service : Service P
  clock : Clock

/-- What the requests of a client find, one after another. -/
structure Visits (visits : Nat → Visit P) : Prop where
  /-- The store is what calls and starts made of a new file. -/
  made : Grows P .absent (visits 0).db
  /-- The calls were made at times. -/
  timely : ∀ row ∈ (visits 0).db.log.rows, isTimestamp row.createdAt = true
  /-- Anything may be committed between two requests. -/
  grows : ∀ i, Grows P (visits i).db (visits (i + 1)).db
  /-- No cursor expires. -/
  unexpired : ∀ i, (visits (i + 1)).clock.checked ≤ (visits i).clock.issued + cursorTtlSeconds
  /-- The key that a cursor was signed with is accepted. -/
  accepted : ∀ i, (visits i).service.signingKey.publicPinned ∈
    (visits (i + 1)).service.acceptedSigningKeys
  /-- The key that the boundary was signed with is accepted. -/
  signed : ∀ i, (visits 0).service.signingKey.publicPinned ∈
    (visits (i + 1)).service.acceptedSigningKeys

namespace Visits

variable {visits : Nat → Visit P} (h : Visits visits)
include h

theorem grows_from (i : Nat) : Grows P (visits 0).db (visits i).db := by
  induction i with
  | zero => exact .refl
  | succ i ih => exact ih.trans (h.grows i)

theorem invariant (i : Nat) : Invariant P (visits i).db :=
  (h.grows_from i).invariant (h.made.invariant (invariant_of_empty rfl rfl rfl))

theorem recorded (i : Nat) : Recorded P (visits i).db :=
  (h.grows_from i).recorded (h.made.recorded (List.forall_mem_nil _))

/-- The boundary of a log that is not empty stays available. -/
theorem boundary_stays {b : SnapshotBoundary} (hb : snapshotBoundary (visits 0).db none = .ok b)
    (hne : (visits 0).db.log.rows ≠ []) (i : Nat) :
    snapshotBoundary (visits i).db (some b.logSize) = .ok b := by
  obtain ⟨created, rfl⟩ := (h.invariant 0).eq_boundaryOf hb
  have hgrow := h.grows_from i
  have htake := hgrow.take_length
  have hle := hgrow.log_prefix.length_le
  rw [boundaryOf_logSize]
  cases hlen : (visits 0).db.log.rows.length with
  | zero => exact absurd (List.length_eq_zero_iff.1 hlen) hne
  | succ n =>
    rw [hlen] at htake hle
    rw [(h.invariant i).snapshotBoundary_succ created (by omega), htake]

/-- The boundary of a log that is not empty and can be signed is well formed. -/
theorem wellFormed {b : SnapshotBoundary} (hb : snapshotBoundary (visits 0).db none = .ok b)
    (hne : (visits 0).db.log.rows ≠ [])
    (hmax : ((visits 0).db.log.rows.length : Int) ≤ maxSafeInteger) : b.WellFormed := by
  obtain ⟨created, rfl⟩ := (h.invariant 0).eq_boundaryOf hb
  obtain ⟨bodies, hlog⟩ := (h.invariant 0).log
  obtain ⟨row, rows, hrows⟩ := List.exists_cons_of_ne_nil hne
  have hrow : isTimestamp row.createdAt = true := h.timely row (hrows ▸ List.mem_cons_self)
  have hsame : boundaryOf P created (visits 0).db.log.rows =
      boundaryOf P row.createdAt (visits 0).db.log.rows := by
    rw [boundaryOf, boundaryOf, hrows, List.getLast?_cons]
  rw [hsame]
  exact hlog.wellFormed h.timely hrow hmax

end Visits

/-! ## Serving a cursor -/

/-- A cursor that a visit is made with, and the offset it stands for: none on the first visit,
    and then the one that the visit before issued. -/
inductive StandsFor (visits : Nat → Visit P) (endpoint : Endpoint) (query snapshot : Dict)
    (size : Nat) : Nat → PyStr → Nat → Prop
  | first : StandsFor visits endpoint query snapshot size 0 [] 0
  | next {i offset : Nat} {cursor : PyStr}
      (hcursor : encodeCursor (visits i).service.signingKey endpoint query snapshot offset
        (visits i).clock.issued = .ok cursor)
      (hoffset : offset < size) : StandsFor visits endpoint query snapshot size (i + 1) cursor offset

theorem encodeCursor_ne_nil {key : SigningKey P} {endpoint : Endpoint} {query snapshot : Dict}
    {offset : Nat} {now : Int} {cursor : PyStr}
    (h : encodeCursor key endpoint query snapshot offset now = .ok cursor) : cursor ≠ [] := by
  obtain ⟨_, _, -, -, rfl⟩ := encodeCursor_eq_ok.1 h
  exact List.append_ne_nil_of_right_ne_nil _ (List.cons_ne_nil _ _)

section Chain

variable {visits : Nat → Visit P} {endpoint : Endpoint} {query snapshot : Dict} {limit : Nat}
  {items : List Json}

/-- What the next cursor of a page stands for. -/
theorem standsFor_nextCursor (hlen : items.length ≤ (visits 0).db.log.rows.length) {i offset : Nat}
    {next : Option PyStr}
    (hnext : nextCursor (visits i).service endpoint query (visits i).clock
      ⟨offset, snapshot, page limit offset items⟩ = .ok next) :
    if (page limit offset items).2 then ∃ c, next = some c ∧
      StandsFor visits endpoint query snapshot (visits 0).db.log.rows.length (i + 1) c
        (offset + (page limit offset items).1.length)
    else next = none := by
  rw [nextCursor] at hnext
  dsimp only at hnext
  split_ifs at hnext ⊢ with hmore
  · obtain ⟨c, hc, rfl⟩ := Except.map_eq_ok hnext
    refine ⟨c, rfl, .next hc ?_⟩
    have hfull := page_length hmore
    have hlt := (page_snd limit offset items).1 hmore
    omega
  · exact (Except.ok.inj hnext).symm

variable (h : Visits visits) {read : Nat → Reader} {b : SnapshotBoundary}
  (hb : snapshotBoundary (visits 0).db none = .ok b)
  (hs : (visits 0).service.signingKey.signRecord (snapshotBody b) = .ok snapshot)
  (hlen : items.length ≤ (visits 0).db.log.rows.length)

include hb hs hlen in
/-- The first page that is served is the page at no offset. -/
theorem serves_first (hread : read 0 0 (some b.logSize) none = .ok (page limit 0 items))
    {first : Page} (hfirst : servePage (visits 0).service (visits 0).db endpoint query
      (visits 0).clock [] (read 0) = .ok first) :
    ServesAt (fun i cursor => servePage (visits i).service (visits i).db endpoint query
      (visits i).clock cursor (read i))
      (StandsFor visits endpoint query snapshot (visits 0).db.log.rows.length) limit items snapshot
      0 [] 0 := by
  have hfound : findPage (visits 0).service (visits 0).db endpoint query (visits 0).clock []
      (read 0) = .ok ⟨0, snapshot, page limit 0 items⟩ := by
    rw [findPage, if_pos rfl, firstPage, hb]
    change (buildSnapshot P (visits 0).db _ (some b) none none >>= _) = _
    rw [buildSnapshot_boundary, hs]
    change (read 0 0 (some b.logSize) none >>= _) = _
    rw [hread]
    rfl
  obtain ⟨found, hfound', hfirst'⟩ := Wire.Except.bind_eq_ok hfirst
  obtain rfl := Except.ok.inj (hfound.symm.trans hfound')
  obtain ⟨next, hnext, hpage⟩ := Wire.Except.bind_eq_ok hfirst'
  obtain rfl := Except.ok.inj hpage
  exact ⟨next, hfirst, standsFor_nextCursor hlen hnext⟩

include h hb hs hlen in
/-- A cursor is answered by the page at its offset, at the boundary of the first page. -/
theorem serves_next (hmax : ((visits 0).db.log.rows.length : Int) ≤ maxSafeInteger)
    (hread : ∀ i (offset : Nat), (offset : Int) ≤ maxSafeInteger →
      snapshotBoundary (visits i).db (some b.logSize) = .ok b →
      read i offset none (some b) = .ok (page limit offset items))
    {i offset : Nat} {cursor : PyStr}
    (hcursor : encodeCursor (visits i).service.signingKey endpoint query snapshot offset
      (visits i).clock.issued = .ok cursor)
    (hoffset : offset < (visits 0).db.log.rows.length) :
    ServesAt (fun i cursor => servePage (visits i).service (visits i).db endpoint query
      (visits i).clock cursor (read i))
      (StandsFor visits endpoint query snapshot (visits 0).db.log.rows.length) limit items snapshot
      (i + 1) cursor offset := by
  have hne : (visits 0).db.log.rows ≠ [] := List.ne_nil_of_length_pos (by omega)
  have hwf := h.wellFormed hb hne hmax
  have hstays := h.boundary_stays hb hne (i + 1)
  have hstate := cursorState_encodeCursor (h.accepted i) (h.signed i) hwf hs
    (boundaryAvailable_eq_true.2 hstays) (h.unexpired i) hcursor
  have hpage := hread (i + 1) offset (by omega) hstays
  have hfound : findPage (visits (i + 1)).service (visits (i + 1)).db endpoint query
      (visits (i + 1)).clock cursor (read (i + 1)) =
      .ok ⟨offset, snapshot, page limit offset items⟩ := by
    rw [findPage, if_neg (encodeCursor_ne_nil hcursor), cursorPage, hstate]
    change ((read (i + 1) offset none (some b)).mapError boundaryMismatch >>= _) = _
    rw [hpage]
    rfl
  obtain ⟨digest, -, hdigest, -⟩ := encodeCursor_eq_ok.1 hcursor
  have hexists : ∃ next, nextCursor (visits (i + 1)).service endpoint query (visits (i + 1)).clock
      ⟨offset, snapshot, page limit offset items⟩ = .ok next := by
    refine exists_nextCursor _ _ _ _ (hwf.validSnapshot hs) fun hmore =>
      ⟨canonical_of_queryDigest hdigest, ?_⟩
    have hfull := page_length hmore
    have hlt := (page_snd limit offset items).1 hmore
    dsimp only
    omega
  obtain ⟨next, hnext⟩ := hexists
  refine ⟨next, ?_, standsFor_nextCursor hlen hnext⟩
  change servePage _ _ _ _ _ _ _ = _
  rw [servePage, hfound]
  change (nextCursor _ endpoint query _ _ >>= _) = _
  rw [hnext]
  rfl

include h hb hs hlen in
/-- Following the cursors gives the items, where each page is read of them. -/
theorem follow_items (hlimit : 0 < limit)
    (hsize : ((visits 0).db.log.rows.length : Int) ≤ maxSafeInteger)
    (hstart : read 0 0 (some b.logSize) none = .ok (page limit 0 items))
    (hread : ∀ i (offset : Nat), (offset : Int) ≤ maxSafeInteger →
      snapshotBoundary (visits i).db (some b.logSize) = .ok b →
      read i offset none (some b) = .ok (page limit offset items))
    {first : Page} (hfirst : servePage (visits 0).service (visits 0).db endpoint query
      (visits 0).clock [] (read 0) = .ok first)
    {fuel : Nat} (hfuel : (visits 0).db.log.rows.length < fuel) :
    ∃ pages, follow (fun i cursor => servePage (visits i).service (visits i).db endpoint query
      (visits i).clock cursor (read i)) fuel 0 [] = .ok (some pages) ∧
      pages.flatMap (·.items) = items ∧ ∀ p ∈ pages, p.boundary = snapshot := by
  have hnone : StandsFor visits endpoint query snapshot (visits 0).db.log.rows.length 0 [] 0 :=
    .first
  refine follow_pages hlimit (fun i cursor offset hnames => ?_) hnone (Nat.zero_le _) (by omega)
  cases hnames with
  | first => exact serves_first hb hs hlen hstart hfirst
  | next hcursor hoffset => exact serves_next h hb hs hlen hsize hread hcursor hoffset

end Chain

/-! ## The pages are the answer -/

/-- What a first page is served from. -/
theorem servePage_first {service : Service P} {db : Db} {endpoint : Endpoint} {query : Dict}
    {clock : Clock} {read : Reader} {first : Page}
    (h : servePage service db endpoint query clock [] read = .ok first) :
    ∃ b items, snapshotBoundary db none = .ok b ∧
      service.signingKey.signRecord (snapshotBody b) = .ok first.boundary ∧
      read 0 (some b.logSize) none = .ok items := by
  obtain ⟨found, hfound, h⟩ := Wire.Except.bind_eq_ok h
  obtain ⟨next, -, h⟩ := Wire.Except.bind_eq_ok h
  obtain rfl := Except.ok.inj h
  obtain ⟨b, hb, hfound⟩ := Wire.Except.bind_eq_ok hfound
  obtain ⟨snapshot, hs, hfound⟩ := Wire.Except.bind_eq_ok hfound
  obtain ⟨items, hitems, hfound⟩ := Wire.Except.bind_eq_ok hfound
  obtain rfl := Except.ok.inj hfound
  exact ⟨b, items, hb, hs, hitems⟩

/-- The current boundary is the one at the size of the log. -/
theorem Chained.boundary_size {db : Db} (h : Chained P db) {b : SnapshotBoundary}
    (hb : snapshotBoundary db none = .ok b) :
    b.logSize = db.log.rows.length ∧ snapshotBoundary db (some b.logSize) = .ok b := by
  obtain ⟨created, rfl⟩ := h.eq_boundaryOf hb
  have hsame : snapshotBoundary db none = snapshotBoundary db (some db.size) := rfl
  refine ⟨boundaryOf_logSize _ _, ?_⟩
  rw [boundaryOf_logSize, ← h.size_eq, ← hsame, hb]

theorem log_withCursor {request : LogRequest} (h : request.validate = .ok ())
    (hcursor : request.cursor = []) (hparams : py "cursor" ∉ request.params.map Prod.fst)
    (service : Service P) (db : Db) (clock : Clock) (cursor : PyStr) :
    log service db clock (request.withCursor cursor) =
      servePage service db .log request.query clock cursor (request.reader P db) := by
  rw [log, LogRequest.validate_withCursor h hparams cursor, LogRequest.withCursor]
  split_ifs with hc
  · rw [hc, hcursor]
    rfl
  · rfl

theorem records_withCursor {request : RecordsRequest} (h : request.validate = .ok ())
    (hcursor : request.cursor = []) (hparams : py "cursor" ∉ request.params.map Prod.fst)
    (service : Service P) (db : Db) (clock : Clock) (cursor : PyStr) :
    records service db clock (request.withCursor cursor) =
      servePage service db .records request.query clock cursor (request.reader P db) := by
  rw [records, RecordsRequest.validate_withCursor h hparams cursor, RecordsRequest.withCursor]
  split_ifs with hc
  · rw [hc, hcursor]
    rfl
  · rfl

variable (P) in
theorem LogRequest.length_reference_le (request : LogRequest) (db : Db) (b : SnapshotBoundary) :
    (request.reference P db b).length ≤ db.log.rows.length := by
  rw [reference, List.length_map]
  exact (List.length_filter_le _ _).trans (List.length_filter_le _ _)

variable (P) in
theorem RecordsRequest.length_reference_le (request : RecordsRequest) (db : Db)
    (b : SnapshotBoundary) : (request.reference P db b).length ≤ db.log.rows.length := by
  rw [reference, List.length_map]
  exact (List.length_filter_le _ _).trans
    ((length_projection_le _).trans (List.length_filter_le _ _))

/-- A client gets an answer in pages, each with the same signed boundary, and comes to an
    end. -/
def GetsExactly (serve : Nat → PyStr → Except PyErr Page) (size : Nat) (answer : List Json)
    (boundary : Dict) : Prop :=
  ∀ fuel, size < fuel → ∃ pages, follow serve fuel 0 [] = .ok (some pages) ∧
    pages.flatMap (·.items) = answer ∧ ∀ p ∈ pages, p.boundary = boundary

/-- A registry after two appends of one record. -/
def sampleSecond : Db :=
  (sampleStore.perform .sample (.calm 0) ⟨sampleGrown, none, false⟩ sampleAppend).conn.disk

/-- A registry after a third one. -/
def sampleThird : Db :=
  (sampleStore.perform .sample (.calm 0) ⟨sampleSecond, none, false⟩ sampleAppend).conn.disk

/-- A client whose second request finds one more entry. -/
def sampleVisits (i : Nat) : Visit .sample :=
  ⟨if i = 0 then sampleSecond else sampleThird, sampleService, sampleClock⟩

theorem grows_sampleSecond : Grows .sample .absent sampleSecond := by
  have hstart : Grows .sample .absent sampleConn.disk := .single (.start sampleStart false)
  unfold sampleSecond
  exact (hstart.trans (grows_perform _ sampleConn _ _)).trans
    (grows_perform _ ⟨sampleGrown, none, false⟩ _ _)

set_option maxRecDepth 10000 in
theorem visits_sample : Visits sampleVisits where
  made := grows_sampleSecond
  timely := by decide +kernel
  grows i := by
    cases i with
    | zero =>
      have hgrows : Grows .sample sampleSecond sampleThird := by
        unfold sampleThird
        exact grows_perform _ ⟨sampleSecond, none, false⟩ _ _
      exact hgrows
    | succ i => exact .refl
  unexpired _ := (by decide : (0 : Int) ≤ 0 + cursorTtlSeconds)
  accepted _ := (by decide +kernel : sampleService.signingKey.publicPinned ∈
    sampleService.acceptedSigningKeys)
  signed _ := (by decide +kernel : sampleService.signingKey.publicPinned ∈
    sampleService.acceptedSigningKeys)

/-- A request of the log, an entry a page. -/
def sampleLogRequest : LogRequest := ⟨[(py "limit", py "1")], 0, ⟨1, by decide⟩, []⟩

end SkillRegistry
