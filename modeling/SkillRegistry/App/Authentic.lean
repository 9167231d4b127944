import SkillRegistry.App.Follow
import SkillRegistry.Registry

/-!
# What a signature stands for

One key signs the records that the registry countersigns, its snapshots, and its cursors,
and nothing in what is signed says which of the three it is. It is told from the members of
what is signed: only a record has a name, and a cursor has no head.

* `Statement` is what the registry signs, and `Registry.Signing` a run with the statements it
  has signed so far;
* `Registry.Signing.genuine`: what they are made of, whatever was submitted;
* `Reads.unique`: the signed bytes of one kind are not those of another;
* `cursor_issued`: a cursor that is accepted was issued, for the same endpoint and query.
-/

namespace SkillRegistry

open Wire

/-! ## Statements -/

/-- What the registry signs: a record that it countersigned, a snapshot, or a cursor. -/
inductive Statement where
  | record (countersigned : Dict)
  | snapshot (signed : Dict)
  | cursor (endpoint : Endpoint) (query carried : Dict) (offset : Nat) (expiresAt : Int)

/-- The kinds of statements. -/
inductive Kind where
  | record | snapshot | cursor
  deriving DecidableEq, Repr

/-- The kind of a statement. -/
def Statement.kind : Statement → Kind
  | .record _ => .record
  | .snapshot _ => .snapshot
  | .cursor .. => .cursor

variable (P : Platform)

/-- The bytes that are signed for a statement. -/
def Statement.payload : Statement → Except PyErr Bytes
  | .record countersigned => canonicalBytes P countersigned
  | .snapshot signed => canonicalBytes P signed
  | .cursor endpoint query carried offset expiresAt => do
    let digest ← queryDigest P endpoint query
    canonicalDocument P (.obj (cursorBody digest carried offset expiresAt))

/-- An object that the checks of a kind accept under a key, with the bytes its signature
    covers. -/
inductive AcceptedAs (publicKey : PyStr) : Kind → Bytes → Prop
  | record {v : Json} {record : Dict} {payload : Bytes} (hv : v.Sorted)
      (hvalid : validateRecord P v = .ok record)
      (hverified : verifySigned P publicKey record = true)
      (hpayload : canonicalBytes P record = .ok payload) : AcceptedAs publicKey .record payload
  | snapshot {v : Json} {snapshot : Dict} {payload : Bytes} (hv : v.Sorted)
      (hvalid : validateSnapshot P (some v) = .ok snapshot)
      (hverified : verifySigned P publicKey snapshot = true)
      (hpayload : canonicalBytes P snapshot = .ok payload) : AcceptedAs publicKey .snapshot payload
  | cursor {cursor : PyStr} {decoded : Dict} {payload : Bytes}
      (hpayload : cursorPayload P [publicKey] cursor = .ok payload)
      (hmembers : cursorMembers P payload = .ok decoded) : AcceptedAs publicKey .cursor payload

/-! ## Kinds of signed bytes -/

/-- The kind of an object that is signed, by its members. -/
def kindOf (body : Dict) : Kind :=
  if (body.get? (py "name")).isSome then .record
  else if (body.get? (py "head")).isSome then .snapshot
  else .cursor

/-- Signed bytes that are read as an object of a kind. -/
def Reads (payload : Bytes) (kind : Kind) : Prop :=
  ∃ body, loadJson P payload = .ok (.obj body) ∧ kindOf body = kind

variable {P}

/-- The signed bytes of one kind are not those of another. -/
theorem Reads.unique {payload : Bytes} {kind kind' : Kind} (h : Reads P payload kind)
    (h' : Reads P payload kind') : kind = kind' := by
  obtain ⟨body, hbody, rfl⟩ := h
  obtain ⟨body', hbody', rfl⟩ := h'
  rw [Json.obj.inj (Except.ok.inj (hbody.symm.trans hbody'))]

theorem kindOf_record {record : Dict} (h : ValidRecord record) :
    kindOf (record.erase (py "sig")) = .record := by
  obtain ⟨name, hname, -⟩ := h.name
  have hne : py "name" ≠ py "sig" := by decide
  rw [kindOf, Dict.get?_erase, if_neg hne, hname]
  rfl

theorem kindOf_snapshot {snapshot : Dict} (h : snapshot.keys = snapshotFields) :
    kindOf (snapshot.erase (py "sig")) = .snapshot := by
  have hname : snapshot.get? (py "name") = none := by
    rw [Dict.get?_eq_none, h]
    decide
  have hhead : snapshot.get? (py "head") ≠ none := by
    rw [ne_eq, Dict.get?_eq_none, h]
    decide
  have hne : py "name" ≠ py "sig" := by decide
  have hne' : py "head" ≠ py "sig" := by decide
  rw [kindOf, Dict.get?_erase, if_neg hne, hname, Dict.get?_erase, if_neg hne',
    Option.isSome_iff_ne_none.2 hhead]
  rfl

theorem kindOf_cursor {decoded : Dict} (h : decoded.keys = cursorFields) :
    kindOf decoded = .cursor := by
  have hname : decoded.get? (py "name") = none := by
    rw [Dict.get?_eq_none, h]
    decide
  have hhead : decoded.get? (py "head") = none := by
    rw [Dict.get?_eq_none, h]
    decide
  rw [kindOf, hname, hhead]
  rfl

/-- What is signed of an object is read back. -/
theorem reads_canonicalBytes {signed : Dict} (hs : (Json.obj signed).Sorted) {payload : Bytes}
    (h : canonicalBytes P signed = .ok payload) :
    Reads P payload (kindOf (signed.erase (py "sig"))) :=
  ⟨_, loadJson_of_canonicalDocument (sorted_erase hs) h, rfl⟩

/-- What is accepted of a kind is of that kind. -/
theorem AcceptedAs.reads {publicKey : PyStr} {kind : Kind} {payload : Bytes}
    (h : AcceptedAs P publicKey kind payload) : Reads P payload kind := by
  cases h with
  | record hv hvalid hverified hpayload =>
    obtain ⟨rfl, hrecord⟩ := validateRecord_eq_ok.1 hvalid
    rw [← kindOf_record hrecord]
    exact reads_canonicalBytes hv hpayload
  | snapshot hv hvalid hverified hpayload =>
    obtain ⟨hsome, hsnapshot⟩ := validateSnapshot_eq_ok.1 hvalid
    obtain rfl := Option.some.inj hsome
    rw [← kindOf_snapshot hsnapshot.fields]
    exact reads_canonicalBytes hv hpayload
  | cursor hpayload hmembers =>
    obtain ⟨hload, hkeys⟩ := cursorMembers_eq_ok.1 hmembers
    exact ⟨_, hload, kindOf_cursor hkeys⟩

/-! ## Runs -/

/-- What is known of a statement of the registry. -/
def Statement.Genuine : Statement → Prop
  | .record countersigned => (Json.obj countersigned).Sorted ∧ ValidRecord countersigned
  | .snapshot signed => (Json.obj signed).Sorted ∧ signed.keys = snapshotFields
  | .cursor _ query carried _ _ => (Json.obj query).Sorted ∧ (Json.obj carried).Sorted

/-- What a computation signs when it succeeds. -/
def signedBy {α : Type} (x : Except PyErr α) (statements : α → List Statement) : List Statement :=
  match x with
  | .ok a => statements a
  | .error _ => []

theorem mem_signedBy {α : Type} {x : Except PyErr α} {statements : α → List Statement}
    {s : Statement} : s ∈ signedBy x statements ↔ ∃ a, x = .ok a ∧ s ∈ statements a := by
  cases x with
  | ok a => exact ⟨fun h => ⟨a, rfl, h⟩, fun ⟨_, ha, h⟩ => Except.ok.inj ha ▸ h⟩
  | error e => exact ⟨fun h => absurd h List.not_mem_nil, fun ⟨_, ha, _⟩ => by cases ha⟩

/-- What a submission signs: the record, once it is accepted. -/
def Submission.signs (key : SigningKey P) (request : Submission) : List Statement :=
  signedBy (acceptSubmission key request.auditor request.body) fun accepted => [.record accepted.2]

/-- What an import signs: every record of the bundle, once it is accepted. -/
def importSigns (key : SigningKey P) (bundle : Json) (upstream : PyStr) (now : Timestamp) :
    List Statement :=
  signedBy (prepareImport key bundle upstream now) fun prepared =>
    prepared.1.map fun x => .record x.2

/-- What a snapshot of the current boundary signs. -/
def snapshotSigns (db : Db) (key : SigningKey P) : List Statement :=
  signedBy (buildSnapshot P db key none none none) fun snapshot => [.snapshot snapshot]

/-- What a page signs: its boundary, when the request has no cursor, and the cursor of the
    next page. -/
def pageSigns (service : Service P) (db : Db) (endpoint : Endpoint) (query : Dict) (clock : Clock)
    (cursor : PyStr) (read : Reader) : List Statement :=
  (if cursor = [] then snapshotSigns db service.signingKey else []) ++
    signedBy (findPage service db endpoint query clock cursor read) fun found =>
      signedBy (nextCursor service endpoint query clock found) fun next =>
        next.toList.map fun _ => .cursor endpoint query found.snapshot
          (found.offset + found.items.1.length) (clock.issued + cursorTtlSeconds)

/-- One step of the registry, with what it signs: a command on the keys, a start of the
    service, a submission, an import, or a request that is answered. -/
inductive Registry.Signs (providers : Set FileKeyProvider) (r : Registry P) :
    Registry P → List Statement → Prop
  | rotated {keys : KeyHistory P} (h : r.keys.Step providers keys) : Signs providers r ⟨keys, r.db⟩ []
  | started (env : OpenEnv) (locked : Bool) :
      Signs providers r ⟨r.keys, (openStore P env locked r.db).1⟩ []
  | submitted {key : SigningKey P} (hkey : r.signer = some key) {c : Conn} (hc : c.disk = r.db)
      (env : Env) (s : Store) (request : Submission) (utcNow : Timestamp) (now : Int) :
      Signs providers r ⟨r.keys, (s.submit env c key request utcNow now).conn.disk⟩
        (request.signs key)
  | imported {key : SigningKey P} (hkey : r.signer = some key) {c : Conn} (hc : c.disk = r.db)
      (env : Env) (s : Store) {bundle : Json} (hb : bundle.Sorted) (upstream : PyStr)
      (acceptOlder : Bool) (now : Timestamp) : Signs providers r
        ⟨r.keys, (s.importBundle env c key bundle upstream acceptOlder now).conn.disk⟩
        (importSigns key bundle upstream now)
  | snapshot {key : SigningKey P} (hkey : r.signer = some key) :
      Signs providers r r (snapshotSigns r.db key)
  | log {service : Service P} (hkey : r.signer = some service.signingKey) (clock : Clock)
      (request : LogRequest) : Signs providers r r (signedBy request.validate fun _ =>
        pageSigns service r.db .log request.query clock request.cursor (request.reader P r.db))
  | records {service : Service P} (hkey : r.signer = some service.signingKey) (clock : Clock)
      (request : RecordsRequest) : Signs providers r r (signedBy request.validate fun _ =>
        pageSigns service r.db .records request.query clock request.cursor (request.reader P r.db))

/-- The registries that histories lead to, with what they have signed. -/
inductive Registry.Signing (providers : Set FileKeyProvider) : Registry P → List Statement → Prop
  | opened {keys : KeyHistory P} (hk : keys.Reachable providers) {env : OpenEnv} {locked : Bool}
      {db : Db} {s : Store} (h : openStore P env locked .absent = (db, .ok s)) :
      Signing providers ⟨keys, db⟩ []
  | step {r r' : Registry P} {issued new : List Statement} (hr : Signing providers r issued)
      (h : r.Signs providers r' new) : Signing providers r' (issued ++ new)

/-- A registry of a run is one that a history leads to. -/
theorem Registry.Signing.reachable {providers : Set FileKeyProvider} {r : Registry P}
    {issued : List Statement} (h : r.Signing providers issued) : r.Reachable providers := by
  induction h with
  | opened hk h => exact .opened hk h
  | step hr h ih =>
    cases h with
    | rotated h => exact ih.rotated h
    | started env locked => exact ih.started env locked
    | submitted hkey hc env s request utcNow now => exact ih.submitted hkey hc env s request utcNow now
    | imported hkey hc env s hb upstream acceptOlder now =>
      exact ih.imported hkey hc env s hb upstream acceptOlder now
    | snapshot | log | records => exact ih

/-! ## What was signed -/

theorem Submission.genuine {key : SigningKey P} {request : Submission} :
    ∀ s ∈ request.signs key, s.Genuine := by
  intro s hs
  obtain ⟨⟨record, countersigned⟩, haccepted, hmem⟩ := mem_signedBy.1 hs
  obtain rfl := List.mem_singleton.1 hmem
  obtain ⟨r, rfl, hvalid, -⟩ := exists_countersignedRecord haccepted
  exact ⟨r.sorted, hvalid⟩

theorem importSigns_genuine {key : SigningKey P} {bundle : Json} (hb : bundle.Sorted)
    {upstream : PyStr} {now : Timestamp} :
    ∀ s ∈ importSigns key bundle upstream now, s.Genuine := by
  intro s hs
  obtain ⟨prepared, hprepared, hmem⟩ := mem_signedBy.1 hs
  obtain ⟨x, hx, rfl⟩ := List.mem_map.1 hmem
  obtain ⟨⟨snapshot, verified⟩, haccepted, h⟩ := Wire.Except.bind_eq_ok hprepared
  obtain ⟨upstreamKey, -, h⟩ := Wire.Except.bind_eq_ok h
  have hvalid := verified_of_accepted hb haccepted
  rw [countersignImports_eq (fun r hr => (hvalid r hr).1)] at h
  obtain rfl := Except.ok.inj h
  obtain ⟨r, hr, rfl⟩ := List.mem_map.1 hx
  have hrecord := (hvalid r hr).1
  exact ⟨(importedCopy_sorted hrecord (hvalid r hr).2 key).1,
    hrecord.imported (hrecord.importedCopy_eq key)⟩

theorem snapshotSigns_genuine {db : Db} {key : SigningKey P} :
    ∀ s ∈ snapshotSigns db key, s.Genuine := by
  intro s hs
  obtain ⟨snapshot, hsnapshot, hmem⟩ := mem_signedBy.1 hs
  obtain rfl := List.mem_singleton.1 hmem
  obtain ⟨b, -, hsigned⟩ := buildSnapshot_eq_ok.1 hsnapshot
  refine ⟨sorted_signRecord hsigned (sorted_snapshotBody b), ?_⟩
  obtain ⟨bytes, rfl⟩ := signSnapshot_eq hsigned
  rfl

/-- The boundary of a page is a dictionary: it was signed, or read from a cursor. -/
theorem sorted_found {service : Service P} {db : Db} {endpoint : Endpoint} {query : Dict}
    {clock : Clock} {cursor : PyStr} {read : Reader} {found : Found}
    (h : findPage service db endpoint query clock cursor read = .ok found) :
    (Json.obj found.snapshot).Sorted := by
  rw [findPage] at h
  split_ifs at h
  · obtain ⟨b, -, h⟩ := Wire.Except.bind_eq_ok h
    obtain ⟨snapshot, hs, h⟩ := Wire.Except.bind_eq_ok h
    obtain ⟨items, -, h⟩ := Wire.Except.bind_eq_ok h
    obtain rfl := Except.ok.inj h
    rw [buildSnapshot_boundary] at hs
    exact sorted_signRecord hs (sorted_snapshotBody b)
  · obtain ⟨⟨offset, boundary, snapshot⟩, hstate, h⟩ := Wire.Except.bind_eq_ok h
    obtain ⟨items, -, h⟩ := Wire.Except.bind_eq_ok h
    obtain rfl := Except.ok.inj h
    obtain ⟨payload, digest, expiresAt, -, hload, -⟩ := cursorState_eq_ok.1 hstate
    have hmember := (get?_cursorBody digest snapshot offset expiresAt).2.1
    exact (Json.every_obj.1 (loadJson_eq_ok hload).1).2 _ (Dict.mem_of_get? hmember)

theorem pageSigns_genuine {service : Service P} {db : Db} {endpoint : Endpoint} {query : Dict}
    (hquery : (Json.obj query).Sorted) {clock : Clock} {cursor : PyStr} {read : Reader} :
    ∀ s ∈ pageSigns service db endpoint query clock cursor read, s.Genuine := by
  intro s hs
  rcases List.mem_append.1 hs with hs | hs
  · split_ifs at hs
    · exact snapshotSigns_genuine s hs
    · cases hs
  · obtain ⟨found, hfound, hs⟩ := mem_signedBy.1 hs
    obtain ⟨next, -, hs⟩ := mem_signedBy.1 hs
    obtain ⟨_, -, rfl⟩ := List.mem_map.1 hs
    exact ⟨hquery, sorted_found hfound⟩

theorem LogRequest.sorted_query (request : LogRequest) : (Json.obj request.query).Sorted := by
  refine Json.every_obj.2 ⟨?_, ?_⟩
  · have hkeys : [py "limit", py "since"].Pairwise (· < ·) := by decide
    exact List.pairwise_map.1 hkeys
  · simp only [LogRequest.query, List.forall_mem_cons]
    exact ⟨trivial, trivial, List.forall_mem_nil _⟩

theorem RecordsRequest.sorted_query (request : RecordsRequest) :
    (Json.obj request.query).Sorted := by
  rw [RecordsRequest.query]
  split_ifs
  · refine Json.every_obj.2 ⟨?_, ?_⟩
    · have hkeys : [py "commit", py "content_sha256", py "hash_version", py "limit",
          py "source_identity"].Pairwise (· < ·) := by decide
      exact List.pairwise_map.1 hkeys
    · simp only [List.cons_append, List.nil_append, List.forall_mem_cons]
      exact ⟨trivial, trivial, trivial, trivial, trivial, List.forall_mem_nil _⟩
  · refine Json.every_obj.2 ⟨?_, ?_⟩
    · have hkeys : [py "commit", py "content_sha256", py "limit",
          py "source_identity"].Pairwise (· < ·) := by decide
      exact List.pairwise_map.1 hkeys
    · simp only [List.cons_append, List.nil_append, List.forall_mem_cons]
      exact ⟨trivial, trivial, trivial, trivial, List.forall_mem_nil _⟩

/-- What a step signs. -/
theorem Registry.Signs.genuine {providers : Set FileKeyProvider} {r r' : Registry P}
    {new : List Statement} (h : r.Signs providers r' new) : ∀ s ∈ new, s.Genuine := by
  cases h with
  | rotated | started => exact List.forall_mem_nil _
  | submitted => exact Submission.genuine
  | imported hkey hc env s hb => exact importSigns_genuine hb
  | snapshot => exact snapshotSigns_genuine
  | log hkey clock request =>
    intro s hs
    obtain ⟨_, -, hs⟩ := mem_signedBy.1 hs
    exact pageSigns_genuine request.sorted_query s hs
  | records hkey clock request =>
    intro s hs
    obtain ⟨_, -, hs⟩ := mem_signedBy.1 hs
    exact pageSigns_genuine request.sorted_query s hs

/-- What a run has signed. -/
theorem Registry.Signing.genuine {providers : Set FileKeyProvider} {r : Registry P}
    {issued : List Statement} (h : r.Signing providers issued) : ∀ s ∈ issued, s.Genuine := by
  induction h with
  | opened => exact List.forall_mem_nil _
  | step hr h ih => exact List.forall_mem_append.2 ⟨ih, h.genuine⟩

/-- The signed bytes of a statement are of its kind. -/
theorem Statement.Genuine.reads {s : Statement} (h : s.Genuine) {payload : Bytes}
    (hpayload : s.payload P = .ok payload) : Reads P payload s.kind := by
  cases s with
  | record countersigned =>
    rw [Statement.kind, ← kindOf_record h.2]
    exact reads_canonicalBytes h.1 hpayload
  | snapshot signed =>
    rw [Statement.kind, ← kindOf_snapshot h.2]
    exact reads_canonicalBytes h.1 hpayload
  | cursor endpoint query carried offset expiresAt =>
    obtain ⟨digest, -, hdocument⟩ := Wire.Except.bind_eq_ok hpayload
    exact ⟨_, loadJson_of_canonicalDocument (sorted_cursorBody h.2) hdocument, kindOf_cursor rfl⟩

/-! ## Cursors -/

/-- What a cursor shows: the bytes it says are signed, and their signature. -/
def Presents (cursor : PyStr) (payload : Bytes) (signature : PyStr) : Prop :=
  ∃ parts raw, splitCursor cursor = .ok parts ∧ urlDecode parts.1 = some payload ∧
    urlDecode parts.2 = some raw ∧ signature = b64encode raw

variable (P) in
/-- The signature of a cursor verifies under an accepted key only if the registry signed
    exactly these bytes. -/
def Unforged (issued : List Statement) (keys : List PyStr) (cursor : PyStr) : Prop :=
  ∀ payload signature, Presents cursor payload signature → ∀ publicKey ∈ keys,
    verify P publicKey payload signature = true → ∃ s ∈ issued, s.payload P = .ok payload

variable (P) in
/-- No query that a cursor was issued for has the SHA-256 of another one. -/
def DistinctQueries (issued : List Statement) (endpoint : Endpoint) (query : Dict) : Prop :=
  ∀ endpoint' query' carried offset expiresAt,
    .cursor endpoint' query' carried offset expiresAt ∈ issued →
    ∀ b b', canonicalDocument P (queryDocument endpoint' query') = .ok b →
      canonicalDocument P (queryDocument endpoint query) = .ok b' →
      P.sha256 b = P.sha256 b' → b = b'

theorem sorted_queryDocument {endpoint : Endpoint} {query : Dict} (h : (Json.obj query).Sorted) :
    (queryDocument endpoint query).Sorted := by
  refine Json.every_obj.2 ⟨?_, ?_⟩
  · have hkeys : [py "endpoint", py "query"].Pairwise (· < ·) := by decide
    exact List.pairwise_map.1 hkeys
  · simp only [List.forall_mem_cons]
    exact ⟨trivial, h, List.forall_mem_nil _⟩

/-- A digest names its endpoint and query. -/
theorem query_of_digest {endpoint endpoint' : Endpoint} {query query' : Dict} {digest : PyStr}
    (hq : (Json.obj query).Sorted) (hq' : (Json.obj query').Sorted)
    (hdistinct : ∀ b b', canonicalDocument P (queryDocument endpoint query) = .ok b →
      canonicalDocument P (queryDocument endpoint' query') = .ok b' →
      P.sha256 b = P.sha256 b' → b = b')
    (h : queryDigest P endpoint query = .ok digest)
    (h' : queryDigest P endpoint' query' = .ok digest) : endpoint = endpoint' ∧ query = query' := by
  obtain ⟨b, hb, hhex⟩ := Except.map_eq_ok h
  obtain ⟨b', hb', hhex'⟩ := Except.map_eq_ok h'
  obtain rfl := hdistinct b b' hb hb' (hex_injective (hhex.trans hhex'.symm))
  have hsame := canonicalDocument_injective (sorted_queryDocument hq) (sorted_queryDocument hq') hb hb'
  have hmembers := Json.obj.inj hsame
  simp only [List.cons.injEq, Prod.mk.injEq, true_and, and_true, Json.str.injEq, Json.obj.injEq]
    at hmembers
  refine ⟨?_, hmembers.2⟩
  have htext := hmembers.1
  revert htext
  cases endpoint <;> cases endpoint' <;> decide

/-- A cursor that is accepted was issued, for the same endpoint and query. -/
theorem cursor_issued {issued : List Statement} (hgenuine : ∀ s ∈ issued, s.Genuine) {db : Db}
    {cursor : PyStr} {endpoint : Endpoint} {query : Dict} (hquery : (Json.obj query).Sorted)
    {keys : List PyStr} (hunforged : Unforged P issued keys cursor)
    (hdistinct : DistinctQueries P issued endpoint query) {now : Int} {offset : Nat}
    {boundary : SnapshotBoundary} {snapshot : Dict}
    (h : cursorState P db cursor endpoint query keys now = .ok (offset, boundary, snapshot)) :
    ∃ expiresAt, .cursor endpoint query snapshot offset expiresAt ∈ issued ∧ now ≤ expiresAt := by
  obtain ⟨payload, digest, expiresAt, hpayload, hload, hdigest, -, -, -, -, hnow⟩ :=
    cursorState_eq_ok.1 h
  obtain ⟨-, parts, raw, hsplit, hbytes, hraw, publicKey, hkey, hverified⟩ :=
    cursorPayload_eq_ok.1 hpayload
  obtain ⟨s, hs, hsigned⟩ := hunforged payload _ ⟨parts, raw, hsplit, hbytes, hraw, rfl⟩ publicKey
    hkey hverified
  have hkind : s.kind = .cursor :=
    ((hgenuine s hs).reads hsigned).unique ⟨_, hload, kindOf_cursor rfl⟩
  cases s with
  | record | snapshot => cases hkind
  | cursor endpoint' query' carried offset' expiresAt' =>
    obtain ⟨hquery', hcarried⟩ := hgenuine _ hs
    obtain ⟨digest', hdigest', hdocument⟩ := Wire.Except.bind_eq_ok hsigned
    have hload' := loadJson_of_canonicalDocument (sorted_cursorBody hcarried) hdocument
    have hbody := Json.obj.inj (Except.ok.inj (hload'.symm.trans hload))
    simp only [cursorBody, List.cons.injEq, Prod.mk.injEq, true_and, and_true, Json.int.injEq,
      Json.str.injEq, Json.obj.injEq, Int.natCast_inj] at hbody
    obtain ⟨rfl, rfl, rfl, rfl⟩ := hbody
    obtain ⟨rfl, rfl⟩ := query_of_digest hquery' hquery
      (hdistinct endpoint' query' carried offset' expiresAt' hs) hdigest' hdigest
    exact ⟨expiresAt', hs, hnow⟩

/-- In every run, a cursor that is accepted carries what a cursor was issued with for the same
    endpoint and query, and the boundary of the store at its size; and what is signed for
    one kind is accepted as no other. -/
theorem signatures_authentic {providers : Set FileKeyProvider} {r : Registry P}
    {issued : List Statement} (h : r.Signing providers issued) :
    (∀ (endpoint : Endpoint) (query : Dict) (keys : List PyStr) (cursor : PyStr) (now : Int)
      (offset : Nat) (boundary : SnapshotBoundary) (snapshot : Dict), (Json.obj query).Sorted →
      Unforged P issued keys cursor → DistinctQueries P issued endpoint query →
      cursorState P r.db cursor endpoint query keys now = .ok (offset, boundary, snapshot) →
      (∃ expiresAt, .cursor endpoint query snapshot offset expiresAt ∈ issued ∧ now ≤ expiresAt) ∧
        boundaryFromDict snapshot = .ok boundary ∧
        snapshotBoundary r.db (some boundary.logSize) = .ok boundary) ∧
    ∀ s ∈ issued, ∀ payload, s.payload P = .ok payload → ∀ publicKey kind,
      AcceptedAs P publicKey kind payload → kind = s.kind := by
  have hgenuine := h.genuine
  refine ⟨fun endpoint query keys cursor now offset boundary snapshot hquery hunforged hdistinct
    hstate => ⟨cursor_issued hgenuine hquery hunforged hdistinct hstate, ?_⟩,
    fun s hs payload hpayload publicKey kind haccepted =>
      haccepted.reads.unique ((hgenuine s hs).reads hpayload)⟩
  obtain ⟨-, -, -, -, -, -, -, -, hboundary, havailable, -⟩ := cursorState_eq_ok.1 hstate
  exact ⟨hboundary, boundaryAvailable_eq_true.1 havailable⟩

/-! ## On the sample registry -/

/-- The sample registry after a second submission. -/
@[irreducible] def sampleAgain : Db :=
  (sampleStore.submit (.calm 0) ⟨sampleDb, none, false⟩ (sampleSigner 1)
    (sampleRequest (py "audited")) sampleTime 0).conn.disk

/-- The service of the sample registry. -/
def sampleFirstService : Service .sample := ⟨sampleSigner 1, []⟩

/-- A cursor that was issued is not forged. -/
theorem unforged_of_issued {issued : List Statement} {key : SigningKey P} {endpoint : Endpoint}
    {query carried : Dict} {offset : Nat} {now : Int} {cursor : PyStr}
    (h : encodeCursor key endpoint query carried offset now = .ok cursor)
    (hmem : .cursor endpoint query carried offset (now + cursorTtlSeconds) ∈ issued)
    (keys : List PyStr) : Unforged P issued keys cursor := by
  obtain ⟨digest, bytes, hdigest, hbytes, rfl⟩ := encodeCursor_eq_ok.1 h
  rintro payload signature ⟨parts, raw, hsplit, hpayload, -, -⟩ - - -
  obtain rfl := Except.ok.inj ((splitCursor_issued _ _).symm.trans hsplit)
  obtain rfl := Option.some.inj ((urlDecode_urlEncode bytes).symm.trans hpayload)
  exact ⟨_, hmem, bind_eq_ok_iff.2 ⟨digest, hdigest, hbytes⟩⟩

/-- What the sample registry signed: two records, then a boundary and a cursor. -/
def sampleIssued : List Statement :=
  (([] ++ (sampleRequest (py "audited")).signs (sampleSigner 1)) ++
    (sampleRequest (py "audited")).signs (sampleSigner 1)) ++
    signedBy sampleLogRequest.validate fun _ => pageSigns sampleFirstService sampleAgain .log
      sampleLogRequest.query sampleClock sampleLogRequest.cursor
      (sampleLogRequest.reader .sample sampleAgain)

theorem signing_sampleAgain :
    Registry.Signing {⟨none⟩} ⟨sampleFirst, sampleAgain⟩ sampleIssued := by
  have hopened : Registry.Signing {⟨none⟩} ⟨sampleFirst, sampleConn.disk⟩ [] :=
    .opened reachable_sampleFirst openStore_sample
  have hkey (db : Db) : Registry.signer ⟨sampleFirst, db⟩ = some (sampleSigner 1) := rfl
  have hfirst : Registry.Signing {⟨none⟩} ⟨sampleFirst, sampleDb⟩
      ([] ++ (sampleRequest (py "audited")).signs (sampleSigner 1)) := by
    have hstep := hopened.step (.submitted (hkey _) (c := sampleConn) rfl (.calm 0) sampleStore
      (sampleRequest (py "audited")) sampleTime 0)
    unfold sampleDb sampleSubmitted
    exact hstep
  have hsecond := hfirst.step (.submitted (hkey _) (c := ⟨sampleDb, none, false⟩) rfl (.calm 0)
    sampleStore (sampleRequest (py "audited")) sampleTime 0)
  have hagain : Registry.Signing {⟨none⟩} ⟨sampleFirst, sampleAgain⟩
      (([] ++ (sampleRequest (py "audited")).signs (sampleSigner 1)) ++
        (sampleRequest (py "audited")).signs (sampleSigner 1)) := by
    unfold sampleAgain
    exact hsecond
  have hservice : Registry.signer ⟨sampleFirst, sampleAgain⟩ = some sampleFirstService.signingKey :=
    hkey _
  exact hagain.step (.log hservice sampleClock sampleLogRequest)

/-- The cursors that the sample registry issued are for one query. -/
theorem distinctQueries_sampleIssued :
    DistinctQueries .sample sampleIssued .log sampleLogRequest.query := by
  intro endpoint query carried offset expiresAt hmem b b' hb hb' _
  have hrecords : .cursor endpoint query carried offset expiresAt ∉
      (sampleRequest (py "audited")).signs (sampleSigner 1) := by
    intro h
    obtain ⟨accepted, -, h⟩ := mem_signedBy.1 h
    cases List.mem_singleton.1 h
  have hpage : endpoint = .log ∧ query = sampleLogRequest.query := by
    simp only [sampleIssued, List.nil_append, List.mem_append, hrecords, false_or] at hmem
    obtain ⟨_, -, hmem⟩ := mem_signedBy.1 hmem
    rcases List.mem_append.1 hmem with hmem | hmem
    · have hcursor : sampleLogRequest.cursor = [] := rfl
      rw [if_pos hcursor] at hmem
      obtain ⟨snapshot, -, h⟩ := mem_signedBy.1 hmem
      cases List.mem_singleton.1 h
    · obtain ⟨found, -, hmem⟩ := mem_signedBy.1 hmem
      obtain ⟨next, -, hmem⟩ := mem_signedBy.1 hmem
      obtain ⟨_, -, h⟩ := List.mem_map.1 hmem
      cases h
      exact ⟨rfl, rfl⟩
  obtain ⟨rfl, rfl⟩ := hpage
  exact Except.ok.inj (hb.symm.trans hb')

set_option maxRecDepth 10000 in
/-- The cursor of a first page of the sample registry is accepted, and carries what it was
    issued with. -/
theorem signatures_authentic_sample : ∃ cursor offset boundary snapshot,
    cursorState .sample sampleAgain cursor .log sampleLogRequest.query
      sampleFirstService.acceptedSigningKeys 0 = .ok (offset, boundary, snapshot) ∧
    (∃ expiresAt, .cursor .log sampleLogRequest.query snapshot offset expiresAt ∈ sampleIssued) ∧
    snapshotBoundary sampleAgain (some boundary.logSize) = .ok boundary := by
  have hserved : (do
      let found ← findPage sampleFirstService sampleAgain .log sampleLogRequest.query sampleClock
        sampleLogRequest.cursor (sampleLogRequest.reader .sample sampleAgain)
      let next ← nextCursor sampleFirstService .log sampleLogRequest.query sampleClock found
      let state ← cursorState .sample sampleAgain (next.getD []) .log sampleLogRequest.query
        sampleFirstService.acceptedSigningKeys 0
      .ok (found.items.2, next.isSome, state.1) : Except PyErr (Bool × Bool × Nat)) =
      .ok (true, true, 1) := by decide +kernel
  obtain ⟨found, hfound, hserved⟩ := Wire.Except.bind_eq_ok hserved
  obtain ⟨next, hnext, hserved⟩ := Wire.Except.bind_eq_ok hserved
  obtain ⟨⟨offset, boundary, snapshot⟩, hstate, hserved⟩ := Wire.Except.bind_eq_ok hserved
  obtain ⟨hmore, hserved⟩ := Prod.mk.inj (Except.ok.inj hserved)
  obtain ⟨hsome, -⟩ := Prod.mk.inj hserved
  obtain ⟨cursor, rfl⟩ := Option.isSome_iff_exists.1 hsome
  have hmem : .cursor .log sampleLogRequest.query found.snapshot
      (found.offset + found.items.1.length) (sampleClock.issued + cursorTtlSeconds) ∈
      sampleIssued :=
    List.mem_append_right _ (mem_signedBy.2 ⟨(), rfl, List.mem_append_right _
      (mem_signedBy.2 ⟨found, hfound, mem_signedBy.2 ⟨some cursor, hnext, List.mem_singleton_self _⟩⟩)⟩)
  have hencoded := hnext
  rw [nextCursor, if_pos hmore] at hencoded
  obtain ⟨c, hc, hsome⟩ := Except.map_eq_ok hencoded
  obtain rfl := Option.some.inj hsome
  obtain ⟨⟨expiresAt, hissued, -⟩, -, hat⟩ := (signatures_authentic signing_sampleAgain).1 .log
    sampleLogRequest.query sampleFirstService.acceptedSigningKeys _ 0 offset boundary snapshot
    sampleLogRequest.sorted_query (unforged_of_issued hc hmem _) distinctQueries_sampleIssued hstate
  exact ⟨_, offset, boundary, snapshot, hstate, ⟨expiresAt, hissued⟩, hat⟩

end SkillRegistry
