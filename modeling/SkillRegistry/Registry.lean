import SkillRegistry.Keys
import SkillRegistry.Submission

/-!
# A registry and its keys

A registry over its life: a home whose keys are prepared, activated, cancelled and
retired, and a database into which submissions and imports are countersigned by the key
that is active, with starts of the service in between.

* `Registry.Reachable` are the registries that some history leads to, and
  `Registry.Reachable.signed` what all of them keep: a log of valid records, each of which
  verifies under a key that has been active;
* `served_verifies`: a record that is served verifies under a key that has been active,
  and this key is published unless it was retired.
-/

namespace SkillRegistry

open Wire Firsts Latest

variable {P : Platform}

/-! ## Countersigned rows -/

/-- A stored row holds the record of the entry it was written for. -/
theorem LogEntry.record_row {entry : LogEntry} (hs : (Json.obj entry.record).Sorted)
    (hr : ValidRecord entry.record) (createdAt : PyStr) :
    (entry.row createdAt).record P = entry.record := by
  have hload : pyLoads P (Json.obj entry.record).dumps = .ok (.obj entry.record) :=
    pyLoads_jsonDumps (jsonDumps_of_canonical hr.canonical) hs (Canonical.numeral hr.canonical.1)
  have hrow : (entry.row createdAt).recordJson = (Json.obj entry.record).dumps := rfl
  rw [LogRow.record, hrow, hload]

/-- What a write under a key adds: records that are valid and verify under it. -/
structure Countersigned (key : SigningKey P) (db db' : Db) : Prop where
  ready : Ready P db → Ready P db'
  metadata : db'.metadata = db.metadata
  rows : ∃ (entries : List LogEntry) (createdAt : Timestamp),
    db'.log.rows = db.log.rows ++ entries.map (LogEntry.row createdAt.text) ∧
      ∀ entry ∈ entries, (Json.obj entry.record).Sorted ∧ ValidRecord entry.record ∧
        verifySigned P key.publicPinned entry.record = true

theorem Countersigned.refl (key : SigningKey P) (db : Db) (now : Timestamp) :
    Countersigned key db db where
  ready h := h
  metadata := rfl
  rows := ⟨[], now, (List.append_nil _).symm, nofun⟩

/-- A submission adds what the registry countersigned. -/
theorem submit_countersigned (env : Env) (c : Conn) (s : Store) (key : SigningKey P)
    (request : Submission) (utcNow : Timestamp) (now : Int) :
    Countersigned key c.disk (s.submit env c key request utcNow now).conn.disk := by
  rcases submit_disk env c s key request utcNow now with h |
    ⟨original, record, call, r, published, haccept, hcall, hperforms⟩
  · rw [h]
    exact .refl key c.disk utcNow
  · obtain ⟨r', hr', hvalid, hverified⟩ := exists_countersignedRecord haccept
    refine ⟨hperforms.ready, hperforms.metadata.2.2, ?_⟩
    rcases hperforms.log_submitted hcall with h | ⟨entry, hentry, h⟩
    · exact ⟨[], utcNow, by rw [h, List.map_nil, List.append_nil], nofun⟩
    · refine ⟨[entry], utcNow, h, fun e he => ?_⟩
      obtain rfl := List.mem_singleton.1 he
      rw [hentry]
      exact ⟨record.sorted, hvalid, hverified⟩

/-- An import adds what the registry countersigned. -/
theorem importBundle_countersigned (env : Env) (c : Conn) (s : Store) (key : SigningKey P)
    {bundle : Json} (hb : bundle.Sorted) (upstream : PyStr) (acceptOlder : Bool) (now : Timestamp) :
    Countersigned key c.disk
      (s.importBundle env c key bundle upstream acceptOlder now).conn.disk := by
  cases hresult : (s.importBundle env c key bundle upstream acceptOlder now).result with
  | error e =>
    rw [importBundle_eq_error hresult]
    exact .refl key c.disk now
  | ok n =>
    obtain ⟨db, himported, hconn⟩ := importBundle_eq_ok hb hresult
    rw [hconn]
    cases himported with
    | @mk snapshot verified upstreamKey outcome entries db' haccepted hparsed hdecided himports =>
      have hvalid := verified_of_accepted hb haccepted
      have hcopies : ∀ x ∈ verified.map (importOf key),
          (Json.obj x.2).Sorted ∧ (Json.obj x.2).Numeral := fun x hx => by
        obtain ⟨r, hr, rfl⟩ := List.mem_map.1 hx
        exact importedCopy_sorted (hvalid r hr).1 (hvalid r hr).2 key
      have hentries : ∀ entry ∈ entries, ∃ r ∈ verified, entry.record = importedCopy key r := by
        intro entry he
        have hmem : entry.record ∈ entries.map (·.record) := List.mem_map_of_mem he
        rw [himports.records_eq] at hmem
        obtain ⟨x, hx, hrecord⟩ := List.mem_map.1 hmem
        obtain ⟨r, hr, rfl⟩ := List.mem_map.1 ((firsts_sublist _ _).subset hx)
        exact ⟨r, hr, hrecord.symm⟩
      have hdisk (db'' : Db) (hlog : db''.log = db'.log) (hboundaries : db''.boundaries = db'.boundaries)
          (hfrontier : db''.frontier = db'.frontier) (hsequence : db''.logSequence = db'.logSequence)
          (hmetadata : db''.metadata = db'.metadata) : Countersigned key c.disk db'' := by
        refine ⟨fun h => (himports.ready hcopies h).congr hlog hboundaries hfrontier hsequence,
          hmetadata.trans himports.frame.2.2.1, entries, now, ?_, fun entry he => ?_⟩
        · rw [hlog, himports.log_rows]
        · obtain ⟨r, hr, hrecord⟩ := hentries entry he
          have hsigned := (hvalid r hr).1.importedCopy_eq key
          rw [hrecord]
          exact ⟨(importedCopy_sorted (hvalid r hr).1 (hvalid r hr).2 key).1,
            (hvalid r hr).1.imported hsigned, verifySigned_signRecord hsigned⟩
      dsimp only
      split_ifs
      · exact hdisk _ rfl rfl rfl rfl rfl
      · exact hdisk _ rfl rfl rfl rfl rfl

/-! ## Histories -/

/-- One command on the keys, ended or killed. -/
inductive KeyHistory.Step (providers : Set FileKeyProvider) (h : KeyHistory P) :
    KeyHistory P → Prop
  | ended {provider : FileKeyProvider} (hp : provider ∈ providers) (command : KeyCommand P)
      (hf : command.Fresh h.signers) (fault : Nat → Option KeyErr) : Step providers h
        (h.then (command.run provider fault 0 h.home).state
          (retiredBy (command.run provider fault 0 h.home).result))
  | killed {provider : FileKeyProvider} (hp : provider ∈ providers) (command : KeyCommand P)
      (hf : command.Fresh h.signers) (fault : Nat → Option KeyErr) {home : Home P}
      (hleft : home ∈ (command.run provider fault 0 h.home).left) :
      Step providers h (h.then home none)

theorem KeyHistory.Reachable.signer_mem {providers : Set FileKeyProvider} {h : KeyHistory P}
    (hr : h.Reachable providers) {pin : PyStr} (hpin : h.home.activePin = some pin) :
    pin ∈ h.signers := by
  cases hr with
  | initialized _ _ _ _ hfirst => exact List.mem_singleton.2 (Option.some.inj (hpin.symm.trans hfirst))
  | ended | killed =>
    refine List.mem_append_left _ ?_
    rw [Option.mem_toList]
    exact hpin

theorem KeyHistory.Reachable.step {providers : Set FileKeyProvider} {h h' : KeyHistory P}
    (hr : h.Reachable providers) (hs : h.Step providers h') : h'.Reachable providers := by
  cases hs with
  | ended hp command hf fault => exact .ended hr hp command hf fault
  | killed hp command hf fault hleft => exact .killed hr hp command hf fault hleft

/-- A registry: its keys, and its database. -/
structure Registry (P : Platform) where
  keys : KeyHistory P
  db : Db

/-- The key a service signs with. -/
def Registry.signer (r : Registry P) : Option (SigningKey P) := r.keys.home.active.map (·.key)

/-- The registries that histories lead to. -/
inductive Registry.Reachable (providers : Set FileKeyProvider) : Registry P → Prop
  /-- A home with its first key, and a new database. -/
  | opened {keys : KeyHistory P} (hk : keys.Reachable providers) {env : OpenEnv} {locked : Bool}
      {db : Db} {s : Store} (h : openStore P env locked .absent = (db, .ok s)) :
      Reachable providers ⟨keys, db⟩
  | rotated {r : Registry P} (hr : Reachable providers r) {keys : KeyHistory P}
      (h : r.keys.Step providers keys) : Reachable providers ⟨keys, r.db⟩
  | started {r : Registry P} (hr : Reachable providers r) (env : OpenEnv) (locked : Bool) :
      Reachable providers ⟨r.keys, (openStore P env locked r.db).1⟩
  | submitted {r : Registry P} (hr : Reachable providers r) {key : SigningKey P}
      (hkey : r.signer = some key) {c : Conn} (hc : c.disk = r.db) (env : Env) (s : Store)
      (request : Submission) (utcNow : Timestamp) (now : Int) :
      Reachable providers ⟨r.keys, (s.submit env c key request utcNow now).conn.disk⟩
  | imported {r : Registry P} (hr : Reachable providers r) {key : SigningKey P}
      (hkey : r.signer = some key) {c : Conn} (hc : c.disk = r.db) (env : Env) (s : Store)
      {bundle : Json} (hb : bundle.Sorted) (upstream : PyStr) (acceptOlder : Bool)
      (now : Timestamp) : Reachable providers
        ⟨r.keys, (s.importBundle env c key bundle upstream acceptOlder now).conn.disk⟩

theorem Registry.Reachable.keys {providers : Set FileKeyProvider} {r : Registry P}
    (hr : r.Reachable providers) : r.keys.Reachable providers := by
  induction hr with
  | opened hk h => exact hk
  | rotated hr h ih => exact ih.step h
  | started hr env locked ih => exact ih
  | submitted hr hkey hc env s request utcNow now ih => exact ih
  | imported hr hkey hc env s hb upstream acceptOlder now ih => exact ih

/-- What a registry keeps: its log is a chain of valid records, each of which verifies
    under a key that has been active. -/
structure Registry.Signed (r : Registry P) : Prop where
  ready : Ready P r.db
  created : ∃ t, r.db.metadataValue (py "created_at") = some t ∧ isTimestamp t = true
  signer : ∀ pin, r.keys.home.activePin = some pin → pin ∈ r.keys.signers
  timely : ∀ row ∈ r.db.log.rows, isTimestamp row.createdAt = true
  rows : ∀ row ∈ r.db.log.rows, ValidRecord (row.record P) ∧
    ∃ pin ∈ r.keys.signers, verifySigned P pin (row.record P) = true

namespace Registry.Signed

variable {r : Registry P}

/-- Other keys come after the ones that have been active. -/
theorem rotated (h : r.Signed) (home : Home P) (retired : Option PyStr) :
    Registry.Signed ⟨r.keys.then home retired, r.db⟩ where
  ready := h.ready
  created := h.created
  signer pin hpin := by
    have hactive : home.activePin = some pin := hpin
    change pin ∈ home.activePin.toList ++ r.keys.signers
    rw [hactive]
    exact List.mem_cons_self
  timely := h.timely
  rows row hrow := by
    obtain ⟨hvalid, pin, hpin, hverified⟩ := h.rows row hrow
    exact ⟨hvalid, pin, List.mem_append_right _ hpin, hverified⟩

theorem started (h : r.Signed) (env : OpenEnv) (locked : Bool) :
    Registry.Signed ⟨r.keys, (openStore P env locked r.db).1⟩ := by
  have hkept := openStore_kept (P := P) env locked r.db
  refine ⟨⟨hkept.invariant h.ready.toInvariant, ?_⟩, ?_, h.signer, ?_, ?_⟩
  · rw [hkept.sequence, Db.size, hkept.log]
    exact h.ready.sequence
  · obtain ⟨t, ht, hvalid⟩ := h.created
    exact ⟨t, hkept.created t ht, hvalid⟩
  · rw [hkept.log]
    exact h.timely
  · rw [hkept.log]
    exact h.rows

/-- A write under the active key. -/
theorem write (h : r.Signed) {key : SigningKey P} (hkey : r.signer = some key) {db : Db}
    (hdb : Countersigned key r.db db) : Registry.Signed ⟨r.keys, db⟩ := by
  have hpin : key.publicPinned ∈ r.keys.signers := by
    obtain ⟨file, hfile, rfl⟩ := Option.map_eq_some_iff.1 hkey
    refine h.signer _ ?_
    rw [Home.activePin, hfile]
    rfl
  obtain ⟨entries, createdAt, hrows, hentries⟩ := hdb.rows
  have hsplit : ∀ row ∈ db.log.rows, row ∈ r.db.log.rows ∨
      ∃ entry ∈ entries, row = entry.row createdAt.text := by
    intro row hrow
    rw [hrows, List.mem_append] at hrow
    refine hrow.imp_right fun hnew => ?_
    obtain ⟨entry, he, rfl⟩ := List.mem_map.1 hnew
    exact ⟨entry, he, rfl⟩
  refine ⟨hdb.ready h.ready, ?_, h.signer, fun row hrow => ?_, fun row hrow => ?_⟩
  · rw [Db.metadataValue, hdb.metadata]
    exact h.created
  · rcases hsplit row hrow with hold | ⟨entry, -, rfl⟩
    · exact h.timely row hold
    · exact createdAt.valid
  · rcases hsplit row hrow with hold | ⟨entry, he, rfl⟩
    · exact h.rows row hold
    · obtain ⟨hsorted, hvalid, hverified⟩ := hentries entry he
      rw [entry.record_row hsorted hvalid]
      exact ⟨hvalid, key.publicPinned, hpin, hverified⟩

end Registry.Signed

/-- What a first start of a new database leaves. -/
theorem signed_opened {providers : Set FileKeyProvider} {keys : KeyHistory P}
    (hk : keys.Reachable providers) {env : OpenEnv} {locked : Bool} {db : Db} {s : Store}
    (h : openStore P env locked .absent = (db, .ok s)) : Registry.Signed ⟨keys, db⟩ := by
  have hkept := openStore_kept (P := P) env locked .absent
  rw [h] at hkept
  have hempty : db.log.rows = [] := congrArg Table.rows hkept.log
  obtain ⟨hverified, hinv, -⟩ := openStore_ready (by decide) h
  refine ⟨⟨hinv, ?_⟩, hverified.created, fun pin hpin => ?_, ?_, ?_⟩
  · rw [hkept.sequence, Db.size, hkept.log]
    exact le_rfl
  · exact hk.signer_mem hpin
  · rw [hempty]
    exact List.forall_mem_nil _
  · rw [hempty]
    exact List.forall_mem_nil _

/-- Every registry that a history leads to. -/
theorem Registry.Reachable.signed {providers : Set FileKeyProvider} {r : Registry P}
    (hr : r.Reachable providers) : r.Signed := by
  induction hr with
  | opened hk h => exact signed_opened hk h
  | rotated hr h ih =>
    cases h with
    | ended => exact ih.rotated _ _
    | killed => exact ih.rotated _ _
  | started hr env locked ih => exact ih.started env locked
  | submitted hr hkey hc env s request utcNow now ih =>
    exact ih.write hkey (hc ▸ submit_countersigned env _ s _ request utcNow now)
  | imported hr hkey hc env s hb upstream acceptOlder now ih =>
    exact ih.write hkey (hc ▸ importBundle_countersigned env _ s _ hb upstream acceptOlder now)

/-! ## What is served -/

/-- A record of a page of the log or of the records. -/
inductive Registry.Serves (r : Registry P) : Json → Prop
  | log {since : Int} {limit offset : Nat} {maxSeq : Option Int}
      {boundary : Option SnapshotBoundary} {entries : List LogEntry} {more : Bool}
      (h : logPage P r.db since limit offset maxSeq boundary = .ok (entries, more))
      {entry : LogEntry} (he : entry ∈ entries) : Serves r (.obj entry.record)
  | records {q : RecordsQuery} {limit offset : Nat} {maxSeq : Option Int}
      {boundary : Option SnapshotBoundary} {records : List Json} {more : Bool}
      (h : recordsPage P r.db q limit offset maxSeq boundary = .ok (records, more))
      {record : Json} (hr : record ∈ records) : Serves r record

/-- The rows that are ranked are rows of the log. -/
theorem mem_of_mem_rankedRows {db : Db} {q : RecordsQuery} {cap : Int}
    {ranked : List (RecordKey × LogRow)} (h : rankedRows db q cap = .ok ranked)
    {x : RecordKey × LogRow} (hx : x ∈ ranked) : x.2 ∈ db.log.rows := by
  obtain ⟨keyed, hkeyed, h⟩ := Except.bind_eq_ok h
  obtain rfl := Except.ok.inj h
  have hmem := List.mem_of_mem_filter (latest_subset _ _ (mem_projection.1 hx))
  obtain ⟨row, hrow, hkey⟩ := exists_of_mem_mapM hkeyed hmem
  obtain ⟨k, -, rfl⟩ := Except.map_eq_ok hkey
  exact List.mem_of_mem_filter hrow

/-- A record that is served is held by a row of the log. -/
theorem Registry.Serves.exists_row {r : Registry P} {v : Json} (h : r.Serves v)
    (hlog : ∃ bodies, IsLog P 1 genesis r.db.log.rows bodies) :
    ∃ row ∈ r.db.log.rows, v = .obj (row.record P) := by
  obtain ⟨bodies, hlog⟩ := hlog
  cases h with
  | log h he =>
    obtain ⟨cap, -, h⟩ := Except.bind_eq_ok h
    obtain ⟨-, -, h⟩ := Except.bind_eq_ok h
    obtain ⟨entries', hentries, h⟩ := Except.bind_eq_ok h
    obtain ⟨rfl, rfl⟩ := Prod.mk.inj (Except.ok.inj h)
    obtain ⟨row, hrow, hentry⟩ := exists_of_mem_mapM hentries he
    rw [page_fst] at hrow
    have hmem := List.mem_of_mem_filter (List.mem_of_mem_drop (List.mem_of_mem_take hrow))
    obtain ⟨body, hholds⟩ := hlog.holds_record hmem
    rw [hholds.entryFromRow_eq] at hentry
    obtain rfl := Except.ok.inj hentry
    exact ⟨row, hmem, rfl⟩
  | records h hr =>
    rw [recordsPage] at h
    split_ifs at h
    · obtain ⟨rfl, -⟩ := Prod.mk.inj (Except.ok.inj h)
      cases hr
    · obtain ⟨cap, -, h⟩ := Except.bind_eq_ok h
      obtain ⟨-, -, h⟩ := Except.bind_eq_ok h
      obtain ⟨-, -, h⟩ := Except.bind_eq_ok h
      obtain ⟨ranked, hranked, h⟩ := Except.bind_eq_ok h
      obtain ⟨records', hrecords, h⟩ := Except.bind_eq_ok h
      obtain ⟨rfl, rfl⟩ := Prod.mk.inj (Except.ok.inj h)
      obtain ⟨⟨k, row⟩, hrow, hload⟩ := exists_of_mem_mapM hrecords hr
      rw [page_fst] at hrow
      have hmem := mem_of_mem_rankedRows hranked (List.mem_of_mem_drop (List.mem_of_mem_take hrow))
      obtain ⟨body, hholds⟩ := hlog.holds_record hmem
      exact ⟨row, hmem, Except.ok.inj (hload.symm.trans hholds.loads)⟩

theorem publicKeys_eq_ok {provider : FileKeyProvider} {home : Home P} {values : List PyStr}
    (h : publicKeys provider home none = .ok values) :
    ∃ active, provider.load activeKeyName home.active = .ok active ∧
      publicKeys provider home (some active) = .ok values := by
  have hcurrent := h
  unfold publicKeys at hcurrent
  obtain ⟨active, hload, -⟩ := Except.bind_eq_ok hcurrent
  exact ⟨active, hload, publicKeys_none hload ▸ h⟩

/-- Over any history, a record that is served verifies under a key that was the active one,
    and this key is published unless it was retired. A provider that was the only one used
    can read what is published. -/
theorem served_verifies {providers : Set FileKeyProvider} {r : Registry P}
    (hr : r.Reachable providers) :
    (∀ v, r.Serves v → ∃ record, v = .obj record ∧ ∃ pin ∈ r.keys.signers,
      verifySigned P pin record = true ∧ ∀ provider values,
        publicKeys provider r.keys.home none = .ok values → pin ∉ r.keys.retired → pin ∈ values) ∧
      ∀ provider, providers = {provider} →
        ∃ values, publicKeys provider r.keys.home none = .ok values := by
  have hkeeps := hr.keys.keeps
  refine ⟨fun v hv => ?_, fun provider hp => ?_⟩
  · have hsigned := hr.signed
    obtain ⟨row, hrow, rfl⟩ := hv.exists_row hsigned.ready.log
    obtain ⟨-, pin, hpin, hverified⟩ := hsigned.rows row hrow
    refine ⟨_, rfl, pin, hpin, hverified, fun provider values hvalues hkept => ?_⟩
    obtain ⟨active, hload, hvalues⟩ := publicKeys_eq_ok hvalues
    exact (hkeeps.published hload hvalues).2.1 pin hpin hkept
  · rw [hp] at hkeeps
    obtain ⟨active, values, hload, hvalues⟩ := hkeeps.read hkeeps.opens
    exact ⟨values, (publicKeys_none hload).trans hvalues⟩

/-! ## A retired key -/

/-- An auditor. -/
def sampleAuditor : Auditor :=
  ⟨py "auditor", (sampleSigner 9).publicPinned, by decide, by decide⟩

/-- A request of the auditor. -/
def sampleRequest (status : PyStr) : Submission :=
  ⟨sampleAuditor, utf8 (Json.obj (sampleSigned (sampleSigner 9) status)).dumps, []⟩

/-- The submission of a record to the new registry, under a key. -/
def sampleSubmitted (key : SigningKey .sample) : Outcome (Nat × Dict) :=
  sampleStore.submit (.calm 0) sampleConn key (sampleRequest (py "audited")) sampleTime 0

/-- A home with its first key. -/
def sampleFirst : KeyHistory .sample :=
  ⟨(initializeKey ⟨none⟩ false (sampleSigner 1) (fun _ => none) 0 Home.empty).state,
    [(sampleSigner 1).publicPinned], []⟩

/-- The keys after a command in which nothing fails. -/
def KeyHistory.after (h : KeyHistory P) (command : KeyCommand P) : KeyHistory P :=
  h.then (command.run ⟨none⟩ (fun _ => none) 0 h.home).state
    (retiredBy (command.run ⟨none⟩ (fun _ => none) 0 h.home).result)

/-- The keys after the first key was replaced. -/
def sampleRotated : KeyHistory .sample :=
  (sampleFirst.after (.prepare (sampleSigner 2))).after .activate

/-- What is left of the submission under the first key. -/
@[irreducible] def sampleDb : Db := (sampleSubmitted (sampleSigner 1)).conn.disk

/-- A registry that countersigned a record under its first key. -/
def sampleRegistry (keys : KeyHistory .sample) : Registry .sample := ⟨keys, sampleDb⟩

set_option maxRecDepth 10000 in
theorem reachable_sampleFirst : sampleFirst.Reachable {⟨none⟩} :=
  .initialized (Set.mem_singleton _) (sampleSigner 1) (fun _ => none) (.inr rfl) rfl

theorem reachable_sampleRegistry : (sampleRegistry sampleFirst).Reachable {⟨none⟩} := by
  have hopened : Registry.Reachable {⟨none⟩} ⟨sampleFirst, sampleConn.disk⟩ :=
    .opened reachable_sampleFirst openStore_sample
  have hkey : Registry.signer ⟨sampleFirst, sampleConn.disk⟩ = some (sampleSigner 1) := rfl
  have hsubmitted := hopened.submitted hkey (c := sampleConn) rfl (.calm 0) sampleStore
    (sampleRequest (py "audited")) sampleTime 0
  unfold sampleRegistry sampleDb sampleSubmitted
  exact hsubmitted

/-- A command in which nothing fails. -/
theorem reachable_after {keys : KeyHistory .sample} (h : (sampleRegistry keys).Reachable {⟨none⟩})
    (command : KeyCommand .sample) (hf : command.Fresh keys.signers) :
    (sampleRegistry (keys.after command)).Reachable {⟨none⟩} := by
  rw [sampleRegistry] at h ⊢
  exact h.rotated (.ended (Set.mem_singleton _) command hf fun _ => none)

set_option maxRecDepth 10000 in
theorem reachable_sampleRotated : (sampleRegistry sampleRotated).Reachable {⟨none⟩} := by
  have hfresh : (sampleSigner 2).publicPinned ∉ sampleFirst.signers := by decide +kernel
  have hprepared := reachable_after reachable_sampleRegistry (.prepare (sampleSigner 2)) hfresh
  rw [sampleRotated]
  exact reachable_after hprepared .activate trivial

/-- The record that the registry serves. -/
def sampleCountersigned : Dict :=
  (countersign (sampleSigner 1) (py "auditor") (sampleSigned (sampleSigner 9) (py "audited"))).toOption.getD []

set_option maxRecDepth 10000 in
theorem serves_sampleRegistry (keys : KeyHistory .sample) :
    (sampleRegistry keys).Serves (.obj sampleCountersigned) := by
  have hpage : (logPage .sample sampleDb 0 10 0 none none).map
    (fun r => r.1.map (·.record)) = .ok [sampleCountersigned] := by decide +kernel
  obtain ⟨⟨entries, more⟩, h, hrecords⟩ := Except.map_eq_ok hpage
  have hmem : sampleCountersigned ∈ entries.map (·.record) := hrecords ▸ List.mem_singleton_self _
  obtain ⟨entry, he, hrecord⟩ := List.mem_map.1 hmem
  rw [← hrecord]
  exact .log h he

set_option maxRecDepth 10000 in
theorem served_verifies_sample : ∃ pin ∈ sampleRotated.signers,
    verifySigned .sample pin sampleCountersigned = true ∧
      ∃ values, publicKeys ⟨none⟩ sampleRotated.home none = .ok values ∧ pin ∈ values := by
  obtain ⟨hserved, hread⟩ := served_verifies reachable_sampleRotated
  obtain ⟨record, hrecord, pin, hpin, hverified, hpublished⟩ :=
    hserved _ (serves_sampleRegistry sampleRotated)
  obtain ⟨values, hvalues⟩ := hread ⟨none⟩ rfl
  obtain rfl := Json.obj.inj hrecord
  have hretired : sampleRotated.retired = [] := by decide +kernel
  exact ⟨pin, hpin, hverified, values, hvalues,
    hpublished _ _ hvalues (hretired ▸ List.not_mem_nil)⟩

/-- The keys after the first key was retired. -/
def sampleRetired : KeyHistory .sample := sampleRotated.after (.retire (sampleSigner 1).keyId)

theorem reachable_sampleRetired : (sampleRegistry sampleRetired).Reachable {⟨none⟩} := by
  have h := reachable_after reachable_sampleRotated (.retire (sampleSigner 1).keyId) trivial
  unfold sampleRetired
  exact h

set_option maxRecDepth 10000 in
/-- After its key was retired, a record is served that no published key verifies. -/
theorem served_unverified : ∃ (r : Registry .sample) (record : Dict) (values : List PyStr),
    r.Reachable {⟨none⟩} ∧ r.Serves (.obj record) ∧
      publicKeys ⟨none⟩ r.keys.home none = .ok values ∧
      ∀ pin ∈ values, verifySigned .sample pin record = false := by
  have hvalues : publicKeys ⟨none⟩ sampleRetired.home none = .ok [(sampleSigner 2).publicPinned] := by
    decide +kernel
  have hunverified : ∀ pin ∈ [(sampleSigner 2).publicPinned],
    verifySigned .sample pin sampleCountersigned = false := by decide +kernel
  exact ⟨sampleRegistry sampleRetired, sampleCountersigned, [(sampleSigner 2).publicPinned],
    reachable_sampleRetired, serves_sampleRegistry sampleRetired, hvalues, hunverified⟩

end SkillRegistry
