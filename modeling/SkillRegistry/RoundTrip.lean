import SkillRegistry.Export
import SkillRegistry.Registry

/-!
# Exports that are imported

What an export of a registry is to an import with the key of the export as its pin, while
no other connection writes.

* `NewStore` is the empty store the import is called on, and `importBundle_new` what an
  accepted bundle leaves in it: one copy of the first record of each fingerprint;
* `Registry.Signed.export_eq`: a registry exports its whole log under a valid snapshot;
* `export_import`: the import accepts the bundle exactly when every record of the log
  verifies under the key of the export, as when the active key never changed.
-/

namespace SkillRegistry

open Wire Firsts

variable {P : Platform}

/-! ## Importing into a new store -/

variable (P) in
/-- A store that was just created, open for calls in which nothing fails. -/
structure NewStore (c : Conn) (s : Store) (env : Env) : Prop where
  opened : ∃ start locked, openStore P start locked .absent = (c.disk, .ok s)
  free : c.Free
  undisturbed : env.Undisturbed
  allowed : s.requireWritesAllowed env.gateClock = .ok ()

/-- A store that was just created is empty. -/
theorem openStore_absent {start : OpenEnv} {locked : Bool} {db : Db} {s : Store}
    (h : openStore P start locked .absent = (db, .ok s)) :
    db.log.rows = [] ∧ db.fingerprints = [] := by
  have hkept := openStore_kept (P := P) start locked .absent
  rw [h] at hkept
  have hrows : db.log.rows = [] := congrArg Table.rows hkept.log
  refine ⟨hrows, ?_⟩
  obtain ⟨hverified, -, -⟩ := openStore_ready (by decide) h
  rw [Db.fingerprints, List.map_eq_nil_iff, List.eq_nil_iff_forall_not_mem]
  intro row hrow
  -- a fingerprint names a row of the log, and there is none
  obtain ⟨seq, entry, -, -, hentry, -⟩ := hverified.imports row hrow
  have hmem := (Table.find?_eq_some.1 hentry).1
  rw [hrows] at hmem
  cases hmem

/-- What an import that commits leaves of an accepted bundle in an empty store. -/
theorem importBundle_copies {c : Conn} {s : Store} {env : Env} {key : SigningKey P} {bundle : Json}
    (hb : bundle.Sorted) {upstream : PyStr} {snapshot : Dict} {verified : List Dict}
    (haccepted : verifyBundle P upstream bundle = .ok (snapshot, verified))
    (hrows : c.disk.log.rows = []) (hfingerprints : c.disk.fingerprints = []) {acceptOlder : Bool}
    {now : Timestamp} {n : Nat}
    (hresult : (s.importBundle env c key bundle upstream acceptOlder now).result = .ok n) :
    ∃ entries : List LogEntry,
      (s.importBundle env c key bundle upstream acceptOlder now).conn.disk.log.rows =
        entries.map (LogEntry.row now.text) ∧
      entries.map (·.record) = (firsts (fingerprint P) [] verified).map (importedCopy key) ∧
      n = entries.length := by
  obtain ⟨db', himported, hconn⟩ := importBundle_eq_ok hb hresult
  cases himported with
  | @mk snapshot' verified' upstreamKey outcome entries db'' haccepted' hparsed hdecided himports =>
    obtain ⟨rfl, rfl⟩ := Prod.mk.inj (Except.ok.inj (haccepted.symm.trans haccepted'))
    have hrecords := himports.records_eq
    rw [hfingerprints, show firsts Prod.fst [] (verified.map (importOf key)) =
      (firsts (fingerprint P) [] verified).map (importOf key) from firsts_map (importOf key) _ _,
      List.map_map] at hrecords
    have hlog : db''.log.rows = entries.map (LogEntry.row now.text) := by
      rw [himports.log_rows, hrows, List.nil_append]
    refine ⟨entries, ?_, hrecords, rfl⟩
    rw [hconn]
    dsimp only
    split_ifs
    · exact hlog
    · exact hlog

namespace NewStore

variable {c : Conn} {s : Store} {env : Env} (h : NewStore P c s env)
include h

theorem log_rows : c.disk.log.rows = [] := by
  obtain ⟨start, locked, h⟩ := h.opened
  exact (openStore_absent h).1

theorem ready : Ready P c.disk := by
  obtain ⟨start, locked, h⟩ := h.opened
  have hkept := openStore_kept (P := P) start locked .absent
  rw [h] at hkept
  refine ⟨hkept.invariant (invariant_of_empty rfl rfl rfl), ?_⟩
  rw [hkept.sequence, Db.size, hkept.log]
  exact le_rfl

theorem highWater (keyId : PyStr) : c.disk.highWater.find? keyId = none := by
  obtain ⟨start, locked, h⟩ := h.opened
  have hkept := openStore_kept (P := P) start locked .absent
  rw [h] at hkept
  rw [hkept.highWater]
  rfl

theorem fingerprints : c.disk.fingerprints = [] := by
  obtain ⟨start, locked, h⟩ := h.opened
  exact (openStore_absent h).2

/-- An accepted bundle is imported: the first record of each fingerprint is copied. -/
theorem importBundle_new {key : SigningKey P} {bundle : Json} (hb : bundle.Sorted)
    {upstream : PyStr} {snapshot : Dict} {verified : List Dict}
    (haccepted : verifyBundle P upstream bundle = .ok (snapshot, verified))
    (hsize : (verified.length : Int) ≤ maxInteger) (acceptOlder : Bool) (now : Timestamp) :
    let o := s.importBundle env c key bundle upstream acceptOlder now
    let copied := (firsts (fingerprint P) [] verified).map (importedCopy key)
    o.result = .ok copied.length ∧ ∃ entries : List LogEntry,
      o.conn.disk.log.rows = entries.map (LogEntry.row now.text) ∧
        entries.map (·.record) = copied := by
  intro o copied
  obtain ⟨_, _, -, -, ⟨-, -, hsnapshot⟩, -⟩ := verifyBundle_eq_ok.1 haccepted
  obtain ⟨upstreamKey, hkey⟩ := parsePublicKey_of_verifySigned hsnapshot
  have hdecided : upstreamDecision (c.disk.highWater.find? (keyIdOf P upstreamKey))
      (offeredHighWater (keyIdOf P upstreamKey) snapshot now) acceptOlder = .ok .advanced := by
    rw [h.highWater]
    rfl
  have hroom : c.disk.size + (firsts (fingerprint P) c.disk.fingerprints verified).length ≤
      maxInteger := by
    have hsub : (firsts (fingerprint P) [] verified).Sublist verified := firsts_sublist _ _
    have hle := hsub.length_le
    rw [h.fingerprints, h.ready.toChained.size_eq, h.log_rows, List.length_nil]
    omega
  obtain ⟨n, entry, db, hruns⟩ := importBundle_runs hb h.undisturbed h.free h.allowed haccepted hkey
    h.ready hdecided hroom
  have hresult : o.result = .ok n := congrArg Outcome.result hruns
  obtain ⟨entries, hrows, hrecords, rfl⟩ :=
    importBundle_copies hb haccepted h.log_rows h.fingerprints hresult
  refine ⟨?_, entries, hrows, hrecords⟩
  rw [hresult, ← List.length_map (·.record), hrecords]

end NewStore

/-! ## Exporting a registry -/

/-- What an export answers while no other connection writes. -/
def exportAlone (key : SigningKey P) (db : Db) : Except PyErr Dict :=
  ((StoreRead.exportBundle key) (Shared.sees fun _ => db) 0 db).result

/-- The records of a log, in order. -/
def Registry.records (r : Registry P) : List Dict := r.db.log.rows.map (LogRow.record P)

theorem exportAlone_eq (key : SigningKey P) (db : Db) : exportAlone key db = (do
    let entries ← logEntries P db 0 none
    let snapshot ← buildSnapshot P db key none none none
    .ok (bundleOf key (entries.map (·.record)) snapshot)) :=
  Shared.still_bind (StoreRead.still_logEntriesLocked P db 0 none)
    (fun _ => Shared.still_bind (StoreRead.still_buildSnapshotLocked db key)
      fun _ => Shared.still_lift db _) 0 db

section Log

variable {rows : List LogRow} {bodies : List Bytes}

/-- A snapshot of a log commits to its records. -/
theorem IsLog.commitsTo (h : IsLog P 1 genesis rows bodies) {created : PyStr} {key : SigningKey P}
    {snapshot : Dict}
    (hs : key.signRecord (snapshotBody (boundaryOf P created rows)) = .ok snapshot) :
    CommitsTo P snapshot (rows.map (LogRow.record P)) := by
  obtain ⟨-, hhead, hsize, hroot, -, -⟩ := signSnapshot_fields hs
  refine ⟨_, _, h.chainHashes_eq, h.merkleRoot_eq created, ?_, ?_, hroot⟩
  · rw [hhead, boundaryOf_head, List.getLast?_map]
  · rw [hsize, boundaryOf_logSize, List.length_map]

end Log

/-- A registry exports its whole log. -/
theorem Registry.Signed.export_eq {r : Registry P} (h : r.Signed) (key : SigningKey P)
    (hsize : r.db.size ≤ maxSafeInteger) :
    ∃ snapshot, exportAlone key r.db = .ok (bundleOf key r.records snapshot) ∧
      (ValidSnapshot P snapshot ∧ verifySigned P key.publicPinned snapshot = true) ∧
      CommitsTo P snapshot r.records ∧ (Json.obj (bundleOf key r.records snapshot)).Sorted := by
  obtain ⟨bodies, hlog⟩ := h.ready.log
  obtain ⟨created, hcreated, hvalid⟩ := h.created
  have hchained := h.ready.toChained
  rw [hchained.size_eq] at hsize
  have hb := hlog.wellFormed h.timely hvalid hsize
  obtain ⟨snapshot, hs⟩ := hb.exists_signed key
  have hnone := hchained.snapshotBoundary_none hcreated
  have hentries : logEntries P r.db 0 none = .ok (r.db.log.rows.map (LogRow.entry P)) := by
    rw [logEntries, hnone]
    change (bindInt [0, (boundaryOf P created r.db.log.rows).logSize] >>= fun _ =>
      (r.db.logBetween 0 (boundaryOf P created r.db.log.rows).logSize).mapM (entryFromRow P)) = _
    have hbind : bindInt [0, (r.db.log.rows.length : Int)] = .ok () := by
      have hbounded := h.ready.bounded
      refine bindInt_eq_ok.2 fun n hn => ?_
      simp only [List.mem_cons, List.not_mem_nil, or_false] at hn
      unfold maxInteger at hbounded ⊢
      omega
    rw [boundaryOf_logSize, hbind]
    change (r.db.logBetween (0 : Nat) r.db.log.rows.length).mapM (entryFromRow P) = _
    rw [hchained.logBetween_eq, List.drop_zero, List.take_length]
    exact hlog.mapM_entryFromRow fun _ hrow => hrow
  have hsorted : (Json.obj (bundleOf key r.records snapshot)).Sorted := by
    refine sorted_bundleOf (fun record hmem => ?_) (sorted_signRecord hs (sorted_snapshotBody _))
    obtain ⟨row, hrow, rfl⟩ := List.mem_map.1 hmem
    obtain ⟨body, hholds⟩ := hlog.holds_record hrow
    exact hholds.sorted
  refine ⟨snapshot, ?_, ⟨hb.validSnapshot hs, verifySigned_signRecord hs⟩, hlog.commitsTo hs,
    hsorted⟩
  rw [exportAlone_eq, hentries, buildSnapshot_eq_ok.2 ⟨_, hnone, hs⟩]
  change Except.ok (bundleOf key ((r.db.log.rows.map (LogRow.entry P)).map (·.record)) snapshot) = _
  rw [List.map_map]
  rfl

/-! ## The round trip -/

/-- What a bundle of valid records under a valid snapshot is to an import whose pin is the
    key that signed the snapshot. -/
theorem verifyBundle_bundleOf {key : SigningKey P} {records : List Dict} {snapshot : Dict}
    (hvalid : ∀ record ∈ records, ValidRecord record)
    (hsnapshot : ValidSnapshot P snapshot ∧ verifySigned P key.publicPinned snapshot = true)
    (hcommits : CommitsTo P snapshot records) :
    (∃ result, verifyBundle P key.publicPinned (.obj (bundleOf key records snapshot)) = .ok result) ↔
      ∀ record ∈ records, verifySigned P key.publicPinned record = true := by
  obtain ⟨hkey, hrecords, hschema, hget⟩ := get?_bundleOf key records snapshot
  constructor
  · rintro ⟨⟨snapshot', verified⟩, h⟩ record hr
    obtain ⟨bundle, version, hbundle, -, -, -, hverified, hupstream, -⟩ := verifyBundle_eq_ok.1 h
    obtain rfl := Json.obj.inj hbundle
    have hmap := Json.arr.inj (Option.some.inj (hrecords.symm.trans hverified))
    obtain rfl := List.map_injective_iff.2 (fun _ _ => Json.obj.inj) hmap
    exact (hupstream record hr).verified
  · intro hverified
    have hkeys : (bundleOf key records snapshot).keys.all
        (· ∈ [py "schema_version", py "records", py "snapshot", py "public_key"]) = true := by
      change [py "public_key", py "records", py "schema_version", py "snapshot"].all _ = true
      decide
    have hversion : bundleSchema (bundleOf key records snapshot) =
        .ok (if records.any (hasHashVersion2 P) then 2 else 1) := by
      rw [bundleSchema, hschema, hkey, if_neg (not_not.2 hkeys)]
      cases records.any (hasHashVersion2 P) with
      | true => rfl
      | false => rfl
    have hembedded : checkEmbeddedKey key.publicPinned (bundleOf key records snapshot) = .ok () := by
      rw [checkEmbeddedKey, hkey]
      simp only [parsePublicKey_publicPinned]
      exact if_pos rfl
    have hframed (record : Dict) (hr : record ∈ records) :
        ¬((if records.any (hasHashVersion2 P) then (2 : Int) else 1) = 1 ∧
          hasHashVersion2 P record = true) := by
      rintro ⟨hone, htwo⟩
      rw [if_pos (List.any_eq_true.2 ⟨record, hr, htwo⟩)] at hone
      cases hone
    exact ⟨(snapshot, records), verifyBundle_eq_ok.2 ⟨_, _, rfl, hversion, ⟨hget, hsnapshot⟩,
      hembedded, hrecords,
      fun record hr => ⟨hvalid record hr, hframed record hr, hverified record hr⟩, hcommits⟩⟩

/-- An accepted export is read as its records. -/
theorem verified_bundleOf {key : SigningKey P} {records verified : List Dict} {snapshot snapshot' : Dict}
    {upstream : PyStr} (h : verifyBundle P upstream (.obj (bundleOf key records snapshot)) =
      .ok (snapshot', verified)) : verified = records := by
  obtain ⟨bundle, -, hbundle, -, -, -, hrecords, -⟩ := verifyBundle_eq_ok.1 h
  obtain rfl := Json.obj.inj hbundle
  have hget := (get?_bundleOf key records snapshot).2.1
  have hmap := Json.arr.inj (Option.some.inj (hget.symm.trans hrecords))
  exact (List.map_injective_iff.2 (fun _ _ => Json.obj.inj) hmap).symm

/-- Over any history, a registry exports its whole log as a bundle that an import with the
    key of the export as its pin accepts exactly when every record verifies under that key:
    it then copies the first record of each fingerprint into an empty store, and it raises
    and leaves the store as it is otherwise. Every record verifies when the key is the only
    one that has been active. -/
theorem export_import {providers : Set FileKeyProvider} {r : Registry P}
    (hr : r.Reachable providers) (key : SigningKey P) (hsize : r.db.size ≤ maxSafeInteger) :
    ∃ bundle, exportAlone key r.db = .ok bundle ∧
      (∀ (c : Conn) (s : Store) (env : Env) (importer : SigningKey P) (acceptOlder : Bool)
        (now : Timestamp), NewStore P c s env →
        let o := s.importBundle env c importer (.obj bundle) key.publicPinned acceptOlder now
        let copied := (firsts (fingerprint P) [] r.records).map (importedCopy importer)
        ((∀ record ∈ r.records, verifySigned P key.publicPinned record = true) →
          o.result = .ok copied.length ∧ ∃ entries : List LogEntry,
            o.conn.disk.log.rows = entries.map (LogEntry.row now.text) ∧
              entries.map (·.record) = copied) ∧
        ((∃ record ∈ r.records, verifySigned P key.publicPinned record = false) →
          ∃ e, o = ⟨.error e, c, s⟩)) ∧
      ((∀ pin ∈ r.keys.signers, pin = key.publicPinned) →
        ∀ record ∈ r.records, verifySigned P key.publicPinned record = true) := by
  have hsigned := hr.signed
  obtain ⟨bodies, hlog⟩ := hsigned.ready.log
  obtain ⟨snapshot, hexport, hsnapshot, hcommits, hsorted⟩ := hsigned.export_eq key hsize
  have hrecord : ∀ record ∈ r.records, ValidRecord record ∧
      ∃ pin ∈ r.keys.signers, verifySigned P pin record = true := by
    intro record hmem
    obtain ⟨row, hrow, rfl⟩ := List.mem_map.1 hmem
    exact hsigned.rows row hrow
  have haccepts := verifyBundle_bundleOf (fun record hmem => (hrecord record hmem).1) hsnapshot
    hcommits
  refine ⟨_, hexport, fun c s env importer acceptOlder now hnew => ⟨fun hall => ?_, fun hnot => ?_⟩,
    fun honly record hmem => ?_⟩
  · obtain ⟨⟨snapshot', verified⟩, haccepted⟩ := haccepts.2 hall
    obtain rfl := verified_bundleOf haccepted
    refine hnew.importBundle_new hsorted haccepted ?_ acceptOlder now
    rw [Registry.records, List.length_map]
    exact hsigned.ready.bounded
  · obtain ⟨record, hmem, hfalse⟩ := hnot
    cases hverify : verifyBundle P key.publicPinned (.obj (bundleOf key r.records snapshot)) with
    | ok result =>
      have htrue := haccepts.1 ⟨result, hverify⟩ record hmem
      rw [hfalse] at htrue
      cases htrue
    | error e =>
      refine ⟨e, ?_⟩
      rw [Store.importBundle, prepareImport, hverify]
      rfl
  · obtain ⟨pin, hpin, hverified⟩ := (hrecord record hmem).2
    exact honly pin hpin ▸ hverified

/-! ## After a rotation -/

theorem newStore_sample : NewStore .sample sampleConn sampleStore (.calm 0) where
  opened := ⟨sampleStart, false, openStore_sample⟩
  free := ⟨rfl, rfl⟩
  undisturbed := ⟨rfl, fun _ => rfl, rfl⟩
  allowed := by decide +kernel

set_option maxRecDepth 10000 in
theorem export_import_sample : ∃ bundle, exportAlone (sampleSigner 1) sampleDb = .ok bundle ∧
    (sampleStore.importBundle (.calm 0) sampleConn sampleKey (.obj bundle)
      (sampleSigner 1).publicPinned false sampleTime).result = .ok 1 := by
  have hsize : (sampleRegistry sampleFirst).db.size ≤ maxSafeInteger := by
    change sampleDb.size ≤ maxSafeInteger
    decide +kernel
  obtain ⟨bundle, hexport, himport, honly⟩ :=
    export_import reachable_sampleRegistry (sampleSigner 1) hsize
  refine ⟨bundle, hexport, ?_⟩
  have hverified := honly (by
    change ∀ pin ∈ [(sampleSigner 1).publicPinned], _
    simp)
  rw [((himport _ _ _ sampleKey false sampleTime newStore_sample).1 hverified).1,
    List.length_map]
  change Except.ok (firsts (fingerprint .sample) []
    (sampleDb.log.rows.map (LogRow.record .sample))).length = _
  decide +kernel

theorem eq_ok_of_toOption {ε α : Type} {x : Except ε α} {a : α} (h : x.toOption = some a) :
    x = .ok a := by
  cases x with
  | ok b => exact congrArg Except.ok (Option.some.inj h)
  | error e => cases h

instance : DecidableEq (SigningKey Platform.sample) := fun a b =>
  decidable_of_iff (a.secret.1 = b.secret.1)
    ⟨fun h => congrArg SigningKey.mk (Subtype.ext h), fun h => h ▸ rfl⟩

set_option maxRecDepth 10000 in
/-- After a completed rotation, the bundle that the active key exports is refused. -/
theorem export_refused : ∃ (r : Registry .sample) (key : SigningKey .sample) (bundle : Dict)
    (e : PyErr), r.Reachable {⟨none⟩} ∧ r.signer = some key ∧ exportAlone key r.db = .ok bundle ∧
      NewStore .sample sampleConn sampleStore (.calm 0) ∧
      (sampleStore.importBundle (.calm 0) sampleConn sampleKey (.obj bundle) key.publicPinned false
        sampleTime).result = .error e := by
  have hkey : Registry.signer (sampleRegistry sampleRotated) = some (sampleSigner 2) := by
    decide +kernel
  have hrefused : (exportAlone (sampleSigner 2) sampleDb).toOption.map (fun bundle =>
      (sampleStore.importBundle (.calm 0) sampleConn sampleKey (.obj bundle)
        (sampleSigner 2).publicPinned false sampleTime).result) = some (.error
        (.valueError ("bundle record for 'tool' does not verify against the upstream key"))) := by
    decide +kernel
  obtain ⟨bundle, hexport, hresult⟩ := Option.map_eq_some_iff.1 hrefused
  exact ⟨sampleRegistry sampleRotated, sampleSigner 2, bundle, _, reachable_sampleRotated, hkey,
    eq_ok_of_toOption hexport, newStore_sample, hresult⟩

end SkillRegistry
