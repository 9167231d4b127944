import SkillRegistry.Import

/-!
# Imports and the verification of the store

An import files each record under a fingerprint of its members and its signature. The
verification of the store computes the fingerprint again from the stored copy, and takes
the signature from the first `upstream-import` endorsement. That is the one the import
added only when the record carried none.

* `importFingerprint_importedCopy`: the fingerprint that the verification computes;
* `import_keepsIntegrity_iff`: after an import the verification reports no error exactly
  when each new record that already carried an `upstream-import` endorsement carries its
  own signature in the first one.
-/

namespace SkillRegistry

open Wire Firsts

variable {P : Platform}

/-! ## Fingerprints -/

/-- The signature in the first `upstream-import` endorsement that a record carries. -/
def carriedSignature (record : Dict) : Option PyStr := upstreamSignature (endorsementsOf record)

theorem upstreamSignature_append (es es' : List Json) :
    upstreamSignature (es ++ es') = (upstreamSignature es).or (upstreamSignature es') := by
  induction es with
  | nil => rfl
  | cons e es ih =>
    cases e with
    | obj members =>
      rw [List.cons_append, upstreamSignature, upstreamSignature]
      split
      · split
        · split
          · rfl
          · exact ih
        · exact ih
      · exact ih
    | _ => exact ih

/-- A carried signature is one of an envelope. -/
theorem upstreamSignature_eq_some {es : List Json} (h : ∀ e ∈ es, IsEndorsement e) {signature : PyStr}
    (hs : upstreamSignature es = some signature) : ∃ raw, signature = b64encode raw ∧
      raw.length = 64 := by
  induction es with
  | nil => cases hs
  | cons e es ih =>
    obtain ⟨he, hes⟩ := List.forall_mem_cons.1 h
    obtain ⟨members, endorser, rfl, -, -, -, -, henv⟩ := he
    obtain ⟨sig, keyId, signature', raw, hsig, -, -, -, -, hget, -, hlen, henc⟩ := henv
    rw [upstreamSignature] at hs
    split_ifs at hs
    · rw [hsig] at hs
      dsimp only at hs
      rw [hget] at hs
      obtain rfl := Option.some.inj hs
      exact ⟨raw, henc.symm, hlen⟩
    · exact ih hes hs

theorem b64encode_ne_nil {raw : Bytes} (h : raw.length = 64) : b64encode raw ≠ [] := by
  intro hnil
  have := b64decode_b64encode raw
  rw [hnil] at this
  rw [← Option.some.inj this] at h
  cases h

theorem nonEmptyStr_of_ne {s : PyStr} (h : s ≠ []) : nonEmptyStr (some (.str s)) = some s := by
  cases s with
  | nil => exact absurd rfl h
  | cons c s => rfl

/-- The members of a fingerprint are there. -/
theorem ValidRecord.nonEmptyStr_eq {record : Dict} (h : ValidRecord record) :
    nonEmptyStr (record.get? (py "source_identity")) = some (strField record (py "source_identity")) ∧
    nonEmptyStr (record.get? (py "commit")) = some (strField record (py "commit")) ∧
    nonEmptyStr (record.get? (py "content_sha256")) = some (strField record (py "content_sha256")) ∧
    nonEmptyStr (record.get? (py "status")) = some (strField record (py "status")) := by
  have key {k : PyStr} {form : PyStr → Prop} (hk : HasStr (record.get? k) form) (hnil : ¬form []) :
      nonEmptyStr (record.get? k) = some (strField record k) := by
    obtain ⟨hget, hform⟩ := hk.strField_eq
    rw [hget]
    exact nonEmptyStr_of_ne fun hs => hnil (hs ▸ hform)
  exact ⟨key h.sourceIdentity (by decide), key h.commit (by decide),
    key h.contentSha256 (by decide), key h.status (by decide)⟩

section Copy

variable {record : Dict} (h : ValidRecord record) (key : SigningKey P)
include h

theorem get?_importedCopy {l : PyStr} (hs : l ≠ py "sig") (he : l ≠ py "endorsements") :
    (importedCopy key record).get? l = record.get? l := by
  rw [get?_signRecord (h.importedCopy_eq key) hs, get?_importedBody hs he]

theorem endorsements_importedCopy : (importedCopy key record).get? (py "endorsements") =
    some (.arr (endorsementsOf record ++ [endorsement (py "upstream-import") record])) := by
  rw [get?_signRecord (h.importedCopy_eq key) (by decide), endorsements_importedBody]

theorem upstreamSignature_endorsement :
    upstreamSignature [endorsement (py "upstream-import") record] =
      some (recordSignature record) := by
  obtain ⟨sig, raw, hs, hget, -, -⟩ := h.recordSignature_eq
  rw [endorsement, hs, Option.getD_some, upstreamSignature]
  have hname : Dict.get? [(py "endorser", Json.str (py "upstream-import")), (py "sig", .obj sig)]
      (py "endorser") = some (.str (py "upstream-import")) := rfl
  have hsig : Dict.get? [(py "endorser", Json.str (py "upstream-import")), (py "sig", .obj sig)]
      (py "sig") = some (.obj sig) := rfl
  rw [if_pos hname, hsig]
  dsimp only
  rw [hget]

/-- The fingerprint that the verification computes takes the signature that the record
    carried, when it carried one. -/
theorem importFingerprint_importedCopy : importFingerprint P (.obj (importedCopy key record)) =
    .ok (some (hex (P.sha256 (fingerprintPayload (fingerprintFields record
      ((carriedSignature record).getD (recordSignature record))))))) := by
  obtain ⟨h₁, h₂, h₃, h₄⟩ := h.nonEmptyStr_eq
  obtain ⟨sig, raw, -, -, henc, hlen⟩ := h.recordSignature_eq
  have hcarried : upstreamSignature (endorsementsOf record ++
      [endorsement (py "upstream-import") record]) =
        some ((carriedSignature record).getD (recordSignature record)) := by
    rw [upstreamSignature_append, upstreamSignature_endorsement h, carriedSignature]
    cases upstreamSignature (endorsementsOf record) <;> rfl
  have hform : ∃ raw, (carriedSignature record).getD (recordSignature record) = b64encode raw ∧
      raw.length = 64 := by
    cases hc : carriedSignature record with
    | none => exact ⟨raw, henc, hlen⟩
    | some signature => exact upstreamSignature_eq_some h.endorsements_isEndorsement hc
  obtain ⟨raw', henc', hlen'⟩ := hform
  rw [importFingerprint, endorsements_importedCopy h key]
  dsimp only
  rw [hcarried, get?_importedCopy h key (by decide) (by decide),
    get?_importedCopy h key (by decide) (by decide), get?_importedCopy h key (by decide) (by decide),
    get?_importedCopy h key (by decide) (by decide), h₁, h₂, h₃, h₄, Option.map_some,
    nonEmptyStr_of_ne (henc' ▸ b64encode_ne_nil hlen')]
  change (fingerprintOf P (fingerprintFields record _)).map some = _
  rw [fingerprintOf_eq_ok (h.scalar_fields (henc' ▸ scalar_b64encode raw'))]
  rfl

/-- What the verification reads back of a stored copy. -/
theorem loadsOrNone_importedCopy (hs : (Json.obj record).Sorted) :
    loadsOrNone P (Json.obj (importedCopy key record)).dumps = .ok (.obj (importedCopy key record)) := by
  have hc := canonical_signRecord (h.importedCopy_eq key)
  obtain ⟨hsorted, hnumeral⟩ := importedCopy_sorted h hs key
  rw [loadsOrNone, pyLoads_jsonDumps (jsonDumps_of_canonical hc) hsorted hnumeral]

end Copy

/-! ## After an import -/

/-- The first `upstream-import` endorsement that a record carries, if any, has the signature
    of the record itself. -/
def CarriesOwn (record : Dict) : Prop :=
  ∀ signature, carriedSignature record = some signature → signature = recordSignature record

/-- What the fingerprints of records are digests of, under the signatures of the records and
    under the ones that they carry. -/
def fingerprintInputs (records : List Dict) : Set Bytes :=
  {b | ∃ r ∈ records, ∃ signature, (signature = recordSignature r ∨
    carriedSignature r = some signature) ∧ b = fingerprintPayload (fingerprintFields r signature)}

/-- The two fingerprints of an imported record are equal when it carries its own signature. -/
theorem importFingerprint_eq_iff {record : Dict} (h : ValidRecord record) (key : SigningKey P)
    (hinj : (fingerprintInputs [record]).InjOn P.sha256) :
    importFingerprint P (.obj (importedCopy key record)) = .ok (some (fingerprint P record)) ↔
      CarriesOwn record := by
  rw [importFingerprint_importedCopy h key, h.fingerprint_eq]
  constructor
  · intro he signature hc
    rw [hc, Option.getD_some] at he
    have hsha := hex_injective (Option.some.inj (Except.ok.inj he))
    have hmem (signature : PyStr)
        (hs : signature = recordSignature record ∨ carriedSignature record = some signature) :
        fingerprintPayload (fingerprintFields record signature) ∈ fingerprintInputs [record] :=
      ⟨record, List.mem_singleton_self _, signature, hs, rfl⟩
    have hfields := fingerprintPayload_injective (hinj (hmem _ (.inr hc)) (hmem _ (.inl rfl)) hsha)
    simpa [fingerprintFields] using hfields
  · intro hc
    cases hs : carriedSignature record with
    | none => rfl
    | some signature => rw [Option.getD_some, hc signature hs]

theorem ValidSnapshot.wellFormed {snapshot : Dict} (h : ValidSnapshot P snapshot) (key : Bytes)
    (now : Timestamp) : (offeredHighWater (keyIdOf P key) snapshot now).wellFormed = true := by
  obtain ⟨logSize, version, hsize, hversion, h₀, h₁, -⟩ := h.sizes
  have hs : intField snapshot (py "log_size") = logSize := by rw [intField, hsize]
  have hv : intField snapshot (py "version") = version := by rw [intField, hversion]
  simp only [UpstreamHighWater.wellFormed, offeredHighWater, isKeyId_keyIdOf, hs, hv, now.valid,
    h.head.strField_eq.2, h.merkleRoot.strField_eq.2, Bool.and_true, Bool.true_and,
    Bool.and_eq_true, decide_eq_true_eq]
  omega

/-- The entry of an imported record is found in the log, and read back. -/
theorem Imports.find?_entry {createdAt : PyStr} {records : List (PyStr × Dict)} {db db' : Db}
    {entries : List LogEntry} (h : Imports P createdAt records db entries db') {entry : LogEntry}
    (he : entry ∈ entries) : db'.log.find? entry.seq = some (entry.row createdAt) := by
  refine Table.find?_eq_some.2 ⟨?_, rfl⟩
  rw [h.log_rows]
  exact List.mem_append_right _ (List.mem_map_of_mem he)

/-- After an import the verification reports no error exactly when every record that was new
    carries, if any, its own signature. -/
theorem import_keepsIntegrity_iff {env : Env} {c : Conn} {s : Store} {key : SigningKey P}
    {bundle : Json} {upstream : PyStr} {acceptOlder : Bool} {now : Timestamp} {n : Nat}
    (hb : bundle.Sorted) (hi : Invariant P c.disk) (hv : integrityErrors P c.disk = .ok [])
    (h : (s.importBundle env c key bundle upstream acceptOlder now).result = .ok n) :
    ∃ snapshot verified, verifyBundle P upstream bundle = .ok (snapshot, verified) ∧
      ((fingerprintInputs verified).InjOn P.sha256 →
        (integrityErrors P (s.importBundle env c key bundle upstream acceptOlder now).conn.disk =
            .ok [] ↔
          ∀ r ∈ firsts (fingerprint P) c.disk.fingerprints verified, CarriesOwn r)) := by
  obtain ⟨db, himported, hconn⟩ := importBundle_eq_ok hb h
  rw [hconn]
  cases himported with
  | @mk snapshot verified upstreamKey outcome entries db' accepted parsed decided imports =>
    refine ⟨snapshot, verified, accepted, fun hinj => ?_⟩
    have hvalid := verified_of_accepted hb accepted
    have hfirsts : firsts Prod.fst c.disk.fingerprints (verified.map (importOf key)) =
        (firsts (fingerprint P) c.disk.fingerprints verified).map (importOf key) :=
      firsts_map (importOf key) _ _
    have hmem {r : Dict} (hr : r ∈ firsts (fingerprint P) c.disk.fingerprints verified) :
        r ∈ verified := (firsts_sublist _ _).subset hr
    have hsub {r : Dict} (hr : r ∈ verified) :
        (fingerprintInputs [r]).InjOn P.sha256 := by
      refine hinj.mono ?_
      rintro b ⟨r', hr', rest⟩
      obtain rfl := List.mem_singleton.1 hr'
      exact ⟨r', hr, rest⟩
    have hread {r : Dict} (hr : r ∈ verified) {entry : LogEntry}
        (hrecord : entry.record = importedCopy key r) :
        loadsOrNone P (entry.row now.text).recordJson = .ok (.obj (importedCopy key r)) := by
      rw [← loadsOrNone_importedCopy (hvalid r hr).1 key (hvalid r hr).2, ← hrecord]
      rfl
    rw [integrityErrors_eq_nil]
    constructor
    · intro hverified r hr
      obtain ⟨entry, hentry, hrecord, hrow⟩ := imports.exists_entry
        (hfirsts ▸ List.mem_map_of_mem hr : importOf key r ∈ _)
      have himports : ∀ row ∈ db'.imported.rows, ImportSound P db' row := by
        intro row hr
        have hdb := hverified.imports row
        split_ifs at hdb
        · exact hdb hr
        · exact hdb hr
      obtain ⟨seq, row, record, hseq, hfind, hloads, hf⟩ := himports _ hrow
      obtain rfl := Option.some.inj hseq
      obtain rfl := Option.some.inj ((imports.find?_entry hentry).symm.trans hfind)
      obtain rfl := Except.ok.inj ((hread (hmem hr) hrecord).symm.trans hloads)
      exact (importFingerprint_eq_iff (hvalid r (hmem hr)).1 key (hsub (hmem hr))).1 hf
    · intro hown
      have hinv : Invariant P db' := by
        refine imports.invariant (fun x hx => ?_) hi
        obtain ⟨r, hr, rfl⟩ := List.mem_map.1 hx
        exact importedCopy_sorted (hvalid r hr).1 (hvalid r hr).2 key
      obtain ⟨-, -, hmetadata, hidem, hhighWater⟩ := imports.frame
      have hsnapshot : ValidSnapshot P snapshot := by
        obtain ⟨_, _, -, -, ⟨-, hvs, -⟩, -⟩ := verifyBundle_eq_ok.1 accepted
        exact hvs
      have himportsound : ∀ row ∈ db'.imported.rows, row ∈ c.disk.imported.rows ∨
          ImportSound P db' row := by
        intro row hrow
        rcases imports.imported_cases hrow with hrow | ⟨x, hx, entry, hentry, hrecord, rfl⟩
        · exact .inl hrow
        rw [hfirsts] at hx
        obtain ⟨r, hr, rfl⟩ := List.mem_map.1 hx
        exact .inr ⟨entry.seq, _, _, rfl, imports.find?_entry hentry, hread (hmem hr) hrecord,
          (importFingerprint_eq_iff (hvalid r (hmem hr)).1 key (hsub (hmem hr))).2 (hown r hr)⟩
      have hgrow : Verified P db' := by
        refine (integrityErrors_eq_nil.1 hv).grow ?_ hinv.log (fun row hr => ?_) hmetadata
          (fun row hr => .inl (hidem ▸ hr)) himportsound (fun row hr => .inl (hhighWater ▸ hr))
        · exact imports.log_rows ▸ List.prefix_append _ _
        · rw [imports.log_rows] at hr
          rcases List.mem_append.1 hr with hr | hr
          · exact .inl hr
          · obtain ⟨entry, -, rfl⟩ := List.mem_map.1 hr
            exact .inr now.valid
      split_ifs
      · have hlog : db'.log.rows <+: (db'.putHighWater
            (offeredHighWater (keyIdOf P upstreamKey) snapshot now)).log.rows := List.prefix_rfl
        refine hgrow.grow hlog hinv.log (fun row hr => .inl hr) rfl
          (fun row hr => .inl hr) (fun row hr => .inl hr) fun row hr => ?_
        rcases Table.mem_put.1 hr with rfl | ⟨hr, -⟩
        · exact .inr (hsnapshot.wellFormed upstreamKey now)
        · exact .inl hr
      · exact hgrow

/-! ## On the sample registry -/

/-- A record that an upstream registry imported from another one. -/
def sampleForwarded : Dict :=
  importedCopy (sampleSigner 8) (sampleSigned (sampleSigner 9) (py "audited"))

/-- The import of a bundle of one record. -/
def sampleImport (record : Dict) : Outcome Nat :=
  sampleStore.importBundle (.calm 0) sampleConn sampleKey (sampleBundle (sampleSigner 8) [record])
    (sampleSigner 8).publicPinned false sampleTime

set_option maxRecDepth 10000 in
theorem valid_sampleSigned : ValidRecord (sampleSigned (sampleSigner 9) (py "audited")) :=
  have h : validateRecord .sample (.obj (sampleSigned (sampleSigner 9) (py "audited"))) =
      .ok (sampleSigned (sampleSigner 9) (py "audited")) := by decide +kernel
  (validateRecord_obj.1 h).2

set_option maxRecDepth 10000 in
/-- An audit that the upstream registry signed itself is imported, and verified. -/
theorem import_keepsIntegrity_iff_sample :
    integrityErrors .sample (sampleImport (sampleSigned (sampleSigner 8) (py "audited"))).conn.disk =
      .ok [] := by
  have hsorted : (sampleBundle (sampleSigner 8)
      [sampleSigned (sampleSigner 8) (py "audited")]).Sorted :=
    sorted_sampleBundle (List.forall_mem_singleton.2 (sorted_sampleSigned _ _))
  obtain ⟨snapshot, verified, haccepted, hiff⟩ := import_keepsIntegrity_iff hsorted
    invariant_sample (by decide +kernel) (show (sampleImport
      (sampleSigned (sampleSigner 8) (py "audited"))).result = .ok 1 by decide +kernel)
  have hverified : (verifyBundle .sample (sampleSigner 8).publicPinned (sampleBundle (sampleSigner 8)
      [sampleSigned (sampleSigner 8) (py "audited")])).map Prod.snd =
        .ok [sampleSigned (sampleSigner 8) (py "audited")] := by decide +kernel
  rw [haccepted] at hverified
  obtain rfl := Except.ok.inj hverified
  have hcarried : carriedSignature (sampleSigned (sampleSigner 8) (py "audited")) = none := by
    decide +kernel
  refine (hiff (Set.Subsingleton.injOn ?_ _)).2 fun r hr signature hs => ?_
  · rintro b ⟨r, hr, signature, hs, rfl⟩ b' ⟨r', hr', signature', hs', rfl⟩
    obtain rfl := List.mem_singleton.1 hr
    obtain rfl := List.mem_singleton.1 hr'
    rw [hcarried] at hs hs'
    obtain rfl := hs.resolve_right (Option.some_ne_none _).symm
    obtain rfl := hs'.resolve_right (Option.some_ne_none _).symm
    rfl
  · obtain rfl := List.mem_singleton.1 ((firsts_sublist _ _).subset hr)
    rw [hcarried] at hs
    cases hs

set_option maxRecDepth 10000 in
/-- A record that the upstream registry imported itself is imported, and not verified. -/
theorem import_breaksIntegrity : ∃ bundle : Json, bundle.Sorted ∧
    openStore .sample sampleStart false .absent = (sampleConn.disk, .ok sampleStore) ∧
    integrityErrors .sample sampleConn.disk = .ok [] ∧
    (sampleStore.importBundle (.calm 0) sampleConn sampleKey bundle
      (sampleSigner 8).publicPinned false sampleTime).result = .ok 1 ∧
    integrityErrors .sample (sampleStore.importBundle (.calm 0) sampleConn sampleKey bundle
      (sampleSigner 8).publicPinned false sampleTime).conn.disk ≠ .ok [] := by
  refine ⟨sampleBundle (sampleSigner 8) [sampleForwarded], sorted_sampleBundle ?_,
    openStore_sample, by decide +kernel, by decide +kernel, by decide +kernel⟩
  exact List.forall_mem_singleton.2
    (importedCopy_sorted valid_sampleSigned (sorted_sampleSigned _ _) _).1

end SkillRegistry
