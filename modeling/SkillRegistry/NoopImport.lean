import SkillRegistry.Import

/-!
# Imports of a boundary again

An import of a bundle whose boundary is the one persisted for its upstream registry is to
persist nothing. The decision goes by the boundary, and the loop after it by fingerprints; a
fingerprint covers the signature of a record, which the boundary does not.

* `imports_nil_iff`: the loop appends nothing exactly when it knows every fingerprint;
* `noopImport_persistsNothing_iff`: so does such an import.
-/

namespace SkillRegistry

open Wire

variable {P : Platform}

/-! ## Imports without new records -/

/-- An import that appends nothing knew every fingerprint, and leaves the database as it was. -/
theorem Imports.of_nil {createdAt : PyStr} {records : List (PyStr × Dict)} {db db' : Db}
    {entries : List LogEntry} (h : Imports P createdAt records db entries db') (hnil : entries = []) :
    db' = db ∧ ∀ r ∈ records, (db.imported.find? r.1).isSome = true := by
  induction h with
  | nil => exact ⟨rfl, List.forall_mem_nil _⟩
  | skip known _ ih =>
    obtain ⟨hdb, hknown⟩ := ih hnil
    exact ⟨hdb, List.forall_mem_cons.2 ⟨known, hknown⟩⟩
  | take => cases hnil

/-- An import that knows every fingerprint appends nothing. -/
theorem Imports.of_known {createdAt : PyStr} {records : List (PyStr × Dict)} {db db' : Db}
    {entries : List LogEntry} (h : Imports P createdAt records db entries db')
    (hknown : ∀ r ∈ records, (db.imported.find? r.1).isSome = true) : entries = [] := by
  induction h with
  | nil => rfl
  | skip _ _ ih => exact ih (List.forall_mem_cons.1 hknown).2
  | take fresh _ _ _ =>
    have hfirst := (List.forall_mem_cons.1 hknown).1
    rw [fresh] at hfirst
    cases hfirst

/-! ## Imports of the persisted boundary -/

/-- The offered boundary is the one that is persisted. -/
def SameBoundary (persisted offered : UpstreamHighWater) : Prop :=
  offered.version = persisted.version ∧ offered.logSize = persisted.logSize ∧
    offered.head = persisted.head ∧ offered.merkleRoot = persisted.merkleRoot

instance (persisted offered : UpstreamHighWater) : Decidable (SameBoundary persisted offered) :=
  inferInstanceAs (Decidable (_ ∧ _ ∧ _ ∧ _))

/-- The same boundary is decided to be no news. -/
theorem upstreamDecision_same {persisted offered : UpstreamHighWater}
    (h : SameBoundary persisted offered) (acceptOlder : Bool) :
    upstreamDecision (some persisted) offered acceptOlder = .ok .noop := by
  obtain ⟨hversion, hsize, hhead, hroot⟩ := h
  have hnone : upstreamOfferDiagnostic persisted offered = none := by
    rw [upstreamOfferDiagnostic, if_neg (by omega), if_neg (fun h => by
      rcases h.2 with h | h | h
      · exact h hhead
      · exact h hroot
      · exact h hsize)]
  rw [upstreamDecision, hnone]
  exact if_pos hversion

/-- An import of the boundary that is persisted returns `0` and leaves the database as it was
    exactly when every record of its bundle was imported under the signature it carries. -/
theorem noopImport_persistsNothing_iff {env : Env} {c : Conn} {s : Store} {key : SigningKey P}
    {bundle : Json} {upstream : PyStr} {acceptOlder : Bool} {now : Timestamp} {n : Nat}
    (hb : bundle.Sorted)
    (h : (s.importBundle env c key bundle upstream acceptOlder now).result = .ok n)
    {snapshot : Dict} {verified : List Dict}
    (haccepted : verifyBundle P upstream bundle = .ok (snapshot, verified)) {upstreamKey : Bytes}
    (hkey : parsePublicKey upstream = .ok upstreamKey) {persisted : UpstreamHighWater}
    (hpersisted : c.disk.highWater.find? (keyIdOf P upstreamKey) = some persisted)
    (hsame : SameBoundary persisted (offeredHighWater (keyIdOf P upstreamKey) snapshot now)) :
    n = 0 ∧ (s.importBundle env c key bundle upstream acceptOlder now).conn = c ↔
      ∀ record ∈ verified, (c.disk.imported.find? (fingerprint P record)).isSome = true := by
  obtain ⟨db, himported, hconn⟩ := importBundle_eq_ok hb h
  cases himported with
  | @mk snapshot' verified' upstreamKey' outcome entries db' accepted parsed decided imports =>
    obtain ⟨rfl, rfl⟩ := Prod.mk.inj (Except.ok.inj (accepted.symm.trans haccepted))
    obtain rfl : upstreamKey' = upstreamKey := Except.ok.inj (parsed.symm.trans hkey)
    rw [hpersisted, upstreamDecision_same hsame] at decided
    obtain rfl := Except.ok.inj decided
    have hmap : (∀ r ∈ verified'.map (importOf key), (c.disk.imported.find? r.1).isSome = true) ↔
        ∀ record ∈ verified', (c.disk.imported.find? (fingerprint P record)).isSome = true :=
      List.forall_mem_map
    rw [hconn, ← hmap]
    constructor
    · rintro ⟨hzero, -⟩
      exact (imports.of_nil (List.length_eq_zero_iff.1 hzero)).2
    · intro hknown
      have hnil := imports.of_known hknown
      obtain ⟨rfl, -⟩ := imports.of_nil hnil
      exact ⟨List.length_eq_zero_iff.2 hnil, rfl⟩

/-! ## A key with two signatures -/

/-- The sample platform with a second signature for each message. -/
def Platform.sampleTwofold : Platform := { Platform.sample with
  verify := fun publicKey signature m => signature = publicKey ++ bytesOfNat 32 (checksum m) ∨
    signature = bytesOfNat 32 (checksum m) ++ publicKey
  verify_sign := fun _ _ => decide_eq_true (.inl rfl) }

/-- A signing key of that platform. -/
def twofoldSigner (n : UInt8) : SigningKey .sampleTwofold := ⟨⟨List.replicate 32 n, rfl⟩⟩

/-- An audit of a tool under the first signature of a key. -/
def twofoldRecord : Dict := ((twofoldSigner 8).signRecord (sampleAudit (py "audited"))).toOption.getD []

/-- The same audit under its second signature. -/
def twofoldResigned : Dict := twofoldRecord.insert (py "sig") (.obj (Dict.insert (py "signature")
  (.str (b64encode (bytesOfNat 32 (checksum ((canonicalBytes .sampleTwofold twofoldRecord).toOption.getD
    [])) ++ List.replicate 32 8))) ((twofoldSigner 8).envelope
      ((canonicalBytes .sampleTwofold twofoldRecord).toOption.getD []))))

/-- The bundle of one record. -/
def twofoldBundle (record : Dict) : Json :=
  .obj ((bundleFor (twofoldSigner 8) sampleTime.text [record]).toOption.getD [])

/-- The first instance on a new file. -/
def twofoldConn : Conn := ⟨(openStore Platform.sampleTwofold sampleStart false .absent).1, none, false⟩

/-- The import of a bundle into a store. -/
def twofoldImport (c : Conn) (s : Store) (record : Dict) : Outcome Nat :=
  s.importBundle (.calm 0) c (twofoldSigner 7) (twofoldBundle record)
    (twofoldSigner 8).publicPinned false sampleTime

/-- The store after its first import. -/
@[irreducible] def twofoldFirst : Outcome Nat := twofoldImport twofoldConn sampleStore twofoldRecord

theorem sorted_twofoldBundle {record : Dict} (h : (Json.obj record).Sorted) :
    (twofoldBundle record).Sorted :=
  sorted_getD fun _ hd => sorted_bundleFor (List.forall_mem_singleton.2 h) hd

theorem sorted_sampleAudit (status : PyStr) : (Json.obj (sampleAudit status)).Sorted := by
  refine Json.every_obj.2 ⟨?_, ?_⟩
  · rw [Json.IsDict, sampleAudit]
    simp only [Dict.Sorted, List.pairwise_cons, List.forall_mem_cons, List.not_mem_nil,
      false_imp_iff, imp_true_iff, List.Pairwise.nil, and_true]
    decide
  · simp only [sampleAudit, List.forall_mem_cons]
    exact ⟨trivial, trivial, trivial, trivial, trivial, List.forall_mem_nil _⟩

theorem sorted_twofoldRecord : (Json.obj twofoldRecord).Sorted :=
  sorted_getD fun _ hd => sorted_signRecord hd (sorted_sampleAudit _)

theorem sorted_twofoldResigned : (Json.obj twofoldResigned).Sorted :=
  sorted_insert sorted_twofoldRecord (sorted_insert (sorted_envelope _ _) trivial)

/-- The snapshot of the bundle of a record. -/
def twofoldSnapshot (record : Dict) : Dict :=
  ((verifyBundle .sampleTwofold (twofoldSigner 8).publicPinned (twofoldBundle record)).toOption.map
    Prod.fst).getD []

/-- The boundary that was persisted is offered again, with a record. -/
def Again (record : Dict) : Prop :=
  verifyBundle .sampleTwofold (twofoldSigner 8).publicPinned (twofoldBundle record) =
    .ok (twofoldSnapshot record, [record]) ∧
  ∃ persisted ∈ twofoldFirst.conn.disk.highWater.find? (keyIdOf .sampleTwofold (List.replicate 32 8)),
    SameBoundary persisted (offeredHighWater (keyIdOf .sampleTwofold (List.replicate 32 8))
      (twofoldSnapshot record) sampleTime)

set_option maxRecDepth 10000 in
theorem again_twofoldRecord : Again twofoldRecord := by
  unfold Again twofoldFirst
  decide +kernel

set_option maxRecDepth 10000 in
theorem again_twofoldResigned : Again twofoldResigned := by
  unfold Again twofoldFirst
  decide +kernel

set_option maxRecDepth 10000 in
/-- The same record, imported again. -/
theorem noopImport_persistsNothing_sample :
    (twofoldImport twofoldFirst.conn twofoldFirst.store twofoldRecord).conn = twofoldFirst.conn := by
  obtain ⟨haccepted, persisted, hpersisted, hsame⟩ := again_twofoldRecord
  have hresult : (twofoldImport twofoldFirst.conn twofoldFirst.store twofoldRecord).result = .ok 0 := by
    unfold twofoldFirst
    decide +kernel
  refine ((noopImport_persistsNothing_iff (sorted_twofoldBundle sorted_twofoldRecord) hresult
    haccepted (parsePublicKey_publicPinned (twofoldSigner 8)) hpersisted hsame).2 ?_).2
  unfold twofoldFirst
  decide +kernel

set_option maxRecDepth 10000 in
/-- The same record under another signature is appended once more, though its boundary is the
    one that is persisted. -/
theorem noopImport_appends :
    openStore .sampleTwofold sampleStart false .absent = (twofoldConn.disk, .ok sampleStore) ∧
    twofoldFirst.result = .ok 1 ∧ (twofoldBundle twofoldResigned).Sorted ∧ Again twofoldResigned ∧
    (twofoldImport twofoldFirst.conn twofoldFirst.store twofoldResigned).result = .ok 1 ∧
    (twofoldImport twofoldFirst.conn twofoldFirst.store twofoldResigned).conn.disk.log ≠
      twofoldFirst.conn.disk.log := by
  refine ⟨by decide +kernel, ?_, sorted_twofoldBundle sorted_twofoldResigned, again_twofoldResigned,
    ?_, ?_⟩ <;>
  · unfold twofoldFirst
    decide +kernel

end SkillRegistry
