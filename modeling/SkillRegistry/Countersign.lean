import SkillRegistry.Validated

/-!
# Countersigning

The service signs a record that it accepts with its own key, and keeps the signature the
record came with as an endorsement: the record of an auditor under the auditor's name
(`countersignedBody`), the record of an upstream registry under `upstream-import`
(`importedBody`).

* `canonical_obj` and `canonical_signRecord`: what is canonical of an object is so member
  by member, and stays so when the object is signed;
* `ValidRecord.countersigned` and `ValidRecord.imported`: a countersigned record passes
  the checks that the record passed.
-/

namespace SkillRegistry

open Wire

variable {P : Platform}

/-! ## Texts -/

theorem scalar_of_ascii {s : PyStr} (h : ∀ c ∈ s, c.val < 0x80) : Scalar s :=
  fun c hc => not_isSurrogate_of_lt (h c hc)

theorem ascii_of_mem_hex {b : Bytes} : ∀ c ∈ hex b, c.val < 0x80 := by
  intro c hc
  obtain ⟨n, hn, rfl⟩ := mem_hex hc
  have := hexDigit_lower hn
  omega

theorem scalar_hex (b : Bytes) : Scalar (hex b) := scalar_of_ascii ascii_of_mem_hex

theorem scalar_keyIdOf (key : Bytes) : Scalar (keyIdOf P key) :=
  fun c hc => scalar_hex _ c (List.mem_of_mem_take hc)

theorem b64digit_lt {n : Nat} (h : n < 64) : (b64digit n).val < 0x80 := by
  revert n
  decide

theorem ascii_of_mem_b64encode {b : Bytes} : ∀ c ∈ b64encode b, c.val < 0x80 := by
  intro c hc
  rcases List.mem_append.1 hc with hc | hc
  · obtain ⟨n, hn, rfl⟩ := mem_b64digits hc
    exact b64digit_lt hn
  · obtain rfl := List.eq_of_mem_replicate hc
    decide

theorem scalar_b64encode (b : Bytes) : Scalar (b64encode b) := scalar_of_ascii ascii_of_mem_b64encode

theorem isKeyId_keyIdOf (key : Bytes) : isKeyId (keyIdOf P key) = true := by
  rw [isKeyId, Bool.and_eq_true, decide_eq_true_eq, List.all_eq_true]
  constructor
  · rw [keyIdOf, List.length_take, hex_length, P.sha256_length]
    rfl
  · intro c hc
    obtain ⟨n, hn, rfl⟩ := mem_hex (List.mem_of_mem_take hc)
    have := hexDigit_lower hn
    simp only [isLowerHex, Bool.or_eq_true, Bool.and_eq_true, decide_eq_true_eq]
    omega

theorem ascii_of_isTimestampForm {s : PyStr} (h : isTimestampForm s = true) :
    s.length = 20 ∧ ∀ c ∈ s, c.val < 0x80 := by
  unfold isTimestampForm at h
  split at h
  · simp only [Bool.and_eq_true, decide_eq_true_eq, List.all_eq_true] at h
    obtain ⟨⟨⟨⟨⟨⟨hdigits, rfl⟩, rfl⟩, rfl⟩, rfl⟩, rfl⟩, rfl⟩ := h
    have hascii {c : CodePoint} (hc : isDigit c = true) : c.val < 0x80 := by
      rw [isDigit] at hc
      simp only [Bool.and_eq_true, decide_eq_true_eq] at hc
      omega
    obtain ⟨hdash, ht, hcolon, hz⟩ : (cp '-').val < 0x80 ∧ (cp 'T').val < 0x80 ∧
        (cp ':').val < 0x80 ∧ (cp 'Z').val < 0x80 := by decide
    have hdigits := fun c hc => hascii (hdigits c hc)
    refine ⟨rfl, ?_⟩
    simp only [List.forall_mem_cons, List.not_mem_nil, false_imp_iff, imp_true_iff, and_true]
      at hdigits ⊢
    obtain ⟨y₁, y₂, y₃, y₄, m₁, m₂, d₁, d₂, a₁, a₂, b₁, b₂, s₁, s₂⟩ := hdigits
    exact ⟨y₁, y₂, y₃, y₄, hdash, m₁, m₂, hdash, d₁, d₂, ht, a₁, a₂, hcolon, b₁, b₂, hcolon, s₁, s₂,
      hz⟩
  · cases h

theorem scalar_of_isTimestampForm {s : PyStr} (h : isTimestampForm s = true) : Scalar s :=
  scalar_of_ascii (ascii_of_isTimestampForm h).2

/-! ## Canonical objects -/

theorem depthItems_le {items : List Json} {n : Nat} :
    Json.depthItems items ≤ n ↔ ∀ v ∈ items, v.depth ≤ n := by
  induction items with
  | nil => simp [Json.depthItems]
  | cons v items ih => rw [Json.depthItems, max_le_iff, ih, List.forall_mem_cons]

theorem depthMembers_le {members : List (PyStr × Json)} {n : Nat} :
    Json.depthMembers members ≤ n ↔ ∀ m ∈ members, m.2.depth ≤ n := by
  induction members with
  | nil => simp [Json.depthMembers]
  | cons m members ih => rw [Json.depthMembers, max_le_iff, ih, List.forall_mem_cons]

/-- A value that may stand at some depth of a canonical one. -/
def CanonicalWithin (n : Nat) (v : Json) : Prop := v.Every IsCanonical ∧ v.depth ≤ n

theorem canonicalWithin_obj {d : Dict} {n : Nat} : CanonicalWithin (n + 1) (.obj d) ↔
    ∀ m ∈ d, Scalar m.1 ∧ CanonicalWithin n m.2 := by
  rw [CanonicalWithin, Json.every_obj, Json.depth, Nat.add_le_add_iff_right, depthMembers_le]
  constructor
  · rintro ⟨⟨hk, hv⟩, hd⟩ m hm
    exact ⟨hk m hm, hv m hm, hd m hm⟩
  · intro h
    exact ⟨⟨fun m hm => (h m hm).1, fun m hm => (h m hm).2.1⟩, fun m hm => (h m hm).2.2⟩

theorem canonicalWithin_arr {items : List Json} {n : Nat} : CanonicalWithin (n + 1) (.arr items) ↔
    ∀ v ∈ items, CanonicalWithin n v := by
  rw [CanonicalWithin, Json.every_arr, Json.depth, Nat.add_le_add_iff_right, depthItems_le]
  constructor
  · rintro ⟨⟨-, hv⟩, hd⟩ v hm
    exact ⟨hv v hm, hd v hm⟩
  · intro h
    exact ⟨⟨trivial, fun v hv => (h v hv).1⟩, fun v hv => (h v hv).2⟩

theorem CanonicalWithin.mono {m n : Nat} (h : m ≤ n) {v : Json} (hv : CanonicalWithin m v) :
    CanonicalWithin n v :=
  ⟨hv.1, hv.2.trans h⟩

theorem canonicalWithin_str {n : Nat} {s : PyStr} (h : Scalar s) : CanonicalWithin n (.str s) :=
  ⟨h, Nat.zero_le n⟩

/-- A canonical object is one whose members may stand one deeper. -/
theorem canonical_obj {d : Dict} :
    Canonical (.obj d) ↔ ∀ m ∈ d, Scalar m.1 ∧ CanonicalWithin 99 m.2 :=
  canonicalWithin_obj (n := 99)

theorem Canonical.erase {d : Dict} (h : Canonical (.obj d)) (k : PyStr) :
    Canonical (.obj (d.erase k)) :=
  canonical_obj.2 fun m hm => canonical_obj.1 h m (List.mem_of_mem_filter hm)

theorem Canonical.insert {d : Dict} (h : Canonical (.obj d)) {k : PyStr} {v : Json} (hk : Scalar k)
    (hv : CanonicalWithin 99 v) : Canonical (.obj (d.insert k v)) := by
  refine canonical_obj.2 fun m hm => ?_
  rcases Dict.mem_insert hm with rfl | hm
  · exact ⟨hk, hv⟩
  · exact canonical_obj.1 h m hm

theorem Canonical.get? {d : Dict} (h : Canonical (.obj d)) {k : PyStr} {v : Json}
    (hv : d.get? k = some v) : CanonicalWithin 99 v :=
  (canonical_obj.1 h (k, v) (Dict.mem_of_get? hv)).2

theorem canonicalWithin_envelope (k : SigningKey P) (message : Bytes) :
    CanonicalWithin 1 (.obj (k.envelope message)) := by
  refine canonicalWithin_obj.2 ?_
  simp only [SigningKey.envelope, List.forall_mem_cons, List.not_mem_nil, false_imp_iff, imp_true_iff,
    and_true]
  exact ⟨⟨by decide, canonicalWithin_str (by decide)⟩,
    ⟨by decide, canonicalWithin_str (scalar_keyIdOf _)⟩,
    by decide, canonicalWithin_str (scalar_b64encode _)⟩

theorem canonicalBytes_eq_ok {d : Dict} {b : Bytes} (h : canonicalBytes P d = .ok b) :
    Canonical (.obj (d.erase (py "sig"))) :=
  (canonicalDocument_eq_ok.1 h).1

/-- What was signed is canonical, its signature included. -/
theorem canonical_signRecord {k : SigningKey P} {body record : Dict}
    (h : k.signRecord body = .ok record) : Canonical (.obj record) := by
  obtain ⟨b, hb, rfl⟩ := signRecord_eq_ok.1 h
  exact (canonicalBytes_eq_ok hb).insert (by decide)
    ((canonicalWithin_envelope k b).mono (by decide))

theorem isEnvelope_envelope (k : SigningKey P) (message : Bytes) :
    IsEnvelope (some (.obj (k.envelope message))) :=
  ⟨_, _, _, _, rfl, keys_envelope k message, rfl, rfl, isKeyId_keyIdOf _,
    get?_envelope_signature k message, b64decode_b64encode _, P.sign_length _ _, rfl⟩

theorem get?_sig_signRecord {k : SigningKey P} {body record : Dict}
    (h : k.signRecord body = .ok record) : ∃ b, canonicalBytes P body = .ok b ∧
      record.get? (py "sig") = some (.obj (k.envelope b)) := by
  obtain ⟨b, hb, rfl⟩ := signRecord_eq_ok.1 h
  exact ⟨b, hb, by rw [Dict.get?_insert, if_pos rfl]⟩

/-- Signing succeeds on every canonical object. -/
theorem signRecord_of_canonical (k : SigningKey P) {body : Dict} (h : Canonical (.obj body)) :
    ∃ record, k.signRecord body = .ok record :=
  ⟨_, signRecord_eq_ok.2 ⟨_, canonicalDocument_eq_ok.2 ⟨h.erase _, rfl⟩, rfl⟩⟩

/-! ## Endorsements -/

/-- The endorsement that keeps the signature a record came with. -/
def endorsement (endorser : PyStr) (record : Dict) : Json :=
  .obj [(py "endorser", .str endorser), (py "sig", (record.get? (py "sig")).getD .null)]

/-- The endorsements of a body, when they are a list. -/
def endorsementsOf (body : Dict) : List Json :=
  match body.get? (py "endorsements") with
  | some (.arr existing) => existing
  | _ => []

/-- A body with one more endorsement. -/
def addEndorsement (body : Dict) (e : Json) : Dict :=
  body.insert (py "endorsements") (.arr (endorsementsOf body ++ [e]))

/-- What the service signs of an accepted record. -/
def countersignedBody (endorser : PyStr) (record : Dict) : Dict :=
  addEndorsement ((record.erase (py "sig")).insert (py "schema_version")
    ((record.get? (py "schema_version")).getD (.int 1))) (endorsement endorser record)

/-- What an import signs of a verified record. -/
def importedBody (record : Dict) : Dict :=
  addEndorsement (record.erase (py "sig")) (endorsement (py "upstream-import") record)

/-- `_countersign`. -/
def countersign (key : SigningKey P) (endorser : PyStr) (record : Dict) : Except PyErr Dict :=
  key.signRecord (countersignedBody endorser record)

/-- Every member but the endorsements is as it was. -/
theorem get?_importedBody {record : Dict} {l : PyStr} (hs : l ≠ py "sig")
    (he : l ≠ py "endorsements") : (importedBody record).get? l = record.get? l := by
  rw [importedBody, addEndorsement, Dict.get?_insert, if_neg he, Dict.get?_erase, if_neg hs]

theorem endorsements_importedBody (record : Dict) : (importedBody record).get? (py "endorsements") =
    some (.arr (endorsementsOf record ++ [endorsement (py "upstream-import") record])) := by
  have hne : py "endorsements" ≠ py "sig" := by decide
  rw [importedBody, addEndorsement, Dict.get?_insert, if_pos rfl, endorsementsOf, endorsementsOf,
    Dict.get?_erase, if_neg hne]

/-- Every member but the endorsements and the schema version is as it was. -/
theorem get?_countersignedBody {endorser : PyStr} {record : Dict} {l : PyStr} (hs : l ≠ py "sig")
    (he : l ≠ py "endorsements") (hv : l ≠ py "schema_version") :
    (countersignedBody endorser record).get? l = record.get? l := by
  rw [countersignedBody, addEndorsement, Dict.get?_insert, if_neg he, Dict.get?_insert, if_neg hv,
    Dict.get?_erase, if_neg hs]

theorem schemaVersion_countersignedBody (endorser : PyStr) (record : Dict) :
    (countersignedBody endorser record).get? (py "schema_version") =
      some ((record.get? (py "schema_version")).getD (.int 1)) := by
  have hne : py "schema_version" ≠ py "endorsements" := by decide
  rw [countersignedBody, addEndorsement, Dict.get?_insert, if_neg hne, Dict.get?_insert, if_pos rfl]

theorem endorsements_countersignedBody (endorser : PyStr) (record : Dict) :
    (countersignedBody endorser record).get? (py "endorsements") =
      some (.arr (endorsementsOf record ++ [endorsement endorser record])) := by
  have hsig : py "endorsements" ≠ py "sig" := by decide
  have hversion : py "endorsements" ≠ py "schema_version" := by decide
  rw [countersignedBody, addEndorsement, Dict.get?_insert, if_pos rfl, endorsementsOf, endorsementsOf,
    Dict.get?_insert, if_neg hversion, Dict.get?_erase, if_neg hsig]

/-! ## Countersigned records -/

theorem endorsementsOf_eq {record : Dict} {es : List Json}
    (h : (record.get? (py "endorsements")).getD (.arr []) = .arr es) : endorsementsOf record = es := by
  rw [endorsementsOf]
  cases hr : record.get? (py "endorsements") with
  | none =>
    rw [hr] at h
    exact Json.arr.inj h
  | some v =>
    rw [hr] at h
    obtain rfl : v = .arr es := h
    rfl

/-- The members of an envelope are strings. -/
theorem IsEnvelope.canonicalWithin {v : Json} (h : IsEnvelope (some v))
    (hv : v.Every IsCanonical) : CanonicalWithin 1 v := by
  obtain ⟨sig, keyId, signature, raw, he, hkeys, halg, hid, -, hsig, -⟩ := h
  obtain rfl := Option.some.inj he
  refine canonicalWithin_obj.2 fun m hm => ⟨(Json.every_obj.1 hv).1 m hm, (Json.every_obj.1 hv).2 m hm,
    ?_⟩
  match sig, hkeys, hm with
  | [(a, x), (b, y), (c, z)], hkeys, hm =>
    obtain ⟨ha, hkeys⟩ := List.cons.inj hkeys
    obtain ⟨hb, hkeys⟩ := List.cons.inj hkeys
    obtain ⟨hc, -⟩ := List.cons.inj hkeys
    obtain rfl : a = _ := ha
    obtain rfl : b = _ := hb
    obtain rfl : c = _ := hc
    obtain rfl : x = _ := Option.some.inj halg
    obtain rfl : y = _ := Option.some.inj hid
    obtain rfl : z = _ := Option.some.inj hsig
    simp only [List.mem_cons, List.not_mem_nil, or_false] at hm
    rcases hm with rfl | rfl | rfl
    · exact Nat.le_refl 0
    · exact Nat.le_refl 0
    · exact Nat.le_refl 0

namespace ValidRecord

variable {record : Dict} (h : ValidRecord record)
include h

theorem get?_sig : ∃ v, record.get? (py "sig") = some v ∧ IsEnvelope (some v) := by
  obtain ⟨sig, keyId, signature, raw, hs, hrest⟩ := h.sig
  exact ⟨.obj sig, hs, sig, keyId, signature, raw, rfl, hrest⟩

theorem isEndorsement {endorser : PyStr} (hne : endorser ≠ []) (hlen : endorser.length ≤ 8192) :
    IsEndorsement (endorsement endorser record) := by
  obtain ⟨v, hv, henv⟩ := h.get?_sig
  refine ⟨_, endorser, rfl, rfl, rfl, hne, hlen, ?_⟩
  rw [hv]
  exact henv

theorem endorsements_isEndorsement : ∀ e ∈ endorsementsOf record, IsEndorsement e := by
  obtain ⟨es, hes, hend⟩ := h.endorsements
  rwa [endorsementsOf_eq hes]

/-- A body with one more endorsement is canonical. -/
theorem canonical_addEndorsement {body : Dict} (hb : Canonical (.obj body)) {endorser : PyStr}
    (hend : Scalar endorser) : Canonical (.obj (addEndorsement body (endorsement endorser record))) := by
  obtain ⟨v, hv, henv⟩ := h.get?_sig
  have hsig : CanonicalWithin 1 v := henv.canonicalWithin (h.canonical.get? hv).1
  refine hb.insert (by decide) (canonicalWithin_arr.2 fun e he => ?_)
  rcases List.mem_append.1 he with he | he
  · rw [endorsementsOf] at he
    split at he
    · rename_i existing hexisting
      exact canonicalWithin_arr.1 (hb.get? hexisting) e he
    · exact absurd he List.not_mem_nil
  · obtain rfl := List.mem_singleton.1 he
    rw [endorsement, hv, Option.getD_some]
    refine canonicalWithin_obj.2 ?_
    simp only [List.forall_mem_cons, List.not_mem_nil, false_imp_iff, imp_true_iff, and_true]
    exact ⟨⟨by decide, canonicalWithin_str hend⟩, by decide, hsig.mono (by decide)⟩

/-- A record with the members of a valid one, but for its signature and endorsements. -/
theorem of_agree {r : Dict} (hagree : ∀ l, l ≠ py "sig" → l ≠ py "endorsements" →
      l ≠ py "schema_version" → r.get? l = record.get? l)
    (hversion : (r.get? (py "schema_version")).getD (.int 1) =
      (record.get? (py "schema_version")).getD (.int 1))
    (hsig : IsEnvelope (r.get? (py "sig")))
    (hend : ∃ es, r.get? (py "endorsements") = some (.arr es) ∧ ∀ e ∈ es, IsEndorsement e)
    (hcanonical : Canonical (.obj r)) : ValidRecord r where
  fields := by
    refine List.all_eq_true.2 fun k hk => decide_eq_true ?_
    by_cases hks : k = py "sig"
    · exact hks ▸ by decide
    by_cases hke : k = py "endorsements"
    · exact hke ▸ by decide
    by_cases hkv : k = py "schema_version"
    · exact hkv ▸ by decide
    have hk' : k ∈ record.keys := by
      by_contra hn
      have := hagree k hks hke hkv
      rw [Dict.get?_eq_none.2 hn] at this
      exact Dict.get?_eq_none.1 this hk
    exact of_decide_eq_true (List.all_eq_true.1 h.fields k hk')
  hashVersion := by
    rw [validateHashVersion, hversion, hagree (py "hash_version") (by decide) (by decide) (by decide)]
    exact h.hashVersion
  name := hagree (py "name") (by decide) (by decide) (by decide) ▸ h.name
  sourceIdentity := hagree (py "source_identity") (by decide) (by decide) (by decide) ▸ h.sourceIdentity
  commit := hagree (py "commit") (by decide) (by decide) (by decide) ▸ h.commit
  contentSha256 := hagree (py "content_sha256") (by decide) (by decide) (by decide) ▸ h.contentSha256
  status := hagree (py "status") (by decide) (by decide) (by decide) ▸ h.status
  audit := hagree (py "audit") (by decide) (by decide) (by decide) ▸ h.audit
  sig := hsig
  endorsements := by
    obtain ⟨es, hes, hall⟩ := hend
    exact ⟨es, by rw [hes]; rfl, hall⟩
  canonical := hcanonical

/-- The endorsements of a countersigned record. -/
theorem addEndorsement_isEndorsement {endorser : PyStr} (hne : endorser ≠ [])
    (hlen : endorser.length ≤ 8192) :
    ∀ e ∈ endorsementsOf record ++ [endorsement endorser record], IsEndorsement e := by
  intro e he
  rcases List.mem_append.1 he with he | he
  · exact h.endorsements_isEndorsement e he
  · obtain rfl := List.mem_singleton.1 he
    exact h.isEndorsement hne hlen

/-- An imported record is valid. -/
theorem imported {k : SigningKey P} {r : Dict} (hr : k.signRecord (importedBody record) = .ok r) :
    ValidRecord r := by
  obtain ⟨b, -, hsig⟩ := get?_sig_signRecord hr
  have hv : py "schema_version" ≠ py "sig" := by decide
  refine h.of_agree (fun l hs he _ => ?_) ?_ (hsig ▸ isEnvelope_envelope k b) ?_
    (canonical_signRecord hr)
  · rw [get?_signRecord hr hs, get?_importedBody hs he]
  · rw [get?_signRecord hr hv, get?_importedBody hv (by decide)]
  · have hname : py "upstream-import" ≠ [] ∧ (py "upstream-import").length ≤ 8192 := by decide
    refine ⟨_, ?_, h.addEndorsement_isEndorsement hname.1 hname.2⟩
    rw [get?_signRecord hr (by decide), endorsements_importedBody]

/-- A countersigned record is valid. -/
theorem countersigned {k : SigningKey P} {endorser : PyStr} (hne : endorser ≠ [])
    (hlen : endorser.length ≤ 8192) {r : Dict} (hr : countersign k endorser record = .ok r) :
    ValidRecord r := by
  obtain ⟨b, -, hsig⟩ := get?_sig_signRecord hr
  refine h.of_agree (fun l hs he hv => ?_) ?_ (hsig ▸ isEnvelope_envelope k b) ?_
    (canonical_signRecord hr)
  · rw [get?_signRecord hr hs, get?_countersignedBody hs he hv]
  · rw [get?_signRecord hr (by decide), schemaVersion_countersignedBody]
    rfl
  · refine ⟨_, ?_, h.addEndorsement_isEndorsement hne hlen⟩
    rw [get?_signRecord hr (by decide), endorsements_countersignedBody]

/-- An import can sign every valid record. -/
theorem signRecord_imported (k : SigningKey P) : ∃ r, k.signRecord (importedBody record) = .ok r :=
  signRecord_of_canonical k (h.canonical_addEndorsement (h.canonical.erase _) (by decide))

end ValidRecord

theorem sorted_addEndorsement {body : Dict} (hb : (Json.obj body).Sorted) {e : Json} (he : e.Sorted) :
    (Json.obj (addEndorsement body e)).Sorted := by
  refine sorted_insert hb (Json.every_arr.2 ⟨trivial, fun v hv => ?_⟩)
  rcases List.mem_append.1 hv with hv | hv
  · rw [endorsementsOf] at hv
    split at hv
    · rename_i existing hexisting
      exact (Json.every_arr.1 ((Json.every_obj.1 hb).2 _ (Dict.mem_of_get? hexisting))).2 v hv
    · exact absurd hv List.not_mem_nil
  · obtain rfl := List.mem_singleton.1 hv
    exact he

theorem sorted_endorsement {record : Dict} (h : (Json.obj record).Sorted) (endorser : PyStr) :
    (endorsement endorser record).Sorted := by
  refine Json.every_obj.2 ⟨?_, ?_⟩
  · have hlt : py "endorser" < py "sig" := by decide
    simp [Json.IsDict, Dict.Sorted, hlt]
  · simp only [List.forall_mem_cons, List.not_mem_nil, false_imp_iff, imp_true_iff, and_true]
    refine ⟨trivial, ?_⟩
    cases hs : record.get? (py "sig") with
    | none => trivial
    | some v => exact (Json.every_obj.1 h).2 _ (Dict.mem_of_get? hs)

theorem sorted_importedBody {record : Dict} (h : (Json.obj record).Sorted) :
    (Json.obj (importedBody record)).Sorted :=
  sorted_addEndorsement (sorted_erase h) (sorted_endorsement h _)

theorem sorted_countersignedBody {record : Dict} (h : (Json.obj record).Sorted) (endorser : PyStr) :
    (Json.obj (countersignedBody endorser record)).Sorted := by
  refine sorted_addEndorsement (sorted_insert (sorted_erase h) ?_) (sorted_endorsement h _)
  cases hv : record.get? (py "schema_version") with
  | none => trivial
  | some v => exact (Json.every_obj.1 h).2 _ (Dict.mem_of_get? hv)

end SkillRegistry
