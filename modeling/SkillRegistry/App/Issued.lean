import SkillRegistry.App.Cursor

/-!
# Issued cursors

A page that is not the last one names the next by a cursor that the handlers accept.

* `exists_encodeCursor`: a cursor can be issued for a canonical query and a signed boundary;
* `cursorState_encodeCursor`: it is accepted for its query until it expires, while the keys it
  was signed with are accepted, and carries what it was issued with.
-/

namespace SkillRegistry

open Wire

variable {P : Platform}

/-! ## Issuing -/

theorem encodeCursor_eq_ok {key : SigningKey P} {endpoint : Endpoint} {query snapshot : Dict}
    {offset : Nat} {now : Int} {cursor : PyStr} :
    encodeCursor key endpoint query snapshot offset now = .ok cursor ↔
      ∃ digest payload, queryDigest P endpoint query = .ok digest ∧
        canonicalDocument P (.obj (cursorBody digest snapshot offset (now + cursorTtlSeconds))) =
          .ok payload ∧
        cursor = urlEncode payload ++ cp '.' :: urlEncode (P.sign key.secret payload) := by
  rw [encodeCursor]
  simp only [bind_eq_ok_iff, SigningKey.sign, b64decode_b64encode, Except.ok.injEq]
  constructor
  · rintro ⟨digest, hdigest, payload, hpayload, rfl⟩
    exact ⟨digest, payload, hdigest, hpayload, rfl⟩
  · rintro ⟨digest, payload, hdigest, hpayload, rfl⟩
    exact ⟨digest, hdigest, payload, hpayload, rfl⟩

theorem canonicalWithin_int {n : Int} (h : -maxSafeInteger ≤ n ∧ n ≤ maxSafeInteger) (m : Nat) :
    CanonicalWithin m (.int n) := ⟨h, Nat.zero_le _⟩

/-- The members of a snapshot are texts, integers and an envelope. -/
theorem ValidSnapshot.canonicalWithin {snapshot : Dict} (h : ValidSnapshot P snapshot) :
    CanonicalWithin 2 (.obj snapshot) := by
  have hpairwise : snapshot.keys.Pairwise (· < ·) := by
    rw [h.fields]
    decide
  have hsorted : snapshot.Sorted := List.pairwise_map.1 hpairwise
  refine ⟨h.canonical.1, Nat.succ_le_succ (depthMembers_le.2 ?_)⟩
  rintro ⟨k, v⟩ hm
  have hget := Dict.get?_of_mem hsorted hm
  have hk : k ∈ snapshotFields := h.fields ▸ List.mem_map_of_mem hm
  have htext {form : PyStr → Prop} (hs : HasStr (snapshot.get? k) form) : v.depth ≤ 1 := by
    obtain ⟨s, hs, -⟩ := hs
    obtain rfl := Option.some.inj (hget.symm.trans hs)
    exact Nat.zero_le _
  have hint {n : Int} (hn : snapshot.get? k = some (.int n)) : v.depth ≤ 1 := by
    obtain rfl := Option.some.inj (hget.symm.trans hn)
    exact Nat.zero_le _
  obtain ⟨logSize, version, hsize, hversion, -⟩ := h.sizes
  simp only [snapshotFields, List.mem_cons, List.not_mem_nil, or_false] at hk
  rcases hk with rfl | rfl | rfl | rfl | rfl | rfl | rfl
  · exact htext h.createdAt
  · exact htext h.head
  · exact hint hsize
  · exact htext h.merkleRoot
  · have hschema := h.schema
    rw [hget] at hschema
    cases v with
    | int | bool | float => exact Nat.zero_le _
    | null | str | arr | obj => cases hschema
  · have hsig := h.sig
    rw [hget] at hsig
    exact (hsig.canonicalWithin (h.canonical.get? hget).1).2
  · exact hint hversion

/-- A digest can be taken of a canonical query. -/
theorem exists_queryDigest (endpoint : Endpoint) {query : Dict}
    (h : CanonicalWithin 99 (.obj query)) : ∃ digest, queryDigest P endpoint query = .ok digest := by
  have hdocument : Canonical (queryDocument endpoint query) := by
    refine canonical_obj.2 ?_
    simp only [List.forall_mem_cons]
    have hname : Scalar endpoint.text := by
      cases endpoint <;> decide
    exact ⟨⟨by decide, canonicalWithin_str hname⟩, ⟨by decide, h⟩, List.forall_mem_nil _⟩
  exact ⟨_, by rw [queryDigest, canonicalDocument_eq_ok.2 ⟨hdocument, rfl⟩]; rfl⟩

/-- A digest is taken of a canonical query only. -/
theorem canonical_of_queryDigest {endpoint : Endpoint} {query : Dict} {digest : PyStr}
    (h : queryDigest P endpoint query = .ok digest) : CanonicalWithin 99 (.obj query) := by
  obtain ⟨b, hb, -⟩ := Except.map_eq_ok h
  have hdocument := canonical_obj.1 (canonicalDocument_eq_ok.1 hb).1
  exact (hdocument (py "query", .obj query) (by simp)).2

theorem scalar_queryDigest {endpoint : Endpoint} {query : Dict} {digest : PyStr}
    (h : queryDigest P endpoint query = .ok digest) : Scalar digest := by
  obtain ⟨b, -, rfl⟩ := Except.map_eq_ok h
  exact scalar_hex _

/-- A cursor can be issued. -/
theorem exists_encodeCursor (key : SigningKey P) (endpoint : Endpoint) {query snapshot : Dict}
    {offset : Nat} {now : Int} (hquery : CanonicalWithin 99 (.obj query))
    (hsnapshot : ValidSnapshot P snapshot) (hoffset : (offset : Int) ≤ maxSafeInteger)
    (hnow : -maxSafeInteger ≤ now + cursorTtlSeconds ∧ now + cursorTtlSeconds ≤ maxSafeInteger) :
    ∃ cursor, encodeCursor key endpoint query snapshot offset now = .ok cursor := by
  obtain ⟨digest, hdigest⟩ := exists_queryDigest (P := P) endpoint hquery
  have hbody : Canonical (.obj (cursorBody digest snapshot offset (now + cursorTtlSeconds))) := by
    refine canonical_obj.2 ?_
    simp only [cursorBody, List.forall_mem_cons]
    have hoffset' : -maxSafeInteger ≤ (offset : Int) ∧ (offset : Int) ≤ maxSafeInteger :=
      ⟨(by decide : -maxSafeInteger ≤ 0).trans (Int.natCast_nonneg _), hoffset⟩
    exact ⟨⟨by decide, canonicalWithin_int hnow _⟩, ⟨by decide, canonicalWithin_int hoffset' _⟩,
      ⟨by decide, canonicalWithin_str (scalar_queryDigest hdigest)⟩,
      ⟨by decide, hsnapshot.canonicalWithin.mono (by decide)⟩, List.forall_mem_nil _⟩
  exact ⟨_, encodeCursor_eq_ok.2 ⟨digest, _, hdigest, canonicalDocument_eq_ok.2 ⟨hbody, rfl⟩, rfl⟩⟩

/-! ## The length of a cursor -/

theorem escape_length_le (c : CodePoint) : (Json.escape c).length ≤ 6 := by
  unfold Json.escape
  split_ifs
  iterate 7 exact (by decide)
  · simp [py]
  · exact (by decide : 1 ≤ 6)

theorem quote_length_le (t : PyStr) : (Json.quote t).length ≤ 6 * t.length + 2 := by
  have hbody : (t.flatMap Json.escape).length ≤ 6 * t.length := by
    induction t with
    | nil => exact le_rfl
    | cons c t ih =>
      have := escape_length_le c
      rw [List.flatMap_cons, List.length_append, List.length_cons]
      omega
  rw [Json.quote, List.length_cons, List.length_append, List.length_singleton]
  omega

theorem intText_length_le {n : Int} (h : -maxSafeInteger ≤ n ∧ n ≤ maxSafeInteger) :
    (intText n).length ≤ 17 := by
  have hn : n.natAbs < 10 ^ 16 := by
    unfold maxSafeInteger at h
    omega
  have hd := decimal_length_le (by omega) hn
  unfold intText
  split_ifs
  · exact Nat.succ_le_succ hd
  · exact hd.trans (by omega)

/-- ASCII texts are as long as their bytes. -/
theorem utf8_length_of_ascii {t : PyStr} (h : ∀ c ∈ t, c.val < 0x80) : (utf8 t).length = t.length := by
  induction t with
  | nil => rfl
  | cons c t ih =>
    obtain ⟨hc, ht⟩ := List.forall_mem_cons.1 h
    have hchar : utf8Char c = [.ofNat c.val] := if_pos hc
    rw [utf8, List.flatMap_cons, hchar]
    exact congrArg Nat.succ (ih ht)

/-- The members of a signed boundary. -/
theorem signSnapshot_eq {key : SigningKey P} {b : SnapshotBoundary} {snapshot : Dict}
    (h : key.signRecord (snapshotBody b) = .ok snapshot) : ∃ bytes, snapshot =
      [(py "created_at", .str b.createdAt), (py "head", .str b.head),
        (py "log_size", .int b.logSize), (py "merkle_root", .str b.merkleRoot),
        (py "schema_version", .int 1), (py "sig", .obj (key.envelope bytes)),
        (py "version", .int b.version)] := by
  obtain ⟨bytes, -, rfl⟩ := signRecord_eq_ok.1 h
  exact ⟨bytes, rfl⟩

/-- The characters of an envelope, and how long its texts are. -/
theorem envelope_texts (key : SigningKey P) (message : Bytes) :
    key.keyId.length = 16 ∧ (key.sign message).length = 88 ∧ (∀ c ∈ key.keyId, c.val < 0x80) ∧
      ∀ c ∈ key.sign message, c.val < 0x80 := by
  refine ⟨?_, ?_, fun c hc => ascii_of_mem_hex c (List.mem_of_mem_take hc), ascii_of_mem_b64encode⟩
  · rw [SigningKey.keyId, keyIdOf, List.length_take, hex_length, P.sha256_length]
    rfl
  · rw [SigningKey.sign, b64encode, List.length_append, b64digits_length, b64padding,
      List.length_replicate, P.sign_length]

section Payload

variable {key : SigningKey P} {b : SnapshotBoundary} (hb : b.WellFormed) {snapshot : Dict}
  (hs : key.signRecord (snapshotBody b) = .ok snapshot) {digest : PyStr}
  (hdigest : hex256 digest = true) {offset expiresAt : Int}
include hb hs hdigest

theorem cursorBody_ascii :
    ∀ c ∈ (Json.obj (cursorBody digest snapshot offset expiresAt)).dumps, c.val < 0x80 := by
  obtain ⟨bytes, rfl⟩ := signSnapshot_eq hs
  obtain ⟨-, -, hkeyId, hsign⟩ := envelope_texts key bytes
  have hplain : (cursorFields ++ snapshotFields ++ envelopeKeys).all (·.all Json.plainAscii) = true :=
    by decide
  have hkeys : ∀ k ∈ cursorFields ++ snapshotFields ++ envelopeKeys, ∀ c ∈ k, c.val < 0x80 :=
    fun k hk => Json.plainAscii_forall (fun c _ hc => hc) (List.all_eq_true.1 hplain k hk)
  have htext {t : PyStr} (ht : ∀ c ∈ t, c.val < 0x80) :
      (Json.str t).Every (Json.Brings fun c => c.val < 0x80) := fun c hc _ => ht c hc
  have hobj {d : Dict} (hk : ∀ k ∈ d.keys, k ∈ cursorFields ++ snapshotFields ++ envelopeKeys)
      (hd : ∀ m ∈ d, m.2.Every (Json.Brings fun c => c.val < 0x80)) :
      (Json.obj d).Every (Json.Brings fun c => c.val < 0x80) :=
    Json.every_obj.2 ⟨fun m hm c hc _ => hkeys m.1 (hk m.1 (List.mem_map_of_mem hm)) c hc, hd⟩
  have henvelope : (Json.obj (key.envelope bytes)).Every (Json.Brings fun c => c.val < 0x80) := by
    refine hobj (fun k hk => List.mem_append_right _ (keys_envelope key bytes ▸ hk)) ?_
    simp only [SigningKey.envelope, List.forall_mem_cons]
    exact ⟨htext (Json.plainAscii_forall (fun c _ hc => hc) (by decide)), htext hkeyId, htext hsign, List.forall_mem_nil _⟩
  refine Json.dumps_forall (fun c _ hc => hc) (hobj (fun k hk => ?_) ?_)
  · exact List.mem_append_left _ (List.mem_append_left _ hk)
  · simp only [cursorBody, List.forall_mem_cons]
    refine ⟨trivial, trivial, htext (ascii_of_hex256 hdigest).2, hobj (fun k hk => ?_) ?_,
      List.forall_mem_nil _⟩
    · exact List.mem_append_left _ (List.mem_append_right _ hk)
    · simp only [List.forall_mem_cons]
      exact ⟨htext (ascii_of_isTimestampForm hb.createdAt).2, htext (ascii_of_hex256 hb.head).2,
        trivial, htext (ascii_of_hex256 hb.merkleRoot).2, trivial, henvelope, trivial,
        List.forall_mem_nil _⟩

/-- The text of a cursor is bounded. -/
theorem cursorBody_length (hoffset : -maxSafeInteger ≤ offset ∧ offset ≤ maxSafeInteger)
    (hexpires : -maxSafeInteger ≤ expiresAt ∧ expiresAt ≤ maxSafeInteger) :
    (Json.obj (cursorBody digest snapshot offset expiresAt)).dumps.length ≤ 2400 := by
  obtain ⟨bytes, rfl⟩ := signSnapshot_eq hs
  obtain ⟨hkeyId, hsign, -, -⟩ := envelope_texts key bytes
  have hsize := intText_length_le ⟨(by decide : -maxSafeInteger ≤ 0).trans hb.nonneg, hb.bounded⟩
  have hversion := hsize
  rw [← hb.version] at hversion
  have hone : (intText 1).length ≤ 17 := intText_length_le (by decide)
  have h₁ := intText_length_le hoffset
  have h₂ := intText_length_le hexpires
  have h₃ := quote_length_le digest
  have h₄ := quote_length_le b.createdAt
  have h₅ := quote_length_le b.head
  have h₆ := quote_length_le b.merkleRoot
  have h₇ := quote_length_le key.keyId
  have h₈ := quote_length_le (key.sign bytes)
  rw [(ascii_of_hex256 hdigest).1] at h₃
  rw [(ascii_of_isTimestampForm hb.createdAt).1] at h₄
  rw [(ascii_of_hex256 hb.head).1] at h₅
  rw [(ascii_of_hex256 hb.merkleRoot).1] at h₆
  rw [hkeyId] at h₇
  rw [hsign] at h₈
  have hkeys : ∀ k ∈ cursorFields ++ snapshotFields ++ envelopeKeys ++ [py "ed25519"],
      (Json.quote k).length ≤ 16 := by decide
  simp only [cursorFields, snapshotFields, envelopeKeys, List.forall_mem_append,
    List.forall_mem_cons, List.not_mem_nil, false_imp_iff, imp_true_iff, and_true] at hkeys
  simp only [cursorBody, SigningKey.envelope, Json.dumps, Json.dumpsMembers, List.length_cons,
    List.length_append, List.length_nil]
  omega

end Payload

/-! ## Accepting -/

theorem splitCursor_issued (payload signature : Bytes) :
    splitCursor (urlEncode payload ++ cp '.' :: urlEncode signature) =
      .ok (urlEncode payload, urlEncode signature) := by
  have hdot : ∀ c ∈ urlEncode payload, decide (c ≠ cp '.') = true := by
    intro c hc
    obtain ⟨n, hn, rfl⟩ := mem_urlEncode hc
    clear hc
    revert n
    decide
  rw [splitCursor, List.dropWhile_append_of_pos hdot, List.takeWhile_append_of_pos hdot]
  rw [List.dropWhile_cons_of_neg (by simp), List.takeWhile_cons_of_neg (by simp), List.append_nil]

/-- The text of a cursor is short enough to be read. -/
theorem urlEncode_length_le {b : Bytes} {n : Nat} (h : b.length ≤ 3 * n) :
    (urlEncode b).length ≤ 4 * n := by
  rw [urlEncode_length]
  omega

theorem sorted_cursorBody {digest : PyStr} {snapshot : Dict} {offset expiresAt : Int}
    (h : (Json.obj snapshot).Sorted) :
    (Json.obj (cursorBody digest snapshot offset expiresAt)).Sorted := by
  refine Json.every_obj.2 ⟨?_, ?_⟩
  · have hkeys : cursorFields.Pairwise (· < ·) := by decide
    exact List.pairwise_map.1 hkeys
  · simp only [cursorBody, List.forall_mem_cons]
    exact ⟨trivial, trivial, trivial, h, List.forall_mem_nil _⟩

/-- A cursor that was issued is accepted for its query until it expires, where the keys it was
    signed with are accepted and its boundary is available, and carries what it was issued
    with. -/
theorem cursorState_encodeCursor {db : Db} {key signer : SigningKey P} {keys : List PyStr}
    (hkey : key.publicPinned ∈ keys) (hsigner : signer.publicPinned ∈ keys)
    {b : SnapshotBoundary} (hb : b.WellFormed) {snapshot : Dict}
    (hs : signer.signRecord (snapshotBody b) = .ok snapshot)
    (havailable : boundaryAvailable db b = .ok true) {endpoint : Endpoint} {query : Dict}
    {offset : Nat} {issued now : Int} (hnow : now ≤ issued + cursorTtlSeconds) {cursor : PyStr}
    (h : encodeCursor key endpoint query snapshot offset issued = .ok cursor) :
    cursorState P db cursor endpoint query keys now = .ok (offset, b, snapshot) := by
  obtain ⟨digest, payload, hdigest, hpayload, rfl⟩ := encodeCursor_eq_ok.1 h
  obtain ⟨hcanonical, hdumps⟩ := canonicalDocument_eq_ok.1 hpayload
  have hsha : hex256 digest = true := by
    obtain ⟨bytes, -, rfl⟩ := Except.map_eq_ok hdigest
    exact hex256_hex (P.sha256_length _)
  obtain ⟨-, -, hoffset, hexpires⟩ := get?_cursorBody digest snapshot offset (issued + cursorTtlSeconds)
  have hlength : payload.length ≤ 2400 := by
    rw [hdumps, utf8_length_of_ascii (cursorBody_ascii hb hs hsha)]
    exact cursorBody_length hb hs hsha (hcanonical.get? hoffset).1 (hcanonical.get? hexpires).1
  have hsignature : (urlEncode (P.sign key.secret payload)).length ≤ 88 :=
    urlEncode_length_le (n := 22) (by rw [P.sign_length]; decide)
  have htext := urlEncode_length_le (n := 800) hlength
  refine cursorState_eq_ok.2 ⟨payload, digest, issued + cursorTtlSeconds,
    cursorPayload_eq_ok.2 ⟨?_, _, _, splitCursor_issued _ _, urlDecode_urlEncode _,
      urlDecode_urlEncode _, _, hkey, verify_sign key payload⟩,
    loadJson_of_canonicalDocument (sorted_cursorBody (sorted_signRecord hs (sorted_snapshotBody b)))
      hpayload, hdigest, hb.validSnapshot hs, ⟨_, hsigner, verifySigned_signRecord hs⟩,
    hb.boundaryFromDict_signed hs, havailable, hnow⟩
  rw [List.length_append, List.length_cons, maxCursorLength]
  omega

end SkillRegistry
