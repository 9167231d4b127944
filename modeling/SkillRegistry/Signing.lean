import SkillRegistry.Platform

/-!
# Canonical JSON and signatures

The signing layer: Curator Canonical JSON 1, and Ed25519 signatures over it. A
signed object is a dictionary with a `sig` member, which its signature does not
cover.

* `validateCcj` is the check of a value, and `Canonical` what it accepts
  (`canonicalDocument_eq_ok`);
* `canonicalBytes` are the bytes a signature covers; two records with the same ones
  differ in their `sig` only (`erase_eq_of_canonicalBytes`);
* `SigningKey.signRecord` signs, and what it signs verifies (`verifySigned_signRecord`).
-/

namespace SkillRegistry

open Wire

/-! ## Canonical JSON -/

/-- `MAX_SAFE_INTEGER`. -/
def maxSafeInteger : Int := 9007199254740991

/-- `MAX_JSON_DEPTH`. -/
def maxJsonDepth : Nat := 100

/-- The message of a document that nests too deep. -/
def depthMessage : String := "JSON nesting exceeds maximum depth of 100"

/-- A string without lone surrogates. -/
def Scalar (s : PyStr) : Prop := ∀ c ∈ s, ¬IsSurrogate c

instance : DecidablePred Scalar := fun s =>
  decidable_of_iff (s.all (fun c => !decide (IsSurrogate c)) = true) (by simp [Scalar])

/-- The check of a string. -/
def validateCcjStr (s : PyStr) : Except PyErr Unit :=
  if Scalar s then .ok ()
  else .error (.canonicalError "CCJ-1 strings must not contain lone surrogates")

mutual

/-- `_validate_ccj`. -/
def validateCcj : (depth : Nat) → Json → Except PyErr Unit
  | _, .null => .ok ()
  | _, .bool _ => .ok ()
  | _, .int n =>
    if -maxSafeInteger ≤ n ∧ n ≤ maxSafeInteger then .ok ()
    else .error (.canonicalError s!"CCJ-1 integer outside safe range: {n}")
  | _, .float _ => .error (.canonicalError "CCJ-1 numbers must be integers")
  | _, .str s => validateCcjStr s
  | depth, .arr items =>
    if depth + 1 > maxJsonDepth then .error (.canonicalDepthError depthMessage)
    else validateCcjItems (depth + 1) items
  | depth, .obj members =>
    if depth + 1 > maxJsonDepth then .error (.canonicalDepthError depthMessage)
    else validateCcjMembers (depth + 1) members

/-- The check of the items of an array. -/
def validateCcjItems : (depth : Nat) → List Json → Except PyErr Unit
  | _, [] => .ok ()
  | depth, v :: items => do
    validateCcj depth v
    validateCcjItems depth items

/-- The check of the members of an object. -/
def validateCcjMembers : (depth : Nat) → List (PyStr × Json) → Except PyErr Unit
  | _, [] => .ok ()
  | depth, (k, v) :: members => do
    validateCcjStr k
    validateCcj depth v
    validateCcjMembers depth members

end

/-- A value the check accepts, but for its depth. -/
def IsCanonical : Json → Prop
  | .int n => -maxSafeInteger ≤ n ∧ n ≤ maxSafeInteger
  | .float _ => False
  | .str s => Scalar s
  | .obj members => ∀ m ∈ members, Scalar m.1
  | _ => True

/-- A value the check accepts. -/
def Canonical (v : Json) : Prop := v.Every IsCanonical ∧ v.depth ≤ maxJsonDepth

/-- A check followed by a computation. -/
theorem check_bind_eq_ok {ε β : Type} {f : Unit → Except ε β} {x : Except ε Unit} {b : β} :
    x >>= f = .ok b ↔ x = .ok () ∧ f () = .ok b :=
  ⟨fun h => let ⟨_, hx, hf⟩ := Wire.Except.bind_eq_ok h; ⟨hx, hf⟩, fun ⟨hx, hf⟩ => hx ▸ hf⟩

theorem validateCcjStr_eq_ok {s : PyStr} : validateCcjStr s = .ok () ↔ Scalar s := by
  unfold validateCcjStr
  split_ifs with h <;> simp [h]

mutual

/-- What the check accepts inside `depth` arrays and objects. -/
theorem validateCcj_eq_ok {v : Json} (depth : Nat) :
    validateCcj depth v = .ok () ↔
      v.Every IsCanonical ∧ (v.depth = 0 ∨ depth + v.depth ≤ maxJsonDepth) := by
  match v with
  | .null => exact ⟨fun _ => ⟨trivial, .inl rfl⟩, fun _ => rfl⟩
  | .bool _ => exact ⟨fun _ => ⟨trivial, .inl rfl⟩, fun _ => rfl⟩
  | .int n =>
    rw [validateCcj]
    split_ifs with h
    · exact ⟨fun _ => ⟨h, .inl rfl⟩, fun _ => rfl⟩
    · exact ⟨nofun, fun hv => absurd hv.1 h⟩
  | .float t => exact ⟨nofun, fun hv => hv.1.elim⟩
  | .str s => exact validateCcjStr_eq_ok.trans ⟨fun h => ⟨h, .inl rfl⟩, fun h => h.1⟩
  | .arr items =>
    rw [validateCcj, Json.Every, Json.depth]
    by_cases h : depth + 1 > maxJsonDepth
    · rw [if_pos h]
      exact ⟨nofun, fun ⟨_, hd⟩ => by omega⟩
    · rw [if_neg h, validateCcjItems_eq_ok (depth + 1)]
      exact ⟨fun ⟨hv, hd⟩ => ⟨⟨trivial, hv⟩, by omega⟩, fun ⟨hv, hd⟩ => ⟨hv.2, by omega⟩⟩
  | .obj members =>
    rw [validateCcj, Json.Every, Json.depth]
    by_cases h : depth + 1 > maxJsonDepth
    · rw [if_pos h]
      exact ⟨nofun, fun ⟨_, hd⟩ => by omega⟩
    · rw [if_neg h, validateCcjMembers_eq_ok (depth + 1)]
      exact ⟨fun ⟨hk, hv, hd⟩ => ⟨⟨hk, hv⟩, by omega⟩, fun ⟨hv, hd⟩ => ⟨hv.1, hv.2, by omega⟩⟩

theorem validateCcjItems_eq_ok {items : List Json} (depth : Nat) :
    validateCcjItems depth items = .ok () ↔ Json.EveryItem IsCanonical items ∧
      (Json.depthItems items = 0 ∨ depth + Json.depthItems items ≤ maxJsonDepth) := by
  match items with
  | [] => exact ⟨fun _ => ⟨trivial, .inl rfl⟩, fun _ => rfl⟩
  | v :: items =>
    rw [validateCcjItems, check_bind_eq_ok, Json.EveryItem, Json.depthItems,
      validateCcj_eq_ok depth, validateCcjItems_eq_ok depth]
    exact ⟨fun ⟨⟨hv, hd⟩, hi, hd'⟩ => ⟨⟨hv, hi⟩, by omega⟩,
      fun ⟨hv, hd⟩ => ⟨⟨hv.1, by omega⟩, hv.2, by omega⟩⟩

theorem validateCcjMembers_eq_ok {members : List (PyStr × Json)} (depth : Nat) :
    validateCcjMembers depth members = .ok () ↔ (∀ m ∈ members, Scalar m.1) ∧
      Json.EveryMember IsCanonical members ∧
      (Json.depthMembers members = 0 ∨ depth + Json.depthMembers members ≤ maxJsonDepth) := by
  match members with
  | [] => exact ⟨fun _ => ⟨nofun, trivial, .inl rfl⟩, fun _ => rfl⟩
  | (k, v) :: members =>
    rw [validateCcjMembers, check_bind_eq_ok, check_bind_eq_ok, validateCcjStr_eq_ok,
      Json.EveryMember, Json.depthMembers, List.forall_mem_cons, validateCcj_eq_ok depth,
      validateCcjMembers_eq_ok depth]
    exact ⟨fun ⟨hk, ⟨hv, hd⟩, hk', hm, hd'⟩ => ⟨⟨hk, hk'⟩, ⟨hv, hm⟩, by omega⟩,
      fun ⟨hk, hv, hd⟩ => ⟨hk.1, ⟨hv.1, by omega⟩, hk.2, hv.2, by omega⟩⟩

end

theorem not_isSurrogate_of_lt {c : CodePoint} (h : c.val < 0x80) : ¬IsSurrogate c := fun hc => by
  have := hc.1
  omega

/-- The text of a canonical value has no lone surrogates. -/
theorem scalar_dumps {v : Json} (hv : v.Every IsCanonical) : Scalar v.dumps := by
  refine Json.dumps_forall (fun c _ hc => not_isSurrogate_of_lt hc) (hv.imp fun w hw => ?_)
  cases w with
  | float t => exact hw.elim
  | str s => exact fun c hc _ => hw c hc
  | obj members => exact fun m hm c hc _ => hw m hm c hc
  | null | bool | int | arr => trivial

mutual

/-- The integers of a canonical value have texts. -/
theorem intsFit_of_canonical {v : Json} (hv : v.Every IsCanonical) : intsFit v = true := by
  match v with
  | .null | .bool _ | .str _ => rfl
  | .float _ => exact hv.elim
  | .int n =>
    have hn : n.natAbs < 10 ^ 16 := by
      have h : -maxSafeInteger ≤ n ∧ n ≤ maxSafeInteger := hv
      unfold maxSafeInteger at h
      omega
    have hd := decimal_length_le (by omega) hn
    have hl : (intText n).length ≤ 17 := by
      unfold intText
      split_ifs
      · exact Nat.succ_le_succ hd
      · exact hd.trans (by omega)
    refine decide_eq_true ((List.length_filter_le _ _).trans (hl.trans ?_))
    decide
  | .arr _ => exact intsFitItems_of_canonical hv.2
  | .obj _ => exact intsFitMembers_of_canonical hv.2

theorem intsFitItems_of_canonical {items : List Json} (hv : Json.EveryItem IsCanonical items) :
    intsFitItems items = true := by
  match items with
  | [] => rfl
  | _ :: _ =>
    exact Bool.and_eq_true_iff.2 ⟨intsFit_of_canonical hv.1, intsFitItems_of_canonical hv.2⟩

theorem intsFitMembers_of_canonical {members : List (PyStr × Json)}
    (hv : Json.EveryMember IsCanonical members) : intsFitMembers members = true := by
  match members with
  | [] => rfl
  | (_, _) :: _ =>
    exact Bool.and_eq_true_iff.2 ⟨intsFit_of_canonical hv.1, intsFitMembers_of_canonical hv.2⟩

end

theorem Canonical.numeral {v : Json} (hv : v.Every IsCanonical) : v.Numeral :=
  hv.imp fun w hw => by
    cases w with
    | float t => exact hw.elim
    | null | bool | int | str | arr | obj => trivial

variable (P : Platform)

/-- `canonical_document_bytes`. -/
def canonicalDocument (v : Json) : Except PyErr Bytes := do
  validateCcj 0 v
  let t ← (jsonDumps P v).mapError fun
    | .recursionError => .canonicalDepthError depthMessage
    | e => e
  match encodeUtf8 t with
  | some b => .ok b
  | none => .error .unicodeEncodeError

/-- `canonical_bytes`: the bytes of a signed object without its signature. -/
def canonicalBytes (record : Dict) : Except PyErr Bytes :=
  canonicalDocument P (.obj (record.erase (py "sig")))

variable {P}

theorem encodeUtf8_of_scalar {s : PyStr} (h : Scalar s) : encodeUtf8 s = some (utf8 s) := by
  rw [encodeUtf8, if_neg]
  simpa [Scalar] using h

/-- A canonical value is dumped as its text. -/
theorem jsonDumps_of_canonical {v : Json} (h : Canonical v) : jsonDumps P v = .ok v.dumps := by
  have hn := P.nesting_lt
  have hd := h.2
  unfold maxJsonDepth at hd
  rw [jsonDumps, if_neg (by omega), if_pos (intsFit_of_canonical h.1)]

/-- A document is encoded when it is canonical, and then as its text. -/
theorem canonicalDocument_eq_ok {v : Json} {b : Bytes} :
    canonicalDocument P v = .ok b ↔ Canonical v ∧ b = utf8 v.dumps := by
  have hcheck : validateCcj 0 v = .ok () ↔ Canonical v := by
    rw [validateCcj_eq_ok]
    exact and_congr_right fun _ => by omega
  rw [canonicalDocument, check_bind_eq_ok, hcheck]
  refine and_congr_right fun hv => ?_
  rw [jsonDumps_of_canonical hv]
  change (match encodeUtf8 v.dumps with | some b => _ | none => _) = _ ↔ _
  rw [encodeUtf8_of_scalar (scalar_dumps hv.1)]
  exact ⟨fun h => (Except.ok.inj h).symm, fun h => h ▸ rfl⟩

/-- Two documents with the same bytes are the same. -/
theorem canonicalDocument_injective {v w : Json} {b : Bytes} (hv : v.Sorted) (hw : w.Sorted)
    (h : canonicalDocument P v = .ok b) (h' : canonicalDocument P w = .ok b) : v = w := by
  obtain ⟨cv, rfl⟩ := canonicalDocument_eq_ok.1 h
  obtain ⟨cw, he⟩ := canonicalDocument_eq_ok.1 h'
  exact Json.dumps_injective hv (Canonical.numeral cv.1) hw (Canonical.numeral cw.1)
    (utf8_injective he)

theorem sorted_erase {d : Dict} {k : PyStr} (h : (Json.obj d).Sorted) :
    (Json.obj (d.erase k)).Sorted := by
  obtain ⟨hd, hm⟩ := Json.every_obj.1 h
  exact Json.every_obj.2 ⟨Dict.Sorted.erase hd k, fun m hm' => hm m (List.mem_of_mem_filter hm')⟩

theorem sorted_insert {d : Dict} {k : PyStr} {v : Json} (h : (Json.obj d).Sorted) (hv : v.Sorted) :
    (Json.obj (d.insert k v)).Sorted := by
  obtain ⟨hd, hm⟩ := Json.every_obj.1 h
  refine Json.every_obj.2 ⟨Dict.Sorted.insert hd k v, fun m hm' => ?_⟩
  rcases Dict.mem_insert hm' with rfl | hm'
  · exact hv
  · exact hm m hm'

/-- Two records with the same canonical bytes differ in their `sig` only. -/
theorem erase_eq_of_canonicalBytes {r s : Dict} {b : Bytes} (hr : (Json.obj r).Sorted)
    (hs : (Json.obj s).Sorted) (h : canonicalBytes P r = .ok b) (h' : canonicalBytes P s = .ok b) :
    r.erase (py "sig") = s.erase (py "sig") :=
  Json.obj.inj (canonicalDocument_injective (sorted_erase hr) (sorted_erase hs) h h')

/-! ## Signatures -/

variable (P)

/-- `str.removeprefix`. -/
def removePrefix (p s : PyStr) : PyStr := if p.isPrefixOf s then s.drop p.length else s

/-- `parse_public_key`. -/
def parsePublicKey (value : PyStr) : Except PyErr Bytes :=
  let encoded := removePrefix (py "ed25519:") value
  match b64decode encoded with
  | none => .error (.valueError "invalid Ed25519 public key encoding")
  | some raw =>
    if raw.length ≠ 32 ∨ b64encode raw ≠ encoded then
      .error (.valueError "Ed25519 public key must be canonical padded base64 for 32 bytes")
    else .ok raw

/-- The key id of a raw public key: `hashlib.sha256(public).hexdigest()[:16]`. -/
def keyIdOf (key : Bytes) : PyStr := (hex (P.sha256 key)).take 16

/-- `verify`. -/
def verify (publicPinned : PyStr) (message : Bytes) (signature : PyStr) : Bool :=
  match parsePublicKey publicPinned with
  | .error _ => false
  | .ok key =>
    match b64decode signature with
    | none => false
    | some raw =>
      if raw.length ≠ 64 ∨ b64encode raw ≠ signature then false else P.verify key raw message

/-- The keys of a signature envelope. -/
def envelopeKeys : List PyStr := [py "algorithm", py "key_id", py "signature"]

/-- `verify_signed`. -/
def verifySigned (publicPinned : PyStr) (obj : Dict) : Bool :=
  match obj.get? (py "sig") with
  | some (.obj sig) =>
    if Dict.keys sig ≠ envelopeKeys then false
    else
      match parsePublicKey publicPinned, canonicalBytes P obj with
      | .ok key, .ok canonical =>
        if Dict.get? sig (py "algorithm") ≠ some (.str (py "ed25519")) then false
        else if Dict.get? sig (py "key_id") ≠ some (.str (keyIdOf P key)) then false
        else
          match Dict.get? sig (py "signature") with
          | some (.str signature) => verify P publicPinned canonical signature
          | _ => false
      | _, _ => false
  | _ => false

/-- A `SigningKey`. -/
structure SigningKey where
  secret : P.Secret

namespace SigningKey

variable {P} (k : SigningKey P)

/-- `public_pinned`. -/
def publicPinned : PyStr := py "ed25519:" ++ b64encode (P.publicBytes k.secret)

/-- `key_id`. -/
def keyId : PyStr := keyIdOf P (P.publicBytes k.secret)

/-- `sign`. -/
def sign (message : Bytes) : PyStr := b64encode (P.sign k.secret message)

/-- The signature envelope of a message. -/
def envelope (message : Bytes) : Dict :=
  [(py "algorithm", .str (py "ed25519")), (py "key_id", .str k.keyId),
    (py "signature", .str (k.sign message))]

/-- `sign_record`. -/
def signRecord (body : Dict) : Except PyErr Dict := do
  let record := body.erase (py "sig")
  let canonical ← canonicalBytes P record
  .ok (record.insert (py "sig") (.obj (k.envelope canonical)))

end SigningKey

variable {P} (k : SigningKey P)

@[simp] theorem parsePublicKey_publicPinned :
    parsePublicKey k.publicPinned = .ok (P.publicBytes k.secret) := by
  have he : removePrefix (py "ed25519:") k.publicPinned = b64encode (P.publicBytes k.secret) := by
    rw [removePrefix, if_pos (by simp [SigningKey.publicPinned]), SigningKey.publicPinned,
      List.drop_left]
  rw [parsePublicKey, he]
  simp only [b64decode_b64encode, P.publicBytes_length, ne_eq, not_true_eq_false, or_self, if_false]

/-- What a key signs verifies under its public key. -/
@[simp] theorem verify_sign (message : Bytes) :
    verify P k.publicPinned message (k.sign message) = true := by
  rw [verify, parsePublicKey_publicPinned]
  simp only [SigningKey.sign, b64decode_b64encode, P.sign_length, P.verify_sign, ne_eq,
    not_true_eq_false, or_self, if_false]

@[simp] theorem keys_envelope (message : Bytes) : (k.envelope message).keys = envelopeKeys := rfl

theorem sorted_envelope (message : Bytes) : (Json.obj (k.envelope message)).Sorted := by
  refine Json.every_obj.2 ⟨?_, ?_⟩
  · have h₁ : py "algorithm" < py "key_id" := by decide
    have h₂ : py "algorithm" < py "signature" := by decide
    have h₃ : py "key_id" < py "signature" := by decide
    simp [Json.IsDict, Dict.Sorted, SigningKey.envelope, h₁, h₂, h₃]
  · simp only [SigningKey.envelope, List.forall_mem_cons]
    exact ⟨trivial, trivial, trivial, List.forall_mem_nil _⟩

@[simp] theorem get?_envelope_signature (message : Bytes) :
    (k.envelope message).get? (py "signature") = some (.str (k.sign message)) := by
  have h₁ : py "signature" ≠ py "algorithm" := by decide
  have h₂ : py "signature" ≠ py "key_id" := by decide
  rw [SigningKey.envelope, Dict.get?_cons, if_neg h₁, Dict.get?_cons, if_neg h₂, Dict.get?_cons,
    if_pos rfl]

theorem canonicalBytes_erase (r : Dict) :
    canonicalBytes P (r.erase (py "sig")) = canonicalBytes P r := by
  rw [canonicalBytes, Dict.erase_erase, canonicalBytes]

theorem canonicalBytes_insert (r : Dict) (v : Json) :
    canonicalBytes P (r.insert (py "sig") v) = canonicalBytes P r := by
  rw [canonicalBytes, Dict.erase_insert, canonicalBytes]

variable {k}

/-- Signing succeeds when the body is canonical, and sets its `sig`. -/
theorem signRecord_eq_ok {body record : Dict} :
    k.signRecord body = .ok record ↔ ∃ b, canonicalBytes P body = .ok b ∧
      record = (body.erase (py "sig")).insert (py "sig") (.obj (k.envelope b)) := by
  rw [SigningKey.signRecord, canonicalBytes_erase]
  constructor
  · intro h
    obtain ⟨b, hb, h⟩ := Wire.Except.bind_eq_ok h
    exact ⟨b, hb, (Except.ok.inj h).symm⟩
  · rintro ⟨b, hb, rfl⟩
    rw [hb]
    rfl

section signRecord

variable {body record : Dict} (h : k.signRecord body = .ok record)

include h

/-- A signature covers the body. -/
theorem canonicalBytes_signRecord : canonicalBytes P record = canonicalBytes P body := by
  obtain ⟨b, -, rfl⟩ := signRecord_eq_ok.1 h
  rw [canonicalBytes_insert, canonicalBytes_erase]

theorem erase_signRecord : record.erase (py "sig") = body.erase (py "sig") := by
  obtain ⟨b, -, rfl⟩ := signRecord_eq_ok.1 h
  rw [Dict.erase_insert, Dict.erase_erase]

/-- Signing changes no member but `sig`. -/
theorem get?_signRecord {l : PyStr} (hl : l ≠ py "sig") : record.get? l = body.get? l := by
  obtain ⟨b, -, rfl⟩ := signRecord_eq_ok.1 h
  rw [Dict.get?_insert, if_neg hl, Dict.get?_erase, if_neg hl]

theorem sorted_signRecord (hb : (Json.obj body).Sorted) : (Json.obj record).Sorted := by
  obtain ⟨b, -, rfl⟩ := signRecord_eq_ok.1 h
  exact sorted_insert (sorted_erase hb) (sorted_envelope k b)

/-- What a key signed verifies under its public key. -/
theorem verifySigned_signRecord : verifySigned P k.publicPinned record = true := by
  have hc := canonicalBytes_signRecord h
  obtain ⟨b, hb, rfl⟩ := signRecord_eq_ok.1 h
  have h₁ : Dict.get? (k.envelope b) (py "algorithm") = some (.str (py "ed25519")) := by
    rw [SigningKey.envelope, Dict.get?_cons, if_pos rfl]
  have h₂ : Dict.get? (k.envelope b) (py "key_id") = some (.str (keyIdOf P (P.publicBytes k.secret))) := by
    have hne : py "key_id" ≠ py "algorithm" := by decide
    rw [SigningKey.envelope, Dict.get?_cons, if_neg hne, Dict.get?_cons, if_pos rfl]
    rfl
  rw [verifySigned, Dict.get?_insert, if_pos rfl]
  simp only [keys_envelope, hc, hb, parsePublicKey_publicPinned, h₁, h₂, get?_envelope_signature,
    verify_sign, ne_eq, not_true_eq_false, if_false]

end signRecord

/-! ## Keys to evaluate on -/

/-- A key to evaluate on. -/
def sampleSigner (n : UInt8) : SigningKey Platform.sample :=
  ⟨⟨List.replicate 32 n, List.length_replicate⟩⟩

/-- A signing key. -/
def sampleKey : SigningKey .sample := ⟨⟨List.replicate 32 7, rfl⟩⟩

end SkillRegistry
