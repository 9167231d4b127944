import SkillRegistry.Signing
import SkillRegistry.Wire.Encoding

/-!
# Protocol objects

Reading protocol JSON, and the checks of the objects clients, auditors and
upstream registries send: audit records, signature envelopes and snapshots.

* `loadJson` reads bytes or a text, under the hooks of the protocol;
* `validateRecord`, `validateSignature`, `validateSnapshot` and
  `validateSourceIdentity` are the checks; what a check accepts it returns.
-/

namespace SkillRegistry

open Wire

/-- `repr` of a string. -/
def pyRepr (s : PyStr) : String := "\x27" ++ text s ++ "\x27"

/-! ## Reading -/

/-- The scan of `_check_json_depth` over the values of the bytes or characters. -/
def scanDepth : (depth : Nat) → (inString escaped : Bool) → List Nat → Except PyErr Unit
  | _, _, _, [] => .ok ()
  | depth, true, true, _ :: s => scanDepth depth true false s
  | depth, true, false, c :: s =>
    if c = 0x5C then scanDepth depth true true s
    else if c = 0x22 then scanDepth depth false false s
    else scanDepth depth true false s
  | depth, false, escaped, c :: s =>
    if c = 0x22 then scanDepth depth true escaped s
    else if c = 0x7B ∨ c = 0x5B then
      if depth + 1 > maxJsonDepth then .error (.jsonDepthError depthMessage)
      else scanDepth (depth + 1) false escaped s
    else if c = 0x7D ∨ c = 0x5D then scanDepth (depth - 1) false escaped s
    else scanDepth depth false escaped s

/-- `_check_json_depth`. -/
def checkJsonDepth (raw : List Nat) : Except PyErr Unit := scanDepth 0 false false raw

/-- `object_pairs`: the dictionary of pairs with different keys. -/
def objectPairs : List (PyStr × Json) → (seen : Dict) → Except PyErr Json
  | [], result => .ok (.obj result)
  | (k, v) :: pairs, result =>
    if (result.get? k).isSome then
      .error (.protocolError ("duplicate JSON object key: " ++ pyRepr k))
    else objectPairs pairs (result.insert k v)

/-- `parse_integer`. -/
def parseInteger (t : PyStr) : Except PyErr Json := do
  let n ← pyInt t
  if t = py "-0" ∨ ¬(-maxSafeInteger ≤ n ∧ n ≤ maxSafeInteger) then
    .error (.protocolError s!"JSON integer is not shortest-form or safe: {text t}")
  else .ok (.int n)

/-- `reject_number`. -/
def rejectNumber (t : PyStr) : Except PyErr Json :=
  .error (.protocolError ("registry JSON does not allow non-integer number " ++ pyRepr t))

variable (P : Platform)

/-- The hooks of protocol JSON. -/
def protocolHooks : Hooks PyErr where
  malformed := .jsonDecodeError
  int := parseInteger
  float := rejectNumber
  constant := rejectNumber
  pairs members := objectPairs members []
  nest depth := if P.nesting ≤ depth then some .recursionError else none

/-- What `load_json` raises in place of an exception of reading. -/
def loadJsonError : PyErr → PyErr
  | .jsonDepthError m => .jsonDepthError m
  | .canonicalDepthError m => .jsonDepthError m
  | .protocolError m => .protocolError m
  | .recursionError => .jsonDepthError depthMessage
  | e => if e.isValueError then .protocolError ("invalid protocol JSON: " ++ e.message) else e

/-- `load_json` of a `str`. -/
def loadJsonText (raw : PyStr) : Except PyErr Json :=
  if raw.head? = some byteOrderMark then
    .error (.protocolError "protocol JSON must not contain a byte-order mark")
  else
    (do
      checkJsonDepth (raw.map (·.val))
      let value ← loads (protocolHooks P) raw
      let _ ← canonicalDocument P value
      .ok value : Except PyErr Json).mapError loadJsonError

/-- `load_json` of `bytes`. -/
def loadJson (raw : Bytes) : Except PyErr Json :=
  if [0xEF, 0xBB, 0xBF].isPrefixOf raw then
    .error (.protocolError "protocol JSON must not contain a byte-order mark")
  else
    (do
      checkJsonDepth (raw.map (·.toNat))
      let value ← match decodeText raw with
        | some t => loads (protocolHooks P) t
        | none => .error .unicodeDecodeError
      let _ ← canonicalDocument P value
      .ok value : Except PyErr Json).mapError loadJsonError

/-! ## Grammars -/

/-- A lowercase hexadecimal digit. -/
def isLowerHex (c : CodePoint) : Bool :=
  (0x30 ≤ c.val && c.val ≤ 0x39) || (0x61 ≤ c.val && c.val ≤ 0x66)

/-- A lowercase letter or a digit. -/
def isLowerAlnum (c : CodePoint) : Bool := isDigit c || (0x61 ≤ c.val && c.val ≤ 0x7A)

/-- A letter or a digit. -/
def isAlnum (c : CodePoint) : Bool := isLowerAlnum c || (0x41 ≤ c.val && c.val ≤ 0x5A)

/-- `[A-Za-z0-9][A-Za-z0-9._-]*`. -/
def isIdentifier : PyStr → Bool
  | [] => false
  | c :: s => isAlnum c && s.all fun c => isAlnum c || c = cp '.' || c = cp '_' || c = cp '-'

/-- `[a-z0-9][a-z0-9.-]*`. -/
def isHost : PyStr → Bool
  | [] => false
  | c :: s => isLowerAlnum c && s.all fun c => isLowerAlnum c || c = cp '.' || c = cp '-'

/-- `[0-9a-f]{40}(?:[0-9a-f]{24})?`. -/
def isCommit (s : PyStr) : Bool := (s.length = 40 || s.length = 64) && s.all isLowerHex

/-- `sha256:[0-9a-f]{64}`. -/
def isSha256 (s : PyStr) : Bool := (py "sha256:").isPrefixOf s && hex256 (s.drop 7)

/-- `[0-9a-f]{16}`. -/
def isKeyId (s : PyStr) : Bool := s.length = 16 && s.all isLowerHex

/-- `[0-9]{4}-[0-9]{2}-[0-9]{2}T[0-9]{2}:[0-9]{2}:[0-9]{2}Z`. -/
def isTimestampForm : PyStr → Bool
  | [y₁, y₂, y₃, y₄, h₁, m₁, m₂, h₂, d₁, d₂, t, a₁, a₂, c₁, b₁, b₂, c₂, s₁, s₂, z] =>
    [y₁, y₂, y₃, y₄, m₁, m₂, d₁, d₂, a₁, a₂, b₁, b₂, s₁, s₂].all isDigit && h₁ = cp '-' &&
      h₂ = cp '-' && t = cp 'T' && c₁ = cp ':' && c₂ = cp ':' && z = cp 'Z'
  | _ => false

/-- `str.isspace` of a character. -/
def isSpace (c : CodePoint) : Bool :=
  (0x09 ≤ c.val && c.val ≤ 0x0D) || (0x1C ≤ c.val && c.val ≤ 0x20) || c.val = 0x85 ||
    c.val = 0xA0 || c.val = 0x1680 || (0x2000 ≤ c.val && c.val ≤ 0x200A) || c.val = 0x2028 ||
    c.val = 0x2029 || c.val = 0x202F || c.val = 0x205F || c.val = 0x3000

/-- The general category of a character is `Cc`. -/
def isControl (c : CodePoint) : Bool := c.val < 0x20 || (0x7F ≤ c.val && c.val ≤ 0x9F)

/-- `str.casefold` of an ASCII character; no other character folds into the letters of
    a reserved name. -/
def casefold (c : CodePoint) : CodePoint :=
  if 0x41 ≤ c.val ∧ c.val ≤ 0x5A then Fin.ofNat _ (c.val + 0x20) else c

/-- `_WINDOWS_RESERVED`. -/
def windowsReserved : List PyStr :=
  [py "con", py "prn", py "aux", py "nul"] ++
    [py "com", py "lpt"].flatMap fun p => (List.range 9).map fun n => p ++ [decimalDigit (n + 1)]

/-- `_portable_component`. -/
def portableComponent (value : PyStr) : Bool :=
  value ≠ [] && value ≠ py "." && value ≠ py ".." &&
    value.getLast? ≠ some (cp ' ') && value.getLast? ≠ some (cp '.') &&
    value.all (fun c => c ≠ cp ':' && c ≠ cp '/' && c ≠ cp '\\') && value.all (!isControl ·) &&
    (value.takeWhile (· ≠ cp '.')).map casefold ∉ windowsReserved

/-- `str.split` at a character. -/
def splitOn (sep : CodePoint) : PyStr → List PyStr
  | [] => [[]]
  | c :: s =>
    if c = sep then [] :: splitOn sep s
    else match splitOn sep s with
      | [] => [[c]]
      | w :: ws => (c :: w) :: ws

/-- `portable_path`. -/
def portablePath (value : PyStr) : Bool :=
  value ≠ [] && value.length ≤ 4096 && value.head? ≠ some (cp '/') && cp '\\' ∉ value &&
    (splitOn (cp '/') value).all portableComponent

/-- What `validate_source_identity` accepts. -/
def isSourceIdentity (value : PyStr) : Bool :=
  value.length ≤ 4096 && cp '/' ∈ value && isHost (value.takeWhile (· ≠ cp '/')) &&
    let path := (value.dropWhile (· ≠ cp '/')).drop 1
    portablePath path &&
      path.all fun c => !isSpace c && c ≠ cp '%' && c ≠ cp '?' && c ≠ cp '#'

/-! ## Checks -/

/-- `value == n`, for an integer `n`. -/
def pyEqInt (v : Json) (n : Int) : Bool :=
  match v with
  | .int m => m = n
  | .bool b => (if b then 1 else 0) = n
  | .float t => P.floatEq t n
  | _ => false

/-- `_canonicalize_validated`. -/
def canonicalizeValidated (v : Json) : Except PyErr Unit :=
  ((canonicalDocument P v).map fun _ => ()).mapError fun
    | .canonicalDepthError m => .jsonDepthError m
    | .recursionError => .jsonDepthError depthMessage
    | e => e

/-- `STATUSES`. -/
def statuses : List PyStr := [py "audited", py "revoked", py "deprecated", py "pending"]

/-- `validate_hash_version`. -/
def validateHashVersion (record : Dict) : Except PyErr Unit :=
  match (record.get? (py "schema_version")).getD (.int 1) with
  | .int 1 =>
    if (record.get? (py "hash_version")).isSome then
      .error (.protocolError
        "hash_version_mismatch: framing version disagrees with audit record schema")
    else .ok ()
  | .int 2 =>
    if record.get? (py "hash_version") ≠ some (.int 2) then
      .error (.protocolError
        "hash_version_mismatch: framing version disagrees with audit record schema")
    else .ok ()
  | _ => .error (.protocolError "audit record schema_version must be 1 or 2")

/-- `validate_source_identity`. -/
def validateSourceIdentity : Option Json → Except PyErr PyStr
  | some (.str s) =>
    if isSourceIdentity s then .ok s
    else .error (.protocolError "source_identity must be canonical")
  | _ => .error (.protocolError "source_identity must be canonical")

/-- `validate_signature`. -/
def validateSignature (value : Option Json) : Except PyErr Unit :=
  match value with
  | some (.obj sig) =>
    if Dict.keys sig ≠ envelopeKeys then .error (.protocolError "signature envelope is malformed")
    else if Dict.get? sig (py "algorithm") ≠ some (.str (py "ed25519")) then
      .error (.protocolError "signature algorithm must be ed25519")
    else
      match Dict.get? sig (py "key_id"), Dict.get? sig (py "signature") with
      | some (.str keyId), signature =>
        if isKeyId keyId then
          match signature with
          | some (.str signature) =>
            match b64decode signature with
            | none => .error (.protocolError "signature value is malformed")
            | some raw =>
              if raw.length ≠ 64 ∨ b64encode raw ≠ signature then
                .error (.protocolError "signature value is malformed")
              else .ok ()
          | _ => .error (.protocolError "signature value is malformed")
        else .error (.protocolError "signature key_id is malformed")
      | _, _ => .error (.protocolError "signature key_id is malformed")
  | _ => .error (.protocolError "signature envelope is malformed")

/-- The check of one endorsement of a record. -/
def validateEndorsement : Json → Except PyErr Unit
  | .obj endorsement =>
    if Dict.keys endorsement ≠ [py "endorser", py "sig"] then
      .error (.protocolError "audit record endorsement is malformed")
    else
      match Dict.get? endorsement (py "endorser") with
      | some (.str endorser) =>
        if endorser = [] ∨ endorser.length > 8192 then
          .error (.protocolError "audit record endorsement requires an endorser")
        else validateSignature (Dict.get? endorsement (py "sig"))
      | _ => .error (.protocolError "audit record endorsement requires an endorser")
  | _ => .error (.protocolError "audit record endorsement is malformed")

/-- The fields a record may have. -/
def recordFields : List PyStr :=
  [py "schema_version", py "hash_version", py "name", py "source_identity", py "commit",
    py "content_sha256", py "status", py "audit", py "endorsements", py "sig"]

/-- The check of the `name` of a record. -/
def validateName : Option Json → Except PyErr Unit
  | some (.str name) =>
    if name.length ≤ 128 ∧ isIdentifier name ∧ portableComponent name then .ok ()
    else .error (.protocolError "audit record name must be a portable identifier")
  | _ => .error (.protocolError "audit record name must be a portable identifier")

/-- The check of a field that is a string of a form. -/
def validateForm (form : PyStr → Bool) (message : String) : Option Json → Except PyErr Unit
  | some (.str s) => if form s then .ok () else .error (.protocolError message)
  | _ => .error (.protocolError message)

/-- The check of the `status` of a record: `status not in STATUSES` raises `TypeError`
    on a value without a hash. -/
def validateStatus : Option Json → Except PyErr Unit
  | some (.arr _) | some (.obj _) => .error .typeError
  | some (.str s) =>
    if s ∈ statuses then .ok () else .error (.protocolError "audit record status is unsupported")
  | _ => .error (.protocolError "audit record status is unsupported")

/-- `validate_record`. -/
def validateRecord : Json → Except PyErr Dict
  | .obj record => do
    if ¬(Dict.keys record).all (· ∈ recordFields) then
      throw (.protocolError "audit record contains unknown fields")
    validateHashVersion record
    validateName (Dict.get? record (py "name"))
    let _ ← validateSourceIdentity (Dict.get? record (py "source_identity"))
    validateForm isCommit "audit record commit must be a full lowercase object id"
      (Dict.get? record (py "commit"))
    validateForm isSha256 "audit record content_sha256 is malformed"
      (Dict.get? record (py "content_sha256"))
    validateStatus (Dict.get? record (py "status"))
    match (Dict.get? record (py "audit")).getD (.obj []) with
    | .obj _ => pure ()
    | _ => throw (.protocolError "audit record audit must be an object")
    validateSignature (Dict.get? record (py "sig"))
    match (Dict.get? record (py "endorsements")).getD (.arr []) with
    | .arr endorsements => endorsements.forM validateEndorsement
    | _ => throw (.protocolError "audit record endorsements must be an array")
    canonicalizeValidated P (.obj record)
    return record
  | _ => throw (.protocolError "audit record must be an object")

/-- The fields of a snapshot. -/
def snapshotFields : List PyStr :=
  [py "created_at", py "head", py "log_size", py "merkle_root", py "schema_version", py "sig",
    py "version"]

/-- `validate_snapshot`. -/
def validateSnapshot : Option Json → Except PyErr Dict
  | some (.obj snapshot) => do
    if Dict.keys snapshot ≠ snapshotFields ∨
        ¬pyEqInt P ((Dict.get? snapshot (py "schema_version")).getD .null) 1 then
      throw (.protocolError "snapshot fields are malformed")
    validateForm hex256 "snapshot hashes are malformed" (Dict.get? snapshot (py "merkle_root"))
    validateForm hex256 "snapshot hashes are malformed" (Dict.get? snapshot (py "head"))
    match Dict.get? snapshot (py "log_size"), Dict.get? snapshot (py "version") with
    | some (.int logSize), some (.int version) =>
      if ¬(0 ≤ logSize ∧ logSize ≤ version ∧ version ≤ maxSafeInteger) then
        throw (.protocolError "snapshot sizes are malformed")
    | _, _ => throw (.protocolError "snapshot sizes are malformed")
    validateForm isTimestampForm "snapshot timestamp is malformed"
      (Dict.get? snapshot (py "created_at"))
    validateSignature (Dict.get? snapshot (py "sig"))
    canonicalizeValidated P (.obj snapshot)
    return snapshot
  | _ => throw (.protocolError "snapshot must be an object")

end SkillRegistry
