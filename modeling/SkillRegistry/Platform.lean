import SkillRegistry.Wire.Parse
import SkillRegistry.Wire.Base64

/-!
# The platform

What the registry takes from outside its source: SHA-256 and Ed25519, as
parameters with the laws the code relies on, the limits of the interpreter, and
the exceptions of the language and of the registry itself.

* `Platform` is the parameter every definition depends on;
* `PyErr` is an exception, and `PyErr.isValueError` whether `except ValueError`
  catches it;
* `pyLoads` and `jsonDumps` are `json.loads` and `json.dumps` without hooks, and
  `pyLoads_jsonDumps` says that the first takes back what the second wrote;
* `Platform.sample` is a platform on which the model can be evaluated.
-/

namespace SkillRegistry

open Wire

/-- The primitives and the limits the registry runs on. -/
structure Platform where
  /-- `hashlib.sha256(b).digest()`. -/
  sha256 : Bytes → Bytes
  sha256_length : ∀ b, (sha256 b).length = 32
  /-- An `Ed25519PrivateKey`. -/
  Secret : Type
  /-- The raw public key of a private key. -/
  publicBytes : Secret → Bytes
  publicBytes_length : ∀ k, (publicBytes k).length = 32
  /-- `private.sign(message)`, which is deterministic. -/
  sign : Secret → Bytes → Bytes
  sign_length : ∀ k m, (sign k m).length = 64
  /-- Whether `public_key.verify(signature, message)` returns. -/
  verify : (publicKey signature message : Bytes) → Bool
  verify_sign : ∀ k m, verify (publicBytes k) (sign k m) m = true
  /-- How deep arrays and objects may nest before the JSON encoder or decoder
      exceeds the recursion limit. -/
  nesting : Nat
  nesting_lt : 200 < nesting
  /-- Whether the `float` of a literal equals an integer. -/
  floatEq : PyStr → Int → Bool

/-! ## Exceptions -/

/-- The highest accepted snapshot of an upstream key. -/
structure UpstreamHighWater where
  keyId : PyStr
  version : Int
  logSize : Int
  head : PyStr
  merkleRoot : PyStr
  updatedAt : PyStr
  deriving DecidableEq, Repr

/-- Why an offered upstream snapshot is refused. -/
inductive UpstreamDiagnostic where
  /-- `import_upstream_rollback`: the offered version is below the persisted one. -/
  | rollback
  /-- `import_upstream_inconsistent`: the versions are equal and the bodies differ. -/
  | inconsistent
  deriving DecidableEq, Repr

/-- An exception. -/
inductive PyErr where
  | valueError (message : String)
  | jsonDecodeError
  | unicodeEncodeError
  | unicodeDecodeError
  | overflowError
  | typeError
  | indexError
  | recursionError
  | protocolError (message : String)
  | jsonDepthError (message : String)
  | canonicalError (message : String)
  | canonicalDepthError (message : String)
  | storeIntegrityError (message : String)
  | idempotencyConflict (message : String)
  | cursorBoundaryMismatch (message : String)
  | upstreamHighWaterConflict (diagnostic : UpstreamDiagnostic) (keyId : PyStr)
      (persisted offered : UpstreamHighWater)
  | upstreamRollbackError (keyId : PyStr) (persisted offered : UpstreamHighWater)
  | upstreamInconsistentError (keyId : PyStr) (persisted offered : UpstreamHighWater)
  /-- `sqlite3.IntegrityError`. -/
  | integrityError (message : String)
  /-- `sqlite3.OperationalError` of an interrupted statement. -/
  | interrupted
  /-- Any other `sqlite3.OperationalError`. -/
  | operationalError (message : String)
  /-- `APIError`, with its status, code and message. -/
  | apiError (status : Nat) (code message : String)
  deriving DecidableEq, Repr

namespace PyErr

/-- `except ValueError` catches the exception. -/
def isValueError : PyErr → Bool
  | valueError _ | jsonDecodeError | unicodeEncodeError | unicodeDecodeError | protocolError _
  | jsonDepthError _ | canonicalError _ | canonicalDepthError _ | idempotencyConflict _
  | cursorBoundaryMismatch _ | upstreamHighWaterConflict .. | upstreamRollbackError ..
  | upstreamInconsistentError .. => true
  | overflowError | typeError | indexError | recursionError | storeIntegrityError _
  | integrityError _ | interrupted | operationalError _ | apiError .. => false

/-- `except ProtocolError` catches the exception. -/
def isProtocolError : PyErr → Bool
  | protocolError _ | jsonDepthError _ | canonicalDepthError _ => true
  | _ => false

/-- `str` of the exception; where a decoder stopped is not modelled. -/
def message : PyErr → String
  | valueError m | protocolError m | jsonDepthError m | canonicalError m | canonicalDepthError m
  | storeIntegrityError m | idempotencyConflict m | cursorBoundaryMismatch m | integrityError m
  | operationalError m | apiError _ _ m => m
  | interrupted => "interrupted"
  | jsonDecodeError => "Expecting value"
  | unicodeEncodeError => "surrogates not allowed"
  | unicodeDecodeError => "invalid start byte"
  | overflowError => "Python int too large to convert to SQLite INTEGER"
  | typeError => "unhashable type"
  | indexError => "list index out of range"
  | recursionError => "maximum recursion depth exceeded"
  | upstreamHighWaterConflict .rollback .. | upstreamRollbackError .. => "import_upstream_rollback"
  | upstreamHighWaterConflict .inconsistent .. | upstreamInconsistentError .. =>
    "import_upstream_inconsistent"

end PyErr

/-- The text of a string, a lone surrogate shown as the replacement character. -/
def text (s : PyStr) : String := String.ofList (s.map fun c => Char.ofNat c.val)

/-! ## The JSON module -/

/-- The most digits `int` and `str` convert. -/
def maxStrDigits : Nat := 4300

/-- Without its sign, the text of an integer has no more digits than are converted. -/
def digitsFit (t : PyStr) : Bool := (t.filter isDigit).length ≤ maxStrDigits

/-- `int(text)` of an integer literal. -/
def pyInt (t : PyStr) : Except PyErr Int :=
  if digitsFit t then .ok (intOf t)
  else .error (.valueError "Exceeds the limit (4300 digits) for integer string conversion")

variable (P : Platform)

/-- The hooks of `json.loads` without arguments. -/
def pyHooks : Hooks PyErr where
  malformed := .jsonDecodeError
  int t := (pyInt t).map .int
  float t := .ok (.float t)
  constant t := .ok (.float t)
  pairs members := .ok (.obj (Dict.ofPairs members))
  nest depth := if P.nesting ≤ depth then some .recursionError else none

/-- `json.loads(text)`. -/
def pyLoads (t : PyStr) : Except PyErr Json := loads (pyHooks P) t

mutual

/-- Every integer inside a value has a text. -/
def intsFit : Json → Bool
  | .int n => digitsFit (intText n)
  | .arr items => intsFitItems items
  | .obj members => intsFitMembers members
  | .null | .bool _ | .float _ | .str _ => true

/-- Every integer inside the items has a text. -/
def intsFitItems : List Json → Bool
  | [] => true
  | v :: items => intsFit v && intsFitItems items

/-- Every integer inside the members has a text. -/
def intsFitMembers : List (PyStr × Json) → Bool
  | [] => true
  | (_, v) :: members => intsFit v && intsFitMembers members

end

/-- `json.dumps(value, separators=(",", ":"), ensure_ascii=False)`; a dictionary is
    written in the order of its keys, as under `sort_keys=True`. -/
def jsonDumps (v : Json) : Except PyErr PyStr :=
  if P.nesting < v.depth then .error .recursionError
  else if intsFit v then .ok v.dumps
  else .error (.valueError "Exceeds the limit (4300 digits) for integer string conversion")

variable {P}

theorem jsonDumps_eq_ok {v : Json} {t : PyStr} (h : jsonDumps P v = .ok t) :
    v.depth ≤ P.nesting ∧ intsFit v = true ∧ t = v.dumps := by
  unfold jsonDumps at h
  split_ifs at h with h₁ h₂
  exact ⟨not_lt.1 h₁, h₂, (Except.ok.inj h).symm⟩

/-- An integer is kept when it has a text. -/
def IntFits : Json → Prop
  | .int n => digitsFit (intText n) = true
  | _ => True

mutual

theorem every_intFits {v : Json} (h : intsFit v = true) : v.Every IntFits :=
  match v with
  | .null | .bool _ | .float _ | .str _ => trivial
  | .int _ => h
  | .arr _ => ⟨trivial, everyItem_intFits h⟩
  | .obj _ => ⟨trivial, everyMember_intFits h⟩

theorem everyItem_intFits {items : List Json} (h : intsFitItems items = true) :
    Json.EveryItem IntFits items :=
  match items with
  | [] => trivial
  | _ :: _ =>
    have hi := Bool.and_eq_true_iff.1 h
    ⟨every_intFits hi.1, everyItem_intFits hi.2⟩

theorem everyMember_intFits {members : List (PyStr × Json)} (h : intsFitMembers members = true) :
    Json.EveryMember IntFits members :=
  match members with
  | [] => trivial
  | (_, _) :: _ =>
    have hm := Bool.and_eq_true_iff.1 h
    ⟨every_intFits hm.1, everyMember_intFits hm.2⟩

end

/-- `json.loads` takes back what `json.dumps` wrote. -/
theorem pyLoads_jsonDumps {v : Json} {t : PyStr} (h : jsonDumps P v = .ok t) (hs : v.Sorted)
    (hn : v.Numeral) : pyLoads P t = .ok v := by
  obtain ⟨hd, hi, rfl⟩ := jsonDumps_eq_ok h
  rw [pyLoads, loads_dumps _ hn]
  refine interp_eq_self _ ((hs.and (every_intFits hi)).imp fun w hw => ?_) 0 fun k hk => ?_
  · cases w with
    | int n =>
      have hf : digitsFit (intText n) = true := hw.2
      simp only [Hooks.Keeps, pyHooks, pyInt, hf, if_true, intOf_intText]
      rfl
    | float t => exact ite_self _
    | obj members => exact congrArg (fun d => Except.ok (Json.obj d)) (Dict.ofPairs_eq_self hw.1)
    | null | bool | str | arr => trivial
  · simp only [pyHooks, Nat.zero_add]
    rw [if_neg (by omega)]

/-- What is read has dictionaries for objects. -/
theorem pyLoads_sorted {t : PyStr} {v : Json} (h : pyLoads P t = .ok v) : v.Sorted := by
  refine loads_every (h := pyHooks P) ⟨trivial, fun _ => trivial, fun _ => trivial,
    fun _ => trivial, ?_, ?_, ?_, ?_⟩ h
  · intro t v hv
    obtain ⟨n, -, rfl⟩ := Except.map_eq_ok hv
    trivial
  · intro t v hv
    exact Except.ok.inj hv ▸ trivial
  · intro t v hv
    exact Except.ok.inj hv ▸ trivial
  · intro members v hv hm
    obtain rfl := Except.ok.inj hv
    exact Json.every_obj.2 ⟨Dict.ofPairs_sorted _, fun m h => hm m (Dict.mem_ofPairs h)⟩

/-! ## A platform to evaluate on -/

/-- A checksum of some bytes. -/
def checksum (b : Bytes) : Nat := b.foldl (fun n x => (257 * n + x.toNat + 1) % 2 ^ 256) 0

/-- The last bytes of a number, the most significant first. -/
def bytesOfNat : (length : Nat) → Nat → Bytes
  | 0, _ => []
  | k + 1, n => .ofNat (n / 256 ^ k) :: bytesOfNat k n

theorem bytesOfNat_length (k n : Nat) : (bytesOfNat k n).length = k := by
  induction k with
  | zero => rfl
  | succ k ih => exact congrArg (· + 1) ih

/-- A platform whose hash is a checksum, and whose signatures are the public key followed by
    the checksum of the message. -/
def Platform.sample : Platform where
  sha256 b := bytesOfNat 32 (checksum b)
  sha256_length _ := bytesOfNat_length 32 _
  Secret := {b : Bytes // b.length = 32}
  publicBytes k := k.1
  publicBytes_length k := k.2
  sign k m := k.1 ++ bytesOfNat 32 (checksum m)
  sign_length k m := by rw [List.length_append, k.2, bytesOfNat_length]
  verify publicKey signature m := signature = publicKey ++ bytesOfNat 32 (checksum m)
  verify_sign _ _ := decide_eq_true rfl
  nesting := 1000
  nesting_lt := by decide
  floatEq _ _ := false

end SkillRegistry
