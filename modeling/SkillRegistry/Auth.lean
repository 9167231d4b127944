import SkillRegistry.Boundary
import SkillRegistry.Depth
import SkillRegistry.Store.Served
import SkillRegistry.Wire.Indent

/-!
# Auditor tokens

The auditors a registry accepts submissions from, each with the digest of its token, in a file
that the service reads when it starts and that `issue-token` rewrites.

* `AuditorTokens.init` checks the auditors one after another, and `init_eq_ok` says what it
  accepts; `fromFile` reads the file, and `resolve` finds the auditor of a token;
* `issueToken` is the command: the writer escapes every string, the reader takes no lone
  surrogate;
* `issueToken_loadable_iff`: the file that is written is read again, with the new token in
  the place of the auditor's earlier one, just when the auditor and its organization have no
  lone surrogates; `fromFile_run` is about one call after another.
-/

namespace SkillRegistry

open Wire

namespace Auth

/-! ## Auditors -/

/-- What reading the auditors raises. -/
inductive AuthError where
  | raised (e : PyErr)
  /-- `TypeError`. -/
  | typeError
  /-- `AttributeError`. -/
  | attributeError
  deriving DecidableEq, Repr

/-- A `ValueError`. -/
def refused (message : String) : AuthError := .raised (.valueError message)

/-- `Auditor`. -/
structure Auditor where
  auditorId : PyStr
  org : PyStr
  publicPinned : PyStr
  tokenSha256 : PyStr
  deriving DecidableEq, Repr

/-- An `Auditor` of values that were not checked yet. -/
structure Entry where
  auditorId : Json
  org : Json
  publicPinned : Json
  tokenSha256 : Json
  deriving DecidableEq

/-- `re.search(r"[\x00-\x1f\x7f]", value)`. -/
def hasControl (value : PyStr) : Bool := value.any fun c => c.val < 0x20 || c.val = 0x7F

def invalidId : AuthError := refused "auditor_id must be a non-empty control-free string"

/-- The check of `auditor_id`: what is empty is refused, and what is no string ends in
    `len` or `re.search`. -/
def checkAuditorId : Json → Except AuthError PyStr
  | .str s => if s = [] ∨ 8192 < s.length ∨ hasControl s then .error invalidId else .ok s
  | .null | .bool false | .int 0 | .arr [] | .obj [] => .error invalidId
  | .arr items => if 8192 < items.length then .error invalidId else .error .typeError
  | .obj members => if 8192 < members.length then .error invalidId else .error .typeError
  | .bool true | .int _ | .float _ => .error .typeError

/-- The check of `org`. -/
def checkOrg (auditorId : PyStr) : Json → Except AuthError PyStr
  | .str s =>
    if 8192 < s.length then
      .error (refused ("auditor " ++ pyRepr auditorId ++ " has an invalid organization"))
    else .ok s
  | _ => .error (refused ("auditor " ++ pyRepr auditorId ++ " has an invalid organization"))

/-- The check of `public_pinned`: `parse_public_key`, which asks for a prefix first. -/
def checkPublicPinned : Json → Except AuthError PyStr
  | .str s => ((parsePublicKey s).map fun _ => s).mapError .raised
  | _ => .error .attributeError

def invalidDigest (auditorId : PyStr) : AuthError :=
  refused ("auditor " ++ pyRepr auditorId ++ " has an invalid token digest")

/-- `any(character not in "0123456789abcdef" for character in items)`; where it is false the
    items are no string that could be a digest. -/
def checkHexItems (auditorId : PyStr) : List Json → Except AuthError (Option PyStr)
  | [] => .ok none
  | .str c :: items =>
    if (py "0123456789abcdef").tails.any (c.isPrefixOf ·) then checkHexItems auditorId items
    else .error (invalidDigest auditorId)
  | _ :: _ => .error .typeError

/-- The check of `token_sha256`, of which only a string can be looked up afterwards. -/
def checkDigest (auditorId : PyStr) : Json → Except AuthError (Option PyStr)
  | .str s => if hex256 s then .ok (some s) else .error (invalidDigest auditorId)
  | .arr items =>
    if items.length ≠ 64 then .error (invalidDigest auditorId) else checkHexItems auditorId items
  | .obj members =>
    if members.length ≠ 64 then .error (invalidDigest auditorId)
    else checkHexItems auditorId (members.map fun m => .str m.1)
  | _ => .error .typeError

/-- The checks of one auditor, after those before it. -/
def checkAuditor (seen : List Auditor) (entry : Entry) : Except AuthError Auditor := do
  let auditorId ← checkAuditorId entry.auditorId
  let org ← checkOrg auditorId entry.org
  let publicPinned ← checkPublicPinned entry.publicPinned
  let digest ← checkDigest auditorId entry.tokenSha256
  if seen.any (·.auditorId = auditorId) then
    .error (refused ("duplicate auditor_id " ++ pyRepr auditorId))
  else
    match digest with
    | none => .error .typeError
    | some digest =>
      if seen.any (·.tokenSha256 = digest) then
        .error (refused "two auditors cannot share one token digest")
      else .ok ⟨auditorId, org, publicPinned, digest⟩

/-- The loop of `AuditorTokens.__init__`, after some auditors. -/
def checkAuditors (seen : List Auditor) : List Entry → Except AuthError (List Auditor)
  | [] => .ok []
  | entry :: entries => do
    let auditor ← checkAuditor seen entry
    let auditors ← checkAuditors (seen ++ [auditor]) entries
    .ok (auditor :: auditors)

/-- `AuditorTokens.__init__`: the values of `_by_hash`. -/
def AuditorTokens.init (entries : List Entry) : Except AuthError (List Auditor) :=
  checkAuditors [] entries

/-! ## The file -/

/-- The keys of an auditor in the file. -/
def isField (key : PyStr) : Bool :=
  key = py "auditor_id" || key = py "org" || key = py "public_key" || key = py "token_sha256"

/-- An item of the `auditors` array. -/
def readEntry : Json → Except AuthError Entry
  | .obj item =>
    match Dict.get? item (py "auditor_id"), Dict.get? item (py "public_key"),
        Dict.get? item (py "token_sha256") with
    | some auditorId, some publicKey, some tokenSha256 =>
      if item.all fun m => isField m.1 then
        .ok ⟨auditorId, (Dict.get? item (py "org")).getD (.str []), publicKey, tokenSha256⟩
      else .error (refused "auditor entry contains an unknown field")
    | _, _, _ => .error (refused "auditor entry is malformed")
  | _ => .error (refused "auditor entry is malformed")

/-- The auditors in the value of a file. -/
def readAuditors : Json → Except AuthError (List Auditor)
  | .obj data =>
    if Dict.keys data ≠ [py "auditors"] then
      .error (refused "auditors file must contain exactly one auditors array")
    else
      match Dict.get? data (py "auditors") with
      | some (.arr items) => do
        let entries ← items.mapM readEntry
        AuditorTokens.init entries
      | _ => .error (refused "auditors must be an array")
  | _ => .error (refused "auditors file must contain exactly one auditors array")

variable (P : Platform)

/-- `AuditorTokens.from_file`, given what the file holds if it exists. -/
def fromFile : Option Bytes → Except AuthError (List Auditor)
  | none => AuditorTokens.init []
  | some raw => do
    let data ← (loadJson P raw).mapError .raised
    readAuditors data

/-- The digest of the UTF-8 bytes of a token. -/
def tokenDigest (raw : Bytes) : PyStr := hex (P.sha256 raw)

/-- `AuditorTokens.resolve`. -/
def resolve (tokens : List Auditor) (token : PyStr) : Except PyErr (Option Auditor) :=
  if token.length < 22 then .ok none
  else
    match encodeUtf8 token with
    | some raw => .ok (tokens.find? fun a => a.tokenSha256 = tokenDigest P raw)
    | none => .error .unicodeEncodeError

/-! ## Issuing a token -/

/-- `json.dumps(value, indent=2).encode("utf-8") + b"\n"`, what `write_private_json` writes. -/
def privateJson (value : Json) : Except AuthError Bytes :=
  match encodeUtf8 (value.indented 0 ++ [cp '\n']) with
  | some raw => .ok raw
  | none => .error (.raised .unicodeEncodeError)

/-- An auditor before it is checked. -/
def Auditor.entry (a : Auditor) : Entry :=
  ⟨.str a.auditorId, .str a.org, .str a.publicPinned, .str a.tokenSha256⟩

/-- An auditor in the file. -/
def Auditor.toJson (a : Auditor) : Json :=
  .obj [(py "auditor_id", .str a.auditorId), (py "org", .str a.org),
    (py "public_key", .str a.publicPinned), (py "token_sha256", .str a.tokenSha256)]

/-- The value of the file that a token is issued into. -/
def storedData : Option Bytes → Except AuthError Dict
  | none => .ok [(py "auditors", .arr [])]
  | some raw => do
    let _ ← fromFile P (some raw)
    let data ← (loadJson P raw).mapError .raised
    match data with
    | .obj data => .ok data
    | _ => .error (refused "auditors file must be an object")

/-- The item of the file is not about an auditor. -/
def isOther (auditorId : PyStr) : Json → Bool
  | .obj item => Dict.get? item (py "auditor_id") ≠ some (.str auditorId)
  | _ => true

/-- The items of the file that are not about an auditor. -/
def otherItems (auditorId : PyStr) (data : Dict) : List Json :=
  match Dict.get? data (py "auditors") with
  | some (.arr items) => items.filter (isOther auditorId)
  | _ => []

/-- The auditor a token is issued to; the token is `secrets.token_urlsafe(32)`, made of 32
    random bytes. -/
def issued (auditorId org publicKey : PyStr) (secret : Bytes) : Auditor :=
  ⟨auditorId, org, publicKey, tokenDigest P (utf8 (urlEncode secret))⟩

/-- `_cmd_issue_token`: what the file holds afterwards. -/
def issueToken (file : Option Bytes) (auditorId org publicKey : PyStr) (secret : Bytes) :
    Except AuthError Bytes := do
  let data ← storedData P file
  let auditor := issued P auditorId org publicKey secret
  let _ ← AuditorTokens.init [auditor.entry]
  privateJson (.obj (data.insert (py "auditors")
    (.arr (otherItems auditorId data ++ [auditor.toJson]))))

/-! ## What is accepted -/

/-- What the checks ask of one auditor. -/
structure Valid (a : Auditor) : Prop where
  named : a.auditorId ≠ []
  bounded : a.auditorId.length ≤ 8192
  printable : hasControl a.auditorId = false
  org : a.org.length ≤ 8192
  publicPinned : ∃ raw, parsePublicKey a.publicPinned = .ok raw
  digest : hex256 a.tokenSha256 = true

/-- What the checks ask of two auditors. -/
def Distinct (a b : Auditor) : Prop :=
  a.auditorId ≠ b.auditorId ∧ a.tokenSha256 ≠ b.tokenSha256

/-- Auditors that are accepted together. -/
structure Registered (auditors : List Auditor) : Prop where
  valid : ∀ a ∈ auditors, Valid a
  distinct : auditors.Pairwise Distinct

theorem checkAuditorId_eq_ok {v : Json} {s : PyStr} : checkAuditorId v = .ok s ↔
    v = .str s ∧ s ≠ [] ∧ s.length ≤ 8192 ∧ hasControl s = false := by
  constructor
  · intro h
    unfold checkAuditorId at h
    split at h
    · split_ifs at h with hs
      obtain rfl := Except.ok.inj h
      obtain ⟨hnamed, hrest⟩ := not_or.1 hs
      obtain ⟨hbounded, hprintable⟩ := not_or.1 hrest
      exact ⟨rfl, hnamed, not_lt.1 hbounded, Bool.eq_false_iff.2 hprintable⟩
    all_goals first | cases h | (split_ifs at h)
  · rintro ⟨rfl, hnamed, hbounded, hprintable⟩
    rw [checkAuditorId, if_neg]
    rw [hprintable]
    exact not_or.2 ⟨hnamed, not_or.2 ⟨not_lt.2 hbounded, Bool.false_ne_true⟩⟩

theorem checkOrg_eq_ok {auditorId : PyStr} {v : Json} {s : PyStr} :
    checkOrg auditorId v = .ok s ↔ v = .str s ∧ s.length ≤ 8192 := by
  constructor
  · intro h
    unfold checkOrg at h
    split at h
    · split_ifs at h with hs
      exact ⟨congrArg Json.str (Except.ok.inj h), Except.ok.inj h ▸ not_lt.1 hs⟩
    · cases h
  · rintro ⟨rfl, hs⟩
    exact if_neg (not_lt.2 hs)

theorem checkPublicPinned_eq_ok {v : Json} {s : PyStr} :
    checkPublicPinned v = .ok s ↔ v = .str s ∧ ∃ raw, parsePublicKey s = .ok raw := by
  constructor
  · intro h
    unfold checkPublicPinned at h
    split at h
    · obtain ⟨raw, hraw, rfl⟩ := Wire.Except.map_eq_ok (mapError_eq_ok.1 h)
      exact ⟨rfl, raw, hraw⟩
    · cases h
  · rintro ⟨rfl, raw, hraw⟩
    rw [checkPublicPinned, hraw]
    rfl

/-- Items that are no string never make a digest. -/
theorem checkHexItems_ne {auditorId digest : PyStr} (items : List Json) :
    checkHexItems auditorId items ≠ .ok (some digest) := by
  intro h
  induction items with
  | nil => cases Except.ok.inj h
  | cons v items ih =>
    unfold checkHexItems at h
    split at h
    · cases Except.ok.inj h
    · rename_i heq
      split_ifs at h
      obtain ⟨-, rfl⟩ := List.cons.inj heq
      exact ih h
    · cases h

theorem checkDigest_eq_ok {auditorId : PyStr} {v : Json} {s : PyStr} :
    checkDigest auditorId v = .ok (some s) ↔ v = .str s ∧ hex256 s = true := by
  constructor
  · intro h
    unfold checkDigest at h
    split at h
    · split_ifs at h with hs
      obtain rfl := Option.some.inj (Except.ok.inj h)
      exact ⟨rfl, hs⟩
    · split_ifs at h
      exact absurd h (checkHexItems_ne _)
    · split_ifs at h
      exact absurd h (checkHexItems_ne _)
    · cases h
  · rintro ⟨rfl, hs⟩
    exact if_pos hs

/-- What is accepted is one of strings. -/
theorem checkAuditor_eq_ok {seen : List Auditor} {entry : Entry} {a : Auditor} :
    checkAuditor seen entry = .ok a ↔
      entry = a.entry ∧ Valid a ∧ ∀ b ∈ seen, Distinct b a := by
  constructor
  · intro h
    obtain ⟨auditorId, hid, h⟩ := Wire.Except.bind_eq_ok h
    obtain ⟨org, horg, h⟩ := Wire.Except.bind_eq_ok h
    obtain ⟨publicPinned, hkey, h⟩ := Wire.Except.bind_eq_ok h
    obtain ⟨digest, hdigest, h⟩ := Wire.Except.bind_eq_ok h
    split_ifs at h with hseen
    cases digest with
    | none => cases h
    | some digest =>
      simp only at h
      split_ifs at h with hshared
      obtain rfl := Except.ok.inj h
      obtain ⟨hv₁, hnamed, hbounded, hprintable⟩ := checkAuditorId_eq_ok.1 hid
      obtain ⟨hv₂, horg⟩ := checkOrg_eq_ok.1 horg
      obtain ⟨hv₃, hkey⟩ := checkPublicPinned_eq_ok.1 hkey
      obtain ⟨hv₄, hdigest⟩ := checkDigest_eq_ok.1 hdigest
      refine ⟨?_, ⟨hnamed, hbounded, hprintable, horg, hkey, hdigest⟩, fun b hb => ⟨?_, ?_⟩⟩
      · obtain ⟨_, _, _, _⟩ := entry
        simp only at hv₁ hv₂ hv₃ hv₄
        rw [hv₁, hv₂, hv₃, hv₄]
        rfl
      · exact fun he => hseen (List.any_eq_true.2 ⟨b, hb, decide_eq_true he⟩)
      · exact fun he => hshared (List.any_eq_true.2 ⟨b, hb, decide_eq_true he⟩)
  · rintro ⟨rfl, hv, hseen⟩
    have hid : checkAuditorId (.str a.auditorId) = .ok a.auditorId :=
      checkAuditorId_eq_ok.2 ⟨rfl, hv.named, hv.bounded, hv.printable⟩
    have horg : checkOrg a.auditorId (.str a.org) = .ok a.org := checkOrg_eq_ok.2 ⟨rfl, hv.org⟩
    have hkey : checkPublicPinned (.str a.publicPinned) = .ok a.publicPinned :=
      checkPublicPinned_eq_ok.2 ⟨rfl, hv.publicPinned⟩
    have hdigest : checkDigest a.auditorId (.str a.tokenSha256) = .ok (some a.tokenSha256) :=
      checkDigest_eq_ok.2 ⟨rfl, hv.digest⟩
    have hids : (seen.any fun b => b.auditorId = a.auditorId) = false :=
      List.any_eq_false.2 fun b hb => by simpa using (hseen b hb).1
    have hdigests : (seen.any fun b => b.tokenSha256 = a.tokenSha256) = false :=
      List.any_eq_false.2 fun b hb => by simpa using (hseen b hb).2
    simp only [checkAuditor, Auditor.entry, bind, Except.bind, hid, horg, hkey, hdigest, hids,
      hdigests, Bool.false_eq_true, if_false]

/-- The loop accepts what is acceptable after the auditors before it. -/
theorem checkAuditors_eq_ok {seen : List Auditor} (entries : List Entry) {as : List Auditor} :
    checkAuditors seen entries = .ok as ↔
      entries = as.map Auditor.entry ∧ Registered as ∧ ∀ b ∈ seen, ∀ a ∈ as, Distinct b a := by
  induction entries generalizing seen as with
  | nil =>
    constructor
    · intro h
      obtain rfl := Except.ok.inj h
      exact ⟨rfl, ⟨fun _ ha => absurd ha List.not_mem_nil, .nil⟩,
        fun _ _ _ ha => absurd ha List.not_mem_nil⟩
    · rintro ⟨h, -⟩
      rw [List.map_eq_nil_iff.1 h.symm]
      rfl
  | cons entry entries ih =>
    constructor
    · intro h
      obtain ⟨a, ha, h⟩ := Wire.Except.bind_eq_ok h
      obtain ⟨rest, hrest, h⟩ := Wire.Except.bind_eq_ok h
      obtain rfl := Except.ok.inj h
      obtain ⟨rfl, hv, hseen⟩ := checkAuditor_eq_ok.1 ha
      obtain ⟨rfl, hr, hlater⟩ := ih.1 hrest
      refine ⟨rfl, ⟨List.forall_mem_cons.2 ⟨hv, hr.valid⟩, List.pairwise_cons.2
        ⟨hlater a (List.mem_append_right _ List.mem_cons_self), hr.distinct⟩⟩, fun b hb => ?_⟩
      exact List.forall_mem_cons.2 ⟨hseen b hb, hlater b (List.mem_append_left _ hb)⟩
    · rintro ⟨hentries, hr, hseen⟩
      obtain ⟨a, rest, rfl, rfl, hrest⟩ := List.map_eq_cons_iff.1 hentries.symm
      obtain ⟨hv, hvs⟩ := List.forall_mem_cons.1 hr.valid
      obtain ⟨hd, hds⟩ := List.pairwise_cons.1 hr.distinct
      have ha : checkAuditor seen a.entry = .ok a :=
        checkAuditor_eq_ok.2 ⟨rfl, hv, fun b hb => (List.forall_mem_cons.1 (hseen b hb)).1⟩
      have hlater : ∀ b ∈ seen ++ [a], ∀ c ∈ rest, Distinct b c := by
        intro b hb c hc
        rcases List.mem_append.1 hb with hb | hb
        · exact (List.forall_mem_cons.1 (hseen b hb)).2 c hc
        · rw [List.mem_singleton.1 hb]
          exact hd c hc
      have hloop := ih.2 ⟨hrest.symm, ⟨hvs, hds⟩, hlater⟩
      simp only [checkAuditors, bind, Except.bind, ha, hloop]

/-- The service starts with auditors that are acceptable together, and no others. -/
theorem init_eq_ok {entries : List Entry} {as : List Auditor} :
    AuditorTokens.init entries = .ok as ↔ entries = as.map Auditor.entry ∧ Registered as := by
  rw [AuditorTokens.init, checkAuditors_eq_ok]
  exact ⟨fun ⟨he, hr, _⟩ => ⟨he, hr⟩,
    fun ⟨he, hr⟩ => ⟨he, hr, fun _ hb => absurd hb List.not_mem_nil⟩⟩

/-! ## The tokens of a file -/

/-- The value of a file with some items. -/
def document (items : List Json) : Json := .obj [(py "auditors", .arr items)]

/-- An item of the file is read when it is an object with the three fields. -/
theorem readEntry_eq_ok {v : Json} {entry : Entry} (h : readEntry v = .ok entry) :
    ∃ item : Dict, v = .obj item ∧ item.get? (py "auditor_id") = some entry.auditorId ∧
      (item.get? (py "org")).getD (.str []) = entry.org := by
  cases v with
  | obj item =>
    rw [readEntry] at h
    split at h
    · next hid _ _ =>
      split_ifs at h
      exact ⟨item, rfl, hid.trans (congrArg _ (congrArg Entry.auditorId (Except.ok.inj h))),
        congrArg Entry.org (Except.ok.inj h)⟩
    · cases h
  | null | bool | int | float | str | arr => cases h

/-- What is written for an auditor is read as the auditor. -/
theorem readEntry_toJson (a : Auditor) : readEntry a.toJson = .ok a.entry := rfl

variable {P}

/-- What a file must hold to be read. -/
theorem fromFile_eq_ok {raw : Bytes} {tokens : List Auditor} :
    fromFile P (some raw) = .ok tokens ↔
      ∃ items : List Json, loadJson P raw = .ok (document items) ∧
        items.mapM readEntry = .ok (tokens.map Auditor.entry) ∧ Registered tokens := by
  constructor
  · intro h
    obtain ⟨data, hdata, h⟩ := Wire.Except.bind_eq_ok h
    have hload := mapError_eq_ok.1 hdata
    unfold readAuditors at h
    split at h
    · split_ifs at h with hkeys
      obtain ⟨m, rfl, hm⟩ := List.map_eq_singleton_iff.1 (not_not.1 hkeys)
      obtain ⟨k, v⟩ := m
      obtain rfl : k = py "auditors" := hm
      split at h
      · rename_i items hitems
        obtain ⟨entries, hentries, h⟩ := Wire.Except.bind_eq_ok h
        obtain ⟨rfl, hr⟩ := init_eq_ok.1 h
        rw [Dict.get?_cons, if_pos rfl] at hitems
        rw [Option.some.inj hitems] at hload
        exact ⟨items, hload, hentries, hr⟩
      · cases h
    · cases h
  · rintro ⟨items, hload, hitems, hr⟩
    have hget : Dict.get? [(py "auditors", Json.arr items)] (py "auditors") = some (.arr items) := by
      rw [Dict.get?_cons, if_pos rfl]
    have hinit := init_eq_ok.2 ⟨rfl, hr⟩
    simp only [fromFile, bind, Except.bind, hload, Except.mapError, document, readAuditors, Dict.keys,
      List.map_cons, List.map_nil, ne_eq, not_true_eq_false, if_false, hget, hitems, hinit]

theorem registered_of_fromFile {file : Option Bytes} {tokens : List Auditor}
    (h : fromFile P file = .ok tokens) : Registered tokens := by
  cases file with
  | none => exact (init_eq_ok.1 h).2
  | some raw =>
    obtain ⟨-, -, -, hr⟩ := fromFile_eq_ok.1 h
    exact hr

/-! ## The value of a file -/

theorem canonical_document {items : List Json} :
    Canonical (document items) ↔ ∀ v ∈ items, CanonicalWithin 98 v := by
  have hkey : Scalar (py "auditors") := by decide
  rw [document, canonical_obj, List.forall_mem_singleton, canonicalWithin_arr (n := 98)]
  exact and_iff_right hkey

theorem sorted_document {items : List Json} : (document items).Sorted ↔ ∀ v ∈ items, v.Sorted := by
  rw [document, Json.Sorted, Json.every_obj, List.forall_mem_singleton, Json.every_arr]
  exact ⟨fun h => h.2.2, fun h => ⟨List.pairwise_singleton _ _, trivial, h⟩⟩

theorem canonicalWithin_toJson {a : Auditor} {n : Nat} (hid : Scalar a.auditorId)
    (horg : Scalar a.org) (hkey : Scalar a.publicPinned) (hdigest : Scalar a.tokenSha256) :
    CanonicalWithin (n + 1) a.toJson := by
  refine canonicalWithin_obj.2 ?_
  simp only [List.forall_mem_cons, List.not_mem_nil, false_imp_iff, imp_true_iff, and_true]
  exact ⟨⟨by decide, canonicalWithin_str hid⟩, ⟨by decide, canonicalWithin_str horg⟩,
    ⟨by decide, canonicalWithin_str hkey⟩, by decide, canonicalWithin_str hdigest⟩

theorem sorted_toJson (a : Auditor) : a.toJson.Sorted := by
  refine Json.every_obj.2 ⟨?_, ?_⟩
  · show List.Pairwise _ _
    simp only [List.pairwise_cons, List.forall_mem_cons, List.not_mem_nil, false_imp_iff,
      imp_true_iff, List.Pairwise.nil, and_true]
    decide
  · simp only [List.forall_mem_cons, List.not_mem_nil, false_imp_iff, imp_true_iff, and_true]
    exact ⟨trivial, trivial, trivial, trivial⟩

/-- A public key that is accepted is one of ASCII characters. -/
theorem scalar_of_parsePublicKey {s : PyStr} {raw : Bytes} (h : parsePublicKey s = .ok raw) :
    Scalar s := by
  have henc : Scalar (removePrefix (py "ed25519:") s) := by
    simp only [parsePublicKey] at h
    split at h
    · cases h
    · split_ifs at h with hraw
      rw [← not_not.1 (not_or.1 hraw).2]
      exact scalar_b64encode _
  unfold removePrefix at henc
  split_ifs at henc with hs
  · obtain ⟨r, rfl⟩ := List.isPrefixOf_iff_prefix.1 hs
    rw [List.drop_left] at henc
    intro c hc
    rcases List.mem_append.1 hc with hc | hc
    · exact (show Scalar (py "ed25519:") by decide) c hc
    · exact henc c hc
  · exact henc

/-- What is written of a canonical value is read back. -/
theorem loadJson_privateJson {v : Json} {raw : Bytes} (hv : Canonical v) (hs : v.Sorted)
    (h : privateJson v = .ok raw) : loadJson P raw = .ok v := by
  have hscalar : v.Every Json.IsScalar := hv.1.imp fun w hw => by
    cases w with
    | str s => exact hw
    | obj members => exact hw
    | null | bool | int | float | arr => trivial
  have hload : loads (protocolHooks P) (v.indented 0 ++ [cp '\n']) = .ok v := by
    rw [loads_indented _ (Canonical.numeral hv.1) hscalar]
    refine interp_eq_self _ (protocolHooks_keep hv.1 hs) 0 fun k hk => if_neg ?_
    have := P.nesting_lt
    have : v.depth ≤ 100 := hv.2
    omega
  have hpos := loads_scalar hload hv.1
  have hmark : (v.indented 0 ++ [cp '\n']).head? ≠ some byteOrderMark := by
    obtain ⟨c, t, hd, -, -, hm⟩ := Json.indented_head (Canonical.numeral hv.1) 0
    rw [hd]
    exact fun e => hm (Option.some.inj e)
  have hraw : raw = utf8 (v.indented 0 ++ [cp '\n']) := by
    rw [privateJson, encodeUtf8_of_scalar fun c hc => (hpos c hc).2] at h
    exact (Except.ok.inj h).symm
  rw [hraw, loadJson_utf8 (detectEncoding_utf8 (fun c hc => (hpos c hc).1) hmark), loadJsonText_iff]
  refine ⟨hmark, ?_, hload, hv⟩
  rw [checkJsonDepth_loads protocolHooks_keepsDepth hload, if_pos hv.2]

/-- What a file holds is canonical and made of dictionaries. -/
theorem items_of_loadJson {raw : Bytes} {items : List Json}
    (h : loadJson P raw = .ok (document items)) :
    (∀ v ∈ items, CanonicalWithin 98 v) ∧ ∀ v ∈ items, v.Sorted := by
  obtain ⟨-, -, t, -, hload, hc⟩ := loadJson_iff.1 h
  exact ⟨canonical_document.1 hc, sorted_document.1 (loads_protocol_sorted hload)⟩

/-- The auditors of a file have no lone surrogates. -/
theorem scalar_of_fromFile {raw : Bytes} {tokens : List Auditor}
    (h : fromFile P (some raw) = .ok tokens) {a : Auditor} (ha : a ∈ tokens) :
    Scalar a.auditorId ∧ Scalar a.org := by
  obtain ⟨items, hload, hitems, -⟩ := fromFile_eq_ok.1 h
  obtain ⟨v, hv, hread⟩ := exists_of_mem_mapM hitems (List.mem_map_of_mem ha)
  obtain ⟨item, rfl, hid, horg⟩ := readEntry_eq_ok hread
  have hmembers := canonicalWithin_obj.1 ((items_of_loadJson hload).1 _ hv)
  refine ⟨(hmembers _ (Dict.mem_of_get? hid)).2.1, ?_⟩
  cases hget : item.get? (py "org") with
  | none =>
    rw [hget] at horg
    rw [← Json.str.inj horg]
    exact fun c hc => absurd hc List.not_mem_nil
  | some w =>
    rw [hget] at horg
    obtain rfl : w = .str a.org := horg
    exact (hmembers _ (Dict.mem_of_get? hget)).2.1

/-! ## Looking tokens up -/

/-- An auditor that is registered is found by its digest. -/
theorem find?_digest {tokens : List Auditor} (hd : tokens.Pairwise Distinct) {a : Auditor}
    (ha : a ∈ tokens) {digest : PyStr} (he : a.tokenSha256 = digest) :
    (tokens.find? fun b => b.tokenSha256 = digest) = some a := by
  induction tokens with
  | nil => cases ha
  | cons b tokens ih =>
    obtain ⟨hb, hd⟩ := List.pairwise_cons.1 hd
    rcases List.mem_cons.1 ha with rfl | ha
    · exact List.find?_cons_of_pos (decide_eq_true he)
    · rw [List.find?_cons_of_neg, ih hd ha]
      exact fun hs => (hb a ha).2 ((of_decide_eq_true hs).trans he.symm)

/-- The auditor of a token is the one with its digest. -/
theorem resolve_eq_some {tokens : List Auditor} (hd : tokens.Pairwise Distinct) {token : PyStr}
    {a : Auditor} : resolve P tokens token = .ok (some a) ↔ 22 ≤ token.length ∧
      ∃ raw, encodeUtf8 token = some raw ∧ a ∈ tokens ∧ a.tokenSha256 = tokenDigest P raw := by
  rw [resolve]
  split_ifs with hlen
  · exact ⟨fun h => (by cases Except.ok.inj h), fun h => absurd h.1 (not_le.2 hlen)⟩
  · cases encodeUtf8 token with
    | none => exact ⟨fun h => (by cases h), fun ⟨_, _, hraw, _⟩ => (by cases hraw)⟩
    | some raw =>
      constructor
      · intro h
        have hfind := Except.ok.inj h
        have hdigest := List.find?_some hfind
        exact ⟨not_lt.1 hlen, raw, rfl, List.mem_of_find?_eq_some hfind,
          of_decide_eq_true hdigest⟩
      · rintro ⟨-, raw', hraw, ha, he⟩
        obtain rfl := Option.some.inj hraw
        exact congrArg _ (find?_digest hd ha he)

/-- No auditor has a token that is too short, or whose digest is of no auditor. -/
theorem resolve_eq_none {tokens : List Auditor} {token : PyStr} {raw : Bytes}
    (hraw : encodeUtf8 token = some raw) (h : ∀ a ∈ tokens, a.tokenSha256 ≠ tokenDigest P raw) :
    resolve P tokens token = .ok none := by
  rw [resolve]
  split_ifs
  · rfl
  · rw [hraw]
    exact congrArg _ (List.find?_eq_none.2 fun a ha hs => h a ha (of_decide_eq_true hs))

/-! ## Replacing a token -/

/-- The auditors after a token was issued. -/
def replaced (before : List Auditor) (a : Auditor) : List Auditor :=
  before.filter (·.auditorId ≠ a.auditorId) ++ [a]

theorem mem_replaced {before : List Auditor} {a b : Auditor} :
    b ∈ replaced before a ↔ b ∈ before ∧ b.auditorId ≠ a.auditorId ∨ b = a := by
  rw [replaced, List.mem_append, List.mem_filter, List.mem_singleton, decide_eq_true_eq]

section Replaced

variable {before : List Auditor} {a : Auditor}
variable (hr : Registered before) (hfresh : ∀ b ∈ before, b.tokenSha256 ≠ a.tokenSha256)

include hr hfresh

/-- A token with a new digest can stand in the place of another one. -/
theorem registered_replaced (ha : Valid a) : Registered (replaced before a) := by
  constructor
  · intro b hb
    rcases mem_replaced.1 hb with ⟨hb, -⟩ | rfl
    exacts [hr.valid b hb, ha]
  · refine List.pairwise_append.2 ⟨hr.distinct.filter _, List.pairwise_singleton _ _, ?_⟩
    intro b hb c hc
    obtain ⟨hb, hid⟩ := List.mem_filter.1 hb
    rw [List.mem_singleton.1 hc]
    exact ⟨of_decide_eq_true hid, hfresh b hb⟩

/-- The tokens of the other auditors are found as before, and the earlier one of the auditor
    is not. -/
theorem resolve_replaced (ha : Valid a) {other : PyStr} {held : Auditor}
    (h : resolve P before other = .ok (some held)) :
    resolve P (replaced before a) other =
      .ok (if held.auditorId = a.auditorId then none else some held) := by
  obtain ⟨hlen, raw, hraw, hheld, hdigest⟩ := (resolve_eq_some hr.distinct).1 h
  split_ifs with hid
  · refine resolve_eq_none hraw fun b hb he => ?_
    rcases mem_replaced.1 hb with ⟨hb, hne⟩ | rfl
    · have hfound := find?_digest hr.distinct hb he
      rw [find?_digest hr.distinct hheld hdigest] at hfound
      exact hne (Option.some.inj hfound ▸ hid)
    · exact hfresh held hheld (hdigest.trans he.symm)
  · exact (resolve_eq_some (registered_replaced hr hfresh ha).distinct).2
      ⟨hlen, raw, hraw, mem_replaced.2 (.inl ⟨hheld, hid⟩), hdigest⟩

end Replaced

/-! ## Issuing -/

theorem Auditor.entry_injective : Function.Injective Auditor.entry := fun a b h => by
  obtain ⟨hid, horg, hkey, hdigest⟩ := Entry.mk.inj h
  obtain ⟨_, _, _, _⟩ := a
  obtain ⟨_, _, _, _⟩ := b
  rw [Auditor.mk.injEq]
  exact ⟨Json.str.inj hid, Json.str.inj horg, Json.str.inj hkey, Json.str.inj hdigest⟩

theorem scalar_urlEncode (b : Bytes) : Scalar (urlEncode b) := scalar_of_ascii fun c hc => by
  obtain ⟨n, hn, rfl⟩ := mem_urlEncode hc
  clear hc
  revert n
  decide

theorem isOther_eq {v : Json} {a : Auditor} (h : readEntry v = .ok a.entry) (auditorId : PyStr) :
    isOther auditorId v = decide (a.auditorId ≠ auditorId) := by
  obtain ⟨item, rfl, hid, -⟩ := readEntry_eq_ok h
  rw [isOther, hid]
  exact decide_eq_decide.2 (not_congr ⟨fun he => Json.str.inj (Option.some.inj he),
    fun he => congrArg (fun s => some (Json.str s)) he⟩)

/-- The items that are not about an auditor are read as the other auditors. -/
theorem mapM_others {items : List Json} {before : List Auditor}
    (h : items.mapM readEntry = .ok (before.map Auditor.entry)) (auditorId : PyStr) :
    (items.filter (isOther auditorId)).mapM readEntry =
      .ok ((before.filter (·.auditorId ≠ auditorId)).map Auditor.entry) := by
  induction items generalizing before with
  | nil =>
    obtain rfl := List.map_eq_nil_iff.1 (Except.ok.inj h).symm
    rfl
  | cons v items ih =>
    rw [List.mapM_cons] at h
    obtain ⟨entry, hv, h⟩ := Wire.Except.bind_eq_ok h
    obtain ⟨entries, hitems, h⟩ := Wire.Except.bind_eq_ok h
    obtain ⟨a, before, rfl, rfl, rfl⟩ := List.map_eq_cons_iff.1 (Except.ok.inj h).symm
    by_cases hid : a.auditorId ≠ auditorId
    · rw [List.filter_cons_of_pos ((isOther_eq hv _).trans (decide_eq_true hid)),
        List.filter_cons_of_pos (p := fun b : Auditor => b.auditorId ≠ auditorId)
          (decide_eq_true hid), List.mapM_cons, hv, ih hitems]
      rfl
    · rw [List.filter_cons_of_neg, List.filter_cons_of_neg, ih hitems]
      · exact fun h => hid (of_decide_eq_true h)
      · exact fun h => hid (of_decide_eq_true ((isOther_eq hv _).symm.trans h))

/-- The value of a file that is read, or of none. -/
theorem storedData_of_fromFile {file : Option Bytes} {before : List Auditor}
    (h : fromFile P file = .ok before) : ∃ items : List Json,
      storedData P file = .ok [(py "auditors", .arr items)] ∧
      items.mapM readEntry = .ok (before.map Auditor.entry) ∧
      (∀ v ∈ items, CanonicalWithin 98 v) ∧ ∀ v ∈ items, v.Sorted := by
  cases file with
  | none =>
    obtain rfl := Except.ok.inj h
    exact ⟨[], rfl, rfl, List.forall_mem_nil _, List.forall_mem_nil _⟩
  | some raw =>
    obtain ⟨items, hload, hitems, -⟩ := fromFile_eq_ok.1 h
    refine ⟨items, ?_, hitems, items_of_loadJson hload⟩
    simp only [storedData, bind, Except.bind, h, hload, Except.mapError, document]

/-- What the file holds after a token was issued. -/
theorem issueToken_eq_ok {file : Option Bytes} {before : List Auditor}
    (h : fromFile P file = .ok before) {auditorId org publicKey : PyStr} {secret after : Bytes}
    (hissue : issueToken P file auditorId org publicKey secret = .ok after) :
    Valid (issued P auditorId org publicKey secret) ∧ ∃ items : List Json,
      privateJson (document (items ++ [(issued P auditorId org publicKey secret).toJson])) =
        .ok after ∧
      items.mapM readEntry = .ok ((before.filter (·.auditorId ≠ auditorId)).map Auditor.entry) ∧
      (∀ v ∈ items, CanonicalWithin 98 v) ∧ ∀ v ∈ items, v.Sorted := by
  obtain ⟨items, hdata, hitems, hcanonical, hsorted⟩ := storedData_of_fromFile h
  obtain ⟨data, hdata', hissue⟩ := Wire.Except.bind_eq_ok hissue
  obtain rfl := Except.ok.inj (hdata.symm.trans hdata')
  obtain ⟨as, hinit, hissue⟩ := Wire.Except.bind_eq_ok hissue
  obtain ⟨he, hr⟩ := init_eq_ok.1 hinit
  obtain ⟨a, rest, rfl, ha, -⟩ := List.map_eq_cons_iff.1 he.symm
  refine ⟨?_, items.filter (isOther auditorId), ?_, mapM_others hitems auditorId,
    fun v hv => hcanonical v (List.mem_of_mem_filter hv),
    fun v hv => hsorted v (List.mem_of_mem_filter hv)⟩
  · obtain rfl := Auditor.entry_injective ha
    exact hr.valid _ List.mem_cons_self
  · have hothers : otherItems auditorId [(py "auditors", .arr items)] =
        items.filter (isOther auditorId) := by
      rw [otherItems, Dict.get?_cons, if_pos rfl]
    have hinsert (v : Json) : Dict.insert (py "auditors") v [(py "auditors", .arr items)] =
        [(py "auditors", v)] := by
      rw [Dict.insert, if_neg (lt_irrefl _), if_pos rfl]
    rwa [hothers, hinsert] at hissue

/-- Without lone surrogates the file that is written is read again. -/
theorem fromFile_issueToken {file : Option Bytes} {before : List Auditor}
    (hfile : fromFile P file = .ok before) {auditorId org publicKey : PyStr}
    {secret after : Bytes}
    (hfresh : ∀ a ∈ before,
      a.tokenSha256 ≠ (issued P auditorId org publicKey secret).tokenSha256)
    (hissue : issueToken P file auditorId org publicKey secret = .ok after)
    (hid : Scalar auditorId) (horg : Scalar org) :
    fromFile P (some after) = .ok (replaced before (issued P auditorId org publicKey secret)) := by
  obtain ⟨hvalid, items, hwritten, hitems, hcanonical, hsorted⟩ := issueToken_eq_ok hfile hissue
  obtain ⟨raw, hkey⟩ := hvalid.publicPinned
  refine fromFile_eq_ok.2 ⟨_, loadJson_privateJson (canonical_document.2 ?_)
    (sorted_document.2 ?_) hwritten, ?_,
    registered_replaced (registered_of_fromFile hfile) hfresh hvalid⟩
  · refine List.forall_mem_append.2 ⟨hcanonical, List.forall_mem_singleton.2 ?_⟩
    exact canonicalWithin_toJson hid horg (scalar_of_parsePublicKey hkey)
      (scalar_of_hex256 hvalid.digest)
  · exact List.forall_mem_append.2 ⟨hsorted, List.forall_mem_singleton.2 (sorted_toJson _)⟩
  · rw [List.mapM_append, hitems, replaced, List.map_append]
    rfl

/-- What was issued to an auditor can be used, and nothing else has changed. -/
def LeavesLoadable (P : Platform) (before : List Auditor) (auditor : Auditor) (token : PyStr)
    (after : Bytes) : Prop :=
  ∃ tokens, fromFile P (some after) = .ok tokens ∧
    resolve P tokens token = .ok (some auditor) ∧
    ∀ other held, resolve P before other = .ok (some held) →
      resolve P tokens other =
        .ok (if held.auditorId = auditor.auditorId then none else some held)

/-- A token that is issued is found, the tokens of other auditors stay, and the earlier one of
    the auditor is gone, just when the auditor and its organization have no lone surrogates:
    otherwise the file is written and cannot be read. -/
theorem issueToken_loadable_iff (P : Platform) {file : Option Bytes} {before : List Auditor}
    {auditorId org publicKey : PyStr} {secret after : Bytes} (hsecret : secret.length = 32)
    (hfile : fromFile P file = .ok before)
    (hfresh : ∀ a ∈ before,
      a.tokenSha256 ≠ (issued P auditorId org publicKey secret).tokenSha256)
    (hissue : issueToken P file auditorId org publicKey secret = .ok after) :
    LeavesLoadable P before (issued P auditorId org publicKey secret) (urlEncode secret) after ↔
      Scalar auditorId ∧ Scalar org := by
  constructor
  · rintro ⟨tokens, hread, hresolve, -⟩
    have hr := registered_of_fromFile hread
    obtain ⟨-, raw, -, hmem, -⟩ := (resolve_eq_some hr.distinct).1 hresolve
    exact scalar_of_fromFile hread hmem
  · rintro ⟨hid, horg⟩
    have hr := registered_of_fromFile hfile
    have hvalid := (issueToken_eq_ok hfile hissue).1
    have hlen : 22 ≤ (urlEncode secret).length := by
      rw [urlEncode_length, hsecret]
      decide
    exact ⟨_, fromFile_issueToken hfile hfresh hissue hid horg,
      (resolve_eq_some (registered_replaced hr hfresh hvalid).distinct).2
        ⟨hlen, _, encodeUtf8_of_scalar (scalar_urlEncode secret), mem_replaced.2 (.inr rfl), rfl⟩,
      fun other held => resolve_replaced hr hfresh hvalid⟩

/-- A public key, as it is written on the command line. -/
def sampleKey : PyStr := py "ed25519:" ++ b64encode (List.replicate 32 7)

/-- The file of one auditor. -/
def sampleFile (a : Auditor) : Bytes := utf8 ((document [a.toJson]).indented 0 ++ [cp '\n'])

set_option maxRecDepth 10000 in
/-- A second token for an auditor, in the place of the first one. -/
theorem issueToken_loadable_again :
    let first := issued .sample (py "alice") (py "example") sampleKey (List.replicate 32 8)
    let second := issued .sample (py "alice") [] sampleKey (List.replicate 32 9)
    LeavesLoadable .sample [first] second (urlEncode (List.replicate 32 9)) (sampleFile second) := by
  intro first second
  have hfile : fromFile .sample (some (sampleFile first)) = .ok [first] := by decide +kernel
  exact (issueToken_loadable_iff .sample (by decide) hfile (by decide +kernel)
    (by decide +kernel)).2 (by decide)

set_option maxRecDepth 10000 in
/-- The name of an auditor whose first byte on the command line is `0x80`: the file is written,
    and it cannot be read afterwards. -/
theorem issueToken_unloadable :
    let name : PyStr := [Fin.ofNat _ 0xDC80]
    let auditor := issued .sample name [] sampleKey (List.replicate 32 9)
    fromFile .sample none = .ok [] ∧
      issueToken .sample none name [] sampleKey (List.replicate 32 9) =
        .ok (sampleFile auditor) ∧
      fromFile .sample (some (sampleFile auditor)) = .error (.raised (.protocolError
        "invalid protocol JSON: CCJ-1 strings must not contain lone surrogates")) ∧
      ¬LeavesLoadable .sample [] auditor (urlEncode (List.replicate 32 9))
        (sampleFile auditor) := by
  intro name auditor
  have hread : fromFile .sample (some (sampleFile auditor)) = .error (.raised (.protocolError
      "invalid protocol JSON: CCJ-1 strings must not contain lone surrogates")) := by
    decide +kernel
  refine ⟨by decide +kernel, by decide +kernel, hread, ?_⟩
  rintro ⟨tokens, htokens, -⟩
  rw [hread] at htokens
  cases htokens

/-! ## Issuing again and again -/

/-- The arguments of one call, and the random bytes it draws. -/
structure Issue where
  auditorId : PyStr
  org : PyStr
  publicKey : PyStr
  secret : Bytes

variable (P) in
/-- The auditor of a call. -/
def Issue.auditor (i : Issue) : Auditor := issued P i.auditorId i.org i.publicKey i.secret

variable (P) in
/-- The file after a call; one that is refused leaves it as it was. -/
def Issue.file (file : Option Bytes) (i : Issue) : Option Bytes :=
  match issueToken P file i.auditorId i.org i.publicKey i.secret with
  | .ok after => some after
  | .error _ => file

/-- Auditors and later calls with digests of their own. -/
def Fresh (P : Platform) (before : List Auditor) (issues : List Issue) : Prop :=
  (before.map (·.tokenSha256) ++ issues.map fun i => (i.auditor P).tokenSha256).Nodup

/-- One call: the file can be read before and after it. -/
theorem fromFile_step {file : Option Bytes} {before : List Auditor} {i : Issue}
    {issues : List Issue} (hfile : fromFile P file = .ok before)
    (hfresh : Fresh P before (i :: issues)) (hid : Scalar i.auditorId) (horg : Scalar i.org) :
    ∃ after, fromFile P (i.file P file) = .ok after ∧ Fresh P after issues := by
  have hnew : ∀ a ∈ before, a.tokenSha256 ≠ (i.auditor P).tokenSha256 := fun a ha =>
    (List.nodup_append.1 hfresh).2.2 _ (List.mem_map_of_mem ha) _ List.mem_cons_self
  rw [Issue.file]
  cases hissue : issueToken P file i.auditorId i.org i.publicKey i.secret with
  | error e =>
    exact ⟨before, hfile, hfresh.sublist ((List.sublist_cons_self _ _).append_left _)⟩
  | ok raw =>
    refine ⟨_, fromFile_issueToken hfile hnew hissue hid horg, hfresh.sublist ?_⟩
    rw [replaced, List.map_append, List.append_assoc]
    exact List.Sublist.append (List.filter_sublist.map _) (.refl _)

/-- However often tokens are issued, the service can start with the file. -/
theorem fromFile_run {issues : List Issue} {file : Option Bytes} {before : List Auditor}
    (hfile : fromFile P file = .ok before) (hfresh : Fresh P before issues)
    (hscalar : ∀ i ∈ issues, Scalar i.auditorId ∧ Scalar i.org) :
    ∃ after, fromFile P (issues.foldl (Issue.file P) file) = .ok after := by
  induction issues generalizing file before with
  | nil => exact ⟨before, hfile⟩
  | cons i issues ih =>
    obtain ⟨⟨hid, horg⟩, hscalar⟩ := List.forall_mem_cons.1 hscalar
    obtain ⟨after, hafter, hlater⟩ := fromFile_step hfile hfresh hid horg
    exact ih hafter hlater hscalar

end Auth

end SkillRegistry
