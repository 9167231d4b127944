import SkillRegistry.Canonical
import SkillRegistry.Wire.Grammar

/-!
# Bytes and texts

`load_json` reads bytes and texts by different code: another test for the byte-order mark,
another scan, and for bytes a decoder that looks for UTF-16 and UTF-32 as well.

* `scanDepth_scanned`: the scan of the bytes of a text is that of its characters;
* `loads_scalar`: a text that is accepted has no lone surrogate and no zero;
* `loadJson_utf8`: bytes taken for UTF-8 are read as the text they are decoded to;
* `bytes_asText_iff`: when bytes are read exactly as the text they encode in UTF-8.
-/

namespace SkillRegistry

open Wire

variable {P : Platform}

/-! ## The scan of characters -/

/-- A byte or character that is not ASCII is passed over, and ends an escape. -/
theorem scanDepth_high {n : Nat} (h : 0x80 ≤ n) (depth : Nat) (inString escaped : Bool)
    (r : List Nat) : scanDepth depth inString escaped (n :: r) =
      scanDepth depth inString (!inString && escaped) r := by
  cases inString with
  | true =>
    cases escaped with
    | true => rfl
    | false =>
      rw [scanDepth, if_neg (by omega), if_neg (by omega)]
      rfl
  | false =>
    rw [scanDepth, if_neg (by omega), if_neg (by omega), if_neg (by omega)]
    rfl

theorem scanDepth_highs {n : Nat} {l : List Nat} (h : ∀ m ∈ n :: l, 0x80 ≤ m) (depth : Nat)
    (inString escaped : Bool) (r : List Nat) : scanDepth depth inString escaped (n :: l ++ r) =
      scanDepth depth inString (!inString && escaped) r := by
  induction l generalizing n escaped with
  | nil => exact scanDepth_high (h n List.mem_cons_self) depth inString escaped r
  | cons m l ih =>
    obtain ⟨hn, hl⟩ := List.forall_mem_cons.1 h
    rw [List.cons_append, scanDepth_high hn, ih hl]
    cases inString <;> rfl

/-- The scan of the bytes of a text is that of its characters. -/
theorem scanDepth_scanned (t : PyStr) (depth : Nat) (inString escaped : Bool) :
    scanDepth depth inString escaped (scanned t) =
      scanDepth depth inString escaped (t.map (·.val)) := by
  induction t generalizing depth inString escaped with
  | nil => rfl
  | cons c t ih =>
    by_cases hc : c.val < 0x80
    · rw [scanned_ascii hc, List.map_cons]
      cases inString with
      | true =>
        cases escaped with
        | true => exact ih _ _ _
        | false =>
          rw [scanDepth, scanDepth]
          split_ifs <;> exact ih _ _ _
      | false =>
        rw [scanDepth, scanDepth]
        split_ifs <;> first | rfl | exact ih _ _ _
    · have hhigh := le_of_mem_scanned hc
      obtain ⟨n, l, hl⟩ : ∃ n l, scanned [c] = n :: l := by
        have hne : scanned [c] ≠ [] := by
          rw [scanned, utf8, List.flatMap_singleton, utf8Char]
          split_ifs <;> exact List.cons_ne_nil _ _
        exact List.exists_cons_of_ne_nil hne
      rw [hl] at hhigh
      rw [scanned_cons, hl, scanDepth_highs hhigh, List.map_cons, scanDepth_high (by omega), ih]

/-! ## What is accepted -/

theorem objectPairs_get? {members d : Dict} {v : Json} (h : objectPairs members d = .ok v) :
    ∃ d' : Dict, v = .obj d' ∧ (∀ m ∈ members, d'.get? m.1 = some m.2) ∧
      ∀ k w, d.get? k = some w → d'.get? k = some w := by
  induction members generalizing d with
  | nil => exact ⟨d, (Except.ok.inj h).symm, List.forall_mem_nil _, fun _ _ hk => hk⟩
  | cons m members ih =>
    obtain ⟨k, w⟩ := m
    rw [objectPairs] at h
    split_ifs at h with hseen
    obtain ⟨d', rfl, hm, hd⟩ := ih h
    refine ⟨d', rfl, List.forall_mem_cons.2 ⟨hd k w ?_, hm⟩, fun l u hl => hd l u ?_⟩
    · rw [Dict.get?_insert, if_pos rfl]
    · rw [Dict.get?_insert, if_neg, hl]
      rintro rfl
      exact hseen (hl ▸ rfl)

/-- No pair of an object is dropped, so that its keys and values are those of the value. -/
theorem protocolHooks_reveals : (protocolHooks P).Reveals IsCanonical fun c => ¬IsSurrogate c where
  str h := h
  pairs h hv m hm := by
    obtain ⟨d, rfl, hd, -⟩ := objectPairs_get? h
    obtain ⟨hkeys, hvalues⟩ := Json.every_obj.1 hv
    have hmem := Dict.mem_of_get? (hd m hm)
    exact ⟨hkeys _ hmem, hvalues _ hmem⟩

/-- A text that is accepted has no lone surrogate and no zero. -/
theorem loads_scalar {t : PyStr} {v : Json} (h : loads (protocolHooks P) t = .ok v)
    (hv : v.Every IsCanonical) : ∀ c ∈ t, 0 < c.val ∧ ¬IsSurrogate c := by
  refine loads_over protocolHooks_reveals (fun c h₁ h₂ => ⟨by omega, fun hs => ?_⟩)
    (fun c h₁ h₂ => ⟨by omega, h₂⟩) h hv
  have := hs.1
  omega

theorem loadJsonText_iff {t : PyStr} {v : Json} : loadJsonText P t = .ok v ↔
    t.head? ≠ some byteOrderMark ∧ checkJsonDepth (t.map (·.val)) = .ok () ∧
      loads (protocolHooks P) t = .ok v ∧ Canonical v := by
  rw [loadJsonText]
  split_ifs with hmark
  · exact ⟨fun h => (by cases h), fun h => absurd hmark h.1⟩
  · rw [mapError_eq_ok, check_bind_eq_ok]
    constructor
    · rintro ⟨hscan, h⟩
      obtain ⟨w, hw, h⟩ := Wire.Except.bind_eq_ok h
      obtain ⟨b, hb, h⟩ := Wire.Except.bind_eq_ok h
      obtain rfl := Except.ok.inj h
      exact ⟨hmark, hscan, hw, (canonicalDocument_eq_ok.1 hb).1⟩
    · rintro ⟨-, hscan, hload, hv⟩
      refine ⟨hscan, ?_⟩
      rw [hload]
      change (canonicalDocument P v >>= _) = _
      rw [canonicalDocument_eq_ok.2 ⟨hv, rfl⟩]
      rfl

theorem loadJson_iff {b : Bytes} {v : Json} : loadJson P b = .ok v ↔
    detectEncoding b ≠ .utf8Sig ∧ checkJsonDepth (b.map (·.toNat)) = .ok () ∧
      ∃ t, decodeText b = some t ∧ loads (protocolHooks P) t = .ok v ∧ Canonical v := by
  rw [loadJson, ne_eq, detectEncoding_eq_utf8Sig]
  split_ifs with hmark
  · exact ⟨fun h => (by cases h), fun h => absurd hmark h.1⟩
  · rw [mapError_eq_ok, check_bind_eq_ok]
    constructor
    · rintro ⟨hscan, h⟩
      refine ⟨hmark, hscan, ?_⟩
      cases ht : decodeText b with
      | none =>
        rw [ht] at h
        cases h
      | some t =>
        rw [ht] at h
        obtain ⟨w, hw, h⟩ := Wire.Except.bind_eq_ok h
        obtain ⟨b, hb, h⟩ := Wire.Except.bind_eq_ok h
        obtain rfl := Except.ok.inj h
        exact ⟨t, rfl, hw, (canonicalDocument_eq_ok.1 hb).1⟩
    · rintro ⟨-, hscan, t, ht, hload, hv⟩
      refine ⟨hscan, ?_⟩
      rw [ht]
      change (loads (protocolHooks P) t >>= _) = _
      rw [hload]
      change (canonicalDocument P v >>= _) = _
      rw [canonicalDocument_eq_ok.2 ⟨hv, rfl⟩]
      rfl

/-- Bytes taken for UTF-8 are read as the text they are decoded to. -/
theorem loadJson_utf8 {t : PyStr} {v : Json} (h : detectEncoding (utf8 t) = .utf8) :
    loadJson P (utf8 t) = .ok v ↔ loadJsonText P t = .ok v := by
  have hmark : t.head? ≠ some byteOrderMark := by
    intro hm
    have := detectEncoding_eq_utf8Sig.2 ((isPrefixOf_utf8 t).2 hm)
    rw [h] at this
    cases this
  have hscan : checkJsonDepth ((utf8 t).map (·.toNat)) = checkJsonDepth (t.map (·.val)) :=
    scanDepth_scanned t 0 false false
  have hdecode : decodeText (utf8 t) = some t := by
    rw [decodeText, h]
    exact decodeUtf8_utf8 t
  rw [loadJson_iff, loadJsonText_iff, h, hscan, hdecode]
  constructor
  · rintro ⟨-, hs, u, hu, hload⟩
    obtain rfl := Option.some.inj hu
    exact ⟨hmark, hs, hload⟩
  · rintro ⟨-, hs, hload⟩
    exact ⟨by decide, hs, t, rfl, hload⟩

/-! ## What is refused -/

/-- An exception that `load_json` turns into one of the protocol. -/
def Handled (e : PyErr) : Prop := e.isValueError = true ∨ e = .recursionError

theorem Handled.isProtocolError {e : PyErr} (h : Handled e) :
    (loadJsonError e).isProtocolError = true := by
  cases e with
  | recursionError => rfl
  | _ =>
    first
    | rfl
    | exact absurd h (by simp [Handled, PyErr.isValueError])

theorem scanDepth_handled {l : List Nat} {depth : Nat} {inString escaped : Bool} {e : PyErr}
    (h : scanDepth depth inString escaped l = .error e) : Handled e := by
  induction l generalizing depth inString escaped with
  | nil => cases h
  | cons n l ih =>
    cases inString with
    | true =>
      cases escaped with
      | true => exact ih h
      | false =>
        rw [scanDepth] at h
        split_ifs at h <;> exact ih h
    | false =>
      rw [scanDepth] at h
      split_ifs at h
      · exact ih h
      · exact .inl (Except.error.inj h ▸ rfl)
      · exact ih h
      · exact ih h
      · exact ih h

theorem protocolHooks_raises : (protocolHooks P).Raises Handled where
  malformed := .inl rfl
  int {t e} h := by
    rcases Wire.Except.bind_eq_error.1 h with h | ⟨n, -, h⟩
    · unfold pyInt at h
      split_ifs at h
      exact .inl (Except.error.inj h ▸ rfl)
    · split_ifs at h
      exact .inl (Except.error.inj h ▸ rfl)
  float h := .inl (Except.error.inj h ▸ rfl)
  constant h := .inl (Except.error.inj h ▸ rfl)
  pairs {members e} h := by
    change objectPairs members [] = _ at h
    revert h
    generalize ([] : Dict) = d
    intro h
    induction members generalizing d with
    | nil => cases h
    | cons m members ih =>
      rw [objectPairs] at h
      split_ifs at h
      · exact .inl (Except.error.inj h ▸ rfl)
      · exact ih _ h
  nest {depth e} h := by
    change (if _ then _ else _) = _ at h
    split_ifs at h
    exact .inr (Option.some.inj h).symm

theorem validateCcjStr_handled {s : PyStr} {e : PyErr} (h : validateCcjStr s = .error e) :
    Handled e := by
  unfold validateCcjStr at h
  split_ifs at h
  exact .inl (Except.error.inj h ▸ rfl)

mutual

theorem validateCcj_handled {v : Json} {depth : Nat} {e : PyErr}
    (h : validateCcj depth v = .error e) : Handled e := by
  cases v with
  | null | bool => cases h
  | int n =>
    rw [validateCcj] at h
    split_ifs at h
    exact .inl (Except.error.inj h ▸ rfl)
  | float t => exact .inl (Except.error.inj h ▸ rfl)
  | str s => exact validateCcjStr_handled h
  | arr items =>
    rw [validateCcj] at h
    split_ifs at h
    · exact .inl (Except.error.inj h ▸ rfl)
    · exact validateCcjItems_handled h
  | obj members =>
    rw [validateCcj] at h
    split_ifs at h
    · exact .inl (Except.error.inj h ▸ rfl)
    · exact validateCcjMembers_handled h

theorem validateCcjItems_handled {items : List Json} {depth : Nat} {e : PyErr}
    (h : validateCcjItems depth items = .error e) : Handled e := by
  cases items with
  | nil => cases h
  | cons v items =>
    rcases Wire.Except.bind_eq_error.1 h with h | ⟨_, -, h⟩
    · exact validateCcj_handled h
    · exact validateCcjItems_handled h

theorem validateCcjMembers_handled {members : List (PyStr × Json)} {depth : Nat} {e : PyErr}
    (h : validateCcjMembers depth members = .error e) : Handled e := by
  cases members with
  | nil => cases h
  | cons m members =>
    obtain ⟨k, v⟩ := m
    rcases Wire.Except.bind_eq_error.1 h with h | ⟨_, -, h⟩
    · exact validateCcjStr_handled h
    · rcases Wire.Except.bind_eq_error.1 h with h | ⟨_, -, h⟩
      · exact validateCcj_handled h
      · exact validateCcjMembers_handled h

end

theorem canonicalDocument_handled {v : Json} {e : PyErr} (h : canonicalDocument P v = .error e) :
    Handled e := by
  rcases Wire.Except.bind_eq_error.1 h with h | ⟨_, -, h⟩
  · exact validateCcj_handled h
  · rcases Wire.Except.bind_eq_error.1 h with h | ⟨t, -, h⟩
    · unfold jsonDumps at h
      split_ifs at h
      · exact .inl (Except.error.inj h ▸ rfl)
      · cases h
      · exact .inl (Except.error.inj h ▸ rfl)
    · split at h
      · cases h
      · exact .inl (Except.error.inj h ▸ rfl)

theorem mapError_eq_error {ε ε' α : Type} {f : ε → ε'} {x : Except ε α} {e : ε'}
    (h : x.mapError f = .error e) : ∃ e', x = .error e' ∧ f e' = e := by
  cases x with
  | error e' => exact ⟨e', rfl, Except.error.inj h⟩
  | ok a => cases h

/-- Bytes that are refused are refused as an error of the protocol. -/
theorem loadJson_refuses {b : Bytes} {e : PyErr} (h : loadJson P b = .error e) :
    e.isProtocolError = true := by
  rw [loadJson] at h
  split_ifs at h
  · exact Except.error.inj h ▸ rfl
  · obtain ⟨e', he, rfl⟩ := mapError_eq_error h
    refine Handled.isProtocolError ?_
    rcases Wire.Except.bind_eq_error.1 he with h | ⟨_, -, h⟩
    · exact scanDepth_handled h
    · split at h
      · rcases Wire.Except.bind_eq_error.1 h with h | ⟨v, -, h⟩
        · exact loads_raises protocolHooks_raises h
        · rcases Wire.Except.bind_eq_error.1 h with h | ⟨_, -, h⟩
          · exact canonicalDocument_handled h
          · cases h
      · exact .inl (Except.error.inj h ▸ rfl)

/-! ## Bytes as texts -/

/-- The bytes are the UTF-8 encoding of a text without a byte-order mark. -/
def IsUtf8 (b : Bytes) (t : PyStr) : Prop :=
  encodeUtf8 t = some b ∧ t.head? ≠ some byteOrderMark

variable (P) in
/-- Bytes are read exactly as the text they encode in UTF-8, and refused otherwise. -/
structure AsText (b : Bytes) : Prop where
  accepts : ∀ v, loadJson P b = .ok v ↔ ∃ t, IsUtf8 b t ∧ loadJsonText P t = .ok v
  refuses : ∀ e, loadJson P b = .error e → e.isProtocolError = true

variable (P) in
/-- The bytes are taken for UTF-16 or UTF-32, the scan passes over them, and what they are
    decoded to is the text of a canonical value. -/
def Foreign (b : Bytes) : Prop :=
  detectEncoding b ≠ .utf8 ∧ detectEncoding b ≠ .utf8Sig ∧
    checkJsonDepth (b.map (·.toNat)) = .ok () ∧
    ∃ t v, decodeText b = some t ∧ loads (protocolHooks P) t = .ok v ∧ Canonical v

/-- The encoding of a text that is accepted is taken for UTF-8. -/
theorem IsUtf8.detectEncoding {b : Bytes} {t : PyStr} {v : Json} (h : IsUtf8 b t)
    (hv : loadJsonText P t = .ok v) : b = utf8 t ∧ Wire.detectEncoding (utf8 t) = .utf8 := by
  obtain ⟨hb, hmark⟩ := h
  obtain ⟨-, -, hload, hcanonical⟩ := loadJsonText_iff.1 hv
  unfold encodeUtf8 at hb
  split_ifs at hb
  refine ⟨(Option.some.inj hb).symm, detectEncoding_utf8 (fun c hc => ?_) hmark⟩
  exact (loads_scalar hload hcanonical.1 c hc).1

/-- Bytes are read exactly as the text they encode in UTF-8, unless they are the UTF-16 or
    UTF-32 form of a document. -/
theorem bytes_asText_iff (P : Platform) (b : Bytes) : AsText P b ↔ ¬Foreign P b := by
  constructor
  · rintro h ⟨hutf8, hsig, hscan, t, v, ht, hload, hv⟩
    obtain ⟨u, hu, hv⟩ := (h.accepts v).1 (loadJson_iff.2 ⟨hsig, hscan, t, ht, hload, hv⟩)
    obtain ⟨rfl, hd⟩ := hu.detectEncoding hv
    exact hutf8 hd
  · refine fun hforeign => ⟨fun v => ⟨fun h => ?_, ?_⟩, fun e h => loadJson_refuses h⟩
    · obtain ⟨hsig, hscan, t, ht, hload, hv⟩ := loadJson_iff.1 h
      have hutf8 : detectEncoding b = .utf8 := by
        by_contra hne
        exact hforeign ⟨hne, hsig, hscan, t, v, ht, hload, hv⟩
      -- The decoder takes its own encoding only, and passes surrogates, which the value
      -- cannot have.
      have hb : utf8 t = b := by
        rw [decodeText, hutf8] at ht
        exact utf8_of_decodeUtf8 ht
      subst hb
      have htext := (loadJson_utf8 hutf8).1 h
      refine ⟨t, ⟨encodeUtf8_of_scalar fun c hc => (loads_scalar hload hv.1 c hc).2, ?_⟩, htext⟩
      exact (loadJsonText_iff.1 htext).1
    · rintro ⟨t, ht, htext⟩
      obtain ⟨rfl, hd⟩ := ht.detectEncoding htext
      exact (loadJson_utf8 hd).2 htext

/-- `{}` in UTF-16, with the low byte first. -/
def sampleUtf16 : Bytes := [0x7B, 0x00, 0x7D, 0x00]

/-- It is accepted, and no text has this encoding and is accepted. -/
theorem utf16_accepted : loadJson .sample sampleUtf16 = .ok (.obj []) ∧
    ¬(∃ t v, IsUtf8 sampleUtf16 t ∧ loadJsonText .sample t = .ok v) ∧
    ¬AsText .sample sampleUtf16 := by
  have haccepted : loadJson .sample sampleUtf16 = .ok (.obj []) := by decide +kernel
  have hnone : ¬∃ t v, IsUtf8 sampleUtf16 t ∧ loadJsonText .sample t = .ok v := by
    rintro ⟨t, v, ht, hv⟩
    obtain ⟨hb, hd⟩ := ht.detectEncoding hv
    rw [← hb] at hd
    exact absurd hd (by decide)
  refine ⟨haccepted, hnone, fun h => ?_⟩
  obtain ⟨t, ht⟩ := (h.accepts _).1 haccepted
  exact hnone ⟨t, _, ht⟩

end SkillRegistry
