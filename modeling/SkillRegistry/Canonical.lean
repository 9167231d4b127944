import SkillRegistry.Protocol

/-!
# Canonical JSON is faithful

Signatures, entry hashes and digests are taken over the bytes of canonical JSON, and
protocol objects are read back from them. The encoder checks a value before it writes
it, and the reader scans and parses the bytes under its own rules; both have to agree.

* `scanDepth_dumps`: the scan of the reader counts the nesting of the value written;
* `loadJson_of_canonicalDocument`: what was written is read back;
* `canonicalJson_faithful`: so the encoding is injective, and what is read is written
  again as the same bytes.
-/

namespace SkillRegistry

open Wire

/-! ## The scan -/

/-- The bytes of a text, as the scan sees them. -/
def scanned (s : PyStr) : List Nat := (utf8 s).map UInt8.toNat

@[simp] theorem scanned_append (s t : PyStr) : scanned (s ++ t) = scanned s ++ scanned t := by
  rw [scanned, utf8, List.flatMap_append, List.map_append]
  rfl

theorem scanned_cons (c : CodePoint) (s : PyStr) : scanned (c :: s) = scanned [c] ++ scanned s :=
  scanned_append [c] s

/-- An ASCII character is one byte. -/
theorem scanned_ascii {c : CodePoint} (h : c.val < 0x80) (s : PyStr) :
    scanned (c :: s) = c.val :: scanned s := by
  rw [scanned_cons, scanned, utf8, List.flatMap_singleton, utf8Char, if_pos h, List.map_singleton,
    UInt8.toNat_ofNat', Nat.mod_eq_of_lt (by omega)]
  rfl

/-- The bytes of any other character are none of ASCII. -/
theorem le_of_mem_scanned {c : CodePoint} (h : ¬c.val < 0x80) : ∀ n ∈ scanned [c], 0x80 ≤ n := by
  intro n hn
  rw [scanned, utf8, List.flatMap_singleton, utf8Char, if_neg h] at hn
  have hc := c.isLt
  split_ifs at hn
  · simp only [List.map_cons, List.map_nil, List.mem_cons, List.not_mem_nil, or_false,
      UInt8.toNat_ofNat'] at hn
    omega
  · simp only [List.map_cons, List.map_nil, List.mem_cons, List.not_mem_nil, or_false,
      UInt8.toNat_ofNat'] at hn
    omega
  · simp only [List.map_cons, List.map_nil, List.mem_cons, List.not_mem_nil, or_false,
      UInt8.toNat_ofNat'] at hn
    omega

/-- A byte that the scan passes over outside strings. -/
def Passed (n : Nat) : Prop := n ≠ 0x22 ∧ n ≠ 0x7B ∧ n ≠ 0x5B ∧ n ≠ 0x7D ∧ n ≠ 0x5D

theorem scanDepth_passed {l : List Nat} (h : ∀ n ∈ l, Passed n) (depth : Nat) (r : List Nat) :
    scanDepth depth false false (l ++ r) = scanDepth depth false false r := by
  induction l with
  | nil => rfl
  | cons n l ih =>
    obtain ⟨⟨h₁, h₂, h₃, h₄, h₅⟩, hl⟩ := List.forall_mem_cons.1 h
    rw [List.cons_append, scanDepth, if_neg h₁, if_neg (not_or.2 ⟨h₂, h₃⟩),
      if_neg (not_or.2 ⟨h₄, h₅⟩), ih hl]

theorem scanDepth_inString {l : List Nat} (h : ∀ n ∈ l, n ≠ 0x5C ∧ n ≠ 0x22) (depth : Nat)
    (r : List Nat) : scanDepth depth true false (l ++ r) = scanDepth depth true false r := by
  induction l with
  | nil => rfl
  | cons n l ih =>
    obtain ⟨⟨h₁, h₂⟩, hl⟩ := List.forall_mem_cons.1 h
    rw [List.cons_append, scanDepth, if_neg h₁, if_neg h₂, ih hl]

/-- An escape stays inside its string. -/
theorem scanDepth_escape (c : CodePoint) (depth : Nat) (r : List Nat) :
    scanDepth depth true false (scanned (Json.escape c) ++ r) = scanDepth depth true false r := by
  have two (d : CodePoint) (hd : d.val < 0x80) :
      scanDepth depth true false (scanned [cp '\\', d] ++ r) = scanDepth depth true false r := by
    rw [scanned_ascii (by decide), scanned_ascii hd]
    rfl
  have hex {n : Nat} (hn : n < 16) : (hexDigit n).val < 0x80 ∧ (hexDigit n).val ≠ 0x5C ∧
      (hexDigit n).val ≠ 0x22 := by
    revert n
    decide
  unfold Json.escape
  split_ifs with h₁ h₂ h₃ h₄ h₅ h₆ h₇ h₈
  · exact two _ (by decide)
  · exact two _ (by decide)
  · exact two _ (by decide)
  · exact two _ (by decide)
  · exact two _ (by decide)
  · exact two _ (by decide)
  · exact two _ (by decide)
  · obtain ⟨hx, hx₁, hx₂⟩ := hex (n := c.val / 16) (by omega)
    obtain ⟨hy, hy₁, hy₂⟩ := hex (n := c.val % 16) (by omega)
    rw [scanned_append, List.append_assoc]
    change scanDepth depth true false (scanned [cp '\\', cp 'u', cp '0', cp '0'] ++ _) = _
    rw [scanned_ascii (by decide), scanned_ascii (by decide), scanned_ascii (by decide),
      scanned_ascii (by decide), scanned_ascii hx, scanned_ascii hy]
    -- The character after the backslash is skipped, and the digits are plain.
    change scanDepth depth true false ([(hexDigit (c.val / 16)).val, (hexDigit (c.val % 16)).val] ++
      r) = _
    refine scanDepth_inString (fun n hn => ?_) depth r
    rcases List.mem_pair.1 hn with rfl | rfl
    · exact ⟨hx₁, hx₂⟩
    · exact ⟨hy₁, hy₂⟩
  · refine scanDepth_inString (fun n hn => ?_) depth r
    by_cases hc : c.val < 0x80
    · rw [scanned_ascii hc] at hn
      obtain rfl := List.mem_singleton.1 hn
      exact ⟨fun h => h₂ (Fin.ext h), fun h => h₁ (Fin.ext h)⟩
    · have := le_of_mem_scanned hc n hn
      omega

/-- A string literal does not change the depth. -/
theorem scanDepth_quote (s : PyStr) (depth : Nat) (r : List Nat) :
    scanDepth depth false false (scanned (Json.quote s) ++ r) = scanDepth depth false false r := by
  have inside : scanDepth depth true false (scanned (s.flatMap Json.escape) ++ (0x22 :: r)) =
      scanDepth depth false false r := by
    induction s with
    | nil => rfl
    | cons c s ih => rw [List.flatMap_cons, scanned_append, List.append_assoc, scanDepth_escape, ih]
  rw [Json.quote, scanned_ascii (by decide), scanned_append, List.cons_append, List.append_assoc]
  exact inside

theorem scanDepth_intText (n : Int) (depth : Nat) (r : List Nat) :
    scanDepth depth false false (scanned (intText n) ++ r) = scanDepth depth false false r := by
  have digits (m : Nat) : ∀ n ∈ scanned (decimal m), Passed n := by
    have hd : ∀ c ∈ decimal m, isDigit c = true := fun c hc => isDigit_of_mem_decimal hc
    revert hd
    generalize decimal m = s
    intro hd
    induction s with
    | nil => exact fun n hn => absurd hn List.not_mem_nil
    | cons c s ih =>
      obtain ⟨hc, hs⟩ := List.forall_mem_cons.1 hd
      simp only [isDigit, Bool.and_eq_true, decide_eq_true_eq] at hc
      rw [scanned_ascii (by omega)]
      refine List.forall_mem_cons.2 ⟨?_, ih hs⟩
      unfold Passed
      omega
  refine scanDepth_passed ?_ depth r
  unfold intText
  split_ifs
  · rw [scanned_ascii (by decide)]
    exact List.forall_mem_cons.2 ⟨by unfold Passed; decide, digits _⟩
  · exact digits _

/-- A separator is passed over. -/
theorem scanDepth_separator {c : CodePoint} (h : c = cp ',' ∨ c = cp ':') (depth : Nat) (s : PyStr)
    (r : List Nat) : scanDepth depth false false (scanned (c :: s) ++ r) =
      scanDepth depth false false (scanned s ++ r) := by
  rw [scanned_cons, List.append_assoc]
  refine scanDepth_passed (fun n hn => ?_) depth _
  rcases h with rfl | rfl
  · rw [scanned_ascii (by decide)] at hn
    obtain rfl := List.mem_singleton.1 hn
    unfold Passed
    decide
  · rw [scanned_ascii (by decide)] at hn
    obtain rfl := List.mem_singleton.1 hn
    unfold Passed
    decide

/-- An opening bracket goes one level down. -/
theorem scanDepth_open {c : CodePoint} (h : c = cp '[' ∨ c = cp '{') {depth : Nat}
    (hd : depth + 1 ≤ maxJsonDepth) (s : PyStr) (r : List Nat) :
    scanDepth depth false false (scanned (c :: s) ++ r) =
      scanDepth (depth + 1) false false (scanned s ++ r) := by
  rcases h with rfl | rfl
  · rw [scanned_ascii (by decide), List.cons_append, scanDepth, if_neg (by decide),
      if_pos (by decide), if_neg (by omega)]
  · rw [scanned_ascii (by decide), List.cons_append, scanDepth, if_neg (by decide),
      if_pos (by decide), if_neg (by omega)]

/-- A closing bracket comes back up. -/
theorem scanDepth_close {c : CodePoint} (h : c = cp ']' ∨ c = cp '}') (depth : Nat) (r : List Nat) :
    scanDepth (depth + 1) false false (scanned [c] ++ r) = scanDepth depth false false r := by
  rcases h with rfl | rfl
  · rw [scanned_ascii (by decide)]
    rfl
  · rw [scanned_ascii (by decide)]
    rfl

mutual

/-- The scan of the text of a value passes when the value does not nest too deep, and is
    back where it was. -/
theorem scanDepth_dumps {v : Json} (hv : v.Every IsCanonical) (depth : Nat)
    (hd : v.depth = 0 ∨ depth + v.depth ≤ maxJsonDepth) (r : List Nat) :
    scanDepth depth false false (scanned v.dumps ++ r) = scanDepth depth false false r := by
  match v with
  | .null => rfl
  | .bool true => rfl
  | .bool false => rfl
  | .int n => exact scanDepth_intText n depth r
  | .float t => exact hv.elim
  | .str s => exact scanDepth_quote s depth r
  | .arr [] =>
    rw [Json.depth] at hd
    rw [Json.dumps, show py "[]" = [cp '[', cp ']'] from rfl, scanDepth_open (.inl rfl) (by omega),
      scanDepth_close (.inl rfl)]
  | .arr (v :: items) =>
    rw [Json.depth, Json.depthItems] at hd
    rw [Json.dumps, scanDepth_open (.inl rfl) (by omega), scanned_append, List.append_assoc,
      scanDepth_dumps hv.2.1 (depth + 1) (by omega), scanDepth_dumpsItems hv.2.2 depth (by omega)]
  | .obj [] =>
    rw [Json.depth] at hd
    rw [Json.dumps, show py "{}" = [cp '{', cp '}'] from rfl, scanDepth_open (.inr rfl) (by omega),
      scanDepth_close (.inr rfl)]
  | .obj ((k, v) :: members) =>
    rw [Json.depth, Json.depthMembers] at hd
    rw [Json.dumps, scanDepth_open (.inr rfl) (by omega), scanned_append, List.append_assoc,
      scanDepth_quote, scanDepth_separator (.inr rfl), scanned_append, List.append_assoc,
      scanDepth_dumps hv.2.1 (depth + 1) (by omega), scanDepth_dumpsMembers hv.2.2 depth (by omega)]

theorem scanDepth_dumpsItems {items : List Json} (hv : Json.EveryItem IsCanonical items)
    (depth : Nat) (hd : Json.depthItems items = 0 ∨ depth + 1 + Json.depthItems items ≤ maxJsonDepth)
    (r : List Nat) :
    scanDepth (depth + 1) false false (scanned (Json.dumpsItems items) ++ r) =
      scanDepth depth false false r := by
  match items with
  | [] => exact scanDepth_close (.inl rfl) depth r
  | v :: items =>
    rw [Json.depthItems] at hd
    rw [Json.dumpsItems, scanDepth_separator (.inl rfl), scanned_append, List.append_assoc,
      scanDepth_dumps hv.1 (depth + 1) (by omega), scanDepth_dumpsItems hv.2 depth (by omega)]

theorem scanDepth_dumpsMembers {members : List (PyStr × Json)}
    (hv : Json.EveryMember IsCanonical members) (depth : Nat)
    (hd : Json.depthMembers members = 0 ∨ depth + 1 + Json.depthMembers members ≤ maxJsonDepth)
    (r : List Nat) :
    scanDepth (depth + 1) false false (scanned (Json.dumpsMembers members) ++ r) =
      scanDepth depth false false r := by
  match members with
  | [] => exact scanDepth_close (.inr rfl) depth r
  | (k, v) :: members =>
    rw [Json.depthMembers] at hd
    rw [Json.dumpsMembers, scanDepth_separator (.inl rfl), scanned_append, List.append_assoc,
      scanDepth_quote, scanDepth_separator (.inr rfl), scanned_append, List.append_assoc,
      scanDepth_dumps hv.1 (depth + 1) (by omega), scanDepth_dumpsMembers hv.2 depth (by omega)]

end

/-! ## Reading back -/

/-- A text without NUL has no zero byte. -/
theorem ne_zero_of_mem_utf8 {s : PyStr} (hs : ∀ c ∈ s, 0 < c.val) : ∀ x ∈ utf8 s, x ≠ 0 := by
  rintro x hx rfl
  obtain ⟨c, hc, hx⟩ := List.mem_flatMap.1 hx
  have hmem : (0 : UInt8).toNat ∈ scanned [c] :=
    List.mem_map_of_mem (List.mem_flatMap.2 ⟨c, List.mem_singleton_self c, hx⟩)
  have hpos := hs c hc
  by_cases hlt : c.val < 0x80
  · rw [scanned_ascii hlt] at hmem
    have h0 : (0 : UInt8).toNat = c.val := List.mem_singleton.1 hmem
    rw [← h0] at hpos
    exact absurd hpos (by decide)
  · exact absurd (le_of_mem_scanned hlt _ hmem) (by decide)

/-- The bytes of a text without NUL that starts with an ASCII character are taken for
    UTF-8. -/
theorem decodeText_utf8 {c : CodePoint} {s : PyStr} (hc : c.val < 0x80)
    (hs : ∀ d ∈ c :: s, 0 < d.val) : decodeText (utf8 (c :: s)) = some (c :: s) := by
  have hx : utf8 (c :: s) = .ofNat c.val :: utf8 s := by
    rw [utf8, List.flatMap_cons, utf8Char, if_pos hc]
    rfl
  have hpos := hs c List.mem_cons_self
  have hval : (UInt8.ofNat c.val).toNat = c.val := by
    rw [UInt8.toNat_ofNat', Nat.mod_eq_of_lt (by omega)]
  have hhead : (utf8 s).head? ≠ some 0 := fun h =>
    ne_zero_of_mem_utf8 (fun d hd => hs d (List.mem_cons_of_mem _ hd)) 0 (List.mem_of_head? h) rfl
  have hutf8 : detectEncoding (utf8 (c :: s)) = .utf8 := by
    rw [hx]
    refine detectEncoding_of_ascii ⟨?_, ?_⟩ hhead
    · rw [UInt8.lt_iff_toNat_lt, hval]
      exact hpos
    · rw [UInt8.lt_iff_toNat_lt, hval]
      exact hc
  rw [decodeText, hutf8]
  exact decodeUtf8_utf8 (c :: s)

/-- The text of a canonical value starts with an ASCII character. -/
theorem dumps_ascii {v : Json} (hv : v.Every IsCanonical) :
    ∃ c s, v.dumps = c :: s ∧ c.val < 0x80 := by
  match v with
  | .null => exact ⟨_, _, rfl, by decide⟩
  | .bool true => exact ⟨_, _, rfl, by decide⟩
  | .bool false => exact ⟨_, _, rfl, by decide⟩
  | .int n =>
    obtain ⟨c, s, hc, -⟩ := Json.dumps_head (v := .int n) trivial
    refine ⟨c, s, hc, ?_⟩
    have hmem : c ∈ intText n := by
      rw [show intText n = c :: s from hc]
      exact List.mem_cons_self
    exact Json.intText_forall (p := fun d => d.val < 0x80) (fun _ _ h => h) n c hmem
  | .float t => exact hv.elim
  | .str s => exact ⟨_, _, rfl, by decide⟩
  | .arr [] => exact ⟨_, _, rfl, by decide⟩
  | .arr (_ :: _) => exact ⟨_, _, rfl, by decide⟩
  | .obj [] => exact ⟨_, _, rfl, by decide⟩
  | .obj ((_, _) :: _) => exact ⟨_, _, rfl, by decide⟩

/-- `object_pairs` makes a dictionary of pairs in the order of their keys. -/
theorem objectPairs_append {members d : Dict} (h : Dict.Sorted (d ++ members)) :
    objectPairs members d = .ok (.obj (d ++ members)) := by
  induction members generalizing d with
  | nil => rw [List.append_nil]; rfl
  | cons m members ih =>
    obtain ⟨k, v⟩ := m
    have hlt : ∀ m ∈ d, m.1 < k := fun m hm =>
      (List.pairwise_append.1 h).2.2 m hm (k, v) List.mem_cons_self
    have hnone : Dict.get? d k = none := by
      rw [Dict.get?_eq_none]
      intro hk
      obtain ⟨m, hm, rfl⟩ := List.mem_map.1 hk
      exact absurd (hlt m hm) (lt_irrefl _)
    rw [objectPairs, hnone, if_neg (by simp), Dict.insert_of_forall_lt hlt, ih, List.append_assoc]
    · rfl
    · rwa [List.append_assoc]

/-- A safe integer is read as it was written. -/
theorem parseInteger_intText {n : Int} (h : -maxSafeInteger ≤ n ∧ n ≤ maxSafeInteger) :
    parseInteger (intText n) = .ok (.int n) := by
  have hfit : digitsFit (intText n) = true := intsFit_of_canonical (v := .int n) h
  have hint : pyInt (intText n) = .ok n := by rw [pyInt, if_pos hfit, intOf_intText]
  have hne : intText n ≠ py "-0" := by
    intro he
    have h0 := intOf_intText n
    rw [he] at h0
    have hn : n = 0 := h0.symm.trans (by decide)
    rw [hn] at he
    exact absurd he (by decide)
  rw [parseInteger, hint]
  change (if _ then _ else _) = _
  rw [if_neg (not_or.2 ⟨hne, not_not.2 h⟩)]

variable {P : Platform}

/-- The hooks of protocol JSON keep a canonical value. -/
theorem protocolHooks_keep {v : Json} (hv : v.Every IsCanonical) (hs : v.Sorted) :
    v.Every (protocolHooks P).Keeps := by
  refine (Json.Every.and hv hs).imp fun w hw => ?_
  obtain ⟨hc, hd⟩ := hw
  cases w with
  | int n => exact parseInteger_intText hc
  | float t => exact hc.elim
  | obj members => exact objectPairs_append (d := []) hd
  | null | bool | str | arr => trivial

theorem mapError_eq_ok {ε ε' α : Type} {f : ε → ε'} {x : Except ε α} {a : α} :
    x.mapError f = .ok a ↔ x = .ok a := by
  cases x with
  | error e => exact ⟨fun h => (by cases h), fun h => (by cases h)⟩
  | ok b => exact ⟨fun h => congrArg _ (Except.ok.inj h), fun h => congrArg _ (Except.ok.inj h)⟩

/-- What was written is read back. -/
theorem loadJson_of_canonicalDocument {v : Json} {b : Bytes} (hs : v.Sorted)
    (h : canonicalDocument P v = .ok b) : loadJson P b = .ok v := by
  obtain ⟨⟨hv, hd⟩, rfl⟩ := canonicalDocument_eq_ok.1 h
  obtain ⟨c, s, hdumps, hc⟩ := dumps_ascii hv
  have hpos : ∀ d ∈ v.dumps, 0 < d.val := by
    refine Json.dumps_forall (fun d hd _ => by omega) (hv.imp fun w hw => ?_)
    cases w with
    | float t => exact hw.elim
    | str s => exact fun d _ hd => by omega
    | obj members => exact fun m _ d _ hd => by omega
    | null | bool | int | arr => trivial
  have hnomark : ¬[0xEF, 0xBB, 0xBF].isPrefixOf (utf8 v.dumps) = true := by
    have hne : ((0xEF : UInt8) == .ofNat c.val) = false := by
      refine beq_eq_false_iff_ne.2 fun he => ?_
      have hval : (0xEF : UInt8).toNat = c.val := by
        rw [he, UInt8.toNat_ofNat', Nat.mod_eq_of_lt (by omega)]
      have : (0xEF : UInt8).toNat = 0xEF := rfl
      omega
    rw [hdumps, utf8, List.flatMap_cons, utf8Char, if_pos hc, List.cons_append, List.isPrefixOf, hne]
    simp
  have hscan : checkJsonDepth ((utf8 v.dumps).map (·.toNat)) = .ok () := by
    have := scanDepth_dumps hv 0 (.inr (by omega)) []
    rwa [List.append_nil] at this
  have hdecode : decodeText (utf8 v.dumps) = some v.dumps := by
    rw [hdumps] at hpos ⊢
    exact decodeText_utf8 hc hpos
  have hload : loads (protocolHooks P) v.dumps = .ok v := by
    rw [loads_dumps _ (Canonical.numeral hv)]
    refine interp_eq_self _ (protocolHooks_keep hv hs) 0 fun k hk => if_neg ?_
    have := P.nesting_lt
    have : v.depth ≤ 100 := hd
    omega
  rw [loadJson, if_neg hnomark, mapError_eq_ok, hscan, hdecode]
  change (loads (protocolHooks P) v.dumps >>= _) = _
  rw [hload]
  change (canonicalDocument P v >>= _) = _
  rw [h]
  rfl

/-! ## What is read -/

theorem objectPairs_sorted {members d : Dict} {v : Json} (h : objectPairs members d = .ok v)
    (hd : (Json.obj d).Sorted) (hm : ∀ m ∈ members, m.2.Sorted) : v.Sorted := by
  induction members generalizing d with
  | nil =>
    obtain rfl := Except.ok.inj h
    exact hd
  | cons m members ih =>
    obtain ⟨k, w⟩ := m
    obtain ⟨hw, hm⟩ := List.forall_mem_cons.1 hm
    rw [objectPairs] at h
    split_ifs at h
    exact ih h (sorted_insert hd hw) hm

/-- The hooks of protocol JSON make dictionaries of objects. -/
theorem loads_protocol_sorted {t : PyStr} {v : Json} (h : loads (protocolHooks P) t = .ok v) :
    v.Sorted := by
  refine loads_every (h := protocolHooks P) ⟨trivial, fun _ => trivial, fun _ => trivial,
    fun _ => trivial, ?_, ?_, ?_, ?_⟩ h
  · intro t v hv
    obtain ⟨n, -, hv⟩ := Wire.Except.bind_eq_ok hv
    split_ifs at hv
    obtain rfl := Except.ok.inj hv
    trivial
  · intro t v hv
    cases hv
  · intro t v hv
    cases hv
  · intro members v hv hm
    exact objectPairs_sorted hv (Json.every_obj.2 ⟨List.Pairwise.nil, List.forall_mem_nil _⟩) hm

/-- What is read from bytes is made of dictionaries, and canonical. -/
theorem loadJson_eq_ok {raw : Bytes} {v : Json} (h : loadJson P raw = .ok v) :
    v.Sorted ∧ ∃ b, canonicalDocument P v = .ok b := by
  unfold loadJson at h
  split_ifs at h
  obtain ⟨-, h⟩ := check_bind_eq_ok.1 (mapError_eq_ok.1 h)
  split at h
  · obtain ⟨w, hw, h⟩ := Wire.Except.bind_eq_ok h
    obtain ⟨b, hb, h⟩ := Wire.Except.bind_eq_ok h
    obtain rfl := Except.ok.inj h
    exact ⟨loads_protocol_sorted hw, b, hb⟩
  · obtain ⟨w, hw, -⟩ := Wire.Except.bind_eq_ok h
    cases hw

/-- What is read from a text is made of dictionaries, and canonical. -/
theorem loadJsonText_eq_ok {raw : PyStr} {v : Json} (h : loadJsonText P raw = .ok v) :
    v.Sorted ∧ ∃ b, canonicalDocument P v = .ok b := by
  unfold loadJsonText at h
  split_ifs at h
  obtain ⟨-, h⟩ := check_bind_eq_ok.1 (mapError_eq_ok.1 h)
  obtain ⟨w, hw, h⟩ := Wire.Except.bind_eq_ok h
  obtain ⟨b, hb, h⟩ := Wire.Except.bind_eq_ok h
  obtain rfl := Except.ok.inj h
  exact ⟨loads_protocol_sorted hw, b, hb⟩

/-! ## Faithfulness -/

/-- A value that is encoded is read back from its bytes, so that the encoding is injective;
    and what is read, from bytes or from a text, is encoded, and reading and encoding it
    once more gives the same bytes. -/
theorem canonicalJson_faithful (P : Platform) :
    (∀ v b, v.Sorted → canonicalDocument P v = .ok b → loadJson P b = .ok v) ∧
    (∀ v w b, v.Sorted → w.Sorted → canonicalDocument P v = .ok b → canonicalDocument P w = .ok b →
      v = w) ∧
    (∀ raw v, loadJson P raw = .ok v → ∃ b w, canonicalDocument P v = .ok b ∧
      loadJson P b = .ok w ∧ canonicalDocument P w = .ok b) ∧
    (∀ raw v, loadJsonText P raw = .ok v → ∃ b w, canonicalDocument P v = .ok b ∧
      loadJson P b = .ok w ∧ canonicalDocument P w = .ok b) := by
  refine ⟨fun v b hs h => loadJson_of_canonicalDocument hs h, fun v w b hv hw h h' => ?_,
    fun raw v h => ?_, fun raw v h => ?_⟩
  · have hload := loadJson_of_canonicalDocument hv h
    exact Except.ok.inj (hload.symm.trans (loadJson_of_canonicalDocument hw h'))
  · obtain ⟨hs, b, hb⟩ := loadJson_eq_ok h
    exact ⟨b, v, hb, loadJson_of_canonicalDocument hs hb, hb⟩
  · obtain ⟨hs, b, hb⟩ := loadJsonText_eq_ok h
    exact ⟨b, v, hb, loadJson_of_canonicalDocument hs hb, hb⟩

end SkillRegistry
