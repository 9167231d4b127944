import SkillRegistry.Decoding

/-!
# The depth of a text

`load_json` counts the brackets of a text outside its strings before it is decoded, and the
canonical check counts the arrays and objects around each value the decoder made. The two
counts agree on every text the decoder can read.

* `scanText` is the scan of a text outside strings, and `nested` what it comes to where a
  value of some depth has been read;
* `KeepsDepth`: the values the hooks make nest as deep as what is written, as they do
  under `protocolHooks` and under `syntaxHooks`, which read the grammar alone;
* `parse_scan`: the scan goes over what is read as a value, and fails exactly where the
  value is too deep;
* `checkJsonDepth_measures`: the scan and the check refuse the same depths.
-/

namespace SkillRegistry

open Wire

variable {P : Platform}

/-! ## The scan over tokens -/

/-- The scan of a text that is not inside a string. -/
def scanText (depth : Nat) (t : PyStr) : Except PyErr Unit :=
  scanDepth depth false false (t.map (·.val))

theorem scanText_over {t r : PyStr} (h : Over IsBare t r) (depth : Nat) :
    scanText depth t = scanText depth r := by
  induction h with
  | refl => rfl
  | cons hc _ ih =>
    obtain ⟨-, -, h₁, h₂, h₃, h₄, h₅⟩ := hc
    rw [← ih, scanText, List.map_cons, scanDepth, if_neg h₁, if_neg (not_or.2 ⟨h₂, h₃⟩),
      if_neg (not_or.2 ⟨h₄, h₅⟩)]
    rfl

theorem scanText_skipBlank (depth : Nat) (t : PyStr) :
    scanText depth t = scanText depth (skipBlank t) :=
  scanText_over (over_skipBlank (fun _ hc => hc) t) depth

/-- A comma or a colon, after white space. -/
theorem scanText_token {c : CodePoint} {t s : PyStr} (hc : IsBare c) (ht : skipBlank t = c :: s)
    (depth : Nat) : scanText depth t = scanText depth s := by
  rw [scanText_skipBlank, ht]
  exact scanText_over (.cons hc (.refl s)) depth

/-- A closing bracket, after white space. -/
theorem scanText_close {c : CodePoint} {t s : PyStr} (hc : c = cp ']' ∨ c = cp '}')
    (ht : skipBlank t = c :: s) (depth : Nat) : scanText (depth + 1) t = scanText depth s := by
  rw [scanText_skipBlank, ht]
  rcases hc with rfl | rfl <;> rfl

/-- An opening bracket. -/
theorem scanText_open {c : CodePoint} (hc : c = cp '[' ∨ c = cp '{') (depth : Nat) (t : PyStr) :
    scanText depth (c :: t) =
      if depth + 1 > maxJsonDepth then .error (.jsonDepthError depthMessage)
      else scanText (depth + 1) t := by
  rcases hc with rfl | rfl <;> rfl

theorem ne_of_hexValue {c : CodePoint} {n : Nat} (h : hexValue c = some n) :
    c.val ≠ 0x5C ∧ c.val ≠ 0x22 := by
  unfold hexValue at h
  split_ifs at h <;> omega

theorem ne_of_hex4 {w x y z u : CodePoint} (h : hex4 w x y z = some u) :
    ∀ n ∈ [w.val, x.val, y.val, z.val], n ≠ 0x5C ∧ n ≠ 0x22 := by
  simp only [hex4, Option.bind_eq_bind, Option.bind_eq_some_iff] at h
  obtain ⟨_, hw, _, hx, _, hy, _, hz, -⟩ := h
  refine List.forall_mem_cons.2 ⟨ne_of_hexValue hw, List.forall_mem_cons.2 ⟨ne_of_hexValue hx,
    List.forall_mem_cons.2 ⟨ne_of_hexValue hy, List.forall_mem_singleton.2 (ne_of_hexValue hz)⟩⟩⟩

/-- The scan leaves a string where the decoder does; the induction is on the escapes and
    characters the decoder takes one by one. -/
theorem scanDepth_scanString {t r : PyStr} {l : List (CodePoint × Bool)}
    (h : scanString t = some (l, r)) (depth : Nat) :
    scanDepth depth true false (t.map (·.val)) = scanText depth r := by
  induction t using scanString.induct generalizing l with
  | case1 => cases h
  | case2 s =>
    rw [scanString_quote] at h
    obtain ⟨-, rfl⟩ := Prod.mk.inj (Option.some.inj h)
    rfl
  | case3 c s hc hcontrol =>
    rw [scanString.eq_def] at h
    simp only [if_neg hc, if_pos hcontrol] at h
    cases h
  | case4 => cases h
  | case5 w x y z s hquote hcontrol ih =>
    cases hu : hex4 w x y z with
    | none =>
      rw [scanString.eq_def] at h
      simp only [if_neg hquote, if_neg hcontrol, if_true, hu, Option.bind_eq_bind,
        Option.bind_none] at h
      cases h
    | some u =>
      rw [scanString_hex4 s hu] at h
      obtain ⟨a, ha, he⟩ := Option.map_eq_some_iff.1 h
      obtain ⟨-, rfl⟩ := Prod.mk.inj he
      -- The scan skips the `u`, and the digits are characters of the string to it.
      rw [← ih ha]
      exact scanDepth_inString (ne_of_hex4 hu) depth _
  | case6 s hs hquote hcontrol =>
    rw [scanString.eq_def] at h
    simp only [if_neg hquote, if_neg hcontrol, if_true] at h
    cases h
  | case7 e s hu hquote hcontrol ih =>
    cases hd : unescape e with
    | none =>
      rw [scanString.eq_def] at h
      simp only [if_neg hquote, if_neg hcontrol, if_true, if_neg hu, hd, Option.bind_eq_bind,
        Option.bind_none] at h
      cases h
    | some d =>
      rw [scanString_unescape s hu hd] at h
      obtain ⟨a, ha, he⟩ := Option.map_eq_some_iff.1 h
      obtain ⟨-, rfl⟩ := Prod.mk.inj he
      exact ih ha
  | case8 c s hquote hcontrol hback ih =>
    rw [scanString_plain s hquote hcontrol hback] at h
    obtain ⟨a, ha, he⟩ := Option.map_eq_some_iff.1 h
    obtain ⟨-, rfl⟩ := Prod.mk.inj he
    rw [← ih ha]
    refine scanDepth_inString (List.forall_mem_singleton.2 ⟨fun hc => ?_, fun hc => ?_⟩) depth _
    · exact hback (Fin.ext hc)
    · exact hquote (Fin.ext hc)

/-- A string. -/
theorem scanText_string {t r s : PyStr} (h : parseString t = some (s, r)) (depth : Nat) :
    scanText depth (cp '"' :: t) = scanText depth r := by
  obtain ⟨a, ha, he⟩ := Option.map_eq_some_iff.1 h
  obtain ⟨-, rfl⟩ := Prod.mk.inj he
  exact scanDepth_scanString ha depth

/-! ## The scan over values -/

/-- What the scan comes to when it goes over a part that nests so deep, and then to `rest`. -/
def nested (depth height : Nat) (rest : Except PyErr Unit) : Except PyErr Unit :=
  if height = 0 ∨ depth + height ≤ maxJsonDepth then rest
  else .error (.jsonDepthError depthMessage)

/-- A part after a part nests as deep as the deeper one. -/
theorem nested_nested (depth m n : Nat) (rest : Except PyErr Unit) :
    nested depth m (nested depth n rest) = nested depth (max m n) rest := by
  unfold nested
  split_ifs <;> first | rfl | omega

/-- Brackets around a part nest it one deeper. -/
theorem nested_open (depth n : Nat) (rest : Except PyErr Unit) :
    (if depth + 1 > maxJsonDepth then .error (.jsonDepthError depthMessage)
      else nested (depth + 1) n rest) = nested depth (n + 1) rest := by
  by_cases h : depth + 1 > maxJsonDepth
  · rw [if_pos h, nested, if_neg (by omega)]
  · rw [if_neg h]
    exact if_congr (by omega) rfl rfl

/-- The values that the hooks make nest as deep as what is written. -/
structure KeepsDepth {ε : Type} (h : Hooks ε) : Prop where
  int : ∀ {t v}, h.int t = .ok v → v.depth = 0
  float : ∀ {t v}, h.float t = .ok v → v.depth = 0
  constant : ∀ {t v}, h.constant t = .ok v → v.depth = 0
  pairs : ∀ {members v}, h.pairs members = .ok v → v.depth = Json.depthMembers members + 1

section Parse

variable {ε : Type} {h : Hooks ε} (hh : KeepsDepth h)

include hh

theorem depth_parseAtom {t r : PyStr} {v : Json} (hv : parseAtom h t = .ok (v, r)) :
    v.depth = 0 := by
  have value {x : Except ε Json} {s : PyStr} (hx : x.map (·, s) = .ok (v, r)) : x = .ok v := by
    obtain ⟨w, hw, he⟩ := Wire.Except.map_eq_ok hx
    rw [hw, (Prod.mk.inj he).1]
  unfold parseAtom at hv
  split at hv
  · rename_i x s hn
    have hx := value hv
    unfold parseName at hn
    split_ifs at hn with h₁ h₂ h₃ h₄ h₅ h₆ <;> obtain ⟨rfl, -⟩ := Prod.mk.inj (Option.some.inj hn)
    · exact Except.ok.inj hx ▸ rfl
    · exact Except.ok.inj hx ▸ rfl
    · exact Except.ok.inj hx ▸ rfl
    · exact hh.constant hx
    · exact hh.constant hx
    · exact hh.constant hx
  · split at hv
    · exact hh.float (value hv)
    · exact hh.int (value hv)
    · cases hv

/-- The scan goes over what is read as a value when the value does not nest too deep, and
    fails inside it when it does. Inside brackets the scan is one deeper, and leaves them
    again with the closing one; the induction is on the fuel, over the three readers
    together. -/
theorem parse_scan (fuel : Nat) :
    (∀ inside t v r, parseValue h fuel inside t = .ok (v, r) →
      ∀ depth, scanText depth t = nested depth v.depth (scanText depth r)) ∧
    (∀ inside t vs r, parseItems h fuel inside t = .ok (vs, r) → ∀ depth,
      scanText (depth + 1) t = nested (depth + 1) (Json.depthItems vs) (scanText depth r)) ∧
    ∀ inside t ms r, parseMembers h fuel inside t = .ok (ms, r) → ∀ depth,
      scanText (depth + 1) t = nested (depth + 1) (Json.depthMembers ms) (scanText depth r) := by
  induction fuel with
  | zero =>
    refine ⟨fun _ _ _ _ hv => (by cases hv), fun _ _ _ _ hv => (by cases hv), fun _ t _ _ hv => ?_⟩
    cases t <;> cases hv
  | succ fuel ih =>
    obtain ⟨ihv, ihi, ihm⟩ := ih
    refine ⟨fun inside t v r hv depth => ?_, fun inside t vs r hv depth => ?_,
      fun inside t ms r hv depth => ?_⟩
    · cases t with
      | nil => cases hv
      | cons c t =>
        rw [parseValue] at hv
        split_ifs at hv with h₁ h₂ h₃
        · split at hv
          · obtain ⟨rfl, rfl⟩ := Prod.mk.inj (Except.ok.inj hv)
            exact h₁ ▸ scanText_string ‹_› depth
          · cases hv
        · split at hv
          · cases hv
          · split at hv
            · cases hv
            · rename_i d t' htok
              rw [scanText_open (.inl h₂)]
              split_ifs at hv with hd
              · obtain ⟨rfl, rfl⟩ := Prod.mk.inj (Except.ok.inj hv)
                rw [scanText_close (.inl hd) htok]
                exact nested_open depth 0 _
              · obtain ⟨⟨vs, s⟩, hi, he⟩ := Wire.Except.map_eq_ok hv
                obtain ⟨rfl, rfl⟩ := Prod.mk.inj he
                rw [scanText_skipBlank, htok, ihi _ _ _ _ hi, nested_open]
                rfl
        · split at hv
          · cases hv
          · split at hv
            · cases hv
            · rename_i d t' htok
              rw [scanText_open (.inr h₃)]
              split_ifs at hv with hd
              · obtain ⟨w, hw, he⟩ := Wire.Except.map_eq_ok hv
                obtain ⟨rfl, rfl⟩ := Prod.mk.inj he
                rw [scanText_close (.inr hd) htok, hh.pairs hw]
                exact nested_open depth 0 _
              · obtain ⟨⟨ms, s⟩, hm, hv⟩ := Wire.Except.bind_eq_ok hv
                obtain ⟨w, hw, he⟩ := Wire.Except.map_eq_ok hv
                obtain ⟨rfl, rfl⟩ := Prod.mk.inj he
                rw [scanText_skipBlank, htok, ihm _ _ _ _ hm, nested_open, hh.pairs hw]
        · rw [depth_parseAtom hh hv, scanText_over (over_parseAtom (fun _ hc => hc) hv)]
          exact (if_pos (.inl rfl)).symm
    · rw [parseItems] at hv
      obtain ⟨⟨v, s⟩, hv₁, hv⟩ := Wire.Except.bind_eq_ok hv
      rw [ihv _ _ _ _ hv₁]
      split at hv
      · cases hv
      · rename_i c t' htok
        split_ifs at hv with h₁ h₂
        · obtain ⟨rfl, rfl⟩ := Prod.mk.inj (Except.ok.inj hv)
          rw [scanText_close (.inl h₁) htok, Json.depthItems, Json.depthItems, Nat.max_zero]
        · obtain ⟨⟨ws, s'⟩, hi, he⟩ := Wire.Except.map_eq_ok hv
          obtain ⟨rfl, rfl⟩ := Prod.mk.inj he
          rw [scanText_token (h₂ ▸ by decide) htok, scanText_skipBlank, ihi _ _ _ _ hi,
            nested_nested, Json.depthItems]
    · cases t with
      | nil => cases hv
      | cons c t =>
        rw [parseMembers] at hv
        split_ifs at hv with h₁
        split at hv
        · cases hv
        · rename_i k t₁ hk
          split at hv
          · cases hv
          · rename_i d t₂ hcolon
            split_ifs at hv with h₂
            obtain ⟨⟨v, s⟩, hv₁, hv⟩ := Wire.Except.bind_eq_ok hv
            rw [h₁, scanText_string hk, scanText_token (h₂ ▸ by decide) hcolon,
              scanText_skipBlank, ihv _ _ _ _ hv₁]
            split at hv
            · cases hv
            · rename_i e t₃ htok
              split_ifs at hv with h₃ h₄
              · obtain ⟨rfl, rfl⟩ := Prod.mk.inj (Except.ok.inj hv)
                rw [scanText_close (.inr h₃) htok, Json.depthMembers, Json.depthMembers,
                  Nat.max_zero]
              · obtain ⟨⟨ms, s'⟩, hm, he⟩ := Wire.Except.map_eq_ok hv
                obtain ⟨rfl, rfl⟩ := Prod.mk.inj he
                rw [scanText_token (h₄ ▸ by decide) htok, scanText_skipBlank, ihm _ _ _ _ hm,
                  nested_nested, Json.depthMembers]

/-- The scan of a text that is read as a value fails when the value nests too deep, and only
    then. -/
theorem checkJsonDepth_loads {t : PyStr} {v : Json} (hv : loads h t = .ok v) :
    checkJsonDepth (t.map (·.val)) =
      if v.depth ≤ maxJsonDepth then .ok () else .error (.jsonDepthError depthMessage) := by
  rw [loads] at hv
  split_ifs at hv
  obtain ⟨⟨w, r⟩, hw, hv⟩ := Wire.Except.bind_eq_ok hv
  split_ifs at hv with hempty
  obtain rfl : w = v := Except.ok.inj hv
  have hscan := (parse_scan hh _).1 _ _ _ _ hw 0
  rw [← scanText_skipBlank, scanText_skipBlank 0 r, List.isEmpty_iff.1 hempty] at hscan
  exact hscan.trans (if_congr (by omega) rfl rfl)

/-! ## The limit of the decoder -/

omit hh in
theorem nested_eq_ok {depth n : Nat} {rest : Except PyErr Unit}
    (h : nested depth n rest = .ok ()) : rest = .ok () := by
  unfold nested at h
  split_ifs at h
  exact h

omit hh in
/-- Inside brackets that the scan passes the decoder may enter one more. -/
theorem scanText_open_eq_ok {c : CodePoint} (hc : c = cp '[' ∨ c = cp '{') {depth : Nat}
    {t : PyStr} (h : scanText depth (c :: t) = .ok ()) :
    depth < maxJsonDepth ∧ scanText (depth + 1) t = .ok () := by
  rw [scanText_open hc] at h
  split_ifs at h with hd
  exact ⟨by omega, h⟩

/-- The hooks with no limit to the nesting. -/
def unlimited (h : Hooks ε) : Hooks ε := { h with nest := fun _ => none }

omit hh in
@[simp] theorem unlimited_nest (depth : Nat) : (unlimited h).nest depth = none := rfl

omit hh in
theorem KeepsDepth.unlimited (hh : KeepsDepth h) : KeepsDepth (unlimited h) :=
  ⟨hh.int, hh.float, hh.constant, hh.pairs⟩

/-- A text that passes the scan never meets a limit beyond `MAX_JSON_DEPTH`: the decoder is
    inside as many arrays and objects as the scan has counted. -/
theorem parse_unlimited (hn : ∀ k < maxJsonDepth, h.nest k = none) (fuel : Nat) :
    (∀ inside t, scanText inside t = .ok () →
      parseValue h fuel inside t = parseValue (unlimited h) fuel inside t) ∧
    (∀ inside t, scanText inside t = .ok () →
      parseItems h fuel inside t = parseItems (unlimited h) fuel inside t) ∧
    ∀ inside t, scanText inside t = .ok () →
      parseMembers h fuel inside t = parseMembers (unlimited h) fuel inside t := by
  -- After a value the scan has come to the rest of the text.
  have after {fuel inside : Nat} {t : PyStr} {v : Json × PyStr}
      (ht : scanText inside t = .ok ()) (hv : parseValue (unlimited h) fuel inside t = .ok v) :
      scanText inside v.2 = .ok () := by
    rw [(parse_scan hh.unlimited fuel).1 _ _ _ _ hv] at ht
    exact nested_eq_ok ht
  induction fuel with
  | zero =>
    refine ⟨fun _ _ _ => rfl, fun _ _ _ => rfl, fun _ t _ => ?_⟩
    cases t <;> rfl
  | succ fuel ih =>
    obtain ⟨ihv, ihi, ihm⟩ := ih
    refine ⟨fun inside t ht => ?_, fun inside t ht => ?_, fun inside t ht => ?_⟩
    · cases t with
      | nil => rfl
      | cons c t =>
        rw [parseValue, parseValue]
        split_ifs with h₁ h₂ h₃
        · rfl
        · obtain ⟨hd, ht⟩ := scanText_open_eq_ok (.inl h₂) ht
          rw [scanText_skipBlank] at ht
          simp only [hn inside hd, unlimited_nest]
          cases hs : skipBlank t with
          | nil => rfl
          | cons d s =>
            rw [hs] at ht
            simp only [ihi _ _ ht]
        · obtain ⟨hd, ht⟩ := scanText_open_eq_ok (.inr h₃) ht
          rw [scanText_skipBlank] at ht
          simp only [hn inside hd, unlimited_nest]
          cases hs : skipBlank t with
          | nil => rfl
          | cons d s =>
            rw [hs] at ht
            simp only [ihm _ _ ht]
            rfl
        · rfl
    · rw [parseItems, parseItems, ihv _ _ ht]
      cases hv : parseValue (unlimited h) fuel inside t with
      | error e => rfl
      | ok v =>
        have hrest := after ht hv
        simp only [bind, Except.bind]
        cases hs : skipBlank v.2 with
        | nil => rfl
        | cons c s =>
          simp only
          split_ifs with h₁ h₂
          · rfl
          · rw [scanText_token (h₂ ▸ by decide) hs, scanText_skipBlank] at hrest
            rw [ihi _ _ hrest]
          · rfl
    · cases t with
      | nil => rfl
      | cons q t =>
        rw [parseMembers, parseMembers]
        split_ifs with h₁
        · cases hk : parseString t with
          | none => rfl
          | some k =>
            rw [h₁, scanText_string hk] at ht
            simp only
            cases hcolon : skipBlank k.2 with
            | nil => rfl
            | cons c s =>
              simp only
              split_ifs with h₂
              · rw [scanText_token (h₂ ▸ by decide) hcolon, scanText_skipBlank] at ht
                rw [ihv _ _ ht]
                cases hv : parseValue (unlimited h) fuel inside (skipBlank s) with
                | error e => rfl
                | ok v =>
                  have hrest := after ht hv
                  simp only [bind, Except.bind]
                  cases hs : skipBlank v.2 with
                  | nil => rfl
                  | cons d s' =>
                    simp only
                    split_ifs with h₃ h₄
                    · rfl
                    · rw [scanText_token (h₄ ▸ by decide) hs, scanText_skipBlank] at hrest
                      rw [ihm _ _ hrest]
                    · rfl
              · rfl
        · rfl

theorem loads_unlimited (hn : ∀ k < maxJsonDepth, h.nest k = none) {t : PyStr}
    (ht : checkJsonDepth (t.map (·.val)) = .ok ()) : loads h t = loads (unlimited h) t := by
  have hscan : scanText 0 (skipBlank t) = .ok () := by
    rw [← scanText_skipBlank]
    exact ht
  rw [loads, loads, (parse_unlimited hh hn _).1 _ _ hscan]
  rfl

end Parse

/-! ## The hooks -/

/-- A new key adds the depth of its value. -/
theorem depthMembers_insert {d : Dict} {k : PyStr} (v : Json) (hk : d.get? k = none) :
    Json.depthMembers (d.insert k v) = max v.depth (Json.depthMembers d) := by
  induction d with
  | nil => rfl
  | cons n d ih =>
    obtain ⟨l, w⟩ := n
    rw [Dict.get?_cons] at hk
    split_ifs at hk with hkl
    rw [Dict.insert, if_neg hkl]
    split_ifs
    · rfl
    · rw [Json.depthMembers, Json.depthMembers, ih hk, max_left_comm]

theorem objectPairs_depth {members : List (PyStr × Json)} {d : Dict} {v : Json}
    (h : objectPairs members d = .ok v) :
    v.depth = max (Json.depthMembers members) (Json.depthMembers d) + 1 := by
  induction members generalizing d with
  | nil =>
    obtain rfl := Except.ok.inj h
    rw [Json.depth, Json.depthMembers, Nat.zero_max]
  | cons m members ih =>
    obtain ⟨k, w⟩ := m
    rw [objectPairs] at h
    split_ifs at h with hseen
    rw [ih h, depthMembers_insert w (Option.not_isSome_iff_eq_none.1 hseen), Json.depthMembers,
      ← max_assoc, max_comm w.depth]

theorem protocolHooks_keepsDepth : KeepsDepth (protocolHooks P) where
  int {t v} h := by
    obtain ⟨n, -, h⟩ := Wire.Except.bind_eq_ok h
    split_ifs at h
    exact Except.ok.inj h ▸ rfl
  float h := by cases h
  constant h := by cases h
  pairs h := by rw [objectPairs_depth h, Json.depthMembers, Nat.max_zero]

/-- Hooks that take everything the grammar allows, at any depth: the value of a text is what
    is written in it, an object with all its pairs. -/
def syntaxHooks : Hooks PyErr where
  malformed := .jsonDecodeError
  int t := .ok (.int (intOf t))
  float t := .ok (.float t)
  constant t := .ok (.float t)
  pairs members := .ok (.obj members)
  nest _ := none

theorem syntaxHooks_keepsDepth : KeepsDepth syntaxHooks where
  int h := Except.ok.inj h ▸ rfl
  float h := Except.ok.inj h ▸ rfl
  constant h := Except.ok.inj h ▸ rfl
  pairs h := Except.ok.inj h ▸ rfl

/-! ## The canonical check -/

theorem validateCcjStr_error {s : PyStr} {e : PyErr} (h : validateCcjStr s = .error e) :
    ¬Scalar s ∧ ∃ m, e = .canonicalError m := by
  unfold validateCcjStr at h
  split_ifs at h with hs
  exact ⟨hs, _, (Except.error.inj h).symm⟩

mutual

/-- The check fails in an array or object too deep, or at a value that is not canonical. -/
theorem validateCcj_error {v : Json} {depth : Nat} {e : PyErr}
    (h : validateCcj depth v = .error e) :
    (e = .canonicalDepthError depthMessage ∧ maxJsonDepth < depth + v.depth) ∨
      (¬v.Every IsCanonical ∧ ∃ m, e = .canonicalError m) := by
  match v with
  | .null | .bool _ => cases h
  | .int n =>
    rw [validateCcj] at h
    split_ifs at h with hn
    exact .inr ⟨hn, _, (Except.error.inj h).symm⟩
  | .float _ => exact .inr ⟨fun hv => hv, _, (Except.error.inj h).symm⟩
  | .str s => exact .inr (validateCcjStr_error h)
  | .arr items =>
    rw [validateCcj] at h
    rw [Json.depth]
    split_ifs at h with hd
    · exact .inl ⟨(Except.error.inj h).symm, by omega⟩
    · rcases validateCcjItems_error h with ⟨he, hd⟩ | ⟨hv, he⟩
      · exact .inl ⟨he, by omega⟩
      · exact .inr ⟨fun hi => hv hi.2, he⟩
  | .obj members =>
    rw [validateCcj] at h
    rw [Json.depth]
    split_ifs at h with hd
    · exact .inl ⟨(Except.error.inj h).symm, by omega⟩
    · rcases validateCcjMembers_error h with ⟨he, hd⟩ | ⟨hv, he⟩
      · exact .inl ⟨he, by omega⟩
      · exact .inr ⟨fun hm => hv ⟨hm.1, hm.2⟩, he⟩

theorem validateCcjItems_error {items : List Json} {depth : Nat} {e : PyErr}
    (h : validateCcjItems depth items = .error e) :
    (e = .canonicalDepthError depthMessage ∧ maxJsonDepth < depth + Json.depthItems items) ∨
      (¬Json.EveryItem IsCanonical items ∧ ∃ m, e = .canonicalError m) := by
  match items with
  | [] => cases h
  | v :: items =>
    rw [validateCcjItems] at h
    rw [Json.depthItems]
    rcases Wire.Except.bind_eq_error.1 h with h | ⟨_, -, h⟩
    · rcases validateCcj_error h with ⟨he, hd⟩ | ⟨hv, he⟩
      · exact .inl ⟨he, by omega⟩
      · exact .inr ⟨fun hi => hv hi.1, he⟩
    · rcases validateCcjItems_error h with ⟨he, hd⟩ | ⟨hv, he⟩
      · exact .inl ⟨he, by omega⟩
      · exact .inr ⟨fun hi => hv hi.2, he⟩

theorem validateCcjMembers_error {members : List (PyStr × Json)} {depth : Nat} {e : PyErr}
    (h : validateCcjMembers depth members = .error e) :
    (e = .canonicalDepthError depthMessage ∧ maxJsonDepth < depth + Json.depthMembers members) ∨
      (¬((∀ m ∈ members, Scalar m.1) ∧ Json.EveryMember IsCanonical members) ∧
        ∃ m, e = .canonicalError m) := by
  match members with
  | [] => cases h
  | (k, v) :: members =>
    rw [validateCcjMembers] at h
    rw [Json.depthMembers]
    rcases Wire.Except.bind_eq_error.1 h with h | ⟨_, -, h⟩
    · obtain ⟨hk, he⟩ := validateCcjStr_error h
      exact .inr ⟨fun hm => hk (hm.1 _ List.mem_cons_self), he⟩
    · rcases Wire.Except.bind_eq_error.1 h with h | ⟨_, -, h⟩
      · rcases validateCcj_error h with ⟨he, hd⟩ | ⟨hv, he⟩
        · exact .inl ⟨he, by omega⟩
        · exact .inr ⟨fun hm => hv hm.2.1, he⟩
      · rcases validateCcjMembers_error h with ⟨he, hd⟩ | ⟨hv, he⟩
        · exact .inl ⟨he, by omega⟩
        · exact .inr ⟨fun hm => hv ⟨(List.forall_mem_cons.1 hm.1).2, hm.2.2⟩, he⟩

end

/-- The check of a value with nothing but its depth against it. -/
theorem validateCcj_of_every {v : Json} (hv : v.Every IsCanonical) :
    validateCcj 0 v =
      if v.depth ≤ maxJsonDepth then .ok () else .error (.canonicalDepthError depthMessage) := by
  split_ifs with hd
  · exact (validateCcj_eq_ok 0).2 ⟨hv, by omega⟩
  · cases h : validateCcj 0 v with
    | error e =>
      rcases validateCcj_error h with ⟨rfl, -⟩ | ⟨hn, -⟩
      · rfl
      · exact absurd hv hn
    | ok _ => exact absurd ((validateCcj_eq_ok 0).1 h).2 (by omega)

/-- A value that does not nest too deep is not refused for its depth. -/
theorem canonicalDocument_error {v : Json} (hd : v.depth ≤ maxJsonDepth) {e : PyErr}
    (h : canonicalDocument P v = .error e) : ∃ m, e = .canonicalError m := by
  rcases Wire.Except.bind_eq_error.1 h with hv | ⟨_, hv, -⟩
  · rcases validateCcj_error hv with ⟨-, hdeep⟩ | ⟨-, he⟩
    · omega
    · exact he
  · have hcanonical : Canonical v := ⟨((validateCcj_eq_ok 0).1 hv).1, hd⟩
    rw [canonicalDocument_eq_ok.2 ⟨hcanonical, rfl⟩] at h
    cases h

/-! ## The two counts -/

/-- The exceptions of reading without a limit become exceptions of the protocol, of which none
    is about the depth. -/
theorem unlimited_raises :
    (unlimited (protocolHooks P)).Raises fun e => ∃ m, loadJsonError e = .protocolError m where
  malformed := ⟨_, rfl⟩
  int {t e} h := by
    rcases Wire.Except.bind_eq_error.1 h with h | ⟨n, -, h⟩
    · unfold pyInt at h
      split_ifs at h
      exact Except.error.inj h ▸ ⟨_, rfl⟩
    · split_ifs at h
      exact Except.error.inj h ▸ ⟨_, rfl⟩
  float h := Except.error.inj h ▸ ⟨_, rfl⟩
  constant h := Except.error.inj h ▸ ⟨_, rfl⟩
  pairs {members e} h := by
    change objectPairs members [] = _ at h
    revert h
    generalize ([] : Dict) = d
    intro h
    induction members generalizing d with
    | nil => cases h
    | cons m members ih =>
      rw [objectPairs] at h
      split_ifs at h
      · exact Except.error.inj h ▸ ⟨_, rfl⟩
      · exact ih _ h
  nest h := by cases h

/-- A text that passes the scan is not refused for its depth. -/
theorem loadJsonText_of_checkJsonDepth {t : PyStr}
    (hscan : checkJsonDepth (t.map (·.val)) = .ok ()) (m : String) :
    loadJsonText P t ≠ .error (.jsonDepthError m) := by
  intro h
  by_cases hmark : t.head? = some byteOrderMark
  · rw [loadJsonText, if_pos hmark] at h
    cases Except.error.inj h
  rw [loadJsonText, if_neg hmark] at h
  obtain ⟨e, he, hm⟩ := mapError_eq_error h
  rw [hscan] at he
  change (loads (protocolHooks P) t >>= fun value => canonicalDocument P value >>= fun _ =>
    .ok value) = _ at he
  rcases Wire.Except.bind_eq_error.1 he with he | ⟨v, hv, he⟩
  · have hn : ∀ k < maxJsonDepth, (protocolHooks P).nest k = none := fun k hk => by
      have := P.nesting_lt
      unfold maxJsonDepth at hk
      exact if_neg (by omega)
    rw [loads_unlimited protocolHooks_keepsDepth hn hscan] at he
    obtain ⟨m', hm'⟩ := loads_raises unlimited_raises he
    rw [hm'] at hm
    cases hm
  · rw [checkJsonDepth_loads protocolHooks_keepsDepth hv] at hscan
    split_ifs at hscan with hd
    rcases Wire.Except.bind_eq_error.1 he with he | ⟨_, -, he⟩
    · obtain ⟨m', rfl⟩ := canonicalDocument_error hd he
      cases hm
    · cases he

/-- Of every text in the grammar of JSON the scan refuses those that nest more than
    `MAX_JSON_DEPTH` arrays and objects, and no other; they are the texts `load_json` refuses
    for their depth, before they are decoded. Where the decoder makes a value of the text with
    nothing but its depth against it, the canonical check refuses the value just when the scan
    refuses the text, and any other value is read. -/
theorem checkJsonDepth_measures (t : PyStr) :
    (∀ v, loads syntaxHooks t = .ok v →
      (checkJsonDepth (t.map (·.val)) = .error (.jsonDepthError depthMessage) ↔
        maxJsonDepth < v.depth) ∧
      (checkJsonDepth (t.map (·.val)) = .ok () ↔ v.depth ≤ maxJsonDepth) ∧
      (v.Every IsCanonical →
        (validateCcj 0 v = .error (.canonicalDepthError depthMessage) ↔ maxJsonDepth < v.depth)) ∧
      (loadJsonText P t = .error (.jsonDepthError depthMessage) ↔ maxJsonDepth < v.depth)) ∧
    ∀ v, loads (protocolHooks P) t = .ok v →
      (checkJsonDepth (t.map (·.val)) = .error (.jsonDepthError depthMessage) ↔
        maxJsonDepth < v.depth) ∧
      (v.Every IsCanonical →
        (validateCcj 0 v = .error (.canonicalDepthError depthMessage) ↔ maxJsonDepth < v.depth) ∧
        (loadJsonText P t = .ok v ↔ v.depth ≤ maxJsonDepth)) := by
  have scans {h : Hooks PyErr} (hh : KeepsDepth h) {v : Json} (hv : loads h t = .ok v) :
      (checkJsonDepth (t.map (·.val)) = .error (.jsonDepthError depthMessage) ↔
        maxJsonDepth < v.depth) ∧
      (checkJsonDepth (t.map (·.val)) = .ok () ↔ v.depth ≤ maxJsonDepth) := by
    rw [checkJsonDepth_loads hh hv]
    split_ifs with hd
    · exact ⟨iff_of_false (fun h => by cases h) (by omega), iff_of_true rfl hd⟩
    · exact ⟨iff_of_true rfl (by omega), iff_of_false (fun h => by cases h) hd⟩
  have checks {v : Json} (hv : v.Every IsCanonical) :
      validateCcj 0 v = .error (.canonicalDepthError depthMessage) ↔ maxJsonDepth < v.depth := by
    rw [validateCcj_of_every hv]
    split_ifs with hd
    · exact iff_of_false (fun h => by cases h) (by omega)
    · exact iff_of_true rfl (by omega)
  have mark {h : Hooks PyErr} {v : Json} (hv : loads h t = .ok v) :
      t.head? ≠ some byteOrderMark := fun hm => by
    rw [loads, if_pos hm] at hv
    cases hv
  refine ⟨fun v hv => ?_, fun v hv => ?_⟩
  · obtain ⟨hdeep, hflat⟩ := scans syntaxHooks_keepsDepth hv
    refine ⟨hdeep, hflat, checks, fun h => ?_, fun h => ?_⟩
    · by_contra hd
      exact loadJsonText_of_checkJsonDepth (hflat.2 (by omega)) _ h
    · rw [loadJsonText, if_neg (mark hv), hdeep.2 h]
      rfl
  · obtain ⟨hdeep, hflat⟩ := scans protocolHooks_keepsDepth hv
    refine ⟨hdeep, fun hcanonical => ⟨checks hcanonical, ?_⟩⟩
    rw [loadJsonText_iff]
    exact ⟨fun h => h.2.2.2.2, fun h => ⟨mark hv, hflat.2 h, hv, hcanonical, h⟩⟩

set_option maxRecDepth 10000 in
/-- A text with brackets and quotes in its strings, and one with an array too many. -/
theorem checkJsonDepth_measures_samples :
    loadJsonText Platform.sample (py "[[\"a]\\\"[\"]]") =
      .ok (.arr [.arr [.str (py "a]\"[")]]) ∧
    loadJsonText Platform.sample (List.replicate 101 (cp '[') ++ List.replicate 101 (cp ']')) =
      .error (.jsonDepthError depthMessage) := by
  have hread : loads (protocolHooks Platform.sample) (py "[[\"a]\\\"[\"]]") =
      .ok (.arr [.arr [.str (py "a]\"[")]]) := by decide +kernel
  have hdeep : loads syntaxHooks (List.replicate 101 (cp '[') ++ List.replicate 101 (cp ']')) =
      .ok ((fun v => .arr [v])^[100] (.arr [])) := by decide +kernel
  refine ⟨(((checkJsonDepth_measures _).2 _ hread).2 ?_).2.2 (by decide),
    ((checkJsonDepth_measures _).1 _ hdeep).2.2.2.2 (by decide)⟩
  exact (validateCcj_eq_ok 0).1 (by decide) |>.1

end SkillRegistry
