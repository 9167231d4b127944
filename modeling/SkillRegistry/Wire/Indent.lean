import SkillRegistry.Wire.Parse

/-!
# Indented JSON

The text of `json.dumps(value, indent=2)`: an item or member to a line, and every character
that is not printable ASCII written as an escape, one beyond the basic plane as the two halves
of a surrogate pair.

* `Json.indented` is the text of a value;
* `parseString_asciiQuote`: a string without lone surrogates is read back;
* `loads_indented`: reading the text of a value, with such strings and keys, gives what the
  hooks make of the value.
-/

namespace Wire

namespace Json

/-! ## The text -/

/-- The escape of a number below `0x10000`. -/
def unicodeEscape (n : Nat) : PyStr :=
  [cp '\\', cp 'u', hexDigit (n / 0x1000), hexDigit (n / 0x100 % 0x10), hexDigit (n / 0x10 % 0x10),
    hexDigit (n % 0x10)]

/-- A character of a string literal under `ensure_ascii=True`. -/
def asciiEscape (c : CodePoint) : PyStr :=
  if c = cp '"' then py "\\\""
  else if c = cp '\\' then py "\\\\"
  else if c = cp '\n' then py "\\n"
  else if c = cp '\r' then py "\\r"
  else if c = cp '\t' then py "\\t"
  else if c.val = 0x0C then py "\\f"
  else if c.val = 0x08 then py "\\b"
  else if 0x20 ≤ c.val ∧ c.val ≤ 0x7E then [c]
  else if c.val < 0x10000 then unicodeEscape c.val
  else
    unicodeEscape (0xD800 + (c.val - 0x10000) / 0x400) ++
      unicodeEscape (0xDC00 + (c.val - 0x10000) % 0x400)

/-- A string literal under `ensure_ascii=True`. -/
def asciiQuote (s : PyStr) : PyStr := cp '"' :: (s.flatMap asciiEscape ++ [cp '"'])

/-- A new line at a level of indentation. -/
def newline (level : Nat) : PyStr := cp '\n' :: List.replicate (2 * level) (cp ' ')

mutual

/-- The text of a value at a level: `json.dumps(value, indent=2)`, the members in the order
    they have. -/
def indented (level : Nat) : Json → PyStr
  | null => py "null"
  | bool b => if b then py "true" else py "false"
  | int n => intText n
  | float t => t
  | str s => asciiQuote s
  | arr [] => py "[]"
  | arr (v :: items) =>
    cp '[' :: (newline (level + 1) ++ (v.indented (level + 1) ++ indentedItems level items))
  | obj [] => py "{}"
  | obj ((k, v) :: members) =>
    cp '{' :: (newline (level + 1) ++ (asciiQuote k ++
      cp ':' :: cp ' ' :: (v.indented (level + 1) ++ indentedMembers level members)))

/-- The rest of an array after an item. -/
def indentedItems (level : Nat) : List Json → PyStr
  | [] => newline level ++ [cp ']']
  | v :: items =>
    cp ',' :: (newline (level + 1) ++ (v.indented (level + 1) ++ indentedItems level items))

/-- The rest of an object after a member. -/
def indentedMembers (level : Nat) : List (PyStr × Json) → PyStr
  | [] => newline level ++ [cp '}']
  | (k, v) :: members =>
    cp ',' :: (newline (level + 1) ++ (asciiQuote k ++
      cp ':' :: cp ' ' :: (v.indented (level + 1) ++ indentedMembers level members)))

end

/-- A string or the keys of an object without lone surrogates. -/
def IsScalar : Json → Prop
  | str s => ∀ c ∈ s, ¬IsSurrogate c
  | obj members => ∀ m ∈ members, ∀ c ∈ m.1, ¬IsSurrogate c
  | _ => True

end Json

/-! ## Strings -/

theorem hex4_unicodeEscape {n : Nat} (h : n < 0x10000) :
    hex4 (hexDigit (n / 0x1000)) (hexDigit (n / 0x100 % 0x10)) (hexDigit (n / 0x10 % 0x10))
      (hexDigit (n % 0x10)) = some (Fin.ofNat _ n) := by
  simp only [hex4, hexValue_hexDigit (show n / 0x1000 < 16 by omega),
    hexValue_hexDigit (show n / 0x100 % 0x10 < 16 by omega),
    hexValue_hexDigit (show n / 0x10 % 0x10 < 16 by omega),
    hexValue_hexDigit (show n % 0x10 < 16 by omega), Option.bind_eq_bind, Option.bind_some,
    Option.some.injEq]
  congr 1
  omega

/-- A character that is not the first half of a pair is read on its own. -/
theorem joinPairs_cons_of_not_high {c : CodePoint} {x : Bool} (l : List (CodePoint × Bool))
    (h : x = true → ¬(0xD800 ≤ c.val ∧ c.val < 0xDC00)) :
    joinPairs ((c, x) :: l) = c :: joinPairs l := by
  cases l with
  | nil => rfl
  | cons m l =>
    obtain ⟨d, y⟩ := m
    rw [joinPairs, if_neg]
    simp only [Bool.and_eq_true, decide_eq_true_eq]
    exact fun hc => h hc.1.1.1 hc.1.2

/-- The two halves of a pair are read as one character. -/
theorem joinPairs_pair {c high low : CodePoint} (hc : 0x10000 ≤ c.val)
    (hhigh : high.val = 0xD800 + (c.val - 0x10000) / 0x400)
    (hlow : low.val = 0xDC00 + (c.val - 0x10000) % 0x400) (l : List (CodePoint × Bool)) :
    joinPairs ((high, true) :: (low, true) :: l) = c :: joinPairs l := by
  have hlt := c.isLt
  have hjoin : Fin.ofNat 0x110000
      (0x10000 + 0x400 * (high.val - 0xD800) + (low.val - 0xDC00)) = c := by
    refine Fin.ext ?_
    rw [Fin.val_ofNat, Nat.mod_eq_of_lt (by omega)]
    omega
  rw [joinPairs, if_pos, hjoin]
  simp only [Bool.true_and, Bool.and_eq_true, decide_eq_true_eq]
  omega

/-- Reading one character of an ASCII literal. -/
theorem scanString_asciiEscape (c : CodePoint) (t : PyStr) : ∃ u : List (CodePoint × Bool),
    scanString (Json.asciiEscape c ++ t) = (scanString t).map (fun s => (u ++ s.1, s.2)) ∧
      (¬IsSurrogate c → ∀ l, joinPairs (u ++ l) = c :: joinPairs l) := by
  have letter (d e : CodePoint) (hu : e ≠ cp 'u') (hd : unescape e = some d) :
      ∃ u : List (CodePoint × Bool),
        scanString ([cp '\\', e] ++ t) = (scanString t).map (fun s => (u ++ s.1, s.2)) ∧
          (¬IsSurrogate d → ∀ l, joinPairs (u ++ l) = d :: joinPairs l) :=
    ⟨[(d, false)], scanString_unescape t hu hd, fun _ l => joinPairs_cons_of_not_high l (by simp)⟩
  unfold Json.asciiEscape
  split_ifs with h₁ h₂ h₃ h₄ h₅ h₆ h₇ h₈ h₉
  · exact h₁ ▸ letter (cp '"') (cp '"') (by decide) (by decide)
  · exact h₂ ▸ letter (cp '\\') (cp '\\') (by decide) (by decide)
  · exact h₃ ▸ letter (cp '\n') (cp 'n') (by decide) (by decide)
  · exact h₄ ▸ letter (cp '\r') (cp 'r') (by decide) (by decide)
  · exact h₅ ▸ letter (cp '\t') (cp 't') (by decide) (by decide)
  · obtain rfl : c = Fin.ofNat _ 0x0C := Fin.ext h₆
    exact letter _ (cp 'f') (by decide) (by decide)
  · obtain rfl : c = Fin.ofNat _ 0x08 := Fin.ext h₇
    exact letter _ (cp 'b') (by decide) (by decide)
  · exact ⟨[(c, false)], scanString_plain t h₁ (by omega) h₂,
      fun _ l => joinPairs_cons_of_not_high l (by simp)⟩
  · have hc : (Fin.ofNat 0x110000 c.val) = c := Fin.ofNat_val_eq_self c
    have hu := hex4_unicodeEscape h₉
    rw [hc] at hu
    refine ⟨[(c, true)], scanString_hex4 t hu, fun hs l => joinPairs_cons_of_not_high l ?_⟩
    exact fun _ hhigh => hs ⟨hhigh.1, by omega⟩
  · have hc := c.isLt
    have hhigh : 0xD800 + (c.val - 0x10000) / 0x400 < 0x10000 := by omega
    have hlow : 0xDC00 + (c.val - 0x10000) % 0x400 < 0x10000 := by omega
    have value {n : Nat} (h : n < 0x10000) : (Fin.ofNat 0x110000 n).val = n := by
      rw [Fin.val_ofNat, Nat.mod_eq_of_lt (by omega)]
    refine ⟨[(Fin.ofNat 0x110000 (0xD800 + (c.val - 0x10000) / 0x400), true),
      (Fin.ofNat 0x110000 (0xDC00 + (c.val - 0x10000) % 0x400), true)], ?_,
      fun _ l => joinPairs_pair (by omega) (value hhigh) (value hlow) l⟩
    rw [List.append_assoc]
    refine (scanString_hex4 _ (hex4_unicodeEscape hhigh)).trans ?_
    have hrest := scanString_hex4 t (hex4_unicodeEscape hlow)
    change Option.map _ (scanString (Json.unicodeEscape _ ++ t)) = _
    rw [show scanString (Json.unicodeEscape _ ++ t) = _ from hrest, Option.map_map]
    rfl

/-- A string without lone surrogates is read back from its ASCII literal. -/
theorem parseString_asciiQuote {s : PyStr} (hs : ∀ c ∈ s, ¬IsSurrogate c) (r : PyStr) :
    parseString (s.flatMap Json.asciiEscape ++ cp '"' :: r) = some (s, r) := by
  suffices h : ∃ l, scanString (s.flatMap Json.asciiEscape ++ cp '"' :: r) = some (l, r) ∧
      joinPairs l = s by
    obtain ⟨l, hl, rfl⟩ := h
    rw [parseString, hl]
    rfl
  induction s with
  | nil => exact ⟨[], scanString_quote r, rfl⟩
  | cons c s ih =>
    obtain ⟨hc, hs⟩ := List.forall_mem_cons.1 hs
    obtain ⟨l, hl, hjoin⟩ := ih hs
    obtain ⟨u, he, hu⟩ := scanString_asciiEscape c (s.flatMap Json.asciiEscape ++ cp '"' :: r)
    refine ⟨u ++ l, ?_, ?_⟩
    · rw [List.flatMap_cons, List.append_assoc, he, hl]
      rfl
    · rw [hu hc, hjoin]

/-! ## Values -/

theorem skipBlank_newline (level : Nat) (t : PyStr) :
    skipBlank (Json.newline level ++ t) = skipBlank t := by
  have spaces (n : Nat) : skipBlank (List.replicate n (cp ' ') ++ t) = skipBlank t := by
    induction n with
    | zero => rfl
    | succ n ih => exact ih
  exact spaces (2 * level)

/-- The text of a value starts as without indentation: with no white space, and with nothing
    that closes an array. -/
theorem Json.indented_head {v : Json} (hv : v.Numeral) (level : Nat) :
    ∃ c t, v.indented level = c :: t ∧ isBlank c = false ∧ c ≠ cp ']' ∧ c ≠ byteOrderMark := by
  match v with
  | .null | .bool _ | .int _ | .float _ => exact Json.dumps_head hv
  | .str s => exact ⟨_, _, rfl, by decide, by decide, by decide⟩
  | .arr [] => exact ⟨_, _, rfl, by decide, by decide, by decide⟩
  | .arr (_ :: _) => exact ⟨_, _, rfl, by decide, by decide, by decide⟩
  | .obj [] => exact ⟨_, _, rfl, by decide, by decide, by decide⟩
  | .obj ((_, _) :: _) => exact ⟨_, _, rfl, by decide, by decide, by decide⟩

theorem skipBlank_indented {v : Json} (hv : v.Numeral) (level : Nat) (r : PyStr) :
    skipBlank (v.indented level ++ r) = v.indented level ++ r := by
  obtain ⟨c, t, hd, hc, -, -⟩ := Json.indented_head hv level
  rw [hd]
  exact skipBlank_cons hc _

theorem delimited_indentedItems (level : Nat) (items : List Json) (r : PyStr) :
    Delimited (Json.indentedItems level items ++ r) := by
  cases items with
  | nil => exact delimited_cons _ (by decide)
  | cons v items => exact delimited_cons _ (by decide)

theorem delimited_indentedMembers (level : Nat) (members : List (PyStr × Json)) (r : PyStr) :
    Delimited (Json.indentedMembers level members ++ r) := by
  cases members with
  | nil => exact delimited_cons _ (by decide)
  | cons m members => exact delimited_cons _ (by decide)

/-- What follows the opening quote of a key, up to the members after its value. -/
def Json.indentedMember (level : Nat) (k : PyStr) (v : Json) (r : PyStr) : PyStr :=
  k.flatMap Json.asciiEscape ++ cp '"' :: cp ':' :: cp ' ' :: (v.indented (level + 1) ++ r)

variable {ε : Type} (h : Hooks ε)

mutual

/-- Reading the indented text of a value gives what the hooks make of the value. -/
theorem parseValue_indented {v : Json} (hv : v.Numeral) (hs : v.Every Json.IsScalar)
    (level : Nat) {fuel : Nat} (depth : Nat) {r : PyStr}
    (hf : 2 * (v.indented level ++ r).length < fuel) (hr : Delimited r) :
    parseValue h fuel depth (v.indented level ++ r) = (interp h depth v).map (·, r) := by
  match v with
  | .null | .bool _ | .int _ | .float _ => exact parseValue_dumps h hv depth hf hr
  | .str s =>
    obtain ⟨fuel, rfl⟩ : ∃ n, fuel = n + 1 := ⟨fuel - 1, by omega⟩
    have ht : (Json.str s).indented level ++ r =
        cp '"' :: (s.flatMap Json.asciiEscape ++ cp '"' :: r) := by
      simp [Json.indented, Json.asciiQuote]
    rw [ht, parseValue, if_pos rfl, parseString_asciiQuote hs]
    rfl
  | .arr [] => exact parseValue_dumps h (v := .arr []) hv depth hf hr
  | .arr (v :: items) =>
    obtain ⟨fuel, rfl⟩ : ∃ n, fuel = n + 1 := ⟨fuel - 1, by omega⟩
    obtain ⟨hv₁, hvs⟩ := hv.2
    have ht : (Json.arr (v :: items)).indented level ++ r =
        cp '[' :: (Json.newline (level + 1) ++
          (v.indented (level + 1) ++ (Json.indentedItems level items ++ r))) := by
      simp [Json.indented]
    rw [ht] at hf ⊢
    have hl : 2 * (v.indented (level + 1) ++ (Json.indentedItems level items ++ r)).length + 1 <
        fuel := by
      rw [List.length_cons, List.length_append] at hf
      omega
    have hp := parseItems_indented hv₁ hvs hs.2.1 hs.2.2 level (depth + 1) hl
    have hb := skipBlank_indented hv₁ (level + 1) (Json.indentedItems level items ++ r)
    obtain ⟨c, t, hd, hc, hne, -⟩ := Json.indented_head hv₁ (level + 1)
    rw [hd, List.cons_append] at hp hb ⊢
    rw [parseValue, if_neg (by decide), if_pos rfl, interp, skipBlank_newline, hb]
    cases h.nest depth with
    | some e => rfl
    | none =>
      simp only [if_neg hne, hp]
      cases interpItems h (depth + 1) (v :: items) <;> rfl
  | .obj [] => exact parseValue_dumps h (v := .obj []) hv depth hf hr
  | .obj ((k, v) :: members) =>
    obtain ⟨fuel, rfl⟩ : ∃ n, fuel = n + 1 := ⟨fuel - 1, by omega⟩
    obtain ⟨hv₁, hvs⟩ := hv.2
    obtain ⟨hk, hks⟩ := List.forall_mem_cons.1 hs.1
    have ht : (Json.obj ((k, v) :: members)).indented level ++ r =
        cp '{' :: (Json.newline (level + 1) ++
          cp '"' :: Json.indentedMember level k v (Json.indentedMembers level members ++ r)) := by
      simp [Json.indented, Json.indentedMember, Json.asciiQuote]
    rw [ht] at hf ⊢
    have hl : 2 * (cp '"' :: Json.indentedMember level k v
        (Json.indentedMembers level members ++ r)).length + 1 < fuel := by
      rw [List.length_cons, List.length_append] at hf
      omega
    have hp := parseMembers_indented hk hv₁ hvs hks hs.2.1 hs.2.2 level (depth + 1) hl
    rw [parseValue, if_neg (by decide), if_neg (by decide), if_pos rfl, interp,
      skipBlank_newline, skipBlank_cons (by decide)]
    cases h.nest depth with
    | some e => rfl
    | none =>
      have hne : cp '"' ≠ cp '}' := by decide
      simp only [if_neg hne, hp]
      cases interpMembers h (depth + 1) ((k, v) :: members) <;> rfl
termination_by fuel

/-- Reading the items of an array. -/
theorem parseItems_indented {v : Json} {items : List Json} (hv : v.Numeral)
    (hvs : Json.EveryItem Json.IsNumeral items) (hs : v.Every Json.IsScalar)
    (hss : Json.EveryItem Json.IsScalar items) (level : Nat) {fuel : Nat} (depth : Nat)
    {r : PyStr}
    (hf : 2 * (v.indented (level + 1) ++ (Json.indentedItems level items ++ r)).length + 1 < fuel) :
    parseItems h fuel depth (v.indented (level + 1) ++ (Json.indentedItems level items ++ r)) =
      (interpItems h depth (v :: items)).map (·, r) := by
  obtain ⟨fuel, rfl⟩ : ∃ n, fuel = n + 1 := ⟨fuel - 1, by omega⟩
  have hl : 2 * (v.indented (level + 1) ++ (Json.indentedItems level items ++ r)).length <
      fuel := by omega
  have hp := parseValue_indented hv hs (level + 1) depth hl (delimited_indentedItems level items r)
  rw [parseItems, hp, interpItems]
  cases interp h depth v with
  | error e => rfl
  | ok x =>
    change (match skipBlank (Json.indentedItems level items ++ r) with | [] => _ | c :: t => _) = _
    match items with
    | [] =>
      rw [Json.indentedItems, List.append_assoc, skipBlank_newline, List.singleton_append,
        skipBlank_cons (by decide)]
      simp only [if_true, interpItems]
      rfl
    | w :: items =>
      have hw : 2 * (w.indented (level + 1) ++ (Json.indentedItems level items ++ r)).length + 1 <
          fuel := by
        simp only [Json.indentedItems, List.length_append, List.length_cons] at hf ⊢
        omega
      have hi := parseItems_indented hvs.1 hvs.2 hss.1 hss.2 level depth hw
      have hne : cp ',' ≠ cp ']' := by decide
      rw [Json.indentedItems, List.cons_append, List.append_assoc, List.append_assoc,
        skipBlank_cons (by decide)]
      simp only [if_neg hne, if_true, skipBlank_newline, skipBlank_indented hvs.1, hi]
      cases interpItems h depth (w :: items) <;> rfl
termination_by fuel

/-- Reading the members of an object. -/
theorem parseMembers_indented {k : PyStr} (hk : ∀ c ∈ k, ¬IsSurrogate c) {v : Json}
    {members : List (PyStr × Json)} (hv : v.Numeral)
    (hvs : Json.EveryMember Json.IsNumeral members)
    (hks : ∀ m ∈ members, ∀ c ∈ m.1, ¬IsSurrogate c) (hs : v.Every Json.IsScalar)
    (hss : Json.EveryMember Json.IsScalar members) (level : Nat) {fuel : Nat} (depth : Nat)
    {r : PyStr}
    (hf : 2 * (cp '"' :: Json.indentedMember level k v
      (Json.indentedMembers level members ++ r)).length + 1 < fuel) :
    parseMembers h fuel depth (cp '"' :: Json.indentedMember level k v
      (Json.indentedMembers level members ++ r)) =
      (interpMembers h depth ((k, v) :: members)).map (·, r) := by
  obtain ⟨fuel, rfl⟩ : ∃ n, fuel = n + 1 := ⟨fuel - 1, by omega⟩
  have hl : 2 * (v.indented (level + 1) ++ (Json.indentedMembers level members ++ r)).length <
      fuel := by
    simp only [Json.indentedMember, List.length_append, List.length_cons] at hf ⊢
    omega
  have hp := parseValue_indented hv hs (level + 1) depth hl
    (delimited_indentedMembers level members r)
  have hspace (t : PyStr) : skipBlank (cp ' ' :: t) = skipBlank t := rfl
  rw [parseMembers, if_pos rfl, Json.indentedMember, parseString_asciiQuote hk]
  simp only [skipBlank_cons (show isBlank (cp ':') = false by decide), if_true, hspace,
    skipBlank_indented hv, hp, interpMembers]
  cases interp h depth v with
  | error e => rfl
  | ok x =>
    change (match skipBlank (Json.indentedMembers level members ++ r) with
      | [] => _
      | c :: t => _) = _
    match members with
    | [] =>
      rw [Json.indentedMembers, List.append_assoc, skipBlank_newline, List.singleton_append,
        skipBlank_cons (by decide)]
      simp only [if_true, interpMembers]
      rfl
    | (l, w) :: members =>
      obtain ⟨hkl, hks⟩ := List.forall_mem_cons.1 hks
      have ht : Json.indentedMembers level ((l, w) :: members) ++ r =
          cp ',' :: (Json.newline (level + 1) ++ cp '"' ::
            Json.indentedMember level l w (Json.indentedMembers level members ++ r)) := by
        simp [Json.indentedMembers, Json.indentedMember, Json.asciiQuote]
      have hl : 2 * (cp '"' :: Json.indentedMember level l w
          (Json.indentedMembers level members ++ r)).length + 1 < fuel := by
        rw [Json.indentedMember, ht] at hf
        simp only [List.length_append, List.length_cons] at hf ⊢
        omega
      have hm := parseMembers_indented hkl hvs.1 hvs.2 hks hss.1 hss.2 level depth hl
      have hne : cp ',' ≠ cp '}' := by decide
      rw [ht, skipBlank_cons (by decide)]
      simp only [if_neg hne, if_true, skipBlank_newline,
        skipBlank_cons (show isBlank (cp '"') = false by decide), hm]
      cases interpMembers h depth ((l, w) :: members) <;> rfl
termination_by fuel

end

/-- Reading the indented text of a value and white space after it gives what the hooks make of
    the value. -/
theorem loads_indented {v : Json} (hv : v.Numeral) (hs : v.Every Json.IsScalar) :
    loads h (v.indented 0 ++ [cp '\n']) = interp h 0 v := by
  have hb := skipBlank_indented hv 0 [cp '\n']
  have hp := parseValue_indented h hv hs 0 0 (Nat.lt_succ_self _)
    (delimited_cons (c := cp '\n') [] (by decide))
  obtain ⟨c, t, hd, -, -, hm⟩ := Json.indented_head hv 0
  have hh : ¬(v.indented 0 ++ [cp '\n']).head? = some byteOrderMark := by
    rw [hd]
    exact fun e => hm (Option.some.inj e)
  rw [loads, if_neg hh, hb, hp]
  cases interp h 0 v <;> rfl

end Wire
