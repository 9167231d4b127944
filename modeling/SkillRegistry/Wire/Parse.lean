import SkillRegistry.Wire.Json

/-!
# Reading JSON

The decoder of `json.loads`, with the hooks a reader may give it for integers,
other numbers, the names of the numbers that are not finite, and the pairs of an
object, and with the exception it raises on entering an array or object too deep.

* `parseValue` reads the value at the start of a text, and `loads` a whole text;
* `interp` is what the hooks make of a value, and `loads_dumps` says that reading
  the text of a value gives just that;
* `loads_sorted`: what is read under the plain hooks has dictionaries for objects;
* `dumps_injective`: two values with the same text are the same.
-/

namespace Wire

/-- How a reader makes values and what it raises. -/
structure Hooks (ε : Type) where
  /-- The exception of a text that is not JSON. -/
  malformed : ε
  /-- The value of an integer literal. -/
  int : PyStr → Except ε Json
  /-- The value of a literal with a fraction or an exponent. -/
  float : PyStr → Except ε Json
  /-- The value of `NaN`, `Infinity` or `-Infinity`. -/
  constant : PyStr → Except ε Json
  /-- The value of an object, given its pairs in order. -/
  pairs : List (PyStr × Json) → Except ε Json
  /-- The exception of entering an array or object inside so many others. -/
  nest : Nat → Option ε

theorem Except.map_eq_ok {ε α β : Type} {f : α → β} {x : Except ε α} {b : β}
    (h : x.map f = .ok b) : ∃ a, x = .ok a ∧ f a = b := by
  cases x with
  | error e => cases h
  | ok a => exact ⟨a, rfl, Except.ok.inj h⟩

theorem Except.bind_eq_ok {ε α β : Type} {f : α → Except ε β} {x : Except ε α} {b : β}
    (h : x >>= f = .ok b) : ∃ a, x = .ok a ∧ f a = .ok b := by
  cases x with
  | error e => cases h
  | ok a => exact ⟨a, rfl, h⟩

theorem Except.bind_eq_error {ε α β : Type} {x : Except ε α} {f : α → Except ε β} {e : ε} :
    x >>= f = .error e ↔ x = .error e ∨ ∃ a, x = .ok a ∧ f a = .error e := by
  cases x with
  | error e' =>
    refine ⟨fun h => .inl (congrArg Except.error (Except.error.inj h)), ?_⟩
    rintro (h | ⟨a, ha, -⟩)
    · exact congrArg Except.error (Except.error.inj h)
    · cases ha
  | ok a =>
    refine ⟨fun h => .inr ⟨a, rfl, h⟩, ?_⟩
    rintro (h | ⟨b, hb, h⟩)
    · cases h
    · exact Except.ok.inj hb ▸ h

/-! ## Strings -/

/-- White space between tokens. -/
def isBlank (c : CodePoint) : Bool :=
  c = cp ' ' || c = cp '\t' || c = cp '\n' || c = cp '\r'

/-- A text without the white space it starts with. -/
def skipBlank (t : PyStr) : PyStr := t.dropWhile isBlank

/-- The code point of a one-letter escape. -/
def unescape (c : CodePoint) : Option CodePoint :=
  if c = cp '"' ∨ c = cp '\\' ∨ c = cp '/' then some c
  else if c = cp 'b' then some (Fin.ofNat _ 0x08)
  else if c = cp 'f' then some (Fin.ofNat _ 0x0C)
  else if c = cp 'n' then some (cp '\n')
  else if c = cp 'r' then some (cp '\r')
  else if c = cp 't' then some (cp '\t')
  else none

/-- The code point of the four digits of a `\u` escape. -/
def hex4 (a b c d : CodePoint) : Option CodePoint := do
  let w ← hexValue a
  let x ← hexValue b
  let y ← hexValue c
  let z ← hexValue d
  some (Fin.ofNat _ (0x1000 * w + 0x100 * x + 0x10 * y + z))

/-- The code points up to the closing quote, each with whether it was written as
    a `\u` escape, and the rest. -/
def scanString : PyStr → Option (List (CodePoint × Bool) × PyStr)
  | [] => none
  | c :: s =>
    if c = cp '"' then some ([], s)
    else if c.val < 0x20 then none
    else if c = cp '\\' then
      match s with
      | [] => none
      | e :: s =>
        if e = cp 'u' then
          match s with
          | w :: x :: y :: z :: s => do
            let u ← hex4 w x y z
            let t ← scanString s
            some ((u, true) :: t.1, t.2)
          | _ => none
        else do
          let u ← unescape e
          let t ← scanString s
          some ((u, false) :: t.1, t.2)
    else do
      let t ← scanString s
      some ((c, false) :: t.1, t.2)

/-- The text of the scanned code points: two escapes in a row that are the halves
    of a surrogate pair denote one code point. -/
def joinPairs : List (CodePoint × Bool) → PyStr
  | [] => []
  | [(c, _)] => [c]
  | (c, x) :: (d, y) :: s =>
    if x && y && (0xD800 ≤ c.val && c.val < 0xDC00) && (0xDC00 ≤ d.val && d.val < 0xE000) then
      Fin.ofNat _ (0x10000 + 0x400 * (c.val - 0xD800) + (d.val - 0xDC00)) :: joinPairs s
    else c :: joinPairs ((d, y) :: s)

/-- The string whose opening quote was read, and the rest. -/
def parseString (t : PyStr) : Option (PyStr × PyStr) :=
  (scanString t).map fun s => (joinPairs s.1, s.2)

theorem joinPairs_cons {c : CodePoint} {x : Bool} (s : List (CodePoint × Bool))
    (h : x = true → c.val < 0xD800) : joinPairs ((c, x) :: s) = c :: joinPairs s := by
  cases s with
  | nil => rfl
  | cons m s =>
    obtain ⟨d, y⟩ := m
    rw [joinPairs, if_neg]
    cases x with
    | false => simp
    | true =>
      have := h rfl
      simp only [Bool.true_and, Bool.and_eq_true, decide_eq_true_eq, not_and]
      omega

theorem scanString_quote (t : PyStr) : scanString (cp '"' :: t) = some ([], t) := by
  rw [scanString.eq_def]
  exact if_pos rfl

theorem scanString_plain {c : CodePoint} (t : PyStr) (hq : c ≠ cp '"') (hc : ¬c.val < 0x20)
    (hb : c ≠ cp '\\') :
    scanString (c :: t) = (scanString t).map fun s => ((c, false) :: s.1, s.2) := by
  rw [scanString.eq_def]
  simp only [if_neg hq, if_neg hc, if_neg hb, Option.bind_eq_bind]
  cases scanString t <;> rfl

theorem scanString_unescape {e d : CodePoint} (t : PyStr) (hu : e ≠ cp 'u')
    (hd : unescape e = some d) :
    scanString (cp '\\' :: e :: t) = (scanString t).map fun s => ((d, false) :: s.1, s.2) := by
  have hq : cp '\\' ≠ cp '"' := by decide
  have hc : ¬(cp '\\').val < 0x20 := by decide
  rw [scanString.eq_def]
  simp only [if_neg hq, if_neg hc, if_neg hu, if_true, hd, Option.bind_eq_bind, Option.bind_some]
  cases scanString t <;> rfl

theorem scanString_hex4 {w x y z u : CodePoint} (t : PyStr) (hu : hex4 w x y z = some u) :
    scanString (cp '\\' :: cp 'u' :: w :: x :: y :: z :: t) =
      (scanString t).map fun s => ((u, true) :: s.1, s.2) := by
  have hq : cp '\\' ≠ cp '"' := by decide
  have hc : ¬(cp '\\').val < 0x20 := by decide
  rw [scanString.eq_def]
  simp only [if_neg hq, if_neg hc, if_true, hu, Option.bind_eq_bind, Option.bind_some]
  cases scanString t <;> rfl

/-- The digits of a control character are those of its escape. -/
theorem hex4_hexDigit {c : CodePoint} (h : c.val < 0x100) :
    hex4 (cp '0') (cp '0') (hexDigit (c.val / 16)) (hexDigit (c.val % 16)) = some c := by
  have h0 : hexValue (cp '0') = some 0 := by decide
  simp only [hex4, h0, hexValue_hexDigit (show c.val / 16 < 16 by omega),
    hexValue_hexDigit (show c.val % 16 < 16 by omega), Option.bind_eq_bind, Option.bind_some,
    Option.some.injEq]
  refine Fin.ext ?_
  rw [Fin.val_ofNat, Nat.mod_eq_of_lt (by omega)]
  omega

/-- Reading one character of a literal. -/
theorem scanString_escape (c : CodePoint) (t : PyStr) :
    ∃ x : Bool, (x = true → c.val < 0xD800) ∧
      scanString (Json.escape c ++ t) = (scanString t).map fun s => ((c, x) :: s.1, s.2) := by
  have plain (d e : CodePoint) (hu : e ≠ cp 'u') (hd : unescape e = some d) :
      ∃ x : Bool, (x = true → d.val < 0xD800) ∧
        scanString ([cp '\\', e] ++ t) = (scanString t).map fun s => ((d, x) :: s.1, s.2) :=
    ⟨false, by simp, scanString_unescape t hu hd⟩
  unfold Json.escape
  split_ifs with h₁ h₂ h₃ h₄ h₅ h₆ h₇ h₈
  · exact h₁ ▸ plain (cp '"') (cp '"') (by decide) (by decide)
  · exact h₂ ▸ plain (cp '\\') (cp '\\') (by decide) (by decide)
  · exact h₃ ▸ plain (cp '\n') (cp 'n') (by decide) (by decide)
  · exact h₄ ▸ plain (cp '\r') (cp 'r') (by decide) (by decide)
  · exact h₅ ▸ plain (cp '\t') (cp 't') (by decide) (by decide)
  · obtain rfl : c = Fin.ofNat _ 0x0C := Fin.ext h₆
    exact plain _ (cp 'f') (by decide) (by decide)
  · obtain rfl : c = Fin.ofNat _ 0x08 := Fin.ext h₇
    exact plain _ (cp 'b') (by decide) (by decide)
  · exact ⟨true, fun _ => by omega, scanString_hex4 t (hex4_hexDigit (by omega))⟩
  · exact ⟨false, by simp, scanString_plain t h₁ h₈ h₂⟩

/-- Reading a literal takes its string back. -/
theorem parseString_quote (s r : PyStr) :
    parseString (s.flatMap Json.escape ++ cp '"' :: r) = some (s, r) := by
  suffices h : ∃ l, scanString (s.flatMap Json.escape ++ cp '"' :: r) = some (l, r) ∧
      joinPairs l = s by
    obtain ⟨l, hl, rfl⟩ := h
    rw [parseString, hl]
    rfl
  induction s with
  | nil => exact ⟨[], scanString_quote r, rfl⟩
  | cons c s ih =>
    obtain ⟨l, hl, hs⟩ := ih
    obtain ⟨x, hx, he⟩ := scanString_escape c (s.flatMap Json.escape ++ cp '"' :: r)
    refine ⟨(c, x) :: l, ?_, ?_⟩
    · rw [List.flatMap_cons, List.append_assoc, he, hl]
      rfl
    · rw [joinPairs_cons l hx, hs]

/-! ## Values -/

variable {ε : Type} (h : Hooks ε)

/-- The value of a name at the start of a text, and the rest. -/
def parseName (t : PyStr) : Option (Except ε Json × PyStr) :=
  if (py "null").isPrefixOf t then some (.ok .null, t.drop 4)
  else if (py "true").isPrefixOf t then some (.ok (.bool true), t.drop 4)
  else if (py "false").isPrefixOf t then some (.ok (.bool false), t.drop 5)
  else if (py "NaN").isPrefixOf t then some (h.constant (py "NaN"), t.drop 3)
  else if (py "Infinity").isPrefixOf t then some (h.constant (py "Infinity"), t.drop 8)
  else if (py "-Infinity").isPrefixOf t then some (h.constant (py "-Infinity"), t.drop 9)
  else none

/-- The value of a name or a number at the start of a text, and the rest. -/
def parseAtom (t : PyStr) : Except ε (Json × PyStr) :=
  match parseName h t with
  | some (v, r) => v.map (·, r)
  | none =>
    match scanNumber t with
    | some (true, literal, r) => (h.float literal).map (·, r)
    | some (false, literal, r) => (h.int literal).map (·, r)
    | none => .error h.malformed

mutual

/-- The value at the start of a text, inside `depth` arrays and objects, and the
    rest. Of two steps in a row one reads a character at least, so that a text never
    needs more `fuel` than twice its length. -/
def parseValue : (fuel depth : Nat) → PyStr → Except ε (Json × PyStr)
  | 0, _, _ => .error h.malformed
  | _ + 1, _, [] => .error h.malformed
  | fuel + 1, depth, c :: t =>
    if c = cp '"' then
      match parseString t with
      | some (s, r) => .ok (.str s, r)
      | none => .error h.malformed
    else if c = cp '[' then
      match h.nest depth with
      | some e => .error e
      | none =>
        match skipBlank t with
        | [] => .error h.malformed
        | d :: t =>
          if d = cp ']' then .ok (.arr [], t)
          else (parseItems fuel (depth + 1) (d :: t)).map fun r => (.arr r.1, r.2)
    else if c = cp '{' then
      match h.nest depth with
      | some e => .error e
      | none =>
        match skipBlank t with
        | [] => .error h.malformed
        | d :: t =>
          if d = cp '}' then (h.pairs []).map (·, t)
          else do
            let r ← parseMembers fuel (depth + 1) (d :: t)
            (h.pairs r.1).map (·, r.2)
    else parseAtom h (c :: t)

/-- The items of an array from one of them on, and the rest after the array. -/
def parseItems : (fuel depth : Nat) → PyStr → Except ε (List Json × PyStr)
  | 0, _, _ => .error h.malformed
  | fuel + 1, depth, t => do
    let v ← parseValue fuel depth t
    match skipBlank v.2 with
    | [] => .error h.malformed
    | c :: t =>
      if c = cp ']' then .ok ([v.1], t)
      else if c = cp ',' then
        (parseItems fuel depth (skipBlank t)).map fun r => (v.1 :: r.1, r.2)
      else .error h.malformed

/-- The pairs of an object from one of them on, and the rest after the object. -/
def parseMembers : (fuel depth : Nat) → PyStr → Except ε (List (PyStr × Json) × PyStr)
  | 0, _, _ => .error h.malformed
  | _ + 1, _, [] => .error h.malformed
  | fuel + 1, depth, q :: t =>
    if q = cp '"' then
      match parseString t with
      | none => .error h.malformed
      | some (k, t) =>
        match skipBlank t with
        | [] => .error h.malformed
        | c :: t =>
          if c = cp ':' then do
            let v ← parseValue fuel depth (skipBlank t)
            match skipBlank v.2 with
            | [] => .error h.malformed
            | c :: t =>
              if c = cp '}' then .ok ([(k, v.1)], t)
              else if c = cp ',' then
                (parseMembers fuel depth (skipBlank t)).map fun r => ((k, v.1) :: r.1, r.2)
              else .error h.malformed
          else .error h.malformed
    else .error h.malformed

end

/-- The byte-order mark. -/
def byteOrderMark : CodePoint := Fin.ofNat _ 0xFEFF

/-- The value of a text: `json.loads` of a `str`. -/
def loads (t : PyStr) : Except ε Json :=
  if t.head? = some byteOrderMark then .error h.malformed
  else do
    let v ← parseValue h (2 * t.length + 1) 0 (skipBlank t)
    if (skipBlank v.2).isEmpty then .ok v.1 else .error h.malformed

mutual

/-- What the hooks make of a value inside `depth` arrays and objects. -/
def interp : (depth : Nat) → Json → Except ε Json
  | _, .null => .ok .null
  | _, .bool b => .ok (.bool b)
  | _, .int n => h.int (intText n)
  | _, .float t => if t ∈ constants then h.constant t else h.float t
  | _, .str s => .ok (.str s)
  | depth, .arr items =>
    match h.nest depth with
    | some e => .error e
    | none => (interpItems (depth + 1) items).map .arr
  | depth, .obj members =>
    match h.nest depth with
    | some e => .error e
    | none => interpMembers (depth + 1) members >>= h.pairs

/-- What the hooks make of the items of an array. -/
def interpItems : (depth : Nat) → List Json → Except ε (List Json)
  | _, [] => .ok []
  | depth, v :: items => do
    let v ← interp depth v
    (interpItems depth items).map (v :: ·)

/-- What the hooks make of the members of an object. -/
def interpMembers : (depth : Nat) → List (PyStr × Json) → Except ε (List (PyStr × Json))
  | _, [] => .ok []
  | depth, (k, v) :: members => do
    let v ← interp depth v
    (interpMembers depth members).map ((k, v) :: ·)

end

/-! ## Reading a text back -/

theorem parseName_of_isDigit {c : CodePoint} (hc : isDigit c = true) (t : PyStr) :
    parseName h (c :: t) = none := by
  have hne {d : CodePoint} (hd : isDigit d = false) : (d == c) = false :=
    beq_eq_false_iff_ne.2 fun e => by rw [e, hc] at hd; cases hd
  have hn := hne (d := cp 'n') (by decide)
  have ht := hne (d := cp 't') (by decide)
  have hf := hne (d := cp 'f') (by decide)
  have hN := hne (d := cp 'N') (by decide)
  have hI := hne (d := cp 'I') (by decide)
  have hm := hne (d := cp '-') (by decide)
  simp only [parseName, py, String.reduceToList, List.map_cons, List.isPrefixOf, hn, ht, hf, hN, hI,
    hm, Bool.false_and, Bool.false_eq_true, if_false]

theorem parseName_minus {c : CodePoint} (hc : isDigit c = true) (t : PyStr) :
    parseName h (cp '-' :: c :: t) = none := by
  have hI : (cp 'I' == c) = false :=
    beq_eq_false_iff_ne.2 fun e => by rw [← e] at hc; exact absurd hc (by decide)
  have hn : (cp 'n' == cp '-') = false := by decide
  have ht : (cp 't' == cp '-') = false := by decide
  have hf : (cp 'f' == cp '-') = false := by decide
  have hN : (cp 'N' == cp '-') = false := by decide
  have hI' : (cp 'I' == cp '-') = false := by decide
  simp only [parseName, py, String.reduceToList, List.map_cons, List.isPrefixOf, hn, ht, hf, hN,
    hI, hI', Bool.false_and, Bool.and_false, Bool.false_eq_true, if_false]

/-- A number starts with a digit, after its sign. -/
theorem scanNumber_head {t : PyStr} {n : Bool × PyStr × PyStr} (hn : scanNumber t = some n) :
    (∃ c s, t = c :: s ∧ isDigit c = true) ∨ ∃ c s, t = cp '-' :: c :: s ∧ isDigit c = true := by
  have hd {sign s : PyStr} (hs : scanDigits sign s = some n) : ∃ c t, s = c :: t ∧ isDigit c = true := by
    cases s with
    | nil => cases hs
    | cons c s =>
      refine ⟨c, s, rfl, ?_⟩
      rw [scanDigits] at hs
      split_ifs at hs with h₁ h₂
      · exact h₁ ▸ by decide
      · exact h₂
  cases t with
  | nil => cases hn
  | cons c s =>
    rw [scanNumber] at hn
    split_ifs at hn with hc
    · obtain ⟨d, t, rfl, ht⟩ := hd hn
      exact .inr ⟨d, t, by rw [hc], ht⟩
    · exact .inl (hd hn)

theorem parseName_of_scanNumber {t : PyStr} {n : Bool × PyStr × PyStr} (hn : scanNumber t = some n) :
    parseName h t = none := by
  rcases scanNumber_head hn with ⟨c, s, rfl, hc⟩ | ⟨c, s, rfl, hc⟩
  · exact parseName_of_isDigit h hc s
  · exact parseName_minus h hc s

section Delimited

variable {r : PyStr} (hr : Delimited r)

include hr

theorem parseAtom_int (n : Int) :
    parseAtom h (intText n ++ r) = (h.int (intText n)).map (·, r) := by
  have hs : scanNumber (intText n ++ r) = some (false, intText n, r) := by
    rw [scanNumber_append hr, scanNumber_intText]
    rfl
  rw [parseAtom, parseName_of_scanNumber h hs]
  simp only [hs]

theorem parseAtom_float {t : PyStr} (ht : FloatLiteral t) :
    parseAtom h (t ++ r) = (if t ∈ constants then h.constant t else h.float t).map (·, r) := by
  by_cases hc : t ∈ constants
  · rw [if_pos hc]
    rcases List.mem_cons.1 hc with rfl | hc
    · rfl
    · rcases List.mem_cons.1 hc with rfl | hc
      · rfl
      · obtain rfl := List.mem_singleton.1 hc
        rfl
  · have hn : scanNumber t = some (true, t, []) := ht.resolve_left hc
    have hs : scanNumber (t ++ r) = some (true, t, r) := by
      rw [scanNumber_append hr, hn]
      rfl
    rw [if_neg hc, parseAtom, parseName_of_scanNumber h hs]
    simp only [hs]

end Delimited

/-- The characters a number may start with. -/
def numberStart (c : CodePoint) : Bool :=
  isDigit c || c = cp '-' || c = cp 'N' || c = cp 'I'

theorem numberStart_scanNumber {t : PyStr} {n : Bool × PyStr × PyStr} (hn : scanNumber t = some n) :
    ∃ c s, t = c :: s ∧ numberStart c = true := by
  rcases scanNumber_head hn with ⟨c, s, rfl, hc⟩ | ⟨c, s, rfl, -⟩
  · exact ⟨c, s, rfl, by simp [numberStart, hc]⟩
  · exact ⟨_, _, rfl, by decide⟩

theorem numberStart_float {t : PyStr} (ht : FloatLiteral t) :
    ∃ c s, t = c :: s ∧ numberStart c = true := by
  rcases ht with hc | hn
  · rcases List.mem_cons.1 hc with rfl | hc
    · exact ⟨_, _, rfl, by decide⟩
    · rcases List.mem_cons.1 hc with rfl | hc
      · exact ⟨_, _, rfl, by decide⟩
      · obtain rfl := List.mem_singleton.1 hc
        exact ⟨_, _, rfl, by decide⟩
  · exact numberStart_scanNumber hn

theorem numberStart_ne {c d : CodePoint} (hc : numberStart c = true) (hd : numberStart d = false) :
    c ≠ d := fun e => by rw [e, hd] at hc; cases hc

theorem isBlank_of_numberStart {c : CodePoint} (hc : numberStart c = true) : isBlank c = false := by
  simp only [isBlank, Bool.or_eq_false_iff, decide_eq_false_iff_not]
  exact ⟨⟨⟨numberStart_ne hc (by decide), numberStart_ne hc (by decide)⟩,
    numberStart_ne hc (by decide)⟩, numberStart_ne hc (by decide)⟩

/-- The text of a value starts with a character that is not white space, does not
    close an array and is no byte-order mark. -/
theorem Json.dumps_head {v : Json} (hv : v.Numeral) :
    ∃ c t, v.dumps = c :: t ∧ isBlank c = false ∧ c ≠ cp ']' ∧ c ≠ byteOrderMark := by
  have number {t : PyStr} (ht : ∃ c s, t = c :: s ∧ numberStart c = true) :
      ∃ c s, t = c :: s ∧ isBlank c = false ∧ c ≠ cp ']' ∧ c ≠ byteOrderMark := by
    obtain ⟨c, s, rfl, hc⟩ := ht
    exact ⟨c, s, rfl, isBlank_of_numberStart hc, numberStart_ne hc (by decide),
      numberStart_ne hc (by decide)⟩
  match v with
  | .null => exact ⟨_, _, rfl, by decide, by decide, by decide⟩
  | .bool true => exact ⟨_, _, rfl, by decide, by decide, by decide⟩
  | .bool false => exact ⟨_, _, rfl, by decide, by decide, by decide⟩
  | .int n => exact number (numberStart_scanNumber (scanNumber_intText n))
  | .float t => exact number (numberStart_float hv)
  | .str s => exact ⟨_, _, rfl, by decide, by decide, by decide⟩
  | .arr [] => exact ⟨_, _, rfl, by decide, by decide, by decide⟩
  | .arr (_ :: _) => exact ⟨_, _, rfl, by decide, by decide, by decide⟩
  | .obj [] => exact ⟨_, _, rfl, by decide, by decide, by decide⟩
  | .obj ((_, _) :: _) => exact ⟨_, _, rfl, by decide, by decide, by decide⟩

theorem skipBlank_cons {c : CodePoint} (hc : isBlank c = false) (t : PyStr) :
    skipBlank (c :: t) = c :: t := by
  rw [skipBlank, List.dropWhile_cons, hc]
  rfl

theorem skipBlank_dumps {v : Json} (hv : v.Numeral) (r : PyStr) :
    skipBlank (v.dumps ++ r) = v.dumps ++ r := by
  obtain ⟨c, t, hd, hc, -, -⟩ := Json.dumps_head hv
  rw [hd]
  exact skipBlank_cons hc _

/-- A value that is neither a string, an array nor an object is read whole. -/
theorem parseValue_number {c : CodePoint} (hc : numberStart c = true) (fuel depth : Nat)
    (t : PyStr) : parseValue h (fuel + 1) depth (c :: t) = parseAtom h (c :: t) := by
  rw [parseValue, if_neg (numberStart_ne hc (by decide)), if_neg (numberStart_ne hc (by decide)),
    if_neg (numberStart_ne hc (by decide))]

theorem delimited_cons {c : CodePoint} (t : PyStr)
    (hc : isDigit c = false ∧ c ≠ cp '.' ∧ c ≠ cp 'e' ∧ c ≠ cp 'E' ∧ c ≠ cp '-' ∧ c ≠ cp '+') :
    Delimited (c :: t) := by
  rintro d hd
  obtain rfl := Option.some.inj hd
  exact hc

theorem delimited_dumpsItems (items : List Json) (r : PyStr) :
    Delimited (Json.dumpsItems items ++ r) := by
  cases items with
  | nil => exact delimited_cons _ (by decide)
  | cons v items => exact delimited_cons _ (by decide)

theorem delimited_dumpsMembers (members : List (PyStr × Json)) (r : PyStr) :
    Delimited (Json.dumpsMembers members ++ r) := by
  cases members with
  | nil => exact delimited_cons _ (by decide)
  | cons m members => exact delimited_cons _ (by decide)

mutual

/-- Reading the text of a value gives what the hooks make of the value. -/
theorem parseValue_dumps {v : Json} (hv : v.Numeral) {fuel : Nat} (depth : Nat) {r : PyStr}
    (hf : 2 * (v.dumps ++ r).length < fuel) (hr : Delimited r) :
    parseValue h fuel depth (v.dumps ++ r) = (interp h depth v).map (·, r) := by
  obtain ⟨fuel, rfl⟩ : ∃ n, fuel = n + 1 := ⟨fuel - 1, by omega⟩
  match v with
  | .null => rfl
  | .bool true => rfl
  | .bool false => rfl
  | .int n =>
    obtain ⟨c, s, hs, hc⟩ := numberStart_scanNumber (scanNumber_intText n)
    rw [interp, ← parseAtom_int h hr n, Json.dumps, hs, List.cons_append]
    exact parseValue_number h hc _ _ _
  | .float t =>
    obtain ⟨c, s, hs, hc⟩ := numberStart_float hv
    rw [interp, ← parseAtom_float h hr hv, Json.dumps, hs, List.cons_append]
    exact parseValue_number h hc _ _ _
  | .str s =>
    have ht : (Json.str s).dumps ++ r = cp '"' :: (s.flatMap Json.escape ++ cp '"' :: r) := by
      simp [Json.dumps, Json.quote]
    rw [ht, parseValue, if_pos rfl, parseString_quote]
    rfl
  | .arr [] =>
    change parseValue h (fuel + 1) depth (cp '[' :: cp ']' :: r) = _
    rw [parseValue, if_neg (by decide), if_pos rfl, interp]
    cases h.nest depth with
    | some e => rfl
    | none => rfl
  | .arr (v :: items) =>
    obtain ⟨hv₁, hvs⟩ := hv.2
    have ht : (Json.arr (v :: items)).dumps ++ r =
        cp '[' :: (v.dumps ++ (Json.dumpsItems items ++ r)) := by
      simp [Json.dumps]
    rw [ht] at hf ⊢
    have hl : 2 * (v.dumps ++ (Json.dumpsItems items ++ r)).length + 1 < fuel := by
      rw [List.length_cons] at hf
      omega
    have hp := parseItems_dumps hv₁ hvs (depth + 1) hl
    have hb := skipBlank_dumps hv₁ (Json.dumpsItems items ++ r)
    obtain ⟨c, t, hd, hc, hne, -⟩ := Json.dumps_head hv₁
    rw [hd, List.cons_append] at hp hb ⊢
    rw [parseValue, if_neg (by decide), if_pos rfl, interp, hb]
    cases h.nest depth with
    | some e => rfl
    | none =>
      simp only [if_neg hne, hp]
      cases interpItems h (depth + 1) (v :: items) <;> rfl
  | .obj [] =>
    change parseValue h (fuel + 1) depth (cp '{' :: cp '}' :: r) = _
    rw [parseValue, if_neg (by decide), if_neg (by decide), if_pos rfl, interp]
    cases h.nest depth with
    | some e => rfl
    | none => rfl
  | .obj ((k, v) :: members) =>
    obtain ⟨hv₁, hvs⟩ := hv.2
    have ht : (Json.obj ((k, v) :: members)).dumps ++ r =
        cp '{' :: cp '"' :: (k.flatMap Json.escape ++
          cp '"' :: cp ':' :: (v.dumps ++ (Json.dumpsMembers members ++ r))) := by
      simp [Json.dumps, Json.quote]
    rw [ht] at hf ⊢
    have hl : 2 * (cp '"' :: (k.flatMap Json.escape ++
        cp '"' :: cp ':' :: (v.dumps ++ (Json.dumpsMembers members ++ r)))).length + 1 < fuel := by
      rw [List.length_cons] at hf
      omega
    have hp := parseMembers_dumps k hv₁ hvs (depth + 1) hl
    rw [parseValue, if_neg (by decide), if_neg (by decide), if_pos rfl, interp,
      skipBlank_cons (by decide)]
    cases h.nest depth with
    | some e => rfl
    | none =>
      have hne : cp '"' ≠ cp '}' := by decide
      simp only [if_neg hne, hp]
      cases interpMembers h (depth + 1) ((k, v) :: members) <;> rfl
termination_by fuel

/-- Reading the items of an array. -/
theorem parseItems_dumps {v : Json} {items : List Json} (hv : v.Numeral)
    (hvs : Json.EveryItem Json.IsNumeral items) {fuel : Nat} (depth : Nat) {r : PyStr}
    (hf : 2 * (v.dumps ++ (Json.dumpsItems items ++ r)).length + 1 < fuel) :
    parseItems h fuel depth (v.dumps ++ (Json.dumpsItems items ++ r)) =
      (interpItems h depth (v :: items)).map (·, r) := by
  obtain ⟨fuel, rfl⟩ : ∃ n, fuel = n + 1 := ⟨fuel - 1, by omega⟩
  have hl : 2 * (v.dumps ++ (Json.dumpsItems items ++ r)).length < fuel := by omega
  have hp := parseValue_dumps hv depth hl (delimited_dumpsItems items r)
  rw [parseItems, hp, interpItems]
  cases interp h depth v with
  | error e => rfl
  | ok x =>
    change (match skipBlank (Json.dumpsItems items ++ r) with | [] => _ | c :: t => _) = _
    match items with
    | [] =>
      rw [Json.dumpsItems, List.singleton_append, skipBlank_cons (by decide)]
      simp only [if_true, interpItems]
      rfl
    | w :: items =>
      have hw : 2 * (w.dumps ++ (Json.dumpsItems items ++ r)).length + 1 < fuel := by
        simp only [Json.dumpsItems, List.length_append, List.length_cons] at hf ⊢
        omega
      have hi := parseItems_dumps hvs.1 hvs.2 depth hw
      have hne : cp ',' ≠ cp ']' := by decide
      rw [Json.dumpsItems, List.cons_append, List.append_assoc, skipBlank_cons (by decide)]
      simp only [if_neg hne, if_true, skipBlank_dumps hvs.1, hi]
      cases interpItems h depth (w :: items) <;> rfl
termination_by fuel

/-- Reading the members of an object. -/
theorem parseMembers_dumps (k : PyStr) {v : Json} {members : List (PyStr × Json)} (hv : v.Numeral)
    (hvs : Json.EveryMember Json.IsNumeral members) {fuel : Nat} (depth : Nat) {r : PyStr}
    (hf : 2 * (cp '"' :: (k.flatMap Json.escape ++
      cp '"' :: cp ':' :: (v.dumps ++ (Json.dumpsMembers members ++ r)))).length + 1 < fuel) :
    parseMembers h fuel depth (cp '"' :: (k.flatMap Json.escape ++
      cp '"' :: cp ':' :: (v.dumps ++ (Json.dumpsMembers members ++ r)))) =
      (interpMembers h depth ((k, v) :: members)).map (·, r) := by
  obtain ⟨fuel, rfl⟩ : ∃ n, fuel = n + 1 := ⟨fuel - 1, by omega⟩
  have hl : 2 * (v.dumps ++ (Json.dumpsMembers members ++ r)).length < fuel := by
    simp only [List.length_append, List.length_cons] at hf ⊢
    omega
  have hp := parseValue_dumps hv depth hl (delimited_dumpsMembers members r)
  rw [parseMembers, if_pos rfl, parseString_quote]
  simp only [skipBlank_cons (show isBlank (cp ':') = false by decide), if_true,
    skipBlank_dumps hv, hp, interpMembers]
  cases interp h depth v with
  | error e => rfl
  | ok x =>
    change (match skipBlank (Json.dumpsMembers members ++ r) with | [] => _ | c :: t => _) = _
    match members with
    | [] =>
      rw [Json.dumpsMembers, List.singleton_append, skipBlank_cons (by decide)]
      simp only [if_true, interpMembers]
      rfl
    | (l, w) :: members =>
      have ht : Json.dumpsMembers ((l, w) :: members) ++ r =
          cp ',' :: cp '"' :: (l.flatMap Json.escape ++
            cp '"' :: cp ':' :: (w.dumps ++ (Json.dumpsMembers members ++ r))) := by
        simp [Json.dumpsMembers, Json.quote]
      have hl : 2 * (cp '"' :: (l.flatMap Json.escape ++
          cp '"' :: cp ':' :: (w.dumps ++ (Json.dumpsMembers members ++ r)))).length + 1 < fuel := by
        rw [ht] at hf
        simp only [List.length_append, List.length_cons] at hf ⊢
        omega
      have hm := parseMembers_dumps l hvs.1 hvs.2 depth hl
      have hne : cp ',' ≠ cp '}' := by decide
      rw [ht, skipBlank_cons (by decide)]
      simp only [if_neg hne, if_true, skipBlank_cons (show isBlank (cp '"') = false by decide), hm]
      cases interpMembers h depth ((l, w) :: members) <;> rfl
termination_by fuel

end

/-- Reading the text of a value, and no more, gives what the hooks make of it. -/
theorem loads_dumps {v : Json} (hv : v.Numeral) : loads h v.dumps = interp h 0 v := by
  have hb := skipBlank_dumps hv []
  have hl : 2 * (v.dumps ++ []).length < 2 * v.dumps.length + 1 := by
    rw [List.append_nil]
    omega
  have hp := parseValue_dumps h hv 0 hl nofun
  obtain ⟨c, t, hd, -, -, hm⟩ := Json.dumps_head hv
  rw [List.append_nil] at hb hp
  have hh : ¬v.dumps.head? = some byteOrderMark := by
    rw [hd]
    exact fun e => hm (Option.some.inj e)
  rw [loads, if_neg hh, hb, hp]
  cases interp h 0 v <;> rfl

/-- The hooks give a value back, when they are given what it was made of. -/
def Hooks.Keeps : Json → Prop
  | .int n => h.int (intText n) = .ok (.int n)
  | .float t => (if t ∈ constants then h.constant t else h.float t) = .ok (.float t)
  | .obj members => h.pairs members = .ok (.obj members)
  | _ => True

mutual

/-- Hooks that keep every value inside a value keep the value. -/
theorem interp_eq_self {v : Json} (hv : v.Every h.Keeps) (depth : Nat)
    (hn : ∀ k < v.depth, h.nest (depth + k) = none) : interp h depth v = .ok v := by
  match v with
  | .null | .bool _ | .str _ => rfl
  | .int n => exact hv
  | .float t => exact hv
  | .arr items =>
    have hi := interpItems_eq_self hv.2 (depth + 1) fun k hk => by
      rw [Nat.add_assoc, Nat.add_comm 1]
      exact hn (k + 1) (Nat.succ_lt_succ hk)
    have h0 : h.nest depth = none := hn 0 (Nat.succ_pos _)
    rw [interp, h0, hi]
    rfl
  | .obj members =>
    have hi := interpMembers_eq_self hv.2 (depth + 1) fun k hk => by
      rw [Nat.add_assoc, Nat.add_comm 1]
      exact hn (k + 1) (Nat.succ_lt_succ hk)
    have h0 : h.nest depth = none := hn 0 (Nat.succ_pos _)
    rw [interp, h0, hi]
    exact hv.1

theorem interpItems_eq_self {items : List Json} (hv : Json.EveryItem h.Keeps items) (depth : Nat)
    (hn : ∀ k < Json.depthItems items, h.nest (depth + k) = none) :
    interpItems h depth items = .ok items := by
  match items with
  | [] => rfl
  | v :: items =>
    rw [interpItems, interp_eq_self hv.1 depth fun k hk => hn k (hk.trans_le (Nat.le_max_left _ _)),
      interpItems_eq_self hv.2 depth fun k hk => hn k (hk.trans_le (Nat.le_max_right _ _))]
    rfl

theorem interpMembers_eq_self {members : List (PyStr × Json)}
    (hv : Json.EveryMember h.Keeps members) (depth : Nat)
    (hn : ∀ k < Json.depthMembers members, h.nest (depth + k) = none) :
    interpMembers h depth members = .ok members := by
  match members with
  | [] => rfl
  | (l, v) :: members =>
    rw [interpMembers, interp_eq_self hv.1 depth fun k hk => hn k (hk.trans_le (Nat.le_max_left _ _)),
      interpMembers_eq_self hv.2 depth fun k hk => hn k (hk.trans_le (Nat.le_max_right _ _))]
    rfl

end

/-- Hooks without limits: integers are read whole, other numbers keep their literal,
    and an object is the dictionary of its pairs. -/
def Hooks.plain (malformed : ε) : Hooks ε where
  malformed
  int t := .ok (.int (intOf t))
  float t := .ok (.float t)
  constant t := .ok (.float t)
  pairs members := .ok (.obj (Dict.ofPairs members))
  nest _ := none

/-- The plain hooks keep a value whose objects are dictionaries. -/
theorem plain_keeps (malformed : ε) {v : Json} (hv : v.Sorted) :
    v.Every (Hooks.plain malformed).Keeps := by
  refine hv.imp fun w hw => ?_
  cases w with
  | int n => exact congrArg (fun m => Except.ok (Json.int m)) (intOf_intText n)
  | float t => exact ite_self _
  | obj members => exact congrArg (fun d => Except.ok (Json.obj d)) (Dict.ofPairs_eq_self hw)
  | null | bool | str | arr => trivial

/-- Two values with the same text are the same. -/
theorem Json.dumps_injective {v w : Json} (hv : v.Sorted) (hv' : v.Numeral) (hw : w.Sorted)
    (hw' : w.Numeral) (he : v.dumps = w.dumps) : v = w := by
  have back {u : Json} (hu : u.Sorted) (hu' : u.Numeral) :
      loads (Hooks.plain ()) u.dumps = .ok u := by
    rw [loads_dumps _ hu', interp_eq_self _ (plain_keeps () hu) 0 fun _ _ => rfl]
  exact Except.ok.inj (by rw [← back hv hv', he, back hw hw'])

/-! ## What is read -/

/-- The hooks make values inside which every value satisfies `p`. -/
structure Hooks.Makes (p : Json → Prop) : Prop where
  null : p .null
  bool : ∀ b, p (.bool b)
  str : ∀ s, p (.str s)
  arr : ∀ items, p (.arr items)
  int : ∀ {t v}, h.int t = .ok v → v.Every p
  float : ∀ {t v}, h.float t = .ok v → v.Every p
  constant : ∀ {t v}, h.constant t = .ok v → v.Every p
  pairs : ∀ {members v}, h.pairs members = .ok v → (∀ m ∈ members, m.2.Every p) → v.Every p

section Makes

variable {h} {p : Json → Prop} (hp : h.Makes p)

include hp

theorem parseAtom_every {t : PyStr} {v : Json × PyStr} (hv : parseAtom h t = .ok v) :
    v.1.Every p := by
  have made {x : Except ε Json} {r : PyStr} (hx : x.map (·, r) = .ok v)
      (hm : ∀ w, x = .ok w → w.Every p) : v.1.Every p := by
    cases x with
    | error e => cases hx
    | ok w => exact Except.ok.inj hx ▸ hm w rfl
  unfold parseAtom at hv
  split at hv
  · rename_i x r hn
    refine made hv fun w hw => ?_
    subst hw
    unfold parseName at hn
    split_ifs at hn with h₁ h₂ h₃ h₄ h₅ h₆ <;> obtain ⟨hw, -⟩ := Prod.mk.inj (Option.some.inj hn)
    · exact Except.ok.inj hw ▸ hp.null
    · exact Except.ok.inj hw ▸ hp.bool true
    · exact Except.ok.inj hw ▸ hp.bool false
    · exact hp.constant hw
    · exact hp.constant hw
    · exact hp.constant hw
  · split at hv
    · exact made hv fun w hw => hp.float hw
    · exact made hv fun w hw => hp.int hw
    · cases hv

/-- Every value inside a value that is read satisfies what the hooks ensure; the
    induction is on the fuel, over the three readers together. -/
theorem parse_every (fuel : Nat) :
    (∀ depth t v, parseValue h fuel depth t = .ok v → v.1.Every p) ∧
      (∀ depth t vs, parseItems h fuel depth t = .ok vs → ∀ v ∈ vs.1, v.Every p) ∧
      ∀ depth t ms, parseMembers h fuel depth t = .ok ms → ∀ m ∈ ms.1, m.2.Every p := by
  induction fuel with
  | zero => exact ⟨nofun, nofun, nofun⟩
  | succ fuel ih =>
    obtain ⟨ihv, ihi, ihm⟩ := ih
    refine ⟨fun depth t v hv => ?_, fun depth t vs hv => ?_, fun depth t ms hv => ?_⟩
    · cases t with
      | nil => cases hv
      | cons c t =>
        rw [parseValue] at hv
        split_ifs at hv with h₁ h₂ h₃
        · split at hv
          · exact Except.ok.inj hv ▸ hp.str _
          · cases hv
        · split at hv
          · cases hv
          · split at hv
            · cases hv
            · split_ifs at hv
              · exact Except.ok.inj hv ▸ ⟨hp.arr [], trivial⟩
              · obtain ⟨vs, hi, rfl⟩ := Except.map_eq_ok hv
                exact Json.every_arr.2 ⟨hp.arr _, ihi _ _ _ hi⟩
        · split at hv
          · cases hv
          · split at hv
            · cases hv
            · split_ifs at hv
              · obtain ⟨w, hw, rfl⟩ := Except.map_eq_ok hv
                exact hp.pairs hw nofun
              · obtain ⟨ms, hm, hv⟩ := Except.bind_eq_ok hv
                obtain ⟨w, hw, rfl⟩ := Except.map_eq_ok hv
                exact hp.pairs hw (ihm _ _ _ hm)
        · exact parseAtom_every hp hv
    · rw [parseItems] at hv
      obtain ⟨v, hv₁, hv⟩ := Except.bind_eq_ok hv
      split at hv
      · cases hv
      · split_ifs at hv
        · obtain rfl := Except.ok.inj hv
          exact fun w hw => List.mem_singleton.1 hw ▸ ihv _ _ _ hv₁
        · obtain ⟨ws, hi, rfl⟩ := Except.map_eq_ok hv
          exact fun w hw => (List.mem_cons.1 hw).elim (fun e => e ▸ ihv _ _ _ hv₁)
            (ihi _ _ _ hi w)
    · cases t with
      | nil => cases hv
      | cons c t =>
        rw [parseMembers] at hv
        split_ifs at hv
        split at hv
        · cases hv
        · split at hv
          · cases hv
          · split_ifs at hv
            obtain ⟨v, hv₁, hv⟩ := Except.bind_eq_ok hv
            split at hv
            · cases hv
            · split_ifs at hv
              · obtain rfl := Except.ok.inj hv
                exact fun w hw => List.mem_singleton.1 hw ▸ ihv _ _ _ hv₁
              · obtain ⟨ws, hm, rfl⟩ := Except.map_eq_ok hv
                exact fun w hw => (List.mem_cons.1 hw).elim (fun e => e ▸ ihv _ _ _ hv₁)
                  (ihm _ _ _ hm w)

/-- Every value inside a value that is read satisfies what the hooks ensure. -/
theorem loads_every {t : PyStr} {v : Json} (hv : loads h t = .ok v) : v.Every p := by
  rw [loads] at hv
  split_ifs at hv
  obtain ⟨w, hw, hv⟩ := Except.bind_eq_ok hv
  split_ifs at hv
  exact Except.ok.inj hv ▸ (parse_every hp _).1 _ _ _ hw

end Makes

end Wire