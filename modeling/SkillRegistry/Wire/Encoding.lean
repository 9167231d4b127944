import SkillRegistry.Wire.Text

/-!
# Encodings of JSON texts

The encodings a JSON text may come in as bytes, and the choice among them by a
byte-order mark or by the zero bytes among the first four. Surrogates pass through
every one of them.

* `utf8_of_decodeUtf8`: UTF-8 is decoded from its own encoding only;
* `detectEncoding_utf8`: a text without a zero and without a mark is taken for UTF-8.
-/

namespace Wire

/-- An encoding of a text. -/
inductive Encoding where
  | utf8 | utf8Sig | utf16 | utf16be | utf16le | utf32 | utf32be | utf32le
  deriving DecidableEq, Repr

/-- `json.detect_encoding`. -/
def detectEncoding (b : Bytes) : Encoding :=
  if [0x00, 0x00, 0xFE, 0xFF].isPrefixOf b || [0xFF, 0xFE, 0x00, 0x00].isPrefixOf b then .utf32
  else if [0xFE, 0xFF].isPrefixOf b || [0xFF, 0xFE].isPrefixOf b then .utf16
  else if [0xEF, 0xBB, 0xBF].isPrefixOf b then .utf8Sig
  else
    match b with
    | w :: x :: y :: z :: _ =>
      if w = 0 then (if x = 0 then .utf32be else .utf16be)
      else if x = 0 then (if y = 0 ∧ z = 0 then .utf32le else .utf16le)
      else .utf8
    | [w, x] => if w = 0 then .utf16be else if x = 0 then .utf16le else .utf8
    | _ => .utf8

/-- The sixteen-bit units of a byte string. -/
def units16 (big : Bool) : Bytes → Option (List Nat)
  | [] => some []
  | [_] => none
  | a :: b :: s =>
    (units16 big s).map fun us =>
      (if big then a.toNat * 0x100 + b.toNat else b.toNat * 0x100 + a.toNat) :: us

/-- The text of sixteen-bit units: a high surrogate before a low one denotes one code
    point with it, and any other surrogate itself. -/
def ofUnits16 : List Nat → PyStr
  | [] => []
  | [u] => [Fin.ofNat _ u]
  | u :: v :: us =>
    if (0xD800 ≤ u && u < 0xDC00) && (0xDC00 ≤ v && v < 0xE000) then
      Fin.ofNat _ (0x10000 + 0x400 * (u - 0xD800) + (v - 0xDC00)) :: ofUnits16 us
    else Fin.ofNat _ u :: ofUnits16 (v :: us)

/-- The `utf-16-be` or `utf-16-le` decoding. -/
def decodeUtf16 (big : Bool) (b : Bytes) : Option PyStr := (units16 big b).map ofUnits16

/-- The `utf-32-be` or `utf-32-le` decoding. -/
def decodeUtf32 (big : Bool) : Bytes → Option PyStr
  | [] => some []
  | w :: x :: y :: z :: s =>
    let u := if big then ((w.toNat * 0x100 + x.toNat) * 0x100 + y.toNat) * 0x100 + z.toNat
      else ((z.toNat * 0x100 + y.toNat) * 0x100 + x.toNat) * 0x100 + w.toNat
    (fromForm 0 u).bind fun c => (decodeUtf32 big s).map (c :: ·)
  | _ => none

/-- The decoding of a byte string under the `surrogatepass` handler. -/
def Encoding.decode (b : Bytes) : Encoding → Option PyStr
  | utf8 => decodeUtf8 b
  | utf8Sig => decodeUtf8 (b.drop 3)
  | utf16 => decodeUtf16 (b.head? = some 0xFE) (b.drop 2)
  | utf16be => decodeUtf16 true b
  | utf16le => decodeUtf16 false b
  | utf32 => decodeUtf32 (b.head? = some 0x00) (b.drop 4)
  | utf32be => decodeUtf32 true b
  | utf32le => decodeUtf32 false b

/-- The text of a byte string, in the encoding it seems to have. -/
def decodeText (b : Bytes) : Option PyStr := (detectEncoding b).decode b

/-- A byte string that starts with an ASCII character and a byte that is not zero is taken for
    UTF-8. -/
theorem detectEncoding_of_ascii {x : UInt8} (hx : 0 < x ∧ x < 0x80) {b : Bytes}
    (hb : b.head? ≠ some 0) : detectEncoding (x :: b) = .utf8 := by
  have hx0 : x ≠ 0 := by rintro rfl; exact absurd hx.1 (by decide)
  have h₁ : x ≠ 0xFF := by rintro rfl; exact absurd hx.2 (by decide)
  have h₂ : x ≠ 0xFE := by rintro rfl; exact absurd hx.2 (by decide)
  have h₃ : x ≠ 0xEF := by rintro rfl; exact absurd hx.2 (by decide)
  have hp : ∀ (a : UInt8) (p : Bytes), a ≠ x → (a :: p).isPrefixOf (x :: b) = false :=
    fun a p ha => by rw [List.isPrefixOf, beq_eq_false_iff_ne.2 ha, Bool.false_and]
  simp only [detectEncoding, hp _ _ hx0.symm, hp _ _ h₁.symm, hp _ _ h₂.symm, hp _ _ h₃.symm,
    Bool.or_self, Bool.false_eq_true, if_false]
  match b, hb with
  | [], _ => rfl
  | [y], hy =>
    have hy0 : y ≠ 0 := fun h => hy (congrArg some h)
    simp only [hx0, hy0, if_false]
  | [_, _], _ => rfl
  | y :: _ :: _ :: _, hy =>
    have hy0 : y ≠ 0 := fun h => hy (congrArg some h)
    simp only [hx0, hy0, if_false]

/-! ## UTF-8 back -/

theorem continuation_eq_some {b : UInt8} {n : Nat} (h : continuation b = some n) :
    n < 0x40 ∧ b = .ofNat (0x80 + n) := by
  unfold continuation at h
  split_ifs at h with hb
  obtain rfl := Option.some.inj h
  refine ⟨by omega, UInt8.toNat_inj.1 ?_⟩
  rw [UInt8.toNat_ofNat']
  omega

/-- What completes a form is a continuation byte, and the code point has no shorter form. -/
theorem decodeUtf8Aux_one_eq_some {value least : Nat} {s : Bytes} {t : PyStr}
    (h : decodeUtf8Aux 1 value least s = some t) : ∃ n s' c t', n < 0x40 ∧
      s = .ofNat (0x80 + n) :: s' ∧ c.val = value * 0x40 + n ∧ least ≤ c.val ∧ t = c :: t' ∧
      decodeUtf8 s' = some t' := by
  cases s with
  | nil => cases h
  | cons b s =>
    rw [decodeUtf8Aux, Option.bind_eq_some_iff] at h
    obtain ⟨n, hn, h⟩ := h
    obtain ⟨c, hc, h⟩ := Option.bind_eq_some_iff.1 h
    obtain ⟨t', ht, rfl⟩ := Option.map_eq_some_iff.1 h
    obtain ⟨hlt, rfl⟩ := continuation_eq_some hn
    unfold fromForm at hc
    split_ifs at hc with hform
    obtain rfl := Option.some.inj hc
    exact ⟨n, s, _, t', hlt, rfl, rfl, hform.1, rfl, ht⟩

theorem decodeUtf8Aux_more_eq_some {need value least : Nat} {s : Bytes} {t : PyStr}
    (h : decodeUtf8Aux (need + 2) value least s = some t) : ∃ n s', n < 0x40 ∧
      s = .ofNat (0x80 + n) :: s' ∧ decodeUtf8Aux (need + 1) (value * 0x40 + n) least s' = some t := by
  cases s with
  | nil => cases h
  | cons b s =>
    rw [decodeUtf8Aux, Option.bind_eq_some_iff] at h
    obtain ⟨n, hn, h⟩ := h
    obtain ⟨hlt, rfl⟩ := continuation_eq_some hn
    exact ⟨n, s, hlt, rfl, h⟩

/-- The first code point of a text that was decoded stands at the start of the bytes, in its
    shortest form. -/
theorem decodeUtf8_cons_eq_some {a : UInt8} {s : Bytes} {t : PyStr}
    (h : decodeUtf8 (a :: s) = some t) :
    ∃ c s' t', a :: s = utf8Char c ++ s' ∧ t = c :: t' ∧ decodeUtf8 s' = some t' := by
  have ha := a.toNat_lt
  have first {n : Nat} (hn : n = a.toNat) : UInt8.ofNat n = a := by rw [hn, UInt8.ofNat_toNat]
  rw [decodeUtf8, decodeUtf8Aux] at h
  split_ifs at h with h₁ h₂ h₃ h₄
  · obtain ⟨t', ht, rfl⟩ := Option.map_eq_some_iff.1 h
    refine ⟨⟨a.toNat, _⟩, s, t', ?_, rfl, ht⟩
    rw [utf8Char, if_pos h₁, UInt8.ofNat_toNat, List.singleton_append]
  · obtain ⟨n, s', c, t', hn, rfl, hc, hl, rfl, ht⟩ := decodeUtf8Aux_one_eq_some h
    refine ⟨c, s', t', ?_, rfl, ht⟩
    rw [utf8Char, if_neg (by omega), if_pos (by omega),
      first (n := 0xC0 + c.val / 0x40) (by omega), show c.val % 0x40 = n by omega]
    rfl
  · obtain ⟨n, s₁, hn, rfl, h'⟩ := decodeUtf8Aux_more_eq_some h
    obtain ⟨m, s', c, t', hm, rfl, hc, hl, rfl, ht⟩ := decodeUtf8Aux_one_eq_some h'
    refine ⟨c, s', t', ?_, rfl, ht⟩
    rw [utf8Char, if_neg (by omega), if_neg (by omega), if_pos (by omega),
      first (n := 0xE0 + c.val / 0x1000) (by omega), show c.val / 0x40 % 0x40 = n by omega, show c.val % 0x40 = m by omega]
    rfl
  · obtain ⟨k, s₁, hk, rfl, h'⟩ := decodeUtf8Aux_more_eq_some h
    obtain ⟨n, s₂, hn, rfl, h''⟩ := decodeUtf8Aux_more_eq_some h'
    obtain ⟨m, s', c, t', hm, rfl, hc, hl, rfl, ht⟩ := decodeUtf8Aux_one_eq_some h''
    refine ⟨c, s', t', ?_, rfl, ht⟩
    rw [utf8Char, if_neg (by omega), if_neg (by omega), if_neg (by omega),
      first (n := 0xF0 + c.val / 0x40000) (by omega), show c.val / 0x1000 % 0x40 = k by omega,
      show c.val / 0x40 % 0x40 = n by omega, show c.val % 0x40 = m by omega]
    rfl

/-- What is decoded is encoded as the same bytes. -/
theorem utf8_of_decodeUtf8 {b : Bytes} {t : PyStr} (h : decodeUtf8 b = some t) : utf8 t = b := by
  induction hn : b.length using Nat.strongRecOn generalizing b t with
  | ind n ih =>
    cases b with
    | nil =>
      obtain rfl := Option.some.inj h
      rfl
    | cons a s =>
      obtain ⟨c, s', t', hs, rfl, ht⟩ := decodeUtf8_cons_eq_some h
      have hlen : s'.length < n := by
        have hpos : 0 < (utf8Char c).length := by
          unfold utf8Char
          split_ifs <;> exact Nat.succ_pos _
        rw [← hn, hs, List.length_append]
        omega
      rw [hs, utf8, List.flatMap_cons, ← utf8, ih _ hlen ht rfl]

/-- The bytes of a code point other than zero are none of zero, nor those of a mark of
    sixteen or thirty-two bits. -/
theorem mem_utf8Char {c : CodePoint} (hc : 0 < c.val) {x : UInt8} (hx : x ∈ utf8Char c) :
    0 < x.toNat ∧ x.toNat < 0xF8 := by
  have hlt := c.isLt
  unfold utf8Char at hx
  split_ifs at hx <;> simp only [List.mem_cons, List.not_mem_nil, or_false] at hx
  · subst hx
    rw [UInt8.toNat_ofNat']
    omega
  · rcases hx with rfl | rfl <;> rw [UInt8.toNat_ofNat'] <;> omega
  · rcases hx with rfl | rfl | rfl <;> rw [UInt8.toNat_ofNat'] <;> omega
  · rcases hx with rfl | rfl | rfl | rfl <;> rw [UInt8.toNat_ofNat'] <;> omega

/-- The bytes of a text start with those of the mark exactly when it starts with the mark. -/
theorem isPrefixOf_utf8 (t : PyStr) : [0xEF, 0xBB, 0xBF].isPrefixOf (utf8 t) = true ↔
    t.head? = some (Fin.ofNat _ 0xFEFF) := by
  have hmark : utf8Char (Fin.ofNat _ 0xFEFF) = [0xEF, 0xBB, 0xBF] := by decide
  constructor
  · intro h
    obtain ⟨s, hs⟩ := List.isPrefixOf_iff_prefix.1 h
    have hd := decodeUtf8_utf8 t
    rw [← hs, ← hmark, decodeUtf8_utf8Char_append] at hd
    obtain ⟨t', -, rfl⟩ := Option.map_eq_some_iff.1 hd
    rfl
  · intro h
    cases t with
    | nil => cases h
    | cons c t =>
      obtain rfl := Option.some.inj h
      rw [utf8, List.flatMap_cons, hmark]
      exact List.isPrefixOf_iff_prefix.2 (List.prefix_append _ _)

/-- The mark of UTF-8 is looked for, and no other mark starts with it. -/
theorem detectEncoding_eq_utf8Sig {b : Bytes} :
    detectEncoding b = .utf8Sig ↔ [0xEF, 0xBB, 0xBF].isPrefixOf b = true := by
  constructor
  · intro h
    by_contra hsig
    unfold detectEncoding at h
    rw [if_neg hsig] at h
    split_ifs at h
    split at h
    · split_ifs at h
    · split_ifs at h
    · cases h
  · intro h
    obtain ⟨s, rfl⟩ := List.isPrefixOf_iff_prefix.1 h
    rfl

/-- A text without a zero and without a mark is taken for UTF-8. -/
theorem detectEncoding_utf8 {t : PyStr} (hzero : ∀ c ∈ t, 0 < c.val)
    (hmark : t.head? ≠ some (Fin.ofNat _ 0xFEFF)) : detectEncoding (utf8 t) = .utf8 := by
  have hpos : ∀ x ∈ utf8 t, 0 < x.toNat ∧ x.toNat < 0xF8 := by
    intro x hx
    obtain ⟨c, hc, hx⟩ := List.mem_flatMap.1 hx
    exact mem_utf8Char (hzero c hc) hx
  have hsig : [0xEF, 0xBB, 0xBF].isPrefixOf (utf8 t) = false :=
    Bool.eq_false_iff.2 fun h => hmark ((isPrefixOf_utf8 t).1 h)
  revert hpos hsig
  generalize utf8 t = b
  intro hpos hsig
  have start {a : UInt8} {p : Bytes} (ha : a = 0 ∨ 0xF8 ≤ a.toNat) :
      (a :: p).isPrefixOf b = false := by
    refine Bool.eq_false_iff.2 fun h => ?_
    obtain ⟨s, rfl⟩ := List.isPrefixOf_iff_prefix.1 h
    have := hpos a List.mem_cons_self
    rcases ha with rfl | ha
    · exact absurd this.1 (by decide)
    · omega
  have hne : ∀ x ∈ b, x ≠ 0 := by
    rintro x hx rfl
    exact absurd (hpos 0 hx).1 (by decide)
  simp only [detectEncoding, start (.inl rfl), start (a := 0xFF) (.inr (by decide)),
    start (a := 0xFE) (.inr (by decide)), hsig, Bool.or_self, Bool.false_eq_true, if_false]
  rcases b with _ | ⟨w, _ | ⟨x, _ | ⟨y, _ | ⟨z, s⟩⟩⟩⟩
  · rfl
  · rfl
  · simp only [hne w (by simp), hne x (by simp), if_false]
  · rfl
  · simp only [hne w (by simp), hne x (by simp), if_false]

end Wire
