import Mathlib.Data.List.DropRight
import Mathlib.Data.List.Lex
import Mathlib.Order.Fin.Basic
import Mathlib.Algebra.Order.Ring.Rat

/-!
# Text and bytes

The strings of a language whose text is a sequence of code points, lone
surrogates included, and the byte encodings of them a wire format needs:

* `utf8` and `decodeUtf8`, with `decodeUtf8_utf8`: decoding takes back what was
  encoded (surrogates pass through, as under the `surrogatepass` handler);
* `hex` and `fromHex`, with `fromHex_hex`;
* `decimal`, the shortest decimal text of a natural number, and `ofDecimal`.
-/

namespace Wire

/-- A code point, surrogates included. -/
abbrev CodePoint := Fin 0x110000

/-- A text: any sequence of code points. -/
abbrev PyStr := List CodePoint

instance instNeZeroCodePoint : @NeZero Nat Zero.ofOfNat0 0x110000 := ⟨by decide⟩

instance instLawfulBEqPyStr : LawfulBEq PyStr := inferInstance

/-- A byte string. -/
abbrev Bytes := List UInt8

/-- The code point of a character. -/
def cp (c : Char) : CodePoint := ⟨c.toNat, by
  rcases c.valid with h | ⟨_, h⟩
  · exact h.trans (by decide)
  · exact h⟩

/-- The text of a literal. -/
def py (s : String) : PyStr := s.toList.map cp

/-- A surrogate stands for no character of its own. -/
def IsSurrogate (c : CodePoint) : Prop := 0xD800 ≤ c.val ∧ c.val ≤ 0xDFFF

instance : DecidablePred IsSurrogate := fun c =>
  inferInstanceAs (Decidable (0xD800 ≤ c.val ∧ c.val ≤ 0xDFFF))

/-! ## ASCII -/

/-- The `ascii` encoding: `none` on a text with a code point from `128` on. -/
def ascii (s : PyStr) : Option Bytes :=
  if s.all (·.val < 0x80) then some (s.map fun c => .ofNat c.val) else none

theorem ascii_length {s : PyStr} {b : Bytes} (h : ascii s = some b) : b.length = s.length := by
  unfold ascii at h
  split at h
  · obtain rfl := Option.some.inj h
    exact List.length_map _
  · cases h

/-- Two texts with the same encoding are the same. -/
theorem ascii_inj {s t : PyStr} {b : Bytes} (hs : ascii s = some b) (ht : ascii t = some b) :
    s = t := by
  unfold ascii at hs ht
  split at hs <;> split at ht <;> try contradiction
  rename_i h₁ h₂
  have he := (Option.some.inj hs).trans (Option.some.inj ht).symm
  clear hs ht
  induction s generalizing t with
  | nil => cases t with
    | nil => rfl
    | cons d t => simp at he
  | cons c s ih => cases t with
    | nil => simp at he
    | cons d t =>
      simp only [List.all_cons, Bool.and_eq_true, decide_eq_true_eq] at h₁ h₂
      simp only [List.map_cons, List.cons.injEq] at he
      have hc := congrArg UInt8.toNat he.1
      simp only [UInt8.toNat_ofNat'] at hc
      have hcd : c = d := Fin.ext (by omega)
      rw [hcd, ih h₁.2 h₂.2 he.2]

/-! ## UTF-8 -/

/-- The UTF-8 form of one code point, surrogates included. -/
def utf8Char (c : CodePoint) : Bytes :=
  if c.val < 0x80 then [.ofNat c.val]
  else if c.val < 0x800 then [.ofNat (0xC0 + c.val / 0x40), .ofNat (0x80 + c.val % 0x40)]
  else if c.val < 0x10000 then
    [.ofNat (0xE0 + c.val / 0x1000), .ofNat (0x80 + c.val / 0x40 % 0x40),
      .ofNat (0x80 + c.val % 0x40)]
  else
    [.ofNat (0xF0 + c.val / 0x40000), .ofNat (0x80 + c.val / 0x1000 % 0x40),
      .ofNat (0x80 + c.val / 0x40 % 0x40), .ofNat (0x80 + c.val % 0x40)]

/-- The UTF-8 form of a text, surrogates included. -/
def utf8 (s : PyStr) : Bytes := s.flatMap utf8Char

/-- The `utf-8` encoding under the strict handler, which refuses surrogates. -/
def encodeUtf8 (s : PyStr) : Option Bytes :=
  if s.any (fun c => decide (IsSurrogate c)) then none else some (utf8 s)

/-- The payload of a continuation byte. -/
def continuation (b : UInt8) : Option Nat :=
  if 0x80 ≤ b.toNat ∧ b.toNat < 0xC0 then some (b.toNat - 0x80) else none

/-- A code point of a multi-byte form, refused when a shorter form exists. -/
def fromForm (least value : Nat) : Option CodePoint :=
  if h : least ≤ value ∧ value < 0x110000 then some ⟨value, h.2⟩ else none

/-- The `utf-8` decoding under the `surrogatepass` handler, inside a form of which
    `need` bytes are still to come: `value` is its payload so far, `least` the
    least code point it may denote. -/
def decodeUtf8Aux : (need value least : Nat) → Bytes → Option PyStr
  | 0, _, _, [] => some []
  | _ + 1, _, _, [] => none
  | 0, _, _, a :: s =>
    if h : a.toNat < 0x80 then
      (decodeUtf8Aux 0 0 0 s).map (⟨a.toNat, h.trans (by decide)⟩ :: ·)
    else if 0xC0 ≤ a.toNat ∧ a.toNat < 0xE0 then decodeUtf8Aux 1 (a.toNat - 0xC0) 0x80 s
    else if 0xE0 ≤ a.toNat ∧ a.toNat < 0xF0 then decodeUtf8Aux 2 (a.toNat - 0xE0) 0x800 s
    else if 0xF0 ≤ a.toNat ∧ a.toNat < 0xF8 then decodeUtf8Aux 3 (a.toNat - 0xF0) 0x10000 s
    else none
  | 1, value, least, b :: s =>
    (continuation b).bind fun y => (fromForm least (value * 0x40 + y)).bind fun c =>
      (decodeUtf8Aux 0 0 0 s).map (c :: ·)
  | need + 2, value, least, b :: s =>
    (continuation b).bind fun y => decodeUtf8Aux (need + 1) (value * 0x40 + y) least s

/-- The `utf-8` decoding under the `surrogatepass` handler. -/
def decodeUtf8 (b : Bytes) : Option PyStr := decodeUtf8Aux 0 0 0 b

theorem continuation_ofNat {n : Nat} (h : n < 0x40) :
    continuation (.ofNat (0x80 + n)) = some n := by
  have hb : (UInt8.ofNat (0x80 + n)).toNat = 0x80 + n := by rw [UInt8.toNat_ofNat']; omega
  rw [continuation, hb, if_pos (by omega), Nat.add_sub_cancel_left]

theorem fromForm_val {least : Nat} {c : CodePoint} (h : least ≤ c.val) :
    fromForm least c.val = some c := by
  rw [fromForm, dif_pos ⟨h, c.isLt⟩]

/-- The last byte of a form completes its code point. -/
theorem decodeUtf8Aux_last {value least n : Nat} {c : CodePoint} (s : Bytes) (hn : n < 0x40)
    (hc : value * 0x40 + n = c.val) (hl : least ≤ c.val) :
    decodeUtf8Aux 1 value least (.ofNat (0x80 + n) :: s) = (decodeUtf8 s).map (c :: ·) := by
  rw [decodeUtf8Aux, continuation_ofNat hn, Option.bind_some, hc, fromForm_val hl]
  rfl

/-- A byte before the last one adds its payload. -/
theorem decodeUtf8Aux_more {need value least n : Nat} (s : Bytes) (hn : n < 0x40) :
    decodeUtf8Aux (need + 2) value least (.ofNat (0x80 + n) :: s) =
      decodeUtf8Aux (need + 1) (value * 0x40 + n) least s := by
  rw [decodeUtf8Aux, continuation_ofNat hn, Option.bind_some]

/-- Decoding takes one encoded code point back. -/
theorem decodeUtf8_utf8Char_append (c : CodePoint) (s : Bytes) :
    decodeUtf8 (utf8Char c ++ s) = (decodeUtf8 s).map (c :: ·) := by
  have hc := c.isLt
  unfold utf8Char
  split_ifs with h₁ h₂ h₃
  · have ha : (UInt8.ofNat c.val).toNat = c.val := by rw [UInt8.toNat_ofNat']; omega
    simp only [List.singleton_append, decodeUtf8, decodeUtf8Aux, ha, h₁, dite_true]
  · have ha : (UInt8.ofNat (0xC0 + c.val / 0x40)).toNat = 0xC0 + c.val / 0x40 := by
      rw [UInt8.toNat_ofNat']; omega
    rw [List.cons_append, decodeUtf8, decodeUtf8Aux, dif_neg (by omega), if_pos (by omega), ha]
    exact decodeUtf8Aux_last s (by omega) (by omega) (by omega)
  · have ha : (UInt8.ofNat (0xE0 + c.val / 0x1000)).toNat = 0xE0 + c.val / 0x1000 := by
      rw [UInt8.toNat_ofNat']; omega
    rw [List.cons_append, decodeUtf8, decodeUtf8Aux, dif_neg (by omega), if_neg (by omega),
      if_pos (by omega), ha, List.cons_append, decodeUtf8Aux_more _ (by omega)]
    exact decodeUtf8Aux_last s (by omega) (by omega) (by omega)
  · have ha : (UInt8.ofNat (0xF0 + c.val / 0x40000)).toNat = 0xF0 + c.val / 0x40000 := by
      rw [UInt8.toNat_ofNat']; omega
    rw [List.cons_append, decodeUtf8, decodeUtf8Aux, dif_neg (by omega), if_neg (by omega),
      if_neg (by omega), if_pos (by omega), ha, List.cons_append, decodeUtf8Aux_more _ (by omega),
      List.cons_append, decodeUtf8Aux_more _ (by omega)]
    exact decodeUtf8Aux_last s (by omega) (by omega) (by omega)

/-- Decoding takes an encoded text back. -/
@[simp] theorem decodeUtf8_utf8 (s : PyStr) : decodeUtf8 (utf8 s) = some s := by
  induction s with
  | nil => rfl
  | cons c s ih =>
    change decodeUtf8 (utf8Char c ++ utf8 s) = _
    rw [decodeUtf8_utf8Char_append, ih]
    rfl

/-- Two texts with the same encoding are the same. -/
theorem utf8_injective : Function.Injective utf8 := fun s t h =>
  Option.some.inj (by rw [← decodeUtf8_utf8 s, h, decodeUtf8_utf8])

/-! ## Hexadecimal -/

/-- The lowercase digit of `n < 16`. -/
def hexDigit (n : Nat) : CodePoint :=
  if n < 10 then Fin.ofNat _ (0x30 + n) else Fin.ofNat _ (0x57 + n)

/-- The lowercase hexadecimal text of a byte string. -/
def hex (b : Bytes) : PyStr := b.flatMap fun x => [hexDigit (x.toNat / 16), hexDigit (x.toNat % 16)]

/-- The value of a hexadecimal digit of either case. -/
def hexValue (c : CodePoint) : Option Nat :=
  if 0x30 ≤ c.val ∧ c.val ≤ 0x39 then some (c.val - 0x30)
  else if 0x61 ≤ c.val ∧ c.val ≤ 0x66 then some (c.val - 0x57)
  else if 0x41 ≤ c.val ∧ c.val ≤ 0x46 then some (c.val - 0x37)
  else none

/-- ASCII white space, which `fromHex` skips between bytes. -/
def asciiSpace (c : CodePoint) : Bool := c.val = 0x20 || (0x09 ≤ c.val && c.val ≤ 0x0D)

/-- The bytes of a hexadecimal text, white space between the bytes skipped. -/
def fromHex : PyStr → Option Bytes
  | [] => some []
  | c :: s =>
    if asciiSpace c then fromHex s
    else match s with
    | [] => none
    | d :: s => do
      let x ← hexValue c
      let y ← hexValue d
      (fromHex s).map (.ofNat (16 * x + y) :: ·)

theorem hexValue_hexDigit {n : Nat} (h : n < 16) : hexValue (hexDigit n) = some n := by
  revert n
  decide

theorem asciiSpace_hexDigit {n : Nat} (h : n < 16) : asciiSpace (hexDigit n) = false := by
  revert n
  decide

/-- A text of 64 lowercase hexadecimal digits. -/
def hex256 (s : PyStr) : Bool := s.length = 64 && s.all fun c =>
  (0x30 ≤ c.val && c.val ≤ 0x39) || (0x61 ≤ c.val && c.val ≤ 0x66)

@[simp] theorem fromHex_hex (b : Bytes) : fromHex (hex b) = some b := by
  induction b with
  | nil => rfl
  | cons x b ih =>
    have hx := x.toNat_lt
    change fromHex (hexDigit (x.toNat / 16) :: hexDigit (x.toNat % 16) :: hex b) = _
    rw [fromHex, asciiSpace_hexDigit (by omega)]
    simp only [Bool.false_eq_true, if_false, hexValue_hexDigit (show x.toNat / 16 < 16 by omega),
      hexValue_hexDigit (show x.toNat % 16 < 16 by omega), ih, Option.bind_eq_bind,
      Option.bind_some, Option.map_some, show 16 * (x.toNat / 16) + x.toNat % 16 = x.toNat by omega,
      UInt8.ofNat_toNat]

theorem hex_injective : Function.Injective hex := fun a b h =>
  Option.some.inj (by rw [← fromHex_hex a, h, fromHex_hex])

@[simp] theorem hex_length (b : Bytes) : (hex b).length = 2 * b.length := by
  induction b with
  | nil => rfl
  | cons x b ih =>
    change (hex b).length + 1 + 1 = _
    rw [ih, List.length_cons]
    omega

/-- Every digit of a hexadecimal text is lowercase. -/
theorem mem_hex {b : Bytes} {c : CodePoint} (h : c ∈ hex b) : ∃ n < 16, c = hexDigit n := by
  obtain ⟨x, _, hc⟩ := List.mem_flatMap.1 h
  have hx := x.toNat_lt
  rcases List.mem_cons.1 hc with rfl | hc
  · exact ⟨_, by omega, rfl⟩
  · exact ⟨_, by omega, List.mem_singleton.1 hc⟩

theorem hexDigit_lower {n : Nat} (h : n < 16) :
    0x30 ≤ (hexDigit n).val ∧ (hexDigit n).val ≤ 0x39 ∨
      0x61 ≤ (hexDigit n).val ∧ (hexDigit n).val ≤ 0x66 := by
  revert n
  decide

/-- The text of a 32-byte string is 64 lowercase digits. -/
theorem hex256_hex {b : Bytes} (h : b.length = 32) : hex256 (hex b) = true := by
  simp only [hex256, hex_length, h, Bool.and_eq_true, decide_eq_true_eq, List.all_eq_true,
    Bool.or_eq_true]
  refine ⟨trivial, fun c hc => ?_⟩
  obtain ⟨n, hn, rfl⟩ := mem_hex hc
  exact hexDigit_lower hn

/-- Every text of lowercase digits, two for each byte, is the text of some bytes. -/
theorem exists_hex {n : Nat} {s : PyStr} (hlen : s.length = 2 * n)
    (hs : ∀ c ∈ s, (0x30 ≤ c.val ∧ c.val ≤ 0x39) ∨ (0x61 ≤ c.val ∧ c.val ≤ 0x66)) :
    ∃ b : Bytes, hex b = s ∧ b.length = n := by
  have digit {c : CodePoint} (hc : (0x30 ≤ c.val ∧ c.val ≤ 0x39) ∨ (0x61 ≤ c.val ∧ c.val ≤ 0x66)) :
      ∃ k < 16, hexDigit k = c := by
    rcases hc with ⟨h₁, h₂⟩ | ⟨h₁, h₂⟩
    · refine ⟨c.val - 0x30, by omega, Fin.ext ?_⟩
      rw [hexDigit, if_pos (by omega), Fin.val_ofNat]
      omega
    · refine ⟨c.val - 0x57, by omega, Fin.ext ?_⟩
      rw [hexDigit, if_neg (by omega), Fin.val_ofNat]
      omega
  induction n generalizing s with
  | zero => exact ⟨[], (List.length_eq_zero_iff.1 hlen).symm, rfl⟩
  | succ n ih =>
    rcases s with _ | ⟨c, _ | ⟨d, t⟩⟩
    · rw [List.length_nil] at hlen
      omega
    · rw [List.length_singleton] at hlen
      omega
    have ht : t.length = 2 * n := by
      rw [List.length_cons, List.length_cons] at hlen
      omega
    obtain ⟨hc, hrest⟩ := List.forall_mem_cons.1 hs
    obtain ⟨hd, hall⟩ := List.forall_mem_cons.1 hrest
    obtain ⟨x, hx, rfl⟩ := digit hc
    obtain ⟨y, hy, rfl⟩ := digit hd
    obtain ⟨b, rfl, hb⟩ := ih ht hall
    refine ⟨.ofNat (16 * x + y) :: b, ?_, congrArg (· + 1) hb⟩
    have hval : (UInt8.ofNat (16 * x + y)).toNat = 16 * x + y := by
      rw [UInt8.toNat_ofNat']
      omega
    change hexDigit ((UInt8.ofNat (16 * x + y)).toNat / 16) ::
      hexDigit ((UInt8.ofNat (16 * x + y)).toNat % 16) :: hex b = _
    rw [hval, show (16 * x + y) / 16 = x by omega, show (16 * x + y) % 16 = y by omega]

/-- A text of 64 lowercase digits is the text of a 32-byte string. -/
theorem exists_of_hex256 {s : PyStr} (h : hex256 s = true) : ∃ b : Bytes, hex b = s ∧ b.length = 32 := by
  simp only [hex256, Bool.and_eq_true, decide_eq_true_eq, List.all_eq_true, Bool.or_eq_true] at h
  exact exists_hex h.1 h.2

/-! ## Decimal -/

/-- The digit of `n < 10`. -/
def decimalDigit (n : Nat) : CodePoint := Fin.ofNat _ (0x30 + n)

/-- A decimal digit. -/
def isDigit (c : CodePoint) : Bool := 0x30 ≤ c.val && c.val ≤ 0x39

/-- The decimal text of `n`, with `fuel` digits at most. -/
def decimalAux : Nat → Nat → PyStr
  | 0, _ => []
  | fuel + 1, n =>
    if n < 10 then [decimalDigit n] else decimalAux fuel (n / 10) ++ [decimalDigit (n % 10)]

/-- The shortest decimal text of `n`. -/
def decimal (n : Nat) : PyStr := decimalAux (n + 1) n

/-- The number a text of digits denotes. -/
def ofDecimal (s : PyStr) : Nat := s.foldl (fun n c => 10 * n + (c.val - 0x30)) 0

/-- Any fuel above the number gives the same text. -/
theorem decimalAux_eq {m n : Nat} (h : n < m) : decimalAux m n = decimal n := by
  induction n using Nat.strongRecOn generalizing m with
  | ind n ih =>
    cases m with
    | zero => exact absurd h (Nat.not_lt_zero _)
    | succ m =>
      rw [decimal, decimalAux, decimalAux]
      split_ifs with hn
      · rfl
      · rw [ih (n / 10) (by omega) (by omega), ih (n / 10) (by omega) (by omega)]

theorem decimal_of_lt {n : Nat} (h : n < 10) : decimal n = [decimalDigit n] := by
  rw [decimal, decimalAux, if_pos h]

theorem decimal_of_le {n : Nat} (h : 10 ≤ n) :
    decimal n = decimal (n / 10) ++ [decimalDigit (n % 10)] := by
  rw [decimal, decimalAux, if_neg (by omega), decimalAux_eq (by omega)]

theorem isDigit_decimalDigit {n : Nat} (h : n < 10) : isDigit (decimalDigit n) = true := by
  revert n
  decide

theorem val_decimalDigit {n : Nat} (h : n < 10) : (decimalDigit n).val = 0x30 + n := by
  revert n
  decide

theorem isDigit_of_mem_decimal {n : Nat} {c : CodePoint} (h : c ∈ decimal n) :
    isDigit c = true := by
  induction n using Nat.strongRecOn with
  | ind n ih =>
    rcases Nat.lt_or_ge n 10 with hn | hn
    · rw [decimal_of_lt hn, List.mem_singleton] at h
      exact h ▸ isDigit_decimalDigit hn
    · rw [decimal_of_le hn, List.mem_append, List.mem_singleton] at h
      rcases h with h | rfl
      · exact ih _ (by omega) h
      · exact isDigit_decimalDigit (by omega)

@[simp] theorem ofDecimal_decimal (n : Nat) : ofDecimal (decimal n) = n := by
  induction n using Nat.strongRecOn with
  | ind n ih =>
    rcases Nat.lt_or_ge n 10 with hn | hn
    · rw [decimal_of_lt hn, ofDecimal, List.foldl_cons, List.foldl_nil, val_decimalDigit hn]
      omega
    · rw [decimal_of_le hn, ofDecimal, List.foldl_append, ← ofDecimal, ih _ (by omega),
        List.foldl_cons, List.foldl_nil, val_decimalDigit (by omega)]
      omega

/-- The text of a positive number starts with a digit other than `0`. -/
theorem decimal_pos {n : Nat} (h : 0 < n) :
    ∃ d s, 0 < d ∧ d < 10 ∧ decimal n = decimalDigit d :: s := by
  induction n using Nat.strongRecOn with
  | ind n ih =>
    rcases Nat.lt_or_ge n 10 with hn | hn
    · exact ⟨n, [], h, hn, decimal_of_lt hn⟩
    · obtain ⟨d, s, hd, hd', hs⟩ := ih (n / 10) (by omega) (by omega)
      exact ⟨d, s ++ [decimalDigit (n % 10)], hd, hd', by rw [decimal_of_le hn, hs]; rfl⟩

/-- A number under `10 ^ k` has at most `k` digits. -/
theorem decimal_length_le {n k : Nat} (hk : 0 < k) (h : n < 10 ^ k) : (decimal n).length ≤ k := by
  induction k generalizing n with
  | zero => exact absurd hk (Nat.lt_irrefl _)
  | succ k ih =>
    rcases Nat.lt_or_ge n 10 with hn | hn
    · rw [decimal_of_lt hn]
      exact Nat.succ_le_succ (Nat.zero_le _)
    · rw [decimal_of_le hn, List.length_append, List.length_singleton]
      refine Nat.succ_le_succ (ih ?_ ?_)
      · rcases Nat.eq_zero_or_pos k with rfl | hk'
        · omega
        · exact hk'
      · rw [Nat.pow_succ] at h
        omega

end Wire
