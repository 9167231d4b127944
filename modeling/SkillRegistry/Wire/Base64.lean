import SkillRegistry.Wire.Text

/-!
# Base64

The standard encoding with padding and its URL-safe variant. Decoding is strict
(`binascii.a2b_base64` in strict mode): only digits of the alphabet, padding only
at the end and only as much as needed; the unused low bits of the last digit are
dropped.

* `b64decode_b64encode`, `urlDecode_urlEncode`: decoding takes back what was
  encoded, also when the URL-safe text carries no padding.
-/

namespace Wire

/-- The padding character. -/
def pad : CodePoint := cp '='

/-- The digit of `n < 64`. -/
def b64digit (n : Nat) : CodePoint :=
  if n < 26 then Fin.ofNat _ (0x41 + n)
  else if n < 52 then Fin.ofNat _ (0x61 + (n - 26))
  else if n < 62 then Fin.ofNat _ (0x30 + (n - 52))
  else if n < 63 then cp '+' else cp '/'

/-- The value of a digit. -/
def b64value (c : CodePoint) : Option Nat :=
  if 0x41 ≤ c.val ∧ c.val ≤ 0x5A then some (c.val - 0x41)
  else if 0x61 ≤ c.val ∧ c.val ≤ 0x7A then some (c.val - 0x61 + 26)
  else if 0x30 ≤ c.val ∧ c.val ≤ 0x39 then some (c.val - 0x30 + 52)
  else if c = cp '+' then some 62
  else if c = cp '/' then some 63
  else none

/-- The digits of a byte string, without the padding. -/
def b64digits : Bytes → PyStr
  | [] => []
  | [a] => [b64digit (a.toNat / 4), b64digit (a.toNat % 4 * 16)]
  | [a, b] =>
    [b64digit (a.toNat / 4), b64digit (a.toNat % 4 * 16 + b.toNat / 16), b64digit (b.toNat % 16 * 4)]
  | a :: b :: c :: s =>
    b64digit (a.toNat / 4) :: b64digit (a.toNat % 4 * 16 + b.toNat / 16) ::
      b64digit (b.toNat % 16 * 4 + c.toNat / 64) :: b64digit (c.toNat % 64) :: b64digits s

/-- The padding after the digits of `n` bytes. -/
def b64padding (n : Nat) : PyStr := List.replicate ((3 - n % 3) % 3) pad

/-- `base64.b64encode`. -/
def b64encode (b : Bytes) : PyStr := b64digits b ++ b64padding b.length

/-- `base64.b64decode` with `validate=True`. -/
def b64decode : PyStr → Option Bytes
  | [] => some []
  | x :: y :: z :: w :: s =>
    (b64value x).bind fun x => (b64value y).bind fun y =>
      if s = [] ∧ w = pad then
        if z = pad then some [.ofNat (x * 4 + y / 16)]
        else (b64value z).bind fun z => some [.ofNat (x * 4 + y / 16), .ofNat (y % 16 * 16 + z / 4)]
      else
        (b64value z).bind fun z => (b64value w).bind fun w =>
          (b64decode s).map fun b =>
            .ofNat (x * 4 + y / 16) :: .ofNat (y % 16 * 16 + z / 4) :: .ofNat (z % 4 * 64 + w) :: b
  | _ => none

theorem b64value_b64digit {n : Nat} (h : n < 64) : b64value (b64digit n) = some n := by
  revert n
  decide

theorem b64digit_ne_pad {n : Nat} (h : n < 64) : b64digit n ≠ pad := by
  revert n
  decide

/-- A byte put together from its number. -/
theorem ofNat_eq {n : Nat} {a : UInt8} (h : n = a.toNat) : UInt8.ofNat n = a := by
  rw [h, UInt8.ofNat_toNat]

theorem b64decode_b64encode (b : Bytes) : b64decode (b64encode b) = some b := by
  induction b using b64digits.induct with
  | case1 => rfl
  | case2 a =>
    have ha := a.toNat_lt
    change b64decode [b64digit (a.toNat / 4), b64digit (a.toNat % 4 * 16), pad, pad] = _
    rw [b64decode, b64value_b64digit (by omega), b64value_b64digit (by omega)]
    simp only [Option.bind_some, and_self, if_true]
    rw [ofNat_eq (a := a) (by omega)]
  | case3 a b =>
    have ha := a.toNat_lt
    have hb := b.toNat_lt
    change b64decode [b64digit (a.toNat / 4), b64digit (a.toNat % 4 * 16 + b.toNat / 16),
      b64digit (b.toNat % 16 * 4), pad] = _
    rw [b64decode, b64value_b64digit (by omega), b64value_b64digit (by omega),
      b64value_b64digit (by omega)]
    simp only [Option.bind_some, and_self, if_true, if_neg (b64digit_ne_pad
      (show b.toNat % 16 * 4 < 64 by omega))]
    rw [ofNat_eq (a := a) (by omega), ofNat_eq (a := b) (by omega)]
  | case4 a b c s ih =>
    have ha := a.toNat_lt
    have hb := b.toNat_lt
    have hc := c.toNat_lt
    have hpad : b64padding (a :: b :: c :: s).length = b64padding s.length := by
      rw [b64padding, b64padding, List.length_cons, List.length_cons, List.length_cons,
        Nat.add_assoc, Nat.add_assoc, Nat.add_mod_right]
    rw [b64encode, hpad, b64digits, List.cons_append, List.cons_append, List.cons_append,
      List.cons_append, ← b64encode, b64decode, b64value_b64digit (by omega),
      b64value_b64digit (by omega), b64value_b64digit (by omega), b64value_b64digit (by omega)]
    simp only [Option.bind_some, ih, Option.map_some, if_neg (not_and_of_not_right _
      (b64digit_ne_pad (show c.toNat % 64 < 64 by omega)))]
    rw [ofNat_eq (a := a) (by omega), ofNat_eq (a := b) (by omega), ofNat_eq (a := c) (by omega)]

theorem b64encode_injective : Function.Injective b64encode := fun a b h =>
  Option.some.inj (by rw [← b64decode_b64encode a, h, b64decode_b64encode])

/-- Every digit is the digit of a number under `64`. -/
theorem mem_b64digits {b : Bytes} {c : CodePoint} (h : c ∈ b64digits b) :
    ∃ n < 64, c = b64digit n := by
  induction b using b64digits.induct with
  | case1 => cases h
  | case2 a =>
    have ha := a.toNat_lt
    simp only [b64digits, List.mem_cons, List.not_mem_nil, or_false] at h
    rcases h with rfl | rfl
    exacts [⟨_, by omega, rfl⟩, ⟨_, by omega, rfl⟩]
  | case3 a b =>
    have ha := a.toNat_lt
    have hb := b.toNat_lt
    simp only [b64digits, List.mem_cons, List.not_mem_nil, or_false] at h
    rcases h with rfl | rfl | rfl
    exacts [⟨_, by omega, rfl⟩, ⟨_, by omega, rfl⟩, ⟨_, by omega, rfl⟩]
  | case4 a b c s ih =>
    have ha := a.toNat_lt
    have hb := b.toNat_lt
    have hc := c.toNat_lt
    simp only [b64digits, List.mem_cons] at h
    rcases h with rfl | rfl | rfl | rfl | h
    exacts [⟨_, by omega, rfl⟩, ⟨_, by omega, rfl⟩, ⟨_, by omega, rfl⟩, ⟨_, by omega, rfl⟩, ih h]

/-- The digits come in fours, up to the padding. -/
theorem b64digits_length (b : Bytes) :
    (b64digits b).length = 4 * (b.length / 3) + (b.length % 3 + (b.length % 3 + 2) / 3) := by
  induction b using b64digits.induct with
  | case1 => simp [b64digits]
  | case2 a => simp [b64digits]
  | case3 a b => simp [b64digits]
  | case4 a b c s ih =>
    simp only [b64digits, List.length_cons, ih]
    omega

/-! ## The URL-safe variant -/

/-- The URL-safe form of a digit. -/
def toUrl (c : CodePoint) : CodePoint := if c = cp '+' then cp '-' else if c = cp '/' then cp '_' else c

/-- The standard form of a URL-safe digit; the standard digits stay. -/
def ofUrl (c : CodePoint) : CodePoint := if c = cp '-' then cp '+' else if c = cp '_' then cp '/' else c

/-- `base64.urlsafe_b64encode`, its trailing padding stripped. -/
def urlEncode (b : Bytes) : PyStr := ((b64encode b).map toUrl).rdropWhile (· = pad)

/-- `base64.b64decode` with `altchars=b"-_"` and `validate=True`, the padding put back. -/
def urlDecode (s : PyStr) : Option Bytes :=
  b64decode ((s ++ List.replicate ((4 - s.length % 4) % 4) pad).map ofUrl)

theorem ofUrl_toUrl {n : Nat} (h : n < 64) : ofUrl (toUrl (b64digit n)) = b64digit n := by
  revert n
  decide

theorem toUrl_ne_pad {n : Nat} (h : n < 64) : toUrl (b64digit n) ≠ pad := by
  revert n
  decide

/-- Only the padding is stripped. -/
theorem urlEncode_eq (b : Bytes) : urlEncode b = (b64digits b).map toUrl := by
  have hlast : ∀ c ∈ (b64digits b).map toUrl, c ≠ pad := by
    intro c hc
    obtain ⟨d, hd, rfl⟩ := List.mem_map.1 hc
    obtain ⟨n, hn, rfl⟩ := mem_b64digits hd
    exact toUrl_ne_pad hn
  have hpad : toUrl pad = pad := by decide
  rw [urlEncode, b64encode, b64padding, List.map_append, List.map_replicate, hpad]
  generalize (b64digits b).map toUrl = s at hlast
  generalize (3 - b.length % 3) % 3 = n
  induction n with
  | zero =>
    rw [List.replicate_zero, List.append_nil, List.rdropWhile_eq_self_iff]
    exact fun hs => by simpa using hlast _ (List.getLast_mem hs)
  | succ n ih =>
    rw [List.replicate_succ', ← List.append_assoc, List.rdropWhile_concat_pos _ _ _ (by simp)]
    exact ih

/-- The code points of a URL-safe text: no `.`, and no padding. -/
theorem mem_urlEncode {b : Bytes} {c : CodePoint} (h : c ∈ urlEncode b) :
    ∃ n < 64, c = toUrl (b64digit n) := by
  rw [urlEncode_eq] at h
  obtain ⟨d, hd, rfl⟩ := List.mem_map.1 h
  obtain ⟨n, hn, rfl⟩ := mem_b64digits hd
  exact ⟨n, hn, rfl⟩

theorem urlEncode_length (b : Bytes) :
    (urlEncode b).length = 4 * (b.length / 3) + (b.length % 3 + (b.length % 3 + 2) / 3) := by
  rw [urlEncode_eq, List.length_map, b64digits_length]

theorem urlDecode_urlEncode (b : Bytes) : urlDecode (urlEncode b) = some b := by
  have hpad : (4 - (urlEncode b).length % 4) % 4 = (3 - b.length % 3) % 3 := by
    rw [urlEncode_length]
    omega
  have hback : ((b64digits b).map toUrl).map ofUrl = b64digits b := by
    rw [List.map_map]
    refine (List.map_congr_left fun c hc => ?_).trans (List.map_id _)
    obtain ⟨n, hn, rfl⟩ := mem_b64digits hc
    exact ofUrl_toUrl hn
  rw [urlDecode, hpad, urlEncode_eq, List.map_append, hback, List.map_replicate,
    show ofUrl pad = pad by decide]
  exact b64decode_b64encode b

end Wire
