import SkillRegistry.Wire.Text

/-!
# JSON values

The values of a JSON document, as `json.loads` builds and `json.dumps` takes
them. An object is the list of its members. A *dictionary* has one member per
key and no order among them: it is kept as the list sorted by key, so that two
dictionaries are equal when they have the same members. A number with a fraction
or an exponent is kept as its literal, uninterpreted.

* `Dict.get?`, `Dict.insert` and `Dict.erase` are the dictionary operations, and
  `Dict.ofPairs` the dictionary of a list of pairs, the last one of a key winning;
* `scanNumber` finds the number at the start of a text, and what cannot continue
  a number does not change it (`scanNumber_append`);
* `Json.Every` asks a predicate of every value inside a value: `Json.Sorted`, its
  objects are dictionaries, and `Json.Numeral`, its numbers are literals;
* `Json.dumps` is `json.dumps` with compact separators and `ensure_ascii=False`.
-/

namespace Wire

/-- A JSON value. -/
inductive Json where
  | null
  | bool (b : Bool)
  | int (n : Int)
  | float (literal : PyStr)
  | str (s : PyStr)
  | arr (items : List Json)
  | obj (members : List (PyStr × Json))
  deriving Inhabited

namespace Json

mutual

/-- Equality of JSON values is decidable. -/
def decEq : (v w : Json) → Decidable (v = w)
  | null, null => isTrue rfl
  | bool a, bool b => decidable_of_iff (a = b) (by simp)
  | int a, int b => decidable_of_iff (a = b) (by simp)
  | float a, float b => decidable_of_iff (a = b) (by simp)
  | str a, str b => decidable_of_iff (a = b) (by simp)
  | arr a, arr b => @decidable_of_iff _ (a = b) (by simp) (decEqItems a b)
  | obj a, obj b => @decidable_of_iff _ (a = b) (by simp) (decEqMembers a b)
  | null, bool _ | null, int _ | null, float _ | null, str _ | null, arr _ | null, obj _
  | bool _, null | bool _, int _ | bool _, float _ | bool _, str _ | bool _, arr _ | bool _, obj _
  | int _, null | int _, bool _ | int _, float _ | int _, str _ | int _, arr _ | int _, obj _
  | float _, null | float _, bool _ | float _, int _ | float _, str _ | float _, arr _
  | float _, obj _ | str _, null | str _, bool _ | str _, int _ | str _, float _ | str _, arr _
  | str _, obj _ | arr _, null | arr _, bool _ | arr _, int _ | arr _, float _ | arr _, str _
  | arr _, obj _ | obj _, null | obj _, bool _ | obj _, int _ | obj _, float _ | obj _, str _
  | obj _, arr _ => isFalse (by simp)

/-- Equality of lists of JSON values is decidable. -/
def decEqItems : (v w : List Json) → Decidable (v = w)
  | [], [] => isTrue rfl
  | [], _ :: _ | _ :: _, [] => isFalse (by simp)
  | x :: v, y :: w =>
    @decidable_of_iff _ (x = y ∧ v = w) (by simp)
      (@instDecidableAnd _ _ (decEq x y) (decEqItems v w))

/-- Equality of lists of members is decidable. -/
def decEqMembers : (v w : List (PyStr × Json)) → Decidable (v = w)
  | [], [] => isTrue rfl
  | [], _ :: _ | _ :: _, [] => isFalse (by simp)
  | (k, x) :: v, (l, y) :: w =>
    @decidable_of_iff _ (k = l ∧ x = y ∧ v = w) (by simp [and_assoc])
      (@instDecidableAnd _ _ (inferInstanceAs (Decidable (k = l)))
        (@instDecidableAnd _ _ (decEq x y) (decEqMembers v w)))

end

instance : DecidableEq Json := decEq

end Json

/-! ## Dictionaries -/

/-- The members of a dictionary, in the order of their keys. -/
abbrev Dict := List (PyStr × Json)

namespace Dict

/-- The value of a key. -/
def get? (d : Dict) (k : PyStr) : Option Json := d.lookup k

/-- The keys. -/
def keys (d : Dict) : List PyStr := d.map Prod.fst

/-- The dictionary with `k` set to `v`. -/
def insert (k : PyStr) (v : Json) : Dict → Dict
  | [] => [(k, v)]
  | (l, w) :: d =>
    if k < l then (k, v) :: (l, w) :: d
    else if k = l then (k, v) :: d
    else (l, w) :: insert k v d

/-- The dictionary without the key `k`. -/
def erase (k : PyStr) (d : Dict) : Dict := d.filter (·.1 ≠ k)

/-- The dictionary of a list of pairs, the last pair of a key winning. -/
def ofPairs (ms : List (PyStr × Json)) : Dict := ms.foldl (fun d m => d.insert m.1 m.2) []

/-- The keys are in increasing order. -/
def Sorted (d : Dict) : Prop := d.Pairwise fun a b => a.1 < b.1

instance (d : Dict) : Decidable d.Sorted :=
  inferInstanceAs (Decidable (d.Pairwise fun a b => a.1 < b.1))

@[simp] theorem get?_nil (k : PyStr) : get? [] k = none := rfl

theorem get?_cons (k l : PyStr) (v : Json) (d : Dict) :
    get? ((l, v) :: d) k = if k = l then some v else get? d k := by
  by_cases h : k = l
  · simp [get?, h]
  · simp [get?, List.lookup_cons, beq_eq_false_iff_ne.2 h, h]

theorem mem_of_get? {d : Dict} {k : PyStr} {v : Json} (h : d.get? k = some v) : (k, v) ∈ d := by
  induction d with
  | nil => cases h
  | cons m d ih =>
    obtain ⟨l, w⟩ := m
    rw [get?_cons] at h
    split_ifs at h with hk
    · obtain rfl := Option.some.inj h
      exact hk ▸ List.mem_cons_self
    · exact List.mem_cons_of_mem _ (ih h)

theorem get?_eq_none {d : Dict} {k : PyStr} : d.get? k = none ↔ k ∉ d.keys := by
  induction d with
  | nil => simp [keys]
  | cons m d ih =>
    obtain ⟨l, w⟩ := m
    rw [get?_cons, keys, List.map_cons, List.mem_cons, not_or]
    split_ifs with hk
    · simp [hk]
    · exact ih.trans (by simp [keys, hk])

theorem get?_of_mem {d : Dict} {k : PyStr} {v : Json} (hd : d.Sorted) (h : (k, v) ∈ d) :
    d.get? k = some v := by
  induction d with
  | nil => cases h
  | cons m d ih =>
    obtain ⟨l, w⟩ := m
    rw [Sorted, List.pairwise_cons] at hd
    rw [get?_cons]
    rcases List.mem_cons.1 h with he | h
    · obtain ⟨rfl, rfl⟩ := Prod.mk.inj he
      rw [if_pos rfl]
    · rw [if_neg (hd.1 _ h).ne', ih hd.2 h]

theorem mem_insert {d : Dict} {k : PyStr} {v : Json} {m : PyStr × Json} (h : m ∈ d.insert k v) :
    m = (k, v) ∨ m ∈ d := by
  induction d with
  | nil => exact .inl (List.mem_singleton.1 h)
  | cons n d ih =>
    obtain ⟨l, w⟩ := n
    rw [insert] at h
    split_ifs at h with hlt heq
    · exact List.mem_cons.1 h
    · exact (List.mem_cons.1 h).imp id (List.mem_cons_of_mem _)
    · rcases List.mem_cons.1 h with rfl | h
      · exact .inr List.mem_cons_self
      · exact (ih h).imp id (List.mem_cons_of_mem _)

theorem Sorted.insert {d : Dict} (h : d.Sorted) (k : PyStr) (v : Json) :
    (d.insert k v).Sorted := by
  induction d with
  | nil => exact List.pairwise_singleton _ _
  | cons n d ih =>
    obtain ⟨l, w⟩ := n
    have hd := List.pairwise_cons.1 h
    rw [Dict.insert]
    split_ifs with hlt heq
    · exact List.pairwise_cons.2 ⟨fun m hm => (List.mem_cons.1 hm).elim (fun e => e ▸ hlt)
        fun hm => hlt.trans (hd.1 m hm), h⟩
    · exact List.pairwise_cons.2 ⟨fun m hm => heq ▸ hd.1 m hm, hd.2⟩
    · refine List.pairwise_cons.2 ⟨fun m hm => ?_, ih hd.2⟩
      rcases mem_insert hm with rfl | hm
      · exact lt_of_le_of_ne (not_lt.1 hlt) (Ne.symm heq)
      · exact hd.1 m hm

theorem Sorted.erase {d : Dict} (h : d.Sorted) (k : PyStr) : (d.erase k).Sorted :=
  List.Pairwise.filter _ h

/-- Looking a key up after setting one. -/
theorem get?_insert {d : Dict} (k l : PyStr) (v : Json) :
    (d.insert k v).get? l = if l = k then some v else d.get? l := by
  induction d with
  | nil => rw [insert, get?_cons]
  | cons n d ih =>
    obtain ⟨j, w⟩ := n
    rw [insert]
    by_cases hlt : k < j
    · rw [if_pos hlt, get?_cons]
    · rw [if_neg hlt]
      by_cases heq : k = j
      · rw [if_pos heq, get?_cons, get?_cons, heq]
        split_ifs <;> rfl
      · rw [if_neg heq, get?_cons, get?_cons, ih]
        by_cases hl : l = k
        · rw [if_pos hl, if_pos hl, if_neg fun e => heq (hl.symm.trans e)]
        · rw [if_neg hl, if_neg hl]

/-- Looking a key up after deleting one. -/
theorem get?_erase {d : Dict} (k l : PyStr) :
    (d.erase k).get? l = if l = k then none else d.get? l := by
  induction d with
  | nil => simp [erase]
  | cons n d ih =>
    obtain ⟨j, w⟩ := n
    rw [erase, List.filter_cons, ← erase]
    by_cases hj : j = k
    · subst hj
      simp only [ne_eq, not_true_eq_false, decide_false, Bool.false_eq_true, if_false]
      rw [ih, get?_cons]
      split_ifs <;> rfl
    · simp only [ne_eq, hj, not_false_eq_true, decide_true, if_true]
      rw [get?_cons, get?_cons, ih]
      split_ifs with h₁ h₂
      · exact absurd (h₁.symm.trans h₂) hj
      · rfl
      · rfl
      · rfl

theorem erase_erase (d : Dict) (k : PyStr) : (d.erase k).erase k = d.erase k := by
  simp [erase]

/-- Deleting a key forgets what it was set to. -/
theorem erase_insert (d : Dict) (k : PyStr) (v : Json) : (d.insert k v).erase k = d.erase k := by
  induction d with
  | nil => simp [insert, erase]
  | cons n d ih =>
    obtain ⟨l, w⟩ := n
    rw [insert]
    split_ifs with hlt heq
    · simp [erase]
    · simp [erase, heq]
    · rw [erase, List.filter_cons, ← erase, ih, erase, erase, List.filter_cons]

/-- Dictionaries with the same members are equal. -/
theorem ext {d e : Dict} (hd : d.Sorted) (he : e.Sorted) (h : ∀ k, d.get? k = e.get? k) :
    d = e := by
  refine List.Perm.eq_of_pairwise
    (fun a b _ _ hab hba => absurd (lt_trans hab hba) (lt_irrefl a.1)) hd he ?_
  refine (List.perm_ext_iff_of_nodup (hd.imp fun hab e => ?_) (he.imp fun hab e => ?_)).2 ?_
  · exact absurd hab (e ▸ lt_irrefl _)
  · exact absurd hab (e ▸ lt_irrefl _)
  · rintro ⟨k, v⟩
    exact ⟨fun hm => mem_of_get? ((h k) ▸ get?_of_mem hd hm),
      fun hm => mem_of_get? ((h k) ▸ get?_of_mem he hm)⟩

/-- Setting the greatest key appends its member. -/
theorem insert_of_forall_lt {d : Dict} {k : PyStr} {v : Json} (h : ∀ m ∈ d, m.1 < k) :
    d.insert k v = d ++ [(k, v)] := by
  induction d with
  | nil => rfl
  | cons n d ih =>
    obtain ⟨l, w⟩ := n
    have hl : l < k := h _ List.mem_cons_self
    rw [insert, if_neg hl.not_gt, if_neg hl.ne', ih fun m hm => h m (List.mem_cons_of_mem _ hm)]
    rfl

theorem ofPairs_sorted (ms : List (PyStr × Json)) : (ofPairs ms).Sorted := by
  unfold ofPairs
  suffices h : ∀ d : Dict, d.Sorted → (ms.foldl (fun d m => d.insert m.1 m.2) d).Sorted from
    h [] List.Pairwise.nil
  induction ms with
  | nil => exact fun d hd => hd
  | cons m ms ih => exact fun d hd => ih _ (hd.insert _ _)

theorem mem_ofPairs {ms : List (PyStr × Json)} {m : PyStr × Json} (h : m ∈ ofPairs ms) : m ∈ ms := by
  induction ms using List.reverseRecOn with
  | nil => cases h
  | append_singleton ms n ih =>
    rw [ofPairs, List.foldl_append, ← ofPairs, List.foldl_cons, List.foldl_nil] at h
    rcases mem_insert h with rfl | h
    · exact List.mem_append_right _ (List.mem_singleton_self _)
    · exact List.mem_append_left _ (ih h)

/-- A dictionary is the one of its members. -/
theorem ofPairs_eq_self {d : Dict} (h : d.Sorted) : ofPairs d = d := by
  induction d using List.reverseRecOn with
  | nil => rfl
  | append_singleton d m ih =>
    rw [Sorted, List.pairwise_append] at h
    rw [ofPairs, List.foldl_append, ← ofPairs, ih h.1]
    exact insert_of_forall_lt fun n hn => h.2.2 n hn m (List.mem_singleton_self _)

end Dict

/-! ## Numbers -/

/-- The rest of a text cannot continue a number. -/
def Delimited (s : PyStr) : Prop :=
  ∀ c ∈ s.head?, isDigit c = false ∧ c ≠ cp '.' ∧ c ≠ cp 'e' ∧ c ≠ cp 'E' ∧ c ≠ cp '-' ∧ c ≠ cp '+'

/-- The fraction at the start of a text, with the rest: `(\.[0-9]+)?`. -/
def scanFraction : PyStr → PyStr × PyStr
  | c :: d :: s =>
    if c = cp '.' ∧ isDigit d then
      (c :: d :: s.takeWhile isDigit, s.dropWhile isDigit)
    else ([], c :: d :: s)
  | s => ([], s)

/-- The exponent at the start of a text, with the rest: `([eE][-+]?[0-9]+)?`. -/
def scanExponent : PyStr → PyStr × PyStr
  | c :: d :: s =>
    if c = cp 'e' ∨ c = cp 'E' then
      if isDigit d then (c :: d :: s.takeWhile isDigit, s.dropWhile isDigit)
      else match s with
      | e :: s =>
        if (d = cp '-' ∨ d = cp '+') ∧ isDigit e then
          (c :: d :: e :: s.takeWhile isDigit, s.dropWhile isDigit)
        else ([], c :: d :: e :: s)
      | [] => ([], [c, d])
    else ([], c :: d :: s)
  | s => ([], s)

/-- The fraction and exponent after an integer: whether there is one, the
    literal, and the rest. -/
def scanAfter (integer rest : PyStr) : Bool × PyStr × PyStr :=
  let fraction := scanFraction rest
  let exponent := scanExponent fraction.2
  (!(fraction.1 ++ exponent.1).isEmpty, integer ++ fraction.1 ++ exponent.1, exponent.2)

/-- The digits of an integer at the start of a text, after its sign:
    `0|[1-9][0-9]*`. -/
def scanDigits (sign : PyStr) : PyStr → Option (Bool × PyStr × PyStr)
  | [] => none
  | c :: s =>
    if c = cp '0' then some (scanAfter (sign ++ [c]) s)
    else if isDigit c then
      some (scanAfter (sign ++ c :: s.takeWhile isDigit) (s.dropWhile isDigit))
    else none

/-- The number at the start of a text: whether it has a fraction or an
    exponent, its literal, and the rest. -/
def scanNumber : PyStr → Option (Bool × PyStr × PyStr)
  | [] => none
  | c :: s => if c = cp '-' then scanDigits [c] s else scanDigits [] (c :: s)

/-- The names of the numbers that are not finite. -/
def constants : List PyStr := [py "NaN", py "Infinity", py "-Infinity"]

/-- A literal of a number that is not an integer. -/
def FloatLiteral (t : PyStr) : Prop := t ∈ constants ∨ scanNumber t = some (true, t, [])

instance (t : PyStr) : Decidable (FloatLiteral t) :=
  inferInstanceAs (Decidable (t ∈ constants ∨ scanNumber t = some (true, t, [])))

/-- The text of an integer. -/
def intText (n : Int) : PyStr := if n < 0 then cp '-' :: decimal n.natAbs else decimal n.natAbs

/-- The integer a text denotes. -/
def intOf : PyStr → Int
  | [] => 0
  | c :: s => if c = cp '-' then -(ofDecimal s : Int) else ofDecimal (c :: s)

section Scan

variable {r : PyStr} (hr : Delimited r)

include hr

theorem takeWhile_append_delimited (s : PyStr) :
    (s ++ r).takeWhile isDigit = s.takeWhile isDigit := by
  induction s with
  | nil => cases r with
    | nil => rfl
    | cons c r => simp [(hr c rfl).1]
  | cons c s ih => simp only [List.cons_append, List.takeWhile_cons, ih]

theorem dropWhile_append_delimited (s : PyStr) :
    (s ++ r).dropWhile isDigit = s.dropWhile isDigit ++ r := by
  induction s with
  | nil => cases r with
    | nil => rfl
    | cons c r => simp [(hr c rfl).1]
  | cons c s ih =>
    simp only [List.cons_append, List.dropWhile_cons, ih]
    split_ifs <;> rfl

theorem scanFraction_append (s : PyStr) :
    scanFraction (s ++ r) = ((scanFraction s).1, (scanFraction s).2 ++ r) := by
  match s with
  | [] => match r with
    | [] => rfl
    | [c] => rfl
    | c :: d :: r => simp [scanFraction, (hr c rfl).2.1]
  | [c] => match r with
    | [] => rfl
    | d :: r => simp [scanFraction, (hr d rfl).1]
  | c :: d :: s =>
    simp only [List.cons_append, scanFraction, takeWhile_append_delimited hr,
      dropWhile_append_delimited hr]
    split_ifs <;> rfl

theorem scanExponent_append (s : PyStr) :
    scanExponent (s ++ r) = ((scanExponent s).1, (scanExponent s).2 ++ r) := by
  match s with
  | [] => match r with
    | [] => rfl
    | [c] => rfl
    | c :: d :: r =>
      obtain ⟨-, -, he, hE, -⟩ := hr c rfl
      simp only [List.nil_append, scanExponent, he, hE, or_self, if_false]
  | [c] => match r with
    | [] => rfl
    | [d] => simp [scanExponent, (hr d rfl).1]
    | d :: e :: r =>
      simp [scanExponent, (hr d rfl).1, (hr d rfl).2.2.2.2.1, (hr d rfl).2.2.2.2.2]
  | [c, d] => match r with
    | [] => simp only [List.append_nil]
    | e :: r =>
      have he : isDigit e = false := (hr e rfl).1
      rw [List.cons_append, List.cons_append, List.nil_append]
      by_cases hc : c = cp 'e' ∨ c = cp 'E'
      · by_cases hd : isDigit d = true
        · simp only [scanExponent, if_pos hc, if_pos hd, List.takeWhile_cons, List.dropWhile_cons,
            he]
          rfl
        · simp only [scanExponent, if_pos hc, if_neg hd, he, Bool.false_eq_true, and_false, if_false]
          rfl
      · simp only [scanExponent, if_neg hc]
        rfl
  | c :: d :: e :: s =>
    have ht := takeWhile_append_delimited hr
    have hs := dropWhile_append_delimited hr
    change scanExponent (c :: d :: e :: (s ++ r)) = _
    by_cases hc : c = cp 'e' ∨ c = cp 'E'
    · by_cases hd : isDigit d = true
      · simp only [scanExponent, if_pos hc, if_pos hd]
        rw [← List.cons_append, ht, hs]
      · by_cases he : (d = cp '-' ∨ d = cp '+') ∧ isDigit e = true
        · simp only [scanExponent, if_pos hc, if_neg hd, if_pos he, ht, hs]
        · simp only [scanExponent, if_pos hc, if_neg hd, if_neg he]
          rfl
    · simp only [scanExponent, if_neg hc]
      rfl

theorem scanAfter_append (integer s : PyStr) :
    scanAfter integer (s ++ r) =
      ((scanAfter integer s).1, (scanAfter integer s).2.1, (scanAfter integer s).2.2 ++ r) := by
  simp only [scanAfter, scanFraction_append hr, scanExponent_append hr]

theorem scanDigits_append (sign s : PyStr) :
    scanDigits sign (s ++ r) =
      (scanDigits sign s).map fun n => (n.1, n.2.1, n.2.2 ++ r) := by
  match s with
  | [] => match r with
    | [] => rfl
    | c :: r =>
      have h0 : c ≠ cp '0' := by
        rintro rfl
        exact absurd (hr _ rfl).1 (by decide)
      simp [scanDigits, (hr c rfl).1, h0]
  | c :: s =>
    simp only [List.cons_append, scanDigits, takeWhile_append_delimited hr,
      dropWhile_append_delimited hr, scanAfter_append hr]
    split_ifs <;> rfl

/-- What cannot continue a number does not change how it is read. -/
theorem scanNumber_append (s : PyStr) :
    scanNumber (s ++ r) = (scanNumber s).map fun n => (n.1, n.2.1, n.2.2 ++ r) := by
  match s with
  | [] => match r with
    | [] => rfl
    | c :: r =>
      have hs : scanNumber (c :: r) = scanDigits [] (c :: r) := by
        simp only [scanNumber, (hr c rfl).2.2.2.2.1, if_false]
      exact hs.trans (scanDigits_append hr [] [])
  | c :: s =>
    simp only [List.cons_append, scanNumber]
    split_ifs
    · exact scanDigits_append hr _ s
    · exact scanDigits_append hr _ (c :: s)

end Scan

/-- The text of an integer is read back whole. -/
theorem scanNumber_intText (n : Int) : scanNumber (intText n) = some (false, intText n, []) := by
  have hd (sign : PyStr) (m : Nat) :
      scanDigits sign (decimal m) = some (false, sign ++ decimal m, []) := by
    have hend (t : PyStr) : scanAfter t [] = (false, t, []) := by
      simp [scanAfter, scanFraction, scanExponent]
    rcases Nat.eq_zero_or_pos m with rfl | hm
    · exact congrArg some (hend (sign ++ decimal 0))
    · obtain ⟨d, s, hd, hd', hs⟩ := decimal_pos hm
      have hdig : ∀ c ∈ s, isDigit c = true := fun c hc =>
        isDigit_of_mem_decimal (n := m) (hs ▸ List.mem_cons_of_mem _ hc)
      have h0 : decimalDigit d ≠ cp '0' := fun e => by
        have := congrArg Fin.val e
        rw [val_decimalDigit hd'] at this
        exact hd.ne' (Nat.add_left_cancel this)
      rw [hs, scanDigits, if_neg h0, if_pos (isDigit_decimalDigit hd'),
        List.takeWhile_eq_self_iff.2 hdig, List.dropWhile_eq_nil_iff.2 hdig, hend]
  unfold intText
  split_ifs with hn
  · rw [scanNumber, if_pos rfl, hd]
    rfl
  · cases h : decimal n.natAbs with
    | nil =>
      rcases Nat.eq_zero_or_pos n.natAbs with h0 | hm
      · rw [h0] at h
        exact absurd h (by decide)
      · obtain ⟨d, s, -, -, hs⟩ := decimal_pos hm
        cases hs.symm.trans h
    | cons c s =>
      have hc : c ≠ cp '-' := by
        rintro rfl
        exact absurd (isDigit_of_mem_decimal (h ▸ List.mem_cons_self)) (by decide)
      rw [scanNumber, if_neg hc, ← h, hd]
      rfl

/-- An integer is the one its text denotes. -/
@[simp] theorem intOf_intText (n : Int) : intOf (intText n) = n := by
  unfold intText
  split_ifs with hn
  · rw [intOf, if_pos rfl, ofDecimal_decimal]
    omega
  · cases h : decimal n.natAbs with
    | nil =>
      have := ofDecimal_decimal n.natAbs
      rw [h] at this
      change (0 : Int) = n
      have h0 : (0 : Nat) = n.natAbs := this
      omega
    | cons c s =>
      have hc : c ≠ cp '-' := by
        rintro rfl
        exact absurd (isDigit_of_mem_decimal (h ▸ List.mem_cons_self)) (by decide)
      rw [intOf, if_neg hc, ← h, ofDecimal_decimal]
      omega

/-! ## Values inside a value -/

namespace Json

mutual

/-- Every value inside a value, itself included, satisfies `p`. -/
def Every (p : Json → Prop) : Json → Prop
  | null => p null
  | bool b => p (bool b)
  | int n => p (int n)
  | float t => p (float t)
  | str s => p (str s)
  | arr items => p (arr items) ∧ EveryItem p items
  | obj members => p (obj members) ∧ EveryMember p members

/-- Every value inside the items satisfies `p`. -/
def EveryItem (p : Json → Prop) : List Json → Prop
  | [] => True
  | v :: items => v.Every p ∧ EveryItem p items

/-- Every value inside the members satisfies `p`. -/
def EveryMember (p : Json → Prop) : List (PyStr × Json) → Prop
  | [] => True
  | (_, v) :: members => v.Every p ∧ EveryMember p members

end

variable {p q : Json → Prop}

theorem everyItem_iff {items : List Json} :
    EveryItem p items ↔ ∀ v ∈ items, v.Every p := by
  induction items with
  | nil => simp [EveryItem]
  | cons v items ih => simp [EveryItem, ih]

theorem everyMember_iff {members : List (PyStr × Json)} :
    EveryMember p members ↔ ∀ m ∈ members, m.2.Every p := by
  induction members with
  | nil => simp [EveryMember]
  | cons m members ih => simp [EveryMember, ih]

theorem every_arr {items : List Json} :
    (arr items).Every p ↔ p (arr items) ∧ ∀ v ∈ items, v.Every p := by
  rw [Every, everyItem_iff]

theorem every_obj {members : List (PyStr × Json)} :
    (obj members).Every p ↔ p (obj members) ∧ ∀ m ∈ members, m.2.Every p := by
  rw [Every, everyMember_iff]

/-- A value satisfies what every value inside it does. -/
theorem Every.self {v : Json} (h : v.Every p) : p v := by
  cases v with
  | arr items => exact (every_arr.1 h).1
  | obj members => exact (every_obj.1 h).1
  | null | bool | int | float | str => exact h

mutual

theorem Every.and {v : Json} (hp : v.Every p) (hq : v.Every q) :
    v.Every fun w => p w ∧ q w :=
  match v with
  | null | bool _ | int _ | float _ | str _ => ⟨hp, hq⟩
  | arr _ => ⟨⟨hp.1, hq.1⟩, EveryItem.and hp.2 hq.2⟩
  | obj _ => ⟨⟨hp.1, hq.1⟩, EveryMember.and hp.2 hq.2⟩

theorem EveryItem.and {items : List Json} (hp : EveryItem p items) (hq : EveryItem q items) :
    EveryItem (fun w => p w ∧ q w) items :=
  match items with
  | [] => trivial
  | _ :: _ => ⟨Every.and hp.1 hq.1, EveryItem.and hp.2 hq.2⟩

theorem EveryMember.and {members : List (PyStr × Json)} (hp : EveryMember p members)
    (hq : EveryMember q members) : EveryMember (fun w => p w ∧ q w) members :=
  match members with
  | [] => trivial
  | _ :: _ => ⟨Every.and hp.1 hq.1, EveryMember.and hp.2 hq.2⟩

end

mutual

theorem Every.imp (h : ∀ v, p v → q v) {v : Json} (hv : v.Every p) : v.Every q :=
  match v with
  | null | bool _ | int _ | float _ | str _ => h _ hv
  | arr _ => ⟨h _ hv.1, EveryItem.imp h hv.2⟩
  | obj _ => ⟨h _ hv.1, EveryMember.imp h hv.2⟩

theorem EveryItem.imp (h : ∀ v, p v → q v) {items : List Json} (hv : EveryItem p items) :
    EveryItem q items :=
  match items with
  | [] => trivial
  | _ :: _ => ⟨Every.imp h hv.1, EveryItem.imp h hv.2⟩

theorem EveryMember.imp (h : ∀ v, p v → q v) {members : List (PyStr × Json)}
    (hv : EveryMember p members) : EveryMember q members :=
  match members with
  | [] => trivial
  | _ :: _ => ⟨Every.imp h hv.1, EveryMember.imp h hv.2⟩

end

/-- An object is a dictionary. -/
def IsDict : Json → Prop
  | obj d => Dict.Sorted d
  | _ => True

/-- A number that is not an integer is a literal. -/
def IsNumeral : Json → Prop
  | float t => FloatLiteral t
  | _ => True

/-- The objects inside a value are dictionaries. -/
def Sorted (v : Json) : Prop := v.Every IsDict

/-- The numbers inside a value that are not integers are literals. -/
def Numeral (v : Json) : Prop := v.Every IsNumeral

mutual

/-- How deep the arrays and objects of a value nest. -/
def depth : Json → Nat
  | arr items => depthItems items + 1
  | obj members => depthMembers members + 1
  | null | bool _ | int _ | float _ | str _ => 0

/-- The greatest depth among the items. -/
def depthItems : List Json → Nat
  | [] => 0
  | v :: items => max v.depth (depthItems items)

/-- The greatest depth among the members. -/
def depthMembers : List (PyStr × Json) → Nat
  | [] => 0
  | (_, v) :: members => max v.depth (depthMembers members)

end

/-! ## Texts of values -/

/-- A character of a string literal. -/
def escape (c : CodePoint) : PyStr :=
  if c = cp '"' then py "\\\""
  else if c = cp '\\' then py "\\\\"
  else if c = cp '\n' then py "\\n"
  else if c = cp '\r' then py "\\r"
  else if c = cp '\t' then py "\\t"
  else if c.val = 0x0C then py "\\f"
  else if c.val = 0x08 then py "\\b"
  else if c.val < 0x20 then py "\\u00" ++ [hexDigit (c.val / 16), hexDigit (c.val % 16)]
  else [c]

/-- A string literal. -/
def quote (s : PyStr) : PyStr := cp '"' :: (s.flatMap escape ++ [cp '"'])

mutual

/-- The text of a value: `json.dumps` with `separators=(",", ":")` and
    `ensure_ascii=False`, the members in the order they have. -/
def dumps : Json → PyStr
  | null => py "null"
  | bool b => if b then py "true" else py "false"
  | int n => intText n
  | float t => t
  | str s => quote s
  | arr [] => py "[]"
  | arr (v :: items) => cp '[' :: (v.dumps ++ dumpsItems items)
  | obj [] => py "{}"
  | obj ((k, v) :: members) => cp '{' :: (quote k ++ cp ':' :: (v.dumps ++ dumpsMembers members))

/-- The rest of an array after an item. -/
def dumpsItems : List Json → PyStr
  | [] => [cp ']']
  | v :: items => cp ',' :: (v.dumps ++ dumpsItems items)

/-- The rest of an object after a member. -/
def dumpsMembers : List (PyStr × Json) → PyStr
  | [] => [cp '}']
  | (k, v) :: members => cp ',' :: (quote k ++ cp ':' :: (v.dumps ++ dumpsMembers members))

end

/-- An ASCII character that is no control below the blank. -/
def plainAscii (c : CodePoint) : Bool := 0x20 ≤ c.val && c.val < 0x80

/-- The characters a value brings into its text, where they are not escaped. -/
def Brings (p : CodePoint → Prop) : Json → Prop
  | float t => ∀ c ∈ t, p c
  | str s => ∀ c ∈ s, 0x20 ≤ c.val → p c
  | obj members => ∀ m ∈ members, ∀ c ∈ m.1, 0x20 ≤ c.val → p c
  | _ => True

section Brings

variable {p : CodePoint → Prop} (hp : ∀ c, 0x20 ≤ c.val → c.val < 0x80 → p c)

include hp

theorem plainAscii_forall {s : PyStr} (hs : s.all plainAscii = true) : ∀ c ∈ s, p c := by
  intro c hc
  have h := List.all_eq_true.1 hs c hc
  simp only [plainAscii, Bool.and_eq_true, decide_eq_true_eq] at h
  exact hp c h.1 h.2

theorem escape_forall {c : CodePoint} (hc : 0x20 ≤ c.val → p c) : ∀ d ∈ escape c, p d := by
  have hex {n : Nat} (hn : n < 16) : p (hexDigit n) := by
    have h : 0x20 ≤ (hexDigit n).val ∧ (hexDigit n).val < 0x80 := by
      revert n
      decide
    exact hp _ h.1 h.2
  unfold escape
  split_ifs with h₁ h₂ h₃ h₄ h₅ h₆ h₇ h₈
  · exact plainAscii_forall hp (by decide)
  · exact plainAscii_forall hp (by decide)
  · exact plainAscii_forall hp (by decide)
  · exact plainAscii_forall hp (by decide)
  · exact plainAscii_forall hp (by decide)
  · exact plainAscii_forall hp (by decide)
  · exact plainAscii_forall hp (by decide)
  · refine List.forall_mem_append.2 ⟨plainAscii_forall hp (by decide), fun d hd => ?_⟩
    rcases List.mem_pair.1 hd with rfl | rfl
    · exact hex (by omega)
    · exact hex (by omega)
  · intro d hd
    obtain rfl := List.mem_singleton.1 hd
    exact hc (by omega)

theorem quote_forall {s : PyStr} (hs : ∀ c ∈ s, 0x20 ≤ c.val → p c) : ∀ c ∈ quote s, p c := by
  refine List.forall_mem_cons.2 ⟨hp _ (by decide) (by decide), fun c hc => ?_⟩
  rcases List.mem_append.1 hc with hc | hc
  · obtain ⟨d, hd, hc⟩ := List.mem_flatMap.1 hc
    exact escape_forall hp (hs d hd) c hc
  · obtain rfl := List.mem_singleton.1 hc
    exact hp _ (by decide) (by decide)

theorem intText_forall (n : Int) : ∀ c ∈ intText n, p c := by
  have digits (m : Nat) : ∀ c ∈ decimal m, p c := by
    intro c hc
    have hd := isDigit_of_mem_decimal hc
    simp only [isDigit, Bool.and_eq_true, decide_eq_true_eq] at hd
    exact hp c (by omega) (by omega)
  unfold intText
  split_ifs
  · exact List.forall_mem_cons.2 ⟨hp _ (by decide) (by decide), digits _⟩
  · exact digits _

mutual

/-- A text is made of ASCII characters and of what its values bring into it. -/
theorem dumps_forall {v : Json} (hv : v.Every (Brings p)) : ∀ c ∈ v.dumps, p c := by
  match v with
  | .null => exact plainAscii_forall hp (by decide)
  | .bool true => exact plainAscii_forall hp (by decide)
  | .bool false => exact plainAscii_forall hp (by decide)
  | .int n => exact intText_forall hp n
  | .float t => exact hv
  | .str s => exact quote_forall hp hv
  | .arr [] => exact plainAscii_forall hp (by decide)
  | .arr (_ :: _) =>
    exact List.forall_mem_cons.2 ⟨hp _ (by decide) (by decide),
      List.forall_mem_append.2 ⟨dumps_forall hv.2.1, dumpsItems_forall hv.2.2⟩⟩
  | .obj [] => exact plainAscii_forall hp (by decide)
  | .obj ((k, v) :: members) =>
    obtain ⟨hk, hv, hm⟩ := hv
    obtain ⟨hk, hks⟩ := List.forall_mem_cons.1 hk
    exact List.forall_mem_cons.2 ⟨hp _ (by decide) (by decide), List.forall_mem_append.2
      ⟨quote_forall hp hk, List.forall_mem_cons.2 ⟨hp _ (by decide) (by decide),
        List.forall_mem_append.2 ⟨dumps_forall hv, dumpsMembers_forall hks hm⟩⟩⟩⟩

theorem dumpsItems_forall {items : List Json} (hv : EveryItem (Brings p) items) :
    ∀ c ∈ dumpsItems items, p c := by
  match items with
  | [] => exact List.forall_mem_cons.2 ⟨hp _ (by decide) (by decide), List.forall_mem_nil _⟩
  | _ :: _ =>
    exact List.forall_mem_cons.2 ⟨hp _ (by decide) (by decide),
      List.forall_mem_append.2 ⟨dumps_forall hv.1, dumpsItems_forall hv.2⟩⟩

theorem dumpsMembers_forall {members : List (PyStr × Json)}
    (hk : ∀ m ∈ members, ∀ c ∈ m.1, 0x20 ≤ c.val → p c) (hv : EveryMember (Brings p) members) :
    ∀ c ∈ dumpsMembers members, p c := by
  match members with
  | [] => exact List.forall_mem_cons.2 ⟨hp _ (by decide) (by decide), List.forall_mem_nil _⟩
  | (k, v) :: members =>
    obtain ⟨hk, hks⟩ := List.forall_mem_cons.1 hk
    exact List.forall_mem_cons.2 ⟨hp _ (by decide) (by decide), List.forall_mem_append.2
      ⟨quote_forall hp hk, List.forall_mem_cons.2 ⟨hp _ (by decide) (by decide),
        List.forall_mem_append.2 ⟨dumps_forall hv.1, dumpsMembers_forall hks hv.2⟩⟩⟩⟩

end

end Brings

end Json

end Wire
