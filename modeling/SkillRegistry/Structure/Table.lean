import Mathlib.Data.List.Lex
import Mathlib.Data.List.Pairwise
import Mathlib.Data.Prod.Lex

/-!
# Tables with a primary key

A table of a relational database: rows with pairwise different keys, kept in the
order of their keys so that two tables are equal when they have the same rows.

* `find?` looks a row up by its key, `insert?` adds a row unless its key is taken,
  `put` adds it in place of the row with its key, and `filter` keeps some rows;
* `find?_put` and `find?_filter` say what can be looked up afterwards, and
  `rows_put_of_lt` that a row with the greatest key goes last;
* the keys of a `Numbered` table are `1, 2, …`: a row is found at its place.
-/

variable {κ ρ : Type} [LinearOrder κ]

/-- The rows of a table, by increasing key. -/
structure Table (key : ρ → κ) where
  rows : List ρ
  sorted : rows.Pairwise fun a b => key a < key b

namespace Table

variable {key : ρ → κ}

instance [DecidableEq ρ] : DecidableEq (Table key) := fun s t =>
  decidable_of_iff (s.rows = t.rows) ⟨fun h => by cases s; cases t; cases h; rfl, fun h => h ▸ rfl⟩

@[ext] theorem ext {s t : Table key} (h : s.rows = t.rows) : s = t := by
  cases s; cases t; cases h; rfl

/-- The table without rows. -/
def empty : Table key := ⟨[], .nil⟩

/-- The row with a key. -/
def find? (t : Table key) (k : κ) : Option ρ := t.rows.find? fun r => key r = k

/-- The row with the greatest key. -/
def last? (t : Table key) : Option ρ := t.rows.getLast?

/-- The table with the rows that satisfy `p`. -/
def filter (t : Table key) (p : ρ → Bool) : Table key := ⟨t.rows.filter p, t.sorted.filter p⟩

/-- The table with a row, in place of the one with its key if there is one. -/
def put (t : Table key) (r : ρ) : Table key where
  rows := t.rows.filter (fun x => key x < key r) ++ r :: t.rows.filter (fun x => key r < key x)
  sorted := by
    refine List.pairwise_append.2 ⟨t.sorted.filter _, List.pairwise_cons.2
      ⟨fun x hx => of_decide_eq_true (List.mem_filter.1 hx).2, t.sorted.filter _⟩, fun x hx y hy => ?_⟩
    have hxr := of_decide_eq_true (List.mem_filter.1 hx).2
    rcases List.mem_cons.1 hy with rfl | hy
    · exact hxr
    · exact hxr.trans (of_decide_eq_true (List.mem_filter.1 hy).2)

/-- The table with one more row, unless its key is taken. -/
def insert? (t : Table key) (r : ρ) : Option (Table key) :=
  if (t.find? (key r)).isSome then none else some (t.put r)

@[simp] theorem rows_empty : (empty : Table key).rows = [] := rfl

@[simp] theorem rows_filter (t : Table key) (p : ρ → Bool) : (t.filter p).rows = t.rows.filter p := rfl

@[simp] theorem find?_empty (k : κ) : (empty : Table key).find? k = none := rfl

/-- Rows with the same key are the same. -/
theorem eq_of_key_eq (t : Table key) {a b : ρ} (ha : a ∈ t.rows) (hb : b ∈ t.rows)
    (h : key a = key b) : a = b := by
  by_contra hne
  have hp : t.rows.Pairwise fun a b => key a ≠ key b := t.sorted.imp fun hab => hab.ne
  have : Std.Symm fun a b : ρ => key a ≠ key b := ⟨fun _ _ hab => hab.symm⟩
  exact hp.forall ha hb hne h

theorem find?_eq_some {t : Table key} {k : κ} {r : ρ} :
    t.find? k = some r ↔ r ∈ t.rows ∧ key r = k := by
  constructor
  · intro h
    exact ⟨List.mem_of_find?_eq_some h, of_decide_eq_true (List.find?_some h :)⟩
  · rintro ⟨hr, rfl⟩
    cases h : t.find? (key r) with
    | none => exact absurd (decide_eq_true (rfl : key r = key r)) (List.find?_eq_none.1 h r hr)
    | some s =>
      have hs : key s = key r := of_decide_eq_true (List.find?_some h :)
      rw [t.eq_of_key_eq (List.mem_of_find?_eq_some h) hr hs]

theorem find?_eq_none {t : Table key} {k : κ} : t.find? k = none ↔ ∀ r ∈ t.rows, key r ≠ k := by
  simp [find?]

theorem mem_rows {t : Table key} {r : ρ} : r ∈ t.rows ↔ t.find? (key r) = some r := by
  simp [find?_eq_some]

/-- What is found in a table is found in one with more rows. -/
theorem find?_mono {s t : Table key} (h : s.rows ⊆ t.rows) {k : κ} {r : ρ} (hr : s.find? k = some r) :
    t.find? k = some r :=
  find?_eq_some.2 ⟨h (find?_eq_some.1 hr).1, (find?_eq_some.1 hr).2⟩

/-- Tables with the same rows are equal. -/
theorem ext_mem {s t : Table key} (h : ∀ r, r ∈ s.rows ↔ r ∈ t.rows) : s = t := by
  have nodup (u : Table key) : u.rows.Nodup := u.sorted.imp fun hab e => (e ▸ hab).false
  exact Table.ext <| List.Perm.eq_of_pairwise (fun _ _ _ _ hab hba => absurd hba hab.asymm) s.sorted
    t.sorted ((List.perm_ext_iff_of_nodup (nodup s) (nodup t)).2 h)

theorem mem_put {t : Table key} {r x : ρ} :
    x ∈ (t.put r).rows ↔ x = r ∨ x ∈ t.rows ∧ key x ≠ key r := by
  simp only [put, List.mem_append, List.mem_filter, List.mem_cons, decide_eq_true_eq, ne_eq]
  constructor
  · rintro (⟨hx, hlt⟩ | rfl | ⟨hx, hlt⟩)
    · exact .inr ⟨hx, hlt.ne⟩
    · exact .inl rfl
    · exact .inr ⟨hx, hlt.ne'⟩
  · rintro (rfl | ⟨hx, hne⟩)
    · exact .inr (.inl rfl)
    · exact (lt_or_gt_of_ne hne).imp (⟨hx, ·⟩) fun h => .inr ⟨hx, h⟩

/-- Looking a key up after putting a row. -/
theorem find?_put (t : Table key) (r : ρ) (k : κ) :
    (t.put r).find? k = if k = key r then some r else t.find? k := by
  split_ifs with h
  · exact find?_eq_some.2 ⟨mem_put.2 (.inl rfl), h.symm⟩
  · ext x
    rw [find?_eq_some, find?_eq_some, mem_put]
    constructor
    · rintro ⟨rfl | ⟨hx, -⟩, rfl⟩
      · exact absurd rfl h
      · exact ⟨hx, rfl⟩
    · rintro ⟨hx, rfl⟩
      exact ⟨.inr ⟨hx, h⟩, rfl⟩

/-- A row of the table is already there. -/
theorem put_self {t : Table key} {r : ρ} (h : t.find? (key r) = some r) : t.put r = t := by
  refine ext_mem fun x => ?_
  rw [mem_put]
  constructor
  · rintro (rfl | ⟨hx, -⟩)
    · exact (find?_eq_some.1 h).1
    · exact hx
  · intro hx
    by_cases hk : key x = key r
    · exact .inl (t.eq_of_key_eq hx (find?_eq_some.1 h).1 hk)
    · exact .inr ⟨hx, hk⟩

/-- Of two rows put under one key the second one stays. -/
theorem put_put {t : Table key} {r r' : ρ} (h : key r = key r') : (t.put r).put r' = t.put r' := by
  refine ext_mem fun x => ?_
  rw [mem_put, mem_put, mem_put]
  constructor
  · rintro (rfl | ⟨rfl | ⟨hx, -⟩, hne⟩)
    · exact .inl rfl
    · exact absurd h hne
    · exact .inr ⟨hx, hne⟩
  · rintro (rfl | ⟨hx, hne⟩)
    · exact .inl rfl
    · exact .inr ⟨.inr ⟨hx, h ▸ hne⟩, hne⟩

/-- Rows whose keys are free, and differ, are all inserted. -/
theorem foldl_insert {rows : List ρ} {t : Table key} (hfree : ∀ r ∈ rows, t.find? (key r) = none)
    (hdistinct : rows.Pairwise fun a b => key a ≠ key b) :
    rows.foldl (fun t r => (t.insert? r).getD t) t = rows.foldl .put t := by
  induction rows generalizing t with
  | nil => rfl
  | cons r rows ih =>
    obtain ⟨hr, hrows⟩ := List.forall_mem_cons.1 hfree
    obtain ⟨hne, hdistinct⟩ := List.pairwise_cons.1 hdistinct
    rw [List.foldl_cons, List.foldl_cons, insert?, hr]
    refine ih (fun r' hr' => ?_) hdistinct
    exact (find?_put t r (key r')).trans ((if_neg (hne r' hr').symm).trans (hrows r' hr'))

/-- Looking a key up among some of the rows. -/
theorem find?_filter (t : Table key) (p : ρ → Bool) (k : κ) :
    (t.filter p).find? k = (t.find? k).filter p := by
  ext x
  rw [find?_eq_some, rows_filter, List.mem_filter, Option.filter_eq_some_iff, find?_eq_some]
  exact and_right_comm

/-- A row with the greatest key goes last. -/
theorem rows_put_of_lt {t : Table key} {r : ρ} (h : ∀ x ∈ t.rows, key x < key r) :
    (t.put r).rows = t.rows ++ [r] := by
  have h₁ : t.rows.filter (fun x => key x < key r) = t.rows :=
    List.filter_eq_self.2 fun x hx => decide_eq_true (h x hx)
  have h₂ : t.rows.filter (fun x => key r < key x) = [] :=
    List.filter_eq_nil_iff.2 fun x hx => by simpa using (h x hx).le
  exact congrArg₂ (fun s u => s ++ r :: u) h₁ h₂

/-- The row with the greatest key is the last one. -/
theorem key_le_last? {t : Table key} {r x : ρ} (h : t.last? = some r) (hx : x ∈ t.rows) :
    key x ≤ key r := by
  obtain ⟨s, hs⟩ := List.getLast?_eq_some_iff.1 h
  have hp := t.sorted
  rw [hs] at hx hp
  rcases List.mem_append.1 hx with hx | hx
  · exact ((List.pairwise_append.1 hp).2.2 x hx r (List.mem_singleton_self _)).le
  · rw [List.mem_singleton.1 hx]

theorem insert?_eq_some {t u : Table key} {r : ρ} :
    t.insert? r = some u ↔ t.find? (key r) = none ∧ u = t.put r := by
  rw [insert?]
  cases t.find? (key r) with
  | none => simp [eq_comm]
  | some x => simp

/-- The rows with a key up to a bound, of a table to which a row above it was added. -/
theorem rows_filter_put {t : Table key} {r : ρ} {p : ρ → Bool} (h : ∀ x ∈ t.rows, key x < key r)
    (hr : p r = false) : (t.put r).rows.filter p = t.rows.filter p := by
  rw [rows_put_of_lt h, List.filter_append, List.filter_cons, hr]
  simp

/-- Putting rows of one table into another part of it. -/
theorem mem_foldl_put {t u : Table key} {rs : List ρ} (ht : ∀ x ∈ t.rows, x ∈ u.rows)
    (hr : ∀ x ∈ rs, x ∈ u.rows) {x : ρ} :
    x ∈ (rs.foldl put t).rows ↔ x ∈ t.rows ∨ x ∈ rs := by
  induction rs generalizing t with
  | nil => simp
  | cons r rs ih =>
    obtain ⟨hr₁, hr₂⟩ := List.forall_mem_cons.1 hr
    have hput {y : ρ} : y ∈ (t.put r).rows ↔ y ∈ t.rows ∨ y = r := by
      rw [mem_put]
      constructor
      · rintro (rfl | ⟨hy, -⟩)
        · exact .inr rfl
        · exact .inl hy
      · rintro (hy | rfl)
        · by_cases hk : key y = key r
          · exact .inl (u.eq_of_key_eq (ht y hy) hr₁ hk)
          · exact .inr ⟨hy, hk⟩
        · exact .inl rfl
    rw [List.foldl_cons, ih (fun y hy => (hput.1 hy).elim (ht y) fun h => h ▸ hr₁) hr₂, hput,
      List.mem_cons, or_assoc]

/-! ## Changing rows -/

section Map

variable {f : ρ → ρ} (hf : ∀ r, key (f r) = key r)

/-- The table with each row changed to one with the same key. -/
def map (t : Table key) : Table key where
  rows := t.rows.map f
  sorted := List.pairwise_map.2 (t.sorted.imp fun hab => by rwa [hf, hf])

@[simp] theorem rows_map (t : Table key) : (t.map hf).rows = t.rows.map f := rfl

theorem find?_map (t : Table key) (k : κ) : (t.map hf).find? k = (t.find? k).map f := by
  rw [find?, find?, rows_map, List.find?_map]
  congr 2
  funext r
  exact decide_eq_decide.2 (by rw [hf])

theorem last?_map (t : Table key) : (t.map hf).last? = t.last?.map f := List.getLast?_map

theorem map_put (t : Table key) (r : ρ) : (t.put r).map hf = (t.map hf).put (f r) := by
  have hfilter (p : κ → Bool) :
      (t.rows.map f).filter (fun x => p (key x)) = (t.rows.filter fun x => p (key x)).map f := by
    rw [List.filter_map]
    congr 2
    funext x
    exact congrArg p (hf x)
  refine ext ?_
  simp only [rows_map, put, List.map_append, List.map_cons, hf]
  rw [hfilter (· < key r), hfilter (key r < ·)]

end Map

/-! ## Numbered tables -/

section Numbered

variable {ρ : Type} {key : ρ → Int}

/-- The keys of the table are `1, 2, …`. -/
def Numbered (t : Table key) : Prop := ∀ (i : Nat) r, t.rows[i]? = some r → key r = i + 1

theorem numbered_empty : (empty : Table key).Numbered := fun _ _ h => nomatch h

/-- A row of a numbered table is found at its place. -/
theorem Numbered.find? {t : Table key} (h : t.Numbered) (i : Nat) :
    t.find? (i + 1) = t.rows[i]? := by
  ext r
  rw [find?_eq_some]
  constructor
  · rintro ⟨hr, hk⟩
    obtain ⟨j, hj⟩ := List.mem_iff_getElem?.1 hr
    have := h j r hj
    rwa [show i = j by omega]
  · intro hr
    exact ⟨List.mem_of_getElem? hr, h i r hr⟩

/-- No row is found outside a numbered table. -/
theorem Numbered.find?_eq_none {t : Table key} (h : t.Numbered) {k : Int}
    (hk : k < 1 ∨ t.rows.length < k) : t.find? k = none := by
  rw [Table.find?_eq_none]
  intro r hr
  obtain ⟨i, hi⟩ := List.mem_iff_getElem?.1 hr
  have := h i r hi
  have := (List.getElem?_eq_some_iff.1 hi).1
  omega

theorem Numbered.key_lt {t : Table key} (h : t.Numbered) {r : ρ} (hr : key r = t.rows.length + 1) :
    ∀ x ∈ t.rows, key x < key r := by
  intro x hx
  obtain ⟨i, hi⟩ := List.mem_iff_getElem?.1 hx
  have := h i x hi
  have := (List.getElem?_eq_some_iff.1 hi).1
  omega

/-- The next row goes last, and leaves the table numbered. -/
theorem Numbered.put {t : Table key} (h : t.Numbered) {r : ρ} (hr : key r = t.rows.length + 1) :
    (t.put r).rows = t.rows ++ [r] ∧ (t.put r).Numbered := by
  have hrows := rows_put_of_lt (h.key_lt hr)
  refine ⟨hrows, fun i x hx => ?_⟩
  rw [hrows, List.getElem?_append] at hx
  split_ifs at hx with hi
  · exact h i x hx
  · obtain ⟨hlt, rfl⟩ := List.getElem?_eq_some_iff.1 hx
    rw [List.length_singleton] at hlt
    have hx0 : i - t.rows.length = 0 := by omega
    simp only [hx0, List.getElem_cons_zero, hr]
    omega

/-- The greatest key of a numbered table is the number of its rows. -/
theorem Numbered.last? {t : Table key} (h : t.Numbered) :
    (t.last?.map key).getD 0 = t.rows.length := by
  rw [Table.last?, List.getLast?_eq_getElem?]
  cases hr : t.rows[t.rows.length - 1]? with
  | none =>
    have := List.getElem?_eq_none_iff.1 hr
    simp only [Option.map_none, Option.getD_none]
    omega
  | some r =>
    have := h _ _ hr
    have := (List.getElem?_eq_some_iff.1 hr).1
    simp only [Option.map_some, Option.getD_some]
    omega

theorem Numbered.le_of_mem_take {t : Table key} (h : t.Numbered) {n : Nat} {r : ρ}
    (hr : r ∈ t.rows.take n) : key r ≤ n := by
  obtain ⟨i, hi⟩ := List.mem_iff_getElem?.1 hr
  rw [List.getElem?_take] at hi
  split at hi
  · rw [h i r hi]
    omega
  · cases hi

theorem Numbered.lt_of_mem_drop {t : Table key} (h : t.Numbered) {n : Nat} {r : ρ}
    (hr : r ∈ t.rows.drop n) : n < key r := by
  obtain ⟨i, hi⟩ := List.mem_iff_getElem?.1 hr
  rw [List.getElem?_drop] at hi
  rw [h _ r hi]
  omega

/-- The rows numbered above `since` and up to `cap`. -/
theorem Numbered.filter_between {t : Table key} (h : t.Numbered) (since cap : Nat) :
    t.rows.filter (fun r => (since : Int) < key r && key r ≤ cap) =
      (t.rows.take cap).drop since := by
  conv_lhs =>
    rw [← List.take_append_drop cap t.rows, ← List.take_append_drop since (t.rows.take cap)]
  rw [List.filter_append, List.filter_append, List.filter_eq_nil_iff.2, List.filter_eq_self.2,
    List.filter_eq_nil_iff.2, List.nil_append, List.append_nil]
  · intro r hr
    have := h.lt_of_mem_drop hr
    simp only [Bool.and_eq_true, decide_eq_true_eq]
    omega
  · intro r hr
    have hcap := h.le_of_mem_take (List.mem_of_mem_drop hr)
    rw [List.drop_take] at hr
    have hsince := h.lt_of_mem_drop (List.mem_of_mem_take hr)
    simp only [Bool.and_eq_true, decide_eq_true_eq]
    omega
  · intro r hr
    rw [List.take_take] at hr
    have := h.le_of_mem_take hr
    simp only [Bool.and_eq_true, decide_eq_true_eq]
    omega

/-- The rows up to a number are the first ones. -/
theorem Numbered.filter_upTo {t : Table key} (h : t.Numbered) (cap : Nat) :
    t.rows.filter (fun r => key r ≤ cap) = t.rows.take cap := by
  rw [← List.drop_zero (l := t.rows.take cap), ← h.filter_between 0 cap]
  refine List.filter_congr fun r hr => ?_
  have hpos : (0 : Nat) < key r := h.lt_of_mem_drop (n := 0) hr
  rw [decide_eq_true hpos, Bool.true_and]

end Numbered

end Table
