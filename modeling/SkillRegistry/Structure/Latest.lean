import Mathlib.Data.List.Sort
import Mathlib.Data.List.Nodup
import Mathlib.Data.List.Pairwise

/-!
# Latest rows

The projection of a history to its latest row of each key, in the order of the keys,
and its pages.

* `latest` keeps the last row of each key; `mem_latest` says which rows these are;
* selecting by the key before or after taking the latest rows is the same
  (`latest_filter`), and so is sorting before or after (`projection_filter`);
* `page` is a page of a list and whether there is more; the pages one after another
  are the list (`page_append_drop`, `page_eq_drop`).
-/

namespace Latest

variable {κ ρ : Type}

section Keys

variable [DecidableEq κ] (key : ρ → κ)

/-- The rows after which no row has the same key. -/
def latest : List ρ → List ρ
  | [] => []
  | r :: rows => if rows.any fun x => key x = key r then latest rows else r :: latest rows

variable {key}

theorem latest_sublist (rows : List ρ) : (latest key rows).Sublist rows := by
  induction rows with
  | nil => exact .slnil
  | cons a rows ih =>
    rw [latest]
    split_ifs
    · exact ih.cons a
    · exact ih.cons_cons a

theorem latest_subset (rows : List ρ) : ∀ r ∈ latest key rows, r ∈ rows :=
  fun _ hr => (latest_sublist rows).subset hr

/-- A row is a latest one when no row after it has its key. -/
theorem mem_latest {rows : List ρ} {r : ρ} :
    r ∈ latest key rows ↔ ∃ s t, rows = s ++ r :: t ∧ ∀ x ∈ t, key x ≠ key r := by
  induction rows with
  | nil => simp [latest]
  | cons a rows ih =>
    have hlater : r ∈ latest key rows → ∃ s t, a :: rows = s ++ r :: t ∧ ∀ x ∈ t, key x ≠ key r := by
      intro h
      obtain ⟨s, t, rfl, ht⟩ := ih.1 h
      exact ⟨a :: s, t, rfl, ht⟩
    rw [latest]
    constructor
    · intro h
      split_ifs at h with ha
      · exact hlater h
      · rcases List.mem_cons.1 h with rfl | h
        · exact ⟨[], rows, rfl, by simpa using ha⟩
        · exact hlater h
    · rintro ⟨s, t, hs, ht⟩
      cases s with
      | nil =>
        obtain ⟨rfl, rfl⟩ := List.cons.inj hs
        rw [if_neg (by simpa using ht)]
        exact List.mem_cons_self
      | cons b s =>
        obtain ⟨rfl, rfl⟩ := List.cons.inj hs
        have hr := ih.2 ⟨s, t, rfl, ht⟩
        split_ifs
        · exact hr
        · exact List.mem_cons_of_mem _ hr

/-- Every row has the key of a latest row. -/
theorem exists_mem_latest {rows : List ρ} {r : ρ} (h : r ∈ rows) :
    ∃ x ∈ latest key rows, key x = key r := by
  induction rows generalizing r with
  | nil => cases h
  | cons a rows ih =>
    rw [latest]
    split_ifs with ha
    · rcases List.mem_cons.1 h with rfl | h
      · obtain ⟨x, hx, hk⟩ := List.any_eq_true.1 ha
        obtain ⟨y, hy, hy'⟩ := ih hx
        exact ⟨y, hy, hy'.trans (of_decide_eq_true hk)⟩
      · exact ih h
    · rcases List.mem_cons.1 h with rfl | h
      · exact ⟨r, List.mem_cons_self, rfl⟩
      · obtain ⟨y, hy, hk⟩ := ih h
        exact ⟨y, List.mem_cons_of_mem _ hy, hk⟩

/-- The latest rows have different keys. -/
theorem latest_pairwise (rows : List ρ) : (latest key rows).Pairwise fun a b => key a ≠ key b := by
  induction rows with
  | nil => exact .nil
  | cons a rows ih =>
    rw [latest]
    split_ifs with ha
    · exact ih
    · refine List.pairwise_cons.2 ⟨fun b hb hk => ha ?_, ih⟩
      exact List.any_eq_true.2 ⟨b, latest_subset rows b hb, decide_eq_true hk.symm⟩

/-- A key has one latest row. -/
theorem eq_of_mem_latest {rows : List ρ} {a b : ρ} (ha : a ∈ latest key rows)
    (hb : b ∈ latest key rows) (h : key a = key b) : a = b := by
  have : Std.Symm fun a b : ρ => key a ≠ key b := ⟨fun _ _ hk => hk.symm⟩
  by_contra hne
  exact (latest_pairwise rows).forall ha hb hne h

/-- Keys that agree on the rows have the same latest rows. -/
theorem latest_congr {key' : ρ → κ} {rows : List ρ} (h : ∀ r ∈ rows, key r = key' r) :
    latest key rows = latest key' rows := by
  induction rows with
  | nil => rfl
  | cons a rows ih =>
    obtain ⟨ha, hrows⟩ := List.forall_mem_cons.1 h
    have hany : (rows.any fun x => key x = key a) = rows.any fun x => key' x = key' a := by
      rw [Bool.eq_iff_iff, List.any_eq_true, List.any_eq_true]
      refine exists_congr fun x => and_congr_right fun hx => ?_
      rw [hrows x hx, ha]
    rw [latest, latest, hany, ih hrows]

/-- Selecting rows by their key before or after taking the latest ones is the same. -/
theorem latest_filter (rows : List ρ) {p : ρ → Bool} (hp : ∀ a b, key a = key b → p a = p b) :
    latest key (rows.filter p) = (latest key rows).filter p := by
  induction rows with
  | nil => rfl
  | cons a rows ih =>
    rw [List.filter_cons, latest]
    by_cases ha : p a = true
    · have hany : ((rows.filter p).any fun x => key x = key a) =
          rows.any fun x => key x = key a := by
        rw [Bool.eq_iff_iff]
        simp only [List.any_eq_true, List.mem_filter, decide_eq_true_eq]
        exact ⟨fun ⟨x, hx, hk⟩ => ⟨x, hx.1, hk⟩,
          fun ⟨x, hx, hk⟩ => ⟨x, ⟨hx, (hp x a hk).trans ha⟩, hk⟩⟩
      rw [if_pos ha, latest, hany, ih]
      split_ifs
      · rfl
      · rw [List.filter_cons, if_pos ha]
    · rw [if_neg ha, ih]
      split_ifs
      · rfl
      · rw [List.filter_cons, if_neg ha]

/-- The latest rows of images are the images of the latest rows. -/
theorem latest_map {σ : Type} (f : σ → ρ) (rows : List σ) :
    latest key (rows.map f) = (latest (key ∘ f) rows).map f := by
  induction rows with
  | nil => rfl
  | cons a rows ih =>
    rw [List.map_cons, latest, latest, List.any_map, ih]
    split_ifs <;> first | rfl | contradiction

end Keys

section Order

variable [LinearOrder κ] (key : ρ → κ)

/-- The latest rows, in the order of their keys. -/
def projection (rows : List ρ) : List ρ :=
  (latest key rows).insertionSort fun a b => key a ≤ key b

variable {key}

theorem mem_projection {rows : List ρ} {r : ρ} : r ∈ projection key rows ↔ r ∈ latest key rows :=
  List.mem_insertionSort _

theorem length_projection_le (rows : List ρ) : (projection key rows).length ≤ rows.length := by
  rw [projection, List.length_insertionSort]
  exact (latest_sublist rows).length_le

/-- A list of rows with different keys sorts in one way. -/
theorem projection_sorted (rows : List ρ) :
    (projection key rows).Pairwise fun a b => key a < key b := by
  have hle : (projection key rows).Pairwise fun a b => key a ≤ key b := by
    have : Std.Total fun a b : ρ => key a ≤ key b := ⟨fun a b => le_total _ _⟩
    have : IsTrans ρ fun a b => key a ≤ key b := ⟨fun _ _ _ => le_trans⟩
    exact List.pairwise_insertionSort _ _
  have hne : (projection key rows).Pairwise fun a b => key a ≠ key b :=
    ((List.perm_insertionSort _ _).pairwise_iff fun h => h.symm).2 (latest_pairwise rows)
  exact (hle.and hne).imp fun h => lt_of_le_of_ne h.1 h.2

/-- Selecting rows by their key before or after projecting is the same. -/
theorem projection_filter (rows : List ρ) {p : ρ → Bool} (hp : ∀ a b, key a = key b → p a = p b) :
    projection key (rows.filter p) = (projection key rows).filter p := by
  refine List.Perm.eq_of_pairwise (fun a b _ _ h h' => absurd h' h.asymm)
    (projection_sorted _) ((projection_sorted rows).filter p) ?_
  refine (List.perm_insertionSort _ _).trans ?_
  rw [latest_filter rows hp]
  exact (List.perm_insertionSort _ _).symm.filter p

/-- Keys that agree on the rows have the same projection. -/
theorem projection_congr {key' : ρ → κ} {rows : List ρ} (h : ∀ r ∈ rows, key r = key' r) :
    projection key rows = projection key' rows := by
  have hsorted : (projection key' rows).Pairwise fun a b => key a < key b := by
    refine (projection_sorted rows).imp_of_mem fun ha hb hlt => ?_
    rw [h _ (latest_subset _ _ (mem_projection.1 ha)), h _ (latest_subset _ _ (mem_projection.1 hb))]
    exact hlt
  refine List.Perm.eq_of_pairwise (fun a b _ _ h h' => absurd h' h.asymm) (projection_sorted _)
    hsorted ?_
  refine (List.perm_insertionSort _ _).trans ?_
  rw [latest_congr h]
  exact (List.perm_insertionSort _ _).symm

/-- The projection of images is the image of the projection. -/
theorem projection_map {σ : Type} (f : σ → ρ) (rows : List σ) :
    projection key (rows.map f) = (projection (key ∘ f) rows).map f := by
  rw [projection, latest_map, projection]
  exact (List.map_insertionSort _ _ f _ fun _ _ _ _ => Iff.rfl).symm

end Order

/-! ## Pages -/

/-- The page of `limit` rows after `offset` of them, and whether there are more. -/
def page (limit offset : Nat) (rows : List ρ) : List ρ × Bool :=
  let found := (rows.drop offset).take (limit + 1)
  (found.take limit, limit < found.length)

theorem page_fst (limit offset : Nat) (rows : List ρ) :
    (page limit offset rows).1 = (rows.drop offset).take limit := by
  rw [page, List.take_take, Nat.min_eq_left (Nat.le_succ _)]

theorem page_snd (limit offset : Nat) (rows : List ρ) :
    (page limit offset rows).2 = true ↔ offset + limit < rows.length := by
  simp only [page, List.length_take, List.length_drop, decide_eq_true_eq]
  omega

/-- A page of images is the image of a page. -/
theorem page_map {σ : Type} (f : ρ → σ) (limit offset : Nat) (rows : List ρ) :
    page limit offset (rows.map f) =
      ((page limit offset rows).1.map f, (page limit offset rows).2) := by
  simp only [page, List.map_take, List.map_drop, List.length_take, List.length_drop, List.length_map]

/-- What is left after a page is what is left before it without the page. -/
theorem page_append_drop (limit offset : Nat) (rows : List ρ) :
    (page limit offset rows).1 ++ rows.drop (offset + (page limit offset rows).1.length) =
      rows.drop offset := by
  rw [page_fst, ← List.drop_drop]
  conv_rhs => rw [← List.take_append_drop limit (rows.drop offset)]
  rw [List.length_take]
  rcases Nat.le_total limit (rows.drop offset).length with h | h
  · rw [Nat.min_eq_left h]
  · rw [Nat.min_eq_right h, List.drop_length, List.drop_of_length_le h]

/-- A page after which there is more is full. -/
theorem page_length {limit offset : Nat} {rows : List ρ}
    (h : (page limit offset rows).2 = true) : (page limit offset rows).1.length = limit := by
  rw [page_snd] at h
  rw [page_fst, List.length_take, List.length_drop]
  omega

/-- The last page is all that is left. -/
theorem page_eq_drop {limit offset : Nat} {rows : List ρ}
    (h : (page limit offset rows).2 = false) : (page limit offset rows).1 = rows.drop offset := by
  have hl : ¬offset + limit < rows.length := fun hlt => by
    rw [(page_snd limit offset rows).2 hlt] at h
    cases h
  rw [page_fst, List.take_of_length_le]
  rw [List.length_drop]
  omega

end Latest
