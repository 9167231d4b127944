import Mathlib.Data.List.Basic
import Mathlib.Data.List.Nodup
import Mathlib.Data.List.Sublists
import SkillRegistry.Structure.Latest

/-!
# First rows

What an import that skips known keys takes of a list: the first row of each key that was
not known before.

* `firsts` takes these rows; `mem_firsts` says which they are, and `firsts_nodup` that no
  two have the same key;
* taking the rows of a list in two parts is taking them at once, the keys of the first
  part being known to the second (`firsts_append`), so that a part that was taken before
  adds nothing (`firsts_take`);
* `mem_latest_firsts`: of the rows that are taken, the latest one of each kind.
-/

namespace Firsts

variable {κ ρ : Type} [DecidableEq κ] (key : ρ → κ)

/-- The rows before which no row has the same key, the key not being known. -/
def firsts : (known : List κ) → List ρ → List ρ
  | _, [] => []
  | known, r :: rows =>
    if key r ∈ known then firsts known rows else r :: firsts (key r :: known) rows

variable {key}

theorem firsts_congr {known known' : List κ} (h : ∀ k, k ∈ known ↔ k ∈ known') (rows : List ρ) :
    firsts key known rows = firsts key known' rows := by
  induction rows generalizing known known' with
  | nil => rfl
  | cons r rows ih =>
    have hcons : ∀ k, k ∈ key r :: known ↔ k ∈ key r :: known' := by
      intro k
      rw [List.mem_cons, List.mem_cons, h]
    rw [firsts, firsts, ih h, ih hcons]
    simp only [h]

theorem firsts_of_known {known : List κ} {rows : List ρ} (h : ∀ r ∈ rows, key r ∈ known) :
    firsts key known rows = [] := by
  induction rows with
  | nil => rfl
  | cons r rows ih =>
    rw [firsts, if_pos (h r List.mem_cons_self)]
    exact ih fun x hx => h x (List.mem_cons_of_mem _ hx)

/-- The rows of two parts. -/
theorem firsts_append (known : List κ) (xs ys : List ρ) :
    firsts key known (xs ++ ys) = firsts key known xs ++ firsts key (known ++ xs.map key) ys := by
  induction xs generalizing known with
  | nil => rw [List.nil_append, List.map_nil, List.append_nil, firsts, List.nil_append]
  | cons x xs ih =>
    rw [List.cons_append, firsts, firsts]
    split_ifs with hx
    · rw [ih]
      congr 1
      refine firsts_congr (fun k => ?_) ys
      rw [List.map_cons, List.mem_append, List.mem_append, List.mem_cons]
      constructor
      · rintro (h | h)
        · exact .inl h
        · exact .inr (.inr h)
      · rintro (h | rfl | h)
        · exact .inl h
        · exact .inl hx
        · exact .inr h
    · rw [ih, List.cons_append]
      congr 2
      refine firsts_congr (fun k => ?_) ys
      rw [List.map_cons, List.mem_cons, List.mem_append, List.mem_append, List.mem_cons]
      exact or_left_comm

/-- A part that was taken before adds nothing. -/
theorem firsts_take (known : List κ) (xs ys : List ρ) :
    firsts key known xs ++ firsts key (known ++ xs.map key) (xs ++ ys) =
      firsts key known (xs ++ ys) := by
  have hxs : firsts key (known ++ xs.map key) xs = [] :=
    firsts_of_known fun x hx => List.mem_append_right _ (List.mem_map_of_mem hx)
  have hys : firsts key (known ++ xs.map key ++ xs.map key) ys = firsts key (known ++ xs.map key) ys :=
    firsts_congr (fun k => by simp) ys
  rw [firsts_append (known ++ xs.map key), hxs, hys, List.nil_append, firsts_append]

theorem firsts_map {α : Type} (f : α → ρ) (known : List κ) (rows : List α) :
    firsts key known (rows.map f) = (firsts (key ∘ f) known rows).map f := by
  induction rows generalizing known with
  | nil => rfl
  | cons r rows ih =>
    rw [List.map_cons, firsts, firsts, Function.comp_apply]
    split_ifs
    · exact ih known
    · rw [List.map_cons, ih]

theorem firsts_sublist (known : List κ) (rows : List ρ) : (firsts key known rows).Sublist rows := by
  induction rows generalizing known with
  | nil => exact .refl _
  | cons r rows ih =>
    rw [firsts]
    split_ifs
    · exact (ih known).cons r
    · exact (ih _).cons_cons r

/-- A row is taken when its key is not known and no row before it has it. -/
theorem mem_firsts {known : List κ} {rows : List ρ} {r : ρ} : r ∈ firsts key known rows ↔
    key r ∉ known ∧ ∃ s t, rows = s ++ r :: t ∧ ∀ x ∈ s, key x ≠ key r := by
  induction rows generalizing known with
  | nil => simp [firsts]
  | cons a rows ih =>
    rw [firsts]
    constructor
    · intro h
      split_ifs at h with ha
      · obtain ⟨hr, s, t, rfl, hs⟩ := ih.1 h
        refine ⟨hr, a :: s, t, rfl, fun x hx => ?_⟩
        rcases List.mem_cons.1 hx with rfl | hx
        · exact fun he => hr (he ▸ ha)
        · exact hs x hx
      · rcases List.mem_cons.1 h with rfl | h
        · exact ⟨ha, [], rows, rfl, fun x hx => absurd hx List.not_mem_nil⟩
        · obtain ⟨hr, s, t, rfl, hs⟩ := ih.1 h
          rw [List.mem_cons, not_or] at hr
          refine ⟨hr.2, a :: s, t, rfl, fun x hx => ?_⟩
          rcases List.mem_cons.1 hx with rfl | hx
          · exact fun he => hr.1 he.symm
          · exact hs x hx
    · rintro ⟨hr, s, t, hrows, hs⟩
      cases s with
      | nil =>
        obtain ⟨rfl, rfl⟩ := List.cons.inj hrows
        rw [if_neg hr]
        exact List.mem_cons_self
      | cons b s =>
        obtain ⟨rfl, rfl⟩ := List.cons.inj hrows
        have hb := hs a List.mem_cons_self
        have hs' : ∀ x ∈ s, key x ≠ key r := fun x hx => hs x (List.mem_cons_of_mem _ hx)
        split_ifs
        · exact ih.2 ⟨hr, s, t, rfl, hs'⟩
        · refine List.mem_cons_of_mem _ (ih.2 ⟨?_, s, t, rfl, hs'⟩)
          rw [List.mem_cons, not_or]
          exact ⟨fun he => hb he.symm, hr⟩

/-- No two rows that are taken have the same key. -/
theorem firsts_nodup (known : List κ) (rows : List ρ) :
    ((firsts key known rows).map key).Nodup := by
  induction rows generalizing known with
  | nil => exact List.nodup_nil
  | cons r rows ih =>
    rw [firsts]
    split_ifs
    · exact ih known
    · rw [List.map_cons, List.nodup_cons]
      refine ⟨fun hr => ?_, ih _⟩
      obtain ⟨x, hx, he⟩ := List.mem_map.1 hr
      exact (mem_firsts.1 hx).1 (he ▸ List.mem_cons_self)

/-- Every row has a key that was known, or that is taken. -/
theorem known_or_firsts {known : List κ} {rows : List ρ} {r : ρ} (hr : r ∈ rows) :
    key r ∈ known ∨ ∃ x ∈ firsts key known rows, key x = key r := by
  induction rows generalizing known with
  | nil => cases hr
  | cons a rows ih =>
    rw [firsts]
    by_cases ha : key a ∈ known
    · rw [if_pos ha]
      rcases List.mem_cons.1 hr with rfl | hr
      · exact .inl ha
      · exact ih hr
    rw [if_neg ha]
    rcases List.mem_cons.1 hr with rfl | hr
    · exact .inr ⟨r, List.mem_cons_self, rfl⟩
    rcases @ih (key a :: known) hr with h | ⟨x, hx, he⟩
    · rcases List.mem_cons.1 h with h | h
      · exact .inr ⟨a, List.mem_cons_self, h.symm⟩
      · exact .inl h
    · exact .inr ⟨x, List.mem_cons_of_mem _ hx, he⟩

/-- A taken row is the latest of its kind when no row of the kind is taken after it. -/
theorem mem_latest_firsts {κ' : Type} [DecidableEq κ'] {kind : ρ → κ'} {rows : List ρ} {r : ρ} :
    r ∈ Latest.latest kind (firsts key [] rows) ↔ ∃ xs ys, rows = xs ++ r :: ys ∧
      key r ∉ xs.map key ∧ ∀ x ∈ firsts key ((xs ++ [r]).map key) ys, kind x ≠ kind r := by
  have hsplit {xs ys : List ρ} (hr : key r ∉ xs.map key) : firsts key [] (xs ++ r :: ys) =
      firsts key [] xs ++ r :: firsts key ((xs ++ [r]).map key) ys := by
    rw [firsts_append, List.nil_append, firsts, if_neg hr]
    congr 2
    refine firsts_congr (fun k => ?_) ys
    simp only [List.map_append, List.map_cons, List.map_nil, List.mem_append, List.mem_cons,
      List.not_mem_nil, or_false]
    exact or_comm
  rw [Latest.mem_latest]
  constructor
  · rintro ⟨s, t, hst, hlater⟩
    have hmem : r ∈ firsts key [] rows := hst ▸ List.mem_append_right _ List.mem_cons_self
    obtain ⟨-, xs, ys, rfl, hxs⟩ := mem_firsts.1 hmem
    have hr : key r ∉ xs.map key := fun h => by
      obtain ⟨x, hx, he⟩ := List.mem_map.1 h
      exact hxs x hx he
    -- a row is taken once, so that what is taken after it is the same
    have hnodup : (firsts key [] (xs ++ r :: ys)).Nodup := .of_map key (firsts_nodup [] _)
    have hboth := hst
    rw [hsplit hr] at hboth hnodup
    rw [hboth] at hnodup
    obtain ⟨-, hrest, -⟩ := List.nodup_append.1 hnodup
    have hs : r ∉ s := fun h => (List.nodup_append.1 hnodup).2.2 r h r List.mem_cons_self rfl
    obtain ⟨-, -, rfl⟩ := (List.append_cons_inj_of_notMem hs (List.nodup_cons.1 hrest).1).1 hboth.symm
    exact ⟨xs, ys, rfl, hr, hlater⟩
  · rintro ⟨xs, ys, rfl, hr, hlater⟩
    exact ⟨_, _, hsplit hr, hlater⟩

end Firsts
