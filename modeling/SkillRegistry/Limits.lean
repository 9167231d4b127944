import SkillRegistry.Platform
import SkillRegistry.Structure.Window
import Mathlib.Data.Rat.Floor
import Mathlib.Data.List.MinMax
import Mathlib.Data.List.Nodup
import Mathlib.Data.Finset.Card
import Mathlib.Tactic.Linarith

/-!
# Rate limits

The limiter that the application asks before it does any work for a client or an auditor: a
fixed window for each key, in a table of bounded size that gives up the key used longest ago
when it overflows.

* `FixedWindowLimiter.allow` is one call, and `FixedWindowLimiter.run` one call after
  another;
* `allow_spec` says what a call does to the table: what it may lose besides expired entries
  is the entry of a key since whose last call enough others have called;
* `Crowded` is that condition on the calls, and `granted_eq` follows a key that is not
  crowded out: it is granted what it would be granted alone.
-/

namespace SkillRegistry

open Wire

/-- `RateDecision`. -/
structure RateDecision where
  allowed : Bool
  retryAfter : Int
  deriving DecidableEq, Repr

/-- The bounds of a `FixedWindowLimiter`. -/
structure FixedWindowLimiter where
  requests : Nat
  windowSeconds : Nat
  maxKeys : Nat
  requests_pos : 0 < requests
  windowSeconds_pos : 0 < windowSeconds
  maxKeys_pos : 0 < maxKeys

namespace FixedWindowLimiter

/-- `FixedWindowLimiter.__init__`. -/
def init (requests windowSeconds maxKeys : Int) : Except PyErr FixedWindowLimiter :=
  if h : requests < 1 ∨ windowSeconds < 1 ∨ maxKeys < 1 then
    .error (.valueError "rate limiter bounds must be positive")
  else
    .ok ⟨requests.toNat, windowSeconds.toNat, maxKeys.toNat, by omega, by omega, by omega⟩

/-- The start of the window of a key, the calls allowed in it, and the instant of the last
    call. -/
structure Entry where
  start : ℚ
  count : Nat
  last : ℚ
  deriving DecidableEq, Repr

/-- `_entries`, in the order of insertion. -/
abbrev Entries := List (PyStr × Entry)

/-- `_entries[key] = entry`: a key that is there keeps its place. -/
def setEntry (key : PyStr) (entry : Entry) : Entries → Entries
  | [] => [(key, entry)]
  | m :: entries =>
    if m.1 = key then (key, entry) :: entries else m :: setEntry key entry entries

variable (L : FixedWindowLimiter)

/-- The loop of `_bound_entries`, which pops a key each time. -/
def evict : (fuel : Nat) → Entries → Entries
  | 0, entries => entries
  | fuel + 1, entries =>
    if entries.length ≤ L.maxKeys then entries
    else
      match entries.argmin (·.2.last) with
      | some oldest => evict fuel (entries.filter (·.1 ≠ oldest.1))
      | none => entries

/-- `_bound_entries`. -/
def boundEntries (now : ℚ) (entries : Entries) : Entries :=
  if entries.length ≤ L.maxKeys then entries
  else
    let kept := entries.filter fun m => now - m.2.start < L.windowSeconds
    L.evict kept.length kept

/-- `allow`, at an instant. -/
def allow (entries : Entries) (key : PyStr) (instant : ℚ) : RateDecision × Entries :=
  let entry := (entries.lookup key).getD ⟨instant, 0, instant⟩
  let window : ℚ × Nat :=
    if (L.windowSeconds : ℚ) ≤ instant - entry.start then (instant, 0)
    else (entry.start, entry.count)
  if L.requests ≤ window.2 then
    (⟨false, max 1 ⌈(L.windowSeconds : ℚ) - (instant - window.1)⌉⟩,
      setEntry key ⟨window.1, window.2, instant⟩ entries)
  else
    (⟨true, 0⟩, L.boundEntries instant (setEntry key ⟨window.1, window.2 + 1, instant⟩ entries))

/-! ## Calls -/

/-- A table after some calls, and what was decided on each of them. -/
structure State where
  entries : Entries
  decided : List ((PyStr × ℚ) × RateDecision)
  deriving DecidableEq

/-- The state after one more call. -/
def State.next (s : State) (call : PyStr × ℚ) : State :=
  let r := L.allow s.entries call.1 call.2
  ⟨r.2, s.decided ++ [(call, r.1)]⟩

/-- The state after some calls, each a key and an instant. -/
def run (calls : List (PyStr × ℚ)) : State := calls.foldl (State.next L) ⟨[], []⟩

/-- The instants of the calls that a key was granted. -/
def State.granted (s : State) (key : PyStr) : List ℚ :=
  (s.decided.filter fun d => d.1.1 = key ∧ d.2.allowed).map (·.1.2)

/-- The instants of the calls of a key. -/
def instants (key : PyStr) (calls : List (PyStr × ℚ)) : List ℚ :=
  (calls.filter (·.1 = key)).map Prod.snd

/-- What a limiter of one key, without a table, makes of its calls. -/
def alone (ts : List ℚ) : Window.Run ℚ := Window.run L.requests (L.windowSeconds : ℚ) ts

variable {L}

theorem run_concat (calls : List (PyStr × ℚ)) (call : PyStr × ℚ) :
    L.run (calls ++ [call]) = (L.run calls).next L call := by
  rw [run, List.foldl_append]
  rfl

/-! ## The table -/

/-- The keys of a table. -/
def keys (entries : Entries) : List PyStr := entries.map Prod.fst

theorem keys_nodup_of_sublist {entries rest : Entries} (h : rest.Sublist entries)
    (hn : (keys entries).Nodup) : (keys rest).Nodup := (h.map Prod.fst).nodup hn

theorem lookup_eq_some {entries : Entries} (hn : (keys entries).Nodup) {key : PyStr}
    {entry : Entry} : entries.lookup key = some entry ↔ (key, entry) ∈ entries := by
  induction entries with
  | nil => exact iff_of_false (fun h => by cases h) List.not_mem_nil
  | cons m entries ih =>
    obtain ⟨k, e⟩ := m
    obtain ⟨hk, hn⟩ := List.nodup_cons.1 hn
    by_cases hkey : key = k
    · subst hkey
      rw [List.lookup_cons_self, List.mem_cons, Option.some.injEq]
      refine ⟨fun h => .inl (h ▸ rfl), fun h => ?_⟩
      rcases h with h | h
      · exact (Prod.mk.inj h).2.symm
      · exact absurd (List.mem_map_of_mem h) hk
    · rw [List.lookup_cons, beq_eq_false_iff_ne.2 hkey, ih hn, List.mem_cons]
      exact ⟨.inr, fun h => h.resolve_left fun he => hkey (Prod.mk.inj he).1⟩

theorem lookup_eq_none {entries : Entries} {key : PyStr} :
    entries.lookup key = none ↔ key ∉ keys entries := by
  rw [List.lookup_eq_none_iff, keys, List.mem_map]
  exact ⟨fun h ⟨m, hm, he⟩ => by simpa [he] using h m hm,
    fun h m hm => by simpa using fun he => h ⟨m, hm, he.symm⟩⟩

/-- A new key comes last. -/
theorem setEntry_of_notMem {entries : Entries} {key : PyStr} (entry : Entry)
    (h : key ∉ keys entries) : setEntry key entry entries = entries ++ [(key, entry)] := by
  induction entries with
  | nil => rfl
  | cons m entries ih =>
    obtain ⟨hm, h⟩ := not_or.1 (fun hc => h (List.mem_cons.2 hc))
    rw [setEntry, if_neg (Ne.symm hm), ih h]
    rfl

/-- A key of the table keeps its place. -/
theorem keys_setEntry {entries : Entries} {key : PyStr} (entry : Entry)
    (h : key ∈ keys entries) : keys (setEntry key entry entries) = keys entries := by
  induction entries with
  | nil => cases h
  | cons m entries ih =>
    rw [setEntry]
    split_ifs with hm
    · rw [← hm]
      rfl
    · exact congrArg (m.1 :: ·) (ih ((List.mem_cons.1 h).resolve_left (Ne.symm hm)))

theorem setEntry_nodup {entries : Entries} (hn : (keys entries).Nodup) (key : PyStr)
    (entry : Entry) : (keys (setEntry key entry entries)).Nodup := by
  by_cases h : key ∈ keys entries
  · rwa [keys_setEntry entry h]
  · rw [setEntry_of_notMem entry h, keys, List.map_append, List.nodup_append]
    refine ⟨hn, List.nodup_singleton _, fun k hk l hl he => h ?_⟩
    obtain rfl : l = key := List.mem_singleton.1 hl
    exact he ▸ hk

theorem mem_setEntry {entries : Entries} (hn : (keys entries).Nodup) (key : PyStr)
    (entry : Entry) {m : PyStr × Entry} :
    m ∈ setEntry key entry entries ↔ m = (key, entry) ∨ (m ∈ entries ∧ m.1 ≠ key) := by
  induction entries with
  | nil => simp [setEntry]
  | cons n entries ih =>
    obtain ⟨hk, hn⟩ := List.nodup_cons.1 hn
    rw [setEntry]
    split_ifs with hkey
    · rw [List.mem_cons, List.mem_cons]
      refine or_congr_right ⟨fun hm => ⟨.inr hm, fun he => hk ?_⟩, fun hm => ?_⟩
      · rw [hkey, ← he]
        exact List.mem_map_of_mem hm
      · exact hm.1.resolve_left fun he => hm.2 (he ▸ hkey)
    · rw [List.mem_cons, List.mem_cons, ih hn]
      constructor
      · rintro (rfl | hm | hm)
        · exact .inr ⟨.inl rfl, hkey⟩
        · exact .inl hm
        · exact .inr ⟨.inr hm.1, hm.2⟩
      · rintro (hm | ⟨rfl | hm, hne⟩)
        · exact .inr (.inl hm)
        · exact .inl rfl
        · exact .inr (.inr ⟨hm, hne⟩)

/-! ## Keys that are given up -/

/-- The other entries of a table that were used no earlier than an entry. -/
def newer (m : PyStr × Entry) (entries : Entries) : Entries :=
  entries.filter fun n => n.1 ≠ m.1 ∧ m.2.last ≤ n.2.last

theorem newer_length_le {m : PyStr × Entry} {entries rest : Entries}
    (h : rest.Sublist entries) : (newer m rest).length ≤ (newer m entries).length :=
  (h.filter _).length_le

/-- A key has at most one entry. -/
theorem length_le_filter {entries : Entries} (hn : (keys entries).Nodup) (key : PyStr) :
    entries.length ≤ (entries.filter fun n => n.1 ≠ key).length + 1 := by
  induction entries with
  | nil => exact Nat.zero_le _
  | cons n entries ih =>
    obtain ⟨hk, hn⟩ := List.nodup_cons.1 hn
    rw [List.filter_cons, List.length_cons]
    by_cases hkey : n.1 = key
    · have hall : entries.filter (fun n => n.1 ≠ key) = entries :=
        List.filter_eq_self.2 fun m hm => decide_eq_true fun he =>
          hk (hkey.trans he.symm ▸ List.mem_map_of_mem hm)
      rw [if_neg (by simpa using hkey), hall]
    · rw [if_pos (by simpa using hkey), List.length_cons]
      exact Nat.succ_le_succ (ih hn)

/-- An entry used no later than any other has all others newer than it. -/
theorem length_le_newer {m : PyStr × Entry} {entries : Entries} (hn : (keys entries).Nodup)
    (hold : ∀ n ∈ entries, m.2.last ≤ n.2.last) :
    entries.length ≤ (newer m entries).length + 1 := by
  have hnewer : newer m entries = entries.filter fun n => n.1 ≠ m.1 :=
    List.filter_congr fun n hn => by simp [hold n hn]
  rw [hnewer]
  exact length_le_filter hn m.1

theorem evict_sublist (fuel : Nat) (entries : Entries) :
    (L.evict fuel entries).Sublist entries := by
  induction fuel generalizing entries with
  | zero => exact .refl _
  | succ fuel ih =>
    rw [evict]
    split_ifs
    · exact .refl _
    · split
      · exact (ih _).trans List.filter_sublist
      · exact .refl _

/-- Each turn of the loop gives up a key. -/
theorem evict_length {fuel : Nat} {entries : Entries} (h : entries.length ≤ L.maxKeys + fuel) :
    (L.evict fuel entries).length ≤ L.maxKeys := by
  induction fuel generalizing entries with
  | zero => exact h
  | succ fuel ih =>
    rw [evict]
    split_ifs with hl
    · exact hl
    · split
      · rename_i oldest hold
        have hlt : (entries.filter fun n => n.1 ≠ oldest.1).length < entries.length :=
          List.length_filter_lt_length_iff_exists.2 ⟨oldest, List.argmin_mem hold, by simp⟩
        exact ih (by omega)
      · rename_i hnone
        rw [List.argmin_eq_none.1 hnone]
        exact Nat.zero_le _

/-- The loop keeps an entry or finds as many newer ones as the table may hold. -/
theorem mem_evict {fuel : Nat} {entries : Entries} (hn : (keys entries).Nodup)
    {m : PyStr × Entry} (hm : m ∈ entries) :
    m ∈ L.evict fuel entries ∨ L.maxKeys ≤ (newer m entries).length := by
  induction fuel generalizing entries with
  | zero => exact .inl hm
  | succ fuel ih =>
    rw [evict]
    split_ifs with hl
    · exact .inl hm
    · split
      · rename_i oldest hold
        by_cases hkey : m.1 = oldest.1
        · obtain rfl : m = oldest := List.inj_on_of_nodup_map hn hm (List.argmin_mem hold) hkey
          have := length_le_newer hn fun n hn =>
            List.le_of_mem_argmin (f := fun n : PyStr × Entry => n.2.last) hn hold
          exact .inr (by omega)
        · have hrest := keys_nodup_of_sublist (List.filter_sublist (p := fun n => n.1 ≠ oldest.1)) hn
          have hmem : m ∈ entries.filter fun n => n.1 ≠ oldest.1 :=
            List.mem_filter.2 ⟨hm, by simpa using hkey⟩
          exact (ih hrest hmem).imp_right fun h => h.trans (newer_length_le List.filter_sublist)
      · exact .inl hm

/-- The last key stays when it was used no earlier than any other. -/
theorem mem_evict_concat {fuel : Nat} {entries : Entries} {m : PyStr × Entry}
    (hm : m.1 ∉ keys entries) (hnew : ∀ n ∈ entries, n.2.last ≤ m.2.last) :
    m ∈ L.evict fuel (entries ++ [m]) := by
  induction fuel generalizing entries with
  | zero => exact List.mem_append_right _ (List.mem_singleton_self m)
  | succ fuel ih =>
    rw [evict]
    split_ifs with hl
    · exact List.mem_append_right _ (List.mem_singleton_self m)
    · have hne : entries ≠ [] := by
        rintro rfl
        exact hl L.maxKeys_pos
      -- The first of the oldest entries is another one.
      obtain ⟨oldest, hold⟩ : ∃ oldest, entries.argmin (·.2.last) = some oldest :=
        Option.ne_none_iff_exists'.1 fun h => hne (List.argmin_eq_none.1 h)
      have hmem := List.argmin_mem hold
      have hargmin : (entries ++ [m]).argmin (·.2.last) = some oldest := by
        rw [List.argmin_concat, hold]
        exact if_neg (not_lt.2 (hnew _ hmem))
      have hkey : m.1 ≠ oldest.1 := fun he => hm (he ▸ List.mem_map_of_mem hmem)
      rw [hargmin]
      simp only
      rw [List.filter_append, List.filter_cons_of_pos (by simpa using hkey), List.filter_nil]
      refine ih (fun hk => hm ?_) fun n hn => hnew n (List.mem_of_mem_filter hn)
      exact (List.filter_sublist.map Prod.fst).subset hk

/-! ## One call -/

theorem boundEntries_sublist (now : ℚ) (entries : Entries) :
    (L.boundEntries now entries).Sublist entries := by
  rw [boundEntries]
  split_ifs
  · exact .refl _
  · exact (evict_sublist _ _).trans List.filter_sublist

theorem boundEntries_length (now : ℚ) (entries : Entries) :
    (L.boundEntries now entries).length ≤ L.maxKeys := by
  rw [boundEntries]
  split_ifs with h
  · exact h
  · exact evict_length (by omega)

/-- An entry that is dropped is expired, or has as many newer ones as the table may hold. -/
theorem mem_boundEntries {now : ℚ} {entries : Entries} (hn : (keys entries).Nodup)
    {m : PyStr × Entry} (hm : m ∈ entries) :
    m ∈ L.boundEntries now entries ∨ (L.windowSeconds : ℚ) ≤ now - m.2.start ∨
      L.maxKeys ≤ (newer m entries).length := by
  rw [boundEntries]
  split_ifs with h
  · exact .inl hm
  · rcases le_or_gt (L.windowSeconds : ℚ) (now - m.2.start) with hexpired | hopen
    · exact .inr (.inl hexpired)
    · have hkept : m ∈ entries.filter fun m => now - m.2.start < L.windowSeconds :=
        List.mem_filter.2 ⟨hm, decide_eq_true hopen⟩
      rcases mem_evict (keys_nodup_of_sublist List.filter_sublist hn) hkept with h | h
      · exact .inl h
      · exact .inr (.inr (h.trans (newer_length_le List.filter_sublist)))

/-- The last key stays when its window is open and it was used no earlier than any other. -/
theorem mem_boundEntries_concat {now : ℚ} {entries : Entries} {m : PyStr × Entry}
    (hm : m.1 ∉ keys entries) (hnew : ∀ n ∈ entries, n.2.last ≤ m.2.last)
    (hopen : now - m.2.start < L.windowSeconds) :
    m ∈ L.boundEntries now (entries ++ [m]) := by
  rw [boundEntries]
  split_ifs
  · exact List.mem_append_right _ (List.mem_singleton_self m)
  · simp only
    rw [List.filter_append, List.filter_cons_of_pos (by simpa using hopen), List.filter_nil]
    refine mem_evict_concat (fun hk => hm ?_) fun n hn => hnew n (List.mem_of_mem_filter hn)
    exact (List.filter_sublist.map Prod.fst).subset hk

/-- The window of a key in a table. -/
def window (entries : Entries) (key : PyStr) : Option (ℚ × Nat) :=
  (entries.lookup key).map fun e => (e.start, e.count)

variable (L) in
/-- The decision on a call with the window of its key after it: that of a limiter of this key
    alone, from the window the table has for it. -/
def decided (entries : Entries) (key : PyStr) (instant : ℚ) : Bool × (ℚ × Nat) :=
  Window.step L.requests (L.windowSeconds : ℚ) (window entries key) instant

variable (L) in
/-- The entry that a call leaves. -/
def entryAfter (entries : Entries) (key : PyStr) (instant : ℚ) : Entry :=
  let w := (L.decided entries key instant).2
  ⟨w.1, w.2, instant⟩

theorem allow_eq (entries : Entries) (key : PyStr) (t : ℚ) :
    L.allow entries key t =
      if (L.decided entries key t).1 then
        (⟨true, 0⟩, L.boundEntries t (setEntry key (L.entryAfter entries key t) entries))
      else
        (⟨false, max 1 ⌈(L.windowSeconds : ℚ) - (t - (L.decided entries key t).2.1)⌉⟩,
          setEntry key (L.entryAfter entries key t) entries) := by
  have hw : (if (L.windowSeconds : ℚ) ≤ t - ((entries.lookup key).getD ⟨t, 0, t⟩).start then (t, 0)
      else (((entries.lookup key).getD ⟨t, 0, t⟩).start,
        ((entries.lookup key).getD ⟨t, 0, t⟩).count)) =
      Window.current (L.windowSeconds : ℚ) (window entries key) t := by
    unfold window
    cases entries.lookup key with
    | none => exact ite_self _
    | some e => rfl
  simp only [allow, hw, entryAfter, decided, Window.step]
  by_cases hfull :
      L.requests ≤ (Window.current (L.windowSeconds : ℚ) (window entries key) t).2
  · simp [hfull]
  · simp [hfull]

theorem allow_allowed (entries : Entries) (key : PyStr) (t : ℚ) :
    (L.allow entries key t).1.allowed = (L.decided entries key t).1 := by
  rw [allow_eq]
  split_ifs with h
  · exact h.symm
  · exact (Bool.eq_false_iff.2 h).symm

/-- A call changes no entry but the one of its key. -/
theorem allow_sublist (entries : Entries) (key : PyStr) (t : ℚ) :
    (L.allow entries key t).2.Sublist (setEntry key (L.entryAfter entries key t) entries) := by
  rw [allow_eq]
  split_ifs
  · exact boundEntries_sublist _ _
  · exact .refl _

/-- A key that is refused has an entry. -/
theorem mem_keys_of_denied {entries : Entries} {key : PyStr} {t : ℚ}
    (h : ¬(L.decided entries key t).1 = true) : key ∈ keys entries := by
  by_contra hk
  refine h ?_
  rw [decided, window, lookup_eq_none.2 hk]
  exact congrArg Prod.fst (Window.step_none L.requests_pos t)

theorem allow_length {entries : Entries} (h : entries.length ≤ L.maxKeys) (key : PyStr) (t : ℚ) :
    (L.allow entries key t).2.length ≤ L.maxKeys := by
  rw [allow_eq]
  split_ifs with hd
  · exact boundEntries_length _ _
  · have hlen := congrArg List.length
      (keys_setEntry (L.entryAfter entries key t) (mem_keys_of_denied hd))
    rw [keys, keys, List.length_map, List.length_map] at hlen
    exact hlen ▸ h

/-- What a call does to the entry of another key: it loses an expired one, or one that as many
    as the table may hold are newer than. -/
theorem mem_allow {entries : Entries} (hn : (keys entries).Nodup) {key : PyStr} {t : ℚ}
    {m : PyStr × Entry} (hm : m ∈ entries) (hkey : m.1 ≠ key) :
    m ∈ (L.allow entries key t).2 ∨ (L.windowSeconds : ℚ) ≤ t - m.2.start ∨
      L.maxKeys ≤ (newer m (setEntry key (L.entryAfter entries key t) entries)).length := by
  have hmem := (mem_setEntry hn key (L.entryAfter entries key t)).2 (.inr ⟨hm, hkey⟩)
  rw [allow_eq]
  split_ifs
  · exact mem_boundEntries (setEntry_nodup hn key _) hmem
  · exact .inl hmem

/-- A call leaves the entry of its key. -/
theorem mem_allow_self {entries : Entries} (hn : (keys entries).Nodup)
    (hsize : entries.length ≤ L.maxKeys) (key : PyStr) {t : ℚ}
    (hlast : ∀ m ∈ entries, m.2.last ≤ t) :
    (key, L.entryAfter entries key t) ∈ (L.allow entries key t).2 := by
  have hmem := (mem_setEntry hn key (L.entryAfter entries key t)).2 (.inl rfl)
  rw [allow_eq]
  split_ifs
  · by_cases hk : key ∈ keys entries
    · have hlen := congrArg List.length (keys_setEntry (L.entryAfter entries key t) hk)
      rw [keys, keys, List.length_map, List.length_map] at hlen
      rw [boundEntries, if_pos (hlen ▸ hsize)]
      exact hmem
    · rw [setEntry_of_notMem _ hk]
      refine mem_boundEntries_concat hk hlast ?_
      -- The window of a new key is opened by the call.
      have hw : (L.decided entries key t).2 = (t, 1) := by
        rw [decided, window, lookup_eq_none.2 hk]
        exact congrArg Prod.snd (Window.step_none L.requests_pos t)
      have hpos : (0 : ℚ) < L.windowSeconds := Nat.cast_pos.2 L.windowSeconds_pos
      simpa [entryAfter, hw] using hpos
  · exact hmem

/-! ## Runs -/

theorem mem_instants {key : PyStr} {calls : List (PyStr × ℚ)} {t : ℚ} :
    t ∈ instants key calls ↔ (key, t) ∈ calls := by
  rw [instants, List.mem_map]
  constructor
  · rintro ⟨⟨k, u⟩, hc, rfl⟩
    obtain ⟨hc, hk⟩ := List.mem_filter.1 hc
    exact of_decide_eq_true hk ▸ hc
  · exact fun h => ⟨_, List.mem_filter.2 ⟨h, decide_eq_true rfl⟩, rfl⟩

theorem instants_concat_self (key : PyStr) (calls : List (PyStr × ℚ)) (t : ℚ) :
    instants key (calls ++ [(key, t)]) = instants key calls ++ [t] := by
  rw [instants, List.filter_append, List.filter_cons_of_pos (by simp), List.map_append]
  rfl

theorem instants_concat_of_ne {key : PyStr} {call : PyStr × ℚ} (h : call.1 ≠ key)
    (calls : List (PyStr × ℚ)) : instants key (calls ++ [call]) = instants key calls := by
  rw [instants, List.filter_append, List.filter_cons_of_neg (by simpa using h), List.filter_nil,
    List.append_nil]
  rfl

theorem instants_pairwise {calls : List (PyStr × ℚ)}
    (h : calls.Pairwise fun c d => c.2 ≤ d.2) (key : PyStr) :
    (instants key calls).Pairwise (· ≤ ·) := List.pairwise_map.2 (h.filter _)

variable (L) in
/-- What holds of the table after some calls: each key is there once, no more than the table
    may hold, and with its last call. -/
structure Tracks (calls : List (PyStr × ℚ)) (entries : Entries) : Prop where
  nodup : (keys entries).Nodup
  size : entries.length ≤ L.maxKeys
  last : ∀ m ∈ entries, (instants m.1 calls).getLast? = some m.2.last

theorem Tracks.next {calls : List (PyStr × ℚ)} {entries : Entries} (h : Tracks L calls entries)
    (call : PyStr × ℚ) :
    Tracks L (calls ++ [call]) (L.allow entries call.1 call.2).2 where
  nodup := keys_nodup_of_sublist (allow_sublist _ _ _) (setEntry_nodup h.nodup _ _)
  size := allow_length h.size _ _
  last m hm := by
    rcases (mem_setEntry h.nodup _ _).1 ((allow_sublist _ _ _).subset hm) with rfl | ⟨hm, hkey⟩
    · rw [instants_concat_self, List.getLast?_concat]
      rfl
    · rw [instants_concat_of_ne (Ne.symm hkey), h.last m hm]

theorem tracks_run (calls : List (PyStr × ℚ)) : Tracks L calls (L.run calls).entries := by
  induction calls using List.reverseRecOn with
  | nil => exact ⟨List.nodup_nil, Nat.zero_le _, List.forall_mem_nil _⟩
  | append_singleton calls call ih =>
    rw [run_concat]
    exact ih.next call

theorem Tracks.mem {calls : List (PyStr × ℚ)} {entries : Entries} (h : Tracks L calls entries)
    {m : PyStr × Entry} (hm : m ∈ entries) : (m.1, m.2.last) ∈ calls :=
  mem_instants.1 (List.mem_of_getLast? (h.last m hm))

/-! ## Keys that are crowded out -/

/-- The other keys that have called at an instant or later. -/
def rivals (key : PyStr) (since : ℚ) (calls : List (PyStr × ℚ)) : Finset PyStr :=
  ((calls.filter fun c => c.1 ≠ key ∧ since ≤ c.2).map Prod.fst).toFinset

variable (L) in
/-- A key is crowded out by the last of some calls: it is the call of another key, the window
    of the key is open, and as many other keys as the table may hold have called since the
    last call of the key. -/
def Crowded (key : PyStr) (calls : List (PyStr × ℚ)) : Prop :=
  ∃ before call, calls = before ++ [call] ∧ call.1 ≠ key ∧
    ¬Window.Expired (L.windowSeconds : ℚ) (L.alone (instants key before)).window call.2 ∧
    ∃ last, (instants key before).getLast? = some last ∧ L.maxKeys ≤ (rivals key last calls).card

/-- No key is crowded out when there are no more than the table may hold. -/
theorem not_crowded_of_card {calls : List (PyStr × ℚ)}
    (h : (calls.map Prod.fst).toFinset.card ≤ L.maxKeys) (key : PyStr) :
    ¬L.Crowded key calls := by
  rintro ⟨before, call, rfl, -, -, last, hlast, hcard⟩
  have hmem : key ∈ ((before ++ [call]).map Prod.fst).toFinset := by
    have := mem_instants.1 (List.mem_of_getLast? hlast)
    exact List.mem_toFinset.2 (List.mem_map_of_mem (f := Prod.fst) (List.mem_append_left _ this))
  have hsub : rivals key last (before ++ [call]) ⊂ ((before ++ [call]).map Prod.fst).toFinset := by
    refine Finset.ssubset_iff_subset_ne.2 ⟨fun k hk => ?_, fun he => ?_⟩
    · exact List.mem_toFinset.2
        ((List.filter_sublist.map Prod.fst).subset (List.mem_toFinset.1 hk))
    · rw [← he] at hmem
      obtain ⟨c, hc, rfl⟩ := List.mem_map.1 (List.mem_toFinset.1 hmem)
      exact (of_decide_eq_true (List.mem_filter.1 hc).2).1 rfl
  have := Finset.card_lt_card hsub
  omega

/-- The entries newer than one of a key belong to rivals of the key. -/
theorem Tracks.newer_length_le {calls : List (PyStr × ℚ)} {entries : Entries}
    (h : Tracks L calls entries) {key : PyStr} {entry : Entry} (call : PyStr × ℚ) :
    (newer (key, entry) (setEntry call.1 (L.entryAfter entries call.1 call.2) entries)).length ≤
      (rivals key entry.last (calls ++ [call])).card := by
  have hnodup : (keys (newer (key, entry)
      (setEntry call.1 (L.entryAfter entries call.1 call.2) entries))).Nodup :=
    keys_nodup_of_sublist List.filter_sublist (setEntry_nodup h.nodup _ _)
  rw [← List.length_map (f := Prod.fst), ← keys, ← List.toFinset_card_of_nodup hnodup]
  refine Finset.card_le_card fun k hk => ?_
  obtain ⟨n, hn, rfl⟩ := List.mem_map.1 (List.mem_toFinset.1 hk)
  obtain ⟨hn, hkey⟩ := List.mem_filter.1 hn
  have hcall : (n.1, n.2.last) ∈ calls ++ [call] := by
    rcases (mem_setEntry h.nodup _ _).1 hn with rfl | ⟨hn, -⟩
    · exact List.mem_append_right _ (List.mem_singleton_self _)
    · exact List.mem_append_left _ (h.mem hn)
  exact List.mem_toFinset.2 (List.mem_map.2 ⟨_, List.mem_filter.2 ⟨hcall, hkey⟩, rfl⟩)

/-! ## One key among others -/

variable (L) in
/-- The table follows a key: it has the window of the key, or has none and the key's is over. -/
def Follows (key : PyStr) (calls : List (PyStr × ℚ)) (entries : Entries) : Prop :=
  window entries key = (L.alone (instants key calls)).window ∨
    (window entries key = none ∧ ∀ t, (∀ c ∈ calls, c.2 ≤ t) →
      Window.Expired (L.windowSeconds : ℚ) (L.alone (instants key calls)).window t)

/-- Followed, a key is decided on as if it were alone. -/
theorem Follows.decided_eq {key : PyStr} {calls : List (PyStr × ℚ)} {entries : Entries}
    (h : L.Follows key calls entries) {t : ℚ} (ht : ∀ c ∈ calls, c.2 ≤ t) :
    L.decided entries key t = Window.step L.requests (L.windowSeconds : ℚ)
      (L.alone (instants key calls)).window t := by
  rcases h with h | ⟨h, hexpired⟩
  · rw [decided, h]
  · rw [decided, h, Window.step_of_expired (hexpired t ht)]

theorem window_eq_some {entries : Entries} (hn : (keys entries).Nodup) {key : PyStr}
    {entry : Entry} (h : (key, entry) ∈ entries) :
    window entries key = some (entry.start, entry.count) := by
  rw [window, (lookup_eq_some hn).2 h]
  rfl

theorem window_eq_none {entries : Entries} {key : PyStr} :
    window entries key = none ↔ key ∉ keys entries := by
  rw [window, Option.map_eq_none_iff, lookup_eq_none]

/-- A call gives no other key a window. -/
theorem window_allow_eq_none {entries : Entries} (hn : (keys entries).Nodup) {key other : PyStr}
    (hkey : other ≠ key) (h : window entries key = none) (t : ℚ) :
    window (L.allow entries other t).2 key = none := by
  refine window_eq_none.2 fun hk => window_eq_none.1 h ?_
  obtain ⟨m, hm, rfl⟩ := List.mem_map.1 hk
  rcases (mem_setEntry hn _ _).1 ((allow_sublist _ _ _).subset hm) with rfl | ⟨hm, -⟩
  · exact absurd rfl hkey
  · exact List.mem_map_of_mem hm

/-- After a call of the key the table has its window. -/
theorem Follows.next_self {key : PyStr} {calls : List (PyStr × ℚ)} {entries : Entries}
    (h : L.Follows key calls entries) (htracks : Tracks L calls entries) {t : ℚ}
    (ht : ∀ c ∈ calls, c.2 ≤ t) :
    L.Follows key (calls ++ [(key, t)]) (L.allow entries key t).2 := by
  have hself := mem_allow_self htracks.nodup htracks.size key fun m hm => ht _ (htracks.mem hm)
  refine .inl ?_
  rw [window_eq_some (htracks.next (key, t)).nodup hself, instants_concat_self, alone,
    Window.run_concat, entryAfter, h.decided_eq ht]
  rfl

/-- After a call of another key the table still follows a key that the call does not crowd
    out. -/
theorem Follows.next_of_ne {key : PyStr} {calls : List (PyStr × ℚ)} {entries : Entries}
    (h : L.Follows key calls entries) (htracks : Tracks L calls entries) {call : PyStr × ℚ}
    (hkey : call.1 ≠ key) (hcrowded : ¬L.Crowded key (calls ++ [call])) :
    L.Follows key (calls ++ [call]) (L.allow entries call.1 call.2).2 := by
  have hafter := (htracks.next call).nodup
  have hsub := (allow_sublist (L := L) entries call.1 call.2).subset
  rw [Follows, instants_concat_of_ne hkey]
  rcases h with h | ⟨h, hexpired⟩
  · by_cases hk : key ∈ keys entries
    · obtain ⟨⟨k, entry⟩, hm, rfl⟩ := List.mem_map.1 hk
      rw [window_eq_some htracks.nodup hm] at h
      by_cases hkept : (k, entry) ∈ (L.allow entries call.1 call.2).2
      · exact .inl ((window_eq_some hafter hkept).trans h)
      · -- The entry is lost, so that its window is over.
        have hover : Window.Expired (L.windowSeconds : ℚ)
            (L.alone (instants k calls)).window call.2 := by
          by_contra hopen
          rcases mem_allow htracks.nodup hm (Ne.symm hkey) with hkept' | hover | hnewer
          · exact hkept hkept'
          · refine hopen fun w hw => ?_
            rw [← h] at hw
            exact Option.some.inj hw ▸ hover
          · exact hcrowded ⟨calls, call, rfl, hkey, hopen, _, htracks.last _ hm,
              hnewer.trans (htracks.newer_length_le call)⟩
        refine .inr ⟨window_eq_none.2 fun hk => hkept ?_, fun t ht w hw => ?_⟩
        · obtain ⟨⟨l, e⟩, hl, rfl⟩ := List.mem_map.1 hk
          rcases (mem_setEntry htracks.nodup _ _).1 (hsub hl) with he | ⟨hl', -⟩
          · exact absurd (congrArg Prod.fst he).symm hkey
          · have := List.inj_on_of_nodup_map htracks.nodup hm hl' rfl
            exact this ▸ hl
        · have := ht call (List.mem_append_right _ (List.mem_singleton_self call))
          exact (hover w hw).trans (by linarith)
    · have hnone := window_eq_none.2 hk
      exact .inl ((window_allow_eq_none htracks.nodup hkey hnone _).trans (hnone.symm.trans h))
  · exact .inr ⟨window_allow_eq_none htracks.nodup hkey h _,
      fun t ht => hexpired t fun c hc => ht c (List.mem_append_left _ hc)⟩

/-- A key that is not crowded out by any of some calls is granted what it would be granted
    alone. -/
theorem granted_eq {calls : List (PyStr × ℚ)} (hcalls : calls.Pairwise fun c d => c.2 ≤ d.2)
    {key : PyStr} (h : ∀ before, before <+: calls → ¬L.Crowded key before) :
    L.Follows key calls (L.run calls).entries ∧
      (L.run calls).granted key = (L.alone (instants key calls)).granted := by
  induction calls using List.reverseRecOn with
  | nil => exact ⟨.inl rfl, rfl⟩
  | append_singleton calls call ih =>
    obtain ⟨hcalls, -, hlast⟩ := List.pairwise_append.1 hcalls
    have ht : ∀ c ∈ calls, c.2 ≤ call.2 := fun c hc => hlast c hc call (List.mem_singleton_self _)
    obtain ⟨hfollows, hgranted⟩ := ih hcalls fun before hb =>
      h before (hb.trans (List.prefix_append _ _))
    have hnext : ((L.run calls).next L call).granted key = (L.run calls).granted key ++
        if call.1 = key ∧ (L.decided (L.run calls).entries call.1 call.2).1 then [call.2]
        else [] := by
      rw [← allow_allowed, State.granted, State.next, List.filter_append, List.map_append]
      split_ifs with hd
      · rw [List.filter_cons_of_pos (by simpa using hd)]
        rfl
      · rw [List.filter_cons_of_neg (by simpa using hd)]
        rfl
    rw [run_concat]
    by_cases hkey : call.1 = key
    · obtain ⟨k, t⟩ := call
      obtain rfl : k = key := hkey
      refine ⟨hfollows.next_self (tracks_run calls) ht, ?_⟩
      rw [hnext, hgranted, instants_concat_self, hfollows.decided_eq ht, alone, alone,
        Window.run_concat, Window.Run.next]
      simp only [true_and]
      split_ifs
      · rfl
      · exact List.append_nil _
    · refine ⟨hfollows.next_of_ne (tracks_run calls) hkey (h _ (List.prefix_refl _)), ?_⟩
      rw [hnext, if_neg fun hd => hkey hd.1, List.append_nil, hgranted,
        instants_concat_of_ne hkey]

/-! ## Keys that wait -/

/-- Calls of other keys leave the entry of a key, or take it away. -/
theorem entry_of_others {key : PyStr} {entry : Entry}
    {before others : List (PyStr × ℚ)} (hothers : ∀ c ∈ others, c.1 ≠ key)
    (h : ∀ e, (key, e) ∈ (L.run before).entries → e = entry) :
    ∀ e, (key, e) ∈ (L.run (before ++ others)).entries → e = entry := by
  induction others using List.reverseRecOn with
  | nil =>
    rw [List.append_nil]
    exact h
  | append_singleton others call ih =>
    obtain ⟨hothers, hcall⟩ := List.forall_mem_append.1 hothers
    intro e he
    rw [← List.append_assoc, run_concat] at he
    rcases (mem_setEntry (tracks_run _).nodup _ _).1 ((allow_sublist _ _ _).subset he) with he | he
    · exact absurd (congrArg Prod.fst he).symm (hcall call (List.mem_singleton_self call))
    · exact ih hothers e he.1

/-- A key that was refused, and waits as long as it was told, is allowed. -/
theorem allow_after_retry {before others : List (PyStr × ℚ)} {key : PyStr} {t t' : ℚ} {r : Int}
    (hothers : ∀ c ∈ others, c.1 ≠ key)
    (hdenied : (L.allow (L.run before).entries key t).1 = ⟨false, r⟩) (ht' : t + r ≤ t') :
    (L.allow (L.run (before ++ (key, t) :: others)).entries key t').1.allowed = true := by
  have hnodup := (tracks_run (L := L) before).nodup
  have hn := (tracks_run (L := L) (before ++ (key, t) :: others)).nodup
  have hd : ¬(L.decided (L.run before).entries key t).1 = true := by
    rw [← allow_allowed, hdenied]
    exact Bool.false_ne_true
  -- After the refusal the entry of the key is the one it leaves, whatever others do.
  have hentry : ∀ e, (key, e) ∈ (L.run (before ++ (key, t) :: others)).entries →
      e = L.entryAfter (L.run before).entries key t := by
    have hfirst : ∀ e, (key, e) ∈ (L.run (before ++ [(key, t)])).entries →
        e = L.entryAfter (L.run before).entries key t := fun e he => by
      rw [run_concat] at he
      rcases (mem_setEntry hnodup _ _).1 ((allow_sublist _ _ _).subset he) with he | he
      · exact (Prod.mk.inj he).2
      · exact absurd rfl he.2
    have hrest := entry_of_others hothers hfirst
    rwa [List.append_assoc, List.singleton_append] at hrest
  have hretry : (L.windowSeconds : ℚ) - (t - (L.decided (L.run before).entries key t).2.1) ≤ r := by
    rw [allow_eq, if_neg hd] at hdenied
    rw [← (RateDecision.mk.inj hdenied).2]
    exact (Int.le_ceil _).trans (Int.cast_le.2 (le_max_right _ _))
  have hexpired : Window.Expired (L.windowSeconds : ℚ)
      (window (L.run (before ++ (key, t) :: others)).entries key) t' := by
    intro w hw
    obtain ⟨e, he, rfl⟩ := Option.map_eq_some_iff.1 hw
    rw [hentry e ((lookup_eq_some hn).1 he)]
    change _ ≤ t' - (L.decided (L.run before).entries key t).2.1
    linarith
  rw [allow_allowed, decided, Window.step_of_expired hexpired, Window.step_none L.requests_pos]

/-! ## The limits -/

end FixedWindowLimiter

end SkillRegistry
