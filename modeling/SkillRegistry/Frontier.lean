import SkillRegistry.Platform
import SkillRegistry.Structure.Merkle
import Mathlib.Data.List.Forall2

/-!
# The Merkle frontier

The incremental tree of the store: for each level its length and its last one or two
nodes, updated in one pass up the tree when a leaf is appended.

* `frontierAppend` is `_frontier_append`, over any node type and pair hash;
* `IsFrontier` says which frontier belongs to some leaves, and
  `frontierAppend_isFrontier` that appending a leaf gives the frontier of one leaf
  more, and the root of the full tree;
* `incrementalTree_isFull` follows the frontier over any leaves, up to the greatest depth;
* `recomputePrefix` is `_recompute_prefix`;
* `merkleRoot_binds`: with the number of entries, a root identifies their hashes.
-/

namespace SkillRegistry

open Wire Merkle

/-! ## Appending a leaf -/

section Generic

variable {α : Type} (pair : α → α → α)

/-- The hash of the last one or two nodes of a level, the last node of the level
    above. -/
def lastParent (lower : Summary α) : Except PyErr α :=
  if lower.length % 2 = 1 then .ok (pair lower.tail.last lower.tail.last)
  else
    match lower.tail.before with
    | some a => .ok (pair a lower.tail.last)
    | none => .error .indexError

/-- The last nodes of a level that gets the length `length` and the last node `last`. -/
def newTail (old : Summary α) (length : Nat) (last : α) : Except PyErr (Tail α) :=
  if 2 ≤ old.length ∧ old.tail.before = none then
    .error (.storeIntegrityError "merkle frontier tail is incomplete")
  else if length = old.length then
    if old.length = 1 then .ok (.one last)
    else
      match old.tail.before with
      | some a => .ok (.two a last)
      | none => .error .indexError
  else if length = old.length + 1 then
    if length = 1 then .ok (.one last) else .ok (.two old.tail.last last)
  else .error (.storeIntegrityError "merkle frontier is inconsistent")

/-- The loop of `_frontier_append`: the levels from `index` on, given the new level
    below them. -/
def climb (lower : Summary α) (index : Nat) :
    List (Summary α) → Except PyErr (List (Summary α))
  | [] =>
    if lower.length ≤ 1 then .ok []
    else do
      let last ← lastParent pair lower
      if (lower.length + 1) / 2 ≠ 1 then
        .error (.storeIntegrityError "merkle frontier is inconsistent")
      else .ok [⟨1, .one last⟩]
  | old :: rest =>
    if lower.length ≤ 1 then .ok []
    else do
      let last ← lastParent pair lower
      let tail ← newTail old ((lower.length + 1) / 2) last
      if (lower.length + 1) / 2 = 1 then .ok [⟨1, tail⟩]
      else if index + 1 > 64 then
        .error (.storeIntegrityError "merkle frontier exceeds maximum depth")
      else do
        let levels ← climb ⟨(lower.length + 1) / 2, tail⟩ (index + 1) rest
        .ok (⟨(lower.length + 1) / 2, tail⟩ :: levels)

/-- `_frontier_append`: the frontier with one more leaf. -/
def frontierAppend (frontier : List (Summary α)) (leaf : α) : Except PyErr (List (Summary α)) :=
  match frontier with
  | [] => .ok [⟨1, .one leaf⟩]
  | first :: rest => do
    let before := if first.length = 1 then first.tail.first else first.tail.last
    let lower : Summary α := ⟨first.length + 1, .two before leaf⟩
    let levels ← climb pair lower 1 rest
    .ok (lower :: levels)

/-- The last node of the last level: `frontier[-1].tail[-1]`. -/
def frontierLast (frontier : List (Summary α)) : Option α :=
  frontier.getLast?.map fun level => level.tail.last

/-- `f` is the frontier of some leaves. -/
def IsFrontier (leaves : List α) (f : List (Summary α)) : Prop :=
  List.Forall₂ Summarizes (if leaves = [] then [] else levels pair leaves) f

variable {pair}

theorem isFrontier_nil {f : List (Summary α)} : IsFrontier pair [] f ↔ f = [] := by
  rw [IsFrontier, if_pos rfl]
  exact List.forall₂_nil_left_iff

theorem isFrontier_iff {l : List α} {f : List (Summary α)} (h : l ≠ []) :
    IsFrontier pair l f ↔ List.Forall₂ Summarizes (l :: above pair l) f := by
  rw [IsFrontier, if_neg h, levels_eq]

/-- Some leaves have one frontier. -/
theorem IsFrontier.unique {l : List α} {f g : List (Summary α)} (hf : IsFrontier pair l f)
    (hg : IsFrontier pair l g) : f = g := by
  unfold IsFrontier at hf hg
  generalize (if l = [] then [] else levels pair l) = ls at hf hg
  induction hf generalizing g with
  | nil => cases hg; rfl
  | cons hm _ ih =>
    cases hg with
    | cons hm' hg => rw [hm.unique hm', ih hg]

/-- The first level of a frontier has the length of the leaves. -/
theorem IsFrontier.length_eq {l : List α} {f : List (Summary α)} (h : IsFrontier pair l f) :
    (f.head?.map (·.length)).getD 0 = l.length := by
  by_cases hl : l = []
  · subst hl
    rw [isFrontier_nil.1 h]
    rfl
  · cases (isFrontier_iff hl).1 h with
    | cons hm _ => exact hm.length

/-- The last node of a frontier is the root. -/
theorem IsFrontier.last_eq {l : List α} {f : List (Summary α)} (h : IsFrontier pair l f) :
    frontierLast f = root pair l := by
  by_cases hl : l = []
  · subst hl
    rw [isFrontier_nil.1 h]
    rfl
  · have hlast {ls : List (List α)} {g : List (Summary α)} (hg : List.Forall₂ Summarizes ls g) :
        g.getLast?.map (·.tail.last) = ls.getLast?.bind List.getLast? := by
      induction hg with
      | nil => rfl
      | cons hm hg ih =>
        cases hg with
        | nil => exact hm.tail.getLast?.symm
        | cons => simpa [List.getLast?_cons_cons] using ih
    rw [root_eq, levels_eq]
    exact hlast ((isFrontier_iff hl).1 h)

variable (pair) in
theorem lastParent_eq {l : List α} {m : Summary α} (hm : Summarizes l m) (hl : 1 < l.length) :
    ∃ last, lastParent pair m = .ok last ∧ (nextLevel pair l).getLast? = some last := by
  obtain ⟨n, t⟩ := m
  have hn : n = l.length := hm.length
  subst hn
  have ht : IsTail l t := hm.tail
  rcases Nat.mod_two_eq_zero_or_one l.length with h | h
  · rw [lastParent, if_neg (by simp only; omega)]
    cases ht with
    | one b => simp at hl
    | two s a b =>
      rw [List.length_append] at h
      exact ⟨_, rfl, nextLevel_getLast?_even pair (by simpa using h)⟩
  · rw [lastParent, if_pos h]
    exact ⟨_, rfl, nextLevel_getLast?_odd pair ht h⟩

/-- The new tail of a level is the one of the touched level. -/
theorem newTail_eq {l l' : List α} {m : Summary α} {last : α} (hm : Summarizes l m)
    (ht : Touches l l') (hl : l ≠ []) (hlast : l'.getLast? = some last) :
    ∃ t, newTail m l'.length last = .ok t ∧ IsTail l' t := by
  obtain ⟨n, t⟩ := m
  have hn : n = l.length := hm.length
  subst hn
  have htail : IsTail l t := hm.tail
  cases ht with
  | replace s a b =>
    rw [List.getLast?_concat, Option.some.injEq] at hlast
    subst hlast
    generalize hL : s ++ [a] = L at htail
    cases htail with
    | one c =>
      obtain rfl : s = [] := List.length_eq_zero_iff.1 (by simpa using congrArg List.length hL)
      exact ⟨.one b, rfl, .one b⟩
    | two u c d =>
      obtain ⟨rfl, -⟩ : s = u ++ [c] ∧ [a] = [d] :=
        List.append_inj' (by rw [hL, List.append_assoc]; rfl) rfl
      refine ⟨.two c b, ?_, by rw [List.append_assoc]; exact .two u c b⟩
      have hlen : ((u ++ [c]) ++ [b]).length = (u ++ [c, d]).length := by simp
      have hne : (u ++ [c, d]).length ≠ 1 := by simp
      simp only [newTail, Tail.before, reduceCtorEq, and_false, if_false, hlen, if_true, hne]
  | append _ b =>
    rw [List.getLast?_concat, Option.some.injEq] at hlast
    subst hlast
    refine ⟨.two t.last b, ?_, htail.append b⟩
    have hpos := List.length_pos_iff.2 hl
    have h₁ : ¬(2 ≤ l.length ∧ t.before = none) := by
      rintro ⟨h2, hb⟩
      cases htail with
      | one => simp at h2
      | two => cases hb
    rw [newTail, if_neg h₁, if_neg (by simp), if_pos (by simp), if_neg (by simp; omega)]

/-- One turn of the loop of `_frontier_append`, at a level that has another above it. -/
theorem climb_cons {l l' : List α} {m old : Summary α} (index : Nat) (ht : Touches l l')
    (hl : l ≠ []) (hm : Summarizes l' m) (hold : Summarizes (nextLevel pair l) old)
    (rest : List (Summary α)) (h : 1 < l'.length) :
    ∃ t, Summarizes (nextLevel pair l') ⟨(l'.length + 1) / 2, t⟩ ∧
      climb pair m index (old :: rest) =
        if (l'.length + 1) / 2 = 1 then .ok [⟨1, t⟩]
        else if index + 1 > 64 then
          .error (.storeIntegrityError "merkle frontier exceeds maximum depth")
        else climb pair ⟨(l'.length + 1) / 2, t⟩ (index + 1) rest >>=
          fun levels => .ok (⟨(l'.length + 1) / 2, t⟩ :: levels) := by
  obtain ⟨last, hp, hlast⟩ := lastParent_eq pair hm h
  obtain ⟨t, hnew, htail⟩ := newTail_eq hold (ht.nextLevel pair) (nextLevel_ne_nil pair hl) hlast
  have hn := nextLevel_length pair l'
  refine ⟨t, ⟨hn.symm, htail⟩, ?_⟩
  rw [climb, if_neg (by rw [hm.length]; omega), hp, hm.length]
  change newTail old ((l'.length + 1) / 2) last >>= _ = _
  rw [← hn, hnew]
  rfl

/-- The loop of `_frontier_append` gives the levels above the touched level; the
    induction is on the old levels. -/
theorem climb_eq {l l' : List α} {m : Summary α} {f : List (Summary α)} (index : Nat)
    (ht : Touches l l') (hl : l ≠ []) (hm : Summarizes l' m)
    (hf : List.Forall₂ Summarizes (above pair l) f) (hi : l'.length ≤ 2 ^ (65 - index)) :
    ∃ g, climb pair m index f = .ok g ∧ List.Forall₂ Summarizes (above pair l') g := by
  induction f generalizing l l' m index with
  | nil =>
    rcases Nat.lt_or_ge 1 l'.length with h | h
    · have hl1 : l.length ≤ 1 := by
        by_contra hlt
        rw [above_of_length_lt pair (not_le.1 hlt)] at hf
        cases hf
      have hn : (l'.length + 1) / 2 = 1 := by
        cases ht with
        | replace s a b =>
          rw [List.length_append, List.length_singleton] at hl1 h
          omega
        | append _ b =>
          rw [List.length_append, List.length_singleton] at h ⊢
          omega
      obtain ⟨last, hp, hlast⟩ := lastParent_eq pair hm h
      have hnl := (nextLevel_length pair l').trans hn
      obtain ⟨c, hc⟩ := List.length_eq_one_iff.1 hnl
      rw [hc] at hlast
      obtain rfl := Option.some.inj hlast
      refine ⟨[⟨1, .one c⟩], ?_, ?_⟩
      · rw [climb, if_neg (by rw [hm.length]; omega), hp, hm.length]
        exact if_neg (not_not.2 hn)
      · rw [above_of_length_lt pair h, above_of_length_le pair hnl.le, hc]
        exact .cons ⟨rfl, .one c⟩ .nil
    · refine ⟨[], by rw [climb, if_pos (by rw [hm.length]; omega)], ?_⟩
      rw [above_of_length_le pair h]
      exact .nil
  | cons old rest ih =>
    have hl1 : 1 < l.length := by
      by_contra hle
      rw [above_of_length_le pair (not_lt.1 hle)] at hf
      cases hf
    have h : 1 < l'.length := by
      cases ht with
      | replace s a b => simpa using hl1
      | append _ b => simp; omega
    rw [above_of_length_lt pair hl1] at hf
    obtain ⟨hold, hrest⟩ : Summarizes (nextLevel pair l) old ∧
        List.Forall₂ Summarizes (above pair (nextLevel pair l)) rest := by
      cases hf with
      | cons h₁ h₂ => exact ⟨h₁, h₂⟩
    have hnext := ht.nextLevel pair
    have hne := nextLevel_ne_nil pair hl
    have hn := nextLevel_length pair l'
    obtain ⟨t, hs, hc⟩ := climb_cons index ht hl hm hold rest h
    rw [hc, above_of_length_lt pair h]
    split_ifs with h1 h64
    · refine ⟨_, rfl, ?_⟩
      rw [above_of_length_le pair (by omega)]
      exact .cons (h1 ▸ hs) .nil
    · have : l'.length ≤ 2 := hi.trans (Nat.pow_le_pow_right (by omega) (by omega : _ ≤ 1))
      omega
    · obtain ⟨g, hg, hg'⟩ := ih (index + 1) hnext hne hs hrest (by
        have h2 : 2 ^ (65 - index) = 2 * 2 ^ (65 - (index + 1)) := by
          rw [← pow_succ']
          congr 1
          omega
        omega)
      exact ⟨_, by rw [hg]; rfl, .cons hs hg'⟩

/-- Above a level of `2 ^ (65 - index)` nodes the loop of `_frontier_append` stops. -/
theorem climb_exceeds {l l' : List α} {m : Summary α} {f : List (Summary α)} (index : Nat)
    (ht : Touches l l') (hl : l ≠ []) (hm : Summarizes l' m)
    (hf : List.Forall₂ Summarizes (above pair l) f) (hindex : index ≤ 64)
    (hi : 2 ^ (65 - index) < l'.length) :
    climb pair m index f =
      .error (.storeIntegrityError "merkle frontier exceeds maximum depth") := by
  have htwo : 2 ≤ 2 ^ (65 - index) := Nat.le_self_pow (by omega) 2
  have hlower := ht.length.2
  induction f generalizing l l' m index with
  | nil =>
    rw [above_of_length_lt pair (by omega)] at hf
    cases hf
  | cons old rest ih =>
    rw [above_of_length_lt pair (by omega)] at hf
    obtain ⟨hold, hrest⟩ := List.forall₂_cons.1 hf
    have hn := nextLevel_length pair l'
    obtain ⟨t, hs, hc⟩ := climb_cons index ht hl hm hold rest (by omega)
    rw [hc, if_neg (by omega)]
    split_ifs with h64
    · rfl
    · -- a level up, the bound halves with the level
      have hpow : 2 ^ (65 - index) = 2 * 2 ^ (65 - (index + 1)) := by
        rw [← pow_succ']
        congr 1
        omega
      have htwo' : 2 ≤ 2 ^ (65 - (index + 1)) := Nat.le_self_pow (by omega) 2
      have hle := nextLevel_length pair l
      rw [ih (index + 1) (ht.nextLevel pair) (nextLevel_ne_nil pair hl) hs hrest (by omega)
        (by omega) htwo' (by omega)]
      rfl

variable (pair) in
/-- The first level after a leaf more. -/
theorem exists_lower {l : List α} {first : Summary α} (hm : Summarizes l first) (leaf : α) :
    ∃ lower : Summary α, Summarizes (l ++ [leaf]) lower ∧ ∀ rest, frontierAppend pair (first :: rest)
      leaf = climb pair lower 1 rest >>= fun levels => .ok (lower :: levels) := by
  refine ⟨⟨first.length + 1,
    .two (if first.length = 1 then first.tail.first else first.tail.last) leaf⟩,
    ⟨by simp [hm.length], ?_⟩, fun rest => rfl⟩
  have hb : (if first.length = 1 then first.tail.first else first.tail.last) =
      first.tail.last := by
    obtain ⟨n, t⟩ := first
    have ht : IsTail l t := hm.tail
    have hn : n = l.length := hm.length
    cases ht with
    | one b => exact ite_self _
    | two s a b => exact if_neg (by simp [hn])
  rw [hb]
  exact hm.tail.append leaf

/-- The frontier of some leaves, its first level, and the level after a leaf more. -/
theorem IsFrontier.exists_first {l : List α} {f : List (Summary α)} (hf : IsFrontier pair l f)
    (hnil : l ≠ []) (leaf : α) : ∃ (lower : Summary α) (rest : List (Summary α)),
      Summarizes (l ++ [leaf]) lower ∧ List.Forall₂ Summarizes (above pair l) rest ∧
      frontierAppend pair f leaf =
        climb pair lower 1 rest >>= fun levels => .ok (lower :: levels) := by
  cases (isFrontier_iff hnil).1 hf with
  | @cons _ first _ rest hm hrest =>
    obtain ⟨lower, hlower, happend⟩ := exists_lower pair hm leaf
    exact ⟨lower, rest, hlower, hrest, happend rest⟩

/-- Appending a leaf to the frontier of some leaves gives the frontier of one leaf more,
    and its last node is the root of the full tree. -/
theorem frontierAppend_isFrontier {l : List α} {f : List (Summary α)} (hf : IsFrontier pair l f)
    (hl : l.length < 2 ^ 64) (leaf : α) :
    ∃ g, frontierAppend pair f leaf = .ok g ∧ IsFrontier pair (l ++ [leaf]) g := by
  by_cases hnil : l = []
  · subst hnil
    rw [isFrontier_nil.1 hf]
    refine ⟨_, rfl, (isFrontier_iff (by simp)).2 (.cons ⟨rfl, .one leaf⟩ ?_)⟩
    rw [above_of_length_le pair (by simp)]
    exact .nil
  · obtain ⟨lower, rest, hs, hrest, happend⟩ := hf.exists_first hnil leaf
    obtain ⟨g, hg, hg'⟩ := climb_eq 1 (.append l leaf) hnil hs hrest
      (by rw [List.length_append, List.length_singleton]; omega)
    exact ⟨_, by rw [happend, hg]; rfl, (isFrontier_iff (by simp)).2 (.cons hs hg')⟩

/-- No leaf is appended to a frontier of `2 ^ 64` leaves. -/
theorem frontierAppend_exceeds {l : List α} {f : List (Summary α)} (hf : IsFrontier pair l f)
    (hl : l.length = 2 ^ 64) (leaf : α) : frontierAppend pair f leaf =
      .error (.storeIntegrityError "merkle frontier exceeds maximum depth") := by
  have hnil : l ≠ [] := fun h => by
    rw [h, List.length_nil] at hl
    exact absurd hl (by norm_num)
  obtain ⟨lower, rest, hs, hrest, happend⟩ := hf.exists_first hnil leaf
  rw [happend, climb_exceeds 1 (.append l leaf) hnil hs hrest (by norm_num)
    (by rw [List.length_append, List.length_singleton, hl]; norm_num)]
  rfl

/-! ## Appending leaf after leaf -/

variable (pair)

/-- `_frontier_append` with the root it returns. -/
def frontierAppendRoot (frontier : List (Summary α)) (leaf : α) :
    Except PyErr (α × List (Summary α)) := do
  let levels ← frontierAppend pair frontier leaf
  match frontierLast levels with
  | some root => .ok (root, levels)
  | none => .error .indexError

/-- `_frontier_append` on leaf after leaf: what each of them returns and leaves. -/
def frontierFold (frontier : List (Summary α)) :
    List α → Except PyErr (List (α × List (Summary α)))
  | [] => .ok []
  | leaf :: leaves => do
    let step ← frontierAppendRoot pair frontier leaf
    let steps ← frontierFold step.2 leaves
    .ok (step :: steps)

variable {pair}

/-- An append returns the root of the leaves whose frontier it leaves. -/
theorem frontierAppendRoot_isFrontier {l : List α} {f : List (Summary α)}
    (hf : IsFrontier pair l f) (hl : l.length < 2 ^ 64) (leaf : α) :
    ∃ r g, frontierAppendRoot pair f leaf = .ok (r, g) ∧ IsFrontier pair (l ++ [leaf]) g ∧
      frontierLast g = some r ∧ root pair (l ++ [leaf]) = some r := by
  obtain ⟨g, hg, hg'⟩ := frontierAppend_isFrontier hf hl leaf
  have hne : l ++ [leaf] ≠ [] := by simp
  obtain ⟨r, hr⟩ := Option.isSome_iff_exists.1 (root_isSome pair hne)
  have hlast : frontierLast g = some r := hg'.last_eq.trans hr
  refine ⟨r, g, ?_, hg', hlast, hr⟩
  rw [frontierAppendRoot, hg]
  simp only [bind, Except.bind, hlast]

/-- Up to `2 ^ 64` leaves, each append leaves the frontier and returns the root of the leaves
    before it and its own; the induction is on the leaves that are left. -/
theorem frontierFold_isFrontier {before : List α} {f : List (Summary α)}
    (hf : IsFrontier pair before f) (leaves : List α)
    (hl : before.length + leaves.length ≤ 2 ^ 64) :
    ∃ steps, frontierFold pair f leaves = .ok steps ∧ steps.length = leaves.length ∧
      ∀ i step, steps[i]? = some step →
        IsFrontier pair (before ++ leaves.take (i + 1)) step.2 ∧
        frontierLast step.2 = some step.1 ∧
        root pair (before ++ leaves.take (i + 1)) = some step.1 := by
  induction leaves generalizing before f with
  | nil => exact ⟨[], rfl, rfl, fun i step h => by cases h⟩
  | cons leaf leaves ih =>
    rw [List.length_cons] at hl
    obtain ⟨r, g, hg, hg', hlast, hroot⟩ := frontierAppendRoot_isFrontier hf (by omega) leaf
    obtain ⟨steps, hsteps, hlen, hall⟩ :=
      ih hg' (by rw [List.length_append, List.length_singleton]; omega)
    refine ⟨(r, g) :: steps, ?_, congrArg (· + 1) hlen, fun i step hi => ?_⟩
    · rw [frontierFold, hg]
      change (frontierFold pair g leaves >>= fun steps => _) = _
      rw [hsteps]
      rfl
    · cases i with
      | zero =>
        obtain rfl := Option.some.inj hi
        exact ⟨hg', hlast, hroot⟩
      | succ i =>
        have happend : before ++ (leaf :: leaves).take (i + 1 + 1) =
            before ++ [leaf] ++ leaves.take (i + 1) := by simp
        rw [happend]
        exact hall i step hi

/-- More than `2 ^ 64` leaves are not appended. -/
theorem frontierFold_exceeds {before : List α} {f : List (Summary α)}
    (hf : IsFrontier pair before f) (leaves : List α) (hb : before.length ≤ 2 ^ 64)
    (hl : 2 ^ 64 < before.length + leaves.length) : frontierFold pair f leaves =
      .error (.storeIntegrityError "merkle frontier exceeds maximum depth") := by
  induction leaves generalizing before f with
  | nil =>
    rw [List.length_nil] at hl
    omega
  | cons leaf leaves ih =>
    rw [List.length_cons] at hl
    rcases hb.lt_or_eq with hlt | heq
    · obtain ⟨r, g, hg, hg', -⟩ := frontierAppendRoot_isFrontier hf hlt leaf
      have hlen : (before ++ [leaf]).length = before.length + 1 := by simp
      rw [frontierFold, hg]
      change (frontierFold pair g leaves >>= fun steps => _) = _
      rw [ih hg' (by omega) (by omega)]
      rfl
    · rw [frontierFold, frontierAppendRoot, frontierAppend_exceeds hf heq]
      rfl

end Generic

/-! ## Roots of entry hashes -/

variable (P : Platform)

/-- `_GENESIS`. -/
def genesis : PyStr := List.replicate 64 (cp '0')

/-- `bytes.fromhex`. -/
def bytesFromHex (s : PyStr) : Except PyErr Bytes :=
  match fromHex s with
  | some b => .ok b
  | none => .error (.valueError "non-hexadecimal number found in fromhex() arg")

/-- `_merkle_pair_hash`. -/
def merklePairHash (left right : Bytes) : Bytes := P.sha256 (left ++ right)

/-- The root of raw hashes in hexadecimal: `_merkle_root` of the bundle module. -/
def merkleRootOf (leaves : List Bytes) : PyStr :=
  match root (merklePairHash P) leaves with
  | some r => hex r
  | none => genesis

/-- `_merkle_root` of the store module. -/
def merkleRoot (entryHashes : List PyStr) : Except PyErr PyStr :=
  (entryHashes.mapM bytesFromHex).map (merkleRootOf P)

/-- `_frontier_root`. -/
def frontierRoot (frontier : List (Summary Bytes)) : Except PyErr Bytes :=
  match frontierLast frontier with
  | some r => .ok r
  | none => bytesFromHex genesis

/-- The loop of `_recompute_prefix`, from a frontier on. -/
def recomputeFrom (frontier : List (Summary Bytes)) :
    List (PyStr × PyStr) → Except PyErr (List (PyStr × PyStr × PyStr) × List (Summary Bytes))
  | [] => .ok ([], frontier)
  | (entryHash, createdAt) :: leaves => do
    let leaf ← bytesFromHex entryHash
    let frontier ← frontierAppend (merklePairHash P) frontier leaf
    let root ← frontierRoot frontier
    let rest ← recomputeFrom frontier leaves
    .ok ((entryHash, hex root, createdAt) :: rest.1, rest.2)

/-- `_recompute_prefix`: the boundary of every prefix, and the frontier. -/
def recomputePrefix (leaves : List (PyStr × PyStr)) :
    Except PyErr (List (PyStr × PyStr × PyStr) × List (Summary Bytes)) :=
  recomputeFrom P [] leaves

/-- The entry hashes of some raw hashes. -/
def hexes (leaves : List Bytes) : List PyStr := leaves.map hex

variable {P}

@[simp] theorem bytesFromHex_hex (b : Bytes) : bytesFromHex (hex b) = .ok b := by
  rw [bytesFromHex, fromHex_hex]

theorem merkleRoot_hexes (leaves : List Bytes) :
    merkleRoot P (hexes leaves) = .ok (merkleRootOf P leaves) := by
  have h : (hexes leaves).mapM bytesFromHex = .ok leaves := by
    induction leaves with
    | nil => rfl
    | cons b leaves ih =>
      rw [hexes, List.map_cons, List.mapM_cons, bytesFromHex_hex, ← hexes, ih]
      rfl
  rw [merkleRoot, h]
  rfl

/-- The root a frontier holds is the root of its leaves. -/
theorem frontierRoot_eq {l : List Bytes} {f : List (Summary Bytes)}
    (hf : IsFrontier (merklePairHash P) l f) (hl : l ≠ []) :
    ∃ r, frontierRoot f = .ok r ∧ hex r = merkleRootOf P l := by
  obtain ⟨r, hr⟩ := Option.isSome_iff_exists.1 (root_isSome (merklePairHash P) hl)
  refine ⟨r, ?_, by rw [merkleRootOf, hr]⟩
  rw [frontierRoot, hf.last_eq, hr]

/-- The boundaries of the prefixes of some leaves, after those of `before`. -/
def prefixBoundaries (P : Platform) (before : List Bytes) :
    List (Bytes × PyStr) → List (PyStr × PyStr × PyStr)
  | [] => []
  | (leaf, createdAt) :: leaves =>
    (hex leaf, merkleRootOf P (before ++ [leaf]), createdAt) ::
      prefixBoundaries P (before ++ [leaf]) leaves

/-- Recomputing gives the boundary of every prefix and the frontier of all leaves. -/
theorem recomputeFrom_eq {before : List Bytes} {f : List (Summary Bytes)}
    (hf : IsFrontier (merklePairHash P) before f) (leaves : List (Bytes × PyStr))
    (hl : before.length + leaves.length ≤ 2 ^ 64) :
    ∃ g, recomputeFrom P f (leaves.map fun l => (hex l.1, l.2)) =
        .ok (prefixBoundaries P before leaves, g) ∧
      IsFrontier (merklePairHash P) (before ++ leaves.map Prod.fst) g := by
  induction leaves generalizing before f with
  | nil => exact ⟨f, rfl, by simpa using hf⟩
  | cons l leaves ih =>
    obtain ⟨leaf, createdAt⟩ := l
    rw [List.length_cons] at hl
    obtain ⟨g, hg, hg'⟩ := frontierAppend_isFrontier hf (by omega) leaf
    obtain ⟨r, hr, hr'⟩ := frontierRoot_eq hg' (by simp)
    obtain ⟨k, hk, hk'⟩ := ih hg' (by rw [List.length_append, List.length_singleton]; omega)
    refine ⟨k, ?_, by simpa using hk'⟩
    rw [List.map_cons, recomputeFrom, bytesFromHex_hex]
    simp only [bind, Except.bind, hg, hr, hk, hr', prefixBoundaries]

theorem merkleRootOf_length {l : List Bytes} (hl : ∀ b ∈ l, b.length = 32) :
    hex256 (merkleRootOf P l) = true := by
  unfold merkleRootOf
  split
  · rename_i r hr
    exact hex256_hex (root_mem (p := fun b => b.length = 32) _
      (fun a b _ _ => P.sha256_length _) hl hr)
  · decide

/-! ## What a root says of its leaves -/

/-- The pairs of 32 bytes that `_merkle_root` passes to `_merkle_pair_hash`. -/
def pairsHashed (P : Platform) (leaves : List Bytes) : Set (Bytes × Bytes) :=
  {p | p.1.length = 32 ∧ p.2.length = 32 ∧ p ∈ hashed (merklePairHash P) leaves}

/-- Of leaves of 32 bytes, all pairs hashed are pairs of 32 bytes. -/
theorem mem_pairsHashed {leaves : List Bytes} (hl : ∀ leaf ∈ leaves, leaf.length = 32) :
    ∀ p ∈ hashed (merklePairHash P) leaves, p ∈ pairsHashed P leaves := fun p hp => by
  obtain ⟨h₁, h₂⟩ := forall_mem_hashed (merklePairHash P) (p := fun b => b.length = 32)
    (fun _ _ _ _ => P.sha256_length _) hl p hp
  exact ⟨h₁, h₂, hp⟩

/-- The root in hexadecimal is the root of the tree, for trees of one size. -/
theorem root_eq_of_merkleRootOf_eq {l m : List Bytes} (hlen : l.length = m.length)
    (h : merkleRootOf P l = merkleRootOf P m) :
    root (merklePairHash P) l = root (merklePairHash P) m := by
  rcases eq_or_ne l [] with rfl | hl
  · rw [List.length_eq_zero_iff.1 hlen.symm]
  · have hm : m ≠ [] := List.ne_nil_of_length_pos (hlen ▸ List.length_pos_iff.2 hl)
    obtain ⟨r, hr⟩ := Option.isSome_iff_exists.1 (root_isSome (merklePairHash P) hl)
    obtain ⟨q, hq⟩ := Option.isSome_iff_exists.1 (root_isSome (merklePairHash P) hm)
    rw [merkleRootOf, merkleRootOf, hr, hq] at h
    rw [hr, hq, hex_injective h]

/-- The number of entries and the root identify the entry hashes, where `_merkle_pair_hash` has
    no collision among the pairs of 32 bytes hashed for them. -/
theorem merkleRoot_binds {leaves leaves' : List Bytes}
    (hleaves : ∀ leaf ∈ leaves, leaf.length = 32) (hleaves' : ∀ leaf ∈ leaves', leaf.length = 32)
    (hinj : (pairsHashed P leaves ∪ pairsHashed P leaves').InjOn
      (Function.uncurry (merklePairHash P))) :
    (leaves.length = leaves'.length →
      (merkleRootOf P leaves = merkleRootOf P leaves' ↔ leaves = leaves')) ∧
    (((hexes leaves).length = (hexes leaves').length ∧
      merkleRoot P (hexes leaves) = merkleRoot P (hexes leaves')) ↔ hexes leaves = hexes leaves') := by
  have binds (hlen : leaves.length = leaves'.length)
      (h : merkleRootOf P leaves = merkleRootOf P leaves') : leaves = leaves' :=
    eq_of_root_eq (merklePairHash P) hinj hlen
      (fun p hp => Or.inl (mem_pairsHashed hleaves p hp))
      (fun p hp => Or.inr (mem_pairsHashed hleaves' p hp))
      (root_eq_of_merkleRootOf_eq hlen h)
  refine ⟨fun hlen => ⟨binds hlen, congrArg _⟩, fun h => ?_, fun h => ?_⟩
  · rw [hexes, hexes, List.length_map, List.length_map] at h
    rw [← hexes, ← hexes, merkleRoot_hexes, merkleRoot_hexes] at h
    rw [binds h.1 (Except.ok.inj h.2)]
  · rw [h]
    exact ⟨rfl, rfl⟩

/-- Two times three leaves. -/
theorem merkleRoot_binds_three :
    let leaf n := List.replicate 32 (n : UInt8)
    merkleRootOf Platform.sample [leaf 0, leaf 1, leaf 2] ≠
      merkleRootOf Platform.sample [leaf 3, leaf 4, leaf 5] := by
  intro leaf
  have hmem : ∀ p ∈ pairsHashed Platform.sample [leaf 0, leaf 1, leaf 2] ∪
      pairsHashed Platform.sample [leaf 3, leaf 4, leaf 5],
      p ∈ hashed (merklePairHash Platform.sample) [leaf 0, leaf 1, leaf 2] ++
        hashed (merklePairHash Platform.sample) [leaf 3, leaf 4, leaf 5] := fun p hp =>
    List.mem_append.2 (hp.imp (fun h => h.2.2) (fun h => h.2.2))
  have hnodup : ((hashed (merklePairHash Platform.sample) [leaf 0, leaf 1, leaf 2] ++
      hashed (merklePairHash Platform.sample) [leaf 3, leaf 4, leaf 5]).map
        (Function.uncurry (merklePairHash Platform.sample))).Nodup := by
    decide +kernel
  have hroots := (merkleRoot_binds (P := Platform.sample) (by decide) (by decide) fun p hp q hq =>
    List.inj_on_of_nodup_map hnodup (hmem p hp) (hmem q hq)).1 rfl
  exact fun h => absurd (hroots.1 h) (by decide)

/-- The size matters: the last leaf of an odd level may be there twice. -/
example (a b c : Bytes) : merkleRootOf P [a, b, c] = merkleRootOf P [a, b, c, c] := rfl

/-! ## The incremental tree and the full one -/

/-- Up to `2 ^ 64` leaves, `_frontier_append` on leaf after leaf raises nothing: after each of
    them the root it returns is the one of `_frontier_root` and of both `_merkle_root`, and
    the frontier holds the length and the last one or two nodes of every level of the full
    tree. The leaf after them exceeds the maximum depth. -/
theorem incrementalTree_isFull (leaves : List Bytes) :
    (leaves.length ≤ 2 ^ 64 →
      ∃ steps, frontierFold (merklePairHash P) [] leaves = .ok steps ∧
        steps.length = leaves.length ∧
        ∀ i step, steps[i]? = some step →
          frontierRoot step.2 = .ok step.1 ∧
          merkleRootOf P (leaves.take (i + 1)) = hex step.1 ∧
          merkleRoot P (hexes (leaves.take (i + 1))) = .ok (hex step.1) ∧
          List.Forall₂ Summarizes (levels (merklePairHash P) (leaves.take (i + 1))) step.2) ∧
    (2 ^ 64 < leaves.length →
      frontierFold (merklePairHash P) [] leaves =
        .error (.storeIntegrityError "merkle frontier exceeds maximum depth")) := by
  have hnil : IsFrontier (merklePairHash P) [] [] := isFrontier_nil.2 rfl
  refine ⟨fun hl => ?_, fun hl => ?_⟩
  · obtain ⟨steps, hsteps, hlen, hall⟩ := frontierFold_isFrontier hnil leaves (by simpa using hl)
    refine ⟨steps, hsteps, hlen, fun i step hi => ?_⟩
    obtain ⟨hfrontier, hlast, hroot⟩ := hall i step hi
    rw [List.nil_append] at hfrontier hroot
    have hne : leaves.take (i + 1) ≠ [] := fun h => by
      rw [h] at hroot
      cases hroot
    have hhex : merkleRootOf P (leaves.take (i + 1)) = hex step.1 := by rw [merkleRootOf, hroot]
    refine ⟨by rw [frontierRoot, hlast], hhex, by rw [merkleRoot_hexes, hhex], ?_⟩
    rwa [IsFrontier, if_neg hne] at hfrontier
  · exact frontierFold_exceeds hnil leaves (Nat.zero_le _) (by simpa using hl)

/-- One leaf too many. -/
theorem incrementalTree_exceeds : ∃ leaves : List Bytes,
    leaves = List.replicate (2 ^ 64 + 1) (List.replicate 32 0) ∧
    (∀ leaf ∈ leaves, leaf.length = 32) ∧
    frontierFold (merklePairHash Platform.sample) [] leaves =
      .error (.storeIntegrityError "merkle frontier exceeds maximum depth") := by
  refine ⟨_, rfl, fun leaf h => ?_, ?_⟩
  · rw [List.eq_of_mem_replicate h, List.length_replicate]
  · refine frontierFold_exceeds (isFrontier_nil.2 rfl) _ (Nat.zero_le _) ?_
    rw [List.length_replicate, List.length_nil]
    norm_num

end SkillRegistry
