import SkillRegistry.Frontier
import SkillRegistry.Structure.HashChain

/-!
# The links of a frontier

What a frontier of unknown origin determines when only its first level, its last node, and
the link of each level to the one above it are checked. The path from the last leaf to the
root is a hash chain over the siblings along it (`Linked.lasts`), so where the pair hash has
no collision the checks determine the last node and the sibling of every level below the
top (`Linked.alike`), but not the lengths, and nothing before the root in the top level.

* `frontierAppend_root`: an append to a checked frontier returns the root of the leaves, or
  the frontier is a forged one;
* `Forges` are the forged frontiers: those of a power of two of leaves whose top level has
  another node before the root;
* `Forges.append`: the append of a leaf to a forged frontier returns a root that is wrong.
-/

namespace SkillRegistry

open Wire Merkle

variable {α : Type} (pair : α → α → α)

/-! ## Siblings -/

/-- The node that the last node of a level is paired with. -/
def sibling (m : Summary α) : α :=
  if m.length % 2 = 1 then m.tail.last else m.tail.before.getD m.tail.last

/-- The siblings along the path from the last node of the first level to the last one. -/
def siblings : List (Summary α) → List α
  | lower :: upper :: rest => sibling lower :: siblings (upper :: rest)
  | _ => []

/-- Each level of a frontier ends with the parent of the end of the level below. -/
inductive Linked : List (Summary α) → Prop
  | nil : Linked []
  | one (m : Summary α) : Linked [m]
  | link {lower upper : Summary α} {rest : List (Summary α)}
      (complete : ¬(2 ≤ lower.length ∧ lower.tail.before = none))
      (parent : lastParent pair lower = .ok upper.tail.last) (above : Linked (upper :: rest)) :
      Linked (lower :: upper :: rest)

/-- Two frontiers with the same last nodes, and the same siblings below the top. -/
inductive Alike : List (Summary α) → List (Summary α) → Prop
  | top {m n : Summary α} (last : m.tail.last = n.tail.last) : Alike [m] [n]
  | level {m n : Summary α} {f g : List (Summary α)} (last : m.tail.last = n.tail.last)
      (sib : sibling m = sibling n) (above : Alike f g) : Alike (m :: f) (n :: g)

variable {pair}

/-- The parent of the end of a level is the hash of the last node and its sibling. -/
theorem lastParent_eq_ok {m : Summary α} {v : α} (h : lastParent pair m = .ok v) :
    v = pair (sibling m) m.tail.last := by
  rw [lastParent] at h
  rw [sibling]
  split_ifs at h with hodd
  · rw [if_pos hodd]
    exact (Except.ok.inj h).symm
  · rw [if_neg hodd]
    cases hb : m.tail.before with
    | none => rw [hb] at h; cases h
    | some a => rw [hb] at h; exact (Except.ok.inj h).symm

/-- The last nodes of the levels above the first one are the hashes of a chain. -/
theorem Linked.lasts {m : Summary α} {f : List (Summary α)} (h : Linked pair (m :: f)) :
    f.map (·.tail.last) =
      HashChain.hashes (fun v s => pair s v) m.tail.last (siblings (m :: f)) := by
  induction f generalizing m with
  | nil => rfl
  | cons upper f ih =>
    cases h with
    | link _ parent above =>
      rw [List.map_cons, siblings, HashChain.hashes, ih above, lastParent_eq_ok parent]

/-- The last node of a linked frontier is the head of that chain. -/
theorem Linked.frontierLast_eq {m : Summary α} {f : List (Summary α)} (h : Linked pair (m :: f)) :
    frontierLast (m :: f) =
      some (HashChain.head (fun v s => pair s v) m.tail.last (siblings (m :: f))) := by
  rw [← HashChain.hashes_getLast?, ← h.lasts, List.getLast?_map, frontierLast, List.getLast?_cons]
  cases f.getLast? <;> rfl

theorem alike_of_siblings {m n : Summary α} {f g : List (Summary α)} (hf : Linked pair (m :: f))
    (hg : Linked pair (n :: g)) (hlast : m.tail.last = n.tail.last)
    (hsib : siblings (m :: f) = siblings (n :: g)) : Alike (m :: f) (n :: g) := by
  induction f generalizing m n g with
  | nil =>
    cases g with
    | nil => exact .top hlast
    | cons upper g => cases hsib
  | cons upper f ih =>
    cases g with
    | nil => cases hsib
    | cons upper' g =>
      obtain ⟨hs, hrest⟩ := List.cons.inj hsib
      cases hf with
      | link _ parent above =>
        cases hg with
        | link _ parent' above' =>
          refine .level hlast hs (ih above above' ?_ hrest)
          rw [lastParent_eq_ok parent, lastParent_eq_ok parent', hs, hlast]

theorem last_mem (t : Tail α) : t.last ∈ t.toList := by
  cases t <;> simp [Tail.last, Tail.toList]

theorem sibling_mem (m : Summary α) : sibling m ∈ m.tail.toList := by
  rw [sibling]
  split_ifs with hodd
  · exact last_mem m.tail
  · cases ht : m.tail <;> simp [Tail.before, Tail.last, Tail.toList]

/-- That chain is over the nodes of the frontier. -/
theorem Linked.inputs_mem {m : Summary α} {f : List (Summary α)} (h : Linked pair (m :: f))
    {nodes : Set α} (hnodes : ∀ n ∈ m :: f, ∀ b ∈ n.tail.toList, b ∈ nodes) :
    ∀ x ∈ HashChain.inputs (fun v s => pair s v) m.tail.last (siblings (m :: f)),
      x.1 ∈ nodes ∧ x.2 ∈ nodes := by
  induction f generalizing m with
  | nil => exact List.forall_mem_nil _
  | cons upper f ih =>
    obtain ⟨hm, hrest⟩ := List.forall_mem_cons.1 hnodes
    cases h with
    | link _ parent above =>
      rw [siblings, HashChain.inputs]
      refine List.forall_mem_cons.2 ⟨⟨hm _ (last_mem _), hm _ (sibling_mem _)⟩, ?_⟩
      rw [← lastParent_eq_ok parent]
      exact ih above hrest

/-- Linked frontiers with the same last leaf and the same root are alike, where the pair hash
    has no collision on their nodes and gives no leaf. -/
theorem Linked.alike {m n : Summary α} {f g : List (Summary α)} (hf : Linked pair (m :: f))
    (hg : Linked pair (n :: g)) (hlast : m.tail.last = n.tail.last)
    (hroot : frontierLast (m :: f) = frontierLast (n :: g)) {nodes : Set α}
    (hinj : (nodes ×ˢ nodes).InjOn (Function.uncurry pair))
    (hfresh : ∀ a ∈ nodes, ∀ b ∈ nodes, pair a b ≠ m.tail.last)
    (hfn : ∀ l ∈ m :: f, ∀ b ∈ l.tail.toList, b ∈ nodes)
    (hgn : ∀ l ∈ n :: g, ∀ b ∈ l.tail.toList, b ∈ nodes) : Alike (m :: f) (n :: g) := by
  rw [hf.frontierLast_eq, hg.frontierLast_eq, ← hlast, Option.some.injEq] at hroot
  have hgi := hg.inputs_mem hgn
  rw [← hlast] at hgi
  refine alike_of_siblings hf hg hlast (HashChain.eq_of_head_eq_of_fresh _
    (s := {x | x.1 ∈ nodes ∧ x.2 ∈ nodes}) ?_ (fun x hx => hfresh x.2 hx.2 x.1 hx.1)
    (hf.inputs_mem hfn) hgi hroot)
  rintro ⟨v, s⟩ ⟨hv, hs⟩ ⟨w, t⟩ ⟨hw, ht⟩ he
  have hvs : (s, v) ∈ nodes ×ˢ nodes := ⟨hs, hv⟩
  have hwt : (t, w) ∈ nodes ×ˢ nodes := ⟨ht, hw⟩
  obtain ⟨rfl, rfl⟩ := Prod.mk.inj (hinj hvs hwt he)
  rfl

/-- The frontier of some leaves is linked. -/
theorem linked_levels {l : List α} {f : List (Summary α)}
    (hf : List.Forall₂ Summarizes (levels pair l) f) : Linked pair f := by
  induction l using levels_induction pair generalizing f with
  | one l h =>
    rw [levels_of_length_le _ h] at hf
    obtain ⟨m, _, -, hnil, rfl⟩ := List.forall₂_cons_left_iff.1 hf
    obtain rfl := List.forall₂_nil_left_iff.1 hnil
    exact .one m
  | more l h ih =>
    rw [levels_of_length_lt _ h] at hf
    obtain ⟨lower, g, hlower, hg, rfl⟩ := List.forall₂_cons_left_iff.1 hf
    have hlinked := ih hg
    have hnext := levels_eq pair (nextLevel pair l)
    rw [hnext] at hg
    obtain ⟨upper, rest, hupper, hrest, rfl⟩ := List.forall₂_cons_left_iff.1 hg
    obtain ⟨last, hparent, hlast⟩ := lastParent_eq pair hlower h
    have hcomplete : ¬(2 ≤ lower.length ∧ lower.tail.before = none) := by
      rintro ⟨h2, hb⟩
      obtain ⟨n, t⟩ := lower
      have ht : IsTail l t := hlower.tail
      cases ht with
      | one b => exact absurd h (by simp)
      | two s a b => cases hb
    refine .link hcomplete ?_ hlinked
    rw [hparent]
    exact congrArg Except.ok (Option.some.inj (hlast.symm.trans hupper.tail.getLast?))

/-! ## New tails -/

/-- The tail of a level that is touched ends with its new node, after the sibling of the old
    level where the new length is even. -/
theorem newTail_eq_ok {old : Summary α} {n : Nat} {v : α} {t : Tail α}
    (h : newTail old n v = .ok t) : t.last = v ∧ (n = old.length ∨ n = old.length + 1) ∧
      (n % 2 = 0 → t.before = some (sibling old)) ∧
      ¬(2 ≤ old.length ∧ old.tail.before = none) := by
  unfold newTail at h
  rw [sibling]
  split_ifs at h with hcomplete hsame hone happend hfirst
  · obtain rfl := Except.ok.inj h
    exact ⟨rfl, .inl hsame, fun heven => absurd heven (by omega), hcomplete⟩
  · obtain ⟨a, ha⟩ : ∃ a, old.tail.before = some a := Option.ne_none_iff_exists'.1 fun hnone => by
      rw [hnone] at h
      cases h
    rw [ha] at h
    obtain rfl := Except.ok.inj h
    refine ⟨rfl, .inl hsame, fun heven => ?_, hcomplete⟩
    rw [if_neg (by omega), ha]
    rfl
  · obtain rfl := Except.ok.inj h
    exact ⟨rfl, .inr happend, fun heven => absurd heven (by omega), hcomplete⟩
  · obtain rfl := Except.ok.inj h
    refine ⟨rfl, .inr happend, fun heven => ?_, hcomplete⟩
    rw [if_pos (by omega)]
    rfl

/-- A level that is not empty is refused as one of a frontier. -/
theorem newTail_eq_error {old : Summary α} {n : Nat} {v : α} {e : PyErr} (hpos : 1 ≤ old.length)
    (h : newTail old n v = .error e) : ∃ m, e = .storeIntegrityError m := by
  unfold newTail at h
  split_ifs at h with hcomplete hsame hone happend hfirst
  · exact ⟨_, (Except.error.inj h).symm⟩
  · cases hb : old.tail.before with
    | none => exact absurd ⟨by omega, hb⟩ hcomplete
    | some a => rw [hb] at h; cases h
  · exact ⟨_, (Except.error.inj h).symm⟩

/-! ## Climbing -/

/-- The two last nodes of a level of even length are in its tail. -/
def Complete (m : Summary α) : Prop := m.length % 2 = 0 → m.tail.before.isSome

theorem Complete.lastParent (pair : α → α → α) {m : Summary α} (h : Complete m) :
    ∃ v, SkillRegistry.lastParent pair m = .ok v := by
  rw [SkillRegistry.lastParent]
  split_ifs with hodd
  · exact ⟨_, rfl⟩
  · obtain ⟨a, ha⟩ := Option.isSome_iff_exists.1 (h (by omega))
    rw [ha]
    exact ⟨_, rfl⟩

/-- The loop of `_frontier_append` above the last level. -/
theorem climb_top {m : Summary α} {v : α} (index : Nat) (hm : 1 < m.length)
    (hv : lastParent pair m = .ok v) : climb pair m index [] =
      if (m.length + 1) / 2 ≠ 1 then .error (.storeIntegrityError "merkle frontier is inconsistent")
      else .ok [⟨1, .one v⟩] := by
  rw [climb, if_neg (not_le.2 hm), hv]
  rfl

/-- One turn of the loop of `_frontier_append`. -/
theorem climb_turn {m old : Summary α} {v : α} (index : Nat) (rest : List (Summary α))
    (hm : 1 < m.length) (hv : lastParent pair m = .ok v) : climb pair m index (old :: rest) =
      newTail old ((m.length + 1) / 2) v >>= fun tail =>
        if (m.length + 1) / 2 = 1 then .ok [⟨1, tail⟩]
        else if index + 1 > 64 then
          .error (.storeIntegrityError "merkle frontier exceeds maximum depth")
        else climb pair ⟨(m.length + 1) / 2, tail⟩ (index + 1) rest >>=
          fun levels => .ok (⟨(m.length + 1) / 2, tail⟩ :: levels) := by
  rw [climb, if_neg (not_le.2 hm), hv]
  rfl

/-- A frontier without empty levels is refused as a frontier. -/
theorem climb_eq_error {m : Summary α} {f : List (Summary α)} {index : Nat} {e : PyErr}
    (hm : Complete m) (hf : ∀ n ∈ f, 1 ≤ n.length) (h : climb pair m index f = .error e) :
    ∃ msg, e = .storeIntegrityError msg := by
  rcases Nat.lt_or_ge 1 m.length with hlt | hle
  · induction f generalizing m index with
    | nil =>
      obtain ⟨v, hv⟩ := hm.lastParent pair
      rw [climb_top index hlt hv] at h
      split_ifs at h
      exact ⟨_, (Except.error.inj h).symm⟩
    | cons old rest ih =>
      obtain ⟨hold, hrest⟩ := List.forall_mem_cons.1 hf
      obtain ⟨v, hv⟩ := hm.lastParent pair
      rw [climb_turn index rest hlt hv] at h
      rcases Wire.Except.bind_eq_error.1 h with htail | ⟨t, ht, h⟩
      · exact newTail_eq_error hold htail
      · obtain ⟨-, -, heven, -⟩ := newTail_eq_ok ht
        split_ifs at h with hone hdeep
        · exact ⟨_, (Except.error.inj h).symm⟩
        · rcases Wire.Except.bind_eq_error.1 h with h | ⟨_, -, h⟩
          · refine ih (fun hn => ?_) hrest h (by simp only; omega)
            rw [heven hn]
            rfl
          · cases h
  · cases f <;> rw [climb, if_pos hle] at h <;> cases h

/-- A frontier without empty levels is refused as a frontier. -/
theorem frontierAppend_eq_error {f : List (Summary α)} {leaf : α} {e : PyErr}
    (hf : ∀ n ∈ f, 1 ≤ n.length) (h : frontierAppend pair f leaf = .error e) :
    ∃ msg, e = .storeIntegrityError msg := by
  cases f with
  | nil => cases h
  | cons first rest =>
    rw [frontierAppend] at h
    rcases Wire.Except.bind_eq_error.1 h with h | ⟨_, -, h⟩
    · exact climb_eq_error (fun _ => rfl) (List.forall_mem_cons.1 hf).2 h
    · cases h

/-- An append returns a frontier with a last node. -/
theorem frontierAppend_ne_nil {f F : List (Summary α)} {leaf : α}
    (h : frontierAppend pair f leaf = .ok F) : F ≠ [] := by
  cases f with
  | nil =>
    obtain rfl := Except.ok.inj h
    exact List.cons_ne_nil _ _
  | cons first rest =>
    obtain ⟨levels, -, hcons⟩ := Wire.Except.bind_eq_ok h
    obtain rfl := Except.ok.inj hcons
    exact List.cons_ne_nil _ _

/-- The root of a level is the last node of the one above it when that is the last one. -/
theorem root_of_nextLevel {l : List α} {v : α} (h : 1 < l.length)
    (hone : (nextLevel pair l).length = 1) (hv : (nextLevel pair l).getLast? = some v) :
    root pair l = some v := by
  obtain ⟨c, hc⟩ := List.length_eq_one_iff.1 hone
  rw [root_of_length_lt pair h, root_of_length_le pair hone.le, hc]
  rw [hc] at hv
  exact hv

theorem frontierLast_cons_cons (m n : Summary α) (f : List (Summary α)) :
    frontierLast (m :: n :: f) = frontierLast (n :: f) := by
  rw [frontierLast, frontierLast, List.getLast?_cons_cons]

/-- The levels of a tree that is forged: the top one has another node before its root. -/
def Forged (g : List (Summary α)) (f : List (Summary α)) : Prop :=
  ∃ below z r, z ≠ r ∧ g = below ++ [⟨1, .one r⟩] ∧ f = below ++ [⟨2, .two z r⟩]

/-- The tail of a level of even length that has distinct nodes, from its last node and its
    sibling. -/
theorem eq_of_sibling {l : List α} {m n : Summary α} (hn : Summarizes l n)
    (hl : l.Nodup) (heven : l.length % 2 = 0) (hlast : m.tail.last = n.tail.last)
    (hsib : sibling m = sibling n) (hlen : m.length = l.length ∨ m.length = l.length + 1)
    (hcomplete : ¬(2 ≤ m.length ∧ m.tail.before = none)) : m = n := by
  obtain ⟨k, t⟩ := n
  obtain rfl : k = l.length := hn.length
  have htail : IsTail l t := hn.tail
  cases htail with
  | one b => simp at heven
  | two s x y =>
    have hne : x ≠ y := by
      have := (List.nodup_append.1 hl).2.1
      simpa using this
    have hx : sibling (⟨(s ++ [x, y]).length, .two x y⟩ : Summary α) = x := by
      rw [sibling, if_neg (by simp only; omega)]
      rfl
    rw [hx] at hsib
    have hy : m.tail.last = y := hlast
    rcases hlen with hsame | hmore
    · obtain ⟨j, u⟩ := m
      obtain rfl : j = (s ++ [x, y]).length := hsame
      cases u with
      | one c => exact absurd ⟨by simp, rfl⟩ hcomplete
      | two c d =>
        rw [sibling, if_neg (by simp only; omega)] at hsib
        obtain rfl : c = x := hsib
        obtain rfl : d = y := hy
        rfl
    · rw [sibling, if_pos (by omega), hy] at hsib
      exact absurd hsib.symm hne

/-- Climbing levels that are like those of a tree gives the root of the tree with the node
    more, or the levels are forged and each of them gets a node. The induction is on the
    levels, and what it carries is that the new level has the length, the last node and the
    sibling of the new level of the tree. -/
theorem climb_root {l l' : List α} {a b : Summary α} {f g F : List (Summary α)} (index : Nat)
    (ht : Touches l l') (hl : l ≠ []) (hb : Summarizes l' b) (ha : Complete a)
    (hlen : a.length = b.length) (hlast : a.tail.last = b.tail.last) (hsib : sibling a = sibling b)
    (hg : List.Forall₂ Summarizes (above pair l) g) (hfg : f = [] ∧ g = [] ∨ Alike f g)
    (hdistinct : ∀ t ∈ above pair l, t.Nodup) (hF : climb pair a index f = .ok F) :
    frontierLast (a :: F) = root pair l' ∨
      Forged g f ∧ l.length = 2 ^ g.length ∧ l'.length = l.length + 1 := by
  induction f generalizing l l' a b g F index with
  | nil =>
    obtain rfl : g = [] := by
      rcases hfg with h | h
      · exact h.2
      · cases h
    have hl1 : l.length ≤ 1 := by
      by_contra hlt
      rw [above_of_length_lt pair (not_le.1 hlt)] at hg
      cases hg
    obtain ⟨-, hle⟩ := ht.length
    left
    rcases Nat.lt_or_ge 1 l'.length with h | h
    · obtain ⟨v, hv, hv'⟩ := lastParent_eq pair hb h
      obtain ⟨w, hw⟩ := ha.lastParent pair
      obtain rfl : w = v := by rw [lastParent_eq_ok hw, lastParent_eq_ok hv, hsib, hlast]
      have hn : (l'.length + 1) / 2 = 1 := by omega
      rw [climb_top index (by rw [hlen, hb.length]; exact h) hw, hlen, hb.length,
        if_neg (not_not.2 hn)] at hF
      obtain rfl := Except.ok.inj hF
      rw [frontierLast_cons_cons, root_of_nextLevel h ((nextLevel_length pair l').trans hn) hv']
      rfl
    · rw [climb, if_pos (by rw [hlen, hb.length]; exact h)] at hF
      obtain rfl := Except.ok.inj hF
      obtain ⟨y, rfl⟩ : ∃ y, l' = [y] :=
        List.length_eq_one_iff.1 (le_antisymm h (List.length_pos_iff.2 ht.ne_nil))
      rw [root_of_length_le pair h]
      change some a.tail.last = _
      rw [hlast, ← hb.tail.getLast?]
      rfl
  | cons m f ih =>
    obtain ⟨n, g, rfl, hmn, hrest⟩ : ∃ n g', g = n :: g' ∧ m.tail.last = n.tail.last ∧
        (f = [] ∧ g' = [] ∨ sibling m = sibling n ∧ Alike f g') := by
      rcases hfg with h | h
      · cases h.1
      · cases h with
        | top last => exact ⟨_, _, rfl, last, .inl ⟨rfl, rfl⟩⟩
        | level last sib above => exact ⟨_, _, rfl, last, .inr ⟨sib, above⟩⟩
    have hl1 : 1 < l.length := by
      by_contra hle
      rw [above_of_length_le pair (not_lt.1 hle)] at hg
      cases hg
    rw [above_of_length_lt pair hl1] at hg hdistinct
    obtain ⟨hn, hg⟩ := List.forall₂_cons.1 hg
    obtain ⟨hnodup, hdistinct⟩ := List.forall_mem_cons.1 hdistinct
    have hnext := ht.nextLevel pair
    have hne := nextLevel_ne_nil pair hl
    obtain ⟨hgrow, hle⟩ := ht.length
    have hL := nextLevel_length pair l
    have hL' := nextLevel_length pair l'
    have h : 1 < l'.length := by omega
    obtain ⟨v, hv, hv'⟩ := lastParent_eq pair hb h
    obtain ⟨w, hw⟩ := ha.lastParent pair
    obtain rfl : w = v := by rw [lastParent_eq_ok hw, lastParent_eq_ok hv, hsib, hlast]
    rw [climb_turn index f (by rw [hlen, hb.length]; exact h) hw, hlen, hb.length, ← hL'] at hF
    obtain ⟨t, hnew, hF⟩ := Wire.Except.bind_eq_ok hF
    obtain ⟨hlast', hlen', heven', hcomplete⟩ := newTail_eq_ok hnew
    split_ifs at hF with hone hdeep
    · obtain rfl := Except.ok.inj hF
      left
      rw [frontierLast_cons_cons, root_of_nextLevel h hone hv']
      exact congrArg some hlast'
    · obtain ⟨F', hclimb, hcons⟩ := Wire.Except.bind_eq_ok hF
      obtain rfl := Except.ok.inj hcons
      rw [frontierLast_cons_cons, root_of_length_lt pair h]
      by_cases hs : sibling m = sibling n
      · -- the new level is like the one of the tree, and the induction goes on
        obtain ⟨t', hnew', htail'⟩ := newTail_eq hn hnext hne hv'
        obtain ⟨hlast'', -, heven'', -⟩ := newTail_eq_ok hnew'
        have hsibling : sibling (⟨(nextLevel pair l').length, t⟩ : Summary α) =
            sibling ⟨(nextLevel pair l').length, t'⟩ := by
          rw [sibling, sibling]
          split_ifs with hodd
          · exact hlast'.trans hlast''.symm
          · rw [heven' (by simp only at hodd; omega), heven'' (by simp only at hodd; omega), hs]
            rfl
        have habove : f = [] ∧ g = [] ∨ Alike f g := hrest.imp id And.right
        have hc : Complete (⟨(nextLevel pair l').length, t⟩ : Summary α) := fun he => by
          rw [heven' he]
          rfl
        rcases ih (b := ⟨(nextLevel pair l').length, t'⟩) (index + 1) hnext hne ⟨rfl, htail'⟩ hc rfl
            (hlast'.trans hlast''.symm) hsibling hg habove hdistinct hclimb with hroot | ⟨⟨below, z, r, hzr, rfl, rfl⟩, hpow, hmore⟩
        · exact .inl hroot
        · right
          have hpos : (below ++ [(⟨1, .one r⟩ : Summary α)]).length = below.length + 1 := by simp
          have heven : (nextLevel pair l).length % 2 = 0 := by
            rw [hpow, hpos, pow_succ]
            omega
          obtain rfl := eq_of_sibling hn hnodup heven hmn hs (by omega) hcomplete
          refine ⟨⟨m :: below, z, r, hzr, rfl, rfl⟩, ?_, by omega⟩
          rw [List.length_cons, pow_succ, ← hpow]
          omega
      · -- only the top level has a sibling of its own
        obtain ⟨rfl, rfl⟩ : f = [] ∧ g = [] := hrest.resolve_right fun hr => hs hr.1
        right
        have htop : (nextLevel pair l).length ≤ 1 := by
          by_contra hlt
          rw [above_of_length_lt pair (not_le.1 hlt)] at hg
          cases hg
        obtain ⟨r, hr⟩ := List.length_eq_one_iff.1
          (le_antisymm htop (List.length_pos_iff.2 hne))
        obtain ⟨k, u⟩ := n
        have hk : k = (nextLevel pair l).length := hn.length
        have hu : IsTail (nextLevel pair l) u := hn.tail
        rw [hr] at hk hu
        obtain rfl : u = .one r := hu.unique (.one r)
        obtain rfl : k = 1 := hk
        obtain ⟨j, s⟩ := m
        have hsr : s.last = r := hmn
        have hsone : sibling (⟨1, .one r⟩ : Summary α) = r := rfl
        rw [hsone] at hs
        rw [hr] at hL
        obtain ⟨-, hup⟩ := hnext.length
        rw [hr, List.length_singleton] at hup
        have htwo : (nextLevel pair l').length = 2 := by
          have := List.length_pos_iff.2 hnext.ne_nil
          omega
        rw [htwo] at hlen' hL'
        obtain rfl : j = 2 := by
          rcases hlen' with hj | hj
          · exact hj.symm
          · obtain rfl : j = 1 := Nat.succ.inj hj.symm
            have hodd : sibling (⟨1, s⟩ : Summary α) = s.last := rfl
            exact absurd (hodd.trans hsr) hs
        rw [List.length_singleton] at hL
        cases s with
        | one c => exact absurd ⟨le_rfl, rfl⟩ hcomplete
        | two z c =>
          obtain rfl : c = r := hsr
          have heven : sibling (⟨2, .two z c⟩ : Summary α) = z := by
            simp [sibling, Tail.before]
          have hz : z ≠ c := fun he => hs (heven.trans he)
          exact ⟨⟨[], z, c, hz, rfl, rfl⟩, by simp only [List.length_singleton]; omega, by omega⟩

/-! ## Appends to a frontier that was checked -/

variable (pair) in
/-- A frontier of a power of two of leaves that was forged: its top level has another node
    before the root. -/
def Forges (l : List α) (f : List (Summary α)) : Prop :=
  (∃ h, l.length = 2 ^ (h + 1)) ∧ ∃ g, IsFrontier pair l g ∧ Forged g f

theorem exists_of_mem_forall₂ {β γ : Type} {R : β → γ → Prop} {l : List β} {f : List γ}
    (h : List.Forall₂ R l f) {y : γ} (hy : y ∈ f) : ∃ x ∈ l, R x y := by
  induction h with
  | nil => cases hy
  | cons hxy _ ih =>
    rcases List.mem_cons.1 hy with rfl | hy
    · exact ⟨_, List.mem_cons_self, hxy⟩
    · obtain ⟨x, hx, hr⟩ := ih hy
      exact ⟨x, List.mem_cons_of_mem _ hx, hr⟩

/-- An append to a frontier whose first level is the one of the leaves, whose levels are linked
    and whose last node is the root returns the root of the leaves, or the frontier is forged. -/
theorem frontierAppend_root {l : List α} {first : Summary α} {rest F : List (Summary α)} {leaf : α}
    (hl : l ≠ []) (hfirst : Summarizes l first) (hlinked : Linked pair (first :: rest))
    (hroot : frontierLast (first :: rest) = root pair l)
    (hF : frontierAppend pair (first :: rest) leaf = .ok F) {nodes : Set α}
    (hinj : (nodes ×ˢ nodes).InjOn (Function.uncurry pair))
    (hfresh : ∀ a ∈ nodes, ∀ b ∈ nodes, pair a b ∉ l)
    (htails : ∀ m ∈ first :: rest, ∀ b ∈ m.tail.toList, b ∈ nodes)
    (htree : ∀ t ∈ levels pair l, ∀ b ∈ t, b ∈ nodes) (hnodup : l.Nodup) :
    frontierLast F = root pair (l ++ [leaf]) ∨ Forges pair l (first :: rest) := by
  obtain ⟨g, hg⟩ := exists_summaries pair hl
  have hfrontier : IsFrontier pair l g := by rwa [IsFrontier, if_neg hl]
  have hgn : ∀ m ∈ g, ∀ b ∈ m.tail.toList, b ∈ nodes := by
    intro m hm b hb
    obtain ⟨t, ht, hmt⟩ := exists_of_mem_forall₂ hg hm
    exact htree t ht b (hmt.tail.subset b hb)
  have hglinked := linked_levels hg
  rw [levels_eq] at hg
  obtain ⟨first', g, hfirst', habove, rfl⟩ := List.forall₂_cons_left_iff.1 hg
  obtain rfl := hfirst'.unique hfirst
  have hlast : first'.tail.last ∈ l := hfirst.tail.subset _ (last_mem _)
  have halike := hlinked.alike hglinked rfl (hroot.trans hfrontier.last_eq.symm) hinj
    (fun a ha b hb he => hfresh a ha b hb (he ▸ hlast)) htails hgn
  have hrest : rest = [] ∧ g = [] ∨ Alike rest g := by
    cases halike with
    | top => exact .inl ⟨rfl, rfl⟩
    | level _ _ above => exact .inr above
  obtain ⟨lower, hlower, happend⟩ := exists_lower pair hfirst leaf
  rw [happend] at hF
  obtain ⟨levels', hclimb, hcons⟩ := Wire.Except.bind_eq_ok hF
  obtain rfl := Except.ok.inj hcons
  have hcomplete : Complete lower := by
    obtain ⟨n, t⟩ := lower
    have ht : IsTail (l ++ [leaf]) t := hlower.tail
    have hn : n = (l ++ [leaf]).length := hlower.length
    intro heven
    cases t with
    | one b =>
      generalize hL : l ++ [leaf] = L at ht
      cases ht
      rw [hn, hL] at heven
      exact absurd heven (by simp)
    | two a b => rfl
  have hdistinct : ∀ t ∈ above pair l, t.Nodup := fun t ht =>
    nodup_of_mem_levels pair hinj hnodup htree t (by
      rw [levels_eq]
      exact List.mem_cons_of_mem _ ht)
  rcases climb_root 1 (.append l leaf) hl hlower hcomplete rfl rfl rfl habove hrest hdistinct hclimb
    with hdone | ⟨⟨below, z, r, hzr, rfl, rfl⟩, hpow, -⟩
  · exact .inl hdone
  · refine .inr ⟨⟨below.length, ?_⟩, _, hfrontier, first' :: below, z, r, hzr, rfl, rfl⟩
    rw [hpow, List.length_append, List.length_singleton]

/-! ## Appends to a forged frontier -/

theorem Linked.replace_top {below : List (Summary α)} {m n : Summary α}
    (h : Linked pair (below ++ [m])) (hlast : m.tail.last = n.tail.last) :
    Linked pair (below ++ [n]) := by
  induction below with
  | nil => exact .one n
  | cons lower below ih =>
    cases below with
    | nil =>
      cases h with
      | link complete parent _ => exact .link complete (hlast ▸ parent) (.one n)
    | cons upper below =>
      cases h with
      | link complete parent above => exact .link complete parent (ih above)

/-- A forged frontier passes the checks. -/
theorem Forges.checks {l : List α} {f : List (Summary α)} (h : Forges pair l f) :
    ∃ first rest, f = first :: rest ∧ Summarizes l first ∧ Linked pair f ∧
      frontierLast f = root pair l := by
  obtain ⟨⟨h, hpow⟩, g, hg, below, z, r, -, rfl, rfl⟩ := h
  have hl : 2 ≤ l.length := hpow ▸ Nat.le_self_pow (Nat.succ_ne_zero h) 2
  have hne : l ≠ [] := fun hnil => by
    rw [hnil] at hl
    exact absurd hl (by simp)
  have hlinked : Linked pair (below ++ [⟨1, .one r⟩]) := by
    have hg' := hg
    rw [IsFrontier, if_neg hne] at hg'
    exact linked_levels hg'
  have hroot : frontierLast (below ++ [(⟨2, .two z r⟩ : Summary α)]) = root pair l := by
    rw [← hg.last_eq, frontierLast, frontierLast, List.getLast?_concat, List.getLast?_concat]
    rfl
  cases below with
  | nil =>
    cases (isFrontier_iff hne).1 hg with
    | cons hm _ =>
      have hone : 1 = l.length := hm.length
      omega
  | cons first below =>
    cases (isFrontier_iff hne).1 hg with
    | cons hm _ => exact ⟨first, _, rfl, hm, hlinked.replace_top rfl, hroot⟩

/-- A bound on the nodes of a level bounds the level above, and its place. -/
theorem deep_succ {n index : Nat} (hn : 2 < n) (hdeep : n ≤ 2 ^ (65 - index)) :
    index + 1 ≤ 64 ∧ (n + 1) / 2 ≤ 2 ^ (65 - (index + 1)) := by
  have hindex : index + 1 ≤ 64 := by
    by_contra hlt
    have := hdeep.trans (Nat.pow_le_pow_right (by omega) (by omega : 65 - index ≤ 1))
    omega
  have hpow : 2 ^ (65 - index) = 2 * 2 ^ (65 - (index + 1)) := by
    rw [← pow_succ']
    congr 1
    omega
  exact ⟨hindex, by omega⟩

/-- Climbing the levels of a forged frontier: they are those of the tree up to the top, where
    the new node is hashed with the forged one. -/
theorem climb_forged {h : Nat} {l l' : List α} {b : Summary α} {below : List (Summary α)} {z r : α}
    (index : Nat) (ht : Touches l l') (hpow : l.length = 2 ^ (h + 1))
    (hmore : l'.length = l.length + 1) (hb : Summarizes l' b)
    (hg : List.Forall₂ Summarizes (above pair l) (below ++ [⟨1, .one r⟩]))
    (hdeep : l'.length ≤ 2 ^ (65 - index)) :
    ∃ F v, climb pair b index (below ++ [⟨2, .two z r⟩]) = .ok F ∧
      frontierLast (b :: F) = some (pair z v) ∧ root pair l' = some (pair r v) ∧
      ∃ t ∈ levels pair l', r ∈ t ∧ v ∈ t := by
  induction h generalizing l l' b below index with
  | zero =>
    rw [zero_add, pow_one] at hpow
    have hL := nextLevel_length pair l
    have hL' := nextLevel_length pair l'
    rw [above_of_length_lt pair (by omega)] at hg
    have htop : (nextLevel pair l).length = 1 := by omega
    rw [above_of_length_le pair htop.le] at hg
    obtain ⟨n, _, hn, hnil, hcons⟩ := List.forall₂_cons_left_iff.1 hg
    obtain rfl := List.forall₂_nil_left_iff.1 hnil
    obtain ⟨rfl, hsame⟩ : below = [] ∧ (⟨1, .one r⟩ : Summary α) = n := by
      cases below with
      | nil => exact ⟨rfl, (List.cons.inj hcons).1⟩
      | cons m below => exact absurd (List.cons.inj hcons).2 (by simp)
    subst hsame
    have hr : nextLevel pair l = [r] := by
      have htail : IsTail (nextLevel pair l) (.one r) := hn.tail
      generalize nextLevel pair l = s at htail
      cases htail
      rfl
    obtain ⟨v, hv, hv'⟩ := lastParent_eq pair hb (by omega)
    have htwo : (nextLevel pair l').length = 2 := by omega
    have hlevel : nextLevel pair l' = [r, v] := by
      have hnext := ht.nextLevel pair
      rw [hr] at hnext
      generalize nextLevel pair l' = s at hnext htwo hv'
      generalize hs : [r] = t at hnext
      cases hnext with
      | replace u a b =>
        have := congrArg List.length hs
        simp only [List.length_append, List.length_singleton] at this htwo
        omega
      | append _ c =>
        subst hs
        rw [List.getLast?_concat] at hv'
        rw [Option.some.inj hv']
        rfl
    have hparent : lastParent pair (⟨2, .two z v⟩ : Summary α) = .ok (pair z v) := by
      simp [lastParent, Tail.before, Tail.last]
    have hlen : (b.length + 1) / 2 = 2 := by rw [hb.length]; omega
    obtain ⟨hindex, -⟩ := deep_succ (by omega) hdeep
    have hmem : [r, v] ∈ levels pair l' := by
      rw [levels_of_length_lt pair (by omega), hlevel, levels_eq]
      simp
    refine ⟨[⟨2, .two z v⟩, ⟨1, .one (pair z v)⟩], v, ?_, rfl, ?_, [r, v], hmem, by simp, by simp⟩
    · have hnew : newTail (⟨2, .two z r⟩ : Summary α) 2 v = .ok (.two z v) := by
        simp [newTail, Tail.before]
      have htop := climb_top (index + 1) (by simp) hparent
      rw [if_neg (by simp)] at htop
      rw [List.nil_append, climb_turn index [] (by rw [hb.length]; omega) hv, hlen, hnew]
      refine (if_neg (not_lt.2 hindex)).trans ?_
      rw [htop]
      rfl
    · rw [root_of_length_lt pair (by omega), hlevel]
      rfl
  | succ h ih =>
    have hL := nextLevel_length pair l
    have hL' := nextLevel_length pair l'
    have hhalf : (nextLevel pair l).length = 2 ^ (h + 1) := by
      rw [pow_succ] at hpow
      omega
    have hl2 : 2 ≤ (nextLevel pair l).length := hhalf ▸ Nat.le_self_pow (Nat.succ_ne_zero h) 2
    have hne : l ≠ [] := fun hnil => by
      rw [hnil] at hpow
      exact pow_ne_zero _ two_ne_zero hpow.symm
    rw [above_of_length_lt pair (by omega)] at hg
    obtain ⟨m, rest, hm, hrest, hcons⟩ := List.forall₂_cons_left_iff.1 hg
    have habove := hrest
    rw [above_of_length_lt pair hl2] at habove
    obtain ⟨below, rfl, rfl⟩ : ∃ below', below = m :: below' ∧ rest = below' ++ [⟨1, .one r⟩] := by
      cases below with
      | nil =>
        obtain rfl := (List.cons.inj hcons).2
        cases habove
      | cons n below =>
        obtain ⟨rfl, hb'⟩ := List.cons.inj hcons
        exact ⟨below, rfl, hb'.symm⟩
    obtain ⟨t, ht', hclimb⟩ := climb_cons index ht hne hb hm (below ++ [⟨2, .two z r⟩]) (by omega)
    obtain ⟨hindex, hdeep'⟩ := deep_succ (by omega) hdeep
    obtain ⟨F, v, hF, hlast, hroot, level, hlevel, hrv⟩ := ih (index + 1) (ht.nextLevel pair) hhalf
      (by omega) ht' hrest (hL' ▸ hdeep')
    refine ⟨⟨(l'.length + 1) / 2, t⟩ :: F, v, ?_, ?_, ?_, level, ?_, hrv⟩
    · rw [List.cons_append, hclimb, if_neg (by omega), if_neg (not_lt.2 hindex), hF]
      rfl
    · rw [frontierLast_cons_cons, hlast]
    · rw [root_of_length_lt pair (by omega), hroot]
    · rw [levels_of_length_lt pair (by omega)]
      exact List.mem_cons_of_mem _ hlevel

/-- The append of a leaf to a forged frontier is not refused, and returns a root that is not the
    one of the leaves, where the pair hash has no collision on their nodes. -/
theorem Forges.append {l : List α} {f : List (Summary α)} (hf : Forges pair l f)
    (hdeep : l.length < 2 ^ 64) (leaf : α) {nodes : Set α}
    (hinj : (nodes ×ˢ nodes).InjOn (Function.uncurry pair))
    (htails : ∀ m ∈ f, ∀ b ∈ m.tail.toList, b ∈ nodes)
    (htree : ∀ t ∈ levels pair (l ++ [leaf]), ∀ b ∈ t, b ∈ nodes) :
    ∃ F, frontierAppend pair f leaf = .ok F ∧ frontierLast F ≠ root pair (l ++ [leaf]) := by
  obtain ⟨first, rest, rfl, hfirst, -, -⟩ := hf.checks
  obtain ⟨⟨h, hpow⟩, g, hg, below, z, r, hzr, rfl, hforged⟩ := hf
  have hl : 2 ≤ l.length := hpow ▸ Nat.le_self_pow (Nat.succ_ne_zero h) 2
  have hne : l ≠ [] := fun hnil => by
    rw [hnil] at hl
    exact absurd hl (by simp)
  have habove := (isFrontier_iff hne).1 hg
  obtain ⟨below, rfl, rfl⟩ : ∃ below', below = first :: below' ∧ rest = below' ++ [⟨2, .two z r⟩] := by
    cases below with
    | nil =>
      obtain ⟨rfl, -⟩ := List.cons.inj hforged
      have htwo : 2 = l.length := hfirst.length
      cases habove with
      | cons hm _ =>
        have hone : 1 = l.length := hm.length
        omega
    | cons m below =>
      obtain ⟨rfl, hrest⟩ := List.cons.inj hforged
      exact ⟨below, rfl, hrest⟩
  obtain ⟨-, hrest⟩ := List.forall₂_cons.1 habove
  obtain ⟨lower, hlower, happend⟩ := exists_lower pair hfirst leaf
  have hmore : (l ++ [leaf]).length = l.length + 1 := by simp
  obtain ⟨F, v, hF, hlast, hroot, t, ht, hr, hv⟩ := climb_forged (z := z) 1 (.append l leaf) hpow
    hmore hlower hrest (by omega)
  refine ⟨lower :: F, by rw [happend, hF]; rfl, fun he => ?_⟩
  rw [hlast, hroot, Option.some.injEq] at he
  have hz : z ∈ nodes := htails ⟨2, .two z r⟩ (by simp) z (by simp [Tail.toList])
  have hzv : (z, v) ∈ nodes ×ˢ nodes := ⟨hz, htree t ht v hv⟩
  have hrv : (r, v) ∈ nodes ×ˢ nodes := ⟨htree t ht r hr, htree t ht v hv⟩
  exact hzr (Prod.mk.inj (hinj hzv hrv he)).1

end SkillRegistry
