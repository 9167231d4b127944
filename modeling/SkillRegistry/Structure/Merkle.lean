import Mathlib.Data.List.Induction
import Mathlib.Data.List.Forall2
import Mathlib.Data.Set.Function
import Mathlib.Data.List.Nodup
import Mathlib.Data.Set.Prod
import Mathlib.Tactic.Ring

/-!
# Merkle trees over lists

The binary tree over a list of leaves in which the last node of an odd level is
paired with itself. Level by level, `nextLevel` pairs neighbours until one node is
left.

* `levels` is the list of the levels, from the leaves up, and `root` their last node;
* `Touches` relates two levels that differ in their last node only, or of which the
  second has one more: appending a leaf touches every level (`Touches.nextLevel`);
* `Summary` is what an incremental tree keeps of a level: its length and its last
  one or two nodes;
* `eq_of_root_eq`: without a collision among the pairs `hashed`, a root has one list of
  leaves of each length.
-/

namespace Merkle

variable {α : Type} (pair : α → α → α)

/-- The level above a level. -/
def nextLevel : List α → List α
  | [] => []
  | [a] => [pair a a]
  | a :: b :: s => pair a b :: nextLevel s

theorem nextLevel_length (l : List α) : (nextLevel pair l).length = (l.length + 1) / 2 := by
  fun_induction nextLevel with
  | case1 => simp
  | case2 => simp
  | case3 a b s ih =>
    simp only [List.length_cons, ih]
    omega

/-- A level above shrinks as long as there are two nodes. -/
theorem nextLevel_length_lt {l : List α} (h : 1 < l.length) :
    (nextLevel pair l).length < l.length := by
  rw [nextLevel_length]
  omega

theorem nextLevel_ne_nil {l : List α} (h : l ≠ []) : nextLevel pair l ≠ [] := fun e => by
  have hl := List.length_pos_iff.2 h
  have := nextLevel_length pair l
  rw [e, List.length_nil] at this
  omega

/-- The nodes before an even position are paired on their own. -/
theorem nextLevel_append {s : List α} (h : s.length % 2 = 0) (t : List α) :
    nextLevel pair (s ++ t) = nextLevel pair s ++ nextLevel pair t := by
  fun_induction nextLevel pair s with
  | case1 => rfl
  | case2 => simp at h
  | case3 a b s ih =>
    simp only [List.length_cons] at h
    rw [List.cons_append, List.cons_append, nextLevel, ih (by omega), List.cons_append]

/-! ## The levels of a tree -/

/-- The levels from a level up, of which there are at most `fuel`. -/
def levelsAux : Nat → List α → List (List α)
  | 0, _ => []
  | fuel + 1, l => if l.length ≤ 1 then [l] else l :: levelsAux fuel (nextLevel pair l)

/-- The levels of the tree over some leaves, from the leaves up. -/
def levels (l : List α) : List (List α) := levelsAux pair (l.length + 1) l

/-- Any fuel above the length gives the same levels. -/
theorem levelsAux_eq {fuel : Nat} {l : List α} (h : l.length < fuel) :
    levelsAux pair fuel l = levels pair l := by
  induction hn : l.length using Nat.strongRecOn generalizing fuel l with
  | ind n ih =>
    obtain ⟨fuel, rfl⟩ : ∃ m, fuel = m + 1 := ⟨fuel - 1, by omega⟩
    rw [levels, levelsAux, levelsAux]
    split_ifs with hl
    · rfl
    · have hlt := nextLevel_length_lt pair (not_le.1 hl)
      rw [ih _ (hn ▸ hlt) (by omega) rfl, ih _ (hn ▸ hlt) hlt rfl]

theorem levels_of_length_le {l : List α} (h : l.length ≤ 1) : levels pair l = [l] := by
  rw [levels, levelsAux, if_pos h]

theorem levels_of_length_lt {l : List α} (h : 1 < l.length) :
    levels pair l = l :: levels pair (nextLevel pair l) := by
  rw [levels, levelsAux, if_neg (not_le.2 h), levelsAux_eq pair (nextLevel_length_lt pair h)]

/-- Induction on a tree, from its root down to its leaves. -/
theorem levels_induction {motive : List α → Prop} (one : ∀ l, l.length ≤ 1 → motive l)
    (more : ∀ l, 1 < l.length → motive (nextLevel pair l) → motive l) (l : List α) : motive l := by
  induction hn : l.length using Nat.strongRecOn generalizing l with
  | ind n ih =>
    rcases Nat.lt_or_ge 1 l.length with h | h
    · exact more l h (ih _ (hn ▸ nextLevel_length_lt pair h) _ rfl)
    · exact one l h

/-- The nodes above the leaves: pairing neighbours as long as there are two nodes. -/
def reduce : Nat → List α → List α
  | 0, l => l
  | fuel + 1, l => if 1 < l.length then reduce fuel (nextLevel pair l) else l

/-- The root of the tree, the single node of its last level. -/
def root (l : List α) : Option α := (reduce pair l.length l).head?

theorem reduce_of_length_le {l : List α} (h : l.length ≤ 1) (fuel : Nat) :
    reduce pair fuel l = l := by
  cases fuel with
  | zero => rfl
  | succ fuel => rw [reduce, if_neg (not_lt.2 h)]

/-- Any fuel from the length on gives the same node. -/
theorem reduce_eq {l : List α} {m n : Nat} (hm : l.length ≤ m) (hn : l.length ≤ n) :
    reduce pair m l = reduce pair n l := by
  induction l using levels_induction pair generalizing m n with
  | one l h => rw [reduce_of_length_le pair h, reduce_of_length_le pair h]
  | more l h ih =>
    obtain ⟨m, rfl⟩ : ∃ k, m = k + 1 := ⟨m - 1, by omega⟩
    obtain ⟨n, rfl⟩ : ∃ k, n = k + 1 := ⟨n - 1, by omega⟩
    have hlt := nextLevel_length_lt pair h
    rw [reduce, reduce, if_pos h, if_pos h]
    exact ih (by omega) (by omega)

theorem root_of_length_le {l : List α} (h : l.length ≤ 1) : root pair l = l.head? := by
  rw [root, reduce_of_length_le pair h]

theorem root_of_length_lt {l : List α} (h : 1 < l.length) :
    root pair l = root pair (nextLevel pair l) := by
  obtain ⟨n, hn⟩ : ∃ n, l.length = n + 1 := ⟨l.length - 1, by omega⟩
  have hlt := nextLevel_length_lt pair h
  rw [root, hn, reduce, if_pos h, root, reduce_eq pair (by omega) le_rfl]

/-- A tree with a leaf has a root. -/
theorem root_isSome {l : List α} (h : l ≠ []) : (root pair l).isSome := by
  induction l using levels_induction pair with
  | one l hl =>
    rw [root_of_length_le pair hl]
    cases l with
    | nil => exact absurd rfl h
    | cons a l => rfl
  | more l hl ih =>
    rw [root_of_length_lt pair hl]
    exact ih (nextLevel_ne_nil pair h)

/-- A predicate of the nodes of a level that pairing keeps holds of the nodes above. -/
theorem forall_mem_nextLevel {p : α → Prop} (hp : ∀ a b, p a → p b → p (pair a b)) {l : List α}
    (hl : ∀ a ∈ l, p a) : ∀ a ∈ nextLevel pair l, p a := by
  fun_induction nextLevel pair l with
  | case1 => exact List.forall_mem_nil _
  | case2 a =>
    have ha := hl a (List.mem_singleton_self _)
    exact List.forall_mem_singleton.2 (hp a a ha ha)
  | case3 a b s ih =>
    obtain ⟨ha, hl⟩ := List.forall_mem_cons.1 hl
    obtain ⟨hb, hs⟩ := List.forall_mem_cons.1 hl
    exact List.forall_mem_cons.2 ⟨hp a b ha hb, ih hs⟩

/-- A predicate of the leaves that pairing keeps holds of the root. -/
theorem root_mem {p : α → Prop} (hp : ∀ a b, p a → p b → p (pair a b)) {l : List α}
    (hl : ∀ a ∈ l, p a) {r : α} (hr : root pair l = some r) : p r := by
  induction l using levels_induction pair with
  | one l h =>
    rw [root_of_length_le pair h] at hr
    exact hl r (List.mem_of_head? hr)
  | more l h ih =>
    rw [root_of_length_lt pair h] at hr
    exact ih (forall_mem_nextLevel pair hp hl) hr

/-! ## Appending a leaf -/

/-- The second level is the first one with its last node replaced, or with one more
    node. -/
inductive Touches : List α → List α → Prop
  | replace (s : List α) (a b : α) : Touches (s ++ [a]) (s ++ [b])
  | append (s : List α) (b : α) : Touches s (s ++ [b])

/-- The last one or two nodes of a level. -/
inductive Tail (α : Type) where
  | one (last : α)
  | two (before last : α)
  deriving DecidableEq, Repr

namespace Tail

/-- The nodes of a tail. -/
def toList : Tail α → List α
  | one b => [b]
  | two a b => [a, b]

/-- The last node. -/
def last : Tail α → α
  | one b => b
  | two _ b => b

/-- The first node. -/
def first : Tail α → α
  | one b => b
  | two a _ => a

/-- The node before the last one. -/
def before : Tail α → Option α
  | one _ => none
  | two a _ => some a

end Tail

/-- The length of a level and its last nodes. -/
structure Summary (α : Type) where
  length : Nat
  tail : Tail α
  deriving DecidableEq, Repr

/-- `t` is the tail of a level: its last node, or its last two. -/
inductive IsTail : List α → Tail α → Prop
  | one (b : α) : IsTail [b] (.one b)
  | two (s : List α) (a b : α) : IsTail (s ++ [a, b]) (.two a b)

/-- `m` is the summary of a level. -/
structure Summarizes (l : List α) (m : Summary α) : Prop where
  length : m.length = l.length
  tail : IsTail l m.tail

theorem IsTail.ne_nil {l : List α} {t : Tail α} (h : IsTail l t) : l ≠ [] := by
  cases h <;> simp

theorem IsTail.getLast? {l : List α} {t : Tail α} (h : IsTail l t) : l.getLast? = some t.last := by
  cases h <;> simp [Tail.last]

/-- A level has one tail. -/
theorem IsTail.unique {l : List α} {t u : Tail α} (ht : IsTail l t) (hu : IsTail l u) : t = u := by
  cases ht with
  | one b =>
    generalize hl : [b] = l at hu
    cases hu with
    | one c => rw [(List.cons.inj hl).1]
    | two s c d => exact absurd (congrArg List.length hl) (by simp)
  | two s a b =>
    generalize hl : s ++ [a, b] = l at hu
    cases hu with
    | one c => exact absurd (congrArg List.length hl) (by simp)
    | two s' c d =>
      obtain ⟨-, h⟩ := List.append_inj' hl rfl
      simp only [List.cons.injEq, and_true] at h
      rw [h.1, h.2]

theorem Summarizes.unique {l : List α} {m n : Summary α} (hm : Summarizes l m)
    (hn : Summarizes l n) : m = n := by
  obtain ⟨a, s⟩ := m
  obtain ⟨b, t⟩ := n
  obtain rfl : a = b := hm.length.trans hn.length.symm
  obtain rfl : s = t := hm.tail.unique hn.tail
  rfl

theorem IsTail.subset {l : List α} {t : Tail α} (h : IsTail l t) : ∀ b ∈ t.toList, b ∈ l := by
  cases h <;> simp [Tail.toList]

/-- A level that is not empty has a tail. -/
theorem exists_isTail {l : List α} (h : l ≠ []) : ∃ t, IsTail l t := by
  induction l using List.reverseRecOn with
  | nil => exact absurd rfl h
  | append_singleton l b _ =>
    induction l using List.reverseRecOn with
    | nil => exact ⟨_, .one b⟩
    | append_singleton l a _ =>
      rw [List.append_assoc]
      exact ⟨_, .two l a b⟩

theorem IsTail.append {l : List α} {t : Tail α} (h : IsTail l t) (b : α) :
    IsTail (l ++ [b]) (.two t.last b) := by
  cases h with
  | one a => exact .two [] a b
  | two s a c =>
    have := IsTail.two (s ++ [a]) c b
    rw [List.append_assoc] at this ⊢
    exact this

/-- The last node of the level above a level with an odd number of nodes. -/
theorem nextLevel_getLast?_odd {l : List α} {t : Tail α} (ht : IsTail l t)
    (h : l.length % 2 = 1) : (nextLevel pair l).getLast? = some (pair t.last t.last) := by
  obtain ⟨s, rfl⟩ := List.getLast?_eq_some_iff.1 ht.getLast?
  rw [List.length_append, List.length_singleton] at h
  rw [nextLevel_append pair (by omega), nextLevel, List.getLast?_append]
  rfl

/-- The last node of the level above a level with an even number of nodes. -/
theorem nextLevel_getLast?_even {s : List α} {a b : α} (h : s.length % 2 = 0) :
    (nextLevel pair (s ++ [a, b])).getLast? = some (pair a b) := by
  rw [nextLevel_append pair h, nextLevel, nextLevel, List.getLast?_append]
  rfl

/-- A level touched below is touched above. -/
theorem Touches.nextLevel {l m : List α} (h : Touches l m) :
    Touches (nextLevel pair l) (nextLevel pair m) := by
  have split (s : List α) (hs : s.length % 2 = 1) : ∃ t c, s = t ++ [c] ∧ t.length % 2 = 0 := by
    induction s using List.reverseRecOn with
    | nil => simp at hs
    | append_singleton t c _ =>
      rw [List.length_append, List.length_singleton] at hs
      exact ⟨t, c, rfl, by omega⟩
  cases h with
  | replace s a b =>
    rcases Nat.mod_two_eq_zero_or_one s.length with hs | hs
    · rw [nextLevel_append pair hs, nextLevel_append pair hs]
      exact .replace _ _ _
    · obtain ⟨t, c, rfl, ht⟩ := split s hs
      rw [List.append_assoc, List.append_assoc, nextLevel_append pair ht, nextLevel_append pair ht]
      exact .replace _ _ _
  | append b =>
    rcases Nat.mod_two_eq_zero_or_one l.length with hs | hs
    · rw [nextLevel_append pair hs]
      exact .append _ _
    · obtain ⟨t, c, rfl, ht⟩ := split l hs
      rw [List.append_assoc, nextLevel_append pair ht, nextLevel_append pair ht]
      exact .replace _ _ _

theorem Touches.ne_nil {l m : List α} (h : Touches l m) : m ≠ [] := by
  cases h <;> simp

theorem Touches.length {l m : List α} (h : Touches l m) :
    l.length ≤ m.length ∧ m.length ≤ l.length + 1 := by
  cases h <;> simp

/-- The levels above a level. -/
def above (l : List α) : List (List α) := (levels pair l).tail

theorem levels_eq (l : List α) : levels pair l = l :: above pair l := by
  rcases Nat.lt_or_ge 1 l.length with h | h
  · rw [above, levels_of_length_lt pair h, List.tail_cons]
  · rw [above, levels_of_length_le pair h, List.tail_cons]

theorem above_of_length_le {l : List α} (h : l.length ≤ 1) : above pair l = [] := by
  rw [above, levels_of_length_le pair h, List.tail_cons]

theorem above_of_length_lt {l : List α} (h : 1 < l.length) :
    above pair l = nextLevel pair l :: above pair (nextLevel pair l) := by
  rw [above, levels_of_length_lt pair h, List.tail_cons, levels_eq]

/-- The root is the last node of the last level. -/
theorem root_eq (l : List α) : root pair l = ((levels pair l).getLast?).bind List.getLast? := by
  induction l using levels_induction pair with
  | one l h =>
    rw [root_of_length_le pair h, levels_of_length_le pair h]
    match l, h with
    | [], _ => rfl
    | [a], _ => rfl
  | more l h ih =>
    rw [root_of_length_lt pair h, levels_of_length_lt pair h, ih, levels_eq]
    rfl

/-- Every level of a tree with a leaf has a node. -/
theorem ne_nil_of_mem_levels {l : List α} (hl : l ≠ []) : ∀ t ∈ levels pair l, t ≠ [] := by
  induction l using levels_induction pair with
  | one l h =>
    rw [levels_of_length_le pair h]
    exact List.forall_mem_singleton.2 hl
  | more l h ih =>
    rw [levels_of_length_lt pair h]
    exact List.forall_mem_cons.2 ⟨hl, ih (nextLevel_ne_nil pair hl)⟩

/-- Every tree with a leaf has summaries of its levels. -/
theorem exists_summaries {l : List α} (hl : l ≠ []) :
    ∃ f, List.Forall₂ Summarizes (levels pair l) f := by
  have hne := ne_nil_of_mem_levels pair hl
  generalize levels pair l = ls at hne
  induction ls with
  | nil => exact ⟨[], .nil⟩
  | cons t ls ih =>
    obtain ⟨ht, hrest⟩ := List.forall_mem_cons.1 hne
    obtain ⟨f, hf⟩ := ih hrest
    obtain ⟨tail, htail⟩ := exists_isTail ht
    exact ⟨⟨t.length, tail⟩ :: f, .cons ⟨rfl, htail⟩ hf⟩

/-- A node above a level is the hash of two nodes of the level. -/
theorem mem_nextLevel {l : List α} {c : α} (h : c ∈ nextLevel pair l) :
    ∃ a ∈ l, ∃ b ∈ l, c = pair a b := by
  fun_induction nextLevel pair l with
  | case1 => cases h
  | case2 a => exact ⟨a, by simp, a, by simp, List.mem_singleton.1 h⟩
  | case3 a b s ih =>
    rcases List.mem_cons.1 h with rfl | h
    · exact ⟨a, by simp, b, by simp, rfl⟩
    · obtain ⟨x, hx, y, hy, rfl⟩ := ih h
      exact ⟨x, by simp [hx], y, by simp [hy], rfl⟩

/-- Where the pair hash has no collision on some nodes, the levels above distinct leaves among
    them have distinct nodes. -/
theorem nodup_of_mem_levels {nodes : Set α}
    (hinj : (nodes ×ˢ nodes).InjOn (Function.uncurry pair)) {l : List α} (hl : l.Nodup)
    (hnodes : ∀ t ∈ levels pair l, ∀ a ∈ t, a ∈ nodes) : ∀ t ∈ levels pair l, t.Nodup := by
  have next {s : List α} (hs : s.Nodup) (hn : ∀ a ∈ s, a ∈ nodes) : (nextLevel pair s).Nodup := by
    fun_induction nextLevel pair s with
    | case1 => exact List.nodup_nil
    | case2 a => exact List.nodup_singleton _
    | case3 a b s ih =>
      obtain ⟨ha, hs⟩ := List.nodup_cons.1 hs
      obtain ⟨hna, hn⟩ := List.forall_mem_cons.1 hn
      obtain ⟨hnb, hn⟩ := List.forall_mem_cons.1 hn
      refine List.nodup_cons.2 ⟨fun hmem => ?_, ih (List.nodup_cons.1 hs).2 hn⟩
      obtain ⟨x, hx, y, hy, he⟩ := mem_nextLevel pair hmem
      have hab : (a, b) ∈ nodes ×ˢ nodes := ⟨hna, hnb⟩
      have hxy : (x, y) ∈ nodes ×ˢ nodes := ⟨hn x hx, hn y hy⟩
      obtain ⟨rfl, -⟩ := Prod.mk.inj (hinj hab hxy he)
      exact ha (List.mem_cons_of_mem _ hx)
  induction l using levels_induction pair with
  | one l h =>
    rw [levels_of_length_le pair h]
    exact List.forall_mem_singleton.2 hl
  | more l h ih =>
    rw [levels_of_length_lt pair h] at hnodes ⊢
    obtain ⟨hleaves, habove⟩ := List.forall_mem_cons.1 hnodes
    exact List.forall_mem_cons.2 ⟨hl, ih (next hl hleaves) habove⟩

/-! ## What a root says of its leaves -/

/-- The pairs of neighbours of a level, of which the level above holds the hashes. -/
def neighbours : List α → List (α × α)
  | [] => []
  | [a] => [(a, a)]
  | a :: b :: s => (a, b) :: neighbours s

theorem nextLevel_eq_map (l : List α) :
    nextLevel pair l = (neighbours l).map (Function.uncurry pair) := by
  fun_induction nextLevel pair l with
  | case1 => rfl
  | case2 => rfl
  | case3 a b s ih =>
    rw [neighbours, List.map_cons, ih]
    rfl

/-- Levels of one length are equal when their neighbours are: a node paired with itself does
    not pass for two nodes. -/
theorem eq_of_neighbours_eq {l m : List α} (hlen : l.length = m.length)
    (h : neighbours l = neighbours m) : l = m := by
  fun_induction neighbours l generalizing m with
  | case1 => exact (List.length_eq_zero_iff.1 hlen.symm).symm
  | case2 a =>
    obtain ⟨b, rfl⟩ := List.length_eq_one_iff.1 hlen.symm
    obtain ⟨h, -⟩ := List.cons.inj h
    rw [(Prod.mk.inj h).1]
  | case3 a b s ih =>
    obtain ⟨c, d, t, rfl⟩ : ∃ c d t, m = c :: d :: t := by
      obtain ⟨c, m, rfl⟩ := List.exists_cons_of_length_eq_add_one hlen.symm
      obtain ⟨d, t, rfl⟩ := List.exists_cons_of_length_eq_add_one (Nat.succ.inj hlen).symm
      exact ⟨c, d, t, rfl⟩
    obtain ⟨hab, hrest⟩ := List.cons.inj h
    have hst : s.length = t.length := Nat.succ.inj (Nat.succ.inj hlen)
    rw [(Prod.mk.inj hab).1, (Prod.mk.inj hab).2, ih hst hrest]

/-- A function without collision in a set is injective on lists of its elements. -/
theorem eq_of_map_eq {β γ : Type} {f : β → γ} {s : Set β} (hinj : s.InjOn f) {l m : List β}
    (hl : ∀ p ∈ l, p ∈ s) (hm : ∀ p ∈ m, p ∈ s) (h : l.map f = m.map f) : l = m := by
  induction l generalizing m with
  | nil => exact (List.map_eq_nil_iff.1 h.symm).symm
  | cons a l ih =>
    obtain ⟨b, m, rfl, hab, hlm⟩ := List.map_eq_cons_iff.1 h.symm
    obtain ⟨ha, hl⟩ := List.forall_mem_cons.1 hl
    obtain ⟨hb, hm⟩ := List.forall_mem_cons.1 hm
    rw [hinj hb ha hab, ih hl hm hlm.symm]

/-- The pairs hashed to compute a root. -/
def hashed (l : List α) : List (α × α) := (levels pair l).dropLast.flatMap neighbours

theorem hashed_of_length_lt {l : List α} (h : 1 < l.length) :
    hashed pair l = neighbours l ++ hashed pair (nextLevel pair l) := by
  rw [hashed, levels_of_length_lt pair h, List.dropLast_cons_of_ne_nil, List.flatMap_cons]
  · rfl
  · rw [levels_eq]
    exact List.cons_ne_nil _ _

theorem mem_of_mem_neighbours {l : List α} {q : α × α} (h : q ∈ neighbours l) :
    q.1 ∈ l ∧ q.2 ∈ l := by
  fun_induction neighbours l with
  | case1 => cases h
  | case2 a =>
    rw [List.mem_singleton.1 h]
    exact ⟨List.mem_singleton_self a, List.mem_singleton_self a⟩
  | case3 a b s ih =>
    rcases List.mem_cons.1 h with rfl | h
    · exact ⟨List.mem_cons_self, List.mem_cons_of_mem _ List.mem_cons_self⟩
    · obtain ⟨h₁, h₂⟩ := ih h
      exact ⟨List.mem_cons_of_mem _ (List.mem_cons_of_mem _ h₁),
        List.mem_cons_of_mem _ (List.mem_cons_of_mem _ h₂)⟩

/-- A predicate of the leaves that pairing keeps holds of all that is hashed. -/
theorem forall_mem_hashed {p : α → Prop} (hp : ∀ a b, p a → p b → p (pair a b)) {l : List α}
    (hl : ∀ a ∈ l, p a) : ∀ q ∈ hashed pair l, p q.1 ∧ p q.2 := by
  induction l using levels_induction pair with
  | one l h =>
    rw [hashed, levels_of_length_le pair h]
    exact List.forall_mem_nil _
  | more l h ih =>
    rw [hashed_of_length_lt pair h]
    refine List.forall_mem_append.2 ⟨fun q hq => ?_, ih (forall_mem_nextLevel pair hp hl)⟩
    obtain ⟨h₁, h₂⟩ := mem_of_mem_neighbours hq
    exact ⟨hl _ h₁, hl _ h₂⟩

/-- Where the pair hash has no collision among the pairs hashed for two lists of one length,
    the lists have one root only when they are one list. -/
theorem eq_of_root_eq {s : Set (α × α)} (hinj : s.InjOn (Function.uncurry pair)) {l m : List α}
    (hlen : l.length = m.length) (hl : ∀ p ∈ hashed pair l, p ∈ s)
    (hm : ∀ p ∈ hashed pair m, p ∈ s) (h : root pair l = root pair m) : l = m := by
  induction l using levels_induction pair generalizing m with
  | one l hone =>
    rw [root_of_length_le pair hone, root_of_length_le pair (hlen ▸ hone)] at h
    exact List.ext_getElem? fun n => by
      rcases n with _ | n
      · rw [← List.head?_eq_getElem?, ← List.head?_eq_getElem?, h]
      · rw [List.getElem?_eq_none (by omega), List.getElem?_eq_none (by omega)]
  | more l hmore ih =>
    have hmore' : 1 < m.length := hlen ▸ hmore
    rw [root_of_length_lt pair hmore, root_of_length_lt pair hmore'] at h
    rw [hashed_of_length_lt pair hmore] at hl
    rw [hashed_of_length_lt pair hmore'] at hm
    obtain ⟨hl, habove⟩ := List.forall_mem_append.1 hl
    obtain ⟨hm, habove'⟩ := List.forall_mem_append.1 hm
    -- The levels above have one length too, so they are one level by induction.
    have hnext := ih (by rw [nextLevel_length, nextLevel_length, hlen]) habove habove' h
    rw [nextLevel_eq_map, nextLevel_eq_map] at hnext
    exact eq_of_neighbours_eq hlen (eq_of_map_eq hinj hl hm hnext)

end Merkle
