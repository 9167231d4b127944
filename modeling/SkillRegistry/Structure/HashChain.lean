import Mathlib.Data.List.Induction
import Mathlib.Data.Set.Function

/-!
# Hash chains

A chain over a list of bodies: `link` makes the hash of an entry of the hash before
it and its body, starting from a genesis value.

* `head` is the last hash, and `hashes` all of them;
* `inputs` are the arguments of `link` along a chain. Where `link` is injective on
  the inputs of two chains of one length, the chains are the same as soon as their
  heads are (`eq_of_head_eq`), and chains of any lengths where no link is the value they
  start from (`eq_of_head_eq_of_fresh`).
-/

namespace HashChain

variable {κ β : Type} (link : κ → β → κ)

/-- The hash of the last entry, or the genesis value. -/
def head (genesis : κ) (bodies : List β) : κ := bodies.foldl link genesis

/-- The hashes of the entries. -/
def hashes (genesis : κ) : List β → List κ
  | [] => []
  | b :: bodies => link genesis b :: hashes (link genesis b) bodies

/-- The arguments `link` gets along a chain. -/
def inputs (genesis : κ) : List β → List (κ × β)
  | [] => []
  | b :: bodies => (genesis, b) :: inputs (link genesis b) bodies

@[simp] theorem head_nil (g : κ) : head link g [] = g := rfl

@[simp] theorem hashes_length (g : κ) (bs : List β) : (hashes link g bs).length = bs.length := by
  induction bs generalizing g with
  | nil => rfl
  | cons b bs ih => exact congrArg (· + 1) (ih _)

theorem head_append (g : κ) (bs cs : List β) :
    head link g (bs ++ cs) = head link (head link g bs) cs := List.foldl_append

theorem head_concat (g : κ) (bs : List β) (b : β) :
    head link g (bs ++ [b]) = link (head link g bs) b := head_append link g bs [b]

theorem hashes_append (g : κ) (bs cs : List β) :
    hashes link g (bs ++ cs) = hashes link g bs ++ hashes link (head link g bs) cs := by
  induction bs generalizing g with
  | nil => rfl
  | cons b bs ih => exact congrArg (link g b :: ·) (ih _)

theorem hashes_concat (g : κ) (bs : List β) (b : β) :
    hashes link g (bs ++ [b]) = hashes link g bs ++ [link (head link g bs) b] :=
  hashes_append link g bs [b]

theorem inputs_append (g : κ) (bs cs : List β) :
    inputs link g (bs ++ cs) = inputs link g bs ++ inputs link (head link g bs) cs := by
  induction bs generalizing g with
  | nil => rfl
  | cons b bs ih => exact congrArg ((g, b) :: ·) (ih _)

theorem inputs_concat (g : κ) (bs : List β) (b : β) :
    inputs link g (bs ++ [b]) = inputs link g bs ++ [(head link g bs, b)] :=
  inputs_append link g bs [b]

/-- The last hash of a chain is its head. -/
theorem hashes_getLast? (g : κ) (bs : List β) :
    (hashes link g bs).getLast?.getD g = head link g bs := by
  induction bs using List.reverseRecOn with
  | nil => rfl
  | append_singleton bs b _ => rw [hashes_concat, List.getLast?_concat, head_concat, Option.getD_some]

/-- The chain over the first bodies is the first part of the chain. -/
theorem hashes_take (g : κ) (bs : List β) (n : Nat) :
    (hashes link g bs).take n = hashes link g (bs.take n) := by
  induction bs generalizing g n with
  | nil => rw [List.take_nil, hashes, List.take_nil]
  | cons b bs ih =>
    cases n with
    | zero => rfl
    | succ n => rw [hashes, List.take_succ_cons, List.take_succ_cons, hashes, ih]

/-- Two chains that end with a link, and have the same head, have the same last body and the
    same head before it, where the link is injective on what it is applied to. -/
theorem concat_inj {g : κ} {bs cs : List β} {b c : β} {s : Set (κ × β)}
    (hinj : s.InjOn (Function.uncurry link)) (hbs : ∀ x ∈ inputs link g (bs ++ [b]), x ∈ s)
    (hcs : ∀ x ∈ inputs link g (cs ++ [c]), x ∈ s)
    (hhead : head link g (bs ++ [b]) = head link g (cs ++ [c])) :
    head link g bs = head link g cs ∧ b = c := by
  rw [inputs_concat] at hbs hcs
  rw [head_concat, head_concat] at hhead
  have hmem {x : κ × β} {l : List (κ × β)} : x ∈ l ++ [x] := by simp
  exact Prod.mk.inj (hinj (hbs _ hmem) (hcs _ hmem) hhead)

/-- Chains of one length with the same head are the same, where the link is injective on
    what it is applied to. -/
theorem eq_of_head_eq {g : κ} {bs cs : List β} {s : Set (κ × β)}
    (hinj : s.InjOn (Function.uncurry link)) (hbs : ∀ x ∈ inputs link g bs, x ∈ s)
    (hcs : ∀ x ∈ inputs link g cs, x ∈ s) (hlen : bs.length = cs.length)
    (hhead : head link g bs = head link g cs) : bs = cs := by
  induction bs using List.reverseRecOn generalizing cs with
  | nil => exact (List.length_eq_zero_iff.1 hlen.symm).symm
  | append_singleton bs b ih =>
    induction cs using List.reverseRecOn with
    | nil => simp at hlen
    | append_singleton cs c _ =>
      obtain ⟨hprev, rfl⟩ := concat_inj link hinj hbs hcs hhead
      rw [inputs_concat] at hbs hcs
      rw [List.length_append, List.length_append] at hlen
      rw [ih (fun x hx => hbs x (List.mem_append_left _ hx))
        (fun x hx => hcs x (List.mem_append_left _ hx)) (Nat.add_right_cancel hlen) hprev]

/-- Chains with the same head are the same whatever their lengths, where moreover no link is
    the value they start from. -/
theorem eq_of_head_eq_of_fresh {g : κ} {bs cs : List β} {s : Set (κ × β)}
    (hinj : s.InjOn (Function.uncurry link)) (hfresh : ∀ x ∈ s, link x.1 x.2 ≠ g)
    (hbs : ∀ x ∈ inputs link g bs, x ∈ s) (hcs : ∀ x ∈ inputs link g cs, x ∈ s)
    (hhead : head link g bs = head link g cs) : bs = cs := by
  have hne {ds : List β} {d : β} (hds : ∀ x ∈ inputs link g (ds ++ [d]), x ∈ s) :
      head link g (ds ++ [d]) ≠ g := by
    rw [inputs_concat] at hds
    rw [head_concat]
    exact hfresh (head link g ds, d) (hds _ (by simp))
  induction bs using List.reverseRecOn generalizing cs with
  | nil =>
    induction cs using List.reverseRecOn with
    | nil => rfl
    | append_singleton cs c _ => exact absurd hhead.symm (hne hcs)
  | append_singleton bs b ih =>
    induction cs using List.reverseRecOn with
    | nil => exact absurd hhead (hne hbs)
    | append_singleton cs c _ =>
      obtain ⟨hprev, rfl⟩ := concat_inj link hinj hbs hcs hhead
      rw [inputs_concat] at hbs hcs
      rw [ih (fun x hx => hbs x (List.mem_append_left _ hx))
        (fun x hx => hcs x (List.mem_append_left _ hx)) hprev]

end HashChain
