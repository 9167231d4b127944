import SkillRegistry.Wire.Parse

/-!
# What a text that is read looks like

What a successful or a failing read says of its text, whatever the hooks.

* `loads_raises`: the exceptions of reading are those of the hooks;
* `Over`: the text read on the way from a text to a rest of it;
* `loads_over`: outside its strings, a text that is read is ASCII, and the strings are
  those of the value.
-/

namespace Wire

variable {ε : Type} {h : Hooks ε}

/-! ## Exceptions -/

variable (h) in
/-- The exceptions of the hooks satisfy `p`. -/
structure Hooks.Raises (p : ε → Prop) : Prop where
  malformed : p h.malformed
  int : ∀ {t e}, h.int t = .error e → p e
  float : ∀ {t e}, h.float t = .error e → p e
  constant : ∀ {t e}, h.constant t = .error e → p e
  pairs : ∀ {members e}, h.pairs members = .error e → p e
  nest : ∀ {depth e}, h.nest depth = some e → p e

theorem Except.map_eq_error {ε α β : Type} {f : α → β} {x : Except ε α} {e : ε}
    (h : x.map f = .error e) : x = .error e := by
  cases x with
  | error e' => exact congrArg Except.error (Except.error.inj h)
  | ok a => cases h

section Raises

variable {p : ε → Prop} (hp : h.Raises p)

include hp

theorem parseAtom_raises {t : PyStr} {e : ε} (he : parseAtom h t = .error e) : p e := by
  unfold parseAtom at he
  split at he
  · rename_i x r hn
    have hx := Except.map_eq_error he
    subst hx
    unfold parseName at hn
    split_ifs at hn with h₁ h₂ h₃ h₄ h₅ h₆ <;> obtain ⟨hw, -⟩ := Prod.mk.inj (Option.some.inj hn)
    · cases hw
    · cases hw
    · cases hw
    · exact hp.constant hw
    · exact hp.constant hw
    · exact hp.constant hw
  · split at he
    · exact hp.float (Except.map_eq_error he)
    · exact hp.int (Except.map_eq_error he)
    · exact Except.error.inj he ▸ hp.malformed

/-- The exceptions of reading are those of the hooks; the induction is on the fuel, over the
    three readers together. -/
theorem parse_raises (fuel : Nat) :
    (∀ depth t e, parseValue h fuel depth t = .error e → p e) ∧
      (∀ depth t e, parseItems h fuel depth t = .error e → p e) ∧
      ∀ depth t e, parseMembers h fuel depth t = .error e → p e := by
  have malformed {α : Type} {e : ε} (he : (.error h.malformed : Except ε α) = .error e) : p e :=
    Except.error.inj he ▸ hp.malformed
  induction fuel with
  | zero =>
    refine ⟨fun _ _ _ he => malformed he, fun _ _ _ he => malformed he, fun _ t _ he => ?_⟩
    cases t <;> exact malformed he
  | succ fuel ih =>
    obtain ⟨ihv, ihi, ihm⟩ := ih
    refine ⟨fun depth t e he => ?_, fun depth t e he => ?_, fun depth t e he => ?_⟩
    · cases t with
      | nil => exact malformed he
      | cons c t =>
        rw [parseValue] at he
        split_ifs at he with h₁ h₂ h₃
        · split at he
          · cases he
          · exact malformed he
        · split at he
          · rename_i e' hnest
            exact Except.error.inj he ▸ hp.nest hnest
          · split at he
            · exact malformed he
            · split_ifs at he
              exact ihi _ _ _ (Except.map_eq_error he)
        · split at he
          · rename_i e' hnest
            exact Except.error.inj he ▸ hp.nest hnest
          · split at he
            · exact malformed he
            · split_ifs at he
              · exact hp.pairs (Except.map_eq_error he)
              · rcases Except.bind_eq_error.1 he with he | ⟨ms, -, he⟩
                · exact ihm _ _ _ he
                · exact hp.pairs (Except.map_eq_error he)
        · exact parseAtom_raises hp he
    · rw [parseItems] at he
      rcases Except.bind_eq_error.1 he with he | ⟨v, -, he⟩
      · exact ihv _ _ _ he
      · split at he
        · exact malformed he
        · split_ifs at he
          · exact ihi _ _ _ (Except.map_eq_error he)
          · exact malformed he
    · cases t with
      | nil => exact malformed he
      | cons c t =>
        rw [parseMembers] at he
        split_ifs at he
        · split at he
          · exact malformed he
          · split at he
            · exact malformed he
            · split_ifs at he
              · rcases Except.bind_eq_error.1 he with he | ⟨v, -, he⟩
                · exact ihv _ _ _ he
                · split at he
                  · exact malformed he
                  · split_ifs at he
                    · exact ihm _ _ _ (Except.map_eq_error he)
                    · exact malformed he
              · exact malformed he
        · exact malformed he

/-- The exceptions of reading are those of the hooks. -/
theorem loads_raises {t : PyStr} {e : ε} (he : loads h t = .error e) : p e := by
  rw [loads] at he
  split_ifs at he
  · exact Except.error.inj he ▸ hp.malformed
  · rcases Except.bind_eq_error.1 he with he | ⟨v, -, he⟩
    · exact (parse_raises hp _).1 _ _ _ he
    · split_ifs at he
      exact Except.error.inj he ▸ hp.malformed

end Raises

/-! ## What is read over -/

/-- From a text to a rest of it, over characters that satisfy `q`. -/
inductive Over (q : CodePoint → Prop) : PyStr → PyStr → Prop
  | refl (t : PyStr) : Over q t t
  | cons {c : CodePoint} {t r : PyStr} (hc : q c) (h : Over q t r) : Over q (c :: t) r

namespace Over

variable {q : CodePoint → Prop} {s t r : PyStr}

theorem trans (hs : Over q s t) (ht : Over q t r) : Over q s r := by
  induction hs with
  | refl => exact ht
  | cons hc _ ih => exact .cons hc (ih ht)

theorem of_append {u : PyStr} (hu : ∀ c ∈ u, q c) : Over q (u ++ r) r := by
  induction u with
  | nil => exact .refl r
  | cons c u ih =>
    obtain ⟨hc, hu⟩ := List.forall_mem_cons.1 hu
    exact .cons hc (ih hu)

theorem of_dropWhile {f : CodePoint → Bool} (hf : ∀ c, f c = true → q c) :
    Over q t (t.dropWhile f) := by
  have h := of_append (u := t.takeWhile f) (r := t.dropWhile f) fun c hc => hf c (List.mem_takeWhile_imp hc)
  rwa [List.takeWhile_append_dropWhile] at h

/-- A text with a known start goes over it. -/
theorem of_isPrefixOf {u : PyStr} (hu : ∀ c ∈ u, q c) (h : u.isPrefixOf t = true) :
    Over q t (t.drop u.length) := by
  obtain ⟨r, rfl⟩ := List.isPrefixOf_iff_prefix.1 h
  rw [List.drop_left]
  exact of_append hu

theorem forall_mem (h : Over q t []) : ∀ c ∈ t, q c := by
  generalize hr : ([] : PyStr) = r at h
  induction h with
  | refl => exact hr ▸ List.forall_mem_nil _
  | cons hc _ ih => exact List.forall_mem_cons.2 ⟨hc, ih hr⟩

end Over

/-- A character that stands in a token which is neither a bracket nor in quotes, or between
    tokens. -/
def IsBare (c : CodePoint) : Prop :=
  0x09 ≤ c.val ∧ c.val < 0x80 ∧ c.val ≠ 0x22 ∧ c.val ≠ 0x7B ∧ c.val ≠ 0x5B ∧ c.val ≠ 0x7D ∧
    c.val ≠ 0x5D

instance (c : CodePoint) : Decidable (IsBare c) := inferInstanceAs (Decidable (_ ∧ _))

section Bare

variable {q : CodePoint → Prop} (hq : ∀ c, IsBare c → q c)

include hq

theorem over_skipBlank (t : PyStr) : Over q t (skipBlank t) := by
  refine Over.of_dropWhile fun c hc => ?_
  simp only [isBlank, Bool.or_eq_true, decide_eq_true_eq] at hc
  rcases hc with ((rfl | rfl) | rfl) | rfl <;> exact hq _ (by decide)

theorem bare_of_isDigit {c : CodePoint} (h : isDigit c = true) : q c := by
  simp only [isDigit, Bool.and_eq_true, decide_eq_true_eq] at h
  refine hq c ?_
  unfold IsBare
  omega

theorem over_scanFraction (t : PyStr) : Over q t (scanFraction t).2 := by
  unfold scanFraction
  split
  · split_ifs with h
    · obtain ⟨rfl, hd⟩ := h
      exact .cons (hq _ (by decide)) (.cons (bare_of_isDigit hq hd)
        (Over.of_dropWhile fun c hc => bare_of_isDigit hq hc))
    · exact .refl _
  · exact .refl _

theorem over_scanExponent (t : PyStr) : Over q t (scanExponent t).2 := by
  have digits (s : PyStr) : Over q s (s.dropWhile isDigit) :=
    Over.of_dropWhile fun c hc => bare_of_isDigit hq hc
  have mark {c : CodePoint} (h : c = cp 'e' ∨ c = cp 'E') : q c := by
    rcases h with rfl | rfl <;> exact hq _ (by decide)
  unfold scanExponent
  split
  · split_ifs with he hd
    · exact .cons (mark he) (.cons (bare_of_isDigit hq hd) (digits _))
    · split
      · split_ifs with hs
        · have hsign : q _ := hs.1.elim (fun h => h ▸ hq (cp '-') (by decide))
            fun h => h ▸ hq (cp '+') (by decide)
          exact .cons (mark he) (.cons hsign (.cons (bare_of_isDigit hq hs.2) (digits _)))
        · exact .refl _
      · exact .refl _
    · exact .refl _
  · exact .refl _

theorem over_scanNumber {t : PyStr} {n : Bool × PyStr × PyStr} (h : scanNumber t = some n) :
    Over q t n.2.2 := by
  have after (i s : PyStr) : Over q s (scanAfter i s).2.2 :=
    (over_scanFraction hq s).trans (over_scanExponent hq _)
  have digits {sign s : PyStr} (hs : scanDigits sign s = some n) : Over q s n.2.2 := by
    cases s with
    | nil => cases hs
    | cons c s =>
      rw [scanDigits] at hs
      split_ifs at hs with h₀ h₁
      · obtain rfl := Option.some.inj hs
        exact .cons (h₀ ▸ hq _ (by decide)) (after _ _)
      · obtain rfl := Option.some.inj hs
        refine .cons (bare_of_isDigit hq h₁) (Over.trans ?_ (after _ _))
        exact Over.of_dropWhile fun c hc => bare_of_isDigit hq hc
  cases t with
  | nil => cases h
  | cons c s =>
    rw [scanNumber] at h
    split_ifs at h with hc
    · exact .cons (hc ▸ hq _ (by decide)) (digits h)
    · exact digits h

theorem over_parseAtom {t r : PyStr} {v : Json} (h : parseAtom h t = .ok (v, r)) : Over q t r := by
  have rest {x : Except ε Json} {s : PyStr} (hx : x.map (·, s) = .ok (v, r)) : s = r := by
    obtain ⟨w, -, he⟩ := Except.map_eq_ok hx
    exact (Prod.mk.inj he).2
  have name {u : PyStr} (hu : u.all (fun c => decide (IsBare c)) = true)
      (hp : u.isPrefixOf t = true) : Over q t (t.drop u.length) := by
    simp only [List.all_eq_true, decide_eq_true_eq] at hu
    exact Over.of_isPrefixOf (fun c hc => hq c (hu c hc)) hp
  unfold parseAtom at h
  split at h
  · rename_i x s hn
    obtain rfl := rest h
    unfold parseName at hn
    split_ifs at hn with h₁ h₂ h₃ h₄ h₅ h₆ <;> obtain ⟨-, rfl⟩ := Prod.mk.inj (Option.some.inj hn)
    · exact name rfl h₁
    · exact name rfl h₂
    · exact name rfl h₃
    · exact name rfl h₄
    · exact name rfl h₅
    · exact name rfl h₆
  · split at h
    · obtain rfl := rest h
      exact over_scanNumber hq ‹_›
    · obtain rfl := rest h
      exact over_scanNumber hq ‹_›
    · cases h

end Bare

section Over

variable {q : CodePoint → Prop} (hq : ∀ c : CodePoint, 0x09 ≤ c.val → c.val < 0x80 → q c)

include hq

theorem bare_of_ascii : ∀ c, IsBare c → q c := fun c hc => hq c hc.1 hc.2.1

omit hq in
/-- A character of a literal that is not written as an escape is one of its string. -/
theorem mem_joinPairs {l : List (CodePoint × Bool)} {c : CodePoint} (h : (c, false) ∈ l) :
    c ∈ joinPairs l := by
  induction l using joinPairs.induct with
  | case1 => cases h
  | case2 d x =>
    obtain ⟨rfl, -⟩ := Prod.mk.inj (List.mem_singleton.1 h)
    exact List.mem_singleton_self c
  | case3 d x e y s hpair ih =>
    rw [joinPairs, if_pos hpair]
    -- Both halves of a pair are escapes.
    simp only [Bool.and_eq_true] at hpair
    rcases List.mem_cons.1 h with h | h
    · cases (Prod.mk.inj h).2.trans hpair.1.1.1
    · rcases List.mem_cons.1 h with h | h
      · cases (Prod.mk.inj h).2.trans hpair.1.1.2
      · exact List.mem_cons_of_mem _ (ih h)
  | case4 d x e y s hpair ih =>
    rw [joinPairs, if_neg hpair]
    rcases List.mem_cons.1 h with h | h
    · exact (Prod.mk.inj h).1 ▸ List.mem_cons_self
    · exact List.mem_cons_of_mem _ (ih h)

theorem ascii_of_hexValue {c : CodePoint} {n : Nat} (h : hexValue c = some n) : q c := by
  unfold hexValue at h
  split_ifs at h
  · exact hq c (by omega) (by omega)
  · exact hq c (by omega) (by omega)
  · exact hq c (by omega) (by omega)

theorem ascii_of_unescape {c d : CodePoint} (h : unescape c = some d) : q c := by
  unfold unescape at h
  split_ifs at h with h₁ h₂ h₃ h₄ h₅ h₆
  · rcases h₁ with rfl | rfl | rfl <;> exact hq _ (by decide) (by decide)
  · exact h₂ ▸ hq _ (by decide) (by decide)
  · exact h₃ ▸ hq _ (by decide) (by decide)
  · exact h₄ ▸ hq _ (by decide) (by decide)
  · exact h₅ ▸ hq _ (by decide) (by decide)
  · exact h₆ ▸ hq _ (by decide) (by decide)

theorem ascii_of_hex4 {w x y z u : CodePoint} (h : hex4 w x y z = some u) :
    q w ∧ q x ∧ q y ∧ q z := by
  simp only [hex4, Option.bind_eq_bind, Option.bind_eq_some_iff] at h
  obtain ⟨_, hw, _, hx, _, hy, _, hz, -⟩ := h
  exact ⟨ascii_of_hexValue hq hw, ascii_of_hexValue hq hx, ascii_of_hexValue hq hy,
    ascii_of_hexValue hq hz⟩

variable {good : CodePoint → Prop} (hgood : ∀ c : CodePoint, 0x20 ≤ c.val → good c → q c)

include hgood

theorem over_scanString {t r : PyStr} {l : List (CodePoint × Bool)}
    (h : scanString t = some (l, r)) (hl : ∀ c, (c, false) ∈ l → good c) : Over q t r := by
  have quote : q (cp '"') := hq _ (by decide) (by decide)
  have backslash : q (cp '\\') := hq _ (by decide) (by decide)
  -- One character or escape, and what follows it.
  have step {s : PyStr} {m : CodePoint × Bool} {l : List (CodePoint × Bool)}
      (hs : (scanString s).map (fun a => (m :: a.1, a.2)) = some (l, r))
      (hl : ∀ c, (c, false) ∈ l → good c) (ih : ∀ {l}, scanString s = some (l, r) → (∀ c, (c, false) ∈ l → good c) → Over q s r) :
      Over q s r ∧ m ∈ l := by
    obtain ⟨a, ha, he⟩ := Option.map_eq_some_iff.1 hs
    obtain ⟨rfl, rfl⟩ := Prod.mk.inj he
    exact ⟨ih ha fun c hc => hl c (List.mem_cons_of_mem _ hc), List.mem_cons_self⟩
  induction t using scanString.induct generalizing l with
  | case1 => cases h
  | case2 s =>
    rw [scanString_quote] at h
    obtain ⟨-, rfl⟩ := Prod.mk.inj (Option.some.inj h)
    exact .cons quote (.refl s)
  | case3 c s hc hcontrol =>
    rw [scanString.eq_def] at h
    simp only [if_neg hc, if_pos hcontrol] at h
    cases h
  | case4 => cases h
  | case5 w x y z s hquote hcontrol ih =>
    cases hu : hex4 w x y z with
    | none =>
      rw [scanString.eq_def] at h
      simp only [if_neg hquote, if_neg hcontrol, if_true, hu, Option.bind_eq_bind,
        Option.bind_none] at h
      cases h
    | some u =>
      rw [scanString_hex4 s hu] at h
      obtain ⟨hw, hx, hy, hz⟩ := ascii_of_hex4 hq hu
      exact .cons backslash (.cons (hq _ (by decide) (by decide)) (.cons hw (.cons hx (.cons hy
        (.cons hz (step h hl ih).1)))))
  | case6 s hs hquote hcontrol =>
    rw [scanString.eq_def] at h
    simp only [if_neg hquote, if_neg hcontrol, if_true] at h
    cases h
  | case7 e s hu hquote hcontrol ih =>
    cases hd : unescape e with
    | none =>
      rw [scanString.eq_def] at h
      simp only [if_neg hquote, if_neg hcontrol, if_true, if_neg hu, hd, Option.bind_eq_bind,
        Option.bind_none] at h
      cases h
    | some d =>
      rw [scanString_unescape s hu hd] at h
      exact .cons backslash (.cons (ascii_of_unescape hq hd) (step h hl ih).1)
  | case8 c s hquote hcontrol hback ih =>
    rw [scanString_plain s hquote hcontrol hback] at h
    obtain ⟨hs, hm⟩ := step h hl ih
    exact .cons (hgood c (by omega) (hl c hm)) hs

theorem over_parseString {t s r : PyStr} (h : parseString t = some (s, r)) (hs : ∀ c ∈ s, good c) :
    Over q t r := by
  obtain ⟨a, ha, he⟩ := Option.map_eq_some_iff.1 h
  obtain ⟨rfl, rfl⟩ := Prod.mk.inj he
  exact over_scanString hq hgood ha fun c hc => hs c (mem_joinPairs hc)

end Over

variable (h) in
/-- The hooks make values that satisfy `p` inside only from strings of good characters. -/
structure Hooks.Reveals (p : Json → Prop) (good : CodePoint → Prop) : Prop where
  str : ∀ {s}, p (.str s) → ∀ c ∈ s, good c
  pairs : ∀ {members v}, h.pairs members = .ok v → v.Every p →
    ∀ m ∈ members, (∀ c ∈ m.1, good c) ∧ m.2.Every p

section Reveals

variable {p : Json → Prop} {good q : CodePoint → Prop} (hp : h.Reveals p good)
  (hq : ∀ c : CodePoint, 0x09 ≤ c.val → c.val < 0x80 → q c)
  (hgood : ∀ c : CodePoint, 0x20 ≤ c.val → good c → q c)

include hp hq hgood

/-- What is read over is ASCII, or stands in a string of the value; the induction is on the
    fuel, over the three readers together. -/
theorem parse_over (fuel : Nat) :
    (∀ depth t v r, parseValue h fuel depth t = .ok (v, r) → v.Every p → Over q t r) ∧
      (∀ depth t vs r, parseItems h fuel depth t = .ok (vs, r) → (∀ v ∈ vs, v.Every p) →
        Over q t r) ∧
      ∀ depth t ms r, parseMembers h fuel depth t = .ok (ms, r) →
        (∀ m ∈ ms, (∀ c ∈ m.1, good c) ∧ m.2.Every p) → Over q t r := by
  -- A token of one character, after white space.
  have token {c d : CodePoint} {t s r : PyStr} (hc : c = d) (hd : 0x09 ≤ d.val ∧ d.val < 0x80)
      (ht : skipBlank t = c :: s) (hs : Over q s r) : Over q t r := by
    have := over_skipBlank (bare_of_ascii hq) t
    rw [ht] at this
    exact this.trans (.cons (hc ▸ hq d hd.1 hd.2) hs)
  induction fuel with
  | zero =>
    refine ⟨fun _ _ _ _ hv => (by cases hv), fun _ _ _ _ hv => (by cases hv), fun _ t _ _ hv => ?_⟩
    cases t <;> cases hv
  | succ fuel ih =>
    obtain ⟨ihv, ihi, ihm⟩ := ih
    refine ⟨fun depth t v r hv hev => ?_, fun depth t vs r hv hev => ?_,
      fun depth t ms r hv hev => ?_⟩
    · cases t with
      | nil => cases hv
      | cons c t =>
        rw [parseValue] at hv
        split_ifs at hv with h₁ h₂ h₃
        · split at hv
          · obtain ⟨rfl, rfl⟩ := Prod.mk.inj (Except.ok.inj hv)
            exact .cons (h₁ ▸ hq _ (by decide) (by decide))
              (over_parseString hq hgood ‹_› (hp.str hev))
          · cases hv
        · refine .cons (h₂ ▸ hq _ (by decide) (by decide)) ?_
          split at hv
          · cases hv
          · split at hv
            · cases hv
            · split_ifs at hv with hd
              · obtain ⟨rfl, rfl⟩ := Prod.mk.inj (Except.ok.inj hv)
                exact token hd (by decide) ‹_› (.refl _)
              · obtain ⟨⟨vs, s⟩, hi, he⟩ := Except.map_eq_ok hv
                obtain ⟨rfl, rfl⟩ := Prod.mk.inj he
                have ht := ihi _ _ _ _ hi (Json.every_arr.1 hev).2
                rename_i d t' htok
                exact (htok ▸ over_skipBlank (bare_of_ascii hq) t).trans ht
        · refine .cons (h₃ ▸ hq _ (by decide) (by decide)) ?_
          split at hv
          · cases hv
          · split at hv
            · cases hv
            · rename_i d t' htok
              split_ifs at hv with hd
              · obtain ⟨w, -, he⟩ := Except.map_eq_ok hv
                obtain ⟨-, rfl⟩ := Prod.mk.inj he
                exact token hd (by decide) htok (.refl _)
              · obtain ⟨⟨ms, s⟩, hm, hv⟩ := Except.bind_eq_ok hv
                obtain ⟨w, hw, he⟩ := Except.map_eq_ok hv
                obtain ⟨rfl, rfl⟩ := Prod.mk.inj he
                exact (htok ▸ over_skipBlank (bare_of_ascii hq) t).trans (ihm _ _ _ _ hm (hp.pairs hw hev))
        · exact over_parseAtom (bare_of_ascii hq) hv
    · rw [parseItems] at hv
      obtain ⟨⟨v, s⟩, hv₁, hv⟩ := Except.bind_eq_ok hv
      split at hv
      · cases hv
      · rename_i c t' htok
        split_ifs at hv with h₁ h₂
        · obtain ⟨rfl, rfl⟩ := Prod.mk.inj (Except.ok.inj hv)
          exact (ihv _ _ _ _ hv₁ (hev v (List.mem_singleton_self v))).trans
            (token h₁ (by decide) htok (.refl _))
        · obtain ⟨⟨ws, s'⟩, hi, he⟩ := Except.map_eq_ok hv
          obtain ⟨rfl, rfl⟩ := Prod.mk.inj he
          obtain ⟨hv', hws⟩ := List.forall_mem_cons.1 hev
          exact (ihv _ _ _ _ hv₁ hv').trans (token h₂ (by decide) htok
            ((over_skipBlank (bare_of_ascii hq) _).trans (ihi _ _ _ _ hi hws)))
    · cases t with
      | nil => cases hv
      | cons c t =>
        rw [parseMembers] at hv
        split_ifs at hv with h₁
        refine .cons (h₁ ▸ hq _ (by decide) (by decide)) ?_
        split at hv
        · cases hv
        · rename_i k t₁ hk
          split at hv
          · cases hv
          · rename_i d t₂ hcolon
            split_ifs at hv with h₂
            obtain ⟨⟨v, s⟩, hv₁, hv⟩ := Except.bind_eq_ok hv
            split at hv
            · cases hv
            · rename_i e t₃ htok
              split_ifs at hv with h₃ h₄
              · obtain ⟨rfl, rfl⟩ := Prod.mk.inj (Except.ok.inj hv)
                obtain ⟨hgk, hgv⟩ := hev _ (List.mem_singleton_self _)
                exact (over_parseString hq hgood hk hgk).trans (token h₂ (by decide) hcolon
                  ((over_skipBlank (bare_of_ascii hq) _).trans ((ihv _ _ _ _ hv₁ hgv).trans
                    (token h₃ (by decide) htok (.refl _)))))
              · obtain ⟨⟨ms, s'⟩, hm, he⟩ := Except.map_eq_ok hv
                obtain ⟨rfl, rfl⟩ := Prod.mk.inj he
                obtain ⟨⟨hgk, hgv⟩, hms⟩ := List.forall_mem_cons.1 hev
                exact (over_parseString hq hgood hk hgk).trans (token h₂ (by decide) hcolon
                  ((over_skipBlank (bare_of_ascii hq) _).trans ((ihv _ _ _ _ hv₁ hgv).trans
                    (token h₄ (by decide) htok
                      ((over_skipBlank (bare_of_ascii hq) _).trans (ihm _ _ _ _ hm hms))))))

/-- Every character of a text that is read is ASCII, or stands in a string of the value. -/
theorem loads_over {t : PyStr} {v : Json} (hv : loads h t = .ok v) (hev : v.Every p) :
    ∀ c ∈ t, q c := by
  rw [loads] at hv
  split_ifs at hv
  obtain ⟨⟨w, r⟩, hw, hv⟩ := Except.bind_eq_ok hv
  split_ifs at hv with hempty
  obtain rfl := Except.ok.inj hv
  have hread := (parse_over hp hq hgood _).1 _ _ _ _ hw hev
  refine ((over_skipBlank (bare_of_ascii hq) t).trans (hread.trans ?_)).forall_mem
  have hend := over_skipBlank (bare_of_ascii hq) r
  rwa [List.isEmpty_iff.1 hempty] at hend

end Reveals

end Wire
