import SkillRegistry.Run

/-!
# The high water of an upstream key

What the transactions of competing importers do to the highest accepted snapshots, in
whatever order they take effect.

* `Offered` is all that an accepted offer does to the rows, and `Performs.offered` that
  it does;
* `refused_of_conflict` says that an offer that conflicts with the persisted snapshot
  is refused, before any record is appended;
* `UpstreamGuard` is the protection one call gives, and `upstreamHighWater_guarded` says
  that every call of every run gives it.
-/

namespace SkillRegistry

open Wire

variable (P : Platform)

/-! ## Offers -/

/-- The snapshot a call offers. -/
def Call.offered : Call → Option UpstreamHighWater
  | appendImports _ _ highWater => highWater
  | appendUpstreamImport _ _ offered _ => some offered
  | append .. | appendIdempotent .. => none

/-- The call has `accept_older_upstream`. -/
def Call.acceptsOlder : Call → Bool
  | appendUpstreamImport _ _ _ acceptOlder => acceptOlder
  | append .. | appendIdempotent .. | appendImports .. => false

namespace UpstreamHighWater

/-- Two snapshots have the same body. -/
def SameBody (a b : UpstreamHighWater) : Prop :=
  b.version = a.version ∧ b.head = a.head ∧ b.merkleRoot = a.merkleRoot ∧ b.logSize = a.logSize

/-- A row may become another: the version does not decrease, and the body stays while the
    version does. -/
def AdvancesTo (a b : UpstreamHighWater) : Prop :=
  a.version ≤ b.version ∧ (b.version = a.version → a.SameBody b)

theorem SameBody.refl (a : UpstreamHighWater) : a.SameBody a := ⟨rfl, rfl, rfl, rfl⟩

theorem SameBody.trans {a b c : UpstreamHighWater} (h : a.SameBody b) (h' : b.SameBody c) :
    a.SameBody c :=
  ⟨h'.1.trans h.1, h'.2.1.trans h.2.1, h'.2.2.1.trans h.2.2.1, h'.2.2.2.trans h.2.2.2⟩

theorem AdvancesTo.refl (a : UpstreamHighWater) : a.AdvancesTo a := ⟨le_rfl, fun _ => .refl a⟩

theorem AdvancesTo.trans {a b c : UpstreamHighWater} (h : a.AdvancesTo b) (h' : b.AdvancesTo c) :
    a.AdvancesTo c := by
  refine ⟨h.1.trans h'.1, fun heq => ?_⟩
  have hb : b.version = a.version := le_antisymm (heq ▸ h'.1) h.1
  exact (h.2 hb).trans (h'.2 (heq.trans hb.symm))

end UpstreamHighWater

/-- What an accepted offer does to the rows. -/
inductive Offered (call : Call) (o : UpstreamHighWater) (t : Table UpstreamHighWater.keyId) :
    Table UpstreamHighWater.keyId → Prop
  /-- It is above the persisted snapshot, or the first. -/
  | advance (above : ∀ row, t.find? o.keyId = some row → row.version < o.version) :
      Offered call o t (t.put o)
  /-- `append_imports` writes an identical snapshot again. -/
  | refresh {row : UpstreamHighWater} (found : t.find? o.keyId = some row) (same : row.SameBody o)
      (imports : ∃ records createdAt, call = .appendImports records createdAt (some o)) :
      Offered call o t (t.put o)
  /-- `append_upstream_import` leaves an identical snapshot. -/
  | noop {row : UpstreamHighWater} (found : t.find? o.keyId = some row) (same : row.SameBody o) :
      Offered call o t t
  /-- An older snapshot is accepted on request. -/
  | older {row : UpstreamHighWater} (found : t.find? o.keyId = some row)
      (below : o.version < row.version) (accepts : call.acceptsOlder = true) : Offered call o t t

/-- No diagnostic is raised on an offer that is above the persisted snapshot, or identical. -/
theorem upstreamOfferDiagnostic_eq_none {row o : UpstreamHighWater}
    (h : upstreamOfferDiagnostic row o = none) : row.version < o.version ∨ row.SameBody o := by
  unfold upstreamOfferDiagnostic at h
  split_ifs at h with h₁ h₂
  by_cases heq : o.version = row.version
  · refine .inr ⟨heq, ?_⟩
    simpa only [heq, true_and, ne_eq, not_or, not_not] using h₂
  · exact .inl (by omega)

theorem upstreamOfferDiagnostic_eq_rollback {row o : UpstreamHighWater}
    (h : upstreamOfferDiagnostic row o = some .rollback) : o.version < row.version := by
  by_contra hlt
  rw [upstreamOfferDiagnostic, if_neg hlt] at h
  split_ifs at h
  cases h

/-- An offer is refused as a rollback below the persisted version. -/
theorem upstreamOfferDiagnostic_of_lt {row o : UpstreamHighWater} (h : o.version < row.version) :
    upstreamOfferDiagnostic row o = some .rollback := if_pos h

/-- An offer is inconsistent at the persisted version with another body. -/
theorem upstreamOfferDiagnostic_of_ne {row o : UpstreamHighWater} (hv : o.version = row.version)
    (hb : ¬row.SameBody o) : upstreamOfferDiagnostic row o = some .inconsistent := by
  rw [upstreamOfferDiagnostic, if_neg (by omega), if_pos]
  refine ⟨hv, ?_⟩
  by_contra hne
  simp only [ne_eq, not_or, not_not] at hne
  exact hb ⟨hv, hne⟩

variable {P}

/-- A call that commits its offer does to the rows what `Offered` says. -/
theorem Performs.offered {call : Call} {db db' : Db} {response : Response}
    {published : Option LogEntry} (h : Performs P call db response published db')
    {o : UpstreamHighWater} (ho : call.offered = some o) :
    Scalar o.keyId ∧ Offered call o db.highWater db'.highWater := by
  cases h with
  | append | replay | submit | imports => cases ho
  | @importsOffered records createdAt offered _ _ _ bound accepted h =>
    obtain rfl := Option.some.inj ho
    refine ⟨bound, ?_⟩
    rw [Db.putHighWater, h.frame.2.2.2.2]
    cases hfind : db.highWater.find? offered.keyId with
    | none => exact .advance fun row hrow => by rw [hfind] at hrow; cases hrow
    | some row =>
      rw [hfind, importsDecision] at accepted
      split at accepted
      · cases accepted
      · rename_i hnone
        rcases upstreamOfferDiagnostic_eq_none hnone with hlt | hsame
        · exact .advance fun row' hrow => Option.some.inj (hfind.symm.trans hrow) ▸ hlt
        · exact .refresh hfind hsame ⟨records, createdAt, rfl⟩
  | @upstream records createdAt offered acceptOlder _ db₁ _ outcome bound accepted h =>
    obtain rfl := Option.some.inj ho
    refine ⟨bound, ?_⟩
    have hkeep : (if outcome = .advanced then db₁.putHighWater offered else db₁).highWater =
        if outcome = .advanced then db.highWater.put offered else db.highWater := by
      rw [← h.frame.2.2.2.2]
      exact apply_ite Db.highWater _ (db₁.putHighWater offered) db₁
    rw [hkeep]
    cases hfind : db.highWater.find? offered.keyId with
    | none =>
      rw [hfind] at accepted
      obtain rfl := Except.ok.inj accepted
      exact .advance fun row hrow => by rw [hfind] at hrow; cases hrow
    | some row =>
      rw [hfind, upstreamDecision] at accepted
      split at accepted
      · rename_i hroll
        split_ifs at accepted with hacc
        obtain rfl := Except.ok.inj accepted
        exact .older hfind (upstreamOfferDiagnostic_eq_rollback hroll) hacc
      · cases accepted
      · rename_i hnone
        rcases upstreamOfferDiagnostic_eq_none hnone with hlt | hsame
        · rw [if_neg (by omega)] at accepted
          obtain rfl := Except.ok.inj accepted
          exact .advance fun row' hrow => Option.some.inj (hfind.symm.trans hrow) ▸ hlt
        · rw [if_pos hsame.1] at accepted
          obtain rfl := Except.ok.inj accepted
          exact .noop hfind hsame

/-- A call without an offer leaves the rows. -/
theorem Performs.highWater_of_none {call : Call} {db db' : Db} {response : Response}
    {published : Option LogEntry} (h : Performs P call db response published db')
    (ho : call.offered = none) : db'.highWater = db.highWater := by
  cases h with
  | append appended => exact appended.result ▸ rfl
  | replay => rfl
  | submit _ _ _ appended => exact appended.result ▸ rfl
  | imports h => exact h.frame.2.2.2.2
  | importsOffered | upstream => cases ho

/-! ## Conflicts -/

/-- An offer conflicts with the persisted snapshot: it is older, without
    `accept_older_upstream`, or has another body at the same version. -/
def Conflicts (call : Call) (row o : UpstreamHighWater) : UpstreamDiagnostic → Prop
  | .rollback => o.version < row.version ∧ call.acceptsOlder = false
  | .inconsistent => o.version = row.version ∧ ¬row.SameBody o

theorem Conflicts.diagnostic {call : Call} {row o : UpstreamHighWater} {d : UpstreamDiagnostic}
    (h : Conflicts call row o d) : upstreamOfferDiagnostic row o = some d := by
  cases d with
  | rollback => exact upstreamOfferDiagnostic_of_lt h.1
  | inconsistent => exact upstreamOfferDiagnostic_of_ne h.1 h.2

/-- No accepted offer conflicts. -/
theorem Offered.not_conflicts {call : Call} {o row : UpstreamHighWater}
    {t t' : Table UpstreamHighWater.keyId} (h : Offered call o t t')
    (hrow : t.find? o.keyId = some row) (d : UpstreamDiagnostic) : ¬Conflicts call row o d := by
  intro hc
  have same {row'} (found : t.find? o.keyId = some row') : row' = row :=
    Option.some.inj (found.symm.trans hrow)
  cases h with
  | advance above =>
    have hlt := above row hrow
    cases d with
    | rollback => exact absurd hc.1 (by omega)
    | inconsistent => exact absurd hc.1 (by omega)
  | refresh found hs | noop found hs =>
    rw [same found] at hs
    cases d with
    | rollback => exact absurd hc.1 (by have := hs.1; omega)
    | inconsistent => exact hc.2 hs
  | older found below accepts =>
    rw [same found] at below
    cases d with
    | rollback => exact absurd (accepts.symm.trans hc.2) (by decide)
    | inconsistent => exact absurd hc.1 (by omega)

theorem getUpstreamHighWater_eq {keyId : PyStr} (hk : Scalar keyId) {fault : Nat → Option Abort}
    {n : Nat} (h : fault n = none) (db : Db) :
    StoreTx.getUpstreamHighWater keyId fault n db = .ok (db.highWater.find? keyId, n + 1, db) := by
  have hbind : bindText [keyId] = .ok () := bindText_eq_ok.2 (List.forall_mem_singleton.2 hk)
  rw [StoreTx.getUpstreamHighWater, hbind]
  exact (Tx.bind_of_ok rfl).trans (Tx.select_of_none _ h db)

/-- The statements of a call whose offer conflicts raise the conflict, once the persisted
    snapshot is read. -/
theorem body_of_conflict {call : Call} {o row : UpstreamHighWater} {d : UpstreamDiagnostic} {db : Db}
    (ho : call.offered = some o) (hrow : db.highWater.find? o.keyId = some row)
    (hc : Conflicts call row o d) (hk : Scalar o.keyId) {fault : Nat → Option Abort}
    (hfault : fault 0 = none) : call.body P fault 0 db =
      .error ⟨.upstreamHighWaterConflict d o.keyId row o, none, false⟩ := by
  have hread := getUpstreamHighWater_eq hk hfault db
  have hdiag := hc.diagnostic
  rw [hrow] at hread
  cases call with
  | append | appendIdempotent => cases ho
  | appendImports records createdAt highWater =>
    obtain rfl : highWater = some o := ho
    refine Tx.bind_of_error ((Tx.bind_of_ok hread).trans (Tx.bind_of_error ?_))
    rw [importsDecision, hdiag]
    rfl
  | appendUpstreamImport records createdAt offered acceptOlder =>
    obtain rfl := Option.some.inj ho
    refine Tx.bind_of_error ((Tx.bind_of_ok hread).trans (Tx.bind_of_error ?_))
    rw [upstreamDecision, hdiag]
    cases d with
    | rollback =>
      obtain rfl : acceptOlder = false := hc.2
      rfl
    | inconsistent => rfl

/-- A call whose offer conflicts raises and leaves its connection as it was; when nothing
    fails before the persisted snapshot is read, it raises the conflict. -/
theorem refused_of_conflict {call : Call} {o row : UpstreamHighWater} {d : UpstreamDiagnostic}
    {c : Conn} (ho : call.offered = some o) (hrow : c.disk.highWater.find? o.keyId = some row)
    (hc : Conflicts call row o d) (hk : Scalar o.keyId) (s : Store) (env : Env) :
    (∃ e, (s.perform P env c call).result = .error e) ∧ (s.perform P env c call).conn = c ∧
      (s.requireWritesAllowed env.gateClock = .ok () → beginImmediate env c = none →
        env.faults 0 = none → s.perform P env c call =
          ⟨.error (.upstreamHighWaterConflict d o.keyId row o), c, s⟩) := by
  have hnever {r published db} (h : Performs P call c.disk r published db) : False :=
    (h.offered ho).2.not_conflicts hrow d hc
  obtain ⟨hraises, hconn⟩ := perform_of_never hnever s env
  refine ⟨hraises, hconn, fun hgate hbegin hfault => ?_⟩
  have hcheck : call.check = .ok () := by
    cases call with
    | append | appendIdempotent => cases ho
    | appendImports | appendUpstreamImport => rfl
  exact perform_of_error hcheck hbegin hgate
    (body_of_conflict ho hrow hc hk (by rw [hfault]; rfl))

/-! ## Runs -/

variable (P) in
/-- A call returns. -/
def World.Returns (w : World) (i : Nat) (env : Env) (call : Call) : Prop :=
  ∃ r, (w.perform P i env call).map (·.result) = some (.ok r)

/-- The persisted version of a key. -/
def Db.persistedVersion (db : Db) (keyId : PyStr) : Option Int :=
  (db.highWater.find? keyId).map (·.version)

variable (P) in
/-- The protection of the upstream keys in one call. -/
structure UpstreamGuard (w : World) (i : Nat) (env : Env) (call : Call) : Prop where
  /-- The row moves when the call commits and its offer is above the persisted snapshot, or
      the first. -/
  moves : ∀ o, call.offered = some o →
    ((w.step P (.call i env call)).disk.persistedVersion o.keyId ≠ w.disk.persistedVersion o.keyId ↔
      w.Returns P i env call ∧ ∀ row, w.disk.highWater.find? o.keyId = some row →
        row.version < o.version)
  /-- It moves to the offer. -/
  moved : ∀ o, call.offered = some o →
    (w.step P (.call i env call)).disk.persistedVersion o.keyId ≠ w.disk.persistedVersion o.keyId →
      (w.step P (.call i env call)).disk.highWater.find? o.keyId = some o
  /-- An older snapshot commits on request only, and leaves the row. -/
  older : ∀ o row, call.offered = some o → w.disk.highWater.find? o.keyId = some row →
    o.version < row.version → w.Returns P i env call → call.acceptsOlder = true ∧
      (w.step P (.call i env call)).disk.highWater.find? o.keyId = some row
  /-- A conflicting snapshot does not commit; when nothing fails before the persisted one is read,
      the conflict is raised. -/
  conflict : ∀ o row d, call.offered = some o → w.disk.highWater.find? o.keyId = some row →
    Conflicts call row o d → ¬w.Returns P i env call ∧
      (w.step P (.call i env call)).disk = w.disk ∧
      (w.step P (.call i env call)).holder = w.holder ∧
      ∀ s, w.stores i = some s → s.requireWritesAllowed env.gateClock = .ok () →
        beginImmediate env (w.conn i) = none → env.faults 0 = none →
          (w.perform P i env call).map (·.result) =
            some (.error (.upstreamHighWaterConflict d o.keyId row o))
  /-- A call that does not return leaves all tables. -/
  refused : ¬w.Returns P i env call → (w.step P (.call i env call)).disk = w.disk
  /-- The rows of other keys are not touched. -/
  others : ∀ keyId, (∀ o, call.offered = some o → o.keyId ≠ keyId) →
    (w.step P (.call i env call)).disk.highWater.find? keyId = w.disk.highWater.find? keyId
  /-- A row is written again without a greater version for an identical snapshot of
      `append_imports` only. -/
  rewritten : ∀ keyId row row', w.disk.highWater.find? keyId = some row →
    (w.step P (.call i env call)).disk.highWater.find? keyId = some row' → row' ≠ row →
      ¬row.version < row'.version → row.SameBody row' ∧
        ∃ records createdAt, call = .appendImports records createdAt (some row')

/-- The row of a key after an accepted offer. -/
theorem Offered.find? {call : Call} {o : UpstreamHighWater} {t t' : Table UpstreamHighWater.keyId}
    (h : Offered call o t t') (keyId : PyStr) :
    t'.find? keyId = t.find? keyId ∨ keyId = o.keyId ∧ t'.find? keyId = some o := by
  have hput : (t.put o).find? keyId = t.find? keyId ∨
      keyId = o.keyId ∧ (t.put o).find? keyId = some o := by
    rw [Table.find?_put]
    by_cases hk : keyId = o.keyId
    · exact .inr ⟨hk, if_pos hk⟩
    · exact .inl (if_neg hk)
  cases h with
  | advance | refresh => exact hput
  | noop | older => exact .inl rfl

/-- A call advances every row. -/
theorem Performs.advances {call : Call} {db db' : Db} {response : Response}
    {published : Option LogEntry} (h : Performs P call db response published db') (keyId : PyStr)
    (row : UpstreamHighWater) (hrow : db.highWater.find? keyId = some row) :
    ∃ row', db'.highWater.find? keyId = some row' ∧ row.AdvancesTo row' := by
  cases ho : call.offered with
  | none => exact ⟨row, by rw [h.highWater_of_none ho, hrow], .refl row⟩
  | some o =>
    have hoff := (h.offered ho).2
    rcases hoff.find? keyId with hsame | ⟨rfl, hnew⟩
    · exact ⟨row, hsame.trans hrow, .refl row⟩
    · refine ⟨o, hnew, ?_⟩
      generalize db'.highWater = t at hoff hnew
      have same {row'} (found : db.highWater.find? o.keyId = some row') : row' = row :=
        Option.some.inj (found.symm.trans hrow)
      cases hoff with
      | advance above => exact ⟨(above row hrow).le, fun heq => absurd (above row hrow) (by omega)⟩
      | refresh found hs =>
        rw [same found] at hs
        exact ⟨hs.1.ge, fun _ => hs⟩
      | noop | older => exact ⟨(Option.some.inj (hrow.symm.trans hnew)) ▸ le_rfl,
          fun _ => (Option.some.inj (hrow.symm.trans hnew)) ▸ .refl _⟩

theorem Effect.advances {w : World} {e : Event} {db : Db} (h : Effect P w e db) (keyId : PyStr)
    (row : UpstreamHighWater) (hrow : w.disk.highWater.find? keyId = some row) :
    ∃ row', db.highWater.find? keyId = some row' ∧ row.AdvancesTo row' := by
  cases h with
  | same => exact ⟨row, hrow, .refl row⟩
  | started => exact ⟨row, by rw [(openStore_kept _ _ _).highWater, hrow], .refl row⟩
  | called commits => exact commits.performs.elim fun _ hperf => hperf.advances keyId row hrow

/-- A run advances every row. -/
theorem run_advances (w : World) (es : List Event) (keyId : PyStr) (row : UpstreamHighWater)
    (hrow : w.disk.highWater.find? keyId = some row) :
    ∃ row', (w.run P es).disk.highWater.find? keyId = some row' ∧ row.AdvancesTo row' := by
  refine World.run_induction (p := fun db => ∃ row', db.highWater.find? keyId = some row' ∧
    row.AdvancesTo row') (fun w e db he ⟨row', hrow', hadv⟩ => ?_) w es ⟨row, hrow, .refl row⟩
  obtain ⟨row'', hrow'', hadv'⟩ := he.advances keyId row' hrow'
  exact ⟨row'', hrow'', hadv.trans hadv'⟩

/-- The keys of a file, which SQLite stores as text, stay text. -/
theorem Effect.scalar {w : World} {e : Event} {db : Db} (h : Effect P w e db)
    (hk : ∀ row ∈ w.disk.highWater.rows, Scalar row.keyId) :
    ∀ row ∈ db.highWater.rows, Scalar row.keyId := by
  cases h with
  | same => exact hk
  | started => exact fun row hrow => hk row ((openStore_kept _ _ _).highWater ▸ hrow)
  | @called i env call r db commits =>
    obtain ⟨_, hperf⟩ := commits.performs
    intro row hrow
    cases ho : call.offered with
    | none => exact hk row (hperf.highWater_of_none ho ▸ hrow)
    | some o =>
      obtain ⟨hbound, hoff⟩ := hperf.offered ho
      rcases hoff.find? row.keyId with hsame | ⟨heq, -⟩
      · exact hk row (Table.mem_rows.2 (hsame ▸ Table.mem_rows.1 hrow))
      · exact heq ▸ hbound

/-- An accepted offer changes the persisted version exactly when it is above it, or the
    first. -/
theorem Offered.version_ne_iff {call : Call} {o : UpstreamHighWater}
    {t t' : Table UpstreamHighWater.keyId} (h : Offered call o t t') :
    ((t'.find? o.keyId).map (·.version) ≠ (t.find? o.keyId).map (·.version)) ↔
      ∀ row, t.find? o.keyId = some row → row.version < o.version := by
  have hput : (t.put o).find? o.keyId = some o := by rw [Table.find?_put, if_pos rfl]
  cases h with
  | advance above =>
    refine ⟨fun _ => above, fun _ heq => ?_⟩
    rw [hput] at heq
    cases hrow : t.find? o.keyId with
    | none => rw [hrow] at heq; cases heq
    | some row =>
      rw [hrow] at heq
      have hv : o.version = row.version := Option.some.inj heq
      exact absurd (above row hrow) (by omega)
  | @refresh row found hs =>
    refine ⟨fun hne => absurd ?_ hne, fun hlt => absurd (hlt row found) (by have := hs.1; omega)⟩
    rw [hput, found]
    exact congrArg some hs.1
  | @noop row found hs =>
    exact ⟨fun hne => absurd rfl hne, fun hlt => absurd (hlt row found) (by have := hs.1; omega)⟩
  | @older row found below =>
    exact ⟨fun hne => absurd rfl hne, fun hlt => absurd (hlt row found) (by omega)⟩

/-- A committed offer protects the upstream keys. -/
theorem Commits.upstreamGuard {w : World} {i : Nat} {env : Env} {call : Call} {r : Response} {db : Db}
    (h : Commits P w i env call r db) : UpstreamGuard P w i env call := by
  have hreturns : w.Returns P i env call := ⟨r, h.returned⟩
  have hdisk := h.disk
  obtain ⟨published, hperf⟩ := h.performs
  refine ⟨fun o ho => ?_, fun o ho hne => ?_, fun o row ho hrow hlt _ => ?_,
    fun o row d ho hrow hc => ?_, fun hn => absurd hreturns hn, fun keyId hother => ?_,
    fun keyId row row' hrow hrow' hne hge => ?_⟩
  · rw [hdisk]
    exact (hperf.offered ho).2.version_ne_iff.trans ⟨fun habove => ⟨hreturns, habove⟩, fun h => h.2⟩
  · rw [hdisk] at hne ⊢
    rcases (hperf.offered ho).2.find? o.keyId with hsame | ⟨-, hnew⟩
    · exact absurd (congrArg _ hsame) hne
    · exact hnew
  · rw [hdisk]
    have hoff := (hperf.offered ho).2
    generalize db.highWater = t at hoff
    have same {row'} (found : w.disk.highWater.find? o.keyId = some row') : row' = row :=
      Option.some.inj (found.symm.trans hrow)
    cases hoff with
    | advance above => exact absurd (above row hrow) (by omega)
    | refresh found hs | noop found hs =>
      rw [same found] at hs
      exact absurd hs.1 (by omega)
    | older _ _ accepts => exact ⟨accepts, hrow⟩
  · exact absurd hc ((hperf.offered ho).2.not_conflicts hrow d)
  · rw [hdisk]
    cases ho : call.offered with
    | none => rw [hperf.highWater_of_none ho]
    | some o =>
      rcases (hperf.offered ho).2.find? keyId with hsame | ⟨heq, -⟩
      · exact hsame
      · exact absurd heq.symm (hother o ho)
  · rw [hdisk] at hrow'
    cases ho : call.offered with
    | none =>
      rw [hperf.highWater_of_none ho, hrow] at hrow'
      exact absurd (Option.some.inj hrow').symm hne
    | some o =>
      have hoff := (hperf.offered ho).2
      rcases hoff.find? keyId with hsame | ⟨rfl, hnew⟩
      · rw [hsame, hrow] at hrow'
        exact absurd (Option.some.inj hrow').symm hne
      · obtain rfl := Option.some.inj (hnew.symm.trans hrow')
        generalize db.highWater = t at hoff hnew
        have same {row'} (found : w.disk.highWater.find? o.keyId = some row') : row' = row :=
          Option.some.inj (found.symm.trans hrow)
        cases hoff with
        | advance above => exact absurd (above row hrow) hge
        | refresh found hs imports =>
          rw [same found] at hs
          exact ⟨hs, imports⟩
        | noop | older => exact absurd (Option.some.inj (hrow.symm.trans hnew)).symm hne

/-- Every call protects the upstream keys. -/
theorem upstreamGuard (w : World) (hk : ∀ row ∈ w.disk.highWater.rows, Scalar row.keyId) (i : Nat)
    (env : Env) (call : Call) : UpstreamGuard P w i env call := by
  rcases w.call_cases (P := P) i env call with ⟨r, db, h⟩ | ⟨hdisk, hnone⟩
  · exact h.upstreamGuard
  have hn : ¬w.Returns P i env call := fun ⟨r, hr⟩ => hnone r hr
  have hver (keyId : PyStr) : (w.step P (.call i env call)).disk.persistedVersion keyId =
      w.disk.persistedVersion keyId := by rw [hdisk]
  refine ⟨fun o _ => ⟨fun hne => absurd (hver _) hne, fun h => absurd h.1 hn⟩,
    fun o _ hne => absurd (hver _) hne, fun _ _ _ _ _ hr => absurd hr hn,
    fun o row d ho hrow hc => ⟨hn, hdisk, ?_, fun s hs hgate hbegin hfault => ?_⟩, fun _ => hdisk,
    fun keyId _ => by rw [hdisk], fun keyId row row' hrow hrow' hne => ?_⟩
  · exact (World.step_of_never i env fun hp => (hp.offered ho).2.not_conflicts hrow d hc).2
  · have hkey : Scalar o.keyId := by
      obtain ⟨hmem, hkeyId⟩ := Table.find?_eq_some.1 hrow
      exact hkeyId ▸ hk row hmem
    rw [World.perform, hs, Option.map_some, Option.map_some,
      (refused_of_conflict (P := P) (c := w.conn i) ho hrow hc hkey s env).2.2 hgate hbegin hfault]
  · rw [hdisk, hrow] at hrow'
    exact absurd (Option.some.inj hrow').symm hne

/-- Whatever calls, starts and failures a file has seen, its rows of upstream keys only advance,
    and every call protects them. -/
theorem upstreamHighWater_guarded {db : Db} (hk : ∀ row ∈ db.highWater.rows, Scalar row.keyId)
    (es : List Event) :
    let w := (World.ofFile db).run P es
    (∀ es' keyId row, w.disk.highWater.find? keyId = some row →
      ∃ row', (w.run P es').disk.highWater.find? keyId = some row' ∧ row.AdvancesTo row') ∧
    (∀ i env call, UpstreamGuard P w i env call) ∧
    ∀ e, (∀ i env call, e ≠ .call i env call) → (w.step P e).disk.highWater = w.disk.highWater := by
  intro w
  have hkeys : ∀ row ∈ w.disk.highWater.rows, Scalar row.keyId :=
    World.run_induction (fun _ _ _ he hi => he.scalar hi) (World.ofFile db) es hk
  refine ⟨fun es' keyId row hrow => run_advances w es' keyId row hrow,
    upstreamGuard w hkeys, fun e hcall => ?_⟩
  have heff := w.step_effect (P := P) e
  generalize (w.step P e).disk = db' at heff
  cases heff with
  | same => rfl
  | started => exact (openStore_kept _ _ _).highWater
  | called => exact absurd rfl (hcall _ _ _)

/-- On a new file. -/
theorem upstreamHighWater_guarded_sample :
    let w := (World.ofFile .absent).run .sample [.start 0 sampleStart]
    (∀ es' keyId row, w.disk.highWater.find? keyId = some row →
      ∃ row', (w.run .sample es').disk.highWater.find? keyId = some row' ∧ row.AdvancesTo row') ∧
    (∀ i env call, UpstreamGuard .sample w i env call) ∧
    ∀ e, (∀ i env call, e ≠ .call i env call) →
      (w.step .sample e).disk.highWater = w.disk.highWater :=
  upstreamHighWater_guarded (by intro row hrow; cases hrow) _

end SkillRegistry
