import SkillRegistry.Import
import SkillRegistry.Store.Undated
import SkillRegistry.HighWater

/-!
# Imports of growing bundles

An upstream registry is followed by importing one bundle after another, each with more
records than the one before. What was imported before is skipped, so that the last bundle
alone would have led to the same database.

* `Store.importEach`: imports one after another;
* `importEach_imports`: they append what the last import alone appends;
* `importEach_marks`: they leave the high-water mark that the last import alone leaves;
* `importEach_runs`: they succeed when each bundle is accepted by the starting store;
* `import_pathIndependent`: so the databases are equal up to dates, and the counts add up.
-/

namespace SkillRegistry

open Wire Firsts

variable {P : Platform}

/-! ## Reachable databases -/

theorem Effect.ready {w : World} {e : Event} {db : Db} (h : Effect P w e db)
    (hw : Ready P w.disk) : Ready P db := by
  cases h with
  | same => exact hw
  | @started i env _ =>
    have hkept := openStore_kept (P := P) env w.holder.isSome w.disk
    refine ⟨hkept.invariant hw.toInvariant, ?_⟩
    rw [hkept.sequence, Db.size, hkept.log]
    exact hw.sequence
  | called commits =>
    obtain ⟨published, hperforms⟩ := commits.performs
    exact hperforms.ready hw

/-- An append finds every reachable database ready. -/
theorem run_ready (es : List Event) : Ready P (World.fresh.run P es).disk :=
  World.run_induction (fun _ _ _ he hw => he.ready hw) World.fresh es
    ⟨invariant_of_empty rfl rfl rfl, le_rfl⟩

/-! ## Chains of imports -/

/-- A bundle that an import accepts under the pinned key of an upstream registry. -/
structure AcceptedBundle (P : Platform) (upstream : PyStr) where
  bundle : Json
  sorted : bundle.Sorted
  snapshot : Dict
  records : List Dict
  accepted : verifyBundle P upstream bundle = .ok (snapshot, records)

/-- A later bundle of the same registry: its records go on after those of the one before, and
    its snapshot has a greater version. -/
def AcceptedBundle.Extends {upstream : PyStr} (b a : AcceptedBundle P upstream) : Prop :=
  a.records <+: b.records ∧ intField a.snapshot (py "version") < intField b.snapshot (py "version")

/-- A call of an import. -/
structure ImportCall (P : Platform) (upstream : PyStr) where
  env : Env
  now : Timestamp
  acceptOlder : Bool
  bundle : AcceptedBundle P upstream

namespace ImportCall

variable {upstream : PyStr}

/-- The call, on a connection of a store. -/
def run (call : ImportCall P upstream) (key : SigningKey P) (c : Conn) (s : Store) : Outcome Nat :=
  s.importBundle call.env c key call.bundle.bundle upstream call.acceptOlder call.now

/-- What the call appends, unless it was imported before. -/
def imports (call : ImportCall P upstream) (key : SigningKey P) : List (PyStr × Dict) :=
  call.bundle.records.map (importOf key)

/-- The mark that the call offers for the upstream registry with the given key. -/
def offered (call : ImportCall P upstream) (upstreamKey : Bytes) : UpstreamHighWater :=
  offeredHighWater (keyIdOf P upstreamKey) call.bundle.snapshot call.now

/-- The decision on the mark that the call offers. -/
def decide (call : ImportCall P upstream) (upstreamKey : Bytes)
    (marks : Table UpstreamHighWater.keyId) : Except PyErr ImportOutcome :=
  upstreamDecision (marks.find? (keyIdOf P upstreamKey)) (call.offered upstreamKey)
    call.acceptOlder

end ImportCall

/-- Imports one after another: what each returned or raised, and what they left. -/
def Store.importEach {upstream : PyStr} (key : SigningKey P) :
    Conn → Store → List (ImportCall P upstream) → List (Except PyErr Nat) × Conn × Store
  | c, s, [] => ([], c, s)
  | c, s, call :: calls =>
    let o := call.run key c s
    let rest := importEach key o.conn o.store calls
    (o.result :: rest.1, rest.2)

/-- The sum of the counts that imports returned. -/
def returned (results : List (Except PyErr Nat)) : Nat :=
  (results.map fun r => r.toOption.getD 0).sum

section Chain

variable {upstream : PyStr} {key : SigningKey P}

theorem importEach_cons (c : Conn) (s : Store) (call : ImportCall P upstream)
    (calls : List (ImportCall P upstream)) : s.importEach key c (call :: calls) =
      ((call.run key c s).result ::
        ((call.run key c s).store.importEach key (call.run key c s).conn calls).1,
        ((call.run key c s).store.importEach key (call.run key c s).conn calls).2) := rfl

theorem length_importEach (c : Conn) (s : Store) (calls : List (ImportCall P upstream)) :
    (s.importEach key c calls).1.length = calls.length := by
  induction calls generalizing c s with
  | nil => rfl
  | cons call calls ih => rw [importEach_cons, List.length_cons, ih, List.length_cons]

/-- The last import is one of the imports after the first one. -/
theorem getLast?_importEach (c : Conn) (s : Store) (call : ImportCall P upstream)
    (calls : List (ImportCall P upstream)) (last : ImportCall P upstream) :
    (s.importEach key c (call :: (calls ++ [last]))).1.getLast? =
      ((call.run key c s).store.importEach key (call.run key c s).conn
        (calls ++ [last])).1.getLast? := by
  rw [importEach_cons, List.getLast?_cons]
  have hne : ((call.run key c s).store.importEach key (call.run key c s).conn
      (calls ++ [last])).1 ≠ [] := by
    rw [← List.length_pos_iff, length_importEach, List.length_append]
    exact Nat.succ_pos _
  rw [List.getLast?_eq_some_getLast hne]
  rfl

theorem ImportCall.run_eq_error {call : ImportCall P upstream} {c : Conn} {s : Store} {e : PyErr}
    (h : (call.run key c s).result = .error e) : (call.run key c s).conn.disk = c.disk :=
  importBundle_eq_error h

/-- What a call that succeeded did. -/
theorem ImportCall.run_eq_ok {call : ImportCall P upstream} {c : Conn} {s : Store} {n : Nat}
    (h : (call.run key c s).result = .ok n) :
    ∃ upstreamKey outcome entries db, parsePublicKey upstream = .ok upstreamKey ∧
      call.decide upstreamKey c.disk.highWater = .ok outcome ∧
      Imports P call.now.text (call.imports key) c.disk entries db ∧ n = entries.length ∧
      (call.run key c s).conn = ⟨if outcome = .advanced then
        db.putHighWater (call.offered upstreamKey) else db, c.pending, c.locked⟩ := by
  obtain ⟨db, himported, hconn⟩ := importBundle_eq_ok call.bundle.sorted h
  cases himported with
  | @mk snapshot verified upstreamKey outcome entries db' accepted parsed decided imports =>
    obtain ⟨rfl, rfl⟩ := Prod.mk.inj (Except.ok.inj (call.bundle.accepted.symm.trans accepted))
    exact ⟨upstreamKey, outcome, entries, db', parsed, decided, imports, rfl, hconn⟩

variable (key) in
theorem imports_append {call last : ImportCall P upstream}
    (h : last.bundle.Extends call.bundle) :
    ∃ more, last.imports key = call.imports key ++ more := by
  obtain ⟨records, hrecords⟩ := h.1
  refine ⟨records.map (importOf key), ?_⟩
  rw [ImportCall.imports, ← hrecords, List.map_append]
  rfl

/-- Imports of growing bundles append what the last one appends. The induction is on the calls
    before the last one, on databases that are equal up to dates and marks. -/
theorem importEach_imports {calls : List (ImportCall P upstream)} {last : ImportCall P upstream}
    (hext : ∀ call ∈ calls, last.bundle.Extends call.bundle) {c : Conn} {s : Store} {n : Nat}
    (h : (s.importEach key c (calls ++ [last])).1.getLast? = some (.ok n)) {db db' : Db}
    (hdb : c.disk.unmarked = db.unmarked) {createdAt : PyStr} {entries : List LogEntry}
    (himports : Imports P createdAt (last.imports key) db entries db') :
    (s.importEach key c (calls ++ [last])).2.1.disk.unmarked = db'.unmarked ∧
      returned (s.importEach key c (calls ++ [last])).1 = entries.length := by
  induction calls generalizing c s db entries with
  | nil =>
    have hn : (last.run key c s).result = .ok n := Option.some.inj h
    obtain ⟨upstreamKey, outcome, own, db₁, -, -, hown, rfl, hrun⟩ := ImportCall.run_eq_ok hn
    obtain ⟨rfl, hsame⟩ := hown.unmarked_eq himports hdb
    constructor
    · change (last.run key c s).conn.disk.unmarked = _
      rw [hrun, ← hsame]
      dsimp only
      split_ifs <;> rfl
    · change ((last.run key c s).result.toOption.getD 0) + 0 = _
      rw [hn]
      rfl
  | cons call calls ih =>
    obtain ⟨hcall, hrest⟩ := List.forall_mem_cons.1 hext
    rw [List.cons_append] at h ⊢
    rw [getLast?_importEach] at h
    rw [importEach_cons, returned, List.map_cons, List.sum_cons]
    cases hresult : (call.run key c s).result with
    | error e =>
      -- a refused import leaves the starting database to the later ones
      obtain ⟨hunmarked, hsum⟩ := ih hrest h
        (hdb ▸ congrArg Db.unmarked (ImportCall.run_eq_error hresult)) himports
      exact ⟨hunmarked, (Nat.zero_add _).trans hsum⟩
    | ok m =>
      obtain ⟨upstreamKey, outcome, own, db₁, -, -, hown, rfl, hrun⟩ :=
        ImportCall.run_eq_ok hresult
      obtain ⟨more, hmore⟩ := imports_append key hcall
      rw [hmore] at himports
      obtain ⟨before, after, db₂, rfl, hbefore, hafter⟩ := himports.of_append
      obtain ⟨rfl, hsame⟩ := hown.unmarked_eq hbefore hdb
      have hdisk : (call.run key c s).conn.disk.unmarked = db₂.unmarked := by
        rw [hrun, ← hsame]
        dsimp only
        split_ifs <;> rfl
      -- the last import skips the records of this one
      have hskip : Imports P createdAt (last.imports key) db₂ after db' := by
        rw [hmore]
        refine Imports.skip_all (fun x hx => ?_) hafter
        exact (hbefore.mem_fingerprints x.1).2 (.inr (List.mem_map_of_mem hx))
      obtain ⟨hunmarked, hsum⟩ := ih hrest h hdisk hskip
      refine ⟨hunmarked, ?_⟩
      rw [List.length_append, ← hsum]
      rfl

/-! ## Marks -/

/-- The mark is advanced by what is above it. -/
theorem upstreamDecision_advanced {current : Option UpstreamHighWater} {o : UpstreamHighWater}
    {acceptOlder : Bool} {outcome : ImportOutcome}
    (h : upstreamDecision current o acceptOlder = .ok outcome) :
    outcome = .advanced ↔ ∀ row, current = some row → row.version < o.version := by
  cases current with
  | none =>
    obtain rfl := Except.ok.inj h
    exact ⟨fun _ row hrow => (by cases hrow), fun _ => rfl⟩
  | some row =>
    have hiff : (∀ r, some row = some r → r.version < o.version) ↔ row.version < o.version :=
      ⟨fun hr => hr row rfl, fun hr r he => Option.some.inj he ▸ hr⟩
    rw [hiff]
    rw [upstreamDecision] at h
    cases hd : upstreamOfferDiagnostic row o with
    | none =>
      rw [hd] at h
      dsimp only at h
      split_ifs at h with hv
      · obtain rfl := Except.ok.inj h
        exact ⟨fun he => (by cases he), fun hlt => absurd hv hlt.ne'⟩
      · obtain rfl := Except.ok.inj h
        refine ⟨fun _ => ?_, fun _ => rfl⟩
        rcases upstreamOfferDiagnostic_eq_none hd with hlt | hsame
        · exact hlt
        · exact absurd hsame.1 hv
    | some d =>
      rw [hd] at h
      cases d with
      | inconsistent => cases h
      | rollback =>
        have hlt := upstreamOfferDiagnostic_eq_rollback hd
        dsimp only at h
        split_ifs at h
        obtain rfl := Except.ok.inj h
        exact ⟨fun he => (by cases he), fun hlt' => absurd hlt' hlt.asymm⟩

/-- An offer above the mark is accepted. -/
theorem upstreamDecision_of_lt {row o : UpstreamHighWater} (h : row.version < o.version)
    (acceptOlder : Bool) : upstreamDecision (some row) o acceptOlder = .ok .advanced := by
  have hd : upstreamOfferDiagnostic row o = none := by
    rw [upstreamOfferDiagnostic, if_neg h.asymm, if_neg fun hc => h.ne' hc.1]
  rw [upstreamDecision, hd]
  exact if_neg h.ne'

theorem marks_putHighWater (db : Db) (row : UpstreamHighWater) :
    (db.putHighWater row).marks = db.marks.put row.undated := Table.map_put _ _ _

theorem Imports.marks_eq {createdAt : PyStr} {records : List (PyStr × Dict)} {db db' : Db}
    {entries : List LogEntry} (h : Imports P createdAt records db entries db') :
    db'.marks = db.marks := by
  rw [Db.marks, h.frame.2.2.2.2]
  rfl

/-- A later bundle is accepted after the mark of an earlier one was put. -/
theorem decide_putHighWater {call later : ImportCall P upstream} {upstreamKey : Bytes} (db : Db)
    (h : (call.offered upstreamKey).version < (later.offered upstreamKey).version) :
    later.decide upstreamKey (db.putHighWater (call.offered upstreamKey)).highWater =
      .ok .advanced := by
  have hfound : (db.putHighWater (call.offered upstreamKey)).highWater.find?
      (keyIdOf P upstreamKey) = some (call.offered upstreamKey) :=
    (Table.find?_put _ _ _).trans (if_pos rfl)
  rw [ImportCall.decide, hfound]
  exact upstreamDecision_of_lt h _

/-- Imports of growing bundles leave the mark that the last one leaves. The induction is on the
    calls before the last one. -/
theorem importEach_marks {upstreamKey : Bytes} (hkey : parsePublicKey upstream = .ok upstreamKey)
    {calls : List (ImportCall P upstream)} {last once : ImportCall P upstream}
    (hext : ∀ call ∈ calls, last.bundle.Extends call.bundle) (honce : once.bundle = last.bundle)
    {c : Conn} {s : Store} {n : Nat}
    (h : (s.importEach key c (calls ++ [last])).1.getLast? = some (.ok n)) {outcome : ImportOutcome}
    (hdecided : once.decide upstreamKey c.disk.highWater = .ok outcome) :
    (s.importEach key c (calls ++ [last])).2.1.disk.marks =
      (if outcome = .advanced then c.disk.putHighWater (once.offered upstreamKey)
        else c.disk).marks := by
  have hversion : (once.offered upstreamKey).version = (last.offered upstreamKey).version := by
    rw [ImportCall.offered, honce]
    rfl
  have hundated : (once.offered upstreamKey).undated = (last.offered upstreamKey).undated := by
    rw [ImportCall.offered, honce]
    rfl
  induction calls generalizing c s outcome with
  | nil =>
    have hn : (last.run key c s).result = .ok n := Option.some.inj h
    obtain ⟨key', outcome', entries, db, hkey', hdecided', himports, -, hrun⟩ :=
      ImportCall.run_eq_ok hn
    obtain rfl := Except.ok.inj (hkey.symm.trans hkey')
    have hsame : outcome' = .advanced ↔ outcome = .advanced := by
      rw [upstreamDecision_advanced hdecided, upstreamDecision_advanced hdecided', hversion]
    change (last.run key c s).conn.disk.marks = _
    rw [hrun]
    dsimp only
    by_cases hadvanced : outcome = .advanced
    · rw [if_pos hadvanced, if_pos (hsame.2 hadvanced), marks_putHighWater, marks_putHighWater,
        himports.marks_eq, hundated]
    · rw [if_neg hadvanced, if_neg (mt hsame.1 hadvanced), himports.marks_eq]
  | cons call calls ih =>
    obtain ⟨hcall, hrest⟩ := List.forall_mem_cons.1 hext
    rw [List.cons_append] at h ⊢
    rw [getLast?_importEach] at h
    rw [importEach_cons]
    dsimp only
    cases hresult : (call.run key c s).result with
    | error e =>
      have hdisk : (call.run key c s).conn.disk = c.disk := ImportCall.run_eq_error hresult
      rw [ih hrest h (hdisk ▸ hdecided), hdisk]
    | ok m =>
      obtain ⟨key', outcome', entries, db, hkey', hdecided', himports, -, hrun⟩ :=
        ImportCall.run_eq_ok hresult
      obtain rfl := Except.ok.inj (hkey.symm.trans hkey')
      have hlt : (call.offered upstreamKey).version < (once.offered upstreamKey).version :=
        hversion ▸ hcall.2
      by_cases hadvanced : outcome' = .advanced
      · have hdisk : (call.run key c s).conn.disk = db.putHighWater (call.offered upstreamKey) := by
          rw [hrun, if_pos hadvanced]
        have habove : outcome = .advanced := (upstreamDecision_advanced hdecided).2 fun row hrow =>
          ((upstreamDecision_advanced hdecided').1 hadvanced row hrow).trans hlt
        have hlater : once.decide upstreamKey (call.run key c s).conn.disk.highWater =
            .ok .advanced := by
          rw [hdisk]
          exact decide_putHighWater db hlt
        rw [ih hrest h hlater, if_pos rfl, if_pos habove, hdisk, marks_putHighWater,
          marks_putHighWater, marks_putHighWater, himports.marks_eq]
        exact Table.put_put rfl
      · have hdisk : (call.run key c s).conn.disk = db := by
          rw [hrun, if_neg hadvanced]
        have hhighWater : db.highWater = c.disk.highWater := himports.frame.2.2.2.2
        rw [ih hrest h (by rw [hdisk, hhighWater]; exact hdecided), hdisk]
        split_ifs
        · rw [marks_putHighWater, marks_putHighWater, himports.marks_eq]
        · exact himports.marks_eq

/-! ## Imports that succeed -/

variable (key) in
theorem length_firsts_imports (call : ImportCall P upstream) (known : List PyStr) :
    (firsts Prod.fst known (call.imports key)).length =
      (firsts (fingerprint P) known call.bundle.records).length := by
  have h : firsts Prod.fst known (call.imports key) =
      (firsts (fingerprint P) known call.bundle.records).map (importOf key) := firsts_map _ _ _
  rw [h, List.length_map]

variable (key) in
/-- A call succeeds when the store accepts its bundle, and else changes nothing. -/
theorem ImportCall.run_runs {call : ImportCall P upstream} {c : Conn} {s : Store}
    (henv : call.env.Undisturbed) (hc : c.Free)
    (hgate : s.requireWritesAllowed call.env.gateClock = .ok ()) (hdb : Ready P c.disk)
    {upstreamKey : Bytes} (hkey : parsePublicKey upstream = .ok upstreamKey)
    (hroom : c.disk.size + (firsts (fingerprint P) c.disk.fingerprints call.bundle.records).length ≤
      maxInteger) : (∃ n entry db, call.run key c s = ⟨.ok n, { c with disk := db }, s.publish entry⟩) ∨
        (∀ outcome, call.decide upstreamKey c.disk.highWater ≠ .ok outcome) ∧
          ∃ e, call.run key c s = ⟨.error e, c, s⟩ := by
  cases hdecided : call.decide upstreamKey c.disk.highWater with
  | ok outcome =>
    exact .inl (importBundle_runs call.bundle.sorted henv hc hgate call.bundle.accepted hkey hdb
      hdecided hroom)
  | error e =>
    exact .inr ⟨fun _ h => (by cases h), importBundle_refuses call.bundle.sorted henv hc hgate call.bundle.accepted
      hkey hdecided⟩

/-- The last one of imports of growing bundles succeeds when the starting store accepts its
    mark. The induction is on the calls before the last one. -/
theorem importEach_runs {upstreamKey : Bytes} (hkey : parsePublicKey upstream = .ok upstreamKey)
    {calls : List (ImportCall P upstream)} {last : ImportCall P upstream}
    (hext : ∀ call ∈ calls, last.bundle.Extends call.bundle) {c : Conn} {s : Store}
    (hcalls : ∀ call ∈ calls ++ [last], call.env.Undisturbed ∧
      s.requireWritesAllowed call.env.gateClock = .ok ()) (hc : c.Free) (hdb : Ready P c.disk)
    {outcome : ImportOutcome} (hdecided : last.decide upstreamKey c.disk.highWater = .ok outcome)
    (hroom : c.disk.size + (firsts (fingerprint P) c.disk.fingerprints last.bundle.records).length ≤
      maxInteger) : ∃ n, (s.importEach key c (calls ++ [last])).1.getLast? = some (.ok n) := by
  induction calls generalizing c s outcome with
  | nil =>
    obtain ⟨henv, hgate⟩ := hcalls last List.mem_cons_self
    rcases ImportCall.run_runs key henv hc hgate hdb hkey hroom with ⟨n, entry, db, hrun⟩ | ⟨hno, -⟩
    · exact ⟨n, congrArg (fun o : Outcome Nat => some o.result) hrun⟩
    · exact absurd hdecided (hno outcome)
  | cons call calls ih =>
    obtain ⟨⟨henv, hgate⟩, hcalls⟩ := List.forall_mem_cons.1 hcalls
    obtain ⟨hcall, hext⟩ := List.forall_mem_cons.1 hext
    obtain ⟨more, hmore⟩ := hcall.1
    -- the last import takes what this one takes, and more
    have htake : (firsts (fingerprint P) c.disk.fingerprints call.bundle.records ++ _).length = _ :=
      congrArg List.length (firsts_take c.disk.fingerprints call.bundle.records more)
    rw [List.length_append, hmore] at htake
    rw [List.cons_append, getLast?_importEach]
    rcases ImportCall.run_runs key henv hc hgate hdb hkey (by omega) with
      ⟨n, entry, disk, hrun⟩ | ⟨-, e, hrun⟩
    · obtain ⟨key', outcome', entries, db, hkey', hdecided', himports, -, hconn⟩ :=
        ImportCall.run_eq_ok (by rw [hrun])
      obtain rfl := Except.ok.inj (hkey.symm.trans hkey')
      rw [hrun] at hconn
      obtain ⟨hdisk, -⟩ := Conn.mk.inj hconn
      have hlength : entries.length =
          (firsts (fingerprint P) c.disk.fingerprints call.bundle.records).length := by
        rw [← length_firsts_imports key, ← List.length_map (f := LogEntry.record),
          himports.records_eq, List.length_map]
      have hsorted : ∀ x ∈ call.imports key, (Json.obj x.2).Sorted ∧ (Json.obj x.2).Numeral := by
        intro x hx
        obtain ⟨r, hr, rfl⟩ := List.mem_map.1 hx
        obtain ⟨hvalid, hs⟩ := verified_of_accepted call.bundle.sorted call.bundle.accepted r hr
        exact importedCopy_sorted hvalid hs key
      obtain ⟨hlog, hboundaries, hfrontier, hsequence, himported⟩ : disk.log = db.log ∧
          disk.boundaries = db.boundaries ∧ disk.frontier = db.frontier ∧
          disk.logSequence = db.logSequence ∧ disk.imported = db.imported := by
        rw [hdisk]
        split_ifs <;> exact ⟨rfl, rfl, rfl, rfl, rfl⟩
      have hready : Ready P disk := (himports.ready hsorted hdb).congr hlog hboundaries hfrontier
        hsequence
      have hsize : disk.size = c.disk.size + entries.length := by
        rw [← himports.size_eq, Db.size, hlog]
        rfl
      have hknown (f : PyStr) : f ∈ disk.fingerprints ↔
          f ∈ c.disk.fingerprints ++ call.bundle.records.map (fingerprint P) := by
        rw [Db.fingerprints, himported]
        refine (himports.mem_fingerprints f).trans ?_
        rw [List.mem_append, ImportCall.imports, List.map_map]
        rfl
      have hdecided₁ : ∃ outcome, last.decide upstreamKey disk.highWater = .ok outcome := by
        rw [hdisk]
        split_ifs
        · exact ⟨.advanced, decide_putHighWater db hcall.2⟩
        · rw [himports.frame.2.2.2.2]
          exact ⟨outcome, hdecided⟩
      have hcalls₁ : ∀ later ∈ calls ++ [last], later.env.Undisturbed ∧
          (s.publish entry).requireWritesAllowed later.env.gateClock = .ok () := fun later hl => by
        rw [requireWritesAllowed_publish]
        exact hcalls later hl
      have hfree : Conn.Free { c with disk } := hc
      obtain ⟨outcome₁, hdecided₁⟩ := hdecided₁
      rw [hrun]
      refine ih hext hcalls₁ hfree hready hdecided₁ ?_
      dsimp only
      rw [hsize, firsts_congr hknown, hlength]
      omega
    · rw [hrun]
      exact ih hext hcalls hc hdb hdecided hroom

end Chain

/-! ## Path independence -/

/-- Imports of growing bundles, one after another, and the import of the last one alone leave
    the same database up to dates: the same records, hashes, boundaries, imported fingerprints
    and marks. The counts that were returned add up to the count of the one, which is what the
    log grew by. When nothing fails, and the starting store accepts the mark of the last bundle
    and has room for its records, both do return. -/
theorem import_pathIndependent {upstream : PyStr} {key : SigningKey P} {c : Conn} {s : Store}
    (hdb : Ready P c.disk) {calls : List (ImportCall P upstream)}
    {last once : ImportCall P upstream}
    (hchain : (calls ++ [last]).Pairwise fun a b => b.bundle.Extends a.bundle)
    (honce : once.bundle = last.bundle) :
    let each := s.importEach key c (calls ++ [last])
    let alone := once.run key c s
    (∀ m n, each.1.getLast? = some (.ok m) → alone.result = .ok n →
      each.2.1.disk.undated = alone.conn.disk.undated ∧ returned each.1 = n ∧
        alone.conn.disk.log.rows.length = c.disk.log.rows.length + n) ∧
    ∀ upstreamKey, parsePublicKey upstream = .ok upstreamKey → c.Free →
      (∀ call ∈ once :: (calls ++ [last]), call.env.Undisturbed ∧
        s.requireWritesAllowed call.env.gateClock = .ok ()) →
      (∃ outcome, once.decide upstreamKey c.disk.highWater = .ok outcome) →
      (∃ outcome, last.decide upstreamKey c.disk.highWater = .ok outcome) →
      c.disk.size + (firsts (fingerprint P) c.disk.fingerprints last.bundle.records).length ≤
        maxInteger →
      (∃ m, each.1.getLast? = some (.ok m)) ∧ ∃ n, alone.result = .ok n := by
  have hext : ∀ call ∈ calls, last.bundle.Extends call.bundle := fun call hcall =>
    (List.pairwise_append.1 hchain).2.2 call hcall last (List.mem_singleton_self last)
  constructor
  · intro m n heach halone
    obtain ⟨upstreamKey, outcome, entries, db, hkey, hdecided, himports, rfl, hrun⟩ :=
      ImportCall.run_eq_ok halone
    rw [ImportCall.imports, honce] at himports
    obtain ⟨hunmarked, hsum⟩ := importEach_imports hext heach rfl himports
    have hmarks := importEach_marks hkey hext honce heach hdecided
    have hlength : db.log.rows.length = c.disk.log.rows.length + entries.length := by
      rw [himports.log_rows, List.length_append, List.length_map]
    have hdisk : (once.run key c s).conn.disk =
        if outcome = .advanced then db.putHighWater (once.offered upstreamKey) else db := by
      rw [hrun]
    refine ⟨?_, hsum, ?_⟩
    · rw [Db.undated, Db.undated, hunmarked, hmarks, hdisk]
      split_ifs
      · rw [marks_putHighWater, marks_putHighWater, himports.marks_eq]
        rfl
      · rw [himports.marks_eq]
    · rw [hdisk]
      split_ifs <;> exact hlength
  · rintro upstreamKey hkey hc hcalls ⟨outcome, honceDecided⟩ ⟨outcome', hdecided⟩ hroom
    obtain ⟨⟨henv, hgate⟩, hcalls⟩ := List.forall_mem_cons.1 hcalls
    refine ⟨importEach_runs hkey hext hcalls hc hdb hdecided hroom, ?_⟩
    rcases ImportCall.run_runs key henv hc hgate hdb hkey (honce ▸ hroom) with
      ⟨n, entry, db, hrun⟩ | ⟨hno, -⟩
    · exact ⟨n, by rw [hrun]⟩
    · exact absurd honceDecided (hno outcome)

/-! ## On the sample registry -/

/-- A bundle of signed records that is accepted. -/
def sampleAccepted (records : List Dict) (hs : ∀ r ∈ records, (Json.obj r).Sorted)
    (h : (verifyBundle .sample (sampleSigner 8).publicPinned
      (sampleBundle (sampleSigner 8) records)).map Prod.snd = .ok records) :
    AcceptedBundle .sample (sampleSigner 8).publicPinned where
  bundle := sampleBundle (sampleSigner 8) records
  sorted := sorted_sampleBundle hs
  snapshot := ((verifyBundle .sample (sampleSigner 8).publicPinned
    (sampleBundle (sampleSigner 8) records)).toOption.getD ([], [])).1
  records
  accepted := by
    cases hv : verifyBundle .sample (sampleSigner 8).publicPinned
      (sampleBundle (sampleSigner 8) records) with
    | error e =>
      rw [hv] at h
      cases h
    | ok r =>
      rw [hv] at h
      exact congrArg Except.ok (Prod.ext rfl (Except.ok.inj h))

/-- What the upstream registry says of the tool, one statement after another. -/
def sampleStatements : List Dict :=
  [sampleSigned (sampleSigner 8) (py "audited"), sampleSigned (sampleSigner 8) (py "revoked")]

theorem sorted_sampleStatements : ∀ r ∈ sampleStatements, (Json.obj r).Sorted :=
  List.forall_mem_cons.2 ⟨sorted_sampleSigned _ _,
    List.forall_mem_singleton.2 (sorted_sampleSigned _ _)⟩

set_option maxRecDepth 10000 in
/-- The import of the first statement. -/
def sampleImportFirst : ImportCall .sample (sampleSigner 8).publicPinned :=
  ⟨.calm 0, sampleTime, false, sampleAccepted (sampleStatements.take 1)
    (fun r hr => sorted_sampleStatements r (List.mem_of_mem_take hr)) (by decide +kernel)⟩

set_option maxRecDepth 10000 in
/-- The import of both statements. -/
def sampleImportBoth : ImportCall .sample (sampleSigner 8).publicPinned :=
  ⟨.calm 0, sampleTime, false, sampleAccepted sampleStatements sorted_sampleStatements
    (by decide +kernel)⟩

set_option maxRecDepth 10000 in
theorem import_pathIndependent_sample :
    let each := sampleStore.importEach sampleKey sampleConn [sampleImportFirst, sampleImportBoth]
    let alone := sampleImportBoth.run sampleKey sampleConn sampleStore
    each.2.1.disk.undated = alone.conn.disk.undated ∧ returned each.1 = 2 ∧
      alone.conn.disk.log.rows.length = sampleConn.disk.log.rows.length + 2 := by
  have hready : Ready .sample sampleConn.disk := ⟨invariant_sample, by decide +kernel⟩
  have hchain : [sampleImportFirst, sampleImportBoth].Pairwise
      fun a b => b.bundle.Extends a.bundle := by
    refine List.pairwise_pair.2 ⟨List.take_prefix 1 sampleStatements, ?_⟩
    decide +kernel
  have heach : (sampleStore.importEach sampleKey sampleConn
      ([sampleImportFirst] ++ [sampleImportBoth])).1.getLast? = some (.ok 1) := by decide +kernel
  have halone : (sampleImportBoth.run sampleKey sampleConn sampleStore).result = .ok 2 := by
    decide +kernel
  exact (import_pathIndependent hready hchain rfl).1 1 2 heach halone

end SkillRegistry
