import SkillRegistry.Ledger

/-!
# What is read back from a log

A row of a log holds a record (`LogRow.record`), which a page, an export or a client
reads as part of an entry (`LogRow.entry`). On a log that is a chain every row can be
read, and the rows numbered above one size and up to another are a stretch of the log
(`Chained.logBetween_eq`).
-/

namespace SkillRegistry

open Wire

variable (P : Platform)

/-- The record that a row holds. -/
def LogRow.record (row : LogRow) : Dict :=
  match pyLoads P row.recordJson with
  | .ok (.obj record) => record
  | _ => []

/-- The entry that is read from a row. -/
def LogRow.entry (row : LogRow) : LogEntry := ⟨row.seq, row.entryHash, row.prevHash, row.record P⟩

variable {P}

theorem mapM_eq_ok {ε α β : Type} {l : List α} {f : α → Except ε β} {g : α → β}
    (h : ∀ x ∈ l, f x = .ok (g x)) : l.mapM f = .ok (l.map g) := by
  induction l with
  | nil => rfl
  | cons x l ih =>
    rw [List.mapM_cons, h x List.mem_cons_self, ih fun y hy => h y (List.mem_cons_of_mem _ hy)]
    rfl

/-- What a list is read to, one by one. -/
theorem forall₂_of_mapM {ε α β : Type} {l : List α} {f : α → Except ε β} {ys : List β}
    (h : l.mapM f = .ok ys) : List.Forall₂ (fun x y => f x = .ok y) l ys := by
  induction l generalizing ys with
  | nil =>
    obtain rfl := Except.ok.inj h
    exact .nil
  | cons x l ih =>
    rw [List.mapM_cons] at h
    obtain ⟨y, hy, h⟩ := Except.bind_eq_ok h
    obtain ⟨ys', hys', h⟩ := Except.bind_eq_ok h
    obtain rfl := Except.ok.inj h
    exact .cons hy (ih hys')

theorem exists_of_mem_mapM {ε α β : Type} {l : List α} {f : α → Except ε β} {ys : List β}
    (h : l.mapM f = .ok ys) {y : β} (hy : y ∈ ys) : ∃ x ∈ l, f x = .ok y := by
  obtain ⟨n, hn⟩ := List.mem_iff_getElem?.1 hy
  obtain ⟨hlen, hget⟩ := List.forall₂_iff_get.1 (forall₂_of_mapM h)
  obtain ⟨hlt, rfl⟩ := List.getElem?_eq_some_iff.1 hn
  have hlt' : n < l.length := hlen ▸ hlt
  exact ⟨l.get ⟨n, hlt'⟩, List.get_mem _ _, hget n hlt' hlt⟩

/-- A list that cannot be read has an item that cannot. -/
theorem exists_of_mapM_eq_error {ε α β : Type} {l : List α} {f : α → Except ε β} {e : ε}
    (h : l.mapM f = .error e) : ∃ x ∈ l, f x = .error e := by
  induction l with
  | nil => cases h
  | cons x l ih =>
    rw [List.mapM_cons] at h
    rcases Except.bind_eq_error.1 h with h | ⟨y, -, h⟩
    · exact ⟨x, List.mem_cons_self, h⟩
    · rcases Except.bind_eq_error.1 h with h | ⟨ys, -, h⟩
      · obtain ⟨x', hx', hfx'⟩ := ih h
        exact ⟨x', List.mem_cons_of_mem _ hx', hfx'⟩
      · cases h

theorem Holds.record_eq {row : LogRow} {record : Dict} {body : Bytes} (h : Holds P row record body) :
    row.record P = record := by
  rw [LogRow.record, h.loads]

theorem Holds.entryFromRow_eq {row : LogRow} {record : Dict} {body : Bytes}
    (h : Holds P row record body) : entryFromRow P row = .ok (row.entry P) := by
  rw [entryFromRow, h.loads, LogRow.entry, h.record_eq]
  rfl

namespace IsLog

variable {seq : Int} {prev : PyStr} {rows : List LogRow} {bodies : List Bytes}

/-- What a row of a chain holds. -/
theorem holds_record (h : IsLog P seq prev rows bodies) {row : LogRow} (hr : row ∈ rows) :
    ∃ body, Holds P row (row.record P) body := by
  obtain ⟨record, body, hrow⟩ := h.holds_of_mem hr
  exact ⟨body, hrow.record_eq.symm ▸ hrow⟩

theorem mapM_entryFromRow (h : IsLog P seq prev rows bodies) {l : List LogRow} (hl : l ⊆ rows) :
    l.mapM (entryFromRow P) = .ok (l.map (LogRow.entry P)) := by
  refine mapM_eq_ok fun row hr => ?_
  obtain ⟨body, hrow⟩ := h.holds_record (hl hr)
  exact hrow.entryFromRow_eq

end IsLog

/-- The rows above `since` and up to `cap`. -/
theorem Chained.logBetween_eq {db : Db} (h : Chained P db) (since cap : Nat) :
    db.logBetween since cap = (db.log.rows.take cap).drop since :=
  h.numbered.filter_between since cap

/-- The rows up to `cap` that satisfy some clauses. -/
theorem Chained.filter_upTo {db : Db} (h : Chained P db) (cap : Nat) (p : LogRow → Bool) :
    (db.log.rows.filter fun row => row.seq ≤ (cap : Int) && p row) =
      (db.log.rows.take cap).filter p := by
  rw [← h.numbered.filter_upTo cap, List.filter_filter]
  exact List.filter_congr fun row _ => Bool.and_comm _ _

end SkillRegistry
