import Vautr.Sql

/-!
An index over a table, as a database keeps it by triggers.

The index has entries of its own, each a row id and a text, and the table is its content: triggers
on the table tell it what to add and what to remove. It is exact if it has one entry for each row;
it stays so under all writes with the triggers in place, and is so again after it was built anew.
-/

namespace Vautr.ContentIndex

open Vautr.Sql

variable {R K D : Type} {key : R → K}

/-! ### The index -/

/-- An index that is not there, one with these entries, or one whose state nothing is said of. -/
inductive Index (D : Type)
  | missing
  | entries (l : List (ℕ × D))
  | undefined

def Index.isMissing : Index D → Bool
  | .missing => true
  | .entries _ => false
  | .undefined => false

/-- An entry is added; `none` is an error. -/
def Index.add (e : ℕ × D) : Index D → Option (Index D)
  | .missing => none
  | .entries l => some (.entries (l ++ [e]))
  | .undefined => some .undefined

/-- An entry is removed. If it is not there, nothing is said of the index any more. -/
def Index.remove [DecidableEq D] (e : ℕ × D) : Index D → Option (Index D)
  | .missing => none
  | .entries l => some (if e ∈ l then .entries (l.erase e) else .undefined)
  | .undefined => some .undefined

/-- An entry is replaced by another one, or by none. -/
def Index.replace [DecidableEq D] (e : ℕ × D) (new : Option (ℕ × D)) (i : Index D) :
    Option (Index D) :=
  (i.remove e).bind fun i => new.elim (some i) fun e' => i.add e'

/-! ### The table -/

/-- The triggers, by the statement that they follow. -/
inductive Trigger
  | insert
  | delete
  | update

/-- A table with its row ids, its index, and the triggers that are in place. -/
structure Content (key : R → K) (D : Type) where
  table : Table key
  rowid : K → ℕ
  index : Index D
  onInsert : Bool
  onDelete : Bool
  onUpdate : Bool
  distinct : ∀ r ∈ table.rows, ∀ r' ∈ table.rows, rowid (key r) = rowid (key r') → key r = key r'

namespace Content

variable (doc : R → D) (c : Content key D)

def entry (r : R) : ℕ × D := (c.rowid (key r), doc r)

/-- The row id after the highest one. -/
def nextRowid : ℕ := (c.table.rows.map fun r => c.rowid (key r)).foldr max 0 + 1

/-- A trigger that is there needs the index: without it no statement that could fire the trigger is
prepared, whatever its rows. -/
def compiles (on : Bool) : Bool := !(on && c.index.isMissing)

/-- What a trigger does, if it is there. -/
def fire (on : Bool) (f : Index D → Option (Index D)) (i : Index D) : Option (Index D) :=
  if on then f i else some i

lemma lt_nextRowid {r : R} (hr : r ∈ c.table.rows) : c.rowid (key r) < c.nextRowid := by
  have hle : ∀ l : List ℕ, ∀ n ∈ l, n ≤ l.foldr max 0 := by
    intro l
    induction l with
    | nil => simp
    | cons m l ih =>
      intro n hn
      rcases List.mem_cons.mp hn with rfl | hn
      · exact le_max_left _ _
      · exact le_trans (ih n hn) (le_max_right _ _)
  exact Nat.lt_succ_of_le (hle _ _ (List.mem_map_of_mem hr))

lemma distinct_update (p : R → Bool) (f : R → R) (hf : ∀ r, key (f r) = key r) :
    ∀ r ∈ (c.table.update p f hf).rows, ∀ r' ∈ (c.table.update p f hf).rows,
      c.rowid (key r) = c.rowid (key r') → key r = key r' := by
  have hold : ∀ r ∈ (c.table.update p f hf).rows, ∃ r₀ ∈ c.table.rows, key r₀ = key r := by
    intro r hr
    obtain ⟨r₀, hr₀, rfl⟩ := List.mem_map.mp hr
    refine ⟨r₀, hr₀, ?_⟩
    split
    · exact (hf r₀).symm
    · rfl
  intro r hr r' hr' heq
  obtain ⟨r₀, hr₀, hk⟩ := hold r hr
  obtain ⟨r₁, hr₁, hk'⟩ := hold r' hr'
  rw [← hk, ← hk'] at heq ⊢
  exact c.distinct r₀ hr₀ r₁ hr₁ heq

lemma distinct_delete (p : R → Bool) :
    ∀ r ∈ (c.table.delete p).rows, ∀ r' ∈ (c.table.delete p).rows,
      c.rowid (key r) = c.rowid (key r') → key r = key r' :=
  fun r hr r' hr' => c.distinct r (List.mem_of_mem_filter hr) r' (List.mem_of_mem_filter hr')

variable {c} in
/-- The row ids with that of a new row are distinct. -/
lemma distinct_insert [DecidableEq K] {r : R} {t : Table key} (h : c.table.insert r = some t) :
    ∀ r₁ ∈ t.rows, ∀ r₂ ∈ t.rows, Function.update c.rowid (key r) c.nextRowid (key r₁) =
      Function.update c.rowid (key r) c.nextRowid (key r₂) → key r₁ = key r₂ := by
  obtain ⟨hnone, hrows⟩ := Table.insert_eq_some h
  have hold : ∀ r₁ ∈ c.table.rows, key r₁ ≠ key r := Table.get_eq_none_iff.mp hnone
  intro r₁ h₁ r₂ h₂ heq
  simp only [hrows, List.mem_append, List.mem_singleton] at h₁ h₂
  rcases h₁ with h₁ | rfl
  · rcases h₂ with h₂ | rfl
    · rw [Function.update_of_ne (hold r₁ h₁), Function.update_of_ne (hold r₂ h₂)] at heq
      exact c.distinct r₁ h₁ r₂ h₂ heq
    · rw [Function.update_of_ne (hold r₁ h₁), Function.update_self] at heq
      exact absurd heq (Nat.ne_of_lt (c.lt_nextRowid h₁))
  · rcases h₂ with h₂ | rfl
    · rw [Function.update_of_ne (hold r₂ h₂), Function.update_self] at heq
      exact absurd heq (Nat.ne_of_gt (c.lt_nextRowid h₂))
    · rfl

/-- The row was inserted, and the index is `i` then. -/
def inserted [DecidableEq K] {r : R} {t : Table key} (h : c.table.insert r = some t) (i : Index D) :
    Content key D :=
  { c with
    table := t
    rowid := Function.update c.rowid (key r) c.nextRowid
    index := i
    distinct := distinct_insert h }

/-- The rows were updated, and the index is `i` then. -/
def updated (p : R → Bool) (f : R → R) (hf : ∀ r, key (f r) = key r) (i : Index D) :
    Content key D :=
  { c with
    table := c.table.update p f hf
    index := i
    distinct := c.distinct_update p f hf }

/-- The rows were deleted, and the index is `i` then. -/
def deleted (p : R → Bool) (i : Index D) : Content key D :=
  { c with
    table := c.table.delete p
    index := i
    distinct := c.distinct_delete p }

/-- `INSERT`, with its trigger; `none` is an error, and the statement has no effect then. -/
def insert [DecidableEq K] (r : R) : Option (Content key D) :=
  match h : c.table.insert r with
  | none => none
  | some _ => if c.compiles c.onInsert then
      (fire c.onInsert (Index.add (c.nextRowid, doc r)) c.index).map fun i => c.inserted h i
    else none

/-- `UPDATE SET f WHERE p`, with the trigger for each row. -/
def update [DecidableEq D] (p : R → Bool) (f : R → R) (hf : ∀ r, key (f r) = key r) :
    Option (Content key D) :=
  if c.compiles c.onUpdate then
    ((c.table.rows.filter p).foldlM (fun i r => fire c.onUpdate
      (Index.replace (c.entry doc r) (some (c.rowid (key r), doc (f r)))) i) c.index).map
        (c.updated p f hf)
  else none

/-- `DELETE WHERE p`, with the trigger for each row. -/
def delete [DecidableEq D] (p : R → Bool) : Option (Content key D) :=
  if c.compiles c.onDelete then
    ((c.table.rows.filter p).foldlM (fun i r => fire c.onDelete
      (Index.replace (c.entry doc r) none) i) c.index).map (c.deleted p)
  else none

/-- `INSERT ... ON CONFLICT DO UPDATE`: one of both triggers. -/
def upsert [DecidableEq K] [DecidableEq D] (r : R) (f : R → R) (hf : ∀ r, key (f r) = key r) :
    Option (Content key D) :=
  if c.compiles c.onInsert && c.compiles c.onUpdate then
    if (c.table.get (key r)).isSome then c.update doc (fun r' => key r' = key r) f hf
    else c.insert doc r
  else none

def withIndex (i : Index D) : Content key D := { c with index := i }

/-- `DROP TABLE IF EXISTS`, of the index. -/
def dropIndex : Content key D := c.withIndex .missing

/-- `CREATE TABLE IF NOT EXISTS`, of the index. -/
def createIndex : Content key D :=
  if c.index.isMissing then c.withIndex (.entries []) else c

/-- `CREATE TRIGGER IF NOT EXISTS` or `DROP TRIGGER IF EXISTS`. -/
def setTrigger (t : Trigger) (on : Bool) : Content key D :=
  match t with
  | .insert => { c with onInsert := on }
  | .delete => { c with onDelete := on }
  | .update => { c with onUpdate := on }

def setTriggers (on : Bool) : Content key D :=
  ((c.setTrigger .insert on).setTrigger .delete on).setTrigger .update on

/-- `INSERT INTO index SELECT ... FROM table`. -/
def populate : Option (Content key D) :=
  if c.index.isMissing then none
  else (c.table.rows.foldlM (fun i r => Index.add (c.entry doc r) i) c.index).map c.withIndex

/-- What matches in the index, by way of the row with the id of the entry and the rows with the key
of that row; `none` is an error, or an answer that nothing is said of. -/
def search [DecidableEq K] (p : D → Bool) : Option (List R) :=
  match c.index with
  | .entries l => some <| (l.filter fun e => p e.2).flatMap fun e =>
    (c.table.rows.filter fun r => c.rowid (key r) = e.1).flatMap fun r =>
      c.table.rows.filter fun r' => key r' = key r
  | _ => none

/-! ### An exact index -/

/-- The entries that an exact index has. -/
def allEntries : List (ℕ × D) := c.table.rows.map (c.entry doc)

/-- All triggers are there, and the index has one entry for each row. -/
structure Exact : Prop where
  onInsert : c.onInsert = true
  onDelete : c.onDelete = true
  onUpdate : c.onUpdate = true
  index : ∃ l, c.index = .entries l ∧ l.Perm (c.allEntries doc)

@[simp] lemma fire_true (f : Index D → Option (Index D)) (i : Index D) : fire true f i = f i := rfl

/-- Entries that are there are replaced one by one. -/
lemma foldlM_replace [DecidableEq D] (old : R → ℕ × D) (new : R → Option (ℕ × D)) (rs : List R) :
    ∀ {l rest : List (ℕ × D)}, l.Perm (rs.map old ++ rest) →
      ∃ l', rs.foldlM (fun i r => Index.replace (old r) (new r) i) (.entries l) =
        some (.entries l') ∧ l'.Perm (rs.filterMap new ++ rest) := by
  induction rs with
  | nil => exact fun {l rest} h => ⟨l, rfl, h⟩
  | cons r rs ih =>
    intro l rest h
    have hmem : old r ∈ l := h.symm.subset (by simp)
    have herase : (l.erase (old r)).Perm (rs.map old ++ rest) := by
      simpa using h.erase (old r)
    cases hnew : new r with
    | none =>
      obtain ⟨l', hl', hp⟩ := ih herase
      refine ⟨l', ?_, by simpa [hnew] using hp⟩
      simpa [Index.replace, Index.remove, hmem, hnew] using hl'
    | some e =>
      have hadd : (l.erase (old r) ++ [e]).Perm (rs.map old ++ (rest ++ [e])) := by
        simpa using herase.append_right [e]
      obtain ⟨l', hl', hp⟩ := ih hadd
      refine ⟨l', ?_, hp.trans ?_⟩
      · simpa [Index.replace, Index.remove, Index.add, hmem, hnew] using hl'
      · rw [List.filterMap_cons_some hnew, ← List.append_assoc]
        exact List.perm_append_singleton _ _

lemma foldlM_add (new : R → ℕ × D) (rs : List R) : ∀ l : List (ℕ × D),
    rs.foldlM (fun i r => Index.add (new r) i) (.entries l) =
      some (.entries (l ++ rs.map new)) := by
  induction rs with
  | nil => simp
  | cons r rs ih =>
    intro l
    have hr := ih (l ++ [new r])
    rw [List.append_assoc] at hr
    exact hr

/-- The rows that are picked first, then the others. -/
lemma map_perm_filter {A : Type} (g : R → A) (p : R → Bool) (rs : List R) :
    (rs.map g).Perm ((rs.filter p).map g ++ (rs.filter fun r => !p r).map g) := by
  rw [← List.map_append]
  exact (List.filter_append_perm p rs).symm.map g

lemma allEntries_updated (p : R → Bool) (f : R → R) (hf : ∀ r, key (f r) = key r) (i : Index D) :
    ((c.table.rows.filter p).map (fun r => (c.rowid (key r), doc (f r))) ++
      (c.table.rows.filter fun r => !p r).map (c.entry doc)).Perm
        ((c.updated p f hf i).allEntries doc) := by
  have hpick : (c.table.rows.filter p).map (fun r => (c.rowid (key r), doc (f r))) =
      (c.table.rows.filter p).map fun r => c.entry doc (if p r then f r else r) := by
    refine List.map_congr_left fun r hr => ?_
    simp [(List.mem_filter.mp hr).2, entry, hf]
  have hrest : (c.table.rows.filter fun r => !p r).map (c.entry doc) =
      (c.table.rows.filter fun r => !p r).map fun r => c.entry doc (if p r then f r else r) := by
    refine List.map_congr_left fun r hr => ?_
    simp [show p r = false by simpa using (List.mem_filter.mp hr).2]
  rw [hpick, hrest]
  refine (map_perm_filter _ p _).symm.trans (.of_eq ?_)
  simp only [allEntries, updated, Table.update, List.map_map]
  rfl

lemma allEntries_inserted [DecidableEq K] {r : R} {t : Table key}
    (h : c.table.insert r = some t) (i : Index D) :
    (c.inserted h i).allEntries doc = c.allEntries doc ++ [(c.nextRowid, doc r)] := by
  obtain ⟨hnone, hrows⟩ := Table.insert_eq_some h
  have hold : ∀ r' ∈ c.table.rows,
      (Function.update c.rowid (key r) c.nextRowid (key r'), doc r') = c.entry doc r' := by
    intro r' hr'
    rw [Function.update_of_ne (Table.get_eq_none_iff.mp hnone r' hr')]
    rfl
  calc (c.inserted h i).allEntries doc
      = t.rows.map fun r' => (Function.update c.rowid (key r) c.nextRowid (key r'), doc r') := rfl
    _ = c.table.rows.map (fun r' =>
          (Function.update c.rowid (key r) c.nextRowid (key r'), doc r')) ++
            [(Function.update c.rowid (key r) c.nextRowid (key r), doc r)] := by
        rw [hrows, List.map_append, List.map_singleton]
    _ = c.allEntries doc ++ [(c.nextRowid, doc r)] := by
        rw [List.map_congr_left hold, Function.update_self, allEntries]

variable {doc c}

lemma Exact.compiles (h : c.Exact doc) (on : Bool) : c.compiles on = true := by
  obtain ⟨l, hl, -⟩ := h.index
  simp [Content.compiles, hl, Index.isMissing]

/-- `UPDATE` does not fail on an exact index, and keeps it exact. -/
lemma Exact.update [DecidableEq D] (h : c.Exact doc) (p : R → Bool) (f : R → R)
    (hf : ∀ r, key (f r) = key r) :
    ∃ c', c.update doc p f hf = some c' ∧ c'.table = c.table.update p f hf ∧ c'.Exact doc := by
  obtain ⟨l, hl, hp⟩ := h.index
  obtain ⟨l', hl', hp'⟩ := foldlM_replace (c.entry doc)
    (fun r => some (c.rowid (key r), doc (f r))) (c.table.rows.filter p)
    (hp.trans (map_perm_filter _ p _))
  have hrun : (c.table.rows.filter p).foldlM (fun i r => fire c.onUpdate
      (Index.replace (c.entry doc r) (some (c.rowid (key r), doc (f r)))) i) c.index =
      some (.entries l') := by
    simpa only [h.onUpdate, fire_true, hl] using hl'
  refine ⟨c.updated p f hf (.entries l'), ?_, rfl, h.onInsert, h.onDelete, h.onUpdate, l', rfl,
    hp'.trans ?_⟩
  · rw [Content.update, if_pos (h.compiles _), hrun]
    rfl
  · rw [List.filterMap_eq_map']
    exact allEntries_updated doc c p f hf _

/-- `DELETE` does not fail on an exact index, and keeps it exact. -/
lemma Exact.delete [DecidableEq D] (h : c.Exact doc) (p : R → Bool) :
    ∃ c', c.delete doc p = some c' ∧ c'.table = c.table.delete p ∧ c'.Exact doc := by
  obtain ⟨l, hl, hp⟩ := h.index
  obtain ⟨l', hl', hp'⟩ := foldlM_replace (c.entry doc) (fun _ => none) (c.table.rows.filter p)
    (hp.trans (map_perm_filter _ p _))
  have hrun : (c.table.rows.filter p).foldlM (fun i r => fire c.onDelete
      (Index.replace (c.entry doc r) none) i) c.index = some (.entries l') := by
    simpa only [h.onDelete, fire_true, hl] using hl'
  refine ⟨c.deleted p (.entries l'), ?_, rfl, h.onInsert, h.onDelete, h.onUpdate, l', rfl, ?_⟩
  · rw [Content.delete, if_pos (h.compiles _), hrun]
    rfl
  · rw [List.filterMap_none, List.nil_append] at hp'
    exact hp'

/-- `INSERT` fails on an exact index only if the key is taken, and keeps it exact. -/
lemma Exact.insert [DecidableEq K] (h : c.Exact doc) {r : R} {t : Table key}
    (ht : c.table.insert r = some t) :
    ∃ c', c.insert doc r = some c' ∧ c'.table = t ∧ c'.Exact doc := by
  obtain ⟨l, hl, hp⟩ := h.index
  have hrun : fire c.onInsert (Index.add (c.nextRowid, doc r)) c.index =
      some (.entries (l ++ [(c.nextRowid, doc r)])) := by
    rw [h.onInsert, fire_true, hl]
    rfl
  refine ⟨c.inserted ht (.entries (l ++ [(c.nextRowid, doc r)])), ?_, rfl, h.onInsert, h.onDelete,
    h.onUpdate, _, rfl, ?_⟩
  · unfold Content.insert
    split
    · next hn => simp [hn] at ht
    · next t' ht' =>
      obtain rfl : t' = t := by simpa [ht'] using ht
      rw [if_pos (h.compiles _), hrun]
      rfl
  · rw [allEntries_inserted]
    exact hp.append_right _

/-- `INSERT ... ON CONFLICT DO UPDATE` does not fail on an exact index, and keeps it exact. -/
lemma Exact.upsert [DecidableEq K] [DecidableEq D] (h : c.Exact doc) (r : R) (f : R → R)
    (hf : ∀ r, key (f r) = key r) :
    ∃ c', c.upsert doc r f hf = some c' ∧ c'.table = c.table.upsert r f hf ∧ c'.Exact doc := by
  have hc : (c.compiles c.onInsert && c.compiles c.onUpdate) = true := by simp [h.compiles]
  rw [Content.upsert, if_pos hc]
  unfold Table.upsert
  cases ht : c.table.insert r with
  | none =>
    rw [if_pos (Table.insert_eq_none_iff.mp ht)]
    exact h.update _ f hf
  | some t =>
    rw [if_neg (by rw [(Table.insert_eq_some ht).1]; simp)]
    exact h.insert ht

/-- One upsert after the other. -/
lemma Exact.foldlM_upsert [DecidableEq K] [DecidableEq D] {f : R → R → R}
    (hf : ∀ r₀ r, key (f r₀ r) = key r) (rs : List R) (h : c.Exact doc) :
    ∃ c', rs.foldlM (fun c r => c.upsert doc r (f r) (hf r)) c = some c' ∧
      c'.table = rs.foldl (fun t r => t.upsert r (f r) (hf r)) c.table ∧ c'.Exact doc := by
  induction rs generalizing c with
  | nil => exact ⟨c, rfl, rfl, h⟩
  | cons r rs ih =>
    obtain ⟨c₁, hc₁, ht₁, h₁⟩ := h.upsert r (f r) (hf r)
    obtain ⟨c', hc', ht', h'⟩ := ih h₁
    refine ⟨c', ?_, by rw [ht', ht₁]; rfl, h'⟩
    rw [List.foldlM_cons, hc₁]
    exact hc'

/-! ### Built anew -/

/-- Nothing is there but the table. -/
structure Bare (c : Content key D) : Prop where
  onInsert : c.onInsert = false
  onDelete : c.onDelete = false
  onUpdate : c.onUpdate = false
  index : c.index = .missing

variable (c) in
lemma dropped_bare : (c.dropIndex.setTriggers false).Bare := ⟨rfl, rfl, rfl, rfl⟩

variable (doc) in
/-- `INSERT` without an index is that of the table. -/
lemma Bare.insert [DecidableEq K] (h : c.Bare) {r : R} {t : Table key}
    (ht : c.table.insert r = some t) :
    ∃ c', c.insert doc r = some c' ∧ c'.table = t ∧ c'.Bare := by
  refine ⟨c.inserted ht .missing, ?_, rfl, h.onInsert, h.onDelete, h.onUpdate, rfl⟩
  unfold Content.insert
  split
  · next hn => simp [hn] at ht
  · next t' ht' =>
    obtain rfl : t' = t := by simpa [ht'] using ht
    simp [Content.compiles, fire, h.onInsert, h.index]

variable (doc) in
lemma Bare.foldlM_insert [DecidableEq K] (rs : List R) (h : c.Bare) {t : Table key}
    (ht : rs.foldlM (fun t r => t.insert r) c.table = some t) :
    ∃ c', rs.foldlM (fun c r => c.insert doc r) c = some c' ∧ c'.table = t ∧ c'.Bare := by
  induction rs generalizing c with
  | nil => exact ⟨c, rfl, Option.some.inj ht, h⟩
  | cons r rs ih =>
    rw [List.foldlM_cons] at ht
    obtain ⟨t₁, ht₁, ht⟩ := Option.bind_eq_some_iff.mp ht
    obtain ⟨c₁, hc₁, htable, h₁⟩ := h.insert doc ht₁
    obtain ⟨c', hc', h'⟩ := ih h₁ (htable ▸ ht)
    refine ⟨c', ?_, h'⟩
    rw [List.foldlM_cons, hc₁]
    exact hc'

variable (doc) in
/-- What is created again and filled from the table is exact. -/
lemma recreated_exact (hi : c.index = .missing) :
    ∃ c', (c.createIndex.setTriggers true).populate doc = some c' ∧ c'.table = c.table ∧
      c'.Exact doc := by
  have hadd := foldlM_add (c.entry doc) c.table.rows []
  have hcreated : c.createIndex = c.withIndex (.entries []) := by
    simp [createIndex, hi, Index.isMissing]
  rw [hcreated]
  exact ⟨((c.withIndex (.entries [])).setTriggers true).withIndex (.entries (c.allEntries doc)),
    congrArg (Option.map ((c.withIndex (.entries [])).setTriggers true).withIndex) hadd, rfl,
    rfl, rfl, rfl, _, rfl, .rfl⟩

/-- What an exact index finds are the rows that match. -/
lemma Exact.search [DecidableEq K] (h : c.Exact doc) (p : D → Bool) :
    ∃ hits, c.search p = some hits ∧ hits.Perm (c.table.rows.filter fun r => p (doc r)) := by
  obtain ⟨l, hl, hp⟩ := h.index
  refine ⟨_, by rw [Content.search, hl], ((hp.filter _).flatMap_right _).trans (.of_eq ?_)⟩
  have hkey : ∀ r ∈ c.table.rows, (c.table.rows.filter fun r' => key r' = key r) = [r] := by
    intro r hr
    refine List.perm_singleton.mp ((List.perm_ext_iff_of_nodup ?_ (List.nodup_singleton r)).mpr ?_)
    · exact c.table.nodup.of_map.filter _
    · intro r'
      simp only [List.mem_filter, decide_eq_true_eq, List.mem_singleton]
      exact ⟨fun h' => Table.eq_of_key h'.1 hr h'.2, by rintro rfl; exact ⟨hr, rfl⟩⟩
  have hrowid : ∀ r ∈ c.table.rows,
      (c.table.rows.filter fun r' => c.rowid (key r') = (c.entry doc r).1) = [r] := by
    intro r hr
    rw [← hkey r hr]
    refine List.filter_congr fun r' hr' => ?_
    rw [decide_eq_decide]
    exact ⟨c.distinct r' hr' r hr, congrArg c.rowid⟩
  rw [allEntries, List.filter_map, List.flatMap_map]
  calc _ = (c.table.rows.filter fun r => p (doc r)).flatMap fun r => [r] := by
        refine List.flatMap_congr fun r hr => ?_
        have hr := List.mem_of_mem_filter hr
        rw [hrowid r hr, List.flatMap_singleton, hkey r hr]
    _ = c.table.rows.filter fun r => p (doc r) := List.flatMap_singleton' _

/-! ### Dropped, with the triggers -/

/-- The index is missing, and its triggers are not. -/
structure Stuck (c : Content key D) : Prop where
  onInsert : c.onInsert = true
  onDelete : c.onDelete = true
  onUpdate : c.onUpdate = true
  index : c.index = .missing

lemma Exact.stuck (h : c.Exact doc) : c.dropIndex.Stuck :=
  ⟨h.onInsert, h.onDelete, h.onUpdate, rfl⟩

lemma Stuck.update [DecidableEq D] (h : c.Stuck) (p : R → Bool) (f : R → R)
    (hf : ∀ r, key (f r) = key r) : c.update doc p f hf = none := by
  simp [Content.update, compiles, h.onUpdate, h.index, Index.isMissing]

lemma Stuck.delete [DecidableEq D] (h : c.Stuck) (p : R → Bool) : c.delete doc p = none := by
  simp [Content.delete, compiles, h.onDelete, h.index, Index.isMissing]

lemma Stuck.upsert [DecidableEq K] [DecidableEq D] (h : c.Stuck) (r : R) (f : R → R)
    (hf : ∀ r, key (f r) = key r) : c.upsert doc r f hf = none := by
  simp [Content.upsert, compiles, h.onInsert, h.index, Index.isMissing]

lemma Stuck.search [DecidableEq K] (h : c.Stuck) (p : D → Bool) : c.search p = none := by
  rw [Content.search, h.index]

end Content

end Vautr.ContentIndex
