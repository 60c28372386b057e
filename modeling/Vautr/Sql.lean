import Mathlib.Algebra.Ring.Int.Defs
import Mathlib.Algebra.Ring.Nat
import Mathlib.Data.List.Nodup

/-!
Tables with a primary key, and the statements of SQL on them.

A table is the list of its rows in insertion order. That no two rows share a key is part
of the type, so a statement that would break it cannot be written down: an `INSERT` of a
key that is there already is refused.
-/

namespace Vautr.Sql

/-- A table of rows `R` with the primary key `key`. -/
@[ext]
structure Table {R K : Type} (key : R → K) where
  rows : List R
  nodup : (rows.map key).Nodup

variable {R K : Type} [DecidableEq K] {key : R → K}

namespace Table

def empty : Table key := ⟨[], by simp⟩

/-- The table of one row. -/
def single (r : R) : Table key := ⟨[r], List.nodup_singleton _⟩

omit [DecidableEq K] in
@[simp] lemma single_rows (r : R) : (single r : Table key).rows = [r] := rfl

/-- `SELECT * WHERE key = k`. -/
def get (t : Table key) (k : K) : Option R := t.rows.find? fun r => key r = k

/-- `UPDATE SET f WHERE p`, of columns outside the key. -/
def update (t : Table key) (p : R → Bool) (f : R → R) (hf : ∀ r, key (f r) = key r) :
    Table key where
  rows := t.rows.map fun r => if p r then f r else r
  nodup := by
    have : (t.rows.map fun r => if p r then f r else r).map key = t.rows.map key := by
      rw [List.map_map]
      refine List.map_congr_left fun r _ => ?_
      by_cases h : p r <;> simp [h, hf]
    rw [this]
    exact t.nodup

/-- `INSERT`; `none` is the violation of the primary key. -/
def insert (t : Table key) (r : R) : Option (Table key) :=
  if h : key r ∈ t.rows.map key then none
  else some ⟨t.rows ++ [r], by
    rw [List.map_append, List.nodup_append]
    refine ⟨t.nodup, by simp, ?_⟩
    rintro a ha b hb rfl
    simp only [List.map_cons, List.map_nil, List.mem_singleton] at hb
    exact h (hb ▸ ha)⟩

/-- `INSERT ... ON CONFLICT DO UPDATE`: `f` is applied to the row that is there. -/
def upsert (t : Table key) (r : R) (f : R → R) (hf : ∀ r, key (f r) = key r) : Table key :=
  match t.insert r with
  | some t' => t'
  | none => t.update (fun r' => key r' = key r) f hf

/-- `DELETE WHERE p`. -/
def delete (t : Table key) (p : R → Bool) : Table key where
  rows := t.rows.filter fun r => !p r
  nodup := t.nodup.sublist (List.Sublist.map _ List.filter_sublist)

@[simp] lemma get_empty (k : K) : (empty : Table key).get k = none := rfl

lemma get_mem {t : Table key} {k : K} {r : R} (h : t.get k = some r) : r ∈ t.rows :=
  List.mem_of_find?_eq_some h

lemma get_key {t : Table key} {k : K} {r : R} (h : t.get k = some r) : key r = k := by
  simpa using List.find?_some h

/-- The key finds the row. -/
lemma get_of_mem {t : Table key} {r : R} (h : r ∈ t.rows) : t.get (key r) = some r := by
  obtain ⟨rows, hn⟩ := t
  simp only at h
  unfold get
  induction rows with
  | nil => simp at h
  | cons a l ih =>
    rw [List.map_cons, List.nodup_cons] at hn
    rcases List.mem_cons.mp h with rfl | h'
    · simp
    · have hne : key a ≠ key r := fun he => hn.1 (he ▸ List.mem_map_of_mem h')
      rw [List.find?_cons_of_neg (by simpa using hne)]
      exact ih hn.2 h'

lemma get_eq_some_iff {t : Table key} {k : K} {r : R} :
    t.get k = some r ↔ r ∈ t.rows ∧ key r = k :=
  ⟨fun h => ⟨get_mem h, get_key h⟩, fun ⟨h, hk⟩ => hk ▸ get_of_mem h⟩

lemma get_eq_none_iff {t : Table key} {k : K} : t.get k = none ↔ ∀ r ∈ t.rows, key r ≠ k := by
  simp [get]

/-- A key belongs to one row. -/
lemma eq_of_key {t : Table key} {r r' : R} (h : r ∈ t.rows) (h' : r' ∈ t.rows)
    (hk : key r = key r') : r = r' := by
  have hr := get_of_mem h
  rw [hk, get_of_mem h', Option.some.injEq] at hr
  exact hr.symm

/-- The rows of a list of keys have those of the keys that are there. -/
lemma map_key_filterMap_get (t : Table key) (ks : List K) :
    (ks.filterMap t.get).map key = ks.filter fun k => (t.get k).isSome := by
  induction ks with
  | nil => rfl
  | cons k ks ih =>
    cases hk : t.get k with
    | none => simp [hk, ih]
    | some r => simp [hk, ih, get_key hk]

@[simp] lemma get_update (t : Table key) (p : R → Bool) (f : R → R)
    (hf : ∀ r, key (f r) = key r) (k : K) :
    (t.update p f hf).get k = (t.get k).map fun r => if p r then f r else r := by
  have hk : ∀ r, key (if p r then f r else r) = key r := fun r => by
    by_cases h : p r <;> simp [h, hf]
  simp only [get, update, List.find?_map]
  congr 1
  exact congrArg (fun q => List.find? q t.rows) (funext fun r => by simp [hk r])

/-- A row after an update was there, and was updated if it met the condition. -/
lemma get_of_get_update {t : Table key} {p : R → Bool} {f : R → R} (hf : ∀ r, key (f r) = key r)
    {k : K} {r : R} (h : (t.update p f hf).get k = some r) :
    ∃ r', t.get k = some r' ∧ (if p r' then f r' else r') = r := by
  rw [get_update] at h
  exact Option.map_eq_some_iff.mp h

/-- A condition that fixes the key holds of one row or of none. -/
lemma countP_rows (t : Table key) {p : R → Bool} {k : K} (hp : ∀ r, p r → key r = k) :
    t.rows.countP p = (t.get k).toList.countP p := by
  obtain ⟨rows, hn⟩ := t
  simp only [get]
  induction rows with
  | nil => simp
  | cons a l ih =>
    rw [List.map_cons, List.nodup_cons] at hn
    by_cases hk : key a = k
    · have hl : l.countP p = 0 := by
        refine List.countP_eq_zero.mpr fun r hr h => hn.1 ?_
        rw [hk, ← hp r h]
        exact List.mem_map_of_mem hr
      simp [hk, List.countP_cons, hl]
    · have ha : ¬p a = true := fun h => hk (hp a h)
      simpa [List.countP_cons_of_neg ha, hk] using ih hn.2

omit [DecidableEq K] in
/-- An `UPDATE` that hits no row changes nothing. -/
lemma update_eq_self {t : Table key} {p : R → Bool} {f : R → R} (hf : ∀ r, key (f r) = key r)
    (h : t.rows.countP p = 0) : t.update p f hf = t := by
  ext1
  have : ∀ r ∈ t.rows, (if p r then f r else r) = r := fun r hr => by
    simp [List.countP_eq_zero.mp h r hr]
  exact (List.map_congr_left this).trans (List.map_id _)

lemma insert_eq_none_iff {t : Table key} {r : R} : t.insert r = none ↔ (t.get (key r)).isSome := by
  unfold insert
  split
  · next h =>
    obtain ⟨r', hr', hk⟩ := List.mem_map.mp h
    simp [← hk, get_of_mem hr']
  · next h =>
    simp only [reduceCtorEq, false_iff, Option.isSome_iff_ne_none, ne_eq, not_not]
    exact get_eq_none_iff.mpr fun r' hr' he => h (he ▸ List.mem_map_of_mem hr')

lemma insert_eq_some {t t' : Table key} {r : R} (h : t.insert r = some t') :
    t.get (key r) = none ∧ t'.rows = t.rows ++ [r] := by
  refine ⟨?_, ?_⟩
  · have : ¬(t.get (key r)).isSome := fun hs => by
      rw [← insert_eq_none_iff, h] at hs
      cases hs
    simpa using this
  · unfold insert at h
    split at h
    · cases h
    · rw [← Option.some.inj h]

lemma get_insert {t t' : Table key} {r : R} (h : t.insert r = some t') (k : K) :
    t'.get k = if key r = k then some r else t.get k := by
  obtain ⟨hn, hr⟩ := insert_eq_some h
  simp only [get, hr, List.find?_append]
  by_cases hk : key r = k
  · subst hk
    have : t.rows.find? (fun r' => decide (key r' = key r)) = none := hn
    simp [this]
  · cases t.rows.find? (fun r => decide (key r = k)) <;> simp [hk]

@[simp] lemma get_upsert (t : Table key) (r : R) (f : R → R) (hf : ∀ r, key (f r) = key r)
    (k : K) :
    (t.upsert r f hf).get k =
      if key r = k then some (((t.get k).map f).getD r) else t.get k := by
  unfold upsert
  cases h : t.insert r with
  | some t' =>
    have hn := (insert_eq_some h).1
    rw [get_insert h]
    by_cases hk : key r = k
    · subst hk; simp [hn]
    · simp [hk]
  | none =>
    have hs := insert_eq_none_iff.mp h
    simp only [get_update]
    by_cases hk : key r = k
    · subst hk
      obtain ⟨r', hr'⟩ := Option.isSome_iff_exists.mp hs
      simp [hr', get_key hr']
    · cases hg : t.get k with
      | none => simp [hk]
      | some r' =>
        have := get_key hg
        simp [hk, this, Ne.symm hk]

@[simp] lemma get_delete (t : Table key) (p : R → Bool) (k : K) :
    (t.delete p).get k = (t.get k).filter fun r => !p r := by
  cases hg : t.get k with
  | none =>
    rw [Option.filter_none, get_eq_none_iff]
    intro r hr
    exact get_eq_none_iff.mp hg r (List.mem_filter.mp hr).1
  | some r =>
    obtain ⟨hm, rfl⟩ := get_eq_some_iff.mp hg
    by_cases hp : p r
    · rw [Option.filter_some, if_neg (by simp [hp]), get_eq_none_iff]
      intro r' hr' hk
      obtain ⟨hm', hp'⟩ := List.mem_filter.mp hr'
      have := get_of_mem hm'
      rw [hk, hg] at this
      cases this
      simp [hp] at hp'
    · rw [Option.filter_some, if_pos (by simp [hp])]
      exact get_of_mem (List.mem_filter.mpr ⟨hm, by simp [hp]⟩)

omit [DecidableEq K] in
lemma mem_delete {t : Table key} {p : R → Bool} {r : R} :
    r ∈ (t.delete p).rows ↔ r ∈ t.rows ∧ p r = false := by
  simp [delete]

/-- The rows after an upsert: old ones, the new one, or the old one with its key, changed. -/
lemma mem_upsert {t : Table key} {r r' : R} {f : R → R} {hf : ∀ r, key (f r) = key r}
    (h : r' ∈ (t.upsert r f hf).rows) :
    r' ∈ t.rows ∨ r' = r ∨ ∃ r₀ ∈ t.rows, key r₀ = key r ∧ r' = f r₀ := by
  unfold upsert at h
  cases hi : t.insert r with
  | some t' =>
    simp only [hi, (insert_eq_some hi).2, List.mem_append, List.mem_singleton] at h
    rcases h with h | h
    · exact .inl h
    · exact .inr (.inl h)
  | none =>
    simp only [hi] at h
    obtain ⟨r₀, hr₀, rfl⟩ := List.mem_map.mp h
    by_cases hk : key r₀ = key r
    · exact .inr (.inr ⟨r₀, hr₀, hk, by simp [hk]⟩)
    · exact .inl (by simpa [hk] using hr₀)

end Table

/-! ### A second unique column -/

/-- A table with the primary key `key` and the `UNIQUE` column `key'`. -/
structure Table₂ {R K K' : Type} (key : R → K) (key' : R → K') extends Table key where
  nodup' : (rows.map key').Nodup

namespace Table₂

variable {K' : Type} [DecidableEq K'] {key' : R → K'}

def empty : Table₂ key key' := ⟨.empty, by simp [Table.empty]⟩

/-- The same rows, by the second column. -/
def by' (t : Table₂ key key') : Table key' := ⟨t.rows, t.nodup'⟩

/-- `INSERT`; `none` is the violation of one of the two. -/
def insert (t : Table₂ key key') (r : R) : Option (Table₂ key key') :=
  if h : key r ∈ t.rows.map key ∨ key' r ∈ t.rows.map key' then none
  else some ⟨⟨t.rows ++ [r], by
      rw [List.map_append]
      exact List.Nodup.append t.nodup (by simp)
        (by simpa [List.Disjoint] using fun a ha he => h (.inl (List.mem_map.mpr ⟨a, ha, he⟩)))⟩, by
      rw [List.map_append]
      exact List.Nodup.append t.nodup' (by simp)
        (by simpa [List.Disjoint] using fun a ha he => h (.inr (List.mem_map.mpr ⟨a, ha, he⟩)))⟩

/-- `UPDATE SET f WHERE p`, of columns outside the two. -/
def update (t : Table₂ key key') (p : R → Bool) (f : R → R) (hf : ∀ r, key (f r) = key r)
    (hf' : ∀ r, key' (f r) = key' r) : Table₂ key key' :=
  ⟨t.toTable.update p f hf, (t.by'.update p f hf').nodup⟩

/-- `DELETE WHERE p`. -/
def delete (t : Table₂ key key') (p : R → Bool) : Table₂ key key' :=
  ⟨t.toTable.delete p, (t.by'.delete p).nodup⟩

lemma insert_eq_some {t t' : Table₂ key key'} {r : R} (h : t.insert r = some t') :
    t.get (key r) = none ∧ t.by'.get (key' r) = none ∧ t'.rows = t.rows ++ [r] := by
  unfold insert at h
  split at h
  · cases h
  · next hn =>
    rw [not_or] at hn
    refine ⟨Table.get_eq_none_iff.mpr fun a ha he => hn.1 (List.mem_map.mpr ⟨a, ha, he⟩),
      Table.get_eq_none_iff.mpr fun a ha he => hn.2 (List.mem_map.mpr ⟨a, ha, he⟩), ?_⟩
    rw [← Option.some.inj h]

end Table₂

end Vautr.Sql
