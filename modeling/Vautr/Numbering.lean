import Vautr.Handlers

/-!
The sequence numbers of items (`items.seq`): what a write does to them.

Each write takes the number after the highest one among the user's rows, so a number that
was ever used stays below every number given later, although the row that held it may have
moved on.
-/

namespace Vautr.Numbering

open Vautr.Atomic Vautr.Sql Vautr.Database Vautr.Api Vautr.Server Vautr.Handlers

variable {B : Type} {X : Ext B} {s s' s'' : Db B} {user : Ident} {n m : ℤ}
  {rely : Stmt → Db B → Db B → Prop}

/-- A row of the user has the number `n`. -/
def Has (db : Db B) (user : Ident) (n : ℤ) : Prop :=
  ∃ r ∈ db.items.rows, r.userId = user ∧ r.seq = some n

/-- No two rows of a user share a number. -/
def Distinct (db : Db B) : Prop :=
  ∀ r ∈ db.items.rows, ∀ r' ∈ db.items.rows, r.userId = r'.userId → ∀ n, r.seq = some n →
    r'.seq = some n → r = r'

/-- At most one row is written, and it takes the next number of its user. -/
structure Numbers (s s' : Db B) : Prop where
  new : ∃ k, ∀ r ∈ s'.items.rows, r ∈ s.items.rows ∨
    r.key = k ∧ r.seq = some (nextSeq s r.userId)
  kept : ∀ r ∈ s.items.rows, r ∈ s'.items.rows ∨
    ∃ r' ∈ s'.items.rows, r'.key = r.key ∧ r'.seq = some (nextSeq s r.userId)

lemma mem_numbers {db : Db B} :
    n ∈ ((db.items.rows.filter fun r => r.userId = user).filterMap (·.seq)) ↔ Has db user n := by
  simp only [List.mem_filterMap, List.mem_filter, decide_eq_true_eq, Has, and_assoc]

/-- The next number is above every number in use. -/
lemma lt_nextSeq (h : Has s user n) : n < nextSeq s user := by
  have hmem := mem_numbers.mpr h
  unfold nextSeq
  cases hmax : ((s.items.rows.filter fun r => r.userId = user).filterMap (·.seq)).max? with
  | none =>
    rw [List.max?_eq_none_iff.mp hmax] at hmem
    cases hmem
  | some k =>
    have := (List.max?_eq_some_iff.mp hmax).2 n hmem
    simp only [Option.getD_some]
    omega

/-! ### What the statements do -/

lemma numbers_of_items (h : s'.items = s.items) : Numbers s s' :=
  ⟨⟨(0, 0), fun _ hr => .inl (h ▸ hr)⟩, fun _ hr => .inl (h ▸ hr)⟩

lemma numbers_update (q : Upsert B) (s : Db B) :
    Numbers s { s with
      items := s.items.update q.hits (q.set (nextSeq s q.userId)) (q.set_key _) } := by
  have hit : ∀ r : ItemRow B, q.hits r = true → r.key = q.key ∧ r.userId = q.userId := by
    intro r h
    simp only [Upsert.hits, Bool.and_eq_true, decide_eq_true_eq] at h
    exact ⟨by simp [ItemRow.key, Upsert.key, h], h.1.2⟩
  refine ⟨⟨q.key, fun r hr => ?_⟩, fun r hr => ?_⟩
  · obtain ⟨r₀, hr₀, rfl⟩ := List.mem_map.mp hr
    by_cases h : q.hits r₀ = true
    · refine .inr ?_
      simp only [h, if_true]
      exact ⟨(hit r₀ h).1, by rw [← (hit r₀ h).2]; rfl⟩
    · exact .inl (by simpa [h] using hr₀)
  · by_cases h : q.hits r = true
    · refine .inr ⟨q.set (nextSeq s q.userId) r, ?_, rfl, ?_⟩
      · exact List.mem_map.mpr ⟨r, hr, by simp [h]⟩
      · rw [(hit r h).2]
        rfl
    · exact .inl (List.mem_map.mpr ⟨r, hr, by simp [h]⟩)

lemma numbers_insert {q : Upsert B} {items : Table ItemRow.key}
    (h : s.items.insert (q.row 1 (nextSeq s q.userId)) = some items) :
    Numbers s { s with items } := by
  have hrows := (Table.insert_eq_some h).2
  refine ⟨⟨q.key, fun r hr => ?_⟩, fun r hr => .inl ?_⟩
  · simp only [hrows, List.mem_append, List.mem_singleton] at hr
    rcases hr with hr | rfl
    · exact .inl hr
    · exact .inr ⟨rfl, rfl⟩
  · simp only [hrows]
    exact List.mem_append_left _ hr

/-- The statement writes at most one row, with the next number. -/
def Numbered (ev : DbEv B) : Prop := Numbers ev.pre ev.post

lemma numbered_same (l : Stmt) (e : Env) (s : Db B) : Numbered ⟨l, e, s, s⟩ :=
  numbers_of_items rfl

lemma numbered_upsertItemOcc (isUuid : IsUuid) (q : Upsert B) :
    Guarantees rely Numbered (upsertItemOcc isUuid q).run := by
  refine guarantees_upsertItemOcc numbered_same ?_ fun _ => ?_
  · exact guarantees_statement (fun _ s => numbers_of_items rfl) fun _ s => numbers_update q s
  · refine guarantees_statement (fun _ s => numbers_of_items rfl) fun _ s => ?_
    cases hins : s.items.insert (q.row 1 (nextSeq s q.userId)) with
    | none => exact numbers_of_items rfl
    | some items =>
      dsimp only
      split
      · exact numbers_insert hins
      · exact numbers_of_items rfl

lemma numbered_updateUser (l : Stmt) (u : Ident) (f : UserRow B → UserRow B)
    (hf : ∀ r, (f r).id = r.id) : Guarantees rely Numbered (updateUser l u f hf).run :=
  guarantees_statement (fun _ _ => numbers_of_items rfl) fun _ _ => numbers_of_items rfl

lemma numbered_accountRotateKey (req : RotateKeyReq B) :
    Guarantees rely Numbered (accountRotateKey X req).run :=
  guarantees_accountRotateKey numbered_same (numbered_updateUser _ _ _ _) fun _ _ =>
    numbered_updateUser _ _ _ _

/-- Every statement of every request numbers its write. -/
lemma numbered_serve (q : Req B) : Guarantees rely Numbered (serve X q) := by
  cases q with
  | upsert q => exact guarantees_bind (numbered_upsertItemOcc _ q) fun _ => guarantees_ret _
  | push req =>
    exact guarantees_bind (guarantees_syncPushBatch numbered_same fun _ _ _ _ _ =>
      numbered_upsertItemOcc _ _) fun _ => guarantees_ret _
  | rotate req => exact guarantees_bind (numbered_accountRotateKey req) fun _ => guarantees_ret _

/-! ### What the writes keep -/

lemma Numbers.distinct (h : Numbers s s') (hs : Distinct s) : Distinct s' := by
  obtain ⟨k, hk⟩ := h.new
  intro r hr r' hr' hu n hn hn'
  -- a written row is above all others of its user
  have habove : ∀ r₁ ∈ s.items.rows, ∀ r₂ : ItemRow B, r₁.userId = r₂.userId →
      r₁.seq = some n → r₂.seq = some (nextSeq s r₂.userId) → r₂.seq ≠ some n := by
    intro r₁ h₁ r₂ hu' hn₁ hn₂ he
    have hlt := lt_nextSeq (s := s) ⟨r₁, h₁, hu', hn₁⟩
    rw [he, Option.some.injEq] at hn₂
    omega
  rcases hk r hr with h₁ | ⟨hk₁, h₁⟩
  · rcases hk r' hr' with h₂ | ⟨-, h₂⟩
    · exact hs r h₁ r' h₂ hu n hn hn'
    · exact absurd hn' (habove r h₁ r' hu hn h₂)
  · rcases hk r' hr' with h₂ | ⟨hk₂, -⟩
    · exact absurd hn (habove r' h₂ r hu.symm hn' h₁)
    · have := Table.get_of_mem hr
      rw [hk₁, ← hk₂, Table.get_of_mem hr', Option.some.injEq] at this
      exact this.symm

/-- From `s` to `s'` rows of the user were only written: a row that is new is numbered above
all rows of before, and no row lost its number for a lower one. -/
structure Later (user : Ident) (s s' : Db B) : Prop where
  new : ∀ r ∈ s'.items.rows, r.userId = user → r ∈ s.items.rows ∨
    ∃ n, r.seq = some n ∧ ∀ m, Has s user m → m < n
  kept : ∀ r ∈ s.items.rows, r.userId = user → ∀ m, r.seq = some m →
    ∃ r' ∈ s'.items.rows, r'.key = r.key ∧ ∃ n, r'.seq = some n ∧ m ≤ n

lemma later_refl (user : Ident) (s : Db B) : Later user s s :=
  ⟨fun _ h _ => .inl h, fun r h _ m hm => ⟨r, h, rfl, m, hm, le_rfl⟩⟩

/-- Numbers in use are never undercut. -/
lemma Later.has (h : Later user s s') (hm : Has s user m) : ∃ n, Has s' user n ∧ m ≤ n := by
  obtain ⟨r, hr, hu, hm⟩ := hm
  obtain ⟨r', hr', hk, n, hn, hle⟩ := h.kept r hr hu m hm
  exact ⟨n, ⟨r', hr', (Prod.ext_iff.mp hk).2.trans hu, hn⟩, hle⟩

lemma Later.trans (h : Later user s s') (h' : Later user s' s'') : Later user s s'' := by
  refine ⟨fun r hr hu => ?_, fun r hr hu m hm => ?_⟩
  · rcases h'.new r hr hu with hr' | ⟨n, hn, hall⟩
    · exact h.new r hr' hu
    · refine .inr ⟨n, hn, fun m hm => ?_⟩
      obtain ⟨m', hm', hle⟩ := h.has hm
      have := hall m' hm'
      omega
  · obtain ⟨r', hr', hk, n, hn, hle⟩ := h.kept r hr hu m hm
    obtain ⟨r'', hr'', hk', n', hn', hle'⟩ :=
      h'.kept r' hr' ((Prod.ext_iff.mp hk).2.trans hu) n hn
    exact ⟨r'', hr'', hk'.trans hk, n', hn', by omega⟩

lemma Numbers.later (h : Numbers s s') (user : Ident) : Later user s s' := by
  obtain ⟨k, hk⟩ := h.new
  refine ⟨fun r hr hu => ?_, fun r hr hu m hm => ?_⟩
  · rcases hk r hr with hr' | ⟨-, hn⟩
    · exact .inl hr'
    · exact .inr ⟨_, hn, fun m hm => by rw [hu]; exact lt_nextSeq hm⟩
  · rcases h.kept r hr with hr' | ⟨r', hr', hkey, hn⟩
    · exact ⟨r, hr', rfl, m, hm, le_rfl⟩
    · exact ⟨r', hr', hkey, _, hn, (lt_nextSeq ⟨r, hr, rfl, hm⟩).le⟩

end Vautr.Numbering
