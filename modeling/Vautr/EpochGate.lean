import Vautr.Handlers

/-!
The epoch gate: an item row is not written with an `enc_key_gen` below the user's
`min_enc_key_gen`.

`upsert_item_occ` reads the generation in one statement and writes the row in a later one,
and `account_rotate_key` may raise the generation in between. The gate therefore holds in
the runs in which no generation is raised past a push that is between the two.
-/

namespace Vautr.EpochGate

open Vautr.Atomic Vautr.Interleave Vautr.Sql Vautr.Database Vautr.Api Vautr.Server Vautr.Handlers

variable {B : Type}

/-- The user's generation is at most `g`. -/
def MinLe (db : Db B) (user : Ident) (g : ℤ) : Prop :=
  ∀ r ∈ db.users.rows, r.id = user → r.minEncKeyGen ≤ g

instance (db : Db B) (user : Ident) (g : ℤ) : Decidable (MinLe db user g) :=
  inferInstanceAs (Decidable (∀ r ∈ db.users.rows, _))

/-- Every row the statement wrote has at least the generation of its user at that moment. -/
def Gated (ev : DbEv B) : Prop :=
  ∀ r ∈ ev.post.items.rows, r ∉ ev.pre.items.rows → MinLe ev.pre r.userId r.encKeyGen

instance [DecidableEq B] (ev : DbEv B) : Decidable (Gated ev) :=
  inferInstanceAs (Decidable (∀ r ∈ ev.post.items.rows, _))

/-- The user and the generation of a push that is past the gate. -/
def pastGate : Stmt → Option (Ident × ℤ)
  | .probeItem _ u g => some (u, g)
  | .updateItem _ u g => some (u, g)
  | .insertItem _ u g => some (u, g)
  | _ => none

/-- The others do not raise the generation past a push that is past the gate. -/
def keepsGate (l : Stmt) (s s' : Db B) : Prop :=
  ∀ u g, pastGate l = some (u, g) → MinLe s u g → MinLe s' u g

/-- The only statement that raises the generation of a user is `update_min_enc_key_gen`. -/
def RaisesBy (ev : DbEv B) : Prop :=
  ∀ u g, (∀ g', ev.name = .updateMinEncKeyGen u g' → g' ≤ g) → MinLe ev.pre u g → MinLe ev.post u g

def Promise (ev : DbEv B) : Prop := Gated ev ∧ RaisesBy ev

variable {tr : List (DbEv B)} {s : Db B} {q : Upsert B} {X : Ext B}

lemma promise_of_eq {l : Stmt} {e : Env} (s : Db B) : Promise ⟨l, e, s, s⟩ :=
  ⟨fun _ hr hn => absurd hr hn, fun _ _ _ h => h⟩

lemma promise_updateUser (l : Stmt) (user : Ident) (f : UserRow B → UserRow B)
    (hf : ∀ r, (f r).id = r.id)
    (hg : ∀ r, (f r).minEncKeyGen ≠ r.minEncKeyGen → l = .updateMinEncKeyGen user (f r).minEncKeyGen) :
    Guarantees keepsGate Promise (updateUser l user f hf).run := by
  refine guarantees_statement (fun _ => promise_of_eq) fun e s =>
    ⟨fun _ hr hn => absurd hr hn, fun u g hl hmin r hr hu => ?_⟩
  obtain ⟨r₀, hr₀, rfl⟩ := List.mem_map.mp hr
  by_cases hid : r₀.id = user
  · simp only [hid, decide_true, if_true, hf] at hu ⊢
    subst hu
    by_cases heq : (f r₀).minEncKeyGen = r₀.minEncKeyGen
    · rw [heq]
      exact hmin r₀ hr₀ hid
    · exact hl _ (hg r₀ heq)
  · simp only [hid, decide_false, Bool.false_eq_true, if_false] at hu ⊢
    exact hmin r₀ hr₀ hu

/-! ### `upsert_item_occ` -/

/-- The rules of the calls: what has run is in `Promise`, and the gate stays passed. -/
abbrev gateRules : Rules (Db B) Env Stmt := promise keepsGate Promise

/-- A statement of a push that is past the gate. -/
lemma wp_pastGate {α : Type} {l : Stmt} {g : Env → Db B → Db B × Except SqlError α}
    {Q : Except SqlError α → List (DbEv B) → Db B → Prop} (htr : Every Promise tr)
    (hl : pastGate l = some (q.userId, q.encKeyGen)) (hs : MinLe s q.userId q.encKeyGen)
    (hu : ∀ e (db : Db B), (g e db).1.users = db.users)
    (hi : ∀ e (db : Db B), ∀ r ∈ (g e db).1.items.rows, r ∉ db.items.rows →
      r.userId = q.userId ∧ r.encKeyGen = q.encKeyGen)
    (h : ∀ r tr s, Every Promise tr → MinLe s q.userId q.encKeyGen → Q r tr s) :
    wp gateRules (statement l g).run Q tr s := by
  refine wp_statement htr (fun s' e hr _ => ?_) fun s' e hr _ => ?_
  · exact h _ _ _ (every_append htr (promise_of_eq s')) (hr _ _ hl hs)
  · have hs' : MinLe s' q.userId q.encKeyGen := hr _ _ hl hs
    have hev : Promise ⟨l, e, s', (g e s').1⟩ := by
      refine ⟨fun r hm hn => ?_, fun u gen _ hmin => ?_⟩
      · obtain ⟨hru, hrg⟩ := hi e s' r hm hn
        rw [hru, hrg]
        exact hs'
      · intro r hm
        rw [hu] at hm
        exact hmin r hm
    refine h _ _ _ (every_append htr hev) fun r hm => ?_
    rw [hu] at hm
    exact hs' r hm

lemma promise_upsertItemOcc (isUuid : IsUuid) (q : Upsert B) :
    Guarantees keepsGate Promise (upsertItemOcc isUuid q).run := by
  intro tr s htr
  unfold upsertItemOcc
  split
  · exact htr
  rw [wp_bind_except]
  refine wp_statement htr (fun s' _ _ _ => every_append htr (promise_of_eq s')) fun s' e _ _ => ?_
  have htr' := every_append htr (promise_of_eq (l := .minEncKeyGen q.userId) (e := e) s')
  dsimp only
  split
  · exact htr'
  -- past the gate; from here on the generation of the item is not behind
  next hgate =>
  have hmin : MinLe s' q.userId q.encKeyGen := by
    intro r hr hu
    have := Table.get_of_mem hr
    simp only [hu] at this
    simpa [this] using hgate
  rw [wp_bind_except]
  refine wp_pastGate htr' rfl hmin (fun _ _ => rfl) (fun _ _ _ hr hn => absurd hr hn) ?_
  rintro (_ | prior) tr s htr hs
  · exact htr
  dsimp only
  rw [wp_bind_except]
  refine wp_pastGate htr rfl hs (fun _ _ => rfl) (fun _ db r hr hn => ?_) ?_
  · -- the `UPDATE` changes the row that it hits, to the generation of the item
    obtain ⟨r₀, hr₀, rfl⟩ := List.mem_map.mp hr
    by_cases hit : q.hits r₀ = true
    · simp only [Upsert.hits, Bool.and_eq_true, decide_eq_true_eq] at hit
      simp [Upsert.hits, Upsert.set, hit]
    · simp only [hit, Bool.false_eq_true, if_false] at hn
      exact absurd hr₀ hn
  rintro (_ | n) tr s htr hs
  · exact htr
  dsimp only
  split
  · exact htr
  split
  · -- the `INSERT`, for the target version 0
    rw [wp_bind_except, wp_attempt]
    refine wp_pastGate htr rfl hs (fun _ db => ?_) (fun _ db r hr hn => ?_) ?_
    · cases hins : db.items.insert (q.row 1 (nextSeq db q.userId)) with
      | none => rfl
      | some items => by_cases hu : (db.users.get q.userId).isSome = true <;> simp [hu]
    · cases hins : db.items.insert (q.row 1 (nextSeq db q.userId)) with
      | none =>
        rw [hins] at hr
        exact absurd hr hn
      | some items =>
        rw [hins] at hr
        by_cases hu : (db.users.get q.userId).isSome = true
        · simp only [hu, if_true, (Table.insert_eq_some hins).2, List.mem_append, hn, false_or,
            List.mem_singleton] at hr
          rw [hr]
          exact ⟨rfl, rfl⟩
        · simp only [hu] at hr
          exact absurd hr hn
    · rintro r tr s htr hs
      rcases r with e | _
      · cases e <;> exact htr
      · exact htr
  · exact htr

/-! ### The handlers -/

lemma promise_syncPushBatch (req : PushBatchReq B) :
    Guarantees keepsGate Promise (syncPushBatch X req).run :=
  guarantees_syncPushBatch (fun _ _ s => promise_of_eq s) fun _ _ _ _ _ => promise_upsertItemOcc _ _

lemma promise_accountRotateKey (req : RotateKeyReq B) :
    Guarantees keepsGate Promise (accountRotateKey X req).run :=
  guarantees_accountRotateKey (fun _ _ s => promise_of_eq s)
    (promise_updateUser _ _ _ _ fun _ _ => rfl) fun _ _ =>
    promise_updateUser _ _ _ _ fun _ h => absurd rfl h

lemma promise_serve (req : Req B) : Guarantees keepsGate Promise (serve X req) := by
  cases req with
  | upsert q => exact guarantees_bind (promise_upsertItemOcc _ q) fun _ => guarantees_ret _
  | push req => exact guarantees_bind (promise_syncPushBatch req) fun _ => guarantees_ret _
  | rotate req => exact guarantees_bind (promise_accountRotateKey req) fun _ => guarantees_ret _

/-! ### All calls together -/

/-- The user and the generation of a rotation that is about to raise it. -/
def raises : Stmt → Option (Ident × ℤ)
  | .updateMinEncKeyGen u g => some (u, g)
  | _ => none

/-- No generation is raised past a push of the same user that is past the gate: when a
call runs `update_min_enc_key_gen` to `g'`, no call is about to probe or write an item of
that user at a generation below `g'`. -/
def Apart (σ : Sys (Req B) (Db B) Env Stmt Reply) : Act (Req B) Env → Prop
  | .call _ => True
  | .exec i _ => ∀ c ∈ σ.calls[i]?, ∀ r ∈ c.prog.next.bind raises,
      ∀ d ∈ σ.calls, ∀ p ∈ d.prog.next.bind pastGate, p.1 = r.1 → r.2 ≤ p.2

instance (σ : Sys (Req B) (Db B) Env Stmt Reply) (a : Act (Req B) Env) : Decidable (Apart σ a) :=
  match a with
  | .call _ => inferInstanceAs (Decidable True)
  | .exec i _ => inferInstanceAs (Decidable (∀ c ∈ σ.calls[i]?, _))

/-- **The epoch gate**: in every interleaving of pushes and rotations in which no
generation is raised past a push that is between its gate and its write, no row is ever
written with a generation below the user's. -/
theorem write_gated (X : Ext B) (db : Db B) (as : List (Act (Req B) Env))
    (has : Along (serve X) Apart (init db) as) :
    ∀ c ∈ (run (serve X) (init db) as).calls, Every Gated c.trace := by
  have := run_guarantees (h := serve X) (fun req => promise_serve req)
    (fun _ _ _ _ _ h => h) (fun _ _ _ _ h₁ h₂ u g hl h => h₂ u g hl (h₁ u g hl h)) ?_ has
  · exact fun c hc ev hev => (this c hc ev hev).1
  · intro σ i e q tr l f k hc hC hev j c l' _ hj hl' u g hpast hmin
    refine hev.2 u g (fun g' hname => ?_) hmin
    have hraise : (u, g') ∈ (Prog.stmt l f k).next.bind raises := by
      rw [show l = _ from hname]
      rfl
    have hpush : (u, g) ∈ c.prog.next.bind pastGate := by
      rw [hl']
      exact hpast
    exact hC _ hc _ hraise c (List.mem_of_getElem? hj) _ hpush rfl

/-! ### A push and a rotation -/

/-- An account at generation 1 and no items. -/
def oneUser : Db Bool := ⟨⟨[⟨7, "u", true, true, true, true, 1, 0, 0⟩], by decide⟩, .empty⟩

def anyUuid : Ext Bool := ⟨fun _ => true, fun _ => 1⟩

/-- A push of a new item at generation 1. -/
def pushOne : Req Bool := .push ⟨7, [⟨3, 0, 1, some (some true), none⟩]⟩

/-- A rotation to generation 2. -/
def rotateTwo : Req Bool := .rotate ⟨7, 2, some false⟩

def exec (i : ℕ) : Act (Req Bool) Env := .exec i ⟨0, 0, false⟩

/-- The rotation is done before the push begins, or after it is over. -/
theorem write_gated_pushOne : Along (serve anyUuid) Apart (init oneUser)
      ([.call pushOne] ++ List.replicate 7 (exec 0) ++ [.call rotateTwo] ++
        List.replicate 4 (exec 1)) ∧
    ∀ c ∈ (run (serve anyUuid) (init oneUser)
      ([.call pushOne] ++ List.replicate 7 (exec 0) ++ [.call rotateTwo] ++
        List.replicate 4 (exec 1))).calls, Every Gated c.trace :=
  ⟨by decide, write_gated anyUuid oneUser _ (by decide)⟩

/-- The rotation runs between the gate and the write: the item is written at generation 1
when the account is at generation 2. -/
theorem write_not_gated : ¬∀ as : List (Act (Req Bool) Env),
    ∀ c ∈ (run (serve anyUuid) (init oneUser) as).calls, Every Gated c.trace := by
  intro h
  have := h ([.call pushOne, .call rotateTwo] ++ List.replicate 4 (exec 0) ++
    List.replicate 4 (exec 1) ++ List.replicate 3 (exec 0))
  revert this
  decide

end Vautr.EpochGate
