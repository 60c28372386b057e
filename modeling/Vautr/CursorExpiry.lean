import Vautr.Paging

/-!
Which cursors `sync_pull` refuses as expired.

The check compares the cursor with the lowest number among the user's rows. It is meant for
history that was pruned, and nothing is ever pruned; but a write moves its row to a new
number, so the lowest number rises with every row that is written again. A cursor is served
as long as one of the user's rows has not been written since the cursor's next number.
-/

namespace Vautr.CursorExpiry

open Vautr.Atomic Vautr.Interleave Vautr.Sql Vautr.Database Vautr.Api Vautr.Server Vautr.Handlers
open Vautr.Numbering Vautr.Paging

variable {B : Type} {X : Ext B} {s : Db B} {user : Ident} {cursor : UInt64}
  {tr : List (DbEv B)}

/-- The answer that tells a client to drop its cursor and to start again from 0. -/
def expired : ApiError :=
  .new 410 "cursor_expired" "The requested sync cursor is no longer available."

/-- One of the user's rows was last written with a number that is at most the one after `c`;
if the user has none, `c` is not below -1. -/
def Kept (db : Db B) (user : Ident) (c : ℤ) : Prop :=
  (∃ n, Has db user n ∧ n ≤ c + 1) ∨ (∀ n, ¬Has db user n) ∧ -1 ≤ c

/-- Whenever the statements read the lowest number, the cursor is kept. -/
def Served (user : Ident) (cursor : UInt64) (tr : List (DbEv B)) : Prop :=
  ∀ ev ∈ tr, ev.name = .minSeq user → ev.inp.fault = false → Kept ev.pre user (asI64 cursor)

lemma kept_iff : Kept s user (asI64 cursor) ↔ ¬asI64 cursor < saturatingPred
    ((((s.items.rows.filter fun r => r.userId = user).filterMap (·.seq)).min?).getD 0) := by
  have hlow := neg_le_asI64 cursor
  cases hmin : ((s.items.rows.filter fun r => r.userId = user).filterMap (·.seq)).min? with
  | none =>
    have hnone : ∀ n, ¬Has s user n := by
      intro n hn
      have := mem_numbers.mpr hn
      rw [List.min?_eq_none_iff.mp hmin] at this
      cases this
    rw [Option.getD_none, saturatingPred]
    constructor
    · rintro (⟨n, hn, -⟩ | ⟨-, h⟩)
      · exact absurd hn (hnone n)
      · omega
    · exact fun h => .inr ⟨hnone, by omega⟩
  | some n =>
    obtain ⟨hmem, hall⟩ := List.min?_eq_some_iff.mp hmin
    have hn : Has s user n := mem_numbers.mp hmem
    rw [Option.getD_some, saturatingPred]
    constructor
    · rintro (⟨m, hm, hle⟩ | ⟨hnone, -⟩)
      · have := hall m (mem_numbers.mpr hm)
        omega
      · exact absurd hn (hnone n)
    · exact fun h => .inl ⟨n, hn, by omega⟩

/-! ### One pull -/

def rules (user : Ident) (cursor : UInt64) : Rules (Db B) Env Stmt :=
  ⟨fun _ _ _ => True, fun _ => True, Served user cursor⟩

lemma served_append {ev : DbEv B} (h : Served user cursor tr)
    (hev : ev.name = .minSeq user → ev.inp.fault = false → Kept ev.pre user (asI64 cursor)) :
    Served user cursor (tr ++ [ev]) := by
  intro ev' h'
  rcases List.mem_append.mp h' with h' | h'
  · exact h ev' h'
  · rw [List.mem_singleton.mp h']
    exact hev

/-- A pull is answered with `expired` if and only if its read of the lowest number found
that the cursor is not kept. -/
lemma wp_syncPull (limit : Option ℕ) (htr : Served user cursor tr) :
    wp (rules user cursor) (syncPull user cursor limit).run
      (fun r tr _ => r = .error expired ↔ ¬Served user cursor tr) tr s := by
  have hne : ∀ {r : Except ApiError PullResp} {tr : List (DbEv B)}, r ≠ .error expired →
      Served user cursor tr → (r = .error expired ↔ ¬Served user cursor tr) :=
    fun h h' => iff_of_false h (not_not_intro h')
  unfold syncPull
  rw [wp_bind_except, wp_orInternal]
  refine wp_statement htr
    (fun _ _ _ _ => hne (by simp [expired]) (served_append htr (by simp)))
    fun s₁ e₁ _ _ => ?_
  have htr₁ : Served user cursor (tr ++ [⟨.minEncKeyGen user, e₁, s₁, s₁⟩]) :=
    served_append htr (by simp)
  dsimp only [Except.mapError]
  split
  · exact hne (by simp [expired, ApiError.badRequest]) htr₁
  rw [wp_bind_except, wp_orInternal]
  refine wp_statement_cases htr₁ (fun s₂ e₂ hf _ _ => ?_) fun s₂ e₂ hf _ _ => ?_
  · refine hne (by simp [expired]) (served_append htr₁ fun _ h => ?_)
    exact absurd (hf.symm.trans h) (by simp)
  dsimp only [Except.mapError]
  split
  · next hlt =>
    refine iff_of_true rfl fun h => ?_
    exact kept_iff.mp (h _ (List.mem_append_right _ (List.mem_singleton_self _)) rfl hf) hlt
  · next hlt =>
    have htr₂ : Served user cursor
        (tr ++ [⟨.minEncKeyGen user, e₁, s₁, s₁⟩] ++ [⟨.minSeq user, e₂, s₂, s₂⟩]) :=
      served_append htr₁ fun _ _ => kept_iff.mpr hlt
    rw [wp_bind_except, wp_orInternal]
    exact wp_statement htr₂
      (fun _ _ _ _ => hne (by simp [expired]) (served_append htr₂ (by simp)))
      fun _ _ _ _ => hne (by simp) (served_append htr₂ (by simp))

/-! ### All clients together -/

/-- The rules of a call: only a pull promises something. -/
def rulesOf : PageReq B → Rules (Db B) Env Stmt
  | .pull user cursor _ => rules user cursor
  | _ => ⟨fun _ _ _ => True, fun _ => True, fun _ => True⟩

def Post : PageReq B → PageReply → List (DbEv B) → Db B → Prop
  | .pull user cursor _, r, tr, _ => r = .pull (.error expired) ↔ ¬Served user cursor tr
  | _, _, _, _ => True

lemma wp_code (q : PageReq B) (s : Db B) : wp (rulesOf q) (code X q) (Post q) [] s := by
  cases q with
  | serve q => exact wp_trivial (fun _ => trivial) (fun _ _ _ => trivial) _ _ _
  | walk user cursor limits => exact wp_trivial (fun _ => trivial) (fun _ _ _ => trivial) _ _ _
  | pull user cursor limit =>
    unfold code
    rw [wp_bind]
    refine wp_mono (fun r tr s h => ?_) (wp_syncPull limit fun _ h => by cases h)
    simp only [wp_ret, Post, PageReply.pull.injEq]
    exact h

/-- The cursors a client may come back with: 0, and those the server gave to this user. -/
def Issued (σ : PageSys B) (user : Ident) (cursor : UInt64) : Prop :=
  cursor = 0 ∨ ∃ c ∈ σ.calls, ∃ cursor' limit page, c.req = .pull user cursor' limit ∧
    c.prog.result = some (.pull (.ok page)) ∧ page.newCursor = cursor

/-- The `i`-th call of the run is a pull of the user, with a cursor the user may come back
with when it is made. -/
def Resumes (X : Ext B) (db : Db B) (as : List (Act (PageReq B) Env)) (i : ℕ) (user : Ident)
    (cursor : UInt64) : Prop :=
  ∃ as₁ limit as₂, as = as₁ ++ .call (.pull user cursor limit) :: as₂ ∧
    i = (run (code X) (init db) as₁).calls.length ∧
    Issued (run (code X) (init db) as₁) user cursor

/-- **Which cursors expire.** In every interleaving of writes, pulls and walks: no pull with
the cursor 0 or a cursor that was given to the user before is refused as expired, if and only
if each of them finds, when it reads the lowest number, a row of the user that was not
written since the number after the cursor. -/
theorem issued_cursors_served_iff (X : Ext B) (db : Db B) (as : List (Act (PageReq B) Env)) :
    (∀ i user cursor, Resumes X db as i user cursor →
      ∀ c ∈ (run (code X) (init db) as).calls[i]?,
        c.prog.result ≠ some (.pull (.error expired))) ↔
    ∀ i user cursor, Resumes X db as i user cursor →
      ∀ c ∈ (run (code X) (init db) as).calls[i]?, Served user cursor c.trace := by
  have hheld : Held rulesOf Post (run (code X) (init db) as) :=
    (run_held (I := fun _ => True) (C := fun _ _ => True) (fun q => guarantees_true (code X q))
      (fun _ _ _ _ _ _ _ _ _ _ _ _ => trivial) (fun q s _ => wp_code q s) (fun q _ _ => by cases q <;> trivial)
      (fun q _ _ _ _ _ _ => by cases q <;> trivial) (fun q _ _ _ _ _ => by cases q <;> trivial)
      (fun q _ _ _ _ _ h => by cases q <;> exact h)
      (fun _ _ _ q _ _ _ _ _ _ _ => by cases q <;> trivial) trivial (along_true as _)).2
  refine forall₃_congr fun i user cursor => forall_congr' fun hres => forall₂_congr fun c hc => ?_
  obtain ⟨as₁, limit, as₂, rfl, rfl, -⟩ := hres
  have hreq : c.req = .pull user cursor limit := by
    have := req_of_call (h := code X) (init db) as₁ as₂ (.pull user cursor limit)
    rw [hc, Option.map_some, Option.some.injEq] at this
    exact this
  have hcall := hheld _ c hc
  rw [hreq] at hcall
  cases hp : c.prog with
  | ret a =>
    rw [hp, wp_ret] at hcall
    simp only [Prog.result_ret, ne_eq, Option.some.injEq]
    exact (not_congr hcall).trans not_not
  | stmt l f k =>
    rw [hp] at hcall
    exact iff_of_true (by simp) hcall.1

/-- An item that was written twice has the number 2, and a client that starts from 0 is told
to start from 0. -/
theorem first_cursor_expired : ¬∀ (as : List (Act (PageReq ℕ) Env)) (i : ℕ) (user : Ident)
    (cursor : UInt64), Resumes fixedExt account as i user cursor →
      ∀ c ∈ (run (code fixedExt) (init account) as).calls[i]?,
        c.prog.result ≠ some (.pull (.error expired)) := by
  intro h
  let pulls : List (Act (PageReq ℕ) Env) :=
    writing 0 3 0 ++ writing 1 3 1 ++ [.call (.pull 7 0 none)] ++ executing 2 2
  have := h pulls 2 7 0 ⟨writing 0 3 0 ++ writing 1 3 1, none, executing 2 2, by simp [pulls],
    by decide, .inl rfl⟩
  revert this
  decide

end Vautr.CursorExpiry
