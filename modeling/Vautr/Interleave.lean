import Mathlib.Data.List.Basic
import Mathlib.Data.List.Induction
import Vautr.Atomic

/-!
Any number of calls that run at the same time on one shared state.

A system is the shared state and the calls made so far, the finished ones included. Two
things can happen: somebody makes a new call, or one of the calls runs its next
statement. A run is any list of such actions, so a statement about every run is a
statement about every interleaving of any number of calls; a call that is never scheduled
again is a call that was cut off.
-/

namespace Vautr.Interleave

open Vautr.Atomic

/-- A call: what was asked, the statements it has run, and the rest of its program. -/
structure Call (Q S E L α : Type) where
  req : Q
  trace : List (Ev S E L)
  prog : Prog S E L α

structure Sys (Q S E L α : Type) where
  shared : S
  calls : List (Call Q S E L α)

/-- A new call, or the next statement of the `i`-th call, with the outside input `e`. -/
inductive Act (Q E : Type)
  | call (q : Q)
  | exec (i : ℕ) (e : E)

variable {Q S E L α : Type} (h : Q → Prog S E L α)

def step (σ : Sys Q S E L α) : Act Q E → Sys Q S E L α
  | .call q => { σ with calls := σ.calls ++ [⟨q, [], h q⟩] }
  | .exec i e =>
    match σ.calls[i]? with
    | some ⟨q, tr, .stmt l f k⟩ =>
      ⟨f e σ.shared,
        σ.calls.set i ⟨q, tr ++ [⟨l, e, σ.shared, f e σ.shared⟩], k e σ.shared⟩⟩
    | _ => σ

def run (σ : Sys Q S E L α) (as : List (Act Q E)) : Sys Q S E L α := as.foldl (step h) σ

/-- Nobody has called yet. -/
def init (s : S) : Sys Q S E L α := ⟨s, []⟩

/-- Every action of the run meets the condition `C` in the state it is taken in. -/
def Along (C : Sys Q S E L α → Act Q E → Prop) : Sys Q S E L α → List (Act Q E) → Prop
  | _, [] => True
  | σ, a :: as => C σ a ∧ Along C (step h σ a) as

instance decidableAlong {C : Sys Q S E L α → Act Q E → Prop} [∀ σ a, Decidable (C σ a)] :
    ∀ σ as, Decidable (Along h C σ as)
  | _, [] => inferInstanceAs (Decidable True)
  | σ, a :: as => @instDecidableAnd _ _ _ (decidableAlong (step h σ a) as)

@[simp] lemma run_nil (σ : Sys Q S E L α) : run h σ [] = σ := rfl
@[simp] lemma run_cons (σ : Sys Q S E L α) (a : Act Q E) (as : List (Act Q E)) :
    run h σ (a :: as) = run h (step h σ a) as := rfl

variable {h}

/-- What an action can do: make a call, run one statement of an unfinished call, or
nothing. -/
lemma step_cases (σ : Sys Q S E L α) (a : Act Q E) :
    (∃ q, a = .call q ∧ step h σ a = ⟨σ.shared, σ.calls ++ [⟨q, [], h q⟩]⟩) ∨
    (∃ i e q tr l f k, a = .exec i e ∧ σ.calls[i]? = some ⟨q, tr, .stmt l f k⟩ ∧
      step h σ a = ⟨f e σ.shared,
        σ.calls.set i ⟨q, tr ++ [⟨l, e, σ.shared, f e σ.shared⟩], k e σ.shared⟩⟩) ∨
    step h σ a = σ := by
  cases a with
  | call q => exact .inl ⟨q, rfl, rfl⟩
  | exec i e =>
    rcases hc : σ.calls[i]? with _ | ⟨q, tr, p⟩
    · exact .inr (.inr (by simp [step, hc]))
    · cases p with
      | ret a => exact .inr (.inr (by simp [step, hc]))
      | stmt l f k => exact .inr (.inl ⟨i, e, q, tr, l, f, k, rfl, hc, by simp [step, hc]⟩)

/-- **Invariants.** What holds at the start and is kept by every action that meets the
condition holds after every run along the condition. -/
theorem run_induction {C : Sys Q S E L α → Act Q E → Prop} {P : Sys Q S E L α → Prop}
    (hstep : ∀ σ a, P σ → C σ a → P (step h σ a)) {as : List (Act Q E)} :
    ∀ {σ : Sys Q S E L α}, P σ → Along h C σ as → P (run h σ as) := by
  induction as with
  | nil => exact fun hP _ => hP
  | cons a as ih => exact fun hP hC => ih (hstep _ _ hP hC.1) hC.2

lemma along_true (as : List (Act Q E)) :
    ∀ σ : Sys Q S E L α, Along h (fun _ _ => True) σ as := by
  induction as with
  | nil => exact fun _ => trivial
  | cons a as ih => exact fun σ => ⟨trivial, ih _⟩

lemma along_append {C : Sys Q S E L α → Act Q E → Prop} (as as' : List (Act Q E)) :
    ∀ σ : Sys Q S E L α,
      Along h C σ (as ++ as') ↔ Along h C σ as ∧ Along h C (run h σ as) as' := by
  induction as with
  | nil => exact fun σ => (iff_of_eq (true_and _)).symm
  | cons a as ih => exact fun σ => (and_congr_right fun _ => ih _).trans and_assoc.symm

/-- The invariant rule for runs without a condition. -/
lemma run_induction' {P : Sys Q S E L α → Prop} (hstep : ∀ σ a, P σ → P (step h σ a))
    {σ : Sys Q S E L α} (hP : P σ) (as : List (Act Q E)) : P (run h σ as) :=
  run_induction (C := fun _ _ => True) (fun σ a hP _ => hstep σ a hP) hP (along_true as σ)

/-! ### The statements that were run -/

/-- The statement was run by one of the calls. -/
def Ran (σ : Sys Q S E L α) (ev : Ev S E L) : Prop := ∃ c ∈ σ.calls, ev ∈ c.trace

lemma ran_exec {σ : Sys Q S E L α} {i : ℕ} {e : E} {q : Q} {tr : List (Ev S E L)} {l : L}
    {f : E → S → S} {k : E → S → Prog S E L α} (hc : σ.calls[i]? = some ⟨q, tr, .stmt l f k⟩)
    {ev : Ev S E L} (hev : Ran σ ev ∨ ev = ⟨l, e, σ.shared, f e σ.shared⟩) :
    Ran ⟨f e σ.shared,
      σ.calls.set i ⟨q, tr ++ [⟨l, e, σ.shared, f e σ.shared⟩], k e σ.shared⟩⟩ ev := by
  have hlt : i < σ.calls.length := (List.getElem?_eq_some_iff.mp hc).1
  rcases hev with ⟨c, hmem, hev⟩ | rfl
  · obtain ⟨j, hj⟩ := List.mem_iff_getElem?.mp hmem
    rcases eq_or_ne j i with rfl | hne
    · rw [hc, Option.some.injEq] at hj
      subst hj
      exact ⟨_, List.mem_set hlt _, List.mem_append_left _ hev⟩
    · refine ⟨c, List.mem_iff_getElem?.mpr ⟨j, ?_⟩, hev⟩
      rw [List.getElem?_set_ne hne.symm, hj]
  · exact ⟨_, List.mem_set hlt _, List.mem_append_right _ (List.mem_singleton_self _)⟩

/-- Only the `i`-th is replaced. -/
lemma mem_set_of_mem {γ : Type} {l : List γ} {i : ℕ} {a b c : γ} (hi : l[i]? = some a)
    (hc : c ∈ l) : c = a ∨ c ∈ l.set i b := by
  obtain ⟨j, hj⟩ := List.mem_iff_getElem?.mp hc
  rcases eq_or_ne j i with rfl | hne
  · rw [hi, Option.some.injEq] at hj
    exact .inl hj.symm
  · refine .inr (List.mem_iff_getElem?.mpr ⟨j, ?_⟩)
    rw [List.getElem?_set_ne hne.symm, hj]

/-- The calls after a statement of the `i`-th: that call, and the others as they were. -/
lemma getElem?_set_cases {γ : Type} {l : List γ} {i j : ℕ} {c c' : γ}
    (h : (l.set i c)[j]? = some c') : j = i ∧ c' = c ∨ j ≠ i ∧ l[j]? = some c' := by
  rcases eq_or_ne j i with rfl | hne
  · have hlt : j < (l.set j c).length := (List.getElem?_eq_some_iff.mp h).1
    rw [List.getElem?_set_self (by simpa using hlt), Option.some.injEq] at h
    exact .inl ⟨rfl, h.symm⟩
  · rw [List.getElem?_set_ne hne.symm] at h
    exact .inr ⟨hne, h⟩

lemma run_append (σ : Sys Q S E L α) (as as' : List (Act Q E)) :
    run h σ (as ++ as') = run h (run h σ as) as' := by
  simp [run, List.foldl_append]

/-- A call keeps its place and its request. -/
lemma req_run (σ : Sys Q S E L α) (as : List (Act Q E)) {i : ℕ} {q : Q}
    (hi : σ.calls[i]?.map (·.req) = some q) : (run h σ as).calls[i]?.map (·.req) = some q := by
  refine run_induction' (P := fun σ => σ.calls[i]?.map (·.req) = some q) (fun σ a hi => ?_) hi as
  obtain ⟨c, hc, hq⟩ := Option.map_eq_some_iff.mp hi
  rcases step_cases (h := h) σ a with ⟨q', -, hst⟩ | ⟨j, e, q', tr, l, f, k, -, hj, hst⟩ | hst
  · have hlt : i < σ.calls.length := (List.getElem?_eq_some_iff.mp hc).1
    rw [hst, List.getElem?_append_left hlt, hc, Option.map_some, hq]
  · rw [hst]
    rcases eq_or_ne i j with rfl | hne
    · have hlt : i < σ.calls.length := (List.getElem?_eq_some_iff.mp hc).1
      rw [hc, Option.some.injEq] at hj
      rw [List.getElem?_set_self hlt, Option.map_some, ← hq, hj]
    · rw [List.getElem?_set_ne hne.symm, hc, Option.map_some, hq]
  · rwa [hst]

/-- The call that an action makes is there at the end of the run. -/
lemma req_of_call (σ : Sys Q S E L α) (as as' : List (Act Q E)) (q : Q) :
    (run h σ (as ++ .call q :: as')).calls[(run h σ as).calls.length]?.map (·.req) = some q := by
  rw [run_append, run_cons]
  refine req_run _ as' ?_
  simp [step]

/-! ### The calls that ended in a certain way -/

section Filter

variable {γ : Type} {p : γ → Bool} {c c' : γ}

lemma filter_set_of_false {l : List γ} {i : ℕ} (hc : l[i]? = some c) (h : p c = false)
    (h' : p c' = false) : (l.set i c').filter p = l.filter p := by
  induction l generalizing i with
  | nil => simp at hc
  | cons a l ih =>
    cases i with
    | zero =>
      obtain rfl : a = c := by simpa using hc
      simp [h, h']
    | succ i =>
      rw [List.set_cons_succ, List.filter_cons, List.filter_cons, ih (by simpa using hc)]

/-- A call that ends so joins the calls that ended so. -/
lemma filter_set_perm {l : List γ} {i : ℕ} (hc : l[i]? = some c) (h : p c = false)
    (h' : p c' = true) : ((l.set i c').filter p).Perm (l.filter p ++ [c']) := by
  induction l generalizing i with
  | nil => simp at hc
  | cons a l ih =>
    cases i with
    | zero =>
      obtain rfl : a = c := by simpa using hc
      rw [List.set_cons_zero, List.filter_cons_of_pos h', List.filter_cons_of_neg (by simp [h])]
      exact (List.perm_append_singleton c' _).symm
    | succ i =>
      rw [List.set_cons_succ, List.filter_cons, List.filter_cons]
      have := ih (i := i) (by simpa using hc)
      by_cases ha : p a = true
      · simpa [ha] using this.cons a
      · simpa [ha] using this

end Filter

/-! ### One set of rules for all calls -/

/-- Every call is on its way to its postcondition. -/
def Held (R : Q → Rules S E L) (Post : Q → α → List (Ev S E L) → S → Prop)
    (σ : Sys Q S E L α) : Prop :=
  ∀ (i : ℕ) (c : Call Q S E L α), σ.calls[i]? = some c →
    wp (R c.req) c.prog (Post c.req) c.trace σ.shared

variable {R : Q → Rules S E L} {Post : Q → α → List (Ev S E L) → S → Prop}
  {σ : Sys Q S E L α}

lemma held_init (s : S) : Held R Post (init s : Sys Q S E L α) := by
  intro i c hc
  simp [init] at hc

lemma held_call (hσ : Held R Post σ) {q : Q} (hq : wp (R q) (h q) (Post q) [] σ.shared) :
    Held R Post (step h σ (.call q)) := by
  intro i c hc
  simp only [step, List.getElem?_append] at hc ⊢
  split at hc
  · exact hσ i c hc
  · rcases hi : i - σ.calls.length with _ | n
    · rw [hi] at hc
      simp only [List.getElem?_cons_zero, Option.some.injEq] at hc
      subst hc
      exact hq
    · rw [hi] at hc
      simp at hc

/-- A statement of one call keeps every call on its way, if the others tolerate it. -/
lemma held_exec (hσ : Held R Post σ) {i : ℕ} {e : E} {q : Q} {tr : List (Ev S E L)} {l : L}
    {f : E → S → S} {k : E → S → Prog S E L α} (hc : σ.calls[i]? = some ⟨q, tr, .stmt l f k⟩)
    (hrefl : (R q).rely l σ.shared σ.shared)
    (hok : (R q).ok (tr ++ [⟨l, e, σ.shared, f e σ.shared⟩]))
    (htrans : ∀ q l s₁ s₂ s₃, (R q).rely l s₁ s₂ → (R q).rely l s₂ s₃ → (R q).rely l s₁ s₃)
    (hrely : ∀ (j : ℕ) (c : Call Q S E L α), j ≠ i → σ.calls[j]? = some c → ∀ l', c.prog.next = some l' →
      (R c.req).rely l' σ.shared (f e σ.shared))
    (hpost : ∀ (j : ℕ) (c : Call Q S E L α), j ≠ i → σ.calls[j]? = some c → ∀ a, c.prog = .ret a →
      Post c.req a c.trace σ.shared → Post c.req a c.trace (f e σ.shared)) :
    Held R Post ⟨f e σ.shared,
      σ.calls.set i ⟨q, tr ++ [⟨l, e, σ.shared, f e σ.shared⟩], k e σ.shared⟩⟩ := by
  intro j c hj
  rcases eq_or_ne j i with rfl | hne
  · have hlt : j < σ.calls.length := by
      by_contra hge
      rw [List.getElem?_eq_none (by omega)] at hc
      cases hc
    rw [List.getElem?_set_self hlt, Option.some.injEq] at hj
    subst hj
    exact (hσ j _ hc).2 σ.shared e hrefl hok
  · rw [List.getElem?_set_ne hne.symm] at hj
    exact wp_rely (htrans _) (hσ j c hj) (hrely j c hne hj) (hpost j c hne hj)

/-- **Assume and guarantee.** Every call promises `G` of its statements as long as the
others do what `rely` says. If the statements that a run along `C` takes are tolerated by
all other calls, then every statement of every call is in `G`. -/
theorem run_guarantees {rely : L → S → S → Prop} {G : Ev S E L → Prop}
    {C : Sys Q S E L α → Act Q E → Prop} (hh : ∀ q, Guarantees rely G (h q))
    (hrefl : ∀ l s, rely l s s) (htrans : ∀ l s₁ s₂ s₃, rely l s₁ s₂ → rely l s₂ s₃ → rely l s₁ s₃)
    (hrely : ∀ (σ : Sys Q S E L α) (i : ℕ) (e : E) (q : Q) (tr : List (Ev S E L)) (l : L)
      (f : E → S → S) (k : E → S → Prog S E L α), σ.calls[i]? = some ⟨q, tr, .stmt l f k⟩ →
      C σ (.exec i e) → G ⟨l, e, σ.shared, f e σ.shared⟩ →
      ∀ (j : ℕ) (c : Call Q S E L α) (l' : L), j ≠ i → σ.calls[j]? = some c →
        c.prog.next = some l' → rely l' σ.shared (f e σ.shared))
    {s : S} {as : List (Act Q E)} (has : Along h C (init s) as) :
    ∀ c ∈ (run h (init s) as).calls, Every G c.trace := by
  have hinv : Held (fun _ => promise rely G) (fun _ _ tr _ => Every G tr) (run h (init s) as) := by
    refine run_induction (fun σ a hσ hC => ?_) (held_init s) has
    rcases step_cases (h := h) σ a with ⟨q, rfl, -⟩ | ⟨i, e, q, tr, l, f, k, rfl, hc, hst⟩ | hst
    · exact held_call hσ (hh q [] σ.shared every_nil)
    · have hev : G ⟨l, e, σ.shared, f e σ.shared⟩ :=
        wp_every ((hσ i _ hc).2 σ.shared e (hrefl _ _) trivial) _ (by simp)
      rw [hst]
      exact held_exec hσ hc (hrefl _ _) trivial (fun _ => htrans)
        (fun j c hne hj l' hl' => hrely σ i e q tr l f k hc hC hev j c l' hne hj hl')
        (fun _ _ _ _ _ _ h => h)
    · rwa [hst]
  intro c hc
  obtain ⟨i, hi⟩ := List.mem_iff_getElem?.mp hc
  exact wp_every (hinv i c hi)

/-- **Invariants of calls that rely on each other.** If every statement in `G` is tolerated by
the other calls and keeps `I`, then `I` holds in every state a run reaches. -/
theorem run_relying {rely : L → S → S → Prop} {G : Ev S E L → Prop} {I : S → Prop}
    (hh : ∀ q, Guarantees rely G (h q)) (hrefl : ∀ l s, rely l s s)
    (htrans : ∀ l s₁ s₂ s₃, rely l s₁ s₂ → rely l s₂ s₃ → rely l s₁ s₃)
    (hrely : ∀ ev l, G ev → rely l ev.pre ev.post) (hI : ∀ ev, G ev → I ev.pre → I ev.post)
    {s : S} (hs : I s) (as : List (Act Q E)) : I (run h (init s) as).shared := by
  have hinv : I (run h (init s) as).shared ∧
      Held (fun _ => promise rely G) (fun _ _ tr _ => Every G tr) (run h (init s) as) := by
    refine run_induction' (P := fun σ => I σ.shared ∧ Held _ _ σ) (fun σ a hσ => ?_)
      ⟨hs, held_init s⟩ as
    rcases step_cases (h := h) σ a with ⟨q, rfl, -⟩ | ⟨i, e, q, tr, l, f, k, rfl, hc, hst⟩ | hst
    · exact ⟨hσ.1, held_call hσ.2 (hh q [] σ.shared every_nil)⟩
    · have hev : G ⟨l, e, σ.shared, f e σ.shared⟩ :=
        wp_every ((hσ.2 i _ hc).2 σ.shared e (hrefl _ _) trivial) _ (by simp)
      rw [hst]
      exact ⟨hI _ hev hσ.1, held_exec hσ.2 hc (hrefl _ _) trivial (fun _ => htrans)
        (fun _ _ _ _ l' _ => hrely _ l' hev) (fun _ _ _ _ _ _ h => h)⟩
    · rwa [hst]
  exact hinv.1

/-- **Invariants of the shared state.** Every statement of every call is in `G`, and the
statements in `G` that a run along `C` takes keep `I`. -/
theorem run_invariant {G : Ev S E L → Prop} {I : S → Prop} {C : Sys Q S E L α → Act Q E → Prop}
    (hh : ∀ q, Guarantees (fun _ _ _ => True) G (h q))
    (hI : ∀ (σ : Sys Q S E L α) (i : ℕ) (e : E) (q : Q) (tr : List (Ev S E L)) (l : L)
      (f : E → S → S) (k : E → S → Prog S E L α), σ.calls[i]? = some ⟨q, tr, .stmt l f k⟩ →
      C σ (.exec i e) → G ⟨l, e, σ.shared, f e σ.shared⟩ → I σ.shared → I (f e σ.shared))
    {s : S} (hs : I s) {as : List (Act Q E)} (has : Along h C (init s) as) :
    I (run h (init s) as).shared := by
  have hinv : I (run h (init s) as).shared ∧
      Held (fun _ => promise (fun _ _ _ => True) G) (fun _ _ tr _ => Every G tr)
        (run h (init s) as) := by
    refine run_induction (P := fun σ => I σ.shared ∧ Held _ _ σ) (fun σ a hσ hC => ?_)
      ⟨hs, held_init s⟩ has
    rcases step_cases (h := h) σ a with ⟨q, rfl, hst⟩ | ⟨i, e, q, tr, l, f, k, rfl, hc, hst⟩ | hst
    · exact ⟨hσ.1, held_call hσ.2 (hh q [] σ.shared every_nil)⟩
    · have hev : G ⟨l, e, σ.shared, f e σ.shared⟩ :=
        wp_every ((hσ.2 i _ hc).2 σ.shared e trivial trivial) _ (by simp)
      rw [hst]
      exact ⟨hI σ i e q tr l f k hc hC hev hσ.1, held_exec hσ.2 hc trivial trivial
        (fun _ _ _ _ _ _ _ => trivial) (fun _ _ _ _ _ _ => trivial) fun _ _ _ _ _ _ h => h⟩
    · rwa [hst]
  exact hinv.1

/-- One action more: the shared state stays, or a statement in `G` was run on it. -/
lemma run_snoc {G : Ev S E L → Prop} (hh : ∀ q, Guarantees (fun _ _ _ => True) G (h q)) (s : S)
    (as : List (Act Q E)) (a : Act Q E) :
    (run h (init s) (as ++ [a])).shared = (run h (init s) as).shared ∨
    ∃ ev, G ev ∧ ev.pre = (run h (init s) as).shared ∧
      ev.post = (run h (init s) (as ++ [a])).shared := by
  have hheld : Held (fun _ => promise (fun _ _ _ => True) G) (fun _ _ tr _ => Every G tr)
      (run h (init s) as) := by
    refine run_induction' (fun σ a hσ => ?_) (held_init s) as
    rcases step_cases (h := h) σ a with ⟨q, rfl, -⟩ | ⟨i, e, q, tr, l, f, k, rfl, hc, hst⟩ | hst
    · exact held_call hσ (hh q [] σ.shared every_nil)
    · rw [hst]
      exact held_exec hσ hc trivial trivial (fun _ _ _ _ _ _ _ => trivial)
        (fun _ _ _ _ _ _ => trivial) fun _ _ _ _ _ _ h => h
    · rwa [hst]
  have hrun : run h (init s) (as ++ [a]) = step h (run h (init s) as) a := by
    simp [run, List.foldl_append]
  rw [hrun]
  generalize run h (init s) as = σ at hheld
  rcases step_cases (h := h) σ a with ⟨q, rfl, hst⟩ | ⟨i, e, q, tr, l, f, k, rfl, hc, hst⟩ | hst
  · exact .inl (by rw [hst])
  · refine .inr ⟨⟨l, e, σ.shared, f e σ.shared⟩, ?_, rfl, by rw [hst]⟩
    exact wp_every ((hheld i _ hc).2 σ.shared e trivial trivial) _ (by simp)
  · exact .inl (by rw [hst])

/-- **Calls that tolerate each other.** If the statements that the calls promise keep `I` in a
run along `C`, and a call that starts under `I` tolerates them, then every call stays on its
way to its postcondition. -/
theorem run_held {G : Ev S E L → Prop} {I : S → Prop} {C : Sys Q S E L α → Act Q E → Prop}
    (hh : ∀ q, Guarantees (fun _ _ _ => True) G (h q))
    (hI : ∀ (σ : Sys Q S E L α) (i : ℕ) (e : E) (q : Q) (tr : List (Ev S E L)) (l : L)
      (f : E → S → S) (k : E → S → Prog S E L α), σ.calls[i]? = some ⟨q, tr, .stmt l f k⟩ →
      C σ (.exec i e) → G ⟨l, e, σ.shared, f e σ.shared⟩ → I σ.shared → I (f e σ.shared))
    (hwp : ∀ q s, I s → wp (R q) (h q) (Post q) [] s)
    (hrefl : ∀ q l s, (R q).rely l s s)
    (htrans : ∀ q l s₁ s₂ s₃, (R q).rely l s₁ s₂ → (R q).rely l s₂ s₃ → (R q).rely l s₁ s₃)
    (hrely : ∀ q l ev, G ev → I ev.pre → I ev.post → (R q).rely l ev.pre ev.post)
    (hpost : ∀ q a tr ev, G ev → I ev.pre → Post q a tr ev.pre → Post q a tr ev.post)
    (hok : ∀ (σ : Sys Q S E L α) (i : ℕ) (e : E) (q : Q) (tr : List (Ev S E L)) (l : L)
      (f : E → S → S) (k : E → S → Prog S E L α), I σ.shared →
      σ.calls[i]? = some ⟨q, tr, .stmt l f k⟩ → C σ (.exec i e) →
      (R q).ok (tr ++ [⟨l, e, σ.shared, f e σ.shared⟩]))
    {s : S} (hs : I s) {as : List (Act Q E)} (has : Along h C (init s) as) :
    I (run h (init s) as).shared ∧ Held R Post (run h (init s) as) := by
  have hinv : I (run h (init s) as).shared ∧ Held R Post (run h (init s) as) ∧
      Held (fun _ => promise (fun _ _ _ => True) G) (fun _ _ tr _ => Every G tr)
        (run h (init s) as) := by
    refine run_induction (P := fun σ => I σ.shared ∧ Held R Post σ ∧ Held _ _ σ)
      (fun σ a hσ hC => ?_) ⟨hs, held_init s, held_init s⟩ has
    rcases step_cases (h := h) σ a with ⟨q, rfl, hst⟩ | ⟨i, e, q, tr, l, f, k, rfl, hc, hst⟩ | hst
    · exact ⟨hσ.1, held_call hσ.2.1 (hwp q _ hσ.1), held_call hσ.2.2 (hh q [] σ.shared every_nil)⟩
    · have hev : G ⟨l, e, σ.shared, f e σ.shared⟩ :=
        wp_every ((hσ.2.2 i _ hc).2 σ.shared e trivial trivial) _ (by simp)
      have hpost' := hI σ i e q tr l f k hc hC hev hσ.1
      rw [hst]
      refine ⟨hpost', ?_, ?_⟩
      · exact held_exec hσ.2.1 hc (hrefl _ _ _) (hok σ i e q tr l f k hσ.1 hc hC) htrans
          (fun _ c _ _ l' _ => hrely c.req l' _ hev hσ.1 hpost')
          fun _ c _ _ a _ h => hpost c.req a c.trace _ hev hσ.1 h
      · exact held_exec hσ.2.2 hc trivial trivial (fun _ _ _ _ _ _ _ => trivial)
          (fun _ _ _ _ _ _ => trivial) fun _ _ _ _ _ _ h => h
    · rwa [hst]
  exact ⟨hinv.1, hinv.2.1⟩

/-- **What an answer says of the statements.** What holds of the answer and the statements of
a call whatever the others do holds of every call that was answered. -/
theorem run_post {Post : Q → α → List (Ev S E L) → Prop}
    (hwp : ∀ q s, wp (assume (fun _ _ _ => True) fun _ => True) (h q) (fun a tr _ => Post q a tr)
      [] s)
    (s : S) (as : List (Act Q E)) :
    ∀ c ∈ (run h (init s) as).calls, ∀ a ∈ c.prog.result, Post c.req a c.trace := by
  have hheld := (run_held (I := fun _ => True) (C := fun _ _ => True)
    (fun q => guarantees_true (h q)) (fun _ _ _ _ _ _ _ _ _ _ _ _ => trivial)
    (fun q s _ => hwp q s) (fun _ _ _ => trivial) (fun _ _ _ _ _ _ _ => trivial)
    (fun _ _ _ _ _ _ => trivial) (fun _ _ _ _ _ _ h => h)
    (fun _ _ _ _ _ _ _ _ _ _ _ => trivial) trivial (along_true as (init s))).2
  intro c hc a ha
  obtain ⟨i, hi⟩ := List.mem_iff_getElem?.mp hc
  have := hheld i c hi
  rwa [Prog.result_eq_some ha] at this

/-! ### Calls that assume nothing of each other -/

/-- Every call is on its way to its postcondition, and all its statements are in `G`. -/
structure Sound (R : Q → Rules S E L) (Post : Q → α → List (Ev S E L) → S → Prop)
    (G : Q → Ev S E L → Prop) (σ : Sys Q S E L α) : Prop where
  held : Held R Post σ
  does : Held (fun q => promise (fun _ _ _ => True) (G q)) (fun q _ tr _ => Every (G q) tr) σ

variable {G : Q → Ev S E L → Prop}

lemma Sound.every (hσ : Sound R Post G σ) {c : Call Q S E L α} (hc : c ∈ σ.calls) :
    Every (G c.req) c.trace := by
  obtain ⟨i, hi⟩ := List.mem_iff_getElem?.mp hc
  exact wp_every (hσ.does i c hi)

lemma Sound.post (hσ : Sound R Post G σ) {c : Call Q S E L α} (hc : c ∈ σ.calls) {a : α}
    (ha : c.prog.result = some a) : Post c.req a c.trace σ.shared := by
  obtain ⟨i, hi⟩ := List.mem_iff_getElem?.mp hc
  have := hσ.held i c hi
  rwa [Prog.result_eq_some ha] at this

/-- **Invariants of the whole system.** Every call promises `G` of its statements and meets
its postcondition whatever the others do. What holds at the start, and is kept by new calls
and by statements of such calls that meet the condition, holds after the run. -/
theorem run_sound {C : Sys Q S E L α → Act Q E → Prop} {P : Sys Q S E L α → Prop}
    (hwp : ∀ σ q, C σ (.call q) → wp (R q) (h q) (Post q) [] σ.shared)
    (hG : ∀ q, Guarantees (fun _ _ _ => True) (G q) (h q))
    (hany : ∀ q l s s', (R q).rely l s s')
    (hpost : ∀ q a tr s s', Post q a tr s → Post q a tr s')
    (hok : ∀ (σ : Sys Q S E L α) (i : ℕ) (e : E) (q : Q) (tr : List (Ev S E L)) (l : L)
      (f : E → S → S) (k : E → S → Prog S E L α), σ.calls[i]? = some ⟨q, tr, .stmt l f k⟩ →
      C σ (.exec i e) → (R q).ok (tr ++ [⟨l, e, σ.shared, f e σ.shared⟩]))
    (hcall : ∀ σ q, C σ (.call q) → P σ → P ⟨σ.shared, σ.calls ++ [⟨q, [], h q⟩]⟩)
    (hexec : ∀ (σ : Sys Q S E L α) (i : ℕ) (e : E) (q : Q) (tr : List (Ev S E L)) (l : L)
      (f : E → S → S) (k : E → S → Prog S E L α), σ.calls[i]? = some ⟨q, tr, .stmt l f k⟩ →
      C σ (.exec i e) → Sound R Post G σ → Sound R Post G ⟨f e σ.shared,
        σ.calls.set i ⟨q, tr ++ [⟨l, e, σ.shared, f e σ.shared⟩], k e σ.shared⟩⟩ → P σ →
      P ⟨f e σ.shared,
        σ.calls.set i ⟨q, tr ++ [⟨l, e, σ.shared, f e σ.shared⟩], k e σ.shared⟩⟩)
    {as : List (Act Q E)} (hs : Sound R Post G σ ∧ P σ) (has : Along h C σ as) :
    Sound R Post G (run h σ as) ∧ P (run h σ as) := by
  refine run_induction (P := fun σ => Sound R Post G σ ∧ P σ) (fun σ a hσ hC => ?_) hs has
  rcases step_cases (h := h) σ a with ⟨q, rfl, hst⟩ | ⟨i, e, q, tr, l, f, k, rfl, hc, hst⟩ | hst
  · refine ⟨⟨held_call hσ.1.held (hwp σ q hC),
      held_call hσ.1.does (hG q [] σ.shared every_nil)⟩, ?_⟩
    rw [hst]
    exact hcall σ q hC hσ.2
  · have hsound : Sound R Post G ⟨f e σ.shared,
        σ.calls.set i ⟨q, tr ++ [⟨l, e, σ.shared, f e σ.shared⟩], k e σ.shared⟩⟩ :=
      ⟨held_exec hσ.1.held hc (hany _ _ _ _) (hok σ i e q tr l f k hc hC)
        (fun _ _ _ _ _ _ _ => hany _ _ _ _) (fun _ _ _ _ _ _ => hany _ _ _ _)
        fun _ _ _ _ _ _ h => hpost _ _ _ _ _ h,
      held_exec hσ.1.does hc trivial trivial (fun _ _ _ _ _ _ _ => trivial)
        (fun _ _ _ _ _ _ => trivial) fun _ _ _ _ _ _ h => h⟩
    rw [hst]
    exact ⟨hsound, hexec σ i e q tr l f k hc hC hσ.1 hsound hσ.2⟩
  · rwa [hst]

lemma sound_init (s : S) : Sound R Post G (init s : Sys Q S E L α) :=
  ⟨held_init s, held_init s⟩

/-- A statement of the system after an exec is the new one, or its call had run it before. -/
lemma mem_trace_set {i j : ℕ} {q : Q} {tr : List (Ev S E L)} {p p' : Prog S E L α}
    {ev ev' : Ev S E L} {c : Call Q S E L α} (hc : σ.calls[i]? = some ⟨q, tr, p⟩)
    (hj : (σ.calls.set i ⟨q, tr ++ [ev], p'⟩)[j]? = some c) (hev : ev' ∈ c.trace) :
    ev' = ev ∨ ∃ c', σ.calls[j]? = some c' ∧ ev' ∈ c'.trace := by
  rcases getElem?_set_cases hj with ⟨rfl, rfl⟩ | ⟨-, hj⟩
  · rcases List.mem_append.mp hev with hev | hev
    · exact .inr ⟨_, hc, hev⟩
    · exact .inl (List.mem_singleton.mp hev)
  · exact .inr ⟨c, hj, hev⟩

/-- A call has run at least what it had run before, and is as it was if it was finished. -/
def Grown (c c' : Call Q S E L α) : Prop :=
  c'.req = c.req ∧ c.trace <+: c'.trace ∧ (c.prog.result.isSome → c' = c)

lemma Grown.refl (c : Call Q S E L α) : Grown c c := ⟨rfl, List.prefix_refl _, fun _ => rfl⟩

lemma Grown.trans {c₁ c₂ c₃ : Call Q S E L α} (h : Grown c₁ c₂) (h' : Grown c₂ c₃) :
    Grown c₁ c₃ := by
  refine ⟨h'.1.trans h.1, h.2.1.trans h'.2.1, fun hres => ?_⟩
  obtain rfl := h.2.2 hres
  exact h'.2.2 hres

/-- A statement of one call lets every call grow. -/
lemma grown_exec {i : ℕ} {q : Q} {tr : List (Ev S E L)} {ev : Ev S E L} {l : L} {f : E → S → S}
    {k : E → S → Prog S E L α} {p' : Prog S E L α}
    (hc : σ.calls[i]? = some ⟨q, tr, .stmt l f k⟩) {j : ℕ} {c : Call Q S E L α}
    (hj : σ.calls[j]? = some c) :
    ∃ c', (σ.calls.set i ⟨q, tr ++ [ev], p'⟩)[j]? = some c' ∧ Grown c c' := by
  rcases eq_or_ne j i with rfl | hne
  · rw [hc, Option.some.injEq] at hj
    subst hj
    refine ⟨_, List.getElem?_set_self (List.getElem?_eq_some_iff.mp hc).1, rfl,
      List.prefix_append _ _, fun hres => ?_⟩
    cases hres
  · exact ⟨c, by rw [List.getElem?_set_ne hne.symm, hj], .refl c⟩

/-- A finished call stays as it is. -/
lemma mem_set_of_result {i : ℕ} {q : Q} {tr : List (Ev S E L)} {l : L} {f : E → S → S}
    {k : E → S → Prog S E L α} {c c' : Call Q S E L α}
    (hc : σ.calls[i]? = some ⟨q, tr, .stmt l f k⟩) (hmem : c ∈ σ.calls)
    (hres : c.prog.result.isSome) : c ∈ σ.calls.set i c' := by
  rcases mem_set_of_mem (b := c') hc hmem with rfl | h
  · cases hres
  · exact h

/-! ### What a condition says of each statement -/

/-- A condition may speak of the shared state by an invariant. -/
lemma along_invariant {G : Ev S E L → Prop} {I : S → Prop} {C : Sys Q S E L α → Act Q E → Prop}
    (hh : ∀ q, Guarantees (fun _ _ _ => True) G (h q))
    (hI : ∀ (σ : Sys Q S E L α) (i : ℕ) (e : E) (q : Q) (tr : List (Ev S E L)) (l : L)
      (f : E → S → S) (k : E → S → Prog S E L α), σ.calls[i]? = some ⟨q, tr, .stmt l f k⟩ →
      C σ (.exec i e) → G ⟨l, e, σ.shared, f e σ.shared⟩ → I σ.shared → I (f e σ.shared))
    {s : S} (hs : I s) {as : List (Act Q E)} (has : Along h C (init s) as) :
    Along h (fun σ a => C σ a ∧ I σ.shared) (init s) as := by
  induction as using List.reverseRecOn with
  | nil => trivial
  | append_singleton as a ih =>
    rw [along_append] at has ⊢
    exact ⟨ih has.1, ⟨has.2.1, run_invariant hh hI hs has.1⟩, trivial⟩

/-- What the condition of a run says of a statement, its call and the statements before it
in the call, is true of every statement that was run. -/
theorem run_each {C : Sys Q S E L α → Act Q E → Prop} {K : Q → List (Ev S E L) → Ev S E L → Prop}
    (hK : ∀ (σ : Sys Q S E L α) (i : ℕ) (e : E) (q : Q) (tr : List (Ev S E L)) (l : L)
      (f : E → S → S) (k : E → S → Prog S E L α), σ.calls[i]? = some ⟨q, tr, .stmt l f k⟩ →
      C σ (.exec i e) → K q tr ⟨l, e, σ.shared, f e σ.shared⟩)
    {s : S} {as : List (Act Q E)} (has : Along h C (init s) as) :
    ∀ c ∈ (run h (init s) as).calls, ∀ tr ev tr', c.trace = tr ++ ev :: tr' → K c.req tr ev := by
  refine run_induction (P := fun σ => ∀ c ∈ σ.calls, ∀ tr ev tr', c.trace = tr ++ ev :: tr' →
    K c.req tr ev) (fun σ a hσ hC => ?_) (by simp [init]) has
  rcases step_cases (h := h) σ a with ⟨q, rfl, hst⟩ | ⟨i, e, q, tr, l, f, k, rfl, hc, hst⟩ | hst
  · rw [hst]
    intro c hc tr ev tr' htr
    rcases List.mem_append.mp hc with hc | hc
    · exact hσ c hc tr ev tr' htr
    · rw [List.mem_singleton.mp hc] at htr
      simp at htr
  · rw [hst]
    intro c hmem tr₁ ev tr₂ htr
    obtain ⟨j, hj⟩ := List.mem_iff_getElem?.mp hmem
    rcases getElem?_set_cases hj with ⟨-, rfl⟩ | ⟨-, hj⟩
    · rcases List.eq_nil_or_concat tr₂ with rfl | ⟨tr₃, ev', rfl⟩
      · obtain ⟨rfl, hev⟩ := List.append_inj' htr rfl
        cases hev
        exact hK σ i e q tr l f k hc hC
      · rw [List.concat_eq_append, ← List.cons_append, ← List.append_assoc] at htr
        exact hσ _ (List.mem_of_getElem? hc) tr₁ ev tr₃ (List.append_inj' htr rfl).1
    · exact hσ c (List.mem_of_getElem? hj) tr₁ ev tr₂ htr
  · rwa [hst]

/-- Every statement that was run has found the invariant. -/
lemma run_pre {G : Ev S E L → Prop} {I : S → Prop} {C : Sys Q S E L α → Act Q E → Prop}
    (hh : ∀ q, Guarantees (fun _ _ _ => True) G (h q))
    (hI : ∀ (σ : Sys Q S E L α) (i : ℕ) (e : E) (q : Q) (tr : List (Ev S E L)) (l : L)
      (f : E → S → S) (k : E → S → Prog S E L α), σ.calls[i]? = some ⟨q, tr, .stmt l f k⟩ →
      C σ (.exec i e) → G ⟨l, e, σ.shared, f e σ.shared⟩ → I σ.shared → I (f e σ.shared))
    {s : S} (hs : I s) {as : List (Act Q E)} (has : Along h C (init s) as) :
    ∀ c ∈ (run h (init s) as).calls, ∀ ev ∈ c.trace, I ev.pre := by
  intro c hc ev hev
  obtain ⟨tr, tr', htr⟩ := List.append_of_mem hev
  exact run_each (K := fun _ _ ev => I ev.pre) (fun _ _ _ _ _ _ _ _ _ hC => hC.2)
    (along_invariant hh hI hs has) c hc tr ev tr' htr

/-- What the statements do since one of them was run. -/
theorem run_since {G : Ev S E L → Prop} {T : S → S → Prop}
    (hh : ∀ q, Guarantees (fun _ _ _ => True) G (h q)) (hrefl : ∀ s, T s s)
    (htrans : ∀ s₁ s₂ s₃, T s₁ s₂ → T s₂ s₃ → T s₁ s₃) (hG : ∀ ev, G ev → T ev.pre ev.post)
    (s : S) (as : List (Act Q E)) {ev : Ev S E L} (hev : Ran (run h (init s) as) ev) :
    T ev.pre (run h (init s) as).shared := by
  induction as using List.reverseRecOn with
  | nil => simp [Ran, init] at hev
  | append_singleton as a ih =>
    have hmono : T (run h (init s) as).shared (run h (init s) (as ++ [a])).shared := by
      rcases run_snoc hh s as a with heq | ⟨ev', hev', hpre, hpost⟩
      · rw [heq]
        exact hrefl _
      · rw [← hpre, ← hpost]
        exact hG ev' hev'
    obtain ⟨c, hc, hev⟩ := hev
    obtain ⟨j, hj⟩ := List.mem_iff_getElem?.mp hc
    have hrun : run h (init s) (as ++ [a]) = step h (run h (init s) as) a := by
      simp [run, List.foldl_append]
    rw [hrun] at hj hmono ⊢
    rcases step_cases (h := h) (run h (init s) as) a with ⟨q, rfl, hst⟩ |
      ⟨i, e, q, tr, l, f, k, rfl, hi, hst⟩ | hst
    · rw [hst, List.getElem?_append] at hj
      split at hj
      · exact htrans _ _ _ (ih ⟨c, List.mem_of_getElem? hj, hev⟩) hmono
      · rw [List.mem_singleton.mp (List.mem_of_getElem? hj)] at hev
        cases hev
    · rw [hst] at hj
      rcases getElem?_set_cases hj with ⟨-, rfl⟩ | ⟨-, hj⟩
      · rcases List.mem_append.mp hev with hev | hev
        · exact htrans _ _ _ (ih ⟨_, List.mem_of_getElem? hi, hev⟩) hmono
        · rw [List.mem_singleton.mp hev]
          exact hmono
      · exact htrans _ _ _ (ih ⟨c, List.mem_of_getElem? hj, hev⟩) hmono
    · rw [hst] at hj
      exact htrans _ _ _ (ih ⟨c, List.mem_of_getElem? hj, hev⟩) hmono

/-! ### What is left of the calls -/

/-- A sum over the calls, after one of them has changed. -/
lemma sum_map_set {γ : Type} {g : γ → ℕ} {l : List γ} {i : ℕ} {c c' : γ} (hc : l[i]? = some c) :
    ((l.set i c').map g).sum + g c = (l.map g).sum + g c' := by
  induction l generalizing i with
  | nil => simp at hc
  | cons a l ih =>
    cases i with
    | zero =>
      obtain rfl : a = c := by simpa using hc
      simp only [List.set_cons_zero, List.map_cons, List.sum_cons]
      omega
    | succ i =>
      have := ih (i := i) (by simpa using hc)
      simp only [List.set_cons_succ, List.map_cons, List.sum_cons]
      omega

/-- What is left of every call is one of the stages of its request. -/
def Staged (K : Q → Prog S E L α → Prop) (σ : Sys Q S E L α) : Prop :=
  ∀ c ∈ σ.calls, K c.req c.prog

/-- **Invariants by stages.** If a request begins in a stage and its statements lead from stage
to stage, then what new calls and statements of calls in a stage keep holds after every run
along the condition. -/
theorem run_stages {C : Sys Q S E L α → Act Q E → Prop} {K : Q → Prog S E L α → Prop}
    {P : Sys Q S E L α → Prop} (hbegin : ∀ q, K q (h q))
    (hnext : ∀ q l f k, K q (.stmt l f k) → ∀ e s, K q (k e s))
    (hcall : ∀ σ q, C σ (.call q) → P σ → P ⟨σ.shared, σ.calls ++ [⟨q, [], h q⟩]⟩)
    (hexec : ∀ (σ : Sys Q S E L α) (i : ℕ) (e : E) (q : Q) (tr : List (Ev S E L)) (l : L)
      (f : E → S → S) (k : E → S → Prog S E L α), σ.calls[i]? = some ⟨q, tr, .stmt l f k⟩ →
      C σ (.exec i e) → Staged K σ → K q (.stmt l f k) → P σ → P ⟨f e σ.shared,
        σ.calls.set i ⟨q, tr ++ [⟨l, e, σ.shared, f e σ.shared⟩], k e σ.shared⟩⟩)
    {s : S} (hs : P (init s)) {as : List (Act Q E)} (has : Along h C (init s) as) :
    Staged K (run h (init s) as) ∧ P (run h (init s) as) := by
  refine run_induction (P := fun σ => Staged K σ ∧ P σ) (fun σ a hσ hC => ?_)
    ⟨by simp [Staged, init], hs⟩ has
  rcases step_cases (h := h) σ a with ⟨q, rfl, hst⟩ | ⟨i, e, q, tr, l, f, k, rfl, hc, hst⟩ | hst
  · rw [hst]
    refine ⟨fun c hc => ?_, hcall σ q hC hσ.2⟩
    rcases List.mem_append.mp hc with hc | hc
    · exact hσ.1 c hc
    · rw [List.mem_singleton.mp hc]
      exact hbegin q
  · have hK : K q (.stmt l f k) := hσ.1 _ (List.mem_of_getElem? hc)
    rw [hst]
    refine ⟨fun c hmem => ?_, hexec σ i e q tr l f k hc hC hσ.1 hK hσ.2⟩
    rcases List.mem_or_eq_of_mem_set hmem with hmem | rfl
    · exact hσ.1 c hmem
    · exact hnext q l f k hK e σ.shared
  · rwa [hst]

/-! ### Calls whose statements meet a condition -/

/-- The invariant, and every call is still on its way to what its request lets it end with. -/
structure Met (T : S → S → Prop) (M G : Ev S E L → Prop) (I : S → Prop)
    (P : Q → α → List (Ev S E L) → Prop) (σ : Sys Q S E L α) : Prop where
  inv : I σ.shared
  held : Held (fun _ => meeting T M G) (fun q a tr _ => Every G tr ∧ P q a tr) σ
  meets : ∀ c ∈ σ.calls, Every M c.trace

section Meeting

variable {T : S → S → Prop} {M G : Ev S E L → Prop} {I : S → Prop}
  {P : Q → α → List (Ev S E L) → Prop}

/-- **Conditions on the steps.** If every statement that meets the condition `M` is in `G`, is
tolerated by the other calls and keeps the invariant, and `M` is what the run gives of a
statement under the invariant, then in every state reached the invariant holds and every call
has kept its promise. -/
theorem run_meeting {C : Sys Q S E L α → Act Q E → Prop}
    (hh : ∀ (σ : Sys Q S E L α) q s, C σ (.call q) →
      wp (meeting T M G) (h q) (fun a tr _ => Every G tr ∧ P q a tr) [] s)
    (hrefl : ∀ s, T s s) (htrans : ∀ s₁ s₂ s₃, T s₁ s₂ → T s₂ s₃ → T s₁ s₃)
    (hT : ∀ ev, G ev → T ev.pre ev.post)
    (hM : ∀ (σ : Sys Q S E L α) (i : ℕ) (e : E) (q : Q) (tr : List (Ev S E L)) (l : L)
      (f : E → S → S) (k : E → S → Prog S E L α), σ.calls[i]? = some ⟨q, tr, .stmt l f k⟩ →
      C σ (.exec i e) → I σ.shared → M ⟨l, e, σ.shared, f e σ.shared⟩)
    (hI : ∀ ev, M ev → G ev → I ev.post) {as : List (Act Q E)} (hσ : Met T M G I P σ)
    (has : Along h C σ as) : Met T M G I P (run h σ as) := by
  refine run_induction (fun σ a hσ hC => ?_) hσ has
  rcases step_cases (h := h) σ a with ⟨q, rfl, hst⟩ | ⟨i, e, q, tr, l, f, k, rfl, hc, hst⟩ | hst
  · have hheld := held_call hσ.held (hh σ q σ.shared hC)
    rw [hst] at hheld ⊢
    refine ⟨hσ.inv, hheld, fun c hc => ?_⟩
    rcases List.mem_append.mp hc with hc | hc
    · exact hσ.meets c hc
    · rw [List.mem_singleton.mp hc]
      exact every_nil
  · have hev := hM σ i e q tr l f k hc hC hσ.inv
    have htr : Every M (tr ++ [⟨l, e, σ.shared, f e σ.shared⟩]) :=
      every_append (hσ.meets _ (List.mem_of_getElem? hc)) hev
    have hG : G ⟨l, e, σ.shared, f e σ.shared⟩ :=
      (wp_mid ((hσ.held i _ hc).2 σ.shared e (hrefl _) htr) fun _ _ h => h.1) _ (by simp)
    rw [hst]
    refine ⟨hI _ hev hG, ?_, fun c hmem => ?_⟩
    · exact held_exec hσ.held hc (hrefl _) htr (fun _ _ => htrans)
        (fun _ _ _ _ _ _ => hT _ hG) fun _ _ _ _ _ _ h => h
    · rcases List.mem_or_eq_of_mem_set hmem with hmem | rfl
      · exact hσ.meets c hmem
      · exact htr
  · rwa [hst]

lemma Met.every (hσ : Met T M G I P σ) {c : Call Q S E L α} (hc : c ∈ σ.calls) :
    Every G c.trace := by
  obtain ⟨i, hi⟩ := List.mem_iff_getElem?.mp hc
  exact wp_mid (hσ.held i c hi) fun _ _ h => h.1

lemma Met.post (hσ : Met T M G I P σ) {c : Call Q S E L α} (hc : c ∈ σ.calls) {a : α}
    (ha : c.prog.result = some a) : P c.req a c.trace := by
  obtain ⟨i, hi⟩ := List.mem_iff_getElem?.mp hc
  have hwp := hσ.held i c hi
  rw [Prog.result_eq_some ha] at hwp
  exact hwp.2

lemma met_init {s : S} (hs : I s) : Met T M G I P (init s) := ⟨hs, held_init s, by simp [init]⟩

end Meeting

/-- What holds when a call is made, and is kept by every statement since, is found by every
statement of the call. -/
theorem run_finds {T : S → Prop} {G : Ev S E L → Prop} {σ : Sys Q S E L α} {q : Q}
    {as : List (Act Q E)} (hT : T σ.shared) (hG : ∀ ev, G ev → T ev.pre → T ev.post)
    (hev : ∀ c ∈ (run h (step h σ (.call q)) as).calls, Every G c.trace) {c : Call Q S E L α}
    (hc : (run h (step h σ (.call q)) as).calls[σ.calls.length]? = some c) :
    ∀ ev ∈ c.trace, T ev.pre := by
  suffices hinv : T (run h (step h σ (.call q)) as).shared ∧
      ∀ c, (run h (step h σ (.call q)) as).calls[σ.calls.length]? = some c →
        ∀ ev ∈ c.trace, T ev.pre from hinv.2 c hc
  clear hc c
  induction as using List.reverseRecOn with
  | nil =>
    refine ⟨hT, fun c hc ev hmem => ?_⟩
    simp only [run_nil, step, List.getElem?_concat_length, Option.some.injEq] at hc
    subst hc
    cases hmem
  | append_singleton as a ih =>
    rw [run_append, run_cons, run_nil] at hev ⊢
    generalize run h (step h σ (.call q)) as = τ at ih hev ⊢
    rcases step_cases (h := h) τ a with ⟨q', rfl, hst⟩ | ⟨i, e, q', tr, l, f, k, rfl, hi, hst⟩ | hst
    · rw [hst] at hev ⊢
      obtain ⟨hτ, hold⟩ := ih fun c hc => hev c (List.mem_append_left _ hc)
      refine ⟨hτ, fun c hc ev hmem => ?_⟩
      rw [List.getElem?_append] at hc
      split at hc
      · exact hold c hc ev hmem
      · rw [List.mem_singleton.mp (List.mem_of_getElem? hc)] at hmem
        cases hmem
    · rw [hst] at hev ⊢
      obtain ⟨hτ, hold⟩ := ih fun c hc => by
        obtain ⟨j, hj⟩ := List.mem_iff_getElem?.mp hc
        obtain ⟨c', hc', -, hpre, -⟩ : ∃ c', (τ.calls.set i ⟨q', tr ++ [⟨l, e, τ.shared,
            f e τ.shared⟩], k e τ.shared⟩)[j]? = some c' ∧ Grown c c' := grown_exec hi hj
        exact fun ev hmem => hev c' (List.mem_of_getElem? hc') ev (hpre.subset hmem)
      have hlt : i < τ.calls.length := (List.getElem?_eq_some_iff.mp hi).1
      have hnew : G ⟨l, e, τ.shared, f e τ.shared⟩ := hev _ (List.mem_set hlt _) _ (by simp)
      refine ⟨hG _ hnew hτ, fun c hc ev hmem => ?_⟩
      rcases mem_trace_set hi hc hmem with rfl | ⟨c', hc', hmem'⟩
      · exact hτ
      · exact hold c' hc' ev hmem'
    · rw [hst] at hev ⊢
      exact ih hev

/-- No call has run a statement in `D`, or only one call has and `Gone` holds since. -/
def AtMostOne (D : Ev S E L → Prop) (Gone : S → Prop) (σ : Sys Q S E L α) : Prop :=
  (∀ c ∈ σ.calls, ∀ ev ∈ c.trace, ¬D ev) ∨ Gone σ.shared ∧ ∃ i, ∀ (j : ℕ) (c : Call Q S E L α),
    σ.calls[j]? = some c → ∀ ev ∈ c.trace, D ev → j = i

lemma AtMostOne.call {D : Ev S E L → Prop} {Gone : S → Prop} (hσ : AtMostOne D Gone σ) (q : Q) :
    AtMostOne D Gone (⟨σ.shared, σ.calls ++ [⟨q, [], h q⟩]⟩ : Sys Q S E L α) := by
  rcases hσ with hnone | ⟨hgone, i, hi⟩
  · refine .inl fun c hc ev hev => ?_
    rcases List.mem_append.mp hc with hc | hc
    · exact hnone c hc ev hev
    · rw [List.mem_singleton.mp hc] at hev
      cases hev
  · refine .inr ⟨hgone, i, fun j c hj ev hev hD => ?_⟩
    rw [List.getElem?_append] at hj
    split at hj
    · exact hi j c hj ev hev hD
    · rw [List.mem_singleton.mp (List.mem_of_getElem? hj)] at hev
      cases hev

lemma AtMostOne.exec {D : Ev S E L → Prop} {Gone : S → Prop} (hσ : AtMostOne D Gone σ) {i : ℕ}
    {e : E} {q : Q} {tr : List (Ev S E L)} {l : L} {f : E → S → S} {k : E → S → Prog S E L α}
    (hc : σ.calls[i]? = some ⟨q, tr, .stmt l f k⟩)
    (hpre : D ⟨l, e, σ.shared, f e σ.shared⟩ → ¬Gone σ.shared)
    (hpost : D ⟨l, e, σ.shared, f e σ.shared⟩ → Gone (f e σ.shared))
    (hkeep : Gone σ.shared → Gone (f e σ.shared)) :
    AtMostOne D Gone ⟨f e σ.shared,
      σ.calls.set i ⟨q, tr ++ [⟨l, e, σ.shared, f e σ.shared⟩], k e σ.shared⟩⟩ := by
  -- an event of the new system is the new one, or it was there in a call of the same place
  have hold : ∀ (j : ℕ) (c : Call Q S E L α),
      (σ.calls.set i ⟨q, tr ++ [⟨l, e, σ.shared, f e σ.shared⟩], k e σ.shared⟩)[j]? = some c →
      ∀ ev ∈ c.trace, (j = i ∧ ev = ⟨l, e, σ.shared, f e σ.shared⟩) ∨
        ∃ c', σ.calls[j]? = some c' ∧ ev ∈ c'.trace := by
    intro j c hj ev hev
    rcases getElem?_set_cases hj with ⟨rfl, rfl⟩ | ⟨-, hj⟩
    · rcases List.mem_append.mp hev with hev | hev
      · exact .inr ⟨_, hc, hev⟩
      · exact .inl ⟨rfl, List.mem_singleton.mp hev⟩
    · exact .inr ⟨c, hj, hev⟩
  by_cases hD : D ⟨l, e, σ.shared, f e σ.shared⟩
  · have hnone := hσ.resolve_right fun ⟨hgone, _⟩ => hpre hD hgone
    refine .inr ⟨hpost hD, i, fun j c hj ev hev hD' => ?_⟩
    rcases hold j c hj ev hev with ⟨rfl, -⟩ | ⟨c', hc', hev'⟩
    · rfl
    · exact absurd hD' (hnone c' (List.mem_of_getElem? hc') ev hev')
  · rcases hσ with hnone | ⟨hgone, n, hn⟩
    · refine .inl fun c hc ev hev hD' => ?_
      obtain ⟨j, hj⟩ := List.mem_iff_getElem?.mp hc
      rcases hold j c hj ev hev with ⟨-, rfl⟩ | ⟨c', hc', hev'⟩
      · exact hD hD'
      · exact hnone c' (List.mem_of_getElem? hc') ev hev' hD'
    · refine .inr ⟨hkeep hgone, n, fun j c hj ev hev hD' => ?_⟩
      rcases hold j c hj ev hev with ⟨-, rfl⟩ | ⟨c', hc', hev'⟩
      · exact absurd hD' hD
      · exact hn j c' hc' ev hev' hD'

/-- **Once only.** What takes away what it needs, and what nobody brings back, is done by at
most one call. -/
theorem run_once {G D : Ev S E L → Prop} {Gone : S → Prop}
    (hh : ∀ q, Guarantees (fun _ _ _ => True) G (h q))
    (hpre : ∀ ev, D ev → ¬Gone ev.pre) (hpost : ∀ ev, D ev → Gone ev.post)
    (hkeep : ∀ ev, G ev → Gone ev.pre → Gone ev.post) (s : S) (as : List (Act Q E)) {i j : ℕ}
    {c c' : Call Q S E L α} (hi : (run h (init s) as).calls[i]? = some c)
    (hj : (run h (init s) as).calls[j]? = some c') {ev ev' : Ev S E L} (hev : ev ∈ c.trace)
    (hD : D ev) (hev' : ev' ∈ c'.trace) (hD' : D ev') : i = j := by
  have hinv : Held (fun _ => promise (fun _ _ _ => True) G) (fun _ _ tr _ => Every G tr)
      (run h (init s) as) ∧ AtMostOne D Gone (run h (init s) as) := by
    refine run_induction' (P := fun σ => Held _ _ σ ∧ AtMostOne D Gone σ) (fun σ a hσ => ?_)
      ⟨held_init s, .inl (by simp [init])⟩ as
    rcases step_cases (h := h) σ a with ⟨q, rfl, hst⟩ | ⟨i, e, q, tr, l, f, k, rfl, hc, hst⟩ | hst
    · refine ⟨held_call hσ.1 (hh q [] σ.shared every_nil), ?_⟩
      rw [hst]
      exact hσ.2.call q
    · have hev : G ⟨l, e, σ.shared, f e σ.shared⟩ :=
        wp_every ((hσ.1 i _ hc).2 σ.shared e trivial trivial) _ (by simp)
      rw [hst]
      exact ⟨held_exec hσ.1 hc trivial trivial (fun _ _ _ _ _ _ _ => trivial)
        (fun _ _ _ _ _ _ => trivial) fun _ _ _ _ _ _ h => h,
        hσ.2.exec hc (hpre _) (hpost _) (hkeep _ hev)⟩
    · rwa [hst]
  rcases hinv.2 with hnone | ⟨-, n, hn⟩
  · exact absurd hD (hnone c (List.mem_of_getElem? hi) ev hev)
  · rw [hn i c hi ev hev hD, hn j c' hj ev' hev' hD']

/-! ### The order of the statements -/

/-- The statement that an action runs, with the call it belongs to and the request. -/
def ranBy (σ : Sys Q S E L α) : Act Q E → List (ℕ × Q × Ev S E L)
  | .call _ => []
  | .exec i e =>
    match σ.calls[i]? with
    | some ⟨q, _, .stmt l f _⟩ => [(i, q, ⟨l, e, σ.shared, f e σ.shared⟩)]
    | _ => []

variable (h) in
/-- The statements of a run, in the order in which they were run. -/
def history : Sys Q S E L α → List (Act Q E) → List (ℕ × Q × Ev S E L)
  | _, [] => []
  | σ, a :: as => ranBy σ a ++ history (step h σ a) as

lemma history_append (σ : Sys Q S E L α) (as as' : List (Act Q E)) :
    history h σ (as ++ as') = history h σ as ++ history h (run h σ as) as' := by
  induction as generalizing σ with
  | nil => rfl
  | cons a as ih => simp only [List.cons_append, history, run_cons, ih, List.append_assoc]

lemma history_snoc (σ : Sys Q S E L α) (as : List (Act Q E)) (a : Act Q E) :
    history h σ (as ++ [a]) = history h σ as ++ ranBy (run h σ as) a := by
  rw [history_append]
  simp [history]

lemma ranBy_exec {i : ℕ} {e : E} {q : Q} {tr : List (Ev S E L)} {l : L} {f : E → S → S}
    {k : E → S → Prog S E L α} (hc : σ.calls[i]? = some ⟨q, tr, .stmt l f k⟩) :
    ranBy σ (.exec i e) = [(i, q, ⟨l, e, σ.shared, f e σ.shared⟩)] := by
  simp [ranBy, hc]

/-- An action makes a call, runs the next statement of a call, or does nothing at all. -/
lemma ranBy_cases (σ : Sys Q S E L α) (a : Act Q E) :
    (∃ q, a = .call q) ∨
    (∃ i e q tr l f k, a = .exec i e ∧ σ.calls[i]? = some ⟨q, tr, .stmt l f k⟩) ∨
    step h σ a = σ ∧ ranBy σ a = [] := by
  cases a with
  | call q => exact .inl ⟨q, rfl⟩
  | exec i e =>
    rcases hc : σ.calls[i]? with _ | ⟨q, tr, p⟩
    · exact .inr (.inr (by simp [step, ranBy, hc]))
    · cases p with
      | ret a => exact .inr (.inr (by simp [step, ranBy, hc]))
      | stmt l f k => exact .inr (.inl ⟨i, e, q, tr, l, f, k, rfl, hc⟩)

lemma step_exec {i : ℕ} {e : E} {q : Q} {tr : List (Ev S E L)} {l : L} {f : E → S → S}
    {k : E → S → Prog S E L α} (hc : σ.calls[i]? = some ⟨q, tr, .stmt l f k⟩) :
    step h σ (.exec i e) = ⟨f e σ.shared,
      σ.calls.set i ⟨q, tr ++ [⟨l, e, σ.shared, f e σ.shared⟩], k e σ.shared⟩⟩ := by
  simp [step, hc]

/-- What the calls have run is what the history has of them. -/
lemma mem_history (s : S) (as : List (Act Q E)) (i : ℕ) (q : Q) (ev : Ev S E L) :
    (i, q, ev) ∈ history h (init s) as ↔
      ∃ c, (run h (init s) as).calls[i]? = some c ∧ c.req = q ∧ ev ∈ c.trace := by
  induction as using List.reverseRecOn with
  | nil => simp [init, history]
  | append_singleton as a ih =>
    rw [history_snoc, List.mem_append, ih, run_append, run_cons, run_nil]
    generalize run h (init s) as = σ
    clear ih
    rcases ranBy_cases (h := h) σ a with ⟨q', rfl⟩ | ⟨j, e, q', tr, l, f, k, rfl, hj⟩ | ⟨hst, hnone⟩
    · constructor
      · rintro (⟨c, hc, hq, hev⟩ | hnil)
        · refine ⟨c, ?_, hq, hev⟩
          rw [step, List.getElem?_append_left (List.getElem?_eq_some_iff.mp hc).1]
          exact hc
        · cases hnil
      · rintro ⟨c, hc, hq, hev⟩
        rw [step, List.getElem?_append] at hc
        split at hc
        · exact .inl ⟨c, hc, hq, hev⟩
        · rw [List.mem_singleton.mp (List.mem_of_getElem? hc)] at hev
          cases hev
    · rw [step_exec hj, ranBy_exec hj, List.mem_singleton]
      have hset : (σ.calls.set j ⟨q', tr ++ [⟨l, e, σ.shared, f e σ.shared⟩], k e σ.shared⟩)[j]? =
          some ⟨q', tr ++ [⟨l, e, σ.shared, f e σ.shared⟩], k e σ.shared⟩ :=
        List.getElem?_set_self (List.getElem?_eq_some_iff.mp hj).1
      constructor
      · rintro (⟨c, hc, rfl, hev⟩ | hnew)
        · obtain ⟨c', hc', hreq, hpre, -⟩ : ∃ c', (σ.calls.set j ⟨q', tr ++ [⟨l, e, σ.shared,
              f e σ.shared⟩], k e σ.shared⟩)[i]? = some c' ∧ Grown c c' := grown_exec hj hc
          exact ⟨c', hc', hreq, hpre.subset hev⟩
        · cases hnew
          exact ⟨_, hset, rfl, List.mem_append_right _ (List.mem_singleton_self _)⟩
      · rintro ⟨c, hc, rfl, hev⟩
        rcases getElem?_set_cases hc with ⟨rfl, rfl⟩ | ⟨-, hc⟩
        · rcases List.mem_append.mp hev with hev | hev
          · exact .inl ⟨_, hj, rfl, hev⟩
          · rw [List.mem_singleton.mp hev]
            exact .inr rfl
        · exact .inl ⟨c, hc, rfl, hev⟩
    · rw [hst, hnone]
      simp

end Vautr.Interleave
