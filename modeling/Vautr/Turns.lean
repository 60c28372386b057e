import Vautr.Interleave

/-!
Calls that take turns.

A call may end others that were made before it: these do not run on, and what they were on their
way to is not promised any more. Two calls that clash may not both be on their way; all others run
at the same time, and rely on what those promise.
-/

namespace Vautr.Turns

open Vautr.Atomic Vautr.Interleave

variable {Q S E L α : Type} {h : Q → Prog S E L α} {ends clash : Q → Q → Prop}

/-- No later call has ended the `i`-th one. -/
def Live (ends : Q → Q → Prop) (calls : List (Call Q S E L α)) (i : ℕ) (q : Q) : Prop :=
  ∀ j c, i < j → calls[j]? = some c → ¬ends c.req q

/-- A call runs on only while it is live, and is made only if the live calls that it clashes with
are finished, or ended by it. -/
def InTurn (ends clash : Q → Q → Prop) (σ : Sys Q S E L α) : Act Q E → Prop
  | .call q => ∀ i c, σ.calls[i]? = some c → Live ends σ.calls i c.req → clash c.req q →
    ends q c.req ∨ c.prog.result.isSome
  | .exec i _ => ∀ c, σ.calls[i]? = some c → Live ends σ.calls i c.req

/-- Of two live calls that clash the first is finished. -/
def Apart (ends clash : Q → Q → Prop) (calls : List (Call Q S E L α)) : Prop :=
  ∀ i j c c', i < j → calls[i]? = some c → calls[j]? = some c' → Live ends calls i c.req →
    clash c.req c'.req → c.prog.result.isSome

variable {rely : Q → S → S → Prop} {G : Q → Ev S E L → Prop} {Post : Q → α → S → Prop}
  {I : S → Prop} {P : Sys Q S E L α → Prop}

/-- The live calls are on their way. -/
structure Going (ends clash : Q → Q → Prop) (rely : Q → S → S → Prop) (G : Q → Ev S E L → Prop)
    (Post : Q → α → S → Prop) (I : S → Prop) (P : Sys Q S E L α → Prop) (σ : Sys Q S E L α) :
    Prop where
  inv : I σ.shared
  apart : Apart ends clash σ.calls
  live : ∀ i c, σ.calls[i]? = some c → Live ends σ.calls i c.req →
    wp (meeting (rely c.req) (fun _ => True) (G c.req)) c.prog
      (fun a tr s => Every (G c.req) tr ∧ Post c.req a s) c.trace σ.shared
  rest : P σ

/-! ### One action -/

lemma live_of_append {calls : List (Call Q S E L α)} {c : Call Q S E L α} {i : ℕ} {q : Q}
    (hlive : Live ends (calls ++ [c]) i q) : Live ends calls i q := by
  intro j c' hij hj
  exact hlive j c' hij (List.getElem?_append_left (List.getElem?_eq_some_iff.mp hj).1 ▸ hj)

/-- A call that runs on asks for what it asked for. -/
lemma live_set {calls : List (Call Q S E L α)} {i j : ℕ} {c : Call Q S E L α} {q : Q}
    (hi : calls[i]? = some c) (c' : Call Q S E L α) (hreq : c'.req = c.req) :
    Live ends (calls.set i c') j q ↔ Live ends calls j q := by
  refine forall_congr' fun k => ⟨fun hk d hjk hd => ?_, fun hk d hjk hd => ?_⟩
  · rcases eq_or_ne k i with rfl | hne
    · obtain rfl : c = d := by simpa [hi] using hd
      rw [← hreq]
      exact hk c' hjk (List.getElem?_set_self (List.getElem?_eq_some_iff.mp hi).1)
    · exact hk d hjk (by rwa [List.getElem?_set_ne hne.symm])
  · rcases eq_or_ne k i with rfl | hne
    · rw [List.getElem?_set_self (List.getElem?_eq_some_iff.mp hi).1, Option.some.injEq] at hd
      subst hd
      rw [hreq]
      exact hk c hjk hi
    · exact hk d hjk (by rwa [List.getElem?_set_ne hne.symm] at hd)

lemma Apart.call {σ : Sys Q S E L α} (hσ : Apart ends clash σ.calls) {q : Q}
    (hq : InTurn ends clash σ (.call q : Act Q E)) :
    Apart ends clash (σ.calls ++ [⟨q, [], h q⟩]) := by
  intro i j c c' hij hi hj hlive hclash
  have hlt : i < σ.calls.length := by
    have := (List.getElem?_eq_some_iff.mp hj).1
    simp only [List.length_append, List.length_singleton] at this
    omega
  rw [List.getElem?_append_left hlt] at hi
  rcases lt_or_ge j σ.calls.length with hjlt | hge
  · rw [List.getElem?_append_left hjlt] at hj
    exact hσ i j c c' hij hi hj (live_of_append hlive) hclash
  · have hnew : c' = ⟨q, [], h q⟩ := by
      rw [List.getElem?_append_right hge] at hj
      simpa using List.mem_of_getElem? hj
    subst hnew
    rcases hq i c hi (live_of_append hlive) hclash with hends | hdone
    · exact absurd hends (hlive j ⟨q, [], h q⟩ hij hj)
    · exact hdone

/-- The call that runs on is the only one that changes. -/
lemma Apart.exec {calls : List (Call Q S E L α)} (hσ : Apart ends clash calls) {i : ℕ}
    {c c' : Call Q S E L α} (hi : calls[i]? = some c) (hreq : c'.req = c.req)
    (hopen : c.prog.result = none) : Apart ends clash (calls.set i c') := by
  intro j k d d' hjk hj hk hlive hclash
  rw [live_set hi c' hreq] at hlive
  have hold : ∃ b, calls[k]? = some b ∧ b.req = d'.req := by
    rcases eq_or_ne k i with rfl | hne
    · rw [List.getElem?_set_self (List.getElem?_eq_some_iff.mp hi).1, Option.some.injEq] at hk
      exact ⟨c, hi, hk ▸ hreq.symm⟩
    · exact ⟨d', by rwa [List.getElem?_set_ne hne.symm] at hk, rfl⟩
  obtain ⟨b, hb, hbreq⟩ := hold
  rcases eq_or_ne j i with rfl | hne
  · rw [List.getElem?_set_self (List.getElem?_eq_some_iff.mp hi).1, Option.some.injEq] at hj
    subst hj
    rw [hreq] at hlive hclash
    have := hσ j k c b hjk hi hb hlive (hbreq ▸ hclash)
    rw [hopen] at this
    cases this
  · rw [List.getElem?_set_ne hne.symm] at hj
    exact hσ j k d b hjk hj hb hlive (hbreq ▸ hclash)

/-! ### Whole runs -/

/-- What is to be shown of the calls: each secures its promises if it starts in `Pre`, its promises
keep the invariant, are what the calls rely on that it does not clash with, and leave what the live
calls have reached. -/
structure Tolerant (h : Q → Prog S E L α) (ends clash : Q → Q → Prop) (rely : Q → S → S → Prop)
    (G : Q → Ev S E L → Prop) (Pre : Q → S → Prop) (Post : Q → α → S → Prop) (I : S → Prop) :
    Prop where
  secures : ∀ q, Secures (rely q) (fun _ => True) (G q) (Pre q) (Post q) (h q)
  refl : ∀ q s, rely q s s
  trans : ∀ q s₁ s₂ s₃, rely q s₁ s₂ → rely q s₂ s₃ → rely q s₁ s₃
  symm : ∀ q q', clash q q' → clash q' q
  inv : ∀ q ev, G q ev → I ev.pre → I ev.post
  rely : ∀ q q' ev, G q' ev → I ev.pre → ¬clash q q' → rely q ev.pre ev.post
  post : ∀ q q' a ev, G q' ev → I ev.pre → ¬(ends q' q ∧ ends q q') → Post q a ev.pre →
    Post q a ev.post

variable {Pre : Q → S → Prop} {σ : Sys Q S E L α}

lemma Going.call (H : Tolerant h ends clash rely G Pre Post I)
    (hσ : Going ends clash rely G Post I P σ) {q : Q}
    (hq : InTurn ends clash σ (.call q : Act Q E)) (hpre : Pre q σ.shared)
    (hP : P ⟨σ.shared, σ.calls ++ [⟨q, [], h q⟩]⟩) :
    Going ends clash rely G Post I P ⟨σ.shared, σ.calls ++ [⟨q, [], h q⟩]⟩ := by
  refine ⟨hσ.inv, hσ.apart.call hq, fun i c hi hlive => ?_, hP⟩
  rcases lt_or_ge i σ.calls.length with hlt | hge
  · rw [List.getElem?_append_left hlt] at hi
    exact hσ.live i c hi (live_of_append hlive)
  · have hnew : c = ⟨q, [], h q⟩ := by
      rw [List.getElem?_append_right hge] at hi
      simpa using List.mem_of_getElem? hi
    subst hnew
    exact H.secures q [] σ.shared every_nil hpre

/-- What the statement of a live call promises. -/
lemma Going.does (H : Tolerant h ends clash rely G Pre Post I)
    (hσ : Going ends clash rely G Post I P σ) {i : ℕ} {e : E} {q : Q} {tr : List (Ev S E L)}
    {l : L} {f : E → S → S} {k : E → S → Prog S E L α}
    (hi : σ.calls[i]? = some ⟨q, tr, .stmt l f k⟩) (hlive : Live ends σ.calls i q) :
    G q ⟨l, e, σ.shared, f e σ.shared⟩ := by
  have hwp := (hσ.live i _ hi hlive).2 σ.shared e (H.refl _ _) fun _ _ => trivial
  exact wp_mid hwp (fun _ _ h => h.1) _ (by simp)

lemma Going.exec (H : Tolerant h ends clash rely G Pre Post I)
    (hσ : Going ends clash rely G Post I P σ) {i : ℕ} {e : E} {q : Q} {tr : List (Ev S E L)}
    {l : L} {f : E → S → S} {k : E → S → Prog S E L α}
    (hi : σ.calls[i]? = some ⟨q, tr, .stmt l f k⟩) (hlive : Live ends σ.calls i q)
    (hP : P ⟨f e σ.shared,
      σ.calls.set i ⟨q, tr ++ [⟨l, e, σ.shared, f e σ.shared⟩], k e σ.shared⟩⟩) :
    Going ends clash rely G Post I P ⟨f e σ.shared,
      σ.calls.set i ⟨q, tr ++ [⟨l, e, σ.shared, f e σ.shared⟩], k e σ.shared⟩⟩ := by
  have hev := hσ.does H (e := e) hi hlive
  refine ⟨H.inv q _ hev hσ.inv, hσ.apart.exec hi rfl rfl, fun j c hj hl => ?_, hP⟩
  have hl : Live ends σ.calls j c.req :=
    (live_set hi ⟨q, tr ++ [⟨l, e, σ.shared, f e σ.shared⟩], k e σ.shared⟩ rfl).mp hl
  rcases eq_or_ne j i with rfl | hne
  · rw [List.getElem?_set_self (List.getElem?_eq_some_iff.mp hi).1, Option.some.injEq] at hj
    subst hj
    exact (hσ.live j _ hi hlive).2 σ.shared e (H.refl _ _) fun _ _ => trivial
  · rw [List.getElem?_set_ne hne.symm] at hj
    refine wp_rely (fun _ => H.trans _) (hσ.live j c hj hl) (fun l' hl' => ?_) fun a _ hpost => ?_
    · -- the other one is not finished, so it does not clash with this one
      refine H.rely c.req q _ hev hσ.inv fun hclash => ?_
      rcases lt_or_gt_of_ne hne with hlt | hgt
      · have hdone := hσ.apart j i c _ hlt hj hi hl hclash
        cases hprog : c.prog with
        | ret a => rw [hprog] at hl'; cases hl'
        | stmt => rw [hprog] at hdone; cases hdone
      · have hdone := hσ.apart i j _ c hgt hi hj hlive (H.symm _ _ hclash)
        cases hdone
    · refine ⟨hpost.1, H.post c.req q a _ hev hσ.inv (fun hends => ?_) hpost.2⟩
      rcases lt_or_gt_of_ne hne with hlt | hgt
      · exact hl i _ hlt hi hends.1
      · exact hlive j c hgt hj hends.2

/-- **Turns.** In a run in which the calls take turns the invariant holds, and the live calls that
are finished have reached what they were on their way to. -/
theorem run_turns (H : Tolerant h ends clash rely G Pre Post I)
    {C : Sys Q S E L α → Act Q E → Prop} (hC : ∀ σ a, C σ a → InTurn ends clash σ a)
    (hpre : ∀ σ q, C σ (.call q) → Going ends clash rely G Post I P σ → Pre q σ.shared)
    (hcall : ∀ σ q, C σ (.call q) → P σ → P ⟨σ.shared, σ.calls ++ [⟨q, [], h q⟩]⟩)
    (hexec : ∀ (σ : Sys Q S E L α) (i : ℕ) (e : E) (q : Q) (tr : List (Ev S E L)) (l : L)
      (f : E → S → S) (k : E → S → Prog S E L α), σ.calls[i]? = some ⟨q, tr, .stmt l f k⟩ →
      G q ⟨l, e, σ.shared, f e σ.shared⟩ → P σ → P ⟨f e σ.shared,
        σ.calls.set i ⟨q, tr ++ [⟨l, e, σ.shared, f e σ.shared⟩], k e σ.shared⟩⟩)
    {as : List (Act Q E)} (hσ : Going ends clash rely G Post I P σ) (has : Along h C σ as) :
    Going ends clash rely G Post I P (run h σ as) := by
  refine run_induction (fun σ a hσ hCa => ?_) hσ has
  rcases step_cases (h := h) σ a with ⟨q, rfl, hst⟩ | ⟨i, e, q, tr, l, f, k, rfl, hi, hst⟩ | hst
  · rw [hst]
    exact hσ.call H (hC σ _ hCa) (hpre σ q hCa hσ) (hcall σ q hCa hσ.rest)
  · have hlive := hC σ _ hCa _ hi
    rw [hst]
    exact hσ.exec H hi hlive (hexec σ i e q tr l f k hi (hσ.does H hi hlive) hσ.rest)
  · rwa [hst]

lemma going_init {s : S} (hs : I s) (hP : P (init s)) :
    Going ends clash rely G Post I P (init s : Sys Q S E L α) := by
  refine ⟨hs, fun i j c c' _ hi => ?_, fun i c hi => ?_, hP⟩
  · simp [init] at hi
  · simp [init] at hi

end Vautr.Turns
