import Vautr.Database
import Vautr.Interleave

/-!
Calls that are still under way.

What is known of the statements that a call has run, and of the one it runs next, is known of
every call of a run, the unfinished ones included. A run in two halves cuts the statements of every
call in two: those of the first half, and those that found a state that comes after it.
-/

namespace Vautr.Underway

open Vautr.Atomic Vautr.Interleave Vautr.Database

variable {Q S E L α β ε : Type}

/-! ### What holds of each statement -/

/-- Each statement of the program meets `Φ`, together with those before it; and at its end the
program meets `Q`. -/
def Meets (Φ : List (Ev S E L) → Ev S E L → Prop) :
    Prog S E L α → (α → List (Ev S E L) → Prop) → List (Ev S E L) → Prop
  | .ret a, Q, tr => Q a tr
  | .stmt l f k, Q, tr =>
    ∀ e s, Φ tr ⟨l, e, s, f e s⟩ ∧ Meets Φ (k e s) Q (tr ++ [⟨l, e, s, f e s⟩])

variable {Φ : List (Ev S E L) → Ev S E L → Prop} {tr : List (Ev S E L)}

lemma meets_bind {p : Prog S E L α} {g : α → Prog S E L β} {Q : β → List (Ev S E L) → Prop} :
    Meets Φ (p >>= g) Q tr ↔ Meets Φ p (fun a tr => Meets Φ (g a) Q tr) tr := by
  induction p generalizing tr with
  | ret a => rfl
  | stmt l f k ih =>
    exact forall_congr' fun e => forall_congr' fun s => and_congr_right fun _ => ih e s

lemma meets_mono {Φ' : List (Ev S E L) → Ev S E L → Prop} {p : Prog S E L α}
    {Q Q' : α → List (Ev S E L) → Prop} (hΦ : ∀ tr ev, Φ tr ev → Φ' tr ev)
    (hQ : ∀ a tr, Q a tr → Q' a tr) (hp : Meets Φ p Q tr) : Meets Φ' p Q' tr := by
  induction p generalizing tr with
  | ret a => exact hQ a tr hp
  | stmt l f k ih => exact fun e s => ⟨hΦ _ _ (hp e s).1, ih e s (hp e s).2⟩

lemma meets_and {p : Prog S E L α} {Q Q' : α → List (Ev S E L) → Prop} (hp : Meets Φ p Q tr)
    (hp' : Meets Φ p Q' tr) : Meets Φ p (fun a tr => Q a tr ∧ Q' a tr) tr := by
  induction p generalizing tr with
  | ret a => exact ⟨hp, hp'⟩
  | stmt l f k ih => exact fun e s => ⟨(hp e s).1, ih e s (hp e s).2 (hp' e s).2⟩

lemma meets_of_steps {G : Ev S E L → Prop} {p : Prog S E L α} (hp : Steps G p) :
    Meets (fun _ ev => G ev) p (fun _ _ => True) tr := by
  induction p generalizing tr with
  | ret a => trivial
  | stmt l f k ih => exact fun e s => ⟨(hp e s).1, ih e s (hp e s).2⟩

/-- After a failure the rest of the program is left out. -/
lemma meets_bind_except {x : ExceptT ε (Prog S E L) β} {f : β → ExceptT ε (Prog S E L) α}
    {Q : Except ε α → List (Ev S E L) → Prop} {P : Except ε β → List (Ev S E L) → Prop}
    (hx : Meets Φ x.run P tr) (hok : ∀ b tr, P (.ok b) tr → Meets Φ (f b).run Q tr)
    (herr : ∀ e tr, P (.error e) tr → Q (.error e) tr) : Meets Φ (x >>= f).run Q tr := by
  rw [ExceptT.run_bind, meets_bind]
  refine meets_mono (fun _ _ h => h) (fun r tr hr => ?_) hx
  cases r with
  | ok b => exact hok b tr hr
  | error e => exact herr e tr hr

lemma meets_atom {l : L} {g : E → S → S × α} {Q : α → List (Ev S E L) → Prop}
    (h : ∀ e s, Φ tr ⟨l, e, s, (g e s).1⟩ ∧ Q (g e s).2 (tr ++ [⟨l, e, s, (g e s).1⟩])) :
    Meets Φ (Prog.atom l g) Q tr := h

section Statements

variable [Faulty E] {l : L} {P : Except SqlError α → List (Ev S E L) → Prop}

/-- A statement fails and does nothing, or it runs. -/
lemma meets_statement {g : E → S → S × Except SqlError α}
    (hfault : ∀ e s, Φ tr ⟨l, e, s, s⟩ ∧ P (.error .database) (tr ++ [⟨l, e, s, s⟩]))
    (hrun : ∀ e s, Φ tr ⟨l, e, s, (g e s).1⟩ ∧ P (g e s).2 (tr ++ [⟨l, e, s, (g e s).1⟩])) :
    Meets Φ (statement l g).run P tr := by
  refine meets_atom fun e s => ?_
  cases hf : Faulty.fault e with
  | true => simpa [hf] using hfault e s
  | false => simpa [hf] using hrun e s

lemma meets_select {g : S → α} (hΦ : ∀ e s, Φ tr ⟨l, e, s, s⟩)
    (hfault : ∀ e s, P (.error .database) (tr ++ [⟨l, e, s, s⟩]))
    (hrun : ∀ e s, P (.ok (g s)) (tr ++ [⟨l, e, s, s⟩])) : Meets Φ (select l g).run P tr :=
  meets_statement (fun e s => ⟨hΦ e s, hfault e s⟩) fun e s => ⟨hΦ e s, hrun e s⟩

end Statements

/-! ### Calls of a run -/

variable {h : Q → Prog S E L α}

/-- Every call of the state meets what its code meets. -/
def AllMeet (Φ : Q → List (Ev S E L) → Ev S E L → Prop) (Post : Q → α → List (Ev S E L) → Prop)
    (σ : Sys Q S E L α) : Prop :=
  ∀ c ∈ σ.calls, Meets (Φ c.req) c.prog (Post c.req) c.trace

section Calls

variable {Φ : Q → List (Ev S E L) → Ev S E L → Prop} {Post : Q → α → List (Ev S E L) → Prop}

lemma AllMeet.step (hh : ∀ q, Meets (Φ q) (h q) (Post q) []) {σ : Sys Q S E L α}
    (hσ : AllMeet Φ Post σ) (a : Act Q E) : AllMeet Φ Post (step h σ a) := by
  rcases step_cases (h := h) σ a with ⟨q, rfl, hst⟩ | ⟨i, e, q, tr, l, f, k, rfl, hc, hst⟩ | hst
  · rw [hst]
    intro c hc
    rcases List.mem_append.mp hc with hc | hc
    · exact hσ c hc
    · rw [List.mem_singleton.mp hc]
      exact hh q
  · rw [hst]
    intro c hmem
    obtain ⟨j, hj⟩ := List.mem_iff_getElem?.mp hmem
    rcases getElem?_set_cases hj with ⟨-, rfl⟩ | ⟨-, hj⟩
    · exact (hσ _ (List.mem_of_getElem? hc) e σ.shared).2
    · exact hσ c (List.mem_of_getElem? hj)
  · rwa [hst]

/-- **Every call of every run** meets what its code meets. -/
theorem run_meets (hh : ∀ q, Meets (Φ q) (h q) (Post q) []) (s : S) (as : List (Act Q E)) :
    AllMeet Φ Post (run h (init s) as) :=
  run_induction' (fun _ a hσ => hσ.step hh a) (by simp [AllMeet, init]) as

/-- **What each statement of a run is known of**; what its call has run before lies before it. -/
theorem run_known {T : S → S → Prop} (hh : ∀ q, Meets (Φ q) (h q) (Post q) [])
    (hT : ∀ q tr ev, Φ q tr ev → T ev.pre ev.post) (hrefl : ∀ s, T s s)
    (htrans : ∀ s₁ s₂ s₃, T s₁ s₂ → T s₂ s₃ → T s₁ s₃) (s : S) (as : List (Act Q E)) :
    ∀ c ∈ (run h (init s) as).calls,
      (∀ ev ∈ c.trace, T ev.post (run h (init s) as).shared) ∧
      ∀ tr ev rest, c.trace = tr ++ ev :: rest → Φ c.req tr ev ∧ ∀ ev' ∈ tr, T ev'.post ev.pre := by
  induction as using List.reverseRecOn with
  | nil => simp [init]
  | append_singleton as a ih =>
    have hmeets := run_meets hh s as
    rw [run_append]
    generalize run h (init s) as = σ at *
    change ∀ c ∈ (step h σ a).calls, (∀ ev ∈ c.trace, T ev.post (step h σ a).shared) ∧ _
    rcases step_cases (h := h) σ a with ⟨q, rfl, hst⟩ | ⟨i, e, q, tr, l, f, k, rfl, hc, hst⟩ | hst
    · rw [hst]
      intro c hmem
      rcases List.mem_append.mp hmem with hmem | hmem
      · exact ih c hmem
      · rw [List.mem_singleton.mp hmem]
        simp
    · have hknown := (hmeets _ (List.mem_of_getElem? hc) e σ.shared).1
      have hlast := hT _ _ _ hknown
      rw [hst]
      intro c hmem
      obtain ⟨j, hj⟩ := List.mem_iff_getElem?.mp hmem
      rcases getElem?_set_cases hj with ⟨-, rfl⟩ | ⟨-, hj⟩
      · obtain ⟨hpost, hsplit⟩ := ih _ (List.mem_of_getElem? hc)
        refine ⟨List.forall_mem_append.mpr ⟨fun ev hev => htrans _ _ _ (hpost ev hev) hlast,
          by simpa using hrefl _⟩, fun tr' ev rest heq => ?_⟩
        rcases List.eq_nil_or_concat rest with rfl | ⟨rest, last, rfl⟩
        · obtain ⟨htr, hev⟩ := List.append_inj' (show tr ++ [_] = tr' ++ [ev] from heq) rfl
          rw [← htr, ← List.head_eq_of_cons_eq hev]
          exact ⟨hknown, hpost⟩
        · rw [List.concat_eq_append, ← List.cons_append, ← List.append_assoc] at heq
          exact hsplit tr' ev rest (List.append_inj' heq rfl).1
      · obtain ⟨hpost, hsplit⟩ := ih c (List.mem_of_getElem? hj)
        exact ⟨fun ev hev => htrans _ _ _ (hpost ev hev) hlast, hsplit⟩
    · rwa [hst]

/-- **What every statement of a run leaves behind** lies before the end. -/
theorem run_later {T : S → S → Prop}
    (hh : ∀ q, Guarantees (fun _ _ _ => True) (fun ev => T ev.pre ev.post) (h q))
    (hrefl : ∀ s, T s s) (htrans : ∀ s₁ s₂ s₃, T s₁ s₂ → T s₂ s₃ → T s₁ s₃) (s : S)
    (as : List (Act Q E)) :
    ∀ c ∈ (run h (init s) as).calls, ∀ ev ∈ c.trace, T ev.post (run h (init s) as).shared := by
  have hmeets : ∀ q, Meets (fun _ ev => T ev.pre ev.post) (h q) (fun _ _ => True) [] :=
    fun q => meets_of_steps (steps_of_guarantees (hh q) s)
  exact fun c hc => (run_known hmeets (fun _ _ _ h => h) hrefl htrans s as c hc).1

end Calls

/-! ### Which call ran a statement -/

/-- The `i`-th call, which asked for `q`, has run the statement. -/
def Has (σ : Sys Q S E L α) (i : ℕ) (q : Q) (ev : Ev S E L) : Prop :=
  ∃ c, σ.calls[i]? = some c ∧ c.req = q ∧ ev ∈ c.trace

variable {σ : Sys Q S E L α} {i j : ℕ} {q q' : Q} {ev ev' : Ev S E L}

lemma not_has_init (s : S) : ¬Has (init s : Sys Q S E L α) i q ev := by
  rintro ⟨c, hc, -⟩
  simp [init] at hc

/-- A new call has run nothing. -/
lemma has_call {s : S} {p : Prog S E L α} :
    Has ⟨s, σ.calls ++ [⟨q', [], p⟩]⟩ i q ev ↔ Has σ i q ev := by
  constructor
  · rintro ⟨c, hc, hq, hev⟩
    rcases lt_or_ge i σ.calls.length with hlt | hge
    · exact ⟨c, by rwa [List.getElem?_append_left hlt] at hc, hq, hev⟩
    · rw [List.getElem?_append_right hge] at hc
      rw [List.mem_singleton.mp (List.mem_of_getElem? hc)] at hev
      cases hev
  · rintro ⟨c, hc, hrest⟩
    exact ⟨c, List.getElem?_append_left (List.getElem?_eq_some_iff.mp hc).1 ▸ hc, hrest⟩

/-- The statement that a call runs is added to its own. -/
lemma has_exec {s : S} {tr : List (Ev S E L)} {p p' : Prog S E L α}
    (hc : σ.calls[j]? = some ⟨q', tr, p⟩) :
    Has ⟨s, σ.calls.set j ⟨q', tr ++ [ev'], p'⟩⟩ i q ev ↔
      Has σ i q ev ∨ i = j ∧ q = q' ∧ ev = ev' := by
  constructor
  · rintro ⟨c, hi, rfl, hev⟩
    rcases getElem?_set_cases hi with ⟨rfl, rfl⟩ | ⟨-, hi⟩
    · rcases List.mem_append.mp hev with hev | hev
      · exact .inl ⟨_, hc, rfl, hev⟩
      · exact .inr ⟨rfl, rfl, List.mem_singleton.mp hev⟩
    · exact .inl ⟨c, hi, rfl, hev⟩
  · have hj : (σ.calls.set j ⟨q', tr ++ [ev'], p'⟩)[j]? = some ⟨q', tr ++ [ev'], p'⟩ :=
      List.getElem?_set_self (List.getElem?_eq_some_iff.mp hc).1
    rintro (⟨c, hi, hq, hev⟩ | ⟨rfl, rfl, rfl⟩)
    · rcases eq_or_ne i j with rfl | hne
      · cases hc.symm.trans hi
        exact ⟨_, hj, hq, List.mem_append_left _ hev⟩
      · exact ⟨c, by rwa [List.getElem?_set_ne hne.symm], hq, hev⟩
    · exact ⟨_, hj, rfl, List.mem_append_right _ (List.mem_singleton_self _)⟩

/-! ### The two halves of a run -/

/-- What a call has run. -/
def traceAt (σ : Sys Q S E L α) (i : ℕ) : List (Ev S E L) := (σ.calls[i]?.map (·.trace)).getD []

lemma has_of_mem_traceAt (hev : ev ∈ traceAt σ i) : ∃ q, Has σ i q ev := by
  rw [traceAt] at hev
  cases hc : σ.calls[i]? with
  | none => simp [hc] at hev
  | some c => exact ⟨c.req, c, hc, rfl, by simpa [hc] using hev⟩

lemma Has.req_eq (h : Has σ i q ev) (h' : Has σ i q' ev') : q = q' := by
  obtain ⟨c, hc, rfl, -⟩ := h
  obtain ⟨c', hc', rfl, -⟩ := h'
  cases hc.symm.trans hc'
  rfl

lemma length_le_run (σ : Sys Q S E L α) (as : List (Act Q E)) :
    σ.calls.length ≤ (run h σ as).calls.length := by
  refine run_induction' (P := fun σ' => σ.calls.length ≤ σ'.calls.length) (fun σ' a hle => ?_)
    le_rfl as
  rcases step_cases (h := h) σ' a with ⟨q, rfl, hst⟩ | ⟨i, e, q, tr, l, f, k, rfl, hc, hst⟩ | hst
  · rw [hst, List.length_append]
    omega
  · rwa [hst, List.length_set]
  · rwa [hst]

/-- **What is run from a state on** finds states that keep what the steps keep. -/
theorem run_keeps {P : Sys Q S E L α → Prop} {A : Act Q E → Prop}
    (hstep : ∀ σ a, A a → P σ → P (step h σ a)) (hσ : P σ) {as : List (Act Q E)}
    (has : ∀ a ∈ as, A a) :
    P (run h σ as) ∧ ∀ (i : ℕ) (c : Call Q S E L α), (run h σ as).calls[i]? = some c →
      ∃ rest, c.trace = traceAt σ i ++ rest ∧ ∀ ev ∈ rest, ∃ σ', P σ' ∧ ev.pre = σ'.shared := by
  induction as using List.reverseRecOn with
  | nil => exact ⟨hσ, fun i c hc => ⟨[], by simp [traceAt, show σ.calls[i]? = some c from hc],
      by simp⟩⟩
  | append_singleton as a ih =>
    obtain ⟨hP, hcalls⟩ := ih fun a ha => has a (List.mem_append_left _ ha)
    have hlen := length_le_run (h := h) σ as
    rw [run_append]
    generalize run h σ as = σ' at *
    refine ⟨hstep σ' a (has a (by simp)) hP, ?_⟩
    change ∀ i c, (step h σ' a).calls[i]? = some c → _
    rcases step_cases (h := h) σ' a with ⟨q, rfl, hst⟩ | ⟨i, e, q, tr, l, f, k, rfl, hc, hst⟩ | hst
    · rw [hst]
      intro i c hi
      rcases lt_or_ge i σ'.calls.length with hlt | hge
      · rw [List.getElem?_append_left hlt] at hi
        exact hcalls i c hi
      · rw [List.getElem?_append_right hge] at hi
        rw [List.mem_singleton.mp (List.mem_of_getElem? hi)]
        refine ⟨[], ?_, by simp⟩
        simp [traceAt, List.getElem?_eq_none (Nat.le_trans hlen hge)]
    · rw [hst]
      intro j c hj
      rcases getElem?_set_cases hj with ⟨rfl, rfl⟩ | ⟨-, hj⟩
      · obtain ⟨rest, hrest, hpre⟩ := hcalls j _ hc
        refine ⟨rest ++ [⟨l, e, σ'.shared, f e σ'.shared⟩], ?_, ?_⟩
        · rw [← List.append_assoc, ← hrest]
        · exact List.forall_mem_append.mpr ⟨hpre, by simpa using ⟨σ', hP, rfl⟩⟩
      · exact hcalls j c hj
    · rw [hst]
      exact hcalls

/-- **What is run in the second half** of a run comes after the first half. -/
theorem run_after {T : S → S → Prop} {Post : Q → α → List (Ev S E L) → Prop}
    (hh : ∀ q, Meets (fun _ ev => T ev.pre ev.post) (h q) (Post q) []) (hrefl : ∀ s, T s s)
    (htrans : ∀ s₁ s₂ s₃, T s₁ s₂ → T s₂ s₃ → T s₁ s₃) (s : S) (as bs : List (Act Q E)) :
    T (run h (init s) as).shared (run h (init s) (as ++ bs)).shared ∧
    ∀ (i : ℕ) (c : Call Q S E L α), (run h (init s) (as ++ bs)).calls[i]? = some c →
      ∃ rest, c.trace = traceAt (run h (init s) as) i ++ rest ∧
        ∀ ev ∈ rest, T (run h (init s) as).shared ev.pre := by
  have hstep : ∀ (σ : Sys Q S E L α) (a : Act Q E), True →
      AllMeet (fun _ _ ev => T ev.pre ev.post) Post σ ∧ T (run h (init s) as).shared σ.shared →
      AllMeet (fun _ _ ev => T ev.pre ev.post) Post (step h σ a) ∧
        T (run h (init s) as).shared (step h σ a).shared := by
    rintro σ a - ⟨hmeets, hT⟩
    refine ⟨hmeets.step hh a, ?_⟩
    rcases step_cases (h := h) σ a with ⟨q, rfl, hst⟩ | ⟨i, e, q, tr, l, f, k, rfl, hc, hst⟩ | hst
    · rwa [hst]
    · rw [hst]
      exact htrans _ _ _ hT (hmeets _ (List.mem_of_getElem? hc) e σ.shared).1
    · rwa [hst]
  obtain ⟨⟨-, hT⟩, hcalls⟩ := run_keeps hstep ⟨run_meets hh s as, hrefl _⟩ 
    (show ∀ a ∈ bs, True from fun _ _ => trivial)
  rw [run_append]
  refine ⟨hT, fun i c hc => ?_⟩
  obtain ⟨rest, hrest, hpre⟩ := hcalls i c hc
  exact ⟨rest, hrest, fun ev hev => by
    obtain ⟨σ', ⟨-, hT'⟩, heq⟩ := hpre ev hev
    rwa [heq]⟩

end Vautr.Underway
