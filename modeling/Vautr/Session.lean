import Mathlib.Data.List.Basic
import Vautr.Atomic

/-!
One party that does one thing after the other, in a world that others change too.

A session is the shared state and the operation that is under way. An operation is a
program; the next one may begin before the last one is over, and then the last one was cut
off where it was: a crash, a cancellation, a restart. Between any two statements the others
may act.
-/

namespace Vautr.Session

open Vautr.Atomic

/-- An operation under way: what was asked, the statements it has run, and the rest of its
program. -/
structure Op (Q S E L α : Type) where
  req : Q
  trace : List (Ev S E L)
  prog : Prog S E L α

structure Sess (Q S E L α : Type) where
  shared : S
  cur : Option (Op Q S E L α)

/-- A new operation, the next statement of the one under way, or something others do. -/
inductive Act (Q E X : Type)
  | op (q : Q)
  | exec (e : E)
  | env (x : X)

variable {Q S E L X α : Type} (h : Q → Prog S E L α) (w : X → S → S)

def step (σ : Sess Q S E L α) : Act Q E X → Sess Q S E L α
  | .op q => ⟨σ.shared, some ⟨q, [], h q⟩⟩
  | .exec e =>
    match σ.cur with
    | some ⟨q, tr, .stmt l f k⟩ =>
      ⟨f e σ.shared, some ⟨q, tr ++ [⟨l, e, σ.shared, f e σ.shared⟩], k e σ.shared⟩⟩
    | _ => σ
  | .env x => { σ with shared := w x σ.shared }

def run (σ : Sess Q S E L α) (as : List (Act Q E X)) : Sess Q S E L α := as.foldl (step h w) σ

/-- No operation has begun. -/
def init (s : S) : Sess Q S E L α := ⟨s, none⟩

/-- Every action of the run meets the condition `C` in the state it is taken in. -/
def Along (C : Sess Q S E L α → Act Q E X → Prop) : Sess Q S E L α → List (Act Q E X) → Prop
  | _, [] => True
  | σ, a :: as => C σ a ∧ Along C (step h w σ a) as

instance decidableAlong {C : Sess Q S E L α → Act Q E X → Prop} [∀ σ a, Decidable (C σ a)] :
    ∀ σ as, Decidable (Along h w C σ as)
  | _, [] => inferInstanceAs (Decidable True)
  | σ, a :: as => @instDecidableAnd _ _ _ (decidableAlong (step h w σ a) as)

variable {h w}

/-- What an action can do. -/
lemma step_cases (σ : Sess Q S E L α) (a : Act Q E X) :
    (∃ q, a = .op q ∧ step h w σ a = ⟨σ.shared, some ⟨q, [], h q⟩⟩) ∨
    (∃ e q tr l f k, a = .exec e ∧ σ.cur = some ⟨q, tr, .stmt l f k⟩ ∧ step h w σ a =
      ⟨f e σ.shared, some ⟨q, tr ++ [⟨l, e, σ.shared, f e σ.shared⟩], k e σ.shared⟩⟩) ∨
    (∃ x, a = .env x ∧ step h w σ a = ⟨w x σ.shared, σ.cur⟩) ∨ step h w σ a = σ := by
  cases a with
  | op q => exact .inl ⟨q, rfl, rfl⟩
  | env x => exact .inr (.inr (.inl ⟨x, rfl, rfl⟩))
  | exec e =>
    rcases hc : σ.cur with _ | ⟨q, tr, p⟩
    · exact .inr (.inr (.inr (by simp [step, hc])))
    · cases p with
      | ret a => exact .inr (.inr (.inr (by simp [step, hc])))
      | stmt l f k => exact .inr (.inl ⟨e, q, tr, l, f, k, rfl, rfl, by simp [step, hc]⟩)

lemma along_append {C : Sess Q S E L α → Act Q E X → Prop} (as as' : List (Act Q E X)) :
    ∀ σ : Sess Q S E L α,
      Along h w C σ (as ++ as') ↔ Along h w C σ as ∧ Along h w C (run h w σ as) as' := by
  induction as with
  | nil => exact fun σ => (iff_of_eq (true_and _)).symm
  | cons a as ih => exact fun σ => (and_congr_right fun _ => ih _).trans and_assoc.symm

lemma run_append (σ : Sess Q S E L α) (as as' : List (Act Q E X)) :
    run h w σ (as ++ as') = run h w (run h w σ as) as' := by
  simp [run, List.foldl_append]

lemma along_true (as : List (Act Q E X)) :
    ∀ σ : Sess Q S E L α, Along h w (fun _ _ => True) σ as := by
  induction as with
  | nil => exact fun _ => trivial
  | cons a as ih => exact fun _ => ⟨trivial, ih _⟩

/-- **Invariants.** What holds at the start and is kept by every action that meets the
condition holds after every run along the condition. -/
theorem run_induction {C : Sess Q S E L α → Act Q E X → Prop} {P : Sess Q S E L α → Prop}
    (hstep : ∀ σ a, P σ → C σ a → P (step h w σ a)) {as : List (Act Q E X)} :
    ∀ {σ : Sess Q S E L α}, P σ → Along h w C σ as → P (run h w σ as) := by
  induction as with
  | nil => exact fun hP _ => hP
  | cons a as ih => exact fun hP hC => ih (hstep _ _ hP hC.1) hC.2

/-! ### Invariants of the shared state -/

/-- The rules of an operation that keeps `I` with every statement, while the others do what
`rely` says and keep `I` too. -/
def keeps (I : S → Prop) (rely : S → S → Prop) (ok : List (Ev S E L) → Prop) : Rules S E L :=
  ⟨fun _ => rely, fun tr => ok tr ∧ Every (fun ev => I ev.pre) tr, Every fun ev => I ev.post⟩

section Keeps

variable {I : S → Prop} {rely : S → S → Prop} {ok : Q → List (Ev S E L) → Prop}
  {C : Sess Q S E L α → Act Q E X → Prop}

/-- The operation under way keeps `I` from here on. -/
def Keeping (I : S → Prop) (rely : S → S → Prop) (ok : Q → List (Ev S E L) → Prop)
    (σ : Sess Q S E L α) : Prop :=
  ∀ c ∈ σ.cur, ok c.req c.trace ∧ Every (fun ev => I ev.pre) c.trace ∧
    wp (keeps I rely (ok c.req)) c.prog (fun _ tr _ => Every (fun ev => I ev.post) tr) c.trace
      σ.shared

lemma every_of_keeps {q : Q} {p : Prog S E L α} {tr : List (Ev S E L)} {s : S}
    (hp : wp (keeps I rely (ok q)) p (fun _ tr _ => Every (fun ev => I ev.post) tr) tr s) :
    Every (fun ev => I ev.post) tr := by
  cases p with
  | ret a => exact hp
  | stmt l f k => exact hp.1

/-- **Invariants of the shared state.** An invariant that every operation keeps with every
one of its statements, and that the others keep, holds in every state a run reaches. -/
theorem run_keeps (hop : ∀ σ q, I σ.shared → C σ (.op q) →
      wp (keeps I rely (ok q)) (h q) (fun _ tr _ => Every (fun ev => I ev.post) tr) [] σ.shared)
    (hexec : ∀ (σ : Sess Q S E L α) e q tr l f k, σ.cur = some ⟨q, tr, .stmt l f k⟩ →
      C σ (.exec e) → I σ.shared → ok q tr → ok q (tr ++ [⟨l, e, σ.shared, f e σ.shared⟩]))
    (henv : ∀ σ x, I σ.shared → C σ (.env x) →
      I (w x σ.shared) ∧ rely σ.shared (w x σ.shared))
    (hnil : ∀ q, ok q []) (hrefl : ∀ s, rely s s)
    (htrans : ∀ s₁ s₂ s₃, rely s₁ s₂ → rely s₂ s₃ → rely s₁ s₃)
    {s : S} (hs : I s) {as : List (Act Q E X)} (has : Along h w C (init s) as) :
    I (run h w (init s) as).shared := by
  have hinv : I (run h w (init s) as).shared ∧ Keeping I rely ok (run h w (init s) as) := by
    refine run_induction (P := fun σ => I σ.shared ∧ Keeping I rely ok σ) ?_
      ⟨hs, by simp [Keeping, init]⟩ has
    rintro σ a ⟨hI, hk⟩ hC
    rcases step_cases (h := h) (w := w) σ a with ⟨q, rfl, hst⟩ |
      ⟨e, q, tr, l, f, k, rfl, hc, hst⟩ | ⟨x, rfl, hst⟩ | hst
    · rw [hst]
      refine ⟨hI, fun c hc => ?_⟩
      obtain rfl := Option.mem_some_iff.mp hc
      exact ⟨hnil q, every_nil, hop σ q hI hC⟩
    · obtain ⟨hok, hpre, hwp⟩ := hk _ hc
      have hok' := hexec σ e q tr l f k hc hC hI hok
      have hpre' : Every (fun ev => I ev.pre) (tr ++ [⟨l, e, σ.shared, f e σ.shared⟩]) :=
        every_append hpre hI
      have hwp' := hwp.2 σ.shared e (hrefl _) ⟨hok', hpre'⟩
      rw [hst]
      refine ⟨every_of_keeps hwp' ⟨l, e, σ.shared, f e σ.shared⟩ (by simp), fun c hc => ?_⟩
      obtain rfl := Option.mem_some_iff.mp hc
      exact ⟨hok', hpre', hwp'⟩
    · obtain ⟨hI', hr⟩ := henv σ x hI hC
      rw [hst]
      refine ⟨hI', fun c hc => ?_⟩
      obtain ⟨hok, hpre, hwp⟩ := hk c hc
      refine ⟨hok, hpre, wp_rely (fun _ => htrans) hwp (fun _ _ => hr) fun _ _ h => h⟩
    · rw [hst]
      exact ⟨hI, hk⟩
  exact hinv.1

end Keeps

/-! ### What an operation has run -/

section Trace

variable {P : Q → List (Ev S E L) → Prop}

/-- What holds of the statements of every operation, whatever the others do, holds of the
statements that the operation under way has run. -/
theorem run_trace (hop : ∀ q s, wp ⟨fun _ _ _ => True, fun _ => True, P q⟩ (h q)
    (fun _ tr _ => P q tr) [] s) (s : S) (as : List (Act Q E X)) :
    ∀ c ∈ (run h w (init s) as).cur, P c.req c.trace := by
  have hinv : ∀ c ∈ (run h w (init s) as).cur, wp ⟨fun _ _ _ => True, fun _ => True, P c.req⟩
      c.prog (fun _ tr _ => P c.req tr) c.trace (run h w (init s) as).shared := by
    refine run_induction (P := fun σ => ∀ c ∈ σ.cur, wp ⟨fun _ _ _ => True, fun _ => True, P c.req⟩
      c.prog (fun _ tr _ => P c.req tr) c.trace σ.shared) (C := fun _ _ => True) ?_ (by simp [init])
      (along_true as _)
    rintro σ a hσ -
    rcases step_cases (h := h) (w := w) σ a with ⟨q, rfl, hst⟩ |
      ⟨e, q, tr, l, f, k, rfl, hc, hst⟩ | ⟨x, rfl, hst⟩ | hst
    · rw [hst]
      intro c hc
      obtain rfl := Option.mem_some_iff.mp hc
      exact hop q _
    · rw [hst]
      intro c hc'
      obtain rfl := Option.mem_some_iff.mp hc'
      exact (hσ _ hc).2 σ.shared e trivial trivial
    · rw [hst]
      exact fun c hc => wp_rely (fun _ _ _ _ _ _ => trivial) (hσ c hc) (fun _ _ => trivial)
        fun _ _ h => h
    · rw [hst]
      exact hσ
  intro c hc
  have hwp := hinv c hc
  cases hp : c.prog with
  | ret a => rwa [hp] at hwp
  | stmt l f k =>
    rw [hp] at hwp
    exact hwp.1

end Trace

/-! ### Operations nobody interferes with -/

/-- Run from `s` with nobody else around, the program passes through states in `I` only, and
ends as `Q` says. -/
def Safe (I : S → Prop) : Prog S E L α → (α → S → Prop) → S → Prop
  | .ret a, P, s => P a s
  | .stmt _ f k, P, s => ∀ e, I (f e s) ∧ Safe I (k e s) P (f e s)

section Safe

variable {β ε : Type} {I : S → Prop} {P : α → S → Prop} {s : S}

@[simp] lemma safe_ret (a : α) :
    Safe I (.ret a : Prog S E L α) P s ↔ P a s := Iff.rfl

lemma safe_mono {p : Prog S E L α} {P' : α → S → Prop} (hP : ∀ a s, P a s → P' a s)
    (h : Safe I p P s) : Safe I p P' s := by
  induction p generalizing s with
  | ret a => exact hP a s h
  | stmt l f k ih => exact fun e => ⟨(h e).1, ih e s (h e).2⟩

lemma safe_weaken {I' : S → Prop} {p : Prog S E L α} (hI : ∀ s, I s → I' s) (h : Safe I p P s) :
    Safe I' p P s := by
  induction p generalizing s with
  | ret a => exact h
  | stmt l f k ih => exact fun e => ⟨hI _ (h e).1, ih e s (h e).2⟩

lemma safe_and {P' : α → S → Prop} {p : Prog S E L α} (h : Safe I p P s) (h' : Safe I p P' s) :
    Safe I p (fun a s => P a s ∧ P' a s) s := by
  induction p generalizing s with
  | ret a => exact ⟨h, h'⟩
  | stmt l f k ih => exact fun e => ⟨(h e).1, ih e s (h e).2 (h' e).2⟩

lemma safe_trivial (p : Prog S E L α) (s : S) : Safe (fun _ => True) p (fun _ _ => True) s := by
  induction p generalizing s with
  | ret a => trivial
  | stmt l f k ih => exact fun e => ⟨trivial, ih e s _⟩

lemma safe_bind (p : Prog S E L α) (g : α → Prog S E L β) (P : β → S → Prop) (s : S) :
    Safe I (p >>= g) P s ↔ Safe I p (fun a s => Safe I (g a) P s) s := by
  induction p generalizing s with
  | ret a => rfl
  | stmt l f k ih =>
    exact forall_congr' fun e => and_congr_right fun _ => ih e s _

lemma safe_bind_except (x : ExceptT ε (Prog S E L) β) (f : β → ExceptT ε (Prog S E L) α)
    (P : Except ε α → S → Prop) (s : S) :
    Safe I (x >>= f).run P s ↔ Safe I x.run (fun r s => match r with
      | .ok b => Safe I (f b).run P s
      | .error e => P (.error e) s) s := by
  rw [ExceptT.run_bind, safe_bind]
  constructor <;> refine safe_mono fun r s => ?_ <;> cases r <;> exact id

/-- A program that promises `G` of its statements keeps what statements in `G` keep. -/
lemma safe_of_guarantees {G : Ev S E L → Prop} {J : S → Prop} {p : Prog S E L α}
    (hp : Guarantees (fun _ _ _ => True) G p) (hJ : ∀ ev, J ev.pre → G ev → J ev.post)
    (hI : ∀ s, J s → I s) (hs : J s) : Safe I p (fun _ s => J s) s := by
  have hp' := hp [] s every_nil
  clear hp
  generalize ([] : List (Ev S E L)) = tr at hp'
  induction p generalizing tr s with
  | ret a => exact hs
  | stmt l f k ih =>
    intro e
    have hk := hp'.2 s e trivial trivial
    have hpost : J (f e s) := hJ _ hs (wp_every hk ⟨l, e, s, f e s⟩ (by simp))
    exact ⟨hI _ hpost, ih e s hpost _ hk⟩

/-- An operation that is safe keeps `I` with every statement. -/
lemma Safe.keeps {p : Prog S E L α} {tr : List (Ev S E L)} (h : Safe I p P s)
    (htr : Every (fun ev => I ev.post) tr) :
    wp (keeps I Eq fun _ => True) p (fun _ tr _ => Every (fun ev => I ev.post) tr) tr s := by
  induction p generalizing tr s with
  | ret a => exact htr
  | stmt l f k ih =>
    refine ⟨htr, ?_⟩
    rintro s' e rfl -
    exact ih e s (h e).2 (every_append htr (h e).1)

end Safe

/-! ### Operations that may fail -/

/-- Run from `s` with nobody else around, the operation fails, or it ends as `P` says. -/
def Gives {ε : Type} (x : ExceptT ε (Prog S E L) α) (P : α → S → Prop) (s : S) : Prop :=
  Safe (fun _ => True) x.run (Succeeds P) s

section Gives

variable {β ε : Type} {P : α → S → Prop} {s : S}

lemma gives_pure {a : α} (h : P a s) : Gives (pure a : ExceptT ε (Prog S E L) α) P s := h

lemma gives_throw (err : ε) : Gives (throw err : ExceptT ε (Prog S E L) α) P s := trivial

lemma gives_mono {P' : α → S → Prop} {x : ExceptT ε (Prog S E L) α} (h : Gives x P s)
    (hP : ∀ a s, P a s → P' a s) : Gives x P' s := by
  refine safe_mono (fun r s hr => ?_) h
  cases r with
  | ok a => exact hP a s hr
  | error err => trivial

lemma gives_bind {P' : β → S → Prop} {x : ExceptT ε (Prog S E L) α}
    {f : α → ExceptT ε (Prog S E L) β} (hx : Gives x P s)
    (hf : ∀ a s, P a s → Gives (f a) P' s) : Gives (x >>= f) P' s := by
  unfold Gives
  rw [safe_bind_except]
  refine safe_mono (fun r s hr => ?_) hx
  cases r with
  | ok a => exact hf a s hr
  | error err => trivial

/-- A statement. -/
lemma gives_atom {l : L} {g : E → S → S × Except ε α}
    (h : ∀ e a, (g e s).2 = .ok a → P a (g e s).1) :
    Gives (ExceptT.mk (Prog.atom l g)) P s := by
  refine fun e => ⟨trivial, ?_⟩
  cases hg : (g e s).2 with
  | ok a => simpa [hg, Succeeds, IfOk] using h e a hg
  | error err => simp [hg, Succeeds, IfOk]

lemma gives_lift {p : Prog S E L α} (h : Safe (fun _ => True) p P s) :
    Gives (ExceptT.lift p : ExceptT ε (Prog S E L) α) P s := by
  change Safe _ (p >>= _) _ s
  rw [safe_bind]
  exact h

/-- What is thrown again is thrown. -/
lemma gives_tryCatch {x : ExceptT ε (Prog S E L) α} {f : ε → ExceptT ε (Prog S E L) α}
    (hx : Gives x P s) (hf : ∀ err s, Gives (f err) P s) : Gives (tryCatch x f) P s := by
  change Safe _ (x.run >>= _) _ s
  rw [safe_bind]
  refine safe_mono (fun r s hr => ?_) hx
  cases r with
  | ok a => exact hr
  | error err => exact hf err s

lemma gives_and {Q : α → S → Prop} {x : ExceptT ε (Prog S E L) α} (hP : Gives x P s)
    (hQ : Gives x Q s) : Gives x (fun a s => P a s ∧ Q a s) s := by
  refine safe_mono (fun r s hr => ?_) (safe_and hP hQ)
  cases r with
  | ok a => exact hr
  | error err => trivial

lemma gives_true {x : ExceptT ε (Prog S E L) α} : Gives x (fun _ _ => True) s := by
  refine safe_mono (fun r s _ => ?_) (safe_trivial x.run s)
  cases r <;> trivial

end Gives

/-! ### Operations that meet a condition -/

/-- As `Safe`, while the statements meet the condition `C`. -/
def Safely (C : Ev S E L → Prop) (I : S → Prop) : Prog S E L α → (α → S → Prop) → S → Prop
  | .ret a, P, s => P a s
  | .stmt l f k, P, s =>
    ∀ e, C ⟨l, e, s, f e s⟩ → I (f e s) ∧ Safely C I (k e s) P (f e s)

section Safely

variable {β ε : Type} {C : Ev S E L → Prop} {I : S → Prop} {P : α → S → Prop} {s : S}

@[simp] lemma safely_ret (a : α) :
    Safely C I (.ret a : Prog S E L α) P s ↔ P a s := Iff.rfl

lemma safely_mono {p : Prog S E L α} {P' : α → S → Prop} (hP : ∀ a s, P a s → P' a s)
    (h : Safely C I p P s) : Safely C I p P' s := by
  induction p generalizing s with
  | ret a => exact hP a s h
  | stmt l f k ih => exact fun e hC => ⟨(h e hC).1, ih e s (h e hC).2⟩

lemma safely_bind (p : Prog S E L α) (g : α → Prog S E L β) (P : β → S → Prop) (s : S) :
    Safely C I (p >>= g) P s ↔ Safely C I p (fun a s => Safely C I (g a) P s) s := by
  induction p generalizing s with
  | ret a => rfl
  | stmt l f k ih =>
    exact forall_congr' fun e => forall_congr' fun _ => and_congr_right fun _ => ih e s _

lemma safely_bind_except (x : ExceptT ε (Prog S E L) β) (f : β → ExceptT ε (Prog S E L) α)
    (P : Except ε α → S → Prop) (s : S) :
    Safely C I (x >>= f).run P s ↔ Safely C I x.run (fun r s => match r with
      | .ok b => Safely C I (f b).run P s
      | .error e => P (.error e) s) s := by
  rw [ExceptT.run_bind, safely_bind]
  constructor <;> refine safely_mono fun r s => ?_ <;> cases r <;> exact id

/-- What is safe is safe under any condition. -/
lemma Safe.safely {p : Prog S E L α} (h : Safe I p P s) : Safely C I p P s := by
  induction p generalizing s with
  | ret a => exact h
  | stmt l f k ih => exact fun e _ => ⟨(h e).1, ih e s (h e).2⟩

/-- While its statements meet the condition, such an operation keeps `I`. -/
lemma Safely.keeps {p : Prog S E L α} {tr : List (Ev S E L)} (h : Safely C I p P s)
    (htr : Every (fun ev => I ev.post) tr) :
    wp (keeps I Eq (Every C)) p (fun _ tr _ => Every (fun ev => I ev.post) tr) tr s := by
  induction p generalizing tr s with
  | ret a => exact htr
  | stmt l f k ih =>
    refine ⟨htr, ?_⟩
    rintro s' e rfl ⟨hC, -⟩
    have hev := h e (hC _ (List.mem_append_right _ (List.mem_singleton_self _)))
    exact ih e s hev.2 (every_append htr hev.1)

end Safely

/-! ### What a program returns -/

section Alone

variable {β ε : Type}

/-- What the program returns and leaves behind when it runs from `s` with nobody else around,
with the outside input `e` for all of its statements. -/
def alone (e : E) : Prog S E L α → S → α × S
  | .ret a, s => (a, s)
  | .stmt _ f k, s => alone e (k e s) (f e s)

variable {e : E} {s s' : S}

@[simp] lemma alone_ret (a : α) : alone e (.ret a : Prog S E L α) s = (a, s) := rfl

lemma alone_bind (p : Prog S E L α) (g : α → Prog S E L β) :
    alone e (p >>= g) s = alone e (g (alone e p s).1) (alone e p s).2 := by
  induction p generalizing s with
  | ret a => rfl
  | stmt l f k ih => exact ih e s

lemma alone_bind_ok {x : ExceptT ε (Prog S E L) β} {f : β → ExceptT ε (Prog S E L) α} {b : β}
    (h : alone e x.run s = (.ok b, s')) : alone e (x >>= f).run s = alone e (f b).run s' := by
  rw [ExceptT.run_bind, alone_bind, h]

@[simp] lemma alone_pure (a : α) :
    alone e (pure a : ExceptT ε (Prog S E L) α).run s = (.ok a, s) := rfl

@[simp] lemma alone_throw (err : ε) :
    alone e (throw err : ExceptT ε (Prog S E L) α).run s = (.error err, s) := rfl

/-- What a safe program returns when it is alone. -/
lemma Safe.alone {I : S → Prop} {P : α → S → Prop} {p : Prog S E L α} (h : Safe I p P s) :
    P (alone e p s).1 (alone e p s).2 := by
  induction p generalizing s with
  | ret a => exact h
  | stmt l f k ih => exact ih e s (h e).2

/-- A loop whose rounds leave the state alone. -/
lemma alone_mapM {f : β → ExceptT ε (Prog S E L) α} {g : β → α}
    (hf : ∀ b, alone e (f b).run s = (.ok (g b), s)) (l : List β) :
    alone e (l.mapM f).run s = (.ok (l.map g), s) := by
  induction l with
  | nil => rfl
  | cons b l ih =>
    rw [List.mapM_cons, alone_bind_ok (hf b), alone_bind_ok ih]
    rfl

end Alone

/-! ### Programs that run to their end -/

/-- Run from `s` with nobody else around, the program returns `a` and leaves `s'`, for some
outside inputs of its statements. -/
inductive Ends : Prog S E L α → S → α → S → Prop
  | ret (a : α) (s : S) : Ends (.ret a) s a s
  | stmt {l : L} {f : E → S → S} {k : E → S → Prog S E L α} {s s' : S} {a : α} (e : E)
    (h : Ends (k e s) (f e s) a s') : Ends (.stmt l f k) s a s'

/-- What a safe program returns. -/
lemma Safe.ends {I : S → Prop} {P : α → S → Prop} {p : Prog S E L α} {s s' : S} {a : α}
    (h : Safe I p P s) (he : Ends p s a s') : P a s' := by
  induction he with
  | ret a s => exact h
  | stmt e _ ih => exact ih (h e).2

lemma ends_of_alone {e : E} {p : Prog S E L α} {s : S} {a : α} (h : (alone e p s).1 = a) :
    Ends p s a (alone e p s).2 := by
  induction p generalizing s with
  | ret b =>
    obtain rfl : b = a := h
    exact .ret b s
  | stmt l f k ih => exact .stmt e (ih e s h)

end Vautr.Session
