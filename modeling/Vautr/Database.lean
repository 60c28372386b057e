import Vautr.Session

/-!
Database statements that may fail.

A statement that fails has no effect; whether it fails is part of the outside input. A
query is a program that stops at the first failure, unless the code looks at the result.
-/

namespace Vautr.Database

open Vautr.Atomic Vautr.Session

/-- `sqlx::Error`, as far as the code tells the cases apart. -/
inductive SqlError
  | protocol (msg : String)
  | unique
  | foreignKey
  | database
  deriving DecidableEq

/-- Outside inputs that say whether the database refuses to run the statement. -/
class Faulty (E : Type) where
  fault : E → Bool

abbrev Query (S E L : Type) := ExceptT SqlError (Prog S E L)

variable {S E L α : Type} [Faulty E]

/-- The statement `l`, which either fails or does `g`. -/
def statement (l : L) (g : E → S → S × Except SqlError α) : Query S E L α :=
  ExceptT.mk (Prog.atom l fun e s => if Faulty.fault e then (s, .error .database) else g e s)

/-- A `SELECT`. -/
def select (l : L) (g : S → α) : Query S E L α := statement l fun _ s => (s, .ok (g s))

/-- Run a query and look at its result, an error included. -/
def attempt (x : Query S E L α) : Query S E L (Except SqlError α) := ExceptT.lift x.run

variable {R : Rules S E L} {tr : List (Ev S E L)} {s : S}

/-- A statement either fails, and the state is as the others left it, or it runs. -/
lemma wp_statement_cases {l : L} {g : E → S → S × Except SqlError α}
    {Q : Except SqlError α → List (Ev S E L) → S → Prop} (hmid : R.mid tr)
    (hfault : ∀ s' e, Faulty.fault e = true → R.rely l s s' → R.ok (tr ++ [⟨l, e, s', s'⟩]) →
      Q (.error .database) (tr ++ [⟨l, e, s', s'⟩]) s')
    (hrun : ∀ s' e, Faulty.fault e = false → R.rely l s s' →
      R.ok (tr ++ [⟨l, e, s', (g e s').1⟩]) →
      Q (g e s').2 (tr ++ [⟨l, e, s', (g e s').1⟩]) (g e s').1) :
    wp R (statement l g).run Q tr s := by
  refine ⟨hmid, fun s' e hr ho => ?_⟩
  cases hf : Faulty.fault e with
  | true => simpa [hf] using hfault s' e hf hr (by simpa [hf] using ho)
  | false => simpa [hf] using hrun s' e hf hr (by simpa [hf] using ho)

lemma wp_statement {l : L} {g : E → S → S × Except SqlError α}
    {Q : Except SqlError α → List (Ev S E L) → S → Prop} (hmid : R.mid tr)
    (hfault : ∀ s' e, R.rely l s s' → R.ok (tr ++ [⟨l, e, s', s'⟩]) →
      Q (.error .database) (tr ++ [⟨l, e, s', s'⟩]) s')
    (hrun : ∀ s' e, R.rely l s s' → R.ok (tr ++ [⟨l, e, s', (g e s').1⟩]) →
      Q (g e s').2 (tr ++ [⟨l, e, s', (g e s').1⟩]) (g e s').1) :
    wp R (statement l g).run Q tr s :=
  wp_statement_cases hmid (fun s' e _ => hfault s' e) fun s' e _ => hrun s' e

section Assume

variable {rely : L → S → S → Prop} {ok : List (Ev S E L) → Prop}

lemma wp_statement_ok {l : L} {g : E → S → S × Except SqlError α}
    {P : α → List (Ev S E L) → S → Prop}
    (h : ∀ s' e a, Faulty.fault e = false → rely l s s' →
      ok (tr ++ [⟨l, e, s', (g e s').1⟩]) → (g e s').2 = .ok a →
      P a (tr ++ [⟨l, e, s', (g e s').1⟩]) (g e s').1) :
    wp (assume rely ok) (statement l g).run (Ok P) tr s := by
  refine wp_statement_cases trivial (fun _ _ _ _ _ => trivial) fun s' e hf hr ho => ?_
  cases hg : (g e s').2 with
  | ok a => exact h s' e a hf hr ho hg
  | error err => trivial

lemma wp_select_ok {l : L} {g : S → α} {P : α → List (Ev S E L) → S → Prop}
    (h : ∀ s' e, Faulty.fault e = false → rely l s s' → ok (tr ++ [⟨l, e, s', s'⟩]) →
      P (g s') (tr ++ [⟨l, e, s', s'⟩]) s') :
    wp (assume rely ok) (select l g).run (Ok P) tr s := by
  refine wp_statement_ok fun s' e a hf hr ho ha => ?_
  cases ha
  exact h s' e hf hr ho

end Assume

omit [Faulty E] in
lemma wp_attempt {x : Query S E L α}
    {Q : Except SqlError (Except SqlError α) → List (Ev S E L) → S → Prop} :
    wp R (attempt x).run Q tr s ↔ wp R x.run (fun r => Q (.ok r)) tr s := by
  have : (attempt x).run = x.run >>= fun r => .ret (.ok r) := by
    simp only [attempt, ExceptT.run_lift]
    rfl
  rw [this, wp_bind]
  rfl

variable {rely : L → S → S → Prop} {G : Ev S E L → Prop}

lemma guarantees_statement_cases {l : L} {g : E → S → S × Except SqlError α}
    (hfault : ∀ e s, Faulty.fault e = true → G ⟨l, e, s, s⟩)
    (hrun : ∀ e s, Faulty.fault e = false → G ⟨l, e, s, (g e s).1⟩) :
    Guarantees rely G (statement l g).run :=
  fun _ _ h => wp_statement_cases h (fun s' e hf _ _ => every_append h (hfault e s' hf))
    fun s' e hf _ _ => every_append h (hrun e s' hf)

lemma guarantees_statement {l : L} {g : E → S → S × Except SqlError α}
    (hfault : ∀ e s, G ⟨l, e, s, s⟩) (hrun : ∀ e s, G ⟨l, e, s, (g e s).1⟩) :
    Guarantees rely G (statement l g).run :=
  guarantees_statement_cases (fun e s _ => hfault e s) fun e s _ => hrun e s

omit [Faulty E] in
lemma guarantees_attempt {x : Query S E L α} (h : Guarantees rely G x.run) :
    Guarantees rely G (attempt x).run :=
  fun tr s htr => wp_attempt.mpr (h tr s htr)

/-- A statement whose run meets the condition. -/
lemma secures_statement {T : S → S → Prop} {M G : Ev S E L → Prop} {J : S → Prop}
    {P : α → S → Prop} {l : L} {g : E → S → S × Except SqlError α} (hJ : Stable T J)
    (hfault : ∀ e s, J s → M ⟨l, e, s, s⟩ → G ⟨l, e, s, s⟩)
    (hrun : ∀ e s, J s → M ⟨l, e, s, (g e s).1⟩ →
      G ⟨l, e, s, (g e s).1⟩ ∧ Succeeds P (g e s).2 (g e s).1) :
    Secures T M G J (Succeeds P) (statement l g).run := by
  refine secures_atom hJ fun e s hs hM => ?_
  cases hf : Faulty.fault e with
  | true =>
    simp only [hf, if_true] at hM ⊢
    exact ⟨hfault e s hs hM, trivial⟩
  | false =>
    simp only [hf] at hM ⊢
    exact hrun e s hs hM

lemma secures_select {T : S → S → Prop} {M G : Ev S E L → Prop} {J : S → Prop}
    {P : α → S → Prop} {l : L} {g : S → α} (hJ : Stable T J)
    (h : ∀ e s, J s → M ⟨l, e, s, s⟩ → G ⟨l, e, s, s⟩ ∧ P (g s) s) :
    Secures T M G J (Succeeds P) (select l g).run :=
  secures_statement hJ (fun e s hs hM => (h e s hs hM).1) h

lemma yields_select {M G : Ev S E L → Prop} {P : α → Prop} {l : L} {g : S → α}
    (hG : ∀ e s, M ⟨l, e, s, s⟩ → G ⟨l, e, s, s⟩) (hP : ∀ e s, M ⟨l, e, s, s⟩ → P (g s)) :
    Yields M G (IfOk P) (select l g).run :=
  secures_select (P := fun a _ => P a) stable_true fun e s _ hM => ⟨hG e s hM, hP e s hM⟩

/-- A statement that nobody interferes with. -/
lemma safe_statement {I : S → Prop} {P : Except SqlError α → S → Prop} {l : L}
    {g : E → S → S × Except SqlError α} (hI : I s) (hfault : P (.error .database) s)
    (hrun : ∀ e, I (g e s).1 ∧ P (g e s).2 (g e s).1) : Safe I (statement l g).run P s := by
  intro e
  cases hf : Faulty.fault e with
  | true => simpa [hf] using ⟨hI, hfault⟩
  | false => simpa [hf] using hrun e

lemma safely_statement {C : Ev S E L → Prop} {I : S → Prop} {P : Except SqlError α → S → Prop}
    {l : L} {g : E → S → S × Except SqlError α} (hI : I s) (hfault : P (.error .database) s)
    (hrun : ∀ e, Faulty.fault e = false → C ⟨l, e, s, (g e s).1⟩ →
      I (g e s).1 ∧ P (g e s).2 (g e s).1) : Safely C I (statement l g).run P s := by
  intro e hC
  cases hf : Faulty.fault e with
  | true => simpa [hf] using ⟨hI, hfault⟩
  | false => simpa [hf] using hrun e hf (by simpa [hf] using hC)

omit [Faulty E] in
lemma safe_attempt {I : S → Prop} {x : Query S E L α}
    {P : Except SqlError (Except SqlError α) → S → Prop} :
    Safe I (attempt x).run P s ↔ Safe I x.run (fun r => P (.ok r)) s := by
  have : (attempt x).run = x.run >>= fun r => .ret (.ok r) := by
    simp only [attempt, ExceptT.run_lift]
    rfl
  rw [this, safe_bind]
  rfl

lemma gives_statement {P : α → S → Prop} {l : L} {g : E → S → S × Except SqlError α}
    (h : ∀ e a, (g e s).2 = .ok a → P a (g e s).1) : Gives (statement l g) P s := by
  refine gives_atom fun e a ha => ?_
  cases hf : Faulty.fault e with
  | true => simp [hf] at ha
  | false => simpa [hf] using h e a (by simpa [hf] using ha)

lemma gives_select {P : α → S → Prop} {l : L} {g : S → α} (h : P (g s) s) :
    Gives (select l g : Query S E L α) P s :=
  gives_statement fun _ _ ha => Except.ok.inj ha ▸ h

/-- A `SELECT` that does not fail. -/
lemma alone_select {e : E} (he : Faulty.fault e = false) (l : L) (g : S → α) (s : S) :
    alone e (select l g : Query S E L α).run s = (.ok (g s), s) := by
  simp [select, statement, Prog.atom, alone, he]

end Vautr.Database
