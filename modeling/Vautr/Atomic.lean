import Mathlib.Algebra.Ring.Int.Defs
import Mathlib.Algebra.Ring.Nat
import Mathlib.Logic.Basic
import Mathlib.Tactic.Lemma

/-!
Programs made of atomic statements, and what they do when other programs run between
their statements.

A program is the code of one call: it runs one statement after the other on a shared
state, and what it does next may depend on what the statement saw. Each statement is
atomic; between two of them anybody else may change the state. A statement also reads an
outside input, the part of the world the state does not hold: the clock, fresh random
values, whether the statement fails.
-/

namespace Vautr.Atomic

/-- A program over the state `S` with outside inputs `E`, statement names `L` and result
`α`. A statement named `l` turns the state `s` into `f e s` and goes on with `k e s`. -/
inductive Prog (S E L α : Type)
  | ret (a : α)
  | stmt (l : L) (f : E → S → S) (k : E → S → Prog S E L α)

/-- A statement that was run: its name, its outside input, the state it found and the
state it left. -/
structure Ev (S E L : Type) where
  name : L
  inp : E
  pre : S
  post : S

variable {S E L α β : Type}

namespace Prog

def bind : Prog S E L α → (α → Prog S E L β) → Prog S E L β
  | .ret a, g => g a
  | .stmt l f k, g => .stmt l f fun e s => (k e s).bind g

instance : Monad (Prog S E L) where
  pure := .ret
  bind := bind

lemma bind_ret (p : Prog S E L α) : p.bind .ret = p := by
  induction p with
  | ret a => rfl
  | stmt l f k ih => simp only [bind, ih]

lemma bind_bind {γ : Type} (p : Prog S E L α) (g : α → Prog S E L β) (g' : β → Prog S E L γ) :
    (p.bind g).bind g' = p.bind fun a => (g a).bind g' := by
  induction p with
  | ret a => rfl
  | stmt l f k ih => simp only [bind, ih]

instance : LawfulMonad (Prog S E L) := LawfulMonad.mk' _ bind_ret (fun _ _ => rfl) bind_bind

/-- The single statement that runs `g` and returns what `g` returns. -/
def atom (l : L) (g : E → S → S × α) : Prog S E L α :=
  .stmt l (fun e s => (g e s).1) fun e s => .ret (g e s).2

/-- The name of the statement that comes next. -/
def next : Prog S E L α → Option L
  | .ret _ => none
  | .stmt l _ _ => some l

/-- What the program returned, if it is finished. -/
def result : Prog S E L α → Option α
  | .ret a => some a
  | .stmt _ _ _ => none

@[simp] lemma pure_eq (a : α) : (pure a : Prog S E L α) = .ret a := rfl
@[simp] lemma ret_bind (a : α) (g : α → Prog S E L β) :
    (.ret a >>= g : Prog S E L β) = g a := rfl
@[simp] lemma stmt_bind (l : L) (f : E → S → S) (k : E → S → Prog S E L α)
    (g : α → Prog S E L β) :
    (.stmt l f k >>= g : Prog S E L β) = .stmt l f fun e s => k e s >>= g := rfl
@[simp] lemma atom_bind (l : L) (h : E → S → S × α) (g : α → Prog S E L β) :
    (atom l h >>= g : Prog S E L β) =
      .stmt l (fun e s => (h e s).1) fun e s => g (h e s).2 := rfl

@[simp] lemma next_ret (a : α) : (.ret a : Prog S E L α).next = none := rfl
@[simp] lemma next_stmt (l : L) (f : E → S → S) (k : E → S → Prog S E L α) :
    (Prog.stmt l f k).next = some l := rfl
@[simp] lemma result_ret (a : α) : (.ret a : Prog S E L α).result = some a := rfl
@[simp] lemma result_stmt (l : L) (f : E → S → S) (k : E → S → Prog S E L α) :
    (Prog.stmt l f k).result = none := rfl

lemma result_eq_some {p : Prog S E L α} {a : α} (h : p.result = some a) : p = .ret a := by
  cases p with
  | ret b => simpa using h
  | stmt l f k => simp at h

end Prog

/-! ### Reasoning about one program among others -/

/-- What a program assumes and promises while it runs: `rely l` is what the others may do
to the state while the statement `l` is pending, `ok` is assumed of the statements run so
far, and `mid` is promised of them as long as the program is not finished. -/
structure Rules (S E L : Type) where
  rely : L → S → S → Prop
  ok : List (Ev S E L) → Prop
  mid : List (Ev S E L) → Prop

/-- The weakest precondition of a program for the postcondition `Q`, under the rules `R`,
after the statements `tr`. -/
def wp (R : Rules S E L) :
    Prog S E L α → (α → List (Ev S E L) → S → Prop) → List (Ev S E L) → S → Prop
  | .ret a, Q, tr, s => Q a tr s
  | .stmt l f k, Q, tr, s => R.mid tr ∧ ∀ s' e, R.rely l s s' →
      R.ok (tr ++ [⟨l, e, s', f e s'⟩]) → wp R (k e s') Q (tr ++ [⟨l, e, s', f e s'⟩]) (f e s')

variable {R : Rules S E L} {Q : α → List (Ev S E L) → S → Prop} {tr : List (Ev S E L)} {s : S}

@[simp] lemma wp_ret (a : α) : wp R (.ret a) Q tr s ↔ Q a tr s := Iff.rfl

@[simp] lemma wp_stmt (l : L) (f : E → S → S) (k : E → S → Prog S E L α) :
    wp R (.stmt l f k) Q tr s ↔ R.mid tr ∧ ∀ s' e, R.rely l s s' →
      R.ok (tr ++ [⟨l, e, s', f e s'⟩]) →
        wp R (k e s') Q (tr ++ [⟨l, e, s', f e s'⟩]) (f e s') := Iff.rfl

/-- A program in two parts: the second part runs from wherever the first one ends. -/
lemma wp_bind (p : Prog S E L α) (g : α → Prog S E L β)
    (Q : β → List (Ev S E L) → S → Prop) (tr : List (Ev S E L)) (s : S) :
    wp R (p >>= g) Q tr s ↔ wp R p (fun a tr s => wp R (g a) Q tr s) tr s := by
  induction p generalizing tr s with
  | ret a => rfl
  | stmt l f k ih =>
    simp only [Prog.stmt_bind, wp_stmt]
    exact and_congr_right fun _ => forall_congr' fun s' => forall_congr' fun e =>
      forall_congr' fun _ => forall_congr' fun _ => ih e s' _ _

lemma wp_mono {p : Prog S E L α} {Q' : α → List (Ev S E L) → S → Prop}
    (hQ : ∀ a tr s, Q a tr s → Q' a tr s) (h : wp R p Q tr s) : wp R p Q' tr s := by
  induction p generalizing tr s with
  | ret a => exact hQ _ _ _ h
  | stmt l f k ih => exact ⟨h.1, fun s' e hr ho => ih e s' (h.2 s' e hr ho)⟩

/-- A program on its way has met what it promises of the statements so far. -/
lemma wp_mid {p : Prog S E L α} (h : wp R p Q tr s) (hQ : ∀ a s, Q a tr s → R.mid tr) :
    R.mid tr := by
  cases p with
  | ret a => exact hQ a s h
  | stmt l f k => exact h.1

/-- What is known of a program under weaker rules adds to what is known of it. -/
lemma wp_and {R' : Rules S E L} {p : Prog S E L α} {Q' : α → List (Ev S E L) → S → Prop}
    (hrely : ∀ l s s', R.rely l s s' → R'.rely l s s') (hok : ∀ tr, R.ok tr → R'.ok tr)
    (h : wp R p Q tr s) (h' : wp R' p Q' tr s) :
    wp R p (fun a tr s => Q a tr s ∧ Q' a tr s) tr s := by
  induction p generalizing tr s with
  | ret a => exact ⟨h, h'⟩
  | stmt l f k ih =>
    exact ⟨h.1, fun s' e hr ho => ih e s' (h.2 s' e hr ho) (h'.2 s' e (hrely _ _ _ hr) (hok _ ho))⟩

/-- What the others do while a statement is pending does not harm the program. -/
lemma wp_rely {p : Prog S E L α} {s' : S} (htrans : ∀ l s₁ s₂ s₃, R.rely l s₁ s₂ →
    R.rely l s₂ s₃ → R.rely l s₁ s₃) (h : wp R p Q tr s)
    (hr : ∀ l, p.next = some l → R.rely l s s') (hQ : ∀ a, p = .ret a → Q a tr s → Q a tr s') :
    wp R p Q tr s' := by
  cases p with
  | ret a => exact hQ a rfl h
  | stmt l f k => exact ⟨h.1, fun s₂ e h₂ ho => h.2 s₂ e (htrans _ _ _ _ (hr l rfl) h₂) ho⟩

/-- A postcondition that always holds. -/
lemma wp_trivial (hmid : ∀ tr, R.mid tr) (hQ : ∀ a tr s, Q a tr s) (p : Prog S E L α)
    (tr : List (Ev S E L)) (s : S) : wp R p Q tr s := by
  induction p generalizing tr s with
  | ret a => exact hQ a tr s
  | stmt l f k ih => exact ⟨hmid tr, fun s' e _ _ => ih e s' _ _⟩

/-! ### Programs that may fail -/

section Fallible

variable {ε : Type} {Q : Except ε α → List (Ev S E L) → S → Prop}

/-- After a failure the rest of the program is left out. -/
lemma wp_bind_except (x : ExceptT ε (Prog S E L) β) (f : β → ExceptT ε (Prog S E L) α)
    (Q : Except ε α → List (Ev S E L) → S → Prop) (tr : List (Ev S E L)) (s : S) :
    wp R (x >>= f).run Q tr s ↔ wp R x.run (fun r tr s => match r with
      | .ok a => wp R (f a).run Q tr s
      | .error e => Q (.error e) tr s) tr s := by
  rw [ExceptT.run_bind, wp_bind]
  constructor <;> refine wp_mono fun r tr s => ?_ <;> cases r <;> exact id

@[simp] lemma wp_pure_except (a : α) :
    wp R (pure a : ExceptT ε (Prog S E L) α).run Q tr s ↔ Q (.ok a) tr s := Iff.rfl

@[simp] lemma wp_throw_except (e : ε) :
    wp R (throw e : ExceptT ε (Prog S E L) α).run Q tr s ↔ Q (.error e) tr s := Iff.rfl

/-- A postcondition about success only. -/
def Ok (P : α → List (Ev S E L) → S → Prop) : Except ε α → List (Ev S E L) → S → Prop
  | .ok a => P a
  | .error _ => fun _ _ => True

lemma wp_bind_ok {x : ExceptT ε (Prog S E L) β} {f : β → ExceptT ε (Prog S E L) α}
    {P : α → List (Ev S E L) → S → Prop}
    (h : wp R x.run (Ok fun b tr s => wp R (f b).run (Ok P) tr s) tr s) :
    wp R (x >>= f).run (Ok P) tr s := by
  rw [wp_bind_except]
  refine wp_mono (fun r tr s hr => ?_) h
  cases r with
  | ok b => exact hr
  | error e => trivial

lemma wp_throw_ok {P : α → List (Ev S E L) → S → Prop} (e : ε) :
    wp R (throw e : ExceptT ε (Prog S E L) α).run (Ok P) tr s := trivial

end Fallible

/-- The others do what `rely` says, and the statements run so far meet `ok`. -/
def assume (rely : L → S → S → Prop) (ok : List (Ev S E L) → Prop) : Rules S E L :=
  ⟨rely, ok, fun _ => True⟩

/-! ### Programs whose every statement keeps a promise -/

/-- Every statement is in `G`. -/
def Every (G : Ev S E L → Prop) (tr : List (Ev S E L)) : Prop := ∀ ev ∈ tr, G ev

instance (G : Ev S E L → Prop) [DecidablePred G] (tr : List (Ev S E L)) : Decidable (Every G tr) :=
  inferInstanceAs (Decidable (∀ ev ∈ tr, G ev))

/-- The others do what `rely` says, and every statement is in `G`. -/
def promise (rely : L → S → S → Prop) (G : Ev S E L → Prop) : Rules S E L :=
  ⟨rely, fun _ => True, Every G⟩

/-- As long as the others do what `rely` says, every statement of the program is in `G`. -/
def Guarantees (rely : L → S → S → Prop) (G : Ev S E L → Prop) (p : Prog S E L α) : Prop :=
  ∀ tr s, Every G tr → wp (promise rely G) p (fun _ tr _ => Every G tr) tr s

section Guarantee

variable {rely : L → S → S → Prop} {G : Ev S E L → Prop} {ε : Type}

lemma every_nil : Every G [] := by simp [Every]

lemma every_append {ev : Ev S E L} (h : Every G tr) (hev : G ev) : Every G (tr ++ [ev]) := by
  intro ev' h'
  rcases List.mem_append.mp h' with h' | h'
  · exact h ev' h'
  · rw [List.mem_singleton.mp h']
    exact hev

/-- A program that keeps its promise has kept it so far. -/
lemma wp_every {p : Prog S E L α} (h : wp (promise rely G) p (fun _ tr _ => Every G tr) tr s) :
    Every G tr := by
  cases p with
  | ret a => exact h
  | stmt l f k => exact h.1

lemma guarantees_true (p : Prog S E L α) : Guarantees rely (fun _ => True) p := by
  intro tr s _
  induction p generalizing tr s with
  | ret a => exact fun _ _ => trivial
  | stmt l f k ih => exact ⟨fun _ _ => trivial, fun s' e _ _ => ih e s' _ _ fun _ _ => trivial⟩

lemma guarantees_ret (a : α) : Guarantees rely G (.ret a : Prog S E L α) := fun _ _ h => h

lemma guarantees_bind {p : Prog S E L α} {g : α → Prog S E L β} (hp : Guarantees rely G p)
    (hg : ∀ a, Guarantees rely G (g a)) : Guarantees rely G (p >>= g) := by
  intro tr s h
  rw [wp_bind]
  exact wp_mono (fun a tr s h => hg a tr s h) (hp tr s h)

lemma guarantees_stmt {l : L} {f : E → S → S} {k : E → S → Prog S E L α}
    (hG : ∀ e s, G ⟨l, e, s, f e s⟩) (hk : ∀ e s, Guarantees rely G (k e s)) :
    Guarantees rely G (.stmt l f k) :=
  fun _ _ h => ⟨h, fun s' e _ _ => hk e s' _ _ (every_append h (hG e s'))⟩

lemma guarantees_bind_except {x : ExceptT ε (Prog S E L) β} {f : β → ExceptT ε (Prog S E L) α}
    (hx : Guarantees rely G x.run) (hf : ∀ b, Guarantees rely G (f b).run) :
    Guarantees rely G (x >>= f).run := by
  rw [ExceptT.run_bind]
  refine guarantees_bind hx fun r => ?_
  cases r with
  | ok b => exact hf b
  | error e => exact guarantees_ret _

lemma guarantees_pure_except (a : α) :
    Guarantees rely G (pure a : ExceptT ε (Prog S E L) α).run := guarantees_ret _

lemma guarantees_throw_except (e : ε) :
    Guarantees rely G (throw e : ExceptT ε (Prog S E L) α).run := guarantees_ret _

lemma guarantees_map_except {x : ExceptT ε (Prog S E L) β} (f : β → α)
    (hx : Guarantees rely G x.run) : Guarantees rely G (f <$> x).run := by
  rw [map_eq_pure_bind]
  exact guarantees_bind_except hx fun b => guarantees_pure_except (f b)

lemma guarantees_mapM_except {γ : Type} {f : γ → ExceptT ε (Prog S E L) α}
    (hf : ∀ c, Guarantees rely G (f c).run) (l : List γ) : Guarantees rely G (l.mapM f).run := by
  induction l with
  | nil => exact guarantees_pure_except []
  | cons c l ih =>
    rw [List.mapM_cons]
    exact guarantees_bind_except (hf c) fun _ =>
      guarantees_bind_except ih fun _ => guarantees_pure_except _

/-- Whatever happens, the program returns something in `P`, if it returns. -/
def Returns (P : α → Prop) : Prog S E L α → Prop
  | .ret a => P a
  | .stmt _ _ k => ∀ e s, Returns P (k e s)

lemma returns_true (p : Prog S E L α) : Returns (fun _ => True) p := by
  induction p with
  | ret a => trivial
  | stmt l f k ih => exact ih

lemma returns_bind {P : α → Prop} {P' : β → Prop} {p : Prog S E L α} {g : α → Prog S E L β}
    (hp : Returns P p) (hg : ∀ a, P a → Returns P' (g a)) : Returns P' (p >>= g) := by
  induction p with
  | ret a => exact hg a hp
  | stmt l f k ih => exact fun e s => ih e s (hp e s)

lemma returns_bind_except {P : Except ε β → Prop} {P' : Except ε α → Prop}
    {x : ExceptT ε (Prog S E L) β} {f : β → ExceptT ε (Prog S E L) α} (hx : Returns P x.run)
    (hf : ∀ b, P (.ok b) → Returns P' (f b).run) (herr : ∀ e, P (.error e) → P' (.error e)) :
    Returns P' (x >>= f).run := by
  rw [ExceptT.run_bind]
  refine returns_bind hx fun r hr => ?_
  cases r with
  | ok b => exact hf b hr
  | error e => exact herr e hr

/-- The second part of a program may count on what the first part returns. -/
lemma guarantees_bind_returns {P : Except ε β → Prop} {x : ExceptT ε (Prog S E L) β}
    {f : β → ExceptT ε (Prog S E L) α} (hx : Guarantees rely G x.run) (hr : Returns P x.run)
    (hf : ∀ b, P (.ok b) → Guarantees rely G (f b).run) : Guarantees rely G (x >>= f).run := by
  rw [ExceptT.run_bind]
  intro tr s h
  rw [wp_bind]
  have hx' := hx tr s h
  clear h hx
  generalize x.run = p at hx' hr
  induction p generalizing tr s with
  | ret r =>
    cases r with
    | ok b => exact hf b hr tr s hx'
    | error e => exact hx'
  | stmt l f k ih => exact ⟨hx'.1, fun s' e h ho => ih e s' _ _ (hx'.2 s' e h ho) (hr e s')⟩

/-- A program that promises `G` keeps everything that is kept when the others act and then a
statement in `G` is run. -/
lemma wp_of_guarantees_ok {p : Prog S E L α} {Q : α → List (Ev S E L) → S → Prop}
    {J : List (Ev S E L) → S → Prop} (hp : Guarantees rely G p)
    (hrely : ∀ l s s', R.rely l s s' → rely l s s') (hmid : ∀ tr s, J tr s → R.mid tr)
    (hown : ∀ tr s ev, J tr s → R.rely ev.name s ev.pre → R.ok (tr ++ [ev]) → G ev →
      J (tr ++ [ev]) ev.post)
    (hQ : ∀ a tr s, J tr s → Q a tr s) (hJ : J tr s) : wp R p Q tr s := by
  have hp' := hp [] s every_nil
  clear hp
  generalize ([] : List (Ev S E L)) = tr₀ at hp'
  induction p generalizing tr tr₀ s with
  | ret a => exact hQ a tr s hJ
  | stmt l f k ih =>
    refine ⟨hmid tr s hJ, fun s' e hr hok => ?_⟩
    have hk := hp'.2 s' e (hrely l s s' hr) trivial
    have hev : G ⟨l, e, s', f e s'⟩ := wp_every hk _ (by simp)
    exact ih e s' (hown tr s _ hJ hr hok hev) _ hk

/-- A program that promises `G` keeps everything that the others and statements in `G`
keep. -/
lemma wp_of_guarantees {p : Prog S E L α} {Q : α → List (Ev S E L) → S → Prop}
    {J : List (Ev S E L) → S → Prop} (hp : Guarantees rely G p)
    (hrely : ∀ l s s', R.rely l s s' → rely l s s') (hmid : ∀ tr s, J tr s → R.mid tr)
    (hothers : ∀ tr l s s', J tr s → R.rely l s s' → J tr s')
    (hown : ∀ tr ev, J tr ev.pre → G ev → J (tr ++ [ev]) ev.post)
    (hQ : ∀ a tr s, J tr s → Q a tr s) (hJ : J tr s) : wp R p Q tr s :=
  wp_of_guarantees_ok hp hrely hmid
    (fun tr s ev h hr _ hev => hown tr ev (hothers tr ev.name s ev.pre h hr) hev) hQ hJ

/-- What the statements so far have shown is known to the end. -/
lemma wp_kept {p : Prog S E L α} {Q : α → List (Ev S E L) → S → Prop}
    {P : List (Ev S E L) → Prop} (hP : ∀ tr ev, P tr → P (tr ++ [ev])) (hmid : ∀ tr, P tr → R.mid tr)
    (hQ : ∀ a tr s, P tr → Q a tr s) (h : P tr) : wp R p Q tr s := by
  induction p generalizing tr s with
  | ret a => exact hQ a tr s h
  | stmt l f k ih => exact ⟨hmid tr h, fun s' e _ _ => ih e s' (hP tr _ h)⟩

lemma guarantees_mono {G' : Ev S E L → Prop} {p : Prog S E L α} (hG : ∀ ev, G ev → G' ev)
    (h : Guarantees rely G p) : Guarantees rely G' p := by
  intro tr s htr
  exact wp_of_guarantees (J := fun tr _ => Every G' tr) h (fun _ _ _ h => h) (fun _ _ h => h)
    (fun _ _ _ _ h _ => h) (fun _ ev h hev => every_append h (hG ev hev)) (fun _ _ _ h => h) htr

/-- Two promises of a program are one. -/
lemma guarantees_and {G' : Ev S E L → Prop} {p : Prog S E L α} (h : Guarantees rely G p)
    (h' : Guarantees rely G' p) : Guarantees rely (fun ev => G ev ∧ G' ev) p := by
  intro tr s htr
  have hp := h tr s fun ev hev => (htr ev hev).1
  have hp' := h' tr s fun ev hev => (htr ev hev).2
  clear h h'
  induction p generalizing tr s with
  | ret a => exact htr
  | stmt l f k ih =>
    refine ⟨htr, fun s' e hr hok => ?_⟩
    have hk := hp.2 s' e hr trivial
    have hk' := hp'.2 s' e hr trivial
    exact ih e s' _ _ (every_append htr ⟨wp_every hk _ (by simp), wp_every hk' _ (by simp)⟩) hk hk'

end Guarantee

/-! ### Programs whose statements meet a condition -/

section Condition

variable {T : S → S → Prop} {M G : Ev S E L → Prop} {J K : S → Prop} {P : α → S → Prop} {ε : Type}

/-- The others do what `T` says; if the statements meet `M`, they are in `G`. -/
def meeting (T : S → S → Prop) (M G : Ev S E L → Prop) : Rules S E L :=
  ⟨fun _ => T, Every M, Every G⟩

/-- From a state in `J`, as long as the others do what `T` says and the statements meet `M`, the
statements are in `G`, and the program ends with something in `P`. -/
def Secures (T : S → S → Prop) (M G : Ev S E L → Prop) (J : S → Prop) (P : α → S → Prop)
    (p : Prog S E L α) : Prop :=
  ∀ tr s, Every G tr → J s → wp (meeting T M G) p (fun a tr s => Every G tr ∧ P a s) tr s

/-- What is promised of the result of a program that may fail, when it does not. -/
def IfOk (P : α → Prop) : Except ε α → Prop
  | .ok a => P a
  | .error _ => True

/-- The same, where the state has a part in it. -/
def Succeeds (P : α → S → Prop) (r : Except ε α) (s : S) : Prop := IfOk (P · s) r

/-- What the others do does not harm `J`. -/
def Stable (T : S → S → Prop) (J : S → Prop) : Prop := ∀ s s', J s → T s s' → J s'

lemma secures_ret {a : α} (ha : ∀ s, J s → P a s) : Secures T M G J P (.ret a) :=
  fun _ s htr hs => ⟨htr, ha s hs⟩

lemma secures_stmt {l : L} {f : E → S → S} {k : E → S → Prog S E L α} (hJ : Stable T J)
    (h : ∀ e s, J s → M ⟨l, e, s, f e s⟩ → G ⟨l, e, s, f e s⟩ ∧
      ∃ J' : S → Prop, J' (f e s) ∧ Secures T M G J' P (k e s)) :
    Secures T M G J P (.stmt l f k) := by
  refine fun tr s htr hs => ⟨htr, fun s' e hr hok => ?_⟩
  obtain ⟨hG, J', hJ', hk⟩ := h e s' (hJ s s' hs hr) (hok _ (by simp))
  exact hk _ _ (every_append htr hG) hJ'

/-- A single statement. -/
lemma secures_atom {l : L} {g : E → S → S × α} (hJ : Stable T J)
    (h : ∀ e s, J s → M ⟨l, e, s, (g e s).1⟩ → G ⟨l, e, s, (g e s).1⟩ ∧ P (g e s).2 (g e s).1) :
    Secures T M G J P (Prog.atom l g) :=
  secures_stmt hJ fun e s hs hM => ⟨(h e s hs hM).1, P (g e s).2, (h e s hs hM).2,
    secures_ret fun _ => id⟩

lemma secures_mono {J' : S → Prop} {P' : α → S → Prop} {p : Prog S E L α} (hJ : ∀ s, J' s → J s)
    (hP : ∀ a s, P a s → P' a s) (h : Secures T M G J P p) : Secures T M G J' P' p :=
  fun tr s htr hs => wp_mono (fun a _ s ha => ⟨ha.1, hP a s ha.2⟩) (h tr s htr (hJ s hs))

lemma secures_bind {P' : β → S → Prop} {p : Prog S E L α} {g : α → Prog S E L β}
    (hp : Secures T M G J P p) (hg : ∀ a, Secures T M G (P a) P' (g a)) :
    Secures T M G J P' (p >>= g) := by
  intro tr s htr hs
  rw [wp_bind]
  exact wp_mono (fun a tr s ha => hg a tr s ha.1 ha.2) (hp tr s htr hs)

lemma secures_bind_run {P : Except ε α → S → Prop} {P' : Except ε β → S → Prop}
    {x : ExceptT ε (Prog S E L) α} {f : α → ExceptT ε (Prog S E L) β}
    (hx : Secures T M G J P x.run) (hf : ∀ a, Secures T M G (P (.ok a)) P' (f a).run)
    (herr : ∀ e s, P (.error e) s → P' (.error e) s) : Secures T M G J P' (x >>= f).run := by
  rw [ExceptT.run_bind]
  refine secures_bind hx fun r => ?_
  cases r with
  | ok a => exact hf a
  | error e => exact secures_ret (herr e)

lemma secures_bind_except {P' : Except ε β → S → Prop} {x : ExceptT ε (Prog S E L) α}
    {f : α → ExceptT ε (Prog S E L) β} (hx : Secures T M G J (Succeeds P) x.run)
    (hf : ∀ a, Secures T M G (P a) P' (f a).run) (herr : ∀ e s, P' (.error e) s) :
    Secures T M G J P' (x >>= f).run :=
  secures_bind_run hx hf fun e s _ => herr e s

/-- What nobody harms is there at the end. -/
lemma secures_frame {p : Prog S E L α} (hK : Stable T K) (hG : ∀ ev, G ev → T ev.pre ev.post)
    (h : Secures T M G J P p) :
    Secures T M G (fun s => K s ∧ J s) (fun a s => K s ∧ P a s) p := by
  intro tr s htr hs
  have hwp := h tr s htr hs.2
  have hKs := hs.1
  clear h hs
  induction p generalizing tr s with
  | ret a => exact ⟨hwp.1, hKs, hwp.2⟩
  | stmt l f k ih =>
    refine ⟨hwp.1, fun s' e hr hok => ?_⟩
    have hk := hwp.2 s' e hr hok
    have htr' : Every G (tr ++ [⟨l, e, s', f e s'⟩]) := wp_mid hk fun _ _ h => h.1
    have hT := hG _ (htr' _ (List.mem_append_right _ (List.mem_singleton_self _)))
    exact ih e s' _ _ htr' hk (hK _ _ (hK _ _ hKs hr) hT)

/-- What a program promises without the condition. -/
lemma secures_of_guarantees {p : Prog S E L α} (hp : Guarantees (fun _ _ _ => True) G p)
    (hP : ∀ a s, P a s) : Secures T M G J P p :=
  fun _ _ htr _ => wp_of_guarantees (J := fun tr _ => Every G tr) hp (fun _ _ _ _ => trivial)
    (fun _ _ h => h) (fun _ _ _ _ h _ => h) (fun _ _ h hev => every_append h hev)
    (fun a _ s h => ⟨h, hP a s⟩) htr

/-- What neither the others nor the statements of a program harm. -/
lemma secures_stable {G' : Ev S E L → Prop} {p : Prog S E L α}
    (hp : Guarantees (fun _ _ _ => True) G' p) (hJ : Stable T J)
    (hG : ∀ ev, G' ev → G ev ∧ T ev.pre ev.post) : Secures T M G J (fun _ s => J s) p :=
  fun _ _ htr hs => wp_of_guarantees (J := fun tr s => Every G tr ∧ J s) hp (fun _ _ _ _ => trivial)
    (fun _ _ h => h.1) (fun _ _ _ _ h hr => ⟨h.1, hJ _ _ h.2 hr⟩)
    (fun _ ev h hev => ⟨every_append h.1 (hG ev hev).1, hJ _ _ h.2 (hG ev hev).2⟩)
    (fun _ _ _ h => h) ⟨htr, hs⟩

/-- A fact that the state has no part in. -/
lemma secures_of_fact {h : Prop} {p : Prog S E L α} (hp : h → Secures T M G J P p) :
    Secures T M G (fun s => J s ∧ h) P p :=
  fun tr s htr hs => hp hs.2 tr s htr hs.1

/-! ### The same, where nothing is said of the state -/

/-- As long as the statements meet `M` they are in `G`, and the program returns something in
`P`. -/
def Yields (M G : Ev S E L → Prop) (P : α → Prop) (p : Prog S E L α) : Prop :=
  Secures (fun _ _ => True) M G (fun _ => True) (fun a _ => P a) p

variable {P : α → Prop}

lemma stable_true : Stable (fun _ _ : S => True) fun _ => True := fun _ _ _ _ => trivial

lemma yields_ret {a : α} (ha : P a) : Yields M G P (.ret a) := secures_ret fun _ _ => ha

lemma yields_stmt {l : L} {f : E → S → S} {k : E → S → Prog S E L α}
    (h : ∀ e s, M ⟨l, e, s, f e s⟩ → G ⟨l, e, s, f e s⟩ ∧ Yields M G P (k e s)) :
    Yields M G P (.stmt l f k) :=
  secures_stmt stable_true fun e s _ hM => ⟨(h e s hM).1, _, trivial, (h e s hM).2⟩

lemma yields_bind {P' : β → Prop} {p : Prog S E L α} {g : α → Prog S E L β}
    (hp : Yields M G P p) (hg : ∀ a, P a → Yields M G P' (g a)) : Yields M G P' (p >>= g) :=
  secures_bind hp fun a tr s htr ha => hg a ha tr s htr trivial

lemma yields_bind_except {P' : Except ε β → Prop} {x : ExceptT ε (Prog S E L) α}
    {f : α → ExceptT ε (Prog S E L) β} (hx : Yields M G (IfOk P) x.run)
    (hf : ∀ a, P a → Yields M G P' (f a).run) (herr : ∀ e, P' (.error e)) :
    Yields M G P' (x >>= f).run :=
  secures_bind_except (P := fun a _ => P a) hx (fun a tr s htr ha => hf a ha tr s htr trivial)
    fun e _ => herr e

lemma yields_of_guarantees {p : Prog S E L α} (hp : Guarantees (fun _ _ _ => True) G p)
    (hP : ∀ a, P a) : Yields M G P p :=
  secures_of_guarantees hp fun a _ => hP a

end Condition

/-! ### Programs whose statements come in order -/

section Order

variable {K : List (Ev S E L) → Ev S E L → Prop} {ε : Type}

/-- Each of the statements is in `K`, after the statements before it. -/
def Ordered (K : List (Ev S E L) → Ev S E L → Prop) (tr : List (Ev S E L)) : Prop :=
  ∀ tr₁ ev tr₂, tr = tr₁ ++ ev :: tr₂ → K tr₁ ev

lemma ordered_nil : Ordered K [] := by
  intro tr₁ ev tr₂ h
  simp at h

lemma ordered_append {ev : Ev S E L} (h : Ordered K tr) (hev : K tr ev) :
    Ordered K (tr ++ [ev]) := by
  intro tr₁ ev' tr₂ heq
  rcases List.eq_nil_or_concat tr₂ with rfl | ⟨tr₃, ev₃, rfl⟩
  · obtain ⟨rfl, hlast⟩ := List.append_inj' heq rfl
    cases hlast
    exact hev
  · rw [List.concat_eq_append, ← List.cons_append, ← List.append_assoc] at heq
    exact h tr₁ ev' tr₃ (List.append_inj' heq rfl).1

/-- Whatever the others do, the statements come in order. -/
def following (K : List (Ev S E L) → Ev S E L → Prop) : Rules S E L :=
  ⟨fun _ _ _ => True, fun _ => True, Ordered K⟩

def Orders (K : List (Ev S E L) → Ev S E L → Prop) (p : Prog S E L α) : Prop :=
  ∀ tr s, Ordered K tr → wp (following K) p (fun _ tr _ => Ordered K tr) tr s

lemma orders_of_guarantees {G : Ev S E L → Prop} {p : Prog S E L α}
    (hp : Guarantees (fun _ _ _ => True) G p) (hG : ∀ tr ev, G ev → K tr ev) : Orders K p :=
  fun _ _ htr => wp_of_guarantees (J := fun tr _ => Ordered K tr) hp (fun _ _ _ h => h)
    (fun _ _ h => h) (fun _ _ _ _ h _ => h) (fun tr ev h hev => ordered_append h (hG tr ev hev))
    (fun _ _ _ h => h) htr

lemma orders_ret (a : α) : Orders K (.ret a : Prog S E L α) := fun _ _ h => h

lemma orders_bind {p : Prog S E L α} {g : α → Prog S E L β} (hp : Orders K p)
    (hg : ∀ a, Orders K (g a)) : Orders K (p >>= g) := by
  intro tr s h
  rw [wp_bind]
  exact wp_mono (fun a tr s h => hg a tr s h) (hp tr s h)

lemma orders_bind_except {x : ExceptT ε (Prog S E L) β} {f : β → ExceptT ε (Prog S E L) α}
    (hx : Orders K x.run) (hf : ∀ b, Orders K (f b).run) : Orders K (x >>= f).run := by
  rw [ExceptT.run_bind]
  refine orders_bind hx fun r => ?_
  cases r with
  | ok b => exact hf b
  | error e => exact orders_ret _

lemma orders_map_except {x : ExceptT ε (Prog S E L) β} (f : β → α) (hx : Orders K x.run) :
    Orders K (f <$> x).run := by
  rw [map_eq_pure_bind]
  exact orders_bind_except hx fun b => orders_ret _

end Order

/-! ### Every statement, from any state -/

section Steps

variable {G : Ev S E L → Prop} {J : S → Prop} {A : Ev S E L → Prop}

/-- Whatever the others do, every statement that is still to come is in `G`. -/
def Steps (G : Ev S E L → Prop) : Prog S E L α → Prop
  | .ret _ => True
  | .stmt l f k => ∀ e s, G ⟨l, e, s, f e s⟩ ∧ Steps G (k e s)

/-- Whatever the others do, the program comes to a statement that ends in `J`, and every later one
is in `A`. -/
def Until (J : S → Prop) (A : Ev S E L → Prop) : Prog S E L α → Prop
  | .ret _ => False
  | .stmt _ f k => ∀ e s, Until J A (k e s) ∨ J (f e s) ∧ Steps A (k e s)

lemma steps_of_wp {rely : L → S → S → Prop} (hrefl : ∀ l s s', rely l s s') {p : Prog S E L α}
    {tr : List (Ev S E L)} {s : S}
    (h : wp (promise rely G) p (fun _ tr _ => Every G tr) tr s) : Steps G p := by
  induction p generalizing tr s with
  | ret a => trivial
  | stmt l f k ih =>
    intro e s'
    have hk := h.2 s' e (hrefl l s s') trivial
    exact ⟨wp_every hk _ (by simp), ih e s' hk⟩

lemma steps_of_guarantees {p : Prog S E L α} (h : Guarantees (fun _ _ _ => True) G p) (s : S) :
    Steps G p := steps_of_wp (fun _ _ _ => trivial) (h [] s every_nil)

lemma steps_bind {p : Prog S E L α} {g : α → Prog S E L β} (hp : Steps G p)
    (hg : ∀ a, Steps G (g a)) : Steps G (p >>= g) := by
  induction p with
  | ret a => exact hg a
  | stmt l f k ih => exact fun e s => ⟨(hp e s).1, ih e s (hp e s).2⟩

lemma until_bind_left {p : Prog S E L α} {g : α → Prog S E L β} (hp : Until J A p)
    (hg : ∀ a, Steps A (g a)) : Until J A (p >>= g) := by
  induction p with
  | ret a => exact hp.elim
  | stmt l f k ih =>
    exact fun e s => (hp e s).imp (ih e s) fun h => ⟨h.1, steps_bind h.2 hg⟩

lemma until_bind_right {P : α → Prop} {p : Prog S E L α} {g : α → Prog S E L β} (hp : Returns P p)
    (hg : ∀ a, P a → Until J A (g a)) : Until J A (p >>= g) := by
  induction p with
  | ret a => exact hg a hp
  | stmt l f k ih => exact fun e s => .inl (ih e s (hp e s))

end Steps

/-! ### Traces that follow an automaton -/

section Automaton

variable {St : Type} (M : St → Ev S E L → St → Prop)

/-- The statements take the automaton `M` from one state to another. -/
def Follows : St → List (Ev S E L) → St → Prop
  | a, [], b => a = b
  | a, ev :: tr, b => ∃ a', M a ev a' ∧ Follows a' tr b

variable {M} {a b : St}

lemma follows_append (ev : Ev S E L) :
    Follows M a (tr ++ [ev]) b ↔ ∃ b', Follows M a tr b' ∧ M b' ev b := by
  induction tr generalizing a with
  | nil => simp [Follows]
  | cons ev' tr ih =>
    simp only [List.cons_append, Follows, ih]
    constructor
    · rintro ⟨a', h, b', hf, hM⟩
      exact ⟨b', ⟨a', h, hf⟩, hM⟩
    · rintro ⟨b', ⟨a', h, hf⟩, hM⟩
      exact ⟨a', h, b', hf, hM⟩

/-- Each of the statements is a move, and the later ones follow from where it leads. -/
lemma Follows.mem (h : Follows M a tr b) {ev : Ev S E L} (hev : ev ∈ tr) :
    ∃ a' b' tr', M a' ev b' ∧ Follows M b' tr' b := by
  induction tr generalizing a with
  | nil => cases hev
  | cons ev' tr ih =>
    obtain ⟨a', hM, hf⟩ := h
    rcases List.mem_cons.mp hev with rfl | hev
    · exact ⟨a, a', tr, hM, hf⟩
    · exact ih hf hev

/-- **Invariants of an automaton**: what holds at the start and is kept by every move holds
at the end. -/
lemma Follows.invariant {P : St → Prop} (hP : ∀ a ev b, P a → M a ev b → P b)
    (h : Follows M a tr b) (ha : P a) : P b := by
  induction tr generalizing a with
  | nil => exact h ▸ ha
  | cons ev tr ih =>
    obtain ⟨a', hM, hf⟩ := h
    exact ih hf (hP a ev a' ha hM)

end Automaton

end Vautr.Atomic
