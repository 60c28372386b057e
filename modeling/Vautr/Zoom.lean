import Mathlib.Data.Nat.Notation
import Vautr.Database

/-!
A program on one part of a larger state.

The state `T` has a part `S`, and a program on `S` is a program on `T` that leaves the rest
of `T` alone. What it promises about its part it promises about the whole.
-/

namespace Vautr.Zoom

open Vautr.Atomic Vautr.Session Vautr.Database

/-- The part `S` of the state `T`, what a program on it sees of an outside input, and how
its statements are called in the larger system. -/
structure View (S T E F L M : Type) where
  get : T → S
  put : S → T → T
  inp : F → E
  name : L → M
  get_put : ∀ s t, get (put s t) = s

variable {S T E F L M α β ε : Type} (v : View S T E F L M)

def zoom : Prog S E L α → Prog T F M α
  | .ret a => .ret a
  | .stmt l f k =>
    .stmt (v.name l) (fun e t => v.put (f (v.inp e) (v.get t)) t) fun e t =>
      zoom (k (v.inp e) (v.get t))

/-- A program that may fail, on a part of the state. -/
def zoomE (x : ExceptT ε (Prog S E L) α) : ExceptT ε (Prog T F M) α := ExceptT.mk (zoom v x.run)

variable {v}

@[simp] lemma zoom_ret (a : α) : zoom v (.ret a) = .ret a := rfl

lemma zoom_bind (p : Prog S E L α) (g : α → Prog S E L β) :
    zoom v (p >>= g) = zoom v p >>= fun a => zoom v (g a) := by
  induction p with
  | ret a => rfl
  | stmt l f k ih =>
    simp only [Prog.stmt_bind, zoom, ih]

lemma zoomE_bind (x : ExceptT ε (Prog S E L) α) (f : α → ExceptT ε (Prog S E L) β) :
    zoomE v (x >>= f) = zoomE v x >>= fun a => zoomE v (f a) := by
  apply ExceptT.ext
  rw [ExceptT.run_bind]
  change zoom v (x >>= f).run = zoom v x.run >>= _
  rw [ExceptT.run_bind, zoom_bind]
  congr 1
  funext r
  cases r <;> rfl

@[simp] lemma zoomE_pure (a : α) : zoomE v (pure a : ExceptT ε (Prog S E L) α) = pure a := rfl

@[simp] lemma zoomE_throw (e : ε) :
    zoomE v (throw e : ExceptT ε (Prog S E L) α) = throw e := rfl

/-- **Simulation.** What a program does on its part it does in the larger system, as long as
the relation `J` between what happened there and here is kept. -/
theorem wp_zoom {R : Rules S E L} {R' : Rules T F M} {p : Prog S E L α}
    {Q : α → List (Ev S E L) → S → Prop} {Q' : α → List (Ev T F M) → T → Prop}
    {J : List (Ev S E L) → List (Ev T F M) → T → Prop}
    (hmid : ∀ tr tr' t, J tr tr' t → R.mid tr → R'.mid tr')
    (hothers : ∀ l tr tr' t t', J tr tr' t → R'.rely (v.name l) t t' →
      R.rely l (v.get t) (v.get t') ∧ J tr tr' t')
    (hown : ∀ l e s tr tr' t, J tr tr' t → R'.ok (tr' ++ [⟨v.name l, e, t, v.put s t⟩]) →
      R.ok (tr ++ [⟨l, v.inp e, v.get t, s⟩]) ∧
        J (tr ++ [⟨l, v.inp e, v.get t, s⟩]) (tr' ++ [⟨v.name l, e, t, v.put s t⟩]) (v.put s t))
    (hQ : ∀ a tr tr' t, J tr tr' t → Q a tr (v.get t) → Q' a tr' t)
    {tr : List (Ev S E L)} {tr' : List (Ev T F M)} {t : T} (hJ : J tr tr' t)
    (hp : wp R p Q tr (v.get t)) : wp R' (zoom v p) Q' tr' t := by
  induction p generalizing tr tr' t with
  | ret a => exact hQ a tr tr' t hJ hp
  | stmt l f k ih =>
    refine ⟨hmid tr tr' t hJ hp.1, fun t' e hr ho => ?_⟩
    obtain ⟨hr', hJ'⟩ := hothers l tr tr' t t' hJ hr
    obtain ⟨ho', hJ''⟩ := hown l e _ tr tr' t' hJ' ho
    refine ih _ _ hJ'' ?_
    rw [v.get_put]
    exact hp.2 _ _ hr' ho'

/-- What a program promises of its statements on its part. -/
lemma guarantees_zoom {rely : L → S → S → Prop} {rely' : M → T → T → Prop}
    {G : Ev S E L → Prop} {G' : Ev T F M → Prop} {p : Prog S E L α}
    (hp : Guarantees rely G p)
    (hrely : ∀ l t t', rely' (v.name l) t t' → rely l (v.get t) (v.get t'))
    (hG : ∀ l e t s, G ⟨l, v.inp e, v.get t, s⟩ → G' ⟨v.name l, e, t, v.put s t⟩) :
    Guarantees rely' G' (zoom v p) := by
  intro tr' t h
  have hp' := hp [] (v.get t) every_nil
  clear hp
  generalize ([] : List (Ev S E L)) = tr at hp'
  induction p generalizing tr tr' t with
  | ret a => exact h
  | stmt l f k ih =>
    refine ⟨h, fun t' e hr _ => ?_⟩
    have hk := hp'.2 _ (v.inp e) (hrely l t t' hr) trivial
    have hev := wp_every hk ⟨l, v.inp e, v.get t', f (v.inp e) (v.get t')⟩ (by simp)
    exact ih _ _ _ _ (every_append h (hG l e t' _ hev)) _ (by rwa [v.get_put])

/-- A program on a part changes nothing else. -/
lemma guarantees_zoom_part {rely : M → T → T → Prop} {G : Ev T F M → Prop} (p : Prog S E L α)
    (hG : ∀ l e t s, G ⟨v.name l, e, t, v.put s t⟩) : Guarantees rely G (zoom v p) := by
  have hp : Guarantees (fun _ _ _ => True) (fun _ => True) p := guarantees_true p
  exact guarantees_zoom hp (fun _ _ _ _ => trivial) fun l e t s _ => hG l e t s

/-- What a program promises of its part as long as its statements meet a condition, where the
whole stays in `J`. -/
lemma secures_zoom {C G : Ev S E L → Prop} {U : T → T → Prop} {C' G' : Ev T F M → Prop}
    {J : T → Prop} {P : α → Prop} {p : Prog S E L α}
    (hp : Secures (fun _ _ => True) C G (fun _ => True) (fun a _ => P a) p) (hJ : Stable U J)
    (hU : ∀ ev, G' ev → U ev.pre ev.post)
    (hC : ∀ l e t s, C' ⟨v.name l, e, t, v.put s t⟩ → C ⟨l, v.inp e, v.get t, s⟩)
    (hG : ∀ l e t s, J t → C' ⟨v.name l, e, t, v.put s t⟩ → G ⟨l, v.inp e, v.get t, s⟩ →
      G' ⟨v.name l, e, t, v.put s t⟩) :
    Secures U C' G' J (fun a t => J t ∧ P a) (zoom v p) := by
  intro tr' t htr' ht
  have hp' := hp [] (v.get t) every_nil trivial
  clear hp
  have htr : Every C [] := every_nil
  generalize ([] : List (Ev S E L)) = tr at hp' htr
  induction p generalizing tr tr' t with
  | ret a => exact ⟨htr', ht, hp'.2⟩
  | stmt l f k ih =>
    refine ⟨htr', fun t' e hr hok => ?_⟩
    have hev := hok ⟨v.name l, e, t', v.put (f (v.inp e) (v.get t')) t'⟩ (by simp)
    have htr₁ := every_append htr (hC _ _ _ _ hev)
    have hk := hp'.2 _ (v.inp e) trivial htr₁
    have hG₁ : G ⟨l, v.inp e, v.get t', f (v.inp e) (v.get t')⟩ :=
      (wp_mid hk fun _ _ h => h.1) _ (by simp)
    have hG' := hG _ _ _ _ (hJ _ _ ht hr) hev hG₁
    exact ih _ _ _ _ (every_append htr' hG') (hJ _ _ (hJ _ _ ht hr) (hU _ hG')) _
      (by rwa [v.get_put]) htr₁

/-- What a program secures on its part, where the others do on it what it expects. -/
lemma secures_zoom_view {U₀ : S → S → Prop} {C G : Ev S E L → Prop} {U : T → T → Prop}
    {C' G' : Ev T F M → Prop} {J : S → Prop} {P : α → S → Prop} {p : Prog S E L α}
    (hp : Secures U₀ C G J P p) (hU : ∀ t t', U t t' → U₀ (v.get t) (v.get t'))
    (hC : ∀ l e t s, C' ⟨v.name l, e, t, v.put s t⟩ → C ⟨l, v.inp e, v.get t, s⟩)
    (hG : ∀ l e t s, C' ⟨v.name l, e, t, v.put s t⟩ → G ⟨l, v.inp e, v.get t, s⟩ →
      G' ⟨v.name l, e, t, v.put s t⟩) :
    Secures U C' G' (fun t => J (v.get t)) (fun a t => P a (v.get t)) (zoom v p) := by
  intro tr' t htr' ht
  have hp' := hp [] (v.get t) every_nil ht
  clear hp ht
  have htr : Every C [] := every_nil
  generalize ([] : List (Ev S E L)) = tr at hp' htr
  induction p generalizing tr tr' t with
  | ret a => exact ⟨htr', hp'.2⟩
  | stmt l f k ih =>
    refine ⟨htr', fun t' e hr hok => ?_⟩
    have hev := hok ⟨v.name l, e, t', v.put (f (v.inp e) (v.get t')) t'⟩ (by simp)
    have htr₁ := every_append htr (hC _ _ _ _ hev)
    have hk := hp'.2 _ (v.inp e) (hU _ _ hr) htr₁
    have hG₁ : G ⟨l, v.inp e, v.get t', f (v.inp e) (v.get t')⟩ :=
      (wp_mid hk fun _ _ h => h.1) _ (by simp)
    exact ih _ _ _ _ (every_append htr' (hG _ _ _ _ hev hG₁)) _ (by rwa [v.get_put]) htr₁

lemma yields_zoom {C G : Ev S E L → Prop} {C' G' : Ev T F M → Prop} {P : α → Prop}
    {p : Prog S E L α} (hp : Yields C G P p)
    (hC : ∀ l e t s, C' ⟨v.name l, e, t, v.put s t⟩ → C ⟨l, v.inp e, v.get t, s⟩)
    (hG : ∀ l e t s, C' ⟨v.name l, e, t, v.put s t⟩ → G ⟨l, v.inp e, v.get t, s⟩ →
      G' ⟨v.name l, e, t, v.put s t⟩) : Yields C' G' P (zoom v p) :=
  secures_mono (fun _ => id) (fun _ _ h => h.2)
    (secures_zoom hp stable_true (fun _ _ => trivial) hC fun l e t s _ => hG l e t s)

/-- A `SELECT` on a part, whose run meets the condition. -/
lemma secures_zoom_select [Faulty E] {U : T → T → Prop} {C' G' : Ev T F M → Prop} {J : T → Prop}
    {P : α → T → Prop} {l : L} {g : S → α} (hput : ∀ t, v.put (v.get t) t = t) (hJ : Stable U J)
    (h : ∀ e t, J t → C' ⟨v.name l, e, t, t⟩ → G' ⟨v.name l, e, t, t⟩ ∧ P (g (v.get t)) t) :
    Secures U C' G' J (Succeeds P) (zoom v (select l g).run) := by
  refine secures_stmt hJ fun e t ht hev => ?_
  cases hf : Faulty.fault (v.inp e) with
  | true =>
    simp only [hf, if_true, hput] at hev ⊢
    exact ⟨(h e t ht hev).1, fun _ => True, trivial, secures_ret fun _ _ => trivial⟩
  | false =>
    simp only [hf, Bool.false_eq_true, if_false, hput] at hev ⊢
    exact ⟨(h e t ht hev).1, P (g (v.get t)), (h e t ht hev).2, secures_ret fun _ => id⟩

/-- A program that nobody interferes with, on its part. -/
lemma safe_zoom {I : T → Prop} {p : Prog S E L α} {P : α → T → Prop} {t : T}
    (hput : ∀ s s' t, v.put s (v.put s' t) = v.put s t)
    (hp : Safe (fun s => I (v.put s t)) p (fun a s => P a (v.put s t)) (v.get t))
    (ht : v.put (v.get t) t = t) : Safe I (zoom v p) P t := by
  suffices h : ∀ s, Safe (fun s => I (v.put s t)) p (fun a s => P a (v.put s t)) s →
      Safe I (zoom v p) P (v.put s t) by
    have := h _ hp
    rwa [ht] at this
  clear hp ht
  induction p with
  | ret a => exact fun _ hp => hp
  | stmt l f k ih =>
    intro s hp e
    obtain ⟨hI, hk⟩ := hp (v.inp e)
    dsimp only
    rw [v.get_put, hput]
    exact ⟨hI, ih _ _ _ hk⟩

lemma safely_zoom {C : Ev S E L → Prop} {C' : Ev T F M → Prop} {I : T → Prop} {p : Prog S E L α}
    {P : α → T → Prop} {t : T} (hput : ∀ s s' t, v.put s (v.put s' t) = v.put s t)
    (hC : ∀ l e t s, C' ⟨v.name l, e, t, v.put s t⟩ → C ⟨l, v.inp e, v.get t, s⟩)
    (hp : Safely C (fun s => I (v.put s t)) p (fun a s => P a (v.put s t)) (v.get t))
    (ht : v.put (v.get t) t = t) : Safely C' I (zoom v p) P t := by
  suffices h : ∀ s, Safely C (fun s => I (v.put s t)) p (fun a s => P a (v.put s t)) s →
      Safely C' I (zoom v p) P (v.put s t) by
    have := h _ hp
    rwa [ht] at this
  clear hp ht
  induction p with
  | ret a => exact fun _ hp => hp
  | stmt l f k ih =>
    intro s hp e hev
    have hev' := hC l e _ _ hev
    rw [v.get_put] at hev'
    obtain ⟨hI, hk⟩ := hp (v.inp e) hev'
    dsimp only
    rw [v.get_put, hput]
    exact ⟨hI, ih _ _ _ hk⟩

/-- What a program returns on its part, when it is alone. -/
lemma alone_zoom {p : Prog S E L α} {e : F} {t : T}
    (hput : ∀ s s' t, v.put s (v.put s' t) = v.put s t) (ht : v.put (v.get t) t = t) :
    alone e (zoom v p) t = ((alone (v.inp e) p (v.get t)).1,
      v.put (alone (v.inp e) p (v.get t)).2 t) := by
  suffices h : ∀ s, alone e (zoom v p) (v.put s t) =
      ((alone (v.inp e) p s).1, v.put (alone (v.inp e) p s).2 t) by
    have := h (v.get t)
    rwa [ht] at this
  induction p with
  | ret a => exact fun _ => rfl
  | stmt l f k ih =>
    intro s
    simp only [zoom, alone]
    rw [v.get_put, hput]
    exact ih _ _ _

/-- One statement on a part of the state either fails, or it runs. -/
lemma wp_zoom_statement_cases [Faulty E] {R : Rules T F M} {l : L}
    {g : E → S → S × Except SqlError α} {Q : Except SqlError α → List (Ev T F M) → T → Prop}
    {tr : List (Ev T F M)} {t : T} (hput : ∀ t, v.put (v.get t) t = t) (hmid : R.mid tr)
    (hfault : ∀ t' e, Faulty.fault (v.inp e) = true → R.rely (v.name l) t t' →
      R.ok (tr ++ [⟨v.name l, e, t', t'⟩]) →
      Q (.error .database) (tr ++ [⟨v.name l, e, t', t'⟩]) t')
    (hrun : ∀ t' e, Faulty.fault (v.inp e) = false → R.rely (v.name l) t t' →
      R.ok (tr ++ [⟨v.name l, e, t', v.put (g (v.inp e) (v.get t')).1 t'⟩]) →
      Q (g (v.inp e) (v.get t')).2
        (tr ++ [⟨v.name l, e, t', v.put (g (v.inp e) (v.get t')).1 t'⟩])
        (v.put (g (v.inp e) (v.get t')).1 t')) :
    wp R (zoom v (statement l g).run) Q tr t := by
  refine ⟨hmid, fun t' e hr ho => ?_⟩
  cases hf : Faulty.fault (v.inp e) with
  | true => simpa [hf, hput] using hfault t' e hf hr (by simpa [hf, hput] using ho)
  | false => simpa [hf] using hrun t' e hf hr (by simpa [hf] using ho)

/-- One statement on a part of the state. -/
lemma wp_zoom_statement [Faulty E] {R : Rules T F M} {l : L} {g : E → S → S × Except SqlError α}
    {Q : Except SqlError α → List (Ev T F M) → T → Prop} {tr : List (Ev T F M)} {t : T}
    (hput : ∀ t, v.put (v.get t) t = t) (hmid : R.mid tr)
    (hfault : ∀ t' e, R.rely (v.name l) t t' → R.ok (tr ++ [⟨v.name l, e, t', t'⟩]) →
      Q (.error .database) (tr ++ [⟨v.name l, e, t', t'⟩]) t')
    (hrun : ∀ t' e, R.rely (v.name l) t t' →
      R.ok (tr ++ [⟨v.name l, e, t', v.put (g (v.inp e) (v.get t')).1 t'⟩]) →
      Q (g (v.inp e) (v.get t')).2
        (tr ++ [⟨v.name l, e, t', v.put (g (v.inp e) (v.get t')).1 t'⟩])
        (v.put (g (v.inp e) (v.get t')).1 t')) :
    wp R (zoom v (statement l g).run) Q tr t :=
  wp_zoom_statement_cases hput hmid (fun t' e _ => hfault t' e) fun t' e _ => hrun t' e

end Vautr.Zoom
