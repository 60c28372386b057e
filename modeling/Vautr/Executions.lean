import Vautr.Api
import Vautr.Interleave
import Vautr.Zoom

/-!
Whole executions of a program, among others.

An execution is the list of the statements that a program has run, each with the input it read, the
state it found and the state it left. What the program does is determined by the inputs and the
states it found, so an execution of a program in two parts is cut in one way only.
-/

namespace Vautr.Executions

open Vautr.Atomic Vautr.Interleave Vautr.Database Vautr.Api Vautr.Zoom

variable {S T E F L M α β ε Q : Type}

/-- The program can run the statements `tr`, one after the other, and return `a`. -/
def Runs : Prog S E L α → List (Ev S E L) → α → Prop
  | .ret b, tr, a => tr = [] ∧ a = b
  | .stmt l f k, tr, a => ∃ e s rest, tr = ⟨l, e, s, f e s⟩ :: rest ∧ Runs (k e s) rest a

variable {tr : List (Ev S E L)}

@[simp] lemma runs_ret {a b : α} : Runs (.ret b : Prog S E L α) tr a ↔ tr = [] ∧ a = b := Iff.rfl

lemma runs_atom {l : L} {g : E → S → S × α} {a : α} :
    Runs (Prog.atom l g) tr a ↔ ∃ e s, tr = [⟨l, e, s, (g e s).1⟩] ∧ a = (g e s).2 := by
  constructor
  · rintro ⟨e, s, rest, rfl, rfl, ha⟩
    exact ⟨e, s, rfl, ha⟩
  · rintro ⟨e, s, rfl, ha⟩
    exact ⟨e, s, [], rfl, rfl, ha⟩

/-- An execution of two parts is one of the first part and one of the second. -/
lemma runs_bind {p : Prog S E L α} {g : α → Prog S E L β} {b : β} :
    Runs (p >>= g) tr b ↔ ∃ a tr₁ tr₂, tr = tr₁ ++ tr₂ ∧ Runs p tr₁ a ∧ Runs (g a) tr₂ b := by
  induction p generalizing tr with
  | ret a =>
    constructor
    · exact fun h => ⟨a, [], tr, rfl, ⟨rfl, rfl⟩, h⟩
    · rintro ⟨_, _, tr₂, rfl, ⟨rfl, rfl⟩, h⟩
      exact h
  | stmt l f k ih =>
    constructor
    · rintro ⟨e, s, rest, rfl, h⟩
      obtain ⟨a, tr₁, tr₂, rfl, h₁, h₂⟩ := (ih e s).mp h
      exact ⟨a, _, tr₂, rfl, ⟨e, s, tr₁, rfl, h₁⟩, h₂⟩
    · rintro ⟨a, _, tr₂, rfl, ⟨e, s, rest, rfl, h₁⟩, h₂⟩
      exact ⟨e, s, rest ++ tr₂, rfl, (ih e s).mpr ⟨a, rest, tr₂, rfl, h₁, h₂⟩⟩

lemma runs_map {p : Prog S E L α} {f : α → β} {b : β} :
    Runs (p >>= fun a => .ret (f a)) tr b ↔ ∃ a, b = f a ∧ Runs p tr a := by
  rw [runs_bind]
  constructor
  · rintro ⟨a, tr₁, _, rfl, h, rfl, rfl⟩
    exact ⟨a, rfl, by rwa [List.append_nil]⟩
  · rintro ⟨a, rfl, h⟩
    exact ⟨a, tr, [], (List.append_nil tr).symm, h, rfl, rfl⟩

/-- The statements of a program, and after them those of anything else, tell what the program
returned and where it ended. -/
lemma runs_unique {p : Prog S E L α} {tr₁ tr₂ rest₁ rest₂ : List (Ev S E L)} {a b : α}
    (h₁ : Runs p tr₁ a) (h₂ : Runs p tr₂ b) (h : tr₁ ++ rest₁ = tr₂ ++ rest₂) :
    tr₁ = tr₂ ∧ a = b := by
  induction p generalizing tr₁ tr₂ with
  | ret c =>
    obtain ⟨rfl, rfl⟩ := h₁
    obtain ⟨rfl, rfl⟩ := h₂
    exact ⟨rfl, rfl⟩
  | stmt l f k ih =>
    obtain ⟨e, s, tr₁, rfl, h₁⟩ := h₁
    obtain ⟨e', s', tr₂, rfl, h₂⟩ := h₂
    obtain ⟨hev, hrest⟩ := List.cons.inj h
    simp only [Ev.mk.injEq, true_and] at hev
    obtain ⟨rfl, rfl, -⟩ := hev
    obtain ⟨rfl, rfl⟩ := ih e s h₁ h₂ hrest
    exact ⟨rfl, rfl⟩

/-- What is known of a program whatever the others do is true of its executions. -/
lemma Runs.post {R : Rules S E L} {p : Prog S E L α} {Q : α → List (Ev S E L) → S → Prop} {a : α}
    (h : Runs p tr a) (hrely : ∀ l s s', R.rely l s s') (hok : ∀ tr, R.ok tr)
    {tr₀ : List (Ev S E L)} {s : S} (hp : wp R p Q tr₀ s) : ∃ s', Q a (tr₀ ++ tr) s' := by
  induction p generalizing tr tr₀ s with
  | ret b =>
    obtain ⟨rfl, rfl⟩ := h
    exact ⟨s, by rwa [List.append_nil]⟩
  | stmt l f k ih =>
    obtain ⟨e, s', rest, rfl, h⟩ := h
    obtain ⟨s'', hQ⟩ := ih e s' h (hp.2 s' e (hrely _ _ _) (hok _))
    exact ⟨s'', by rwa [List.append_assoc] at hQ⟩

lemma Runs.every {G : Ev S E L → Prop} {p : Prog S E L α} {a : α} (h : Runs p tr a)
    (hp : Guarantees (fun _ _ _ => True) G p) [Nonempty S] : Every G tr := by
  obtain ⟨s⟩ := ‹Nonempty S›
  obtain ⟨-, hG⟩ := h.post (fun _ _ _ => trivial) (fun _ => trivial) (hp [] s every_nil)
  exact hG

/-! ### Programs that may fail -/

@[simp] lemma runs_pure_except {a : α} {r : Except ε α} :
    Runs (pure a : ExceptT ε (Prog S E L) α).run tr r ↔ tr = [] ∧ r = .ok a := Iff.rfl

@[simp] lemma runs_throw_except {e : ε} {r : Except ε α} :
    Runs (throw e : ExceptT ε (Prog S E L) α).run tr r ↔ tr = [] ∧ r = .error e := Iff.rfl

/-- After a failure the rest of the program is left out. -/
lemma runs_bind_except {x : ExceptT ε (Prog S E L) β} {f : β → ExceptT ε (Prog S E L) α}
    {r : Except ε α} :
    Runs (x >>= f).run tr r ↔
      (∃ b tr₁ tr₂, tr = tr₁ ++ tr₂ ∧ Runs x.run tr₁ (.ok b) ∧ Runs (f b).run tr₂ r) ∨
      ∃ e, Runs x.run tr (.error e) ∧ r = .error e := by
  rw [ExceptT.run_bind, runs_bind]
  constructor
  · rintro ⟨a, tr₁, tr₂, rfl, h₁, h₂⟩
    cases a with
    | ok b => exact .inl ⟨b, tr₁, tr₂, rfl, h₁, h₂⟩
    | error e =>
      obtain ⟨rfl, rfl⟩ := h₂
      exact .inr ⟨e, by rwa [List.append_nil], rfl⟩
  · rintro (⟨b, tr₁, tr₂, rfl, h₁, h₂⟩ | ⟨e, h, rfl⟩)
    · exact ⟨.ok b, tr₁, tr₂, rfl, h₁, h₂⟩
    · exact ⟨.error e, tr, [], by simp, h, rfl, rfl⟩

/-- A success is one of every part. -/
lemma runs_bind_ok {x : ExceptT ε (Prog S E L) β} {f : β → ExceptT ε (Prog S E L) α} {a : α} :
    Runs (x >>= f).run tr (.ok a) ↔
      ∃ b tr₁ tr₂, tr = tr₁ ++ tr₂ ∧ Runs x.run tr₁ (.ok b) ∧ Runs (f b).run tr₂ (.ok a) := by
  rw [runs_bind_except]
  exact or_iff_left (by simp)

variable [Faulty E]

/-- A statement fails and does nothing, or it runs. -/
lemma runs_statement {l : L} {g : E → S → S × Except SqlError α} {r : Except SqlError α} :
    Runs (statement l g).run tr r ↔ ∃ e s,
      Faulty.fault e = true ∧ tr = [⟨l, e, s, s⟩] ∧ r = .error .database ∨
      Faulty.fault e = false ∧ tr = [⟨l, e, s, (g e s).1⟩] ∧ r = (g e s).2 := by
  unfold statement
  rw [ExceptT.run_mk, runs_atom]
  refine exists_congr fun e => exists_congr fun s => ?_
  cases Faulty.fault e <;> simp

lemma runs_select {l : L} {g : S → α} {r : Except SqlError α} :
    Runs (select l g : Query S E L α).run tr r ↔ ∃ e s, tr = [⟨l, e, s, s⟩] ∧
      r = if Faulty.fault e then .error .database else .ok (g s) := by
  unfold select
  rw [runs_statement]
  refine exists_congr fun e => exists_congr fun s => ?_
  cases Faulty.fault e <;> simp

lemma runs_statement_ok {l : L} {g : E → S → S × Except SqlError α} {a : α}
    (h : Runs (statement l g).run tr (.ok a)) :
    ∃ e s, tr = [⟨l, e, s, (g e s).1⟩] ∧ (g e s).2 = .ok a := by
  obtain ⟨e, s, ⟨-, -, hr⟩ | ⟨-, htr, hr⟩⟩ := runs_statement.mp h
  · cases hr
  · exact ⟨e, s, htr, hr.symm⟩

lemma runs_select_ok {l : L} {g : S → α} {a : α}
    (h : Runs (select l g : Query S E L α).run tr (.ok a)) :
    ∃ e s, tr = [⟨l, e, s, s⟩] ∧ g s = a := by
  obtain ⟨e, s, htr, hr⟩ := runs_statement_ok h
  exact ⟨e, s, htr, Except.ok.inj hr⟩

omit [Faulty E] in
lemma runs_attempt {x : Query S E L α} {r : Except SqlError (Except SqlError α)} :
    Runs (attempt x).run tr r ↔ ∃ r', r = .ok r' ∧ Runs x.run tr r' := by
  have : (attempt x).run = x.run >>= fun r => .ret (.ok r) := by
    simp only [attempt, ExceptT.run_lift]
    rfl
  rw [this, runs_map]

omit [Faulty E] in
lemma runs_orInternal {x : Query S E L α} {r : Except ApiError α} :
    Runs (orInternal x).run tr r ↔ ∃ r', r = r'.mapError .internal ∧ Runs x.run tr r' := runs_map

omit [Faulty E] in
lemma runs_orInternal_ok {x : Query S E L α} {a : α} (h : Runs (orInternal x).run tr (.ok a)) :
    Runs x.run tr (.ok a) := by
  obtain ⟨r, hr, hx⟩ := runs_orInternal.mp h
  cases r with
  | ok b => exact Except.ok.inj hr ▸ hx
  | error e => cases hr

/-! ### Programs on a part of the state -/

omit [Faulty E] in
/-- The statement `ev'` is the statement `ev` on a part of the state. -/
structure Shows (v : View S T E F L M) (ev : Ev S E L) (ev' : Ev T F M) : Prop where
  name : ev'.name = v.name ev.name
  inp : ev.inp = v.inp ev'.inp
  pre : ev.pre = v.get ev'.pre
  post : ev'.post = v.put ev.post ev'.pre

omit [Faulty E] in
lemma Shows.get_post {v : View S T E F L M} {ev : Ev S E L} {ev' : Ev T F M} (h : Shows v ev ev') :
    v.get ev'.post = ev.post := by rw [h.post, v.get_put]

omit [Faulty E] in
lemma exists_shows {v : View S T E F L M} {tr : List (Ev S E L)} {tr' : List (Ev T F M)}
    (h : List.Forall₂ (Shows v) tr tr') : (∀ ev ∈ tr, ∃ ev' ∈ tr', Shows v ev ev') ∧
      ∀ ev' ∈ tr', ∃ ev ∈ tr, Shows v ev ev' := by
  induction h with
  | nil => simp
  | cons hev _ ih =>
    simp only [List.forall_mem_cons, List.exists_mem_cons_iff]
    exact ⟨⟨.inl hev, fun ev hmem => .inr (ih.1 ev hmem)⟩, .inl hev,
      fun ev' hmem => .inr (ih.2 ev' hmem)⟩

omit [Faulty E] in
/-- What a program on a part does there. -/
lemma runs_zoom {v : View S T E F L M} {p : Prog S E L α} {tr' : List (Ev T F M)} {a : α}
    (h : Runs (zoom v p) tr' a) : ∃ tr, Runs p tr a ∧ List.Forall₂ (Shows v) tr tr' := by
  induction p generalizing tr' with
  | ret b =>
    obtain ⟨rfl, rfl⟩ := h
    exact ⟨[], ⟨rfl, rfl⟩, .nil⟩
  | stmt l f k ih =>
    obtain ⟨e, t, rest, rfl, h⟩ := h
    obtain ⟨tr, hrun, hshow⟩ := ih _ _ h
    exact ⟨_, ⟨_, _, tr, rfl, hrun⟩, .cons ⟨rfl, rfl, rfl, rfl⟩ hshow⟩

/-! ### Calls of a system -/

omit [Faulty E] in
/-- Whatever the others do, the program returns what one of its executions returns. -/
lemma wp_runs (p : Prog S E L α) (tr₀ : List (Ev S E L)) (s : S) :
    wp (assume (fun _ _ _ => True) fun _ => True) p
      (fun a tr _ => ∃ tr₁, tr = tr₀ ++ tr₁ ∧ Runs p tr₁ a) tr₀ s := by
  induction p generalizing tr₀ s with
  | ret b => exact ⟨[], (List.append_nil _).symm, rfl, rfl⟩
  | stmt l f k ih =>
    refine ⟨trivial, fun s' e _ _ => wp_mono ?_ (ih e s' _ _)⟩
    rintro a _ _ ⟨tr₁, rfl, h⟩
    exact ⟨_, List.append_assoc _ _ _, e, s', tr₁, rfl, h⟩

omit [Faulty E] in
/-- **What an answered call has run** is an execution of its code. -/
theorem run_runs (h : Q → Prog S E L α) (s : S) (as : List (Act Q E)) :
    ∀ c ∈ (run h (init s) as).calls, ∀ a ∈ c.prog.result, Runs (h c.req) c.trace a := by
  have hwp : ∀ q s, wp (assume (fun _ _ _ => True) fun _ => True) (h q)
      (fun a tr _ => Runs (h q) tr a) [] s := by
    intro q s
    refine wp_mono (fun a tr _ hrun => ?_) (wp_runs (h q) [] s)
    obtain ⟨tr₁, rfl, hrun⟩ := hrun
    exact hrun
  exact run_post hwp s as

end Vautr.Executions
