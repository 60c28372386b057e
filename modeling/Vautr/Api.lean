import Mathlib.Data.Nat.Notation
import Vautr.Database

/-!
What the HTTP handlers share (`handlers/mod.rs`): the error type, and how a handler runs a
query, decodes a field and reads the clock.

A base64 field of a request is what it decodes to, `none` for a text that is not base64.
-/

namespace Vautr.Api

open Vautr.Atomic Vautr.Session Vautr.Database

/-- `ApiError`. The body of an internal error is the text of the error inside, or a fixed
text. -/
inductive ApiError
  | new (status : ℕ) (code message : String)
  | internal (e : SqlError)
  | internalText (message : String)
  | panic
  deriving DecidableEq

def ApiError.badRequest (code message : String) : ApiError := .new 400 code message

variable {S E L α B : Type}

abbrev Handler (S E L : Type) := ExceptT ApiError (Prog S E L)

/-- `.await.map_err(|e| ApiError::internal(&e.to_string()))?`. -/
def orInternal (x : Query S E L α) : Handler S E L α :=
  ExceptT.mk (x.run >>= fun r => .ret (r.mapError .internal))

/-- `let _ = ... .await;`. -/
def ignored (x : Query S E L α) : Handler S E L Unit :=
  ExceptT.mk (x.run >>= fun _ => .ret (.ok ()))

def decodeB64 (field : Option B) : Handler S E L B :=
  match field with
  | some b => pure b
  | none => throw (.badRequest "invalid_base64" "base64 decode failed")

lemma wp_orInternal {R : Rules S E L} {x : Query S E L α}
    {Q : Except ApiError α → List (Ev S E L) → S → Prop} {tr : List (Ev S E L)} {s : S} :
    wp R (orInternal x).run Q tr s ↔ wp R x.run (fun r => Q (r.mapError .internal)) tr s :=
  wp_bind _ _ _ _ _

lemma wp_orInternal_ok {R : Rules S E L} {x : Query S E L α}
    {P : α → List (Ev S E L) → S → Prop} {tr : List (Ev S E L)} {s : S}
    (h : wp R x.run (Ok P) tr s) : wp R (orInternal x).run (Ok P) tr s := by
  rw [wp_orInternal]
  refine wp_mono (fun r tr s hr => ?_) h
  cases r with
  | ok a => exact hr
  | error e => trivial

/-- What is ignored may fail. -/
lemma wp_ignored {R : Rules S E L} {x : Query S E L α}
    {Q : Except ApiError Unit → List (Ev S E L) → S → Prop} {tr : List (Ev S E L)} {s : S} :
    wp R (ignored x).run Q tr s ↔ wp R x.run (fun _ => Q (.ok ())) tr s :=
  wp_bind _ _ _ _ _

lemma wp_decodeB64_ok {R : Rules S E L} {field : Option B}
    {P : B → List (Ev S E L) → S → Prop} {tr : List (Ev S E L)} {s : S}
    (h : ∀ b, P b tr s) : wp R (decodeB64 field : Handler S E L B).run (Ok P) tr s := by
  cases field with
  | none => trivial
  | some b => exact h b

lemma secures_orInternal {T : S → S → Prop} {M G : Ev S E L → Prop} {J : S → Prop}
    {P : α → S → Prop} {x : Query S E L α} (h : Secures T M G J (Succeeds P) x.run) :
    Secures T M G J (Succeeds P) (orInternal x).run := by
  refine secures_bind h fun r => secures_ret fun s hr => ?_
  cases r with
  | ok a => exact hr
  | error e => trivial

lemma yields_orInternal {M G : Ev S E L → Prop} {P : α → Prop} {x : Query S E L α}
    (h : Yields M G (IfOk P) x.run) : Yields M G (IfOk P) (orInternal x).run :=
  secures_orInternal (P := fun a _ => P a) h

lemma safe_orInternal {I : S → Prop} {x : Query S E L α} {P : Except ApiError α → S → Prop}
    {s : S} :
    Safe I (orInternal x).run P s ↔ Safe I x.run (fun r => P (r.mapError .internal)) s :=
  safe_bind _ _ _ _

lemma safely_orInternal {C : Ev S E L → Prop} {I : S → Prop} {x : Query S E L α}
    {P : Except ApiError α → S → Prop} {s : S} :
    Safely C I (orInternal x).run P s ↔ Safely C I x.run (fun r => P (r.mapError .internal)) s :=
  safely_bind _ _ _ _

lemma gives_orInternal {x : Query S E L α} {P : α → S → Prop} {s : S} (h : Gives x P s) :
    Gives (orInternal x : Handler S E L α) P s := by
  refine safe_orInternal.mpr (safe_mono (fun r s hr => ?_) h)
  cases r with
  | ok a => exact hr
  | error err => trivial

variable {rely : L → S → S → Prop} {G : Ev S E L → Prop}

lemma guarantees_orInternal {x : Query S E L α} (h : Guarantees rely G x.run) :
    Guarantees rely G (orInternal x).run :=
  guarantees_bind h fun _ => guarantees_ret _

lemma guarantees_ignored {x : Query S E L α} (h : Guarantees rely G x.run) :
    Guarantees rely G (ignored x).run :=
  guarantees_bind h fun _ => guarantees_ret _

lemma guarantees_decodeB64 (field : Option B) :
    Guarantees rely G (decodeB64 field : Handler S E L B).run := by
  cases field with
  | none => exact guarantees_throw_except _
  | some b => exact guarantees_pure_except b

lemma alone_orInternal {e : E} {x : Query S E L α} {s s' : S} {a : α}
    (h : alone e x.run s = (.ok a, s')) :
    alone e (orInternal x : Handler S E L α).run s = (.ok a, s') := by
  change alone e (x.run >>= _) s = _
  rw [alone_bind, h]
  rfl

end Vautr.Api
