import Vautr.Interleave
import Vautr.Secrets

/-!
Partial updates of a secret (`PATCH /secrets/{uuid}`).

The handler reads the row, fills the fields that the request does not have from what it has
read, and writes both columns. Another request that changes such a field in between is undone.
Nothing is lost in the runs in which the fields that a request leaves out are, when it writes,
still as it has read them.
-/

namespace Vautr.SecretPatches

open Vautr.Atomic Vautr.Interleave Vautr.Sql Vautr.Database Vautr.Api Vautr.Server Vautr.Zoom
open Vautr.Secrets

variable {B α : Type}

/-! ### The requests -/

structure PatchReq (B : Type) where
  user : Ident
  uuid : Ident
  req : SecretUpdateRequest B

abbrev SecEv (B : Type) := Ev (SecretsDb B) Env (SecStmt B)

def patch (q : PatchReq B) : Prog (SecretsDb B) Env (SecStmt B) (Except ApiError Secret) :=
  (updateSecretH q.user q.uuid q.req).run

abbrev PatchSys (B : Type) :=
  Sys (PatchReq B) (SecretsDb B) Env (SecStmt B) (Except ApiError Secret)

abbrev PatchCall (B : Type) :=
  Call (PatchReq B) (SecretsDb B) Env (SecStmt B) (Except ApiError Secret)

abbrev PatchAct (B : Type) := Act (PatchReq B) Env

/-! ### The property -/

/-- The two columns that a request may change. -/
def content (db : SecretsDb B) (uuid : Ident) : Option (String × B) :=
  (db.secrets.get uuid).map fun r => (r.key, r.valueCiphertext)

/-- The partial update that a request asks for. -/
def SecretUpdateRequest.on (req : SecretUpdateRequest B) (c : String × B) : String × B :=
  (req.key.getD c.1, req.valueCiphertext.join.getD c.2)

/-- The secret that the statement has updated. -/
def applied (ev : SecEv B) : Option Ident :=
  match ev.name with
  | .updateSecret uuid _ _ => if ev.inp.fault then none else (ev.pre.secrets.get uuid).map (·.uuid)
  | _ => none

def acknowledged (c : PatchCall B) : Bool :=
  match c.prog.result with
  | some (.ok _) => true
  | _ => false

/-- The acknowledged updates of a secret, in the order of their `UPDATE` statements. -/
def acknowledgedUpdates (σ : PatchSys B) (hist : List (ℕ × PatchReq B × SecEv B)) (uuid : Ident) :
    List (SecretUpdateRequest B) :=
  hist.filterMap fun p =>
    if applied p.2.2 = some uuid ∧ σ.calls[p.1]?.any acknowledged then some p.2.1.req else none

/-- No acknowledged update is lost. -/
structure NothingLost (db : SecretsDb B) (as : List (PatchAct B)) : Prop where
  /-- A request without a value leaves the values alone. -/
  value : ∀ c ∈ (run patch (init db) as).calls, c.req.req.valueCiphertext = none →
    ∀ ev ∈ c.trace, ∀ uuid, (content ev.post uuid).map (·.2) = (content ev.pre uuid).map (·.2)
  /-- A request without a key leaves the keys alone. -/
  key : ∀ c ∈ (run patch (init db) as).calls, c.req.req.key = none →
    ∀ ev ∈ c.trace, ∀ uuid, (content ev.post uuid).map (·.1) = (content ev.pre uuid).map (·.1)
  /-- An acknowledged request has updated its secret. -/
  counted : ∀ (i : ℕ) (c : PatchCall B), (run patch (init db) as).calls[i]? = some c →
    acknowledged c = true → ∃ ev, (i, c.req, ev) ∈ history patch (init db) as ∧
      applied ev = some c.req.uuid
  /-- When all requests are answered, the row is what the acknowledged updates make of it. -/
  final : (∀ c ∈ (run patch (init db) as).calls, c.prog.result.isSome) → ∀ uuid,
    content (run patch (init db) as).shared uuid = (content db uuid).map fun c =>
      (acknowledgedUpdates (run patch (init db) as) (history patch (init db) as) uuid).foldl
        (fun c req => SecretUpdateRequest.on req c) c

/-- When a request writes, the fields that it leaves out are as it has read them; and no
statement of a request fails after that. -/
def Careful (σ : PatchSys B) : PatchAct B → Prop
  | .call _ => True
  | .exec i e => ∀ c ∈ σ.calls[i]?, ((∃ ev ∈ c.trace, (applied ev).isSome) → e.fault = false) ∧
    ∀ l ∈ c.prog.next,
      match l with
      | .updateSecret uuid key value => ∀ row ∈ σ.shared.secrets.get uuid,
        (c.req.req.key = none → row.key = key) ∧
          (c.req.req.valueCiphertext = none → row.valueCiphertext = value)
      | _ => True

/-! ### What the statements do -/

/-- A statement changes nothing, or it is the `UPDATE` of the request. -/
def Patches (q : PatchReq B) (ev : SecEv B) : Prop :=
  (ev.post = ev.pre ∧ applied ev = none) ∨ ∃ key value now,
    ev.name = .updateSecret q.uuid key value ∧ ev.inp.fault = false ∧
    (∀ k ∈ q.req.key, k = key) ∧ (∀ v ∈ q.req.valueCiphertext, v = some value) ∧
    ev.post = { ev.pre with
      secrets := ev.pre.secrets.update (fun r => r.uuid = q.uuid) (.updated key value now)
        (SecretRow.uuid_updated key value now) }

/-- Statements that are no `UPDATE`. -/
def Reads (ev : SecEv B) : Prop := ev.post = ev.pre ∧ applied ev = none

section Reads

variable {rely : SecStmt B → SecretsDb B → SecretsDb B → Prop}

lemma reads_select {l : SecStmt B} (hl : ∀ uuid key value, l ≠ .updateSecret uuid key value)
    (g : SecretsDb B → α) : Guarantees rely Reads (select l g : SecRepo B α).run := by
  have hnone : ∀ e db, applied (⟨l, e, db, db⟩ : SecEv B) = none := by
    intro e db
    unfold applied
    split
    · next uuid key value hname => exact absurd hname (hl uuid key value)
    · rfl
  exact guarantees_statement (fun e db => ⟨rfl, hnone e db⟩) fun e db => ⟨rfl, hnone e db⟩

lemma reads_orElse {x : SecRepo B (Option α)} (h : Guarantees rely Reads x.run) (err : ApiError) :
    Guarantees rely Reads (orElse x err).run := by
  refine guarantees_bind_except (guarantees_orInternal h) ?_
  rintro (_ | a)
  · exact guarantees_throw_except _
  · exact guarantees_pure_except _

lemma reads_userProjectPermission (project user : Ident) :
    Guarantees rely Reads (userProjectPermission project user : SecRepo B _).run := by
  refine guarantees_bind_except (reads_select (by nofun) _) fun owned => ?_
  split
  · exact guarantees_pure_except _
  · exact guarantees_bind_except (reads_select (by nofun) _) fun _ =>
      guarantees_pure_except _

lemma reads_requireProjectAccess (project user : Ident) (needEdit : Bool) :
    Guarantees rely Reads (requireProjectAccess project user needEdit : SecHandler B _).run := by
  refine guarantees_bind_except (guarantees_orInternal (reads_select (by nofun) _))
    fun found => ?_
  split
  · exact guarantees_throw_except _
  refine guarantees_bind_except (reads_orElse (reads_userProjectPermission _ _) _) fun lvl => ?_
  split
  · exact guarantees_throw_except _
  · exact guarantees_pure_except _

lemma reads_loadSecretForUser (uuid user : Ident) (needEdit : Bool) :
    Guarantees rely Reads (loadSecretForUser uuid user needEdit : SecHandler B _).run :=
  guarantees_bind_except (reads_orElse (reads_select (by nofun) _) _) fun _ =>
    guarantees_bind_except (reads_requireProjectAccess _ _ _) fun _ => guarantees_pure_except _

lemma reads_nowMs : Guarantees rely Reads (nowMs : SecHandler B ℤ).run :=
  guarantees_stmt (fun _ _ => ⟨rfl, rfl⟩) fun _ _ => guarantees_ret _

lemma reads_validateKey (key : String) :
    Guarantees rely Reads (validateKey key : SecHandler B Unit).run := by
  unfold validateKey
  split
  · exact guarantees_throw_except _
  split
  · exact guarantees_throw_except _
  · exact guarantees_pure_except _

lemma reads_newKey (row : SecretRow B) (key : Option String) :
    Guarantees rely Reads (newKey row key).run := by
  cases key with
  | none => exact guarantees_pure_except _
  | some key =>
    exact guarantees_bind_except (reads_validateKey key) fun _ => guarantees_pure_except _

lemma reads_auditLog : Guarantees rely Reads (auditLog : SecRepo B Unit).run :=
  guarantees_statement (fun _ _ => ⟨rfl, rfl⟩) fun _ _ => ⟨rfl, rfl⟩

lemma reads_newValue (row : SecretRow B) (value : Option (Option B)) :
    Guarantees rely Reads (newValue row value).run := by
  cases value with
  | none => exact guarantees_pure_except _
  | some value => exact guarantees_decodeB64 value

end Reads

variable {q : PatchReq B} {tr : List (SecEv B)} {db : SecretsDb B}

/-- What a request gets out of its read and its fields. -/
lemma returns_newKey (row : SecretRow B) (key : Option String) :
    Returns (fun r => ∀ k', r = .ok k' → ∀ k ∈ key, k = k') (newKey row key).run := by
  cases key with
  | none => exact fun _ _ _ hk => absurd hk (Option.not_mem_none _)
  | some key =>
    refine returns_bind_except (P := fun _ => True) (returns_true _) ?_ nofun
    intro _ _ k' hk k hkey
    cases hkey
    exact Except.ok.inj hk

lemma returns_newValue (row : SecretRow B) (value : Option (Option B)) :
    Returns (fun r => ∀ v', r = .ok v' → ∀ v ∈ value, v = some v') (newValue row value).run := by
  cases value with
  | none => exact fun _ _ _ hv => absurd hv (Option.not_mem_none _)
  | some value =>
    rcases value with _ | v
    · exact nofun
    · intro v' hv _ hvalue
      cases hvalue
      rw [Except.ok.inj hv]

lemma patches_of_reads {p : Prog (SecretsDb B) Env (SecStmt B) α}
    (h : Guarantees (fun _ _ _ => True) Reads p) :
    Guarantees (fun _ _ _ => True) (Patches q) p :=
  guarantees_mono (fun _ h => .inl h) h

/-- **What a request does**: it reads, and writes at most the fields it was asked to write and
the others as it has read them. -/
lemma patches_patch (q : PatchReq B) : Guarantees (fun _ _ _ => True) (Patches q) (patch q) := by
  refine guarantees_bind_except (patches_of_reads (reads_loadSecretForUser _ _ _)) fun row => ?_
  refine guarantees_bind_returns (patches_of_reads (reads_newKey _ _)) (returns_newKey row _)
    fun key hkey => ?_
  refine guarantees_bind_returns (patches_of_reads (reads_newValue _ _)) (returns_newValue row _)
    fun value hvalue => ?_
  refine guarantees_bind_except (patches_of_reads reads_nowMs) fun now =>
    guarantees_bind_except (guarantees_orInternal ?_) fun _ =>
    guarantees_bind_except (guarantees_orInternal (patches_of_reads reads_auditLog)) fun _ =>
    guarantees_bind_except (patches_of_reads (reads_orElse (reads_select (by nofun) _) _))
      fun _ => guarantees_pure_except _
  intro tr db h
  refine wp_statement_cases h (fun db' e hf _ _ => every_append h (.inl ⟨rfl, ?_⟩))
    fun db' e hf _ _ => every_append h (.inr ⟨key, value, now, rfl, hf, hkey key rfl,
      hvalue value rfl, rfl⟩)
  have hfault : e.fault = true := hf
  simp [applied, hfault]

/-- The columns after an `UPDATE`. -/
lemma content_update (db : SecretsDb B) (uuid : Ident) (key : String) (value : B) (now : ℤ)
    (uuid' : Ident) :
    content { db with
      secrets := db.secrets.update (fun r => r.uuid = uuid) (.updated key value now)
        (by intro r; rfl) } uuid' =
      if uuid' = uuid then (content db uuid').map fun _ => (key, value) else content db uuid' := by
  have hupdate := Table.get_update db.secrets (fun r => r.uuid = uuid) (.updated key value now)
    (by intro r; rfl) uuid'
  simp only [content, hupdate]
  cases hget : db.secrets.get uuid' with
  | none => simp
  | some row =>
    obtain rfl := Table.get_key hget
    simp only [Option.map_some, decide_eq_true_eq]
    split
    · rfl
    · rfl

/-- The columns after a statement along the condition. -/
lemma content_patches {ev : SecEv B} (h : Patches q ev)
    (hread : ∀ key value, ev.name = .updateSecret q.uuid key value →
      ∀ row ∈ ev.pre.secrets.get q.uuid, (q.req.key = none → row.key = key) ∧
        (q.req.valueCiphertext = none → row.valueCiphertext = value)) (uuid : Ident) :
    content ev.post uuid = if applied ev = some uuid then
      (content ev.pre uuid).map (SecretUpdateRequest.on q.req) else content ev.pre uuid := by
  rcases h with ⟨hpost, hnone⟩ | ⟨key, value, now, hname, hfault, hk, hv, hpost⟩
  · rw [hpost, hnone, if_neg nofun]
  have happ : applied ev = (ev.pre.secrets.get q.uuid).map (·.uuid) := by
    simp [applied, hname, hfault]
  rw [happ, hpost, content_update]
  cases hget : ev.pre.secrets.get q.uuid with
  | none =>
    have hcontent : content ev.pre q.uuid = none := by simp [content, hget]
    rw [Option.map_none, if_neg (Option.some_ne_none uuid).symm]
    split
    · next hu => rw [hu, hcontent, Option.map_none]
    · rfl
  | some row =>
    rw [Option.map_some, Table.get_key hget]
    have hcontent : content ev.pre q.uuid = some (row.key, row.valueCiphertext) := by
      simp [content, hget]
    obtain ⟨hk', hv'⟩ := hread key value hname row hget
    have hon : SecretUpdateRequest.on q.req (row.key, row.valueCiphertext) = (key, value) := by
      refine Prod.ext ?_ ?_
      · change q.req.key.getD row.key = key
        cases hreq : q.req.key with
        | none => exact hk' hreq
        | some k => exact hk k hreq
      · change q.req.valueCiphertext.join.getD row.valueCiphertext = value
        cases hreq : q.req.valueCiphertext with
        | none => exact hv' hreq
        | some v =>
          rw [hv v hreq]
          rfl
    by_cases hu : uuid = q.uuid
    · rw [if_pos hu, if_pos (congrArg some hu.symm), hu, hcontent, Option.map_some, Option.map_some,
        hon]
    · rw [if_neg hu, if_neg fun h => hu (Option.some.inj h).symm]

/-! ### One request -/

/-- The same secrets are there. -/
def SameSecrets (db₀ db : SecretsDb B) : Prop :=
  ∀ uuid, (db.secrets.get uuid).isSome = (db₀.secrets.get uuid).isSome

def Idle (tr : List (SecEv B)) : Prop := ∀ ev ∈ tr, applied ev = none

/-- The last statement found the same secrets, and has not failed after an `UPDATE`. -/
def patching (db₀ : SecretsDb B) : Rules (SecretsDb B) Env (SecStmt B) where
  rely _ _ _ := True
  ok tr := ∀ ev ∈ tr.getLast?, SameSecrets db₀ ev.pre ∧
    ((∃ ev' ∈ tr.dropLast, (applied ev').isSome) → ev.inp.fault = false)
  mid _ := True

/-- A request is acknowledged if and only if it has updated its secret. -/
def Answered (a : Except ApiError Secret) (tr : List (SecEv B)) : Prop :=
  (∃ ev ∈ tr, (applied ev).isSome) ↔ ∃ s, a = .ok s

variable {db₀ : SecretsDb B}

lemma Idle.append {ev : SecEv B} (h : Idle tr) (hev : applied ev = none) : Idle (tr ++ [ev]) :=
  every_append h hev

lemma Idle.answered {err : ApiError} (h : Idle tr) : Answered (.error err) tr := by
  refine iff_of_false ?_ nofun
  rintro ⟨ev, hev, happ⟩
  rw [h ev hev] at happ
  cases happ

lemma wp_reads {p : Prog (SecretsDb B) Env (SecStmt B) α}
    (hp : Guarantees (fun _ _ _ => True) Reads p) (h : Idle tr) :
    wp (patching db₀) p (fun _ tr _ => Idle tr) tr db :=
  wp_of_guarantees (J := fun tr _ => Idle tr) hp (fun _ _ _ _ => trivial) (fun _ _ _ => trivial)
    (fun _ _ _ _ h _ => h) (fun _ _ h hev => h.append hev.2) (fun _ _ _ h => h) h

lemma wp_reads_bind {β : Type} {x : SecHandler B β} {f : β → SecHandler B Secret}
    (hx : Guarantees (fun _ _ _ => True) Reads x.run) (h : Idle tr)
    (hf : ∀ b tr db, Idle tr →
      wp (patching db₀) (f b).run (fun a tr _ => Answered a tr) tr db) :
    wp (patching db₀) (x >>= f).run (fun a tr _ => Answered a tr) tr db := by
  rw [wp_bind_except]
  refine wp_mono ?_ (wp_reads hx h)
  rintro (_ | b) tr db h
  · exact h.answered
  · exact hf b tr db h

/-- The end of a request that has not updated anything: there is no such secret. -/
lemma wp_reread_none {uuid : Ident} (hnone : db₀.secrets.get uuid = none) (h : Idle tr) :
    wp (patching db₀) (do
      orInternal auditLog
      return toSecret (← orElse (getSecret uuid) (ProjectHandlers.notFound "secret not found")) :
        SecHandler B Secret).run (fun a tr _ => Answered a tr) tr db := by
  refine wp_reads_bind (guarantees_orInternal reads_auditLog) h fun _ tr db h => ?_
  rw [wp_bind_except]
  change wp _ ((orInternal (getSecret uuid) : SecHandler B _) >>= _).run _ _ _
  rw [wp_bind_except, wp_orInternal]
  refine wp_statement_cases trivial (fun db' e _ _ _ => (h.append rfl).answered)
    fun db' e _ _ hok => ?_
  have hsame := (hok _ List.getLast?_concat).1 uuid
  rw [hnone, Option.isSome_none, Option.isSome_eq_false_iff, Option.isNone_iff_eq_none] at hsame
  dsimp only [Except.mapError] at hsame ⊢
  rw [hsame]
  exact (h.append rfl).answered

/-- The end of a request that has updated a secret. -/
lemma wp_reread_some {uuid : Ident} (hsome : (db₀.secrets.get uuid).isSome)
    (h : ∃ ev ∈ tr, (applied ev).isSome) :
    wp (patching db₀) (do
      orInternal auditLog
      return toSecret (← orElse (getSecret uuid) (ProjectHandlers.notFound "secret not found")) :
        SecHandler B Secret).run (fun a tr _ => Answered a tr) tr db := by
  have hfine : ∀ {tr' : List (SecEv B)} {ev : SecEv B}, (∃ ev ∈ tr', (applied ev).isSome) →
      (patching db₀).ok (tr' ++ [ev]) → ev.inp.fault = false := by
    intro tr' ev hex hok
    refine (hok _ List.getLast?_concat).2 ?_
    rwa [List.dropLast_concat]
  have hgrow : ∀ {tr' : List (SecEv B)} {ev' : SecEv B}, (∃ ev ∈ tr', (applied ev).isSome) →
      ∃ ev ∈ tr' ++ [ev'], (applied ev).isSome := by
    rintro tr' ev' ⟨ev, hev, happ⟩
    exact ⟨ev, List.mem_append_left _ hev, happ⟩
  rw [wp_bind_except, wp_orInternal]
  refine wp_statement_cases trivial (fun db' e hf _ hok => ?_) fun db' e _ _ _ => ?_
  · exact absurd (hfine h hok) (by rw [show e.fault = true from hf]; nofun)
  change wp _ ((orElse (getSecret uuid) _ : SecHandler B _) >>= _).run _ _ _
  rw [wp_bind_except]
  change wp _ ((orInternal (getSecret uuid) : SecHandler B _) >>= _).run _ _ _
  rw [wp_bind_except, wp_orInternal]
  refine wp_statement_cases trivial (fun db' e hf _ hok => ?_) fun db' e _ _ hok => ?_
  · exact absurd (hfine (hgrow h) hok) (by rw [show e.fault = true from hf]; nofun)
  have hsame := (hok _ List.getLast?_concat).1 uuid
  dsimp only at hsame
  rw [hsome] at hsame
  obtain ⟨row, hrow⟩ := Option.isSome_iff_exists.mp hsame
  dsimp only [Except.mapError]
  rw [hrow]
  exact iff_of_true (hgrow (hgrow h)) ⟨_, rfl⟩

lemma wp_patch (q : PatchReq B) :
    wp (patching db₀) (patch q) (fun a tr _ => Answered a tr) [] db := by
  refine wp_reads_bind (reads_loadSecretForUser _ _ _) nofun fun row tr db h =>
    wp_reads_bind (reads_newKey _ _) h fun key tr db h =>
    wp_reads_bind (reads_newValue _ _) h fun value tr db h =>
    wp_reads_bind reads_nowMs h fun now tr db h => ?_
  rw [wp_bind_except, wp_orInternal]
  refine wp_statement_cases trivial (fun db' e hf _ _ => ?_) fun db' e hf _ hok => ?_
  · refine (h.append ?_).answered
    simp [applied, show e.fault = true from hf]
  have hsame := (hok _ List.getLast?_concat).1 q.uuid
  dsimp only at hsame
  change wp _ (ExceptT.run _) _ _ _
  cases hget : db'.secrets.get q.uuid with
  | none =>
    rw [hget, Option.isSome_none, eq_comm, Option.isSome_eq_false_iff,
      Option.isNone_iff_eq_none] at hsame
    refine wp_reread_none hsame (h.append ?_)
    simp [applied, hget]
  | some row =>
    rw [hget, Option.isSome_some] at hsame
    refine wp_reread_some hsame.symm ⟨_, List.mem_append_right _ (List.mem_singleton_self _), ?_⟩
    simp [applied, hget, show e.fault = false from hf]

/-! ### Runs -/

lemma sameSecrets_patches {ev : SecEv B} (h : Patches q ev) (hsame : SameSecrets db₀ ev.pre) :
    SameSecrets db₀ ev.post := by
  rcases h with ⟨hpost, -⟩ | ⟨key, value, now, -, -, -, -, hpost⟩
  · rw [hpost]
    exact hsame
  · intro uuid
    have hupdate := Table.get_update ev.pre.secrets (fun r => r.uuid = q.uuid)
      (.updated key value now) (by intro r; rfl) uuid
    rw [hpost]
    dsimp only
    rw [hupdate, Option.isSome_map]
    exact hsame uuid

/-- A run along the condition: every request is on its way, and the same secrets are there. -/
lemma run_patching {as : List (PatchAct B)} (has : Along patch Careful (init db) as) :
    Sound (fun _ => patching db) (fun _ a tr _ => Answered a tr) Patches
      (run patch (init db) as) := by
  have hsame : Along patch (fun σ a => Careful σ a ∧ SameSecrets db σ.shared) (init db) as := by
    refine along_invariant (G := fun ev => ∃ q, Patches q ev)
      (fun q => guarantees_mono (fun _ h => ⟨q, h⟩) (patches_patch q)) ?_ (fun _ => rfl) has
    rintro σ i e q tr l f k - - ⟨q', hq'⟩ hsame
    exact sameSecrets_patches hq' hsame
  refine (run_sound (P := fun _ => True) (fun _ q _ => wp_patch q) (fun q => patches_patch q)
    (fun _ _ _ _ => trivial) (fun _ _ _ _ _ h => h) ?_ (fun _ _ _ _ => trivial)
    (fun _ _ _ _ _ _ _ _ _ _ _ _ _ => trivial) ⟨sound_init db, trivial⟩ hsame).1
  intro σ i e q tr l f k hc hC ev hev
  cases Option.mem_unique hev List.getLast?_concat
  rw [List.dropLast_concat]
  exact ⟨hC.2, (hC.1 _ hc).1⟩

/-- The updates of a secret that were run. -/
def updatesRun (hist : List (ℕ × PatchReq B × SecEv B)) (uuid : Ident) :
    List (SecretUpdateRequest B) :=
  hist.filterMap fun p => if applied p.2.2 = some uuid then some p.2.1.req else none

lemma Careful.read {σ : PatchSys B} {i : ℕ} {e : Env} {q : PatchReq B} {l : SecStmt B}
    {f : Env → SecretsDb B → SecretsDb B}
    {k : Env → SecretsDb B → Prog (SecretsDb B) Env (SecStmt B) (Except ApiError Secret)}
    (hC : Careful σ (.exec i e)) (hc : σ.calls[i]? = some ⟨q, tr, .stmt l f k⟩) (key : String)
    (value : B) (hl : l = .updateSecret q.uuid key value) :
    ∀ row ∈ σ.shared.secrets.get q.uuid, (q.req.key = none → row.key = key) ∧
      (q.req.valueCiphertext = none → row.valueCiphertext = value) := by
  subst hl
  exact (hC _ hc).2 _ rfl

/-- The row is what the updates that were run make of it. -/
lemma content_run {as : List (PatchAct B)} (has : Along patch Careful (init db) as) (uuid : Ident) :
    content (run patch (init db) as).shared uuid = (content db uuid).map fun c =>
      (updatesRun (history patch (init db) as) uuid).foldl
        (fun c req => SecretUpdateRequest.on req c) c := by
  induction as using List.reverseRecOn with
  | nil => simp [init, history, updatesRun]
  | append_singleton as a ih =>
    obtain ⟨has', hC, -⟩ := (along_append as [a] _).mp has
    have hsound := run_patching has
    have hsplit : ∀ hist hist', updatesRun (B := B) (hist ++ hist') uuid =
        updatesRun hist uuid ++ updatesRun hist' uuid := fun _ _ => List.filterMap_append
    simp only [history_snoc, hsplit, List.foldl_append]
    rw [run_append, run_cons, run_nil] at hsound ⊢
    have hih := ih has'
    generalize run patch (init db) as = σ at hC hsound hih ⊢
    rcases ranBy_cases (h := patch) σ a with ⟨q, rfl⟩ | ⟨i, e, q, tr, l, f, k, rfl, hc⟩ |
      ⟨hst, hnone⟩
    · exact hih
    · rw [step_exec hc] at hsound ⊢
      have hpatches : Patches q ⟨l, e, σ.shared, f e σ.shared⟩ := hsound.every
        (List.mem_set (List.getElem?_eq_some_iff.mp hc).1 _) _
        (List.mem_append_right _ (List.mem_singleton_self _))
      have hcontent := content_patches hpatches (fun key value hl => hC.read hc key value hl) uuid
      simp only [ranBy_exec hc, updatesRun, List.filterMap_cons, List.filterMap_nil]
      dsimp only at hcontent ⊢
      rw [hcontent, hih]
      by_cases happ : applied ⟨l, e, σ.shared, f e σ.shared⟩ = some uuid
      · simp only [happ, if_true, Option.map_map]
        rfl
      · simp only [happ, if_false]
        rfl
    · rw [hst, hnone]
      exact hih

/-- **Partial updates**: when every request finds, as it writes, the fields it leaves out as it
has read them, and does not fail after that, no acknowledged update is lost. -/
theorem patches_applied (db : SecretsDb B) (as : List (PatchAct B))
    (has : Along patch Careful (init db) as) : NothingLost db as := by
  have hsound := run_patching has
  -- each statement applies the update of its request, or nothing
  have hsteps : ∀ c ∈ (run patch (init db) as).calls, ∀ ev ∈ c.trace, ∀ uuid,
      content ev.post uuid = if applied ev = some uuid then
        (content ev.pre uuid).map (SecretUpdateRequest.on c.req.req) else content ev.pre uuid := by
    intro c hc ev hev uuid
    obtain ⟨tr, tr', htr⟩ := List.append_of_mem hev
    refine content_patches (hsound.every hc ev hev) ?_ uuid
    exact run_each (K := fun q _ ev => ∀ key value, ev.name = .updateSecret q.uuid key value →
      ∀ row ∈ ev.pre.secrets.get q.uuid, (q.req.key = none → row.key = key) ∧
        (q.req.valueCiphertext = none → row.valueCiphertext = value))
      (fun _ _ _ _ _ _ _ _ hc hC key value hl => hC.read hc key value hl) has c hc tr ev tr' htr
  -- an answered request is acknowledged if it has updated its secret
  have hanswered : ∀ c ∈ (run patch (init db) as).calls, c.prog.result.isSome →
      ((∃ ev ∈ c.trace, (applied ev).isSome) ↔ acknowledged c = true) := by
    intro c hc hres
    obtain ⟨a, ha⟩ := Option.isSome_iff_exists.mp hres
    refine (hsound.post hc ha).trans ?_
    rw [acknowledged, ha]
    cases a with
    | ok s => simp
    | error err => simp
  refine ⟨fun c hc hnone ev hev uuid => ?_, fun c hc hnone ev hev uuid => ?_,
    fun i c hi hack => ?_, fun hall uuid => ?_⟩
  · rw [hsteps c hc ev hev uuid]
    split
    · rw [Option.map_map]
      congr 1
      funext p
      simp [SecretUpdateRequest.on, hnone]
    · rfl
  · rw [hsteps c hc ev hev uuid]
    split
    · rw [Option.map_map]
      congr 1
      funext p
      simp [SecretUpdateRequest.on, hnone]
    · rfl
  · have hc := List.mem_of_getElem? hi
    have hres : c.prog.result.isSome := by
      unfold acknowledged at hack
      split at hack
      · next hres => rw [hres]; rfl
      · cases hack
    obtain ⟨ev, hev, happ⟩ := (hanswered c hc hres).mpr hack
    refine ⟨ev, (mem_history db as i c.req ev).mpr ⟨c, hi, rfl, hev⟩, ?_⟩
    rcases hsound.every hc ev hev with ⟨-, hnone⟩ | ⟨key, value, now, hname, hfault, -⟩
    · rw [hnone] at happ
      cases happ
    · simp only [applied, hname, hfault] at happ ⊢
      obtain ⟨uuid, huuid⟩ := Option.isSome_iff_exists.mp happ
      obtain ⟨row, hrow, -⟩ := Option.map_eq_some_iff.mp huuid
      simp [hrow, Table.get_key hrow]
  · -- the updates of the run are those of the acknowledged requests
    rw [content_run has uuid]
    congr 1
    funext c
    congr 1
    refine List.filterMap_congr ?_
    rintro ⟨i, q, ev⟩ hmem
    obtain ⟨c, hi, rfl, hev⟩ := (mem_history db as i q ev).mp hmem
    have hc := List.mem_of_getElem? hi
    dsimp only
    by_cases happ : applied ev = some uuid
    · have hack : acknowledged c = true :=
        (hanswered c hc (hall c hc)).mp ⟨ev, hev, by rw [happ]; rfl⟩
      rw [if_pos happ, if_pos ⟨happ, by rw [hi]; exact hack⟩]
    · rw [if_neg happ, if_neg fun h => happ h.1]

instance (σ : PatchSys (List ℕ)) : ∀ a, Decidable (Careful σ a)
  | .call _ => inferInstanceAs (Decidable True)
  | .exec i e => by
    unfold Careful
    refine @Option.decidableForallMem _ _ (fun c => @instDecidableAnd _ _ inferInstance
      (@Option.decidableForallMem _ _ (fun l => ?_) _)) _
    split <;> infer_instance

/-- A project of one user, with one secret. -/
def oneSecret : SecretsDb (List ℕ) where
  proj := ⟨⟨[(1, "alice")], by decide⟩, .empty, .empty,
    ⟨[⟨3, "app", none, .personal, none, 1, 0, 0⟩], by decide⟩, .empty, .empty, .empty, .empty, []⟩
  secrets := ⟨[⟨7, 3, "key", [1], 1, 1, none, 0, 0⟩], by decide⟩
  revealGrants := .empty

/-- One request renames the secret and one rotates its value; the second one starts after the
first one has run `n` statements. -/
def renameAndRotate (n : ℕ) : List (PatchAct (List ℕ)) :=
  let e : Env := ⟨5, 0, false⟩
  [.call ⟨1, 7, ⟨some "new", none⟩⟩, .call ⟨1, 7, ⟨none, some (some [2])⟩⟩] ++
  List.replicate n (.exec 0 e) ++ List.replicate 7 (.exec 1 e) ++ List.replicate (7 - n) (.exec 0 e)

theorem patches_applied_serial :
    Along patch Careful (init oneSecret) (renameAndRotate 7) ∧
    NothingLost oneSecret (renameAndRotate 7) :=
  ⟨by decide +kernel, patches_applied oneSecret (renameAndRotate 7) (by decide +kernel)⟩

/-- A request that renames a secret puts back the value it has read before another request
has rotated it. -/
theorem rotated_value_lost :
    ¬∀ as : List (PatchAct (List ℕ)), NothingLost oneSecret as := by
  intro h
  have hall : ∀ c ∈ (run patch (init oneSecret) (renameAndRotate 3)).calls,
      c.prog.result.isSome := by decide +kernel
  have hfinal := (h (renameAndRotate 3)).final hall 7
  revert hfinal
  decide +kernel

end Vautr.SecretPatches
