import Vautr.Bearer
import Vautr.Offboarding

/-!
An offboarding among everything else that happens: when it returns success, the user has no
access left, and when it fails, it has taken none.

Both are true of runs in which nobody gives back what was revoked while the offboarding is
under way, no statement fails once something was revoked, and the user had neither a reveal
grant nor a sharing group to begin with: those two are not revoked at all.
-/

namespace Vautr.OffboardRuns

open Vautr.Atomic Vautr.Session Vautr.Sql Vautr.Database Vautr.Api Vautr.Server Vautr.Zoom
open Vautr.Auth Vautr.Credentials Vautr.Projects Vautr.Offboarding
open Vautr.ProjectHandlers (OffboardResp mayOffboard notFound)

variable {B α β : Type} {user : Ident}

/-! ### What the statements do -/

/-- The kind of access that a statement revokes. -/
def revokes : OffStmt → Option Kind
  | .proj .revokeProjectAccess => some .grants
  | .proj .revokeGroupMemberships => some .groups
  | .proj .revokeOrgMemberships => some .orgs
  | .revokeSessions => some .sessions
  | .revokeTokens => some .tokens
  | .revokeMachineAccounts => some .accounts
  | _ => none

/-- The statement revokes what it names, and gives the user nothing. -/
def Does (user : Ident) (ev : OffEv B) : Prop :=
  (ev.inp.fault = false → ∀ k, revokes ev.name = some k → ¬Has ev.post user k) ∧
    ∀ k, ¬Has ev.pre user k → ¬Has ev.post user k

/-- The same on the tables of the projects. -/
def ProjDoes (user : Ident) (ev : Ev ProjDb Env ProjStmt) : Prop :=
  (ev.inp.fault = false → ∀ k, revokes (.proj ev.name) = some k → ¬ProjHas ev.post user k) ∧
    (∀ k, ¬ProjHas ev.pre user k → ¬ProjHas ev.post user k) ∧ ev.post.projects = ev.pre.projects

abbrev DoesProg (user : Ident) (p : Prog (AccessDb B) (AuthEnv B) OffStmt α) : Prop :=
  Guarantees (fun _ _ _ => True) (Does user) p

lemma does_zoom {p : Prog ProjDb Env ProjStmt α}
    (hp : Guarantees (fun _ _ _ => True) (ProjDoes user) p) :
    DoesProg user (zoom (projects : View ProjDb (AccessDb B) _ _ _ _) p) := by
  refine guarantees_zoom hp (fun _ _ _ _ => trivial) fun l e t s h => ⟨fun hf k hk => ?_, fun k => ?_⟩
  · have hgone := h.1 hf k hk
    change revokes (.proj l) = some k at hk
    cases k <;> first | exact hgone | (cases l <;> cases hk)
  · cases k with
    | grants => exact h.2.1 .grants
    | groups => exact h.2.1 .groups
    | orgs => exact h.2.1 .orgs
    | sessions => exact id
    | tokens => exact id
    | accounts => exact id
    | sharing => exact id
    | reveals =>
      have hproj : s.projects = t.secrets.proj.projects := h.2.2
      change ¬(∃ r ∈ t.secrets.revealGrants.rows, r.userId = user ∧ _) →
        ¬∃ r ∈ t.secrets.revealGrants.rows, r.userId = user ∧
          (s.projects.get r.projectId).map (·.ownerUserId) ≠ some user
      rw [hproj]
      exact id

/-- A statement that leaves the tables of access as they are. -/
lemma projDoes_quiet {l : ProjStmt} {g : Env → ProjDb → ProjDb × Except SqlError α}
    (hl : revokes (.proj l) = none)
    (h : ∀ e s, (g e s).1.access = s.access ∧ (g e s).1.groupMembers = s.groupMembers ∧
      (g e s).1.orgMembers = s.orgMembers ∧ (g e s).1.projects = s.projects) :
    Guarantees (fun _ _ _ => True) (ProjDoes user) (statement l g).run := by
  refine guarantees_statement (fun e s => ⟨fun _ k hk => ?_, fun _ => id, rfl⟩)
    fun e s => ⟨fun _ k hk => ?_, fun k hs => ?_, (h e s).2.2.2⟩
  · rw [hl] at hk
    cases hk
  · rw [hl] at hk
    cases hk
  · obtain ⟨haccess, hgroups, horgs, -⟩ := h e s
    cases k <;> simp only [ProjHas, haccess, hgroups, horgs] at hs ⊢ <;> exact hs

lemma projDoes_select {l : ProjStmt} (hl : revokes (.proj l) = none) (g : ProjDb → α) :
    Guarantees (fun _ _ _ => True) (ProjDoes user) (select l g : ProjRepo α).run :=
  projDoes_quiet hl fun _ _ => ⟨rfl, rfl, rfl, rfl⟩

/-- What is left after a `DELETE` was there before, and is not what was deleted. -/
lemma exists_delete {R K : Type} [DecidableEq K] {key : R → K} {t : Table key} {p : R → Bool}
    {P : R → Prop} (h : ∃ r ∈ (t.delete p).rows, P r) : ∃ r ∈ t.rows, p r = false ∧ P r := by
  obtain ⟨r, hr, hP⟩ := h
  obtain ⟨hmem, hp⟩ := Table.mem_delete.mp hr
  exact ⟨r, hmem, by simpa using hp, hP⟩

/-- A revocation on the tables of the projects. -/
lemma projDoes_revoke {l : ProjStmt} {k : Kind} {g : Env → ProjDb → ProjDb × Except SqlError α}
    (hl : revokes (.proj l) = some k) (hgone : ∀ e s, ¬ProjHas (g e s).1 user k)
    (hless : ∀ e s k, ProjHas (g e s).1 user k → ProjHas s user k)
    (hproj : ∀ e s, (g e s).1.projects = s.projects) :
    Guarantees (fun _ _ _ => True) (ProjDoes user) (statement l g).run := by
  refine guarantees_statement_cases (fun e s hf => ⟨fun hf' => ?_, fun _ => id, rfl⟩)
    fun e s _ => ⟨fun _ k' hk => ?_, fun k hs h => hs (hless e s k h), hproj e s⟩
  · rw [show e.fault = true from hf] at hf'
    cases hf'
  · rw [hl] at hk
    cases hk
    exact hgone e s

lemma projDoes_revokeProjectAccess :
    Guarantees (fun _ _ _ => True) (ProjDoes user) (revokeProjectAccessForUser user).run := by
  refine projDoes_revoke rfl (fun e s h => ?_) (fun e s k h => ?_) fun _ _ => rfl
  · obtain ⟨r, -, hp, hu⟩ := exists_delete h
    simp [hu] at hp
  · cases k with
    | grants =>
      obtain ⟨r, hr, -, hu⟩ := exists_delete h
      exact ⟨r, hr, hu⟩
    | _ => exact h

lemma projDoes_revokeGroupMemberships :
    Guarantees (fun _ _ _ => True) (ProjDoes user) (revokeGroupMembershipsForUser user).run := by
  refine projDoes_revoke rfl (fun e s h => ?_) (fun e s k h => ?_) fun _ _ => rfl
  · obtain ⟨r, -, hp, hu⟩ := exists_delete h
    simp [hu] at hp
  · cases k with
    | groups =>
      obtain ⟨r, hr, -, hu⟩ := exists_delete h
      exact ⟨r, hr, hu⟩
    | _ => exact h

lemma projDoes_revokeOrgMemberships :
    Guarantees (fun _ _ _ => True) (ProjDoes user) (revokeOrgMembershipsForUser user).run := by
  refine projDoes_revoke rfl (fun e s h => ?_) (fun e s k h => ?_) fun _ _ => rfl
  · obtain ⟨r, -, hp, hu⟩ := exists_delete h
    simp [hu] at hp
  · cases k with
    | orgs =>
      obtain ⟨r, hr, -, hu⟩ := exists_delete h
      exact ⟨r, hr, hu⟩
    | _ => exact h

/-- A revocation on the other tables. -/
lemma does_revoke {l : OffStmt} {g : AuthEnv B → AccessDb B → AccessDb B × Except SqlError α}
    (hgone : ∀ e s k, revokes l = some k → ¬Has (g e s).1 user k)
    (hless : ∀ e s k, Has (g e s).1 user k → Has s user k) :
    DoesProg user (statement l g).run := by
  refine guarantees_statement_cases (fun e s hf => ⟨fun hf' => ?_, fun _ => id⟩)
    fun e s _ => ⟨fun _ => hgone e s, fun k hs h => hs (hless e s k h)⟩
  rw [show e.fault = true from hf] at hf'
  cases hf'

lemma does_revokeSessions : DoesProg user (revokeSessionsForUser user : OffRepo B ℕ).run := by
  refine does_revoke (fun e s k hk h => ?_) fun e s k h => ?_
  · obtain rfl : Kind.sessions = k := by simpa [revokes] using hk
    obtain ⟨r, -, hp, hu⟩ := exists_delete h
    simp [hu] at hp
  · cases k with
    | sessions =>
      obtain ⟨r, hr, -, hu⟩ := exists_delete h
      exact ⟨r, hr, hu⟩
    | _ => exact h

lemma does_revokeSharingKeys : DoesProg user (revokeSharingKeysForUser user : OffRepo B ℕ).run := by
  refine does_revoke (fun e s k hk h => ?_) fun e s k h => ?_
  · cases hk
  · cases k <;> exact h

lemma does_revokeTokens : DoesProg user (revokeTokensForUser user : OffRepo B ℕ).run := by
  refine does_revoke (fun e s k hk h => ?_) fun e s k h => ?_
  · obtain rfl : Kind.tokens = k := by simpa [revokes] using hk
    obtain ⟨r, -, hp, hu⟩ := exists_delete h
    simp [hu] at hp
  · cases k with
    | tokens =>
      obtain ⟨r, hr, -, hu⟩ := exists_delete h
      exact ⟨r, hr, hu⟩
    | _ => exact h

lemma does_revokeMachineAccounts :
    DoesProg user (revokeMachineAccountsForUser user : OffRepo B ℕ).run := by
  refine does_revoke (fun e s k hk h => ?_) fun e s k h => ?_
  · obtain rfl : Kind.accounts = k := by simpa [revokes] using hk
    obtain ⟨r, -, hp, hu⟩ := exists_delete h
    simp [hu] at hp
  · cases k with
    | accounts =>
      obtain ⟨r, hr, -, hu⟩ := exists_delete h
      exact ⟨r, hr, hu⟩
    | tokens =>
      obtain ⟨r, hr, hu⟩ := h
      obtain ⟨r', hr', rfl⟩ := List.mem_map.mp hr
      refine ⟨r', hr', ?_⟩
      split at hu <;> exact hu
    | _ => exact h

lemma does_onProjects {x : ProjRepo α} (hx : Guarantees (fun _ _ _ => True) (ProjDoes user) x.run) :
    DoesProg user (orInternal (onProjects x : OffRepo B α)).run :=
  guarantees_orInternal (does_zoom hx)

lemma does_revokeAll (id : Ident) (now : ℤ) :
    DoesProg user (revokeAll id user now : OffHandler B OffboardResp).run := by
  refine guarantees_bind_except (does_onProjects projDoes_revokeProjectAccess) fun _ =>
    guarantees_bind_except (does_onProjects projDoes_revokeGroupMemberships) fun _ =>
    guarantees_bind_except (guarantees_orInternal does_revokeSessions) fun _ =>
    guarantees_bind_except (does_onProjects projDoes_revokeOrgMemberships) fun _ =>
    guarantees_bind_except (guarantees_orInternal does_revokeSharingKeys) fun _ =>
    guarantees_bind_except (guarantees_orInternal does_revokeTokens) fun _ =>
    guarantees_bind_except (guarantees_orInternal does_revokeMachineAccounts) fun _ =>
    guarantees_bind_except (does_onProjects ?_) fun _ =>
    guarantees_bind_except (does_onProjects ?_) fun _ => guarantees_pure_except _
  · exact projDoes_quiet rfl fun _ _ => ⟨rfl, rfl, rfl, rfl⟩
  · exact projDoes_quiet rfl fun _ _ => ⟨rfl, rfl, rfl, rfl⟩

lemma projDoes_createOffboarding (row : OffboardingRow) :
    Guarantees (fun _ _ _ => True) (ProjDoes user) (createOffboarding row).run := by
  refine projDoes_quiet rfl fun e s => ?_
  dsimp only
  split
  · exact ⟨rfl, rfl, rfl, rfl⟩
  · next hg =>
    obtain ⟨t, -, rfl⟩ := Option.map_eq_some_iff.mp hg
    split <;> exact ⟨rfl, rfl, rfl, rfl⟩

lemma does_clock {l : ProjStmt} (hl : revokes (.proj l) = none) {ε : Type} {f : Env → α} :
    DoesProg user (zoomE (projects : View ProjDb (AccessDb B) _ _ _ _)
      (ExceptT.mk (Prog.atom l fun e db => (db, .ok (f e))) : ExceptT ε _ α)).run := by
  refine guarantees_stmt (fun e s => ⟨fun _ k hk => ?_, fun _ => id⟩) fun _ _ => guarantees_ret _
  change revokes (.proj l) = some k at hk
  rw [hl] at hk
  cases hk

lemma does_offboard (caller user : Ident) (reason : Option String) :
    DoesProg user (offboard caller user reason : OffHandler B OffboardResp).run := by
  refine guarantees_bind_except ?_ fun _ =>
    guarantees_bind_except (does_onProjects (projDoes_select rfl _)) fun callerRoles =>
    guarantees_bind_except (does_onProjects (projDoes_select rfl _)) fun targetRoles => ?_
  · refine guarantees_bind_except (does_onProjects (projDoes_select rfl _)) ?_
    rintro (_ | a)
    · exact guarantees_throw_except _
    · exact guarantees_pure_except _
  · cases mayOffboard callerRoles targetRoles with
    | some err => exact guarantees_throw_except _
    | none =>
      exact guarantees_bind_except (does_clock rfl) fun now =>
        guarantees_bind_except (guarantees_orInternal (does_clock rfl)) fun id =>
        guarantees_bind_except (does_onProjects (projDoes_createOffboarding _)) fun _ =>
        does_revokeAll id now

/-! ### How an offboarding ends -/

/-- The statement leaves the access of the user as it is. -/
def Same (user : Ident) (ev : OffEv B) : Prop := SameAccess user ev.pre ev.post

/-- A statement fails only as long as nothing was revoked. -/
def Faultless (user : Ident) : List (OffEv B) → Prop :=
  Ordered fun tr ev => ev.inp.fault = true → Every (Same user) tr

/-- Whatever the others do, and statements fail only as long as nothing was revoked. -/
def offRules (user : Ident) : Rules (AccessDb B) (AuthEnv B) OffStmt :=
  assume (fun _ _ _ => True) (Faultless user)

/-- Access of the kinds was revoked. -/
def Done (ks : List Kind) (tr : List (OffEv B)) : Prop :=
  ∀ k ∈ ks, ∃ ev ∈ tr, ev.inp.fault = false ∧ revokes ev.name = some k

/-- A part of the handler ends as `P` says, or fails when nothing was revoked. -/
def Stage (user : Ident) {ε : Type} (P : List (OffEv B) → Prop) :
    Except ε α → List (OffEv B) → AccessDb B → Prop
  | .ok _ => fun tr _ => P tr
  | .error _ => fun tr _ => Every (Same user) tr

variable {tr : List (OffEv B)} {s : AccessDb B} {P P' : List (OffEv B) → Prop} {ks : List Kind}

lemma same_refl {l : OffStmt} {e : AuthEnv B} : Same user ⟨l, e, s, s⟩ := SameAccess.refl user s

lemma wp_bind_stage {x : OffHandler B α} {f : α → OffHandler B β}
    (hx : wp (offRules user) x.run (Stage user P) tr s)
    (hf : ∀ a tr s, P tr → wp (offRules user) (f a).run (Stage user P') tr s) :
    wp (offRules user) (x >>= f).run (Stage user P') tr s := by
  rw [wp_bind_except]
  refine wp_mono (fun r tr s hr => ?_) hx
  cases r with
  | ok a => exact hf a tr s hr
  | error e => exact hr

lemma wp_stage_orInternal {x : OffRepo B α} (hx : wp (offRules user) x.run (Stage user P) tr s) :
    wp (offRules user) (orInternal x).run (Stage user P) tr s := by
  rw [wp_orInternal]
  refine wp_mono (fun r tr s hr => ?_) hx
  cases r <;> exact hr

/-- What fails was not preceded by a revocation. -/
lemma every_same_of_fault {l : OffStmt} {e : AuthEnv B} (hf : e.fault = true)
    (ho : Faultless user (tr ++ [⟨l, e, s, s⟩])) : Every (Same user) (tr ++ [⟨l, e, s, s⟩]) :=
  every_append (ho tr _ [] rfl hf) same_refl

lemma done_append {ev : OffEv B} (h : Done ks tr) (hf : ev.inp.fault = false) :
    Done ((revokes ev.name).toList ++ ks) (tr ++ [ev]) := by
  intro k hk
  rcases List.mem_append.mp hk with hk | hk
  · exact ⟨ev, List.mem_append_right _ (List.mem_singleton_self _), hf,
      Option.mem_toList.mp hk⟩
  · obtain ⟨ev', hev', h'⟩ := h k hk
    exact ⟨ev', List.mem_append_left _ hev', h'⟩

/-- A statement that does not fail by itself. -/
lemma wp_done {l : OffStmt} {g : AuthEnv B → AccessDb B → AccessDb B × Except SqlError α}
    (hg : ∀ e s, ∃ a, (g e s).2 = .ok a) (h : Done ks tr) :
    wp (offRules user) (orInternal (statement l g)).run
      (Stage user (Done ((revokes l).toList ++ ks))) tr s := by
  refine wp_stage_orInternal (wp_statement_cases trivial
    (fun s' e hf _ ho => every_same_of_fault hf ho) fun s' e hf _ _ => ?_)
  obtain ⟨a, ha⟩ := hg e s'
  rw [ha]
  have hf' : (⟨l, e, s', (g e s').1⟩ : OffEv B).inp.fault = false := hf
  exact done_append h hf'

lemma wp_done_onProjects {l : ProjStmt} {g : Env → ProjDb → ProjDb × Except SqlError α}
    (hg : ∀ e s, ∃ a, (g e s).2 = .ok a) (h : Done ks tr) :
    wp (offRules user) (orInternal (onProjects (statement l g))).run
      (Stage user (Done ((revokes (.proj l)).toList ++ ks))) tr s := by
  refine wp_stage_orInternal (wp_zoom_statement_cases (fun _ => rfl) trivial
    (fun s' e hf _ ho => every_same_of_fault hf ho) fun s' e hf _ _ => ?_)
  obtain ⟨a, ha⟩ := hg (projects.inp e) (projects.get s')
  rw [ha]
  have hf' : (⟨.proj l, e, s', projects.put (g (projects.inp e) (projects.get s')).1 s'⟩ :
      OffEv B).inp.fault = false := hf
  exact done_append h hf'

lemma wp_revokeAll (id : Ident) (now : ℤ) :
    wp (offRules user) (revokeAll id user now : OffHandler B OffboardResp).run
      (Stage user (Done [.accounts, .tokens, .orgs, .sessions, .groups, .grants])) tr s := by
  have hnil : Done [] tr := by simp [Done]
  refine wp_bind_stage (wp_done_onProjects (fun _ _ => ⟨_, rfl⟩) hnil) fun _ tr s h => ?_
  refine wp_bind_stage (wp_done_onProjects (fun _ _ => ⟨_, rfl⟩) h) fun _ tr s h => ?_
  refine wp_bind_stage (wp_done (fun _ _ => ⟨_, rfl⟩) h) fun _ tr s h => ?_
  refine wp_bind_stage (wp_done_onProjects (fun _ _ => ⟨_, rfl⟩) h) fun _ tr s h => ?_
  refine wp_bind_stage (wp_done (fun _ _ => ⟨_, rfl⟩) h) fun _ tr s h => ?_
  refine wp_bind_stage (wp_done (fun _ _ => ⟨_, rfl⟩) h) fun _ tr s h => ?_
  refine wp_bind_stage (wp_done (fun _ _ => ⟨_, rfl⟩) h) fun _ tr s h => ?_
  refine wp_bind_stage (wp_done_onProjects (fun _ _ => ⟨_, rfl⟩) h) fun _ tr s h => ?_
  exact wp_bind_stage (wp_done_onProjects (fun _ _ => ⟨_, rfl⟩) h) fun _ tr s h => h

abbrev SameProg (user : Ident) (p : Prog (AccessDb B) (AuthEnv B) OffStmt α) : Prop :=
  Guarantees (fun _ _ _ => True) (Same user) p

lemma wp_stage_same {ε : Type} {x : ExceptT ε (Prog (AccessDb B) (AuthEnv B) OffStmt) α}
    (hx : SameProg user x.run) (h : Every (Same user) tr) :
    wp (offRules user) x.run (Stage user (Every (Same user))) tr s := by
  refine wp_of_guarantees (J := fun tr _ => Every (Same user) tr) hx (fun _ _ _ h => h)
    (fun _ _ _ => trivial) (fun _ _ _ _ h _ => h) (fun _ _ h hev => every_append h hev)
    (fun r _ _ h => ?_) h
  cases r <;> exact h

/-- The tables of access are left as they are on the tables of the projects. -/
lemma same_zoom {p : Prog ProjDb Env ProjStmt α}
    (hp : Guarantees (fun _ _ _ => True) (fun ev => ev.post.access = ev.pre.access ∧
      ev.post.groupMembers = ev.pre.groupMembers ∧ ev.post.orgMembers = ev.pre.orgMembers) p) :
    SameProg user (zoom (projects : View ProjDb (AccessDb B) _ _ _ _) p) := by
  refine guarantees_zoom hp (fun _ _ _ _ => trivial) fun l e t s h => ?_
  obtain ⟨haccess, hgroups, horgs⟩ := h
  change s.access = _ at haccess
  change s.groupMembers = _ at hgroups
  change s.orgMembers = _ at horgs
  refine ⟨?_, ?_, rfl, ?_, rfl, rfl, rfl, rfl⟩
  · change s.access.rows.filter _ = _
    rw [haccess]
    rfl
  · change s.groupMembers.rows.filter _ = _
    rw [hgroups]
    rfl
  · change s.orgMembers.rows.filter _ = _
    rw [horgs]
    rfl

lemma same_select (l : ProjStmt) (g : ProjDb → α) :
    SameProg user (orInternal (onProjects (select l g) : OffRepo B α)).run :=
  guarantees_orInternal (same_zoom (guarantees_statement (fun _ _ => ⟨rfl, rfl, rfl⟩)
    fun _ _ => ⟨rfl, rfl, rfl⟩))

lemma same_createOffboarding (row : OffboardingRow) :
    SameProg user (orInternal (onProjects (createOffboarding row) : OffRepo B Unit)).run := by
  refine guarantees_orInternal (same_zoom (guarantees_statement (fun _ _ => ⟨rfl, rfl, rfl⟩)
    fun e s => ?_))
  dsimp only
  split
  · exact ⟨rfl, rfl, rfl⟩
  · next hg =>
    obtain ⟨t, -, rfl⟩ := Option.map_eq_some_iff.mp hg
    split <;> exact ⟨rfl, rfl, rfl⟩

lemma same_clock {l : ProjStmt} {ε : Type} {f : Env → α} :
    SameProg user (zoomE (projects : View ProjDb (AccessDb B) _ _ _ _)
      (ExceptT.mk (Prog.atom l fun e db => (db, .ok (f e))) : ExceptT ε _ α)).run :=
  guarantees_stmt (fun _ _ => same_refl) fun _ _ => guarantees_ret _

/-- An offboarding that succeeds has revoked everything that it revokes; one that fails has
revoked nothing. -/
lemma wp_offboard (caller user : Ident) (reason : Option String) :
    wp (offRules user) (offboard caller user reason : OffHandler B OffboardResp).run
      (Stage user (Done [.accounts, .tokens, .orgs, .sessions, .groups, .grants])) [] s := by
  refine wp_bind_stage (wp_stage_same ?_ every_nil) fun _ tr s h =>
    wp_bind_stage (wp_stage_same (same_select _ _) h) fun callerRoles tr s h =>
    wp_bind_stage (wp_stage_same (same_select _ _) h) fun targetRoles tr s h => ?_
  · refine guarantees_bind_except (same_select _ _) ?_
    rintro (_ | a)
    · exact guarantees_throw_except _
    · exact guarantees_pure_except _
  · cases mayOffboard callerRoles targetRoles with
    | some err => exact h
    | none =>
      exact wp_bind_stage (wp_stage_same same_clock h) fun now tr s h =>
        wp_bind_stage (wp_stage_same (guarantees_orInternal same_clock) h) fun id tr s h =>
        wp_bind_stage (wp_stage_same (same_createOffboarding _) h) fun _ tr s h =>
        wp_revokeAll id now

/-! ### Runs -/

structure OffReq where
  caller : Ident
  user : Ident
  reason : Option String

def code (q : OffReq) : Prog (AccessDb B) (AuthEnv B) OffStmt (Except ApiError OffboardResp) :=
  (offboard q.caller q.user q.reason).run

abbrev OffSess (B : Type) :=
  Sess OffReq (AccessDb B) (AuthEnv B) OffStmt (Except ApiError OffboardResp)

/-- Access of the kind was revoked, or is of a kind that no statement revokes. -/
def Revoked (tr : List (OffEv B)) (k : Kind) : Prop :=
  k = .reveals ∨ k = .sharing ∨ ∃ ev ∈ tr, ev.inp.fault = false ∧ revokes ev.name = some k

variable {X : Type} (w : X → AccessDb B → AccessDb B)

/-- The condition on a run. An offboarding begins when the user has no reveal grant on a
project of others and is in no sharing group; while it is under way nobody gives the user
access that was revoked; and no statement of it fails once something was revoked. -/
def Undisturbed (σ : OffSess B) : Session.Act OffReq (AuthEnv B) X → Prop
  | .op q => ¬Has σ.shared q.user .reveals ∧ ¬Has σ.shared q.user .sharing
  | .exec e => e.fault = true → ∀ c ∈ σ.cur, Every (Same c.req.user) c.trace
  | .env x => ∀ c ∈ σ.cur, c.prog.result = none → ∀ k, Revoked c.trace k →
    ¬Has σ.shared c.req.user k → ¬Has (w x σ.shared) c.req.user k

/-- The offboarding under way: it is on its way to its end, and what was revoked stays so. -/
structure Going (σ : OffSess B) (c : Session.Op OffReq (AccessDb B) (AuthEnv B) OffStmt
    (Except ApiError OffboardResp)) : Prop where
  faultless : Faultless c.req.user c.trace
  ends : wp (offRules c.req.user) c.prog (Stage c.req.user
    (Done [.accounts, .tokens, .orgs, .sessions, .groups, .grants])) c.trace σ.shared
  does : wp (promise (fun _ _ _ => True) (Does c.req.user)) c.prog
    (fun _ tr _ => Every (Does c.req.user) tr) c.trace σ.shared
  gone : c.prog.result = none → ∀ k, Revoked c.trace k → ¬Has σ.shared c.req.user k

variable {w}

/-- A statement of the offboarding. -/
lemma Going.exec {σ : OffSess B} {q : OffReq} {tr : List (OffEv B)} {l : OffStmt}
    {f : AuthEnv B → AccessDb B → AccessDb B}
    {k : AuthEnv B → AccessDb B → Prog (AccessDb B) (AuthEnv B) OffStmt _} {e : AuthEnv B}
    (h : Going σ ⟨q, tr, .stmt l f k⟩) (hc : σ.cur = some ⟨q, tr, .stmt l f k⟩)
    (hC : Undisturbed w σ (.exec e)) :
    let ev : OffEv B := ⟨l, e, σ.shared, f e σ.shared⟩
    Faultless q.user (tr ++ [ev]) ∧
    wp (offRules q.user) (k e σ.shared) (Stage q.user
      (Done [.accounts, .tokens, .orgs, .sessions, .groups, .grants])) (tr ++ [ev]) ev.post ∧
    wp (promise (fun _ _ _ => True) (Does q.user)) (k e σ.shared)
      (fun _ tr _ => Every (Does q.user) tr) (tr ++ [ev]) ev.post ∧
    ∀ kind, Revoked (tr ++ [ev]) kind → ¬Has ev.post q.user kind := by
  intro ev
  have hfaultless : Faultless q.user (tr ++ [ev]) :=
    ordered_append h.faultless fun hf => hC hf _ hc
  have hdoes := h.does.2 σ.shared e trivial trivial
  have hev : Does q.user ev := wp_every hdoes ev (List.mem_append_right _ (List.mem_singleton_self _))
  refine ⟨hfaultless, h.ends.2 σ.shared e trivial hfaultless, hdoes, fun kind hk => ?_⟩
  rcases hk with hk | hk | ⟨ev', hev', hf, hrev⟩
  · exact hev.2 kind (h.gone rfl kind (.inl hk))
  · exact hev.2 kind (h.gone rfl kind (.inr (.inl hk)))
  · rcases List.mem_append.mp hev' with hev' | hev'
    · exact hev.2 kind (h.gone rfl kind (.inr (.inr ⟨ev', hev', hf, hrev⟩)))
    · rw [List.mem_singleton.mp hev'] at hf hrev
      exact hev.1 hf kind hrev

lemma stage_of_any {ε : Type} {r : Except ε α} {s' : AccessDb B} (h : Stage user P r tr s) :
    Stage user P r tr s' := by
  cases r <;> exact h

lemma going_step {σ : OffSess B} {a : Session.Act OffReq (AuthEnv B) X}
    (hσ : ∀ c ∈ σ.cur, Going σ c) (hC : Undisturbed w σ a) :
    ∀ c ∈ (Session.step code w σ a).cur, Going (Session.step code w σ a) c := by
  rcases Session.step_cases (h := code) (w := w) σ a with ⟨q, rfl, hst⟩ |
    ⟨e, q, tr, l, f, k, rfl, hc, hst⟩ | ⟨x, rfl, hst⟩ | hst
  · rw [hst]
    rintro c ⟨⟩
    refine ⟨ordered_nil, wp_offboard q.caller q.user q.reason,
      does_offboard q.caller q.user q.reason [] _ every_nil, fun _ kind hk => ?_⟩
    rcases hk with rfl | rfl | ⟨ev, hev, -⟩
    · exact hC.1
    · exact hC.2
    · cases hev
  · rw [hst]
    rintro c ⟨⟩
    obtain ⟨hfaultless, hends, hdoes, hgone⟩ := (hσ _ hc).exec hc hC
    exact ⟨hfaultless, hends, hdoes, fun _ => hgone⟩
  · rw [hst]
    intro c hc
    have hgoing := hσ c hc
    refine ⟨hgoing.faultless, ?_, ?_, fun hlive kind hk =>
      hC c hc hlive kind hk (hgoing.gone hlive kind hk)⟩
    · exact wp_rely (fun _ _ _ _ _ _ => trivial) hgoing.ends (fun _ _ => trivial)
        fun _ _ => stage_of_any
    · exact wp_rely (fun _ _ _ _ _ _ => trivial) hgoing.does (fun _ _ => trivial) fun _ _ => id
  · rw [hst]
    exact hσ

/-- **Offboarding**: in every run along the condition, when a statement of an offboarding is
its last, then the user has no access left if it returns success, and no statement of it has
changed the user's access if it fails. -/
theorem offboard_revokes (Y : CredExt B) (w : X → AccessDb B → AccessDb B) (db : AccessDb B)
    (as : List (Session.Act OffReq (AuthEnv B) X)) (e : AuthEnv B)
    (has : Session.Along code w (Undisturbed w) (Session.init db) (as ++ [.exec e])) :
    let σ := Session.run code w (Session.init db) as
    let σ' := Session.run code w (Session.init db) (as ++ [.exec e])
    ∀ c ∈ σ.cur, c.prog.result = none → ∀ c' ∈ σ'.cur,
      (∀ resp, c'.prog.result = some (.ok resp) → Offboarded Y c'.req.user σ'.shared) ∧
      ∀ err, c'.prog.result = some (.error err) →
        Every (fun ev => SameAccess c'.req.user ev.pre ev.post) c'.trace := by
  intro σ σ' c hc hlive c' hc'
  obtain ⟨has, hlast, -⟩ := (Session.along_append as [.exec e] (Session.init db)).mp has
  have hgoing : ∀ c ∈ σ.cur, Going σ c :=
    Session.run_induction (P := fun σ => ∀ c ∈ σ.cur, Going σ c) (fun _ _ => going_step)
      (by simp [Session.init]) has
  have hstep : σ' = Session.step code w σ (.exec e) := Session.run_append _ as [.exec e]
  obtain ⟨q, tr, p⟩ := c
  cases p with
  | ret r => cases hlive
  | stmt l f k =>
    obtain ⟨-, hends, -, hgone⟩ := (hgoing _ hc).exec hc hlast
    have hexec : σ' = ⟨f e σ.shared, some ⟨q, tr ++ [⟨l, e, σ.shared, f e σ.shared⟩],
        k e σ.shared⟩⟩ := by
      rw [hstep]
      simp only [Session.step]
      rw [hc]
    rw [hexec] at hc' ⊢
    cases hc'
    refine ⟨fun resp hres => offboarded_of_not_has fun kind => hgone kind ?_, fun err hres => ?_⟩
    · have hret : k e σ.shared = .ret (.ok resp) := Prog.result_eq_some hres
      rw [hret] at hends
      cases kind with
      | reveals => exact .inl rfl
      | sharing => exact .inr (.inl rfl)
      | _ => exact .inr (.inr (hends _ (by simp)))
    · have hret : k e σ.shared = .ret (.error err) := Prog.result_eq_some hres
      rw [hret] at hends
      exact hends

/-- `alice` owns the organization 10, where `bob` is a member; `bob` has a session. `alice` has
the sharing group 5. -/
def staff : AccessDb (List ℕ) where
  secrets :=
    { proj :=
        { users := ⟨[(1, "alice"), (2, "bob")], by decide⟩
          organizations := .single (10, "acme")
          orgMembers := ⟨[⟨10, 1, .owner, 0⟩, ⟨10, 2, .member, 0⟩], by decide⟩
          projects := .empty
          userGroups := .empty
          groupMembers := .empty
          access := .empty
          offboardings := .empty
          sessions := [] }
      secrets := .empty
      revealGrants := .empty }
  cred := { Bearer.oneUser with
    auth :=
      { Bearer.oneUser.auth with sessions := ⟨[⟨"session", 2, 1000, 0⟩], by decide⟩ } }
  sharingGroups := ⟨[(5, 1)], by decide⟩
  groupMembers := .empty
  sharingKeys := .empty

/-- Others add users to sharing groups. -/
def inviting (x : Ident × Ident) (db : AccessDb (List ℕ)) : AccessDb (List ℕ) :=
  (alone ⟨0, 0, [], false⟩ (addGroupMember x.1 x.2 0).run db).2

/-- `alice` offboards `bob`, up to the last statement. -/
def byAlice : List (Session.Act OffReq (AuthEnv (List ℕ)) (Ident × Ident)) :=
  .op ⟨1, 2, none⟩ :: List.replicate 14 (.exec ⟨7, 70, [], false⟩)

lemma byAlice_undisturbed : Session.Along code inviting (Undisturbed inviting) (Session.init staff)
    (byAlice ++ [.exec ⟨7, 70, [], false⟩]) := by
  refine ⟨⟨?_, ?_⟩, ?_⟩
  · rintro ⟨r, hr, -⟩
    cases hr
  · rintro ⟨r, hr, -⟩
    cases hr
  · refine ⟨?_, ?_, ?_, ?_, ?_, ?_, ?_, ?_, ?_, ?_, ?_, ?_, ?_, ?_, ?_, trivial⟩ <;> exact nofun

/-- `bob` is offboarded. -/
theorem offboard_revokes_bob :
    let σ := Session.run code inviting (Session.init staff)
      (byAlice ++ [.exec ⟨7, 70, [], false⟩])
    Session.Along code inviting (Undisturbed inviting) (Session.init staff)
      (byAlice ++ [.exec ⟨7, 70, [], false⟩]) ∧
    (∃ c ∈ σ.cur, c.prog.result = some (.ok ⟨2, 0, 0, 1, 7⟩)) ∧
    Offboarded Bearer.bytes 2 σ.shared :=
  ⟨byAlice_undisturbed, ⟨_, rfl, rfl⟩,
    (offboard_revokes Bearer.bytes inviting staff byAlice ⟨7, 70, [], false⟩ byAlice_undisturbed
      _ rfl rfl _ rfl).1 _ rfl⟩

/-- Somebody who was added to a sharing group stays in it when the offboarding returns success;
and when the last statement of an offboarding fails, everything was revoked. -/
theorem offboard_incomplete :
    (¬∀ (db : AccessDb (List ℕ)) (as : List (Session.Act OffReq (AuthEnv (List ℕ)) (Ident × Ident)))
      (e : AuthEnv (List ℕ)),
      let σ := Session.run code inviting (Session.init db) as
      let σ' := Session.run code inviting (Session.init db) (as ++ [.exec e])
      ∀ c ∈ σ.cur, c.prog.result = none → ∀ c' ∈ σ'.cur, ∀ resp,
        c'.prog.result = some (.ok resp) → Offboarded Bearer.bytes c'.req.user σ'.shared) ∧
    ¬∀ (db : AccessDb (List ℕ)) (as : List (Session.Act OffReq (AuthEnv (List ℕ)) (Ident × Ident)))
      (e : AuthEnv (List ℕ)),
      let σ := Session.run code inviting (Session.init db) as
      let σ' := Session.run code inviting (Session.init db) (as ++ [.exec e])
      ∀ c ∈ σ.cur, c.prog.result = none → ∀ c' ∈ σ'.cur, ∀ err,
        c'.prog.result = some (.error err) →
        Every (fun ev => SameAccess c'.req.user ev.pre ev.post) c'.trace := by
  constructor
  · intro h
    have := (h staff (.env (5, 2) :: byAlice) ⟨7, 70, [], false⟩ _ rfl rfl _ rfl _ rfl).sharing
    revert this
    decide
  · intro h
    have hsame := h staff byAlice ⟨7, 70, [], true⟩ _ rfl rfl _ rfl _ rfl
    have := fun ev hev => (hsame ev hev).sessions
    revert this
    decide

end Vautr.OffboardRuns
