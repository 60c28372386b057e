import Vautr.Interleave
import Vautr.ProjectHandlers

/-!
The ranks of an organization, over any interleaving of requests that assign roles.

`enforce_role_rank` compares the caller's rank with the role that is assigned. The row that
`set_org_member` overwrites is not looked at: somebody who outranks the role that they
assign takes the role of anybody, an Owner included.
-/

namespace Vautr.OrgRoles

open Vautr.Atomic Vautr.Sql Vautr.Database Vautr.Api Vautr.Server Vautr.Interleave
open Vautr.Projects Vautr.ProjectHandlers

/-! ### The requests -/

/-- The requests that write org roles. -/
inductive RoleReq
  | addMember (id user : Ident) (req : MemberReq)
  | updateMember (id user : Ident) (req : MemberReq)
  | createGroup (id : Ident) (name : String) (description : Option String)

def RoleReq.toReq : RoleReq → ProjReq
  | .addMember id user req => .addMember id user req
  | .updateMember id user req => .updateMember id user req
  | .createGroup id name description => .createGroup id name description

/-- Requests with their callers. -/
def code (trim : String → String) (q : Ident × RoleReq) :
    Prog ProjDb Env ProjStmt (Except ApiError ProjReply) := (route trim q.1 q.2.toReq).run

abbrev RoleEv := Ev ProjDb Env ProjStmt

abbrev RoleSys := Sys (Ident × RoleReq) ProjDb Env ProjStmt (Except ApiError ProjReply)

abbrev RoleAct := Act (Ident × RoleReq) Env

/-! ### Ranks -/

/-- The rank that the handlers reckon with: who is not in the organization is a Member. -/
def rankIn (db : ProjDb) (org user : Ident) : ℕ := ((db.orgRole org user).getD .member).rank

def HasOwner (db : ProjDb) (org : Ident) : Prop := ∃ user, db.orgRole org user = some .owner

/-- One of the statements has created the organization. -/
def Created (tr : List RoleEv) (org : Ident) : Prop :=
  ∃ ev ∈ tr, ev.pre.organizations.get org = none ∧ (ev.post.organizations.get org).isSome

/-- The statement respects the ranks: when it changes the role of a user in an organization,
then the caller is in it and outranks both the old role and the new one, or has just created
the organization and becomes its Owner. -/
def Respects (caller : Ident) (tr : List RoleEv) (ev : RoleEv) : Prop :=
  ∀ org user, ev.post.orgRole org user ≠ ev.pre.orgRole org user →
    ∃ role, ev.post.orgRole org user = some role ∧
      ((user = caller ∧ role = .owner ∧ Created tr org) ∨
        ∃ own, ev.pre.orgRole org caller = some own ∧ role.rank < own.rank ∧
          ∀ old, ev.pre.orgRole org user = some old → old.rank < own.rank)

/-! ### What the statements do -/

/-- The statement sets the role of the user. -/
def Sets (org user : Ident) (role : OrgRole) (ev : RoleEv) : Prop :=
  ev.name = .setOrgMember org user role ∧
    ∀ o u, ev.post.orgRole o u = if o = org ∧ u = user then some role else ev.pre.orgRole o u

/-- What a statement does to the roles, after the statements before it. -/
inductive RoleStep (caller : Ident) (tr : List RoleEv) (ev : RoleEv) : Prop
  | quiet (h : ev.post.orgMembers = ev.pre.orgMembers)
  | found (org : Ident) (h : Sets org caller .owner ev) (hnew : Created tr org)
  | assign (org user : Ident) (role : OrgRole) (h : Sets org user role ev)
      (hrank : ∃ ev' ∈ tr.getLast?, role.rank < rankIn ev'.pre org caller)

/-- The statement leaves the members of organizations alone. -/
def Quiet (ev : RoleEv) : Prop := ev.post.orgMembers = ev.pre.orgMembers

variable {α β : Type} {caller : Ident} {trim : String → String} {s : ProjDb} {tr : List RoleEv}

abbrev QuietProg (p : Prog ProjDb Env ProjStmt α) : Prop := Guarantees (fun _ _ _ => True) Quiet p

lemma QuietProg.orders {p : Prog ProjDb Env ProjStmt α} (h : QuietProg p) :
    Orders (RoleStep caller) p := orders_of_guarantees h fun _ _ => .quiet

lemma quiet_statement {l : ProjStmt} {g : Env → ProjDb → ProjDb × Except SqlError α}
    (h : ∀ e s, (g e s).1.orgMembers = s.orgMembers) : QuietProg (statement l g).run :=
  guarantees_statement (fun _ _ => rfl) h

lemma quiet_select (l : ProjStmt) (g : ProjDb → α) : QuietProg (select l g : ProjRepo α).run :=
  quiet_statement fun _ _ => rfl

lemma quiet_insertWith {l : ProjStmt} {fk : ProjDb → Bool} {g : Env → ProjDb → Option ProjDb}
    (h : ∀ e s s', g e s = some s' → s'.orgMembers = s.orgMembers) :
    QuietProg (insertWith l fk g).run := by
  refine quiet_statement fun e s => ?_
  cases hg : g e s with
  | none => rfl
  | some s' =>
    dsimp only
    split
    · exact h e s s' hg
    · rfl

lemma quiet_newUuid : QuietProg newUuid.run :=
  guarantees_stmt (fun _ _ => rfl) fun _ _ => guarantees_ret _

lemma quiet_nowMs : QuietProg nowMs.run :=
  guarantees_stmt (fun _ _ => rfl) fun _ _ => guarantees_ret _

lemma quiet_grantProjectAccess {l : ProjStmt} (project : Ident) (grantee : Ident ⊕ Ident)
    (permission : ProjectPermission) (hide : Bool) (grantedBy : Ident) (now : ℤ) :
    QuietProg (grantProjectAccess l project grantee permission hide grantedBy now).run := by
  refine quiet_insertWith fun e s s' hg => ?_
  obtain ⟨t, -, rfl⟩ := Option.map_eq_some_iff.mp hg
  rfl

lemma quiet_createUserGroup (g : UserGroupRow) : QuietProg (createUserGroup g).run := by
  refine quiet_insertWith fun e s s' hg => ?_
  obtain ⟨t, -, rfl⟩ := Option.map_eq_some_iff.mp hg
  rfl

lemma quiet_orElse {x : ProjRepo (Option α)} (h : QuietProg x.run) (err : ApiError) :
    QuietProg (orElse x err).run := by
  refine guarantees_bind_except (guarantees_orInternal h) ?_
  rintro (_ | a)
  · exact guarantees_throw_except _
  · exact guarantees_pure_except _

lemma quiet_callerRoleInProject (p : ProjectRow) (user : Ident) :
    QuietProg (callerRoleInProject p user).run := by
  unfold callerRoleInProject
  cases p.orgId with
  | none => exact guarantees_pure_except _
  | some org =>
    exact guarantees_bind_except (guarantees_orInternal (quiet_select _ _))
      fun _ => guarantees_pure_except _

lemma quiet_effectivePerm (p : ProjectRow) (user : Ident) :
    QuietProg (effectivePerm p user).run := by
  refine guarantees_orInternal (guarantees_bind_except (quiet_select _ _) fun owner => ?_)
  split
  · exact guarantees_pure_except _
  · exact guarantees_bind_except (quiet_select _ _) fun _ =>
      guarantees_bind_except (quiet_select _ _) fun _ => guarantees_pure_except _

lemma quiet_requireCanManage (p : ProjectRow) (user : Ident) :
    QuietProg (requireCanManage p user).run := by
  unfold requireCanManage
  split
  · exact guarantees_pure_except _
  refine guarantees_bind_except (quiet_effectivePerm p user) fun perm => ?_
  split
  · exact guarantees_pure_except _
  refine guarantees_bind_except (quiet_callerRoleInProject p user) fun role => ?_
  split
  · exact guarantees_pure_except _
  · exact guarantees_throw_except _

lemma quiet_managedProject (id user : Ident) : QuietProg (managedProject id user).run :=
  guarantees_bind_except (quiet_orElse (quiet_select _ _) _) fun p =>
    guarantees_bind_except (quiet_requireCanManage p user) fun _ => guarantees_pure_except _

lemma quiet_memberResp (p : ProjectRow) (user : Ident) (grant : AccessRow) :
    QuietProg (memberResp p user grant).run :=
  guarantees_bind_except (guarantees_orInternal (quiet_select _ _)) fun _ =>
    guarantees_bind_except (quiet_callerRoleInProject p user) fun _ => guarantees_pure_except _

lemma quiet_groupResp (g : UserGroupRow) : QuietProg (groupResp g).run :=
  guarantees_bind_except (guarantees_orInternal (quiet_select _ _)) fun _ =>
    guarantees_pure_except _

/-! ### The statement that sets a role -/

/-- `set_org_member` sets the role, or does nothing. -/
lemma wp_setOrgMember {org user : Ident} {role : OrgRole} {now : ℤ} (htr : Ordered (RoleStep caller) tr)
    (h : ∀ ev, Sets org user role ev → RoleStep caller tr ev) :
    wp (following (RoleStep caller)) (setOrgMember org user role now).run
      (fun _ tr _ => Ordered (RoleStep caller) tr) tr s := by
  refine wp_statement htr (fun s' e _ _ => ordered_append htr (.quiet rfl)) fun s' e _ _ => ?_
  dsimp only
  split
  · refine ordered_append htr (h _ ⟨rfl, fun o u => ?_⟩)
    simp only [ProjDb.orgRole, Table.get_upsert, OrgMemberRow.key, Prod.mk.injEq]
    by_cases hkey : org = o ∧ user = u
    · obtain ⟨rfl, rfl⟩ := hkey
      cases s'.orgMembers.get (org, user) <;> simp
    · rw [if_neg hkey, if_neg fun h => hkey ⟨h.1.symm, h.2.symm⟩]
  · exact ordered_append htr (.quiet rfl)

/-- `create_org` fails, or the organization did not exist. -/
lemma wp_createOrg {org : Ident} {name : String}
    {P : Except SqlError Unit → List RoleEv → ProjDb → Prop} (htr : Ordered (RoleStep caller) tr)
    (herr : ∀ err ev, Quiet ev → P (.error err) (tr ++ [ev]) ev.post)
    (hok : ∀ ev, Quiet ev → Created (tr ++ [ev]) org → P (.ok ()) (tr ++ [ev]) ev.post) :
    wp (following (RoleStep caller)) (createOrg org name).run P tr s := by
  refine wp_statement htr (fun s' e _ _ => herr _ ⟨.createOrg, e, s', s'⟩ rfl) fun s' e _ _ => ?_
  dsimp only
  cases hins : s'.organizations.insert (org, name) with
  | none => exact herr _ ⟨.createOrg, e, s', s'⟩ rfl
  | some t =>
    refine hok ⟨.createOrg, e, s', { s' with organizations := t }⟩ rfl
      ⟨_, List.mem_append_right _ (List.mem_singleton_self _), (Table.insert_eq_some hins).1, ?_⟩
    change (t.get org).isSome
    rw [Table.get_insert hins, if_pos rfl]
    rfl

/-- An organization that did not exist is created, and the caller becomes its Owner. -/
lemma orders_ensureOrgForUser (now : ℤ) :
    Orders (RoleStep caller) (ensureOrgForUser caller now).run := by
  unfold ensureOrgForUser
  refine orders_bind_except (QuietProg.orders (quiet_select _ _)) ?_
  rintro (_ | org)
  · refine orders_bind_except (QuietProg.orders quiet_newUuid) fun org tr s htr => ?_
    rw [wp_bind_except]
    refine wp_createOrg htr (fun _ ev hev => ordered_append htr (.quiet hev)) fun ev hev hnew => ?_
    dsimp only
    rw [wp_bind_except]
    refine wp_mono (fun r tr s htr => ?_) (wp_setOrgMember (ordered_append htr (.quiet hev))
      fun ev' hev' => .found org hev' hnew)
    cases r with
    | ok _ => exact htr
    | error _ => exact htr
  · exact orders_ret _

lemma orders_projectOrg (p : ProjectRow) (now : ℤ) :
    Orders (RoleStep caller) (projectOrg p caller now).run := by
  unfold projectOrg
  cases p.orgId with
  | none => exact orders_bind (orders_ensureOrgForUser now) fun _ => orders_ret _
  | some org => exact orders_ret _

/-- A role is assigned right after the caller's was read, and ranks below it. -/
lemma orders_assignRole (p : ProjectRow) (user : Ident) (now : ℤ) (role : Option OrgRole) :
    Orders (RoleStep caller) (assignRole p caller user now role).run := by
  cases role with
  | none => exact orders_ret _
  | some role =>
    refine orders_bind_except (orders_projectOrg p now) fun org tr s htr => ?_
    rw [wp_bind_except, wp_orInternal]
    refine wp_statement htr (fun s' e _ _ => ordered_append htr (.quiet rfl)) fun s' e _ _ => ?_
    have htr' : Ordered (RoleStep caller) (tr ++ [⟨.getOrgRole, e, s', s'⟩]) :=
      ordered_append htr (.quiet rfl)
    dsimp only [Except.mapError]
    rw [wp_bind_except]
    unfold enforceRoleRank
    split
    · exact htr'
    · next hrank =>
      rw [wp_pure_except]
      dsimp only
      rw [wp_orInternal]
      refine wp_setOrgMember htr' fun ev hev =>
        .assign org user role hev ⟨⟨.getOrgRole, e, s', s'⟩, ?_, ?_⟩
      · exact List.getLast?_concat
      · exact not_le.mp hrank

lemma orders_addMember (id user : Ident) (req : MemberReq) :
    Orders (RoleStep caller) (addMember id caller user req).run := by
  refine orders_bind_except (QuietProg.orders (quiet_managedProject id caller)) fun p =>
    orders_bind_except (QuietProg.orders (quiet_orElse (quiet_select _ _) _)) fun _ =>
    orders_bind_except (QuietProg.orders quiet_nowMs) fun now =>
    orders_bind_except (orders_assignRole p user now req.role) fun _ => QuietProg.orders ?_
  exact guarantees_bind_except (guarantees_orInternal (quiet_grantProjectAccess _ _ _ _ _ _))
    fun _ => guarantees_bind_except (quiet_orElse (quiet_select _ _) _)
    fun grant => quiet_memberResp p user grant

lemma orders_updateMember (id user : Ident) (req : MemberReq) :
    Orders (RoleStep caller) (updateMember id caller user req).run := by
  refine orders_bind_except (QuietProg.orders (quiet_managedProject id caller)) fun p =>
    orders_bind_except (QuietProg.orders (quiet_orElse (quiet_select _ _) _)) fun existing =>
    orders_bind_except (QuietProg.orders quiet_nowMs) fun now =>
    orders_bind_except (orders_assignRole p user now req.role) fun _ => QuietProg.orders ?_
  exact guarantees_bind_except (guarantees_orInternal (quiet_grantProjectAccess _ _ _ _ _ _))
    fun _ => guarantees_bind_except (quiet_orElse (quiet_select _ _) _)
    fun grant => quiet_memberResp p user grant

lemma orders_createGroup (id : Ident) (name : String) (description : Option String) :
    Orders (RoleStep caller) (createGroup trim id caller name description).run := by
  unfold createGroup
  refine orders_bind_except (QuietProg.orders ?_) fun _ =>
    orders_bind_except (QuietProg.orders (quiet_managedProject id caller)) fun p =>
    orders_bind_except (QuietProg.orders quiet_nowMs) fun now =>
    orders_bind_except (orders_projectOrg p now) fun org => QuietProg.orders ?_
  · unfold validateName
    split
    · exact guarantees_throw_except _
    · exact guarantees_pure_except _
  · exact guarantees_bind_except (guarantees_orInternal quiet_newUuid) fun gid =>
      guarantees_bind_except (guarantees_orInternal (quiet_createUserGroup _)) fun _ =>
      guarantees_bind_except (guarantees_orInternal (quiet_grantProjectAccess _ _ _ _ _ _)) fun _ =>
      guarantees_bind_except (quiet_orElse (quiet_select _ _) _) fun g => quiet_groupResp g

lemma orders_code (q : Ident × RoleReq) : Orders (RoleStep q.1) (code trim q) := by
  obtain ⟨caller, req⟩ := q
  cases req with
  | addMember id user req => exact orders_map_except _ (orders_addMember id user req)
  | updateMember id user req => exact orders_map_except _ (orders_updateMember id user req)
  | createGroup id name description =>
    exact orders_map_except _ (orders_createGroup id name description)

/-! ### Runs -/

/-- When a role is assigned, the target has none in the organization or one below the
caller's, and the caller's is still the one that the request has read. -/
def Outranked (caller : Ident) (tr : List RoleEv) (db : ProjDb) : ProjStmt → Prop
  | .setOrgMember org user role => role ≠ .owner →
    (∀ old ∈ db.orgRole org user, old.rank < rankIn db org caller) ∧
      ∀ ev ∈ tr.getLast?, rankIn ev.pre org caller = rankIn db org caller
  | _ => True

/-- The condition on a run: the target of every assignment is outranked. -/
def Outranks (σ : RoleSys) : RoleAct → Prop
  | .call _ => True
  | .exec i _ => ∀ c ∈ σ.calls[i]?, ∀ l ∈ c.prog.next, Outranked c.req.1 c.trace σ.shared l

lemma rank_lt_three {role : OrgRole} : role.rank ≤ 3 := by cases role <;> decide

/-- An assignment to somebody who is outranked. -/
lemma RoleStep.respects {ev : RoleEv} (h : RoleStep caller tr ev)
    (hC : Outranked caller tr ev.pre ev.name) : Respects caller tr ev := by
  intro org user hne
  cases h with
  | quiet h => exact absurd (by rw [ProjDb.orgRole, ProjDb.orgRole, h]) hne
  | found o h hnew =>
    rw [h.2] at hne ⊢
    split at hne
    · next hkey =>
      obtain ⟨rfl, rfl⟩ := hkey
      exact ⟨.owner, if_pos ⟨rfl, rfl⟩, .inl ⟨rfl, rfl, hnew⟩⟩
    · exact absurd rfl hne
  | assign o u role h hrank =>
    rw [h.2] at hne ⊢
    split at hne
    · next hkey =>
      obtain ⟨rfl, rfl⟩ := hkey
      obtain ⟨ev', hlast, hlt⟩ := hrank
      have howner : role ≠ .owner := by
        rintro rfl
        exact absurd hlt (not_lt.mpr rank_lt_three)
      rw [h.1] at hC
      obtain ⟨hold, hsame⟩ := hC howner
      rw [hsame ev' hlast] at hlt
      refine ⟨role, if_pos ⟨rfl, rfl⟩, .inr ?_⟩
      cases hown : ev.pre.orgRole org caller with
      | none =>
        rw [rankIn, hown] at hlt
        exact absurd hlt (Nat.not_lt_zero _)
      | some own =>
        rw [rankIn, hown] at hlt hold
        exact ⟨own, rfl, hlt, hold⟩
    · exact absurd rfl hne

/-- Owners stay. -/
lemma Respects.owner {ev : RoleEv} (h : Respects caller tr ev) {org user : Ident}
    (ho : ev.pre.orgRole org user = some .owner) : ev.post.orgRole org user = some .owner := by
  by_contra hne
  obtain ⟨role, hpost, ⟨-, rfl, -⟩ | ⟨own, -, -, hlt⟩⟩ := h org user (by rwa [ho])
  · exact hne hpost
  · exact absurd (hlt _ ho) (not_lt.mpr rank_lt_three)

/-- The statements of every request come in order. -/
abbrev Orderly (σ : RoleSys) : Prop :=
  Sound (fun q => following (RoleStep q.1)) (fun q _ tr _ => Ordered (RoleStep q.1) tr)
    (fun _ _ => True) σ

/-- **Ranks**: in every run in which the targets of assignments are outranked, every
statement of every request respects the ranks, and an organization that has an Owner keeps
one. -/
theorem ranks_respected (trim : String → String) (db : ProjDb) (as : List RoleAct)
    (has : Along (code trim) Outranks (init db) as) :
    (∀ c ∈ (run (code trim) (init db) as).calls, Ordered (Respects c.req.1) c.trace) ∧
    ∀ org, HasOwner db org → HasOwner (run (code trim) (init db) as).shared org := by
  suffices hinv : Orderly (run (code trim) (init db) as) ∧
      (∀ c ∈ (run (code trim) (init db) as).calls, Ordered (Respects c.req.1) c.trace) ∧
      ∀ org, HasOwner db org → HasOwner (run (code trim) (init db) as).shared org from hinv.2
  refine run_sound (C := Outranks) (P := fun σ => (∀ c ∈ σ.calls, Ordered (Respects c.req.1)
    c.trace) ∧ ∀ org, HasOwner db org → HasOwner σ.shared org)
    (fun σ q _ => orders_code q [] _ ordered_nil) (fun q => guarantees_true _)
    (fun _ _ _ _ => trivial) (fun _ _ _ _ _ => id) (fun _ _ _ _ _ _ _ _ _ _ => trivial)
    ?_ ?_ ⟨sound_init db, by simp [init], fun _ h => h⟩ has
  · rintro σ q - ⟨hresp, howner⟩
    refine ⟨fun c hc => ?_, howner⟩
    rcases List.mem_append.mp hc with hc | hc
    · exact hresp c hc
    · rw [List.mem_singleton.mp hc]
      exact ordered_nil
  · rintro σ i e q tr l f k hc hC - hsound ⟨hresp, howner⟩
    have hlt := (List.getElem?_eq_some_iff.mp hc).1
    have hstep : RoleStep q.1 tr ⟨l, e, σ.shared, f e σ.shared⟩ := by
      have hheld := hsound.held i _ (List.getElem?_set_self hlt)
      have hord : Ordered (RoleStep q.1) (tr ++ [⟨l, e, σ.shared, f e σ.shared⟩]) := by
        cases hk : k e σ.shared with
        | ret a => rwa [hk] at hheld
        | stmt l' f' k' => rw [hk] at hheld; exact hheld.1
      exact hord tr _ [] rfl
    have hnew := hstep.respects (hC _ hc l rfl)
    refine ⟨fun c hmem => ?_, fun org horg => ?_⟩
    · obtain ⟨j, hj⟩ := List.mem_iff_getElem?.mp hmem
      rcases getElem?_set_cases hj with ⟨-, rfl⟩ | ⟨-, hj⟩
      · exact ordered_append (hresp _ (List.mem_of_getElem? hc)) hnew
      · exact hresp c (List.mem_of_getElem? hj)
    · obtain ⟨user, huser⟩ := howner org horg
      exact ⟨user, hnew.owner huser⟩

/-- In the organization 10 `carol` is the Owner and `bob` an Admin; `bob` has a project in it. -/
def acme : ProjDb where
  users := ⟨[(1, "alice"), (2, "bob"), (3, "carol")], by decide⟩
  organizations := ⟨[(10, "acme")], by decide⟩
  orgMembers := ⟨[⟨10, 3, .owner, 0⟩, ⟨10, 2, .admin, 0⟩], by decide⟩
  projects := ⟨[⟨100, "P", none, .shared, some 10, 2, 0, 0⟩], by decide⟩
  userGroups := .empty
  groupMembers := .empty
  access := .empty
  offboardings := .empty
  sessions := []

/-- `bob` makes a user a Manager. -/
def byBob (user : Ident) : List RoleAct :=
  .call (2, .addMember 100 user ⟨some .manager, none, none⟩) ::
    List.replicate 10 (.exec 0 ⟨7, 70, false⟩)

instance (caller : Ident) (tr : List RoleEv) (db : ProjDb) (l : ProjStmt) :
    Decidable (Outranked caller tr db l) := by
  unfold Outranked
  split <;> infer_instance

instance (σ : RoleSys) (a : RoleAct) : Decidable (Outranks σ a) := by
  unfold Outranks
  split <;> infer_instance

/-- `bob` makes `alice` a Manager, who was in no organization. -/
theorem ranks_respected_alice :
    Along (code id) Outranks (init acme) (byBob 1) ∧
    ∀ org, HasOwner acme org → HasOwner (run (code id) (init acme) (byBob 1)).shared org :=
  ⟨by decide, (ranks_respected id acme (byBob 1) (by decide)).2⟩

/-- The Admin makes the only Owner a Manager. -/
theorem owner_demoted : ¬∀ (db : ProjDb) (as : List RoleAct),
    (∀ c ∈ (run (code id) (init db) as).calls, Ordered (Respects c.req.1) c.trace) ∧
    ∀ org, HasOwner db org → HasOwner (run (code id) (init db) as).shared org := by
  intro h
  obtain ⟨user, huser⟩ := (h acme (byBob 3)).2 10 ⟨3, by decide⟩
  obtain ⟨r, hr, hrole⟩ := Option.map_eq_some_iff.mp huser
  have hall : ∀ r ∈ (run (code id) (init acme) (byBob 3)).shared.orgMembers.rows,
      r.role ≠ .owner := by decide
  exact hall r (Table.get_mem hr) hrole

end Vautr.OrgRoles
