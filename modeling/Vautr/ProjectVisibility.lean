import Mathlib.Data.List.Perm.Basic
import Vautr.Secrets

/-!
Who sees a project, and with what permission: the four places in the code that say it agree.

`list_projects_for_user` collects ids with four queries, `ensure_visible` asks for one
project, and `effective_permission` and `user_project_permission` resolve grants, the former
with two queries and the latter with one. All of them come down to the same relation between a
user and a project.
-/

namespace Vautr.ProjectVisibility

open Vautr.Atomic Vautr.Session Vautr.Sql Vautr.Database Vautr.Api Vautr.Server Vautr.Projects
open Vautr.ProjectHandlers Vautr.Secrets

variable {B : Type}

/-! ### The relation -/

/-- A grant on the project reaches the user. -/
def Granted (db : ProjDb) (project user : Ident) : Prop :=
  ∃ r ∈ db.access.rows, r.projectId = project ∧ (r.grantee = .inl user ∨ db.toGroupOf user r = true)

/-- The user is Owner or Admin of the organization of the project. -/
def ManagesOrg (db : ProjDb) (p : ProjectRow) (user : Ident) : Prop :=
  ∃ org ∈ p.orgId, ∃ role ∈ db.orgRole org user, role.canManageOrg = true

def Sees (db : ProjDb) (p : ProjectRow) (user : Ident) : Prop :=
  p.ownerUserId = user ∨ Granted db p.id user ∨ ManagesOrg db p user

/-- The permission that the grants on a project give. -/
def permission (db : ProjDb) (project user : Ident) : Option ProjectPermission :=
  if (db.projects.get project).map (·.ownerUserId) = some user then some .canManage
  else (db.viaGroup project user).foldl maxPerm ((db.direct project user).foldl maxPerm none)

/-! ### Permissions -/

lemma level_injective {a b : ProjectPermission} (h : a.level = b.level) : a = b := by
  cases a <;> cases b <;> first | rfl | cases h

/-- The order in which grants are looked at does not matter. -/
instance : RightCommutative maxPerm where
  right_comm a b c := by
    rcases a with _ | a
    · simp only [maxPerm]
      split
      · next h =>
        split
        · next h' => rw [level_injective (le_antisymm h' h)]
        · rfl
      · next h =>
        split
        · rfl
        · next h' => omega
    · simp only [maxPerm]
      cases a <;> cases b <;> cases c <;> rfl

lemma foldl_stronger (l : List ProjectPermission) (best : Option ProjectPermission) :
    l.foldl stronger (best.map .ofPermission) = (l.foldl maxPerm best).map .ofPermission := by
  induction l generalizing best with
  | nil => rfl
  | cons p l ih =>
    have hround : stronger (best.map .ofPermission) p = (maxPerm best p).map .ofPermission := by
      rcases best with _ | b
      · cases p <;> rfl
      · cases b <;> cases p <;> rfl
    rw [List.foldl_cons, List.foldl_cons, hround, ih]

lemma isSome_foldl_maxPerm (l : List ProjectPermission) (best : Option ProjectPermission) :
    (l.foldl maxPerm best).isSome ↔ best.isSome ∨ l ≠ [] := by
  induction l generalizing best with
  | nil => simp
  | cons p l ih =>
    have hround : (maxPerm best p).isSome = true := by
      cases best with
      | none => rfl
      | some b => simp only [maxPerm]; split <;> rfl
    rw [List.foldl_cons, ih, hround]
    simp

lemma toGroupOf_left {db : ProjDb} {user : Ident} {r : AccessRow} (h : r.grantee = .inl user) :
    db.toGroupOf user r = false := by
  simp [ProjDb.toGroupOf, h]

/-- One query for all grants, or one for those of the user and one for those of groups. -/
lemma granted_perm (db : ProjDb) (project user : Ident) :
    (granted db project user).Perm (db.direct project user ++ db.viaGroup project user) := by
  have hsplit := List.filter_append_perm (fun r : AccessRow => decide (r.grantee = .inl user))
    (db.access.rows.filter fun r => r.projectId = project &&
      (r.grantee = .inl user || db.toGroupOf user r))
  have hdirect : (db.access.rows.filter fun r => r.projectId = project &&
      (r.grantee = .inl user || db.toGroupOf user r)).filter (fun r => r.grantee = .inl user) =
      db.access.rows.filter fun r => r.projectId = project && r.grantee = .inl user := by
    rw [List.filter_filter]
    refine List.filter_congr fun r _ => ?_
    by_cases h : r.grantee = .inl user <;> simp [h]
  have hgroup : (db.access.rows.filter fun r => r.projectId = project &&
      (r.grantee = .inl user || db.toGroupOf user r)).filter
        (fun r => !decide (r.grantee = .inl user)) =
      (db.groupRows user).filter fun r => r.projectId = project := by
    rw [ProjDb.groupRows, List.filter_filter, List.filter_filter]
    refine List.filter_congr fun r _ => ?_
    by_cases h : r.grantee = .inl user
    · simp [h, toGroupOf_left h]
    · simp [h]
  rw [hdirect, hgroup] at hsplit
  rw [ProjDb.direct, ProjDb.viaGroup, ← List.map_append]
  exact hsplit.symm.map _

/-- The two resolvers of permissions. -/
lemma foldl_granted (db : ProjDb) (project user : Ident) :
    (granted db project user).foldl stronger none =
      ((db.viaGroup project user).foldl maxPerm
        ((db.direct project user).foldl maxPerm none)).map .ofPermission := by
  rw [← List.foldl_append, ← (granted_perm db project user).foldl_eq]
  exact foldl_stronger _ none

lemma mem_direct {db : ProjDb} {project user : Ident} : db.direct project user ≠ [] ↔
    ∃ r ∈ db.access.rows, r.projectId = project ∧ r.grantee = .inl user := by
  rw [ProjDb.direct, ne_eq, List.map_eq_nil_iff, List.filter_eq_nil_iff]
  simp

lemma mem_viaGroup {db : ProjDb} {project user : Ident} : db.viaGroup project user ≠ [] ↔
    ∃ r ∈ db.access.rows, r.projectId = project ∧ db.toGroupOf user r = true := by
  rw [ProjDb.viaGroup, ProjDb.groupRows, List.filter_filter, ne_eq, List.map_eq_nil_iff,
    List.filter_eq_nil_iff]
  simp

/-- A user has a permission as the owner or by a grant. -/
lemma isSome_permission {db : ProjDb} {project user : Ident} :
    (permission db project user).isSome ↔
      (db.projects.get project).map (·.ownerUserId) = some user ∨ Granted db project user := by
  unfold permission
  split
  · next h => simp [h]
  · next h =>
    rw [isSome_foldl_maxPerm, isSome_foldl_maxPerm, mem_direct, mem_viaGroup]
    constructor
    · rintro ((hnone | ⟨r, hr, hp, hg⟩) | ⟨r, hr, hp, hg⟩)
      · cases hnone
      · exact .inr ⟨r, hr, hp, .inl hg⟩
      · exact .inr ⟨r, hr, hp, .inr hg⟩
    · rintro (howner | ⟨r, hr, hp, hg | hg⟩)
      · exact absurd howner h
      · exact .inl (.inr ⟨r, hr, hp, hg⟩)
      · exact .inr ⟨r, hr, hp, hg⟩

/-! ### What the functions return -/

section Alone

variable {e : Env} (he : e.fault = false) (db : ProjDb)
include he

lemma alone_effectivePermission (project user : Ident) :
    alone e (effectivePermission project user).run db = (.ok (permission db project user), db) := by
  refine (alone_bind_ok (alone_select he _ _ db)).trans ?_
  unfold permission
  split
  · rfl
  · refine (alone_bind_ok (alone_select he _ _ db)).trans ?_
    refine (alone_bind_ok (alone_select he _ _ db)).trans ?_
    rfl

lemma alone_callerRoleInProject (p : ProjectRow) (user : Ident) :
    alone e (callerRoleInProject p user).run db =
      (.ok ((p.orgId.bind fun org => db.orgRole org user).getD .member), db) := by
  unfold callerRoleInProject
  cases p.orgId with
  | none => rfl
  | some org =>
    refine (alone_bind_ok (alone_orInternal (alone_select he _ _ db))).trans ?_
    rfl

omit he in
lemma canManageOrg_iff (p : ProjectRow) (user : Ident) :
    ((p.orgId.bind fun org => db.orgRole org user).getD .member).canManageOrg = true ↔
      ManagesOrg db p user := by
  unfold ManagesOrg
  cases p.orgId with
  | none => simp [OrgRole.canManageOrg]
  | some org =>
    cases hrole : db.orgRole org user with
    | none => simp [hrole, OrgRole.canManageOrg]
    | some role => simp [hrole]

lemma alone_ensureVisible {p : ProjectRow} (hp : p ∈ db.projects.rows) (user : Ident) :
    (alone e (ensureVisible p user).run db).1 = .ok () ↔ Sees db p user := by
  have hget : (db.projects.get p.id).map (·.ownerUserId) = some p.ownerUserId := by
    rw [Table.get_of_mem hp]
    rfl
  unfold ensureVisible Sees
  split
  · next h => simp [h]
  · next howner =>
    rw [alone_bind_ok (alone_callerRoleInProject he db p user)]
    split
    · next h => simp [(canManageOrg_iff db p user).mp h]
    · next h =>
      rw [effectivePerm, alone_bind_ok (alone_orInternal (alone_effectivePermission he db p.id user))]
      have hiff : (permission db p.id user).isSome ↔ _ := isSome_permission
      rw [hget, Option.some.injEq, or_iff_right howner] at hiff
      split
      · next hperm => simp [hiff.mp hperm]
      · next hperm =>
        rw [hiff] at hperm
        rw [canManageOrg_iff] at h
        simp [howner, hperm, h]

/-- The ids that the four queries collect. -/
def visibleIds (db : ProjDb) (user : Ident) : List Ident :=
  ((db.projects.rows.filter fun p => p.ownerUserId = user).map (·.id) ++
    (db.access.rows.filter fun r => r.grantee = .inl user).map (·.projectId) ++
    (db.groupRows user).map (·.projectId) ++
    (db.projects.rows.filter fun p => p.orgId.any fun org =>
      (db.orgRole org user).any (·.canManageOrg)).map (·.id)).dedup

omit he in
lemma mem_visibleIds {p : ProjectRow} (hp : p ∈ db.projects.rows) (user : Ident) :
    p.id ∈ visibleIds db user ↔ Sees db p user := by
  have hself : ∀ {P : ProjectRow → Prop}, (∃ p' ∈ db.projects.rows, P p' ∧ p'.id = p.id) ↔ P p := by
    intro P
    constructor
    · rintro ⟨p', hp', h, hid⟩
      rwa [← Table.eq_of_key hp' hp hid]
    · exact fun h => ⟨p, hp, h, rfl⟩
  have hmanages : (p.orgId.any fun org => (db.orgRole org user).any (·.canManageOrg)) = true ↔
      ManagesOrg db p user := by
    simp [ManagesOrg, Option.any_eq_true]
  simp only [visibleIds, List.mem_dedup, List.mem_append, List.mem_map, List.mem_filter,
    decide_eq_true_eq, and_assoc, hself, hmanages, ProjDb.groupRows]
  constructor
  · rintro (((howner | ⟨r, hr, hg, hid⟩) | ⟨r, hr, hg, hid⟩) | hmanages)
    · exact .inl howner
    · exact .inr (.inl ⟨r, hr, hid, .inl hg⟩)
    · exact .inr (.inl ⟨r, hr, hid, .inr hg⟩)
    · exact .inr (.inr hmanages)
  · rintro (howner | ⟨r, hr, hid, hg | hg⟩ | hmanages)
    · exact .inl (.inl (.inl howner))
    · exact .inl (.inl (.inr ⟨r, hr, hg, hid⟩))
    · exact .inl (.inr ⟨r, hr, hg, hid⟩)
    · exact .inr hmanages

lemma alone_listProjectsForUser (user : Ident) :
    alone e (listProjectsForUser user).run db =
      (.ok (((visibleIds db user).filterMap db.projects.get).insertionSort
        (·.createdAt ≤ ·.createdAt)), db) := by
  refine (alone_bind_ok (alone_select he _ _ db)).trans ?_
  refine (alone_bind_ok (alone_select he _ _ db)).trans ?_
  refine (alone_bind_ok (alone_select he _ _ db)).trans ?_
  refine (alone_bind_ok (alone_select he _ _ db)).trans ?_
  refine (alone_bind_ok (alone_mapM (fun id => alone_select he _ _ db) _)).trans ?_
  rw [alone_pure, List.reduceOption, List.filterMap_map]
  rfl

lemma alone_userProjectPermission (db : SecretsDb B) (project user : Ident) :
    alone e (userProjectPermission project user).run db =
      (.ok ((permission db.proj project user).map .ofPermission), db) := by
  refine (alone_bind_ok (alone_select he _ _ db)).trans ?_
  unfold permission
  have howns : owns db.proj project user = true ↔
      (db.proj.projects.get project).map (·.ownerUserId) = some user := by
    simp [owns, Option.any_eq_true]
  split
  · next h => rw [if_pos (howns.mp h)]; rfl
  · next h =>
    rw [if_neg (mt howns.mpr h)]
    refine (alone_bind_ok (alone_select he _ _ db)).trans ?_
    rw [alone_pure, foldl_granted]

end Alone

/-- **One relation**: in every state, the projects listed for a user are those that
`ensure_visible` accepts, each of them once, and the two resolvers of permissions agree. -/
theorem visibility_agrees (db : SecretsDb B) (now : ℤ) (uuid user : Ident) :
    let e : Env := ⟨now, uuid, false⟩
    (∃ rows, alone e (listProjectsForUser user).run db.proj = (.ok rows, db.proj) ∧
      (rows.map (·.id)).Nodup ∧ (∀ p ∈ rows, p ∈ db.proj.projects.rows) ∧
      ∀ p ∈ db.proj.projects.rows,
        p ∈ rows ↔ (alone e (ensureVisible p user).run db.proj).1 = .ok ()) ∧
    ∀ project, ∃ perm,
      alone e (effectivePermission project user).run db.proj = (.ok perm, db.proj) ∧
      alone e (userProjectPermission project user).run db = (.ok (perm.map .ofPermission), db) := by
  intro e
  have he : e.fault = false := rfl
  refine ⟨⟨_, alone_listProjectsForUser he db.proj user, ?_, ?_, ?_⟩, fun project =>
    ⟨_, alone_effectivePermission he db.proj project user,
      alone_userProjectPermission he db project user⟩⟩
  · rw [((List.perm_insertionSort _ _).map _).nodup_iff, Table.map_key_filterMap_get]
    exact (List.nodup_dedup _).filter _
  · intro p hp
    rw [List.mem_insertionSort, List.mem_filterMap] at hp
    obtain ⟨id, -, hget⟩ := hp
    exact Table.get_mem hget
  · intro p hp
    rw [alone_ensureVisible he db.proj hp, ← mem_visibleIds db.proj hp user, List.mem_insertionSort,
      List.mem_filterMap]
    constructor
    · rintro ⟨id, hid, hget⟩
      rwa [Table.get_key hget]
    · exact fun hid => ⟨p.id, hid, Table.get_of_mem hp⟩

end Vautr.ProjectVisibility
