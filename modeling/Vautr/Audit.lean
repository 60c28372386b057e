import Vautr.ProjectHandlers
import Vautr.Zoom

/-!
The audit log: `GET /audit` (`handlers/audit.rs`, `repository/audit.rs`) for a caller that
`auth_user` has identified.

The log has no column for an organization. Whoever is Owner or Admin of any organization
reads all of it; everybody else reads the events about themselves, without the addresses.
-/

namespace Vautr.Audit

open Vautr.Atomic Vautr.Session Vautr.Sql Vautr.Database Vautr.Api Vautr.Server Vautr.Zoom
open Vautr.Projects

/-! ### The log -/

/-- Row mirror of `audit_log`. -/
structure AuditRow where
  id : ℤ
  userId : Option Ident
  action : String
  actor : Option String
  detail : Option String
  createdAt : ℤ
  eventType : Option String
  resourceType : Option String
  resourceId : Option String
  ipAddress : Option String
  deriving DecidableEq

structure AuditFilter where
  userId : Option Ident
  actor : Option String
  eventType : Option String
  resourceType : Option String
  resourceId : Option String
  from' : Option ℤ
  to' : Option ℤ

/-- A column that is `NULL` equals nothing. -/
def AuditFilter.selects (f : AuditFilter) (r : AuditRow) : Bool :=
  f.userId.all (fun u => r.userId = some u) && f.actor.all (fun a => r.actor = some a) &&
    f.eventType.all (fun t => r.eventType = some t) &&
    f.resourceType.all (fun t => r.resourceType = some t) &&
    f.resourceId.all (fun i => r.resourceId = some i) &&
    f.from'.all (· ≤ r.createdAt) && f.to'.all (r.createdAt ≤ ·)

structure AuditDb where
  proj : ProjDb
  log : Table AuditRow.id

inductive AuditStmt
  | proj (l : ProjStmt)
  | userIsOrgAdmin
  | queryAuditEvents
  deriving DecidableEq

abbrev AuditRepo := Query AuditDb Env AuditStmt

abbrev AuditHandler := Handler AuditDb Env AuditStmt

/-- The tables of the projects. -/
def projects : View ProjDb AuditDb Env Env ProjStmt AuditStmt where
  get db := db.proj
  put s db := { db with proj := s }
  inp e := e
  name := .proj
  get_put _ _ := rfl

/-- The user is Owner or Admin of some organization, in one state. -/
def isOrgAdmin (db : ProjDb) (user : Ident) : Bool :=
  db.orgMembers.rows.any fun r => r.userId = user && r.role.canManageOrg

def userIsOrgAdmin (user : Ident) : AuditRepo Bool :=
  select .userIsOrgAdmin fun db => isOrgAdmin db.proj user

/-- What a query reads: `ORDER BY id DESC LIMIT ? OFFSET ?`. -/
def AuditDb.page (db : AuditDb) (f : AuditFilter) (limit offset : ℕ) : List AuditRow :=
  (((db.log.rows.filter f.selects).insertionSort (·.id ≥ ·.id)).drop offset).take limit

def queryAuditEvents (f : AuditFilter) (limit offset : ℕ) : AuditRepo (List AuditRow) :=
  select .queryAuditEvents fun db => db.page f limit offset

/-! ### The handler -/

structure AuditQuery where
  filter : AuditFilter
  limit : ℕ
  offset : ℕ

/-- `limit.clamp(1, 1000)`. -/
def clampLimit (limit : ℕ) : ℕ := max 1 (min limit 1000)

/-- The filter of a caller: that of the request for an admin, the caller's own events for
everybody else. -/
def callerFilter (isAdmin : Bool) (caller : Ident) (f : AuditFilter) : AuditFilter :=
  if isAdmin then f else { f with userId := some caller, actor := none }

/-- Entries are rows, whose address only an admin sees. -/
def toEntry (ipVisible : Bool) (r : AuditRow) : AuditRow :=
  { r with ipAddress := if ipVisible then r.ipAddress else none }

def listAudit (caller : Ident) (q : AuditQuery) : AuditHandler (List AuditRow) := do
  let isAdmin ← orInternal (userIsOrgAdmin caller)
  let rows ← orInternal (queryAuditEvents (callerFilter isAdmin caller q.filter) (clampLimit q.limit)
    q.offset)
  return rows.map (toEntry isAdmin)

/-- `ensure_org_for_user`, beside the log. -/
def ensureOrgForUser (user : Ident) (now : ℤ) : AuditRepo Ident :=
  zoomE projects (Projects.ensureOrgForUser user now)

/-! ### Who reads what -/

lemma alone_listAudit {e : Env} (he : e.fault = false) (db : AuditDb) (caller : Ident)
    (q : AuditQuery) :
    alone e (listAudit caller q).run db =
      (.ok ((db.page (callerFilter (isOrgAdmin db.proj caller) caller q.filter) (clampLimit q.limit)
        q.offset).map (toEntry (isOrgAdmin db.proj caller))), db) := by
  refine (alone_bind_ok (alone_orInternal (alone_select he _ _ db))).trans ?_
  refine (alone_bind_ok (alone_orInternal (alone_select he _ _ db))).trans ?_
  rfl

lemma mem_page {db : AuditDb} {f : AuditFilter} {limit offset : ℕ} {r : AuditRow}
    (h : r ∈ db.page f limit offset) : r ∈ db.log.rows ∧ f.selects r = true := by
  have hmem := List.mem_of_mem_drop (List.mem_of_mem_take h)
  rw [List.mem_insertionSort, List.mem_filter] at hmem
  exact hmem

/-- The filter of a caller who is no admin selects the caller's events. -/
lemma selects_callerFilter {caller : Ident} {f : AuditFilter} {r : AuditRow}
    (h : (callerFilter false caller f).selects r = true) : r.userId = some caller := by
  simp only [callerFilter, AuditFilter.selects, Bool.and_eq_true] at h
  simpa using h.1.1.1.1.1.1

/-- Somebody who is in an organization is in the one that is found. -/
lemma foldl_isSome {α β : Type} {f : Option β → α → Option β}
    (hf : ∀ b a, ∃ b', f (some b) a = some b') (l : List α) (b : β) :
    ∃ b', l.foldl f (some b) = some b' := by
  induction l generalizing b with
  | nil => exact ⟨b, rfl⟩
  | cons a l ih =>
    obtain ⟨b', hb'⟩ := hf b a
    rw [List.foldl_cons, hb']
    exact ih b'

lemma oldest_isSome {rows : List OrgMemberRow} (h : rows ≠ []) : ∃ r, oldest rows = some r := by
  cases rows with
  | nil => exact absurd rfl h
  | cons a l =>
    refine foldl_isSome (fun b a => ?_) l a
    dsimp only
    split
    · exact ⟨a, rfl⟩
    · exact ⟨b, rfl⟩

/-- A user who is in an organization gets no other one. -/
lemma alone_ensureOrgForUser {e : Env} (he : e.fault = false) (db : AuditDb) {user : Ident}
    (now : ℤ) (hmember : ∃ r ∈ db.proj.orgMembers.rows, r.userId = user) :
    ∃ org, alone e (ensureOrgForUser user now).run db = (.ok org, db) := by
  have hrows : (db.proj.orgMembers.rows.filter fun r => r.userId = user) ≠ [] := by
    obtain ⟨r, hr, hu⟩ := hmember
    exact List.ne_nil_of_mem (List.mem_filter.mpr ⟨hr, by simp [hu]⟩)
  obtain ⟨r, hr⟩ := oldest_isSome hrows
  have hpart : alone e (Projects.ensureOrgForUser user now).run db.proj =
      (.ok r.orgId, db.proj) := by
    refine (alone_bind_ok (alone_select he _ _ db.proj)).trans ?_
    rw [hr]
    rfl
  refine ⟨r.orgId, ?_⟩
  change alone e (zoom projects (Projects.ensureOrgForUser user now).run) db = _
  rw [alone_zoom (fun _ _ _ => rfl) rfl]
  change ((alone e (Projects.ensureOrgForUser user now).run db.proj).1, _) = _
  simp only [projects, hpart]

/-- The events about a user. -/
def AuditDb.about (db : AuditDb) (user : Ident) : List AuditRow :=
  db.log.rows.filter fun r => r.userId = some user

/-- The page of a caller who is no admin is a page of the caller's events. -/
lemma page_callerFilter (db : AuditDb) (caller : Ident) (f : AuditFilter) (limit offset : ℕ) :
    db.page (callerFilter false caller f) limit offset =
      ((((db.about caller).filter (callerFilter false caller f).selects).insertionSort
        (·.id ≥ ·.id)).drop offset).take limit := by
  have hrows : db.log.rows.filter (callerFilter false caller f).selects =
      (db.about caller).filter (callerFilter false caller f).selects := by
    rw [AuditDb.about, List.filter_filter]
    refine List.filter_congr fun r _ => ?_
    cases hsel : (callerFilter false caller f).selects r with
    | false => simp
    | true => simp [selects_callerFilter hsel]
  rw [AuditDb.page, hrows]

/-- **Who reads the log**: in every state, an Owner or Admin of some organization reads the
events that the request selects, whoever they are about. Everybody else reads events about
themselves, without the addresses, and nothing but these events decides what is read. Asking
for an organization changes nothing for somebody who is in one. -/
theorem audit_readers (db : AuditDb) (now : ℤ) (uuid caller : Ident) (q : AuditQuery) :
    let e : Env := ⟨now, uuid, false⟩
    (isOrgAdmin db.proj caller = true → alone e (listAudit caller q).run db =
      (.ok (db.page q.filter (clampLimit q.limit) q.offset), db)) ∧
    (isOrgAdmin db.proj caller = false →
      (∃ rows, alone e (listAudit caller q).run db = (.ok rows, db) ∧
        ∀ r ∈ rows, r.userId = some caller ∧ r.ipAddress = none) ∧
      ∀ db' : AuditDb, isOrgAdmin db'.proj caller = false → db'.about caller = db.about caller →
        (alone e (listAudit caller q).run db').1 = (alone e (listAudit caller q).run db).1) ∧
    ((∃ r ∈ db.proj.orgMembers.rows, r.userId = caller) →
      ∃ org, alone e (ensureOrgForUser caller now).run db = (.ok org, db)) := by
  intro e
  have he : e.fault = false := rfl
  refine ⟨fun hadmin => ?_, fun hadmin => ⟨⟨_, alone_listAudit he db caller q, ?_⟩, ?_⟩,
    alone_ensureOrgForUser he db now⟩
  · rw [alone_listAudit he db caller q, hadmin]
    have hentry : toEntry true = id := rfl
    rw [hentry, List.map_id]
    rfl
  · intro r hr
    rw [hadmin] at hr
    obtain ⟨row, hrow, rfl⟩ := List.mem_map.mp hr
    exact ⟨selects_callerFilter (mem_page hrow).2, rfl⟩
  · intro db' hadmin' habout
    rw [alone_listAudit he db' caller q, alone_listAudit he db caller q, hadmin, hadmin',
      page_callerFilter, page_callerFilter, habout]

/-- Two organizations: `alice` is the admin of the first, `bob` of the second; `carol` is in
none. The log has an event about `bob`. -/
def twoOrgs : AuditDb where
  proj :=
    { users := ⟨[(2, "bob"), (1, "alice"), (3, "carol")], by decide⟩
      organizations := ⟨[(10, "acme"), (20, "globex")], by decide⟩
      orgMembers := ⟨[⟨10, 1, .admin, 0⟩, ⟨20, 2, .admin, 0⟩], by decide⟩
      projects := .empty
      userGroups := .empty
      groupMembers := .empty
      access := .empty
      offboardings := .empty
      sessions := [] }
  log := ⟨[⟨1, some 2, "login", none, none, 0, none, none, none, some "10.0.0.2"⟩], by decide⟩

/-- No restrictions. -/
def everything : AuditQuery := ⟨⟨none, none, none, none, none, none, none⟩, 100, 0⟩

/-- `carol` reads nothing of the log, and `alice`'s organization is the one she is in. -/
theorem audit_readers_carol :
    (∃ rows, alone ⟨5, 30, false⟩ (listAudit 3 everything).run twoOrgs = (.ok rows, twoOrgs) ∧
      ∀ r ∈ rows, r.userId = some 3 ∧ r.ipAddress = none) ∧
    ∃ org, alone ⟨5, 30, false⟩ (ensureOrgForUser 1 5).run twoOrgs = (.ok org, twoOrgs) :=
  ⟨((audit_readers twoOrgs 5 30 3 everything).2.1 (by decide)).1,
    (audit_readers twoOrgs 5 30 1 everything).2.2 ⟨⟨10, 1, .admin, 0⟩, by decide, rfl⟩⟩

/-- The admin of one organization reads events about users of another, which has no members
in common with it; and who is in no organization reads them after asking for one. -/
theorem audit_crosses_orgs :
    (¬∀ (db : AuditDb) (A B caller : Ident) (q : AuditQuery) (e : Env) (rows : List AuditRow),
      (∀ user, (db.proj.orgRole A user).isSome → ¬(db.proj.orgRole B user).isSome) →
      (db.proj.orgRole A caller).any (·.canManageOrg) →
      (∀ org ≠ A, ¬(db.proj.orgRole org caller).any (·.canManageOrg)) →
      (alone e (listAudit caller q).run db).1 = .ok rows →
      ∀ r ∈ rows, ∀ user ∈ r.userId, ¬(db.proj.orgRole B user).isSome) ∧
    ¬∀ (db : AuditDb) (caller : Ident) (q : AuditQuery) (e e' : Env) (now : ℤ),
      (alone e (listAudit caller q).run (alone e' (ensureOrgForUser caller now).run db).2).1 =
        (alone e (listAudit caller q).run db).1 := by
  have hmembers : ∀ org user role, twoOrgs.proj.orgRole org user = some role →
      (org = 10 ∧ user = 1) ∨ (org = 20 ∧ user = 2) := by
    intro org user role h
    obtain ⟨r, hr, -⟩ := Option.map_eq_some_iff.mp h
    have hkey := Table.get_key hr
    have hmem := Table.get_mem hr
    simp only [twoOrgs, List.mem_cons, List.not_mem_nil, or_false] at hmem
    rcases hmem with rfl | rfl
    · exact .inl (by simpa [OrgMemberRow.key, eq_comm] using hkey)
    · exact .inr (by simpa [OrgMemberRow.key, eq_comm] using hkey)
  constructor
  · intro h
    refine h twoOrgs 10 20 1 everything ⟨5, 30, false⟩ _ ?_ (by decide) ?_ rfl
      ⟨1, some 2, "login", none, none, 0, none, none, none, some "10.0.0.2"⟩ (by decide) 2 rfl
      (by decide)
    · intro user hA hB
      obtain ⟨role, hA⟩ := Option.isSome_iff_exists.mp hA
      obtain ⟨role', hB⟩ := Option.isSome_iff_exists.mp hB
      have := hmembers _ _ _ hA
      have := hmembers _ _ _ hB
      grind
    · intro org hne hany
      obtain ⟨role, hrole, -⟩ := Option.any_eq_true _ _ |>.mp hany
      have := hmembers _ _ _ hrole
      grind
  · intro h
    have := h twoOrgs 3 everything ⟨5, 30, false⟩ ⟨5, 30, false⟩ 5
    revert this
    decide

end Vautr.Audit
