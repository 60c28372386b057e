import Vautr.ProjectVisibility
import Vautr.SecretPatches

/-!
Who reads and changes the secrets of a project, among all requests on secrets and anything else that
works on the same tables.

A permission is looked up in statements of its own, before the one that needs it. So what is known
of a request is what it has seen: in the states in which it looked the user had the permission, also
if the permission is gone when the secret is written or handed out.
-/

namespace Vautr.SecretAccess

open Vautr.Atomic Vautr.Interleave Vautr.Sql Vautr.Database Vautr.Api Vautr.Server Vautr.Zoom
open Vautr.Projects Vautr.ProjectHandlers Vautr.Secrets Vautr.ProjectVisibility
open Vautr.SecretPatches

variable {B α β γ : Type}

/-! ### The requests -/

/-- A request on secrets, by a user that `auth_user` has found. -/
inductive SecReq (B : Type)
  | listSecrets (user project : Ident)
  | createSecret (user : Ident) (req : SecretCreateRequest B)
  | getSecret (user uuid : Ident)
  | updateSecret (user uuid : Ident) (req : SecretUpdateRequest B)
  | deleteSecret (user uuid : Ident)
  | getSecretValue (user uuid : Ident)

inductive SecReply (B : Type)
  | listed (r : Except ApiError (List Secret))
  | secret (r : Except ApiError Secret)
  | deleted (r : Except ApiError Unit)
  | value (r : Except ApiError (SecretValue B))

abbrev SecCode (B : Type) := Prog (SecretsDb B) Env (SecStmt B)

def code : SecReq B → SecCode B (SecReply B)
  | .listSecrets user project => do return .listed (← (listSecretsH user project).run)
  | .createSecret user req => do return .secret (← (createSecretH user req).run)
  | .getSecret user uuid => do return .secret (← (getSecretH user uuid).run)
  | .updateSecret user uuid req => do return .secret (← (updateSecretH user uuid req).run)
  | .deleteSecret user uuid => do return .deleted (← (deleteSecretH user uuid).run)
  | .getSecretValue user uuid => do return .value (← (getSecretValue user uuid).run)

/-- The requests on secrets, and others that may do anything to the tables. -/
def among {Q : Type} (other : Q → SecCode B α) : SecReq B ⊕ Q → SecCode B (SecReply B ⊕ α)
  | .inl q => do return .inl (← code q)
  | .inr q => do return .inr (← other q)

/-! ### What a request has seen -/

/-- The request has seen that the user has the permission on the project. -/
def Permitted (project user : Ident) (lvl : ProjectAccessLevel) (tr : List (SecEv B)) : Prop :=
  ∃ ev ∈ tr, ∃ p ∈ permission ev.pre.proj project user,
    lvl.level ≤ (ProjectAccessLevel.ofPermission p).level

/-- The request has seen that the user may read values: as the owner, or by a grant. -/
def MayReveal (project user : Ident) (tr : List (SecEv B)) : Prop :=
  ∃ ev ∈ tr, owns ev.pre.proj project user = true ∨
    ∃ r ∈ ev.pre.revealGrants.rows, r.userId = user ∧ r.projectId = project

/-- The request has read the secret, and seen the permission on the project of it. -/
structure Loaded (user uuid : Ident) (lvl : ProjectAccessLevel) (row : SecretRow B)
    (tr : List (SecEv B)) : Prop where
  stored : ∃ ev ∈ tr, ev.pre.secrets.get uuid = some row
  permitted : Permitted row.projectId user lvl tr

/-- What a request must have seen before it changes or hands out anything. -/
def Cleared (tr : List (SecEv B)) : SecReq B → Prop
  | .listSecrets user project => Permitted project user .view tr
  | .createSecret user req => Permitted req.projectUuid user .edit tr
  | .getSecret user uuid => ∃ row, Loaded user uuid .view row tr
  | .updateSecret user uuid _ => ∃ row, Loaded user uuid .edit row tr
  | .deleteSecret user uuid => ∃ row, Loaded user uuid .edit row tr
  | .getSecretValue user uuid => ∃ row, Loaded user uuid .view row tr ∧
    MayReveal row.projectId user tr

/-- A secret, but for the time of the last access. -/
def untouched (r : SecretRow B) : SecretRow B := { r with lastAccessedAt := none }

/-- What a request may change: nothing but secrets, and of them a new one, or its own. -/
structure Within (q : SecReq B) (db db' : SecretsDb B) : Prop where
  proj : db'.proj = db.proj
  revealGrants : db'.revealGrants = db.revealGrants
  secrets : match q with
    | .listSecrets _ _ => db'.secrets = db.secrets
    | .createSecret _ _ => ∀ u, (db.secrets.get u).isSome → db'.secrets.get u = db.secrets.get u
    | .getSecret _ _ => db'.secrets = db.secrets
    | .updateSecret _ uuid _ => ∀ u, u ≠ uuid → db'.secrets.get u = db.secrets.get u
    | .deleteSecret _ uuid => ∀ u, u ≠ uuid → db'.secrets.get u = db.secrets.get u
    | .getSecretValue _ _ => ∀ u, (db'.secrets.get u).map untouched =
      (db.secrets.get u).map untouched

/-- Whenever the request has changed something it was cleared before, and the change is one of its
own. -/
def Guarded (q : SecReq B) (tr : List (SecEv B)) : Prop :=
  ∀ before ev after, tr = before ++ ev :: after → ev.post ≠ ev.pre →
    Cleared before q ∧ Within q ev.pre ev.post

/-- The request has read a secret of which these are the metadata. -/
def HasRead (uuid : Ident) (s : Secret) (tr : List (SecEv B)) : Prop :=
  ∃ ev ∈ tr, (ev.pre.secrets.get uuid).map toSecret = some s

/-- What an answer says: what the request has seen of rows that it was cleared for. -/
def Told (tr : List (SecEv B)) (q : SecReq B) : SecReply B → Prop
  | .listed (.ok l) => Cleared tr q ∧ ∀ user project, q = .listSecrets user project → ∃ ev ∈ tr,
    l = ((ev.pre.secrets.rows.filter fun r => r.projectId = project).insertionSort
      (·.key ≤ ·.key)).map toSecret
  | .secret (.ok s) => Cleared tr q ∧ HasRead s.uuid s tr ∧
    ∀ user uuid, q = .getSecret user uuid → ∃ row, Loaded user uuid .view row tr ∧ s = toSecret row
  | .deleted (.ok _) => Cleared tr q
  | .value (.ok v) => ∀ user uuid, q = .getSecretValue user uuid → ∃ row,
    Loaded user uuid .view row tr ∧ MayReveal row.projectId user tr ∧
    v = ⟨row.uuid, row.key, row.valueCiphertext⟩
  | _ => True

/-! ### What is seen stays seen -/

def Lasting (P : List (SecEv B) → Prop) : Prop := ∀ tr ev, P tr → P (tr ++ [ev])

lemma lasting_true : Lasting fun _ : List (SecEv B) => True := fun _ _ _ => trivial

lemma Lasting.and {P P' : List (SecEv B) → Prop} (h : Lasting P) (h' : Lasting P') :
    Lasting fun tr => P tr ∧ P' tr := fun tr ev hP => ⟨h tr ev hP.1, h' tr ev hP.2⟩

lemma lasting_exists {p : SecEv B → Prop} : Lasting fun tr => ∃ ev ∈ tr, p ev :=
  fun _ _ ⟨ev, hev, hp⟩ => ⟨ev, List.mem_append_left _ hev, hp⟩

lemma lasting_permitted {project user : Ident} {lvl : ProjectAccessLevel} :
    Lasting (Permitted (B := B) project user lvl) := lasting_exists

lemma lasting_mayReveal {project user : Ident} : Lasting (MayReveal (B := B) project user) :=
  lasting_exists

lemma lasting_loaded {user uuid : Ident} {lvl : ProjectAccessLevel} {row : SecretRow B} :
    Lasting (Loaded user uuid lvl row) :=
  fun tr ev h => ⟨lasting_exists tr ev h.stored, lasting_permitted tr ev h.permitted⟩

lemma lasting_row {p : SecretRow B → List (SecEv B) → Prop} (h : ∀ row, Lasting (p row)) :
    Lasting fun tr => ∃ row, p row tr := fun tr ev ⟨row, hrow⟩ => ⟨row, h row tr ev hrow⟩

lemma lasting_cleared (q : SecReq B) : Lasting fun tr => Cleared tr q := by
  cases q with
  | listSecrets user project => exact lasting_permitted
  | createSecret user req => exact lasting_permitted
  | getSecret user uuid => exact lasting_row fun _ => lasting_loaded
  | updateSecret user uuid req => exact lasting_row fun _ => lasting_loaded
  | deleteSecret user uuid => exact lasting_row fun _ => lasting_loaded
  | getSecretValue user uuid => exact lasting_row fun _ => lasting_loaded.and lasting_mayReveal

variable {q : SecReq B} {tr : List (SecEv B)} {db : SecretsDb B}

lemma guarded_nil : Guarded q [] := by
  intro before ev after h
  simp at h

lemma Guarded.snoc {ev : SecEv B} (h : Guarded q tr)
    (hev : ev.post ≠ ev.pre → Cleared tr q ∧ Within q ev.pre ev.post) : Guarded q (tr ++ [ev]) := by
  intro before x after heq hx
  rcases List.eq_nil_or_concat after with rfl | ⟨rest, y, rfl⟩
  · obtain ⟨rfl, hxe⟩ := List.append_inj' heq rfl
    obtain rfl := List.singleton_inj.mp hxe
    exact hev hx
  · have hlast : tr ++ [ev] = (before ++ x :: rest) ++ [y] := by rw [heq]; simp
    exact h before x rest (List.append_inj' hlast rfl).1 hx

/-! ### What the writes leave -/

section Writes

variable (t : Table (SecretRow.uuid : SecretRow B → Ident)) {uuid u : Ident}

lemma get_update_ne (hu : u ≠ uuid) (f : SecretRow B → SecretRow B)
    (hf : ∀ r, (f r).uuid = r.uuid) :
    (t.update (fun r => r.uuid = uuid) f hf).get u = t.get u := by
  rw [Table.get_update]
  cases hget : t.get u with
  | none => rfl
  | some r =>
    have hkey : r.uuid = u := Table.get_key hget
    simp [hkey, hu]

lemma get_delete_ne (hu : u ≠ uuid) : (t.delete fun r => r.uuid = uuid).get u = t.get u := by
  rw [Table.get_delete]
  cases hget : t.get u with
  | none => rfl
  | some r =>
    have hkey : r.uuid = u := Table.get_key hget
    simp [hkey, hu]

lemma untouched_update (f : SecretRow B → SecretRow B) (hf : ∀ r, (f r).uuid = r.uuid)
    (h : ∀ r, untouched (f r) = untouched r) :
    ((t.update (fun r => r.uuid = uuid) f hf).get u).map untouched = (t.get u).map untouched := by
  rw [Table.get_update]
  cases t.get u with
  | none => rfl
  | some r =>
    simp only [Option.map_some]
    split
    · rw [h]
    · rfl

end Writes

/-! ### What the lookups find -/

/-- Nothing is assumed of the others. -/
def anything : Rules (SecretsDb B) Env (SecStmt B) := assume (fun _ _ _ => True) fun _ => True

lemma wp_lookup {l : SecStmt B} {g : SecretsDb B → α} :
    wp anything (select l g : SecRepo B α).run (Ok fun a tr _ => ∃ ev ∈ tr, a = g ev.pre) tr db :=
  wp_select_ok fun db' e _ _ _ => ⟨⟨l, e, db', db'⟩, by simp, rfl⟩

lemma wp_orElse_ok {x : SecRepo B (Option α)} {err : ApiError} {F : α → List (SecEv B) → Prop}
    (h : wp anything x.run (Ok fun r tr _ => ∀ a ∈ r, F a tr) tr db) :
    wp anything (orElse x err).run (Ok fun a tr _ => F a tr) tr db := by
  refine wp_bind_ok (wp_mono ?_ (wp_orInternal_ok h))
  rintro (_ | _ | a) tr db h
  · trivial
  · trivial
  · exact h a rfl

/-- The owner manages a project, whatever is granted on it. -/
lemma permitted_of_owns {project user : Ident} {ev : SecEv B} (hev : ev ∈ tr)
    (h : owns ev.pre.proj project user = true) : Permitted project user .manage tr := by
  refine ⟨ev, hev, .canManage, ?_, le_rfl⟩
  have howner : (ev.pre.proj.projects.get project).map (·.ownerUserId) = some user := by
    simpa [owns, Option.any_eq_true] using h
  rw [permission, if_pos howner]
  rfl

lemma permitted_of_granted {project user : Ident} {ev : SecEv B} {lvl : ProjectAccessLevel}
    (hev : ev ∈ tr) (h : (granted ev.pre.proj project user).foldl stronger none = some lvl) :
    Permitted project user lvl tr := by
  rw [foldl_granted, Option.map_eq_some_iff] at h
  obtain ⟨p, hp, rfl⟩ := h
  by_cases howner : (ev.pre.proj.projects.get project).map (·.ownerUserId) = some user
  · refine ⟨ev, hev, .canManage, by rw [permission, if_pos howner]; rfl, ?_⟩
    cases p <;> decide
  · exact ⟨ev, hev, p, by rw [permission, if_neg howner]; exact hp, le_rfl⟩

lemma wp_userProjectPermission (project user : Ident) :
    wp anything (userProjectPermission project user : SecRepo B _).run
      (Ok fun r tr _ => ∀ lvl ∈ r, Permitted project user lvl tr) tr db := by
  refine wp_bind_ok (wp_mono ?_ wp_lookup)
  rintro (_ | owned) tr db h
  · trivial
  obtain ⟨ev, hev, hown⟩ := h
  dsimp only [Ok]
  split
  · next hif =>
    intro lvl hlvl
    cases hlvl
    exact permitted_of_owns hev (hown ▸ hif)
  · refine wp_bind_ok (wp_mono ?_ wp_lookup)
    rintro (_ | perms) tr db h
    · trivial
    obtain ⟨ev, hev, rfl⟩ := h
    exact fun lvl hlvl => permitted_of_granted hev hlvl

/-- The permission that a request needs. -/
def needed (needEdit : Bool) : ProjectAccessLevel := if needEdit then .edit else .view

lemma Permitted.needed {project user : Ident} {lvl : ProjectAccessLevel} {needEdit : Bool}
    (h : Permitted project user lvl tr) (hedit : ¬(needEdit && !lvl.canEdit) = true) :
    Permitted project user (needed needEdit) tr := by
  obtain ⟨ev, hev, p, hp, hle⟩ := h
  refine ⟨ev, hev, p, hp, le_trans ?_ hle⟩
  cases needEdit with
  | false => exact Nat.zero_le _
  | true => simpa [ProjectAccessLevel.canEdit, SecretAccess.needed] using hedit

lemma wp_requireProjectAccess (project user : Ident) (needEdit : Bool) :
    wp anything (requireProjectAccess project user needEdit : SecHandler B _).run
      (Ok fun _ tr _ => Permitted project user (needed needEdit) tr) tr db := by
  refine wp_bind_ok (wp_mono ?_ (wp_orInternal_ok wp_lookup))
  rintro (_ | found) tr db -
  · trivial
  dsimp only [Ok]
  split
  · exact wp_throw_ok _
  refine wp_bind_ok (wp_mono ?_ (wp_orElse_ok (wp_userProjectPermission project user)))
  rintro (_ | lvl) tr db h
  · trivial
  dsimp only [Ok]
  split
  · exact wp_throw_ok _
  · next hedit => exact h.needed hedit

/-- What was seen before is still known after a lookup. -/
lemma wp_seen {x : SecHandler B β} {F : β → List (SecEv B) → Prop} {P : List (SecEv B) → Prop}
    (hP : Lasting P) (hF : wp anything x.run (Ok fun b tr _ => F b tr) tr db) (h : P tr) :
    wp anything x.run (Ok fun b tr _ => P tr ∧ F b tr) tr db := by
  refine wp_mono (fun r tr db hr => ?_) (wp_and (fun _ _ _ h => h) (fun _ h => h) hF
    (wp_kept (Q := fun _ tr _ => P tr) hP (fun _ _ => trivial) (fun _ _ _ h => h) h))
  cases r with
  | ok b => exact ⟨hr.2, hr.1⟩
  | error e => trivial

lemma wp_loadSecretForUser (uuid user : Ident) (needEdit : Bool) :
    wp anything (loadSecretForUser uuid user needEdit : SecHandler B _).run
      (Ok fun row tr _ => Loaded user uuid (needed needEdit) row tr) tr db := by
  have hstored : wp anything (orElse (getSecret uuid) (notFound "secret not found")).run
      (Ok fun (row : SecretRow B) tr _ => ∃ ev ∈ tr, ev.pre.secrets.get uuid = some row) tr db := by
    refine wp_orElse_ok (wp_mono ?_ wp_lookup)
    rintro (_ | found) tr db h
    · trivial
    obtain ⟨ev, hev, rfl⟩ := h
    exact fun row hrow => ⟨ev, hev, hrow⟩
  refine wp_bind_ok (wp_mono ?_ hstored)
  rintro (_ | row) tr db h
  · trivial
  refine wp_bind_ok (wp_mono ?_ (wp_seen lasting_exists
    (wp_requireProjectAccess row.projectId user needEdit) h))
  rintro (_ | lvl) tr db h
  · trivial
  · exact ⟨h.1, h.2⟩

lemma wp_canReveal (project user : Ident) :
    wp anything (canReveal project user : SecRepo B _).run
      (Ok fun b tr _ => b = true → MayReveal project user tr) tr db := by
  refine wp_bind_ok (wp_mono ?_ wp_lookup)
  rintro (_ | owned) tr db h
  · trivial
  obtain ⟨ev, hev, hown⟩ := h
  dsimp only [Ok]
  split
  · next hif => exact fun _ => ⟨ev, hev, .inl (hown ▸ hif)⟩
  · refine wp_bind_ok (wp_mono ?_ wp_lookup)
    rintro (_ | n) tr db h
    · trivial
    obtain ⟨ev, hev, rfl⟩ := h
    intro hpos
    obtain ⟨r, hr, hgrant⟩ := List.countP_pos_iff.mp (of_decide_eq_true hpos)
    exact ⟨ev, hev, .inr ⟨r, hr, by simpa using hgrant⟩⟩

/-! ### One request -/

/-- A request that has come so far is guarded. -/
def guarding (q : SecReq B) : Rules (SecretsDb B) Env (SecStmt B) :=
  ⟨fun _ _ _ => True, fun _ => True, Guarded q⟩

section Steps

variable {P : List (SecEv B) → Prop} {Q : Except ApiError α → List (SecEv B) → SecretsDb B → Prop}
  {F : β → List (SecEv B) → Prop}

lemma wp_reads_kept {p : Prog (SecretsDb B) Env (SecStmt B) γ}
    (hp : Guarantees (fun _ _ _ => True) Reads p) (hP : Lasting P) (h : Guarded q tr)
    (hseen : P tr) :
    wp (guarding q) p (fun _ tr _ => Guarded q tr ∧ P tr) tr db :=
  wp_of_guarantees (J := fun tr _ => Guarded q tr ∧ P tr) hp (fun _ _ _ _ => trivial)
    (fun _ _ h => h.1) (fun _ _ _ _ h _ => h)
    (fun _ _ h hev => ⟨h.1.snoc fun hne => absurd hev.1 hne, hP _ _ h.2⟩) (fun _ _ _ h => h)
    ⟨h, hseen⟩

/-- A lookup, as a part of a request. -/
lemma wp_look {x : SecHandler B β} {f : β → SecHandler B α}
    (hx : Guarantees (fun _ _ _ => True) Reads x.run)
    (hF : ∀ tr db, wp anything x.run (Ok fun b tr _ => F b tr) tr db) (hP : Lasting P)
    (h : Guarded q tr) (hp : P tr)
    (herr : ∀ e tr db, Guarded q tr → Q (.error e) tr db)
    (hf : ∀ b tr db, Guarded q tr → P tr → F b tr → wp (guarding q) (f b).run Q tr db) :
    wp (guarding q) (x >>= f).run Q tr db := by
  rw [wp_bind_except]
  refine wp_mono (fun r tr db hr => ?_) (wp_and (fun _ _ _ _ => trivial) (fun _ _ => trivial)
    (wp_reads_kept hx hP h hp) (hF tr db))
  cases r with
  | ok b => exact hf b tr db hr.1.1 hr.1.2 hr.2
  | error e => exact herr e tr db hr.1.1

/-- A part of a request that only reads, and of which nothing is to be known. -/
lemma wp_pass {x : SecHandler B β} {f : β → SecHandler B α}
    (hx : Guarantees (fun _ _ _ => True) Reads x.run) (hP : Lasting P) (h : Guarded q tr)
    (hp : P tr)
    (herr : ∀ e tr db, Guarded q tr → Q (.error e) tr db)
    (hf : ∀ b tr db, Guarded q tr → P tr → wp (guarding q) (f b).run Q tr db) :
    wp (guarding q) (x >>= f).run Q tr db := by
  refine wp_look (F := fun _ _ => True) hx (fun tr db => ?_) hP h hp herr
    fun b tr db h hp _ => hf b tr db h hp
  exact wp_kept (P := fun _ => True) (fun _ _ _ => trivial) (fun _ _ => trivial)
    (fun r _ _ _ => by cases r <;> trivial) trivial

/-- The statement that a request was cleared for. -/
lemma wp_change {l : SecStmt B} {g : Env → SecretsDb B → SecretsDb B × Except SqlError β}
    {f : β → SecHandler B α} (hg : ∀ e db, Within q db (g e db).1) (hP : Lasting P)
    (h : Guarded q tr) (hp : P tr) (hc : Cleared tr q)
    (herr : ∀ e tr db, Guarded q tr → Q (.error e) tr db)
    (hf : ∀ b tr db, Guarded q tr → P tr → wp (guarding q) (f b).run Q tr db) :
    wp (guarding q) (orInternal (statement l g) >>= f).run Q tr db := by
  rw [wp_bind_except, wp_orInternal]
  refine wp_statement h (fun db' e _ _ => herr _ _ _ (h.snoc fun hne => absurd rfl hne))
    fun db' e _ _ => ?_
  have hsnoc : Guarded q (tr ++ [⟨l, e, db', (g e db').1⟩]) := h.snoc fun _ => ⟨hc, hg e db'⟩
  cases (g e db').2 with
  | ok b => exact hf b _ _ hsnoc (hP _ _ hp)
  | error err => exact herr _ _ _ hsnoc

end Steps

/-- A request on its way to an answer. -/
abbrev Serves (q : SecReq B) (answer : Except ApiError α → SecReply B) (x : SecHandler B α)
    (tr : List (SecEv B)) (db : SecretsDb B) : Prop :=
  wp (guarding q) x.run (fun r tr _ => Guarded q tr ∧ Told tr q (answer r)) tr db

lemma reads_newUuid : Guarantees (fun _ _ _ => True) Reads (newUuid : SecHandler B Ident).run :=
  guarantees_orInternal (guarantees_stmt (fun _ _ => ⟨rfl, rfl⟩) fun _ _ => guarantees_ret _)

lemma reads_canReveal (project user : Ident) : Guarantees (fun _ _ _ => True) Reads
    (orInternal (canReveal project user) : SecHandler B Bool).run := by
  refine guarantees_orInternal (guarantees_bind_except (reads_select (by nofun) _) fun owned => ?_)
  split
  · exact guarantees_pure_except _
  · exact guarantees_bind_except (reads_select (by nofun) _) fun _ => guarantees_pure_except _

lemma reads_getSecret (uuid : Ident) (err : ApiError) : Guarantees (fun _ _ _ => True) Reads
    (orElse (getSecret uuid) err : SecHandler B (SecretRow B)).run :=
  reads_orElse (reads_select (by nofun) _) _

/-- A row that was read under its uuid. -/
lemma wp_getSecret (uuid : Ident) (err : ApiError) :
    wp anything (orElse (getSecret uuid) err : SecHandler B (SecretRow B)).run
      (Ok fun row tr _ => HasRead (toSecret row).uuid (toSecret row) tr) tr db := by
  refine wp_orElse_ok (wp_mono ?_ wp_lookup)
  rintro (_ | found) tr db h
  · trivial
  obtain ⟨ev, hev, rfl⟩ := h
  intro row hrow
  have hkey : row.uuid = uuid := Table.get_key hrow
  refine ⟨ev, hev, ?_⟩
  change (ev.pre.secrets.get row.uuid).map toSecret = _
  rw [hkey, Option.mem_def.mp hrow]
  rfl

lemma serves_listSecrets (user project : Ident) (h : Guarded (.listSecrets user project) tr) :
    Serves (.listSecrets user project) .listed (listSecretsH user project) tr db := by
  refine wp_look (P := fun _ => True) (reads_requireProjectAccess _ _ _)
    (fun _ _ => wp_requireProjectAccess _ _ _) lasting_true h trivial (fun _ _ _ h => ⟨h, trivial⟩)
    fun _ tr db h _ hperm => ?_
  refine wp_look (guarantees_orInternal (reads_select (by nofun) _))
    (fun _ _ => wp_orInternal_ok wp_lookup) lasting_permitted h hperm
    (fun _ _ _ h => ⟨h, trivial⟩) fun rows tr db h hperm hrows => ?_
  refine ⟨h, hperm, fun _ _ hq => ?_⟩
  cases hq
  obtain ⟨ev, hev, rfl⟩ := hrows
  exact ⟨ev, hev, rfl⟩

lemma serves_getSecret (user uuid : Ident) (h : Guarded (.getSecret user uuid) tr) :
    Serves (.getSecret user uuid) .secret (getSecretH user uuid) tr db := by
  refine wp_look (P := fun _ => True) (reads_loadSecretForUser _ _ _)
    (fun _ _ => wp_loadSecretForUser _ _ _) lasting_true h trivial (fun _ _ _ h => ⟨h, trivial⟩)
    fun row tr db h _ hrow => ?_
  obtain ⟨ev, hev, hget⟩ := hrow.stored
  refine ⟨h, ⟨row, hrow⟩, ⟨ev, hev, ?_⟩, fun _ _ hq => ?_⟩
  · have hkey : row.uuid = uuid := Table.get_key hget
    change (ev.pre.secrets.get row.uuid).map toSecret = _
    rw [hkey, hget]
    rfl
  · cases hq
    exact ⟨row, hrow, rfl⟩

/-- The end of a request that has written: the row is read again. -/
lemma serves_reread {uuid : Ident} (hq : ∀ user u, q ≠ .getSecret user u)
    (h : Guarded q tr) (hc : Cleared tr q) : Serves q .secret (do
      orInternal auditLog
      return toSecret (← orElse (getSecret uuid) (notFound "secret not found"))) tr db := by
  refine wp_pass (guarantees_orInternal reads_auditLog) (lasting_cleared q) h hc
    (fun _ _ _ h => ⟨h, trivial⟩) fun _ tr db h hc => ?_
  refine wp_look (reads_getSecret _ _) (fun _ _ => wp_getSecret _ _) (lasting_cleared q) h hc
    (fun _ _ _ h => ⟨h, trivial⟩) fun row tr db h hc hread => ?_
  exact ⟨h, hc, hread, fun user u heq => absurd heq (hq user u)⟩

lemma serves_createSecret (user : Ident) (req : SecretCreateRequest B)
    (h : Guarded (.createSecret user req) tr) :
    Serves (.createSecret user req) .secret (createSecretH user req) tr db := by
  refine wp_look (P := fun _ => True) (reads_requireProjectAccess _ _ _)
    (fun _ _ => wp_requireProjectAccess _ _ _) lasting_true h trivial (fun _ _ _ h => ⟨h, trivial⟩)
    fun _ tr db h _ hperm => ?_
  refine wp_pass (reads_validateKey _) lasting_permitted h hperm (fun _ _ _ h => ⟨h, trivial⟩)
    fun _ tr db h hperm => ?_
  refine wp_pass (guarantees_decodeB64 _) lasting_permitted h hperm (fun _ _ _ h => ⟨h, trivial⟩)
    fun value tr db h hperm => ?_
  refine wp_pass reads_newUuid lasting_permitted h hperm (fun _ _ _ h => ⟨h, trivial⟩)
    fun uuid tr db h hperm => ?_
  refine wp_pass reads_nowMs lasting_permitted h hperm (fun _ _ _ h => ⟨h, trivial⟩)
    fun now tr db h hperm => ?_
  refine wp_change (fun _ db => ?_) lasting_permitted h hperm hperm (fun _ _ _ h => ⟨h, trivial⟩)
    fun _ tr db h hperm => serves_reread nofun h hperm
  split
  · exact ⟨rfl, rfl, fun _ _ => rfl⟩
  · next secrets hins =>
    split
    · refine ⟨rfl, rfl, fun u hu => ?_⟩
      rw [Table.get_insert hins, if_neg]
      rintro rfl
      rw [(Table.insert_eq_some hins).1] at hu
      cases hu
    · exact ⟨rfl, rfl, fun _ _ => rfl⟩

lemma serves_updateSecret (user uuid : Ident) (req : SecretUpdateRequest B)
    (h : Guarded (.updateSecret user uuid req) tr) :
    Serves (.updateSecret user uuid req) .secret (updateSecretH user uuid req) tr db := by
  refine wp_look (P := fun _ => True) (reads_loadSecretForUser _ _ _)
    (fun _ _ => wp_loadSecretForUser _ _ _) lasting_true h trivial (fun _ _ _ h => ⟨h, trivial⟩)
    fun row tr db h _ hrow => ?_
  have hlast := lasting_cleared (.updateSecret user uuid req)
  have hc : Cleared tr (.updateSecret user uuid req) := ⟨row, hrow⟩
  refine wp_pass (reads_newKey _ _) hlast h hc (fun _ _ _ h => ⟨h, trivial⟩)
    fun key tr db h hc => ?_
  refine wp_pass (reads_newValue _ _) hlast h hc (fun _ _ _ h => ⟨h, trivial⟩)
    fun value tr db h hc => ?_
  refine wp_pass reads_nowMs hlast h hc (fun _ _ _ h => ⟨h, trivial⟩) fun now tr db h hc => ?_
  exact wp_change (fun _ db => ⟨rfl, rfl, fun u hu => get_update_ne _ hu (.updated key value now)
    (by intro r; rfl)⟩) hlast h hc hc (fun _ _ _ h => ⟨h, trivial⟩)
    fun _ tr db h hc => serves_reread nofun h hc

lemma serves_deleteSecret (user uuid : Ident) (h : Guarded (.deleteSecret user uuid) tr) :
    Serves (.deleteSecret user uuid) .deleted (deleteSecretH user uuid) tr db := by
  refine wp_look (P := fun _ => True) (reads_loadSecretForUser _ _ _)
    (fun _ _ => wp_loadSecretForUser _ _ _) lasting_true h trivial (fun _ _ _ h => ⟨h, trivial⟩)
    fun row tr db h _ hrow => ?_
  have hlast : Lasting fun tr => Cleared tr (.deleteSecret user uuid : SecReq B) :=
    lasting_cleared _
  have hc : Cleared tr (.deleteSecret user uuid) := ⟨row, hrow⟩
  refine wp_change (fun _ db => ⟨rfl, rfl, fun u hu => get_delete_ne _ hu⟩) hlast h hc hc
    (fun _ _ _ h => ⟨h, trivial⟩) fun _ tr db h hc => ?_
  refine wp_pass reads_nowMs hlast h hc (fun _ _ _ h => ⟨h, trivial⟩) fun now tr db h hc => ?_
  refine wp_mono (fun r tr db hr => ?_)
    (wp_reads_kept (guarantees_orInternal reads_auditLog) hlast h hc)
  cases r with
  | ok u => exact hr
  | error e => exact ⟨hr.1, trivial⟩

lemma serves_getSecretValue (user uuid : Ident) (h : Guarded (.getSecretValue user uuid) tr) :
    Serves (.getSecretValue user uuid) .value (getSecretValue user uuid) tr db := by
  refine wp_look (P := fun _ => True) (reads_loadSecretForUser _ _ _)
    (fun _ _ => wp_loadSecretForUser _ _ _) lasting_true h trivial (fun _ _ _ h => ⟨h, trivial⟩)
    fun row tr db h _ hrow => ?_
  refine wp_look (reads_canReveal _ _) (fun _ _ => wp_orInternal_ok (wp_canReveal _ _))
    lasting_loaded h hrow (fun _ _ _ h => ⟨h, trivial⟩) fun granted tr db h hrow hgrant => ?_
  split
  · exact ⟨h, trivial⟩
  next hif =>
    have hseen : Loaded user uuid .view row tr ∧ MayReveal row.projectId user tr :=
      ⟨hrow, hgrant (by simpa using hif)⟩
    have hlast : Lasting fun tr =>
        Loaded user uuid .view row tr ∧ MayReveal row.projectId user tr :=
      lasting_loaded.and lasting_mayReveal
    refine wp_pass reads_nowMs hlast h hseen (fun _ _ _ h => ⟨h, trivial⟩)
      fun now tr db h hseen => ?_
    refine wp_change (fun _ db => ⟨rfl, rfl, fun u => untouched_update _
      (fun r => { r with lastAccessedAt := some now }) (by intro r; rfl) fun _ => rfl⟩) hlast h
      hseen ⟨row, hseen⟩ (fun _ _ _ h => ⟨h, trivial⟩) fun _ tr db h hseen => ?_
    refine wp_pass (guarantees_orInternal reads_auditLog) hlast h hseen
      (fun _ _ _ h => ⟨h, trivial⟩) fun _ tr db h hseen => ?_
    refine ⟨h, fun _ _ hq => ?_⟩
    cases hq
    exact ⟨row, hseen.1, hseen.2, rfl⟩

lemma wp_code (q : SecReq B) :
    wp (guarding q) (code q) (fun a tr _ => Guarded q tr ∧ Told tr q a) [] db := by
  cases q with
  | listSecrets user project => exact (wp_bind _ _ _ _ _).mpr (serves_listSecrets _ _ guarded_nil)
  | createSecret user req => exact (wp_bind _ _ _ _ _).mpr (serves_createSecret _ _ guarded_nil)
  | getSecret user uuid => exact (wp_bind _ _ _ _ _).mpr (serves_getSecret _ _ guarded_nil)
  | updateSecret user uuid req =>
    exact (wp_bind _ _ _ _ _).mpr (serves_updateSecret _ _ _ guarded_nil)
  | deleteSecret user uuid => exact (wp_bind _ _ _ _ _).mpr (serves_deleteSecret _ _ guarded_nil)
  | getSecretValue user uuid =>
    exact (wp_bind _ _ _ _ _).mpr (serves_getSecretValue _ _ guarded_nil)

/-! ### All requests -/

/-- What is kept of a request: the others may do anything. -/
def rules {Q : Type} : SecReq B ⊕ Q → Rules (SecretsDb B) Env (SecStmt B)
  | .inl q => guarding q
  | .inr _ => anything

/-- What holds of a request that is answered. -/
def Served {Q : Type} (r : SecReq B ⊕ Q) (a : SecReply B ⊕ α) (tr : List (SecEv B)) : Prop :=
  ∀ q, r = .inl q → Guarded q tr ∧ ∀ b, a = .inl b → Told tr q b

/-- **Nothing without the permission.** Whatever else works on the tables, a request changes nothing
before it has seen that its user may, and then only what it names; and what it answers are rows that
it has read and was cleared for, values with the grant to reveal them. -/
theorem secrets_guarded {Q : Type} (other : Q → SecCode B α) (db : SecretsDb B)
    (as : List (Act (SecReq B ⊕ Q) Env)) :
    ∀ c ∈ (run (among other) (init db) as).calls, ∀ q, c.req = .inl q →
      Guarded q c.trace ∧ ∀ b, c.prog.result = some (.inl b) → Told c.trace q b := by
  have hwp : ∀ r s, True → wp (rules r) (among other r) (fun a tr _ => Served r a tr) [] s := by
    rintro (q | r) s -
    · refine (wp_bind _ _ _ _ _).mpr (wp_mono (fun a tr s h => ?_) (wp_code q))
      rintro _ ⟨⟩
      refine ⟨h.1, ?_⟩
      rintro _ ⟨⟩
      exact h.2
    · exact wp_kept (P := fun _ => True) (fun _ _ _ => trivial) (fun _ _ => trivial)
        (fun _ _ _ _ => nofun) trivial
  have hheld := (run_held (I := fun _ => True) (C := fun _ _ => True)
    (fun r => guarantees_true (among other r)) (fun _ _ _ _ _ _ _ _ _ _ _ _ => trivial) hwp
    (fun r _ _ => by cases r <;> trivial) (fun r _ _ _ _ _ _ => by cases r <;> trivial)
    (fun r _ _ _ _ _ => by cases r <;> trivial) (fun _ _ _ _ _ _ h => h)
    (fun _ _ _ r _ _ _ _ _ _ _ => by cases r <;> trivial) trivial (along_true as (init db))).2
  intro c hc q hq
  obtain ⟨i, hi⟩ := List.mem_iff_getElem?.mp hc
  have hwpc := hheld i c hi
  refine ⟨?_, fun b hb => ?_⟩
  · have hmid := wp_mid (R := rules c.req) hwpc
    rw [hq] at hmid
    exact hmid fun a _ h => (h q rfl).1
  · rw [Prog.result_eq_some hb] at hwpc
    exact (hwpc q hq).2 b rfl

end Vautr.SecretAccess
