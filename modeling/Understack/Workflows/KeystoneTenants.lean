import Understack.Lib.PyText
import Understack.Lib.Runs
import Understack.Lib.Upserts

/-! `sync_keystone`: Nautobot's tenants follow the projects of Keystone, event by event, and
`resync_keystone_to_nautobot` brings all of them up to date. Nautobot answers every call; it refuses
what would break its constraints. -/
namespace Understack.Workflows.KeystoneTenants
open PyText KeyedTable

/-- A project of Keystone; domains are projects too. -/
structure Project where
  name : Text
  domainId : Option Text
  description : Option Text
  isDomain : Bool
  deriving DecidableEq

/-- The ids are UUIDs, which Keystone writes as `hex` and Nautobot as `str`. -/
structure Tenant (ι : Type) where
  id : ι
  name : Text
  description : Text
  deriving DecidableEq

structure Device (ι : Type) where
  id : Text
  tenant : Option ι
  deriving DecidableEq

def tenants (ι : Type) : Keys (Tenant ι) ι Text := ⟨Tenant.id, Tenant.name⟩

/-- `holders` are the tenants of prefixes and networks, which these keep. -/
structure Nautobot (ι : Type) where
  tenants : Table (tenants ι)
  devices : List (Device ι)
  holders : List ι

/-- The projects by id, and the id that a text says. -/
structure Keystone (ι : Type) where
  projects : ι → Option Project
  uuid : Text → Option ι

inductive Exit where
  | success
  | apiError
  deriving DecidableEq

/-- What a handler lets through. -/
inductive Raised where
  | projectNotFound
  | domainNotFound
  | deleteRefused
  deriving DecidableEq

variable {ι : Type} [DecidableEq ι]

/-- The name of the domain with an id. -/
def Keystone.domainName (conn : Keystone ι) (id : Text) : Option Text := do
  let domain ← conn.projects (← conn.uuid id)
  if domain.isDomain then some domain.name else none

def Keystone.put (conn : Keystone ι) (id : ι) (project : Option Project) : Keystone ι :=
  { conn with projects := Function.update conn.projects id project }

def tenantAttrs (conn : Keystone ι) (project : Project) : Except Raised (Text × Text) := do
  let domainName ←
    match project.domainId with
    | none | some [] => .ok "unknown".toList
    | some id =>
      if id = "default".toList then .ok "default".toList
      else
        match conn.domainName id with
        | some name => .ok name
        | none => .error .domainNotFound
  .ok (domainName ++ ":".toList ++ project.name, project.description.getD "None".toList)

def handleProjectCreate (conn : Keystone ι) (id : ι) (nb : Nautobot ι) :
    Except Raised Exit × Nautobot ι :=
  match conn.projects id with
  | none => (.error .projectNotFound, nb)
  | some project =>
    match tenantAttrs conn project with
    | .error e => (.error e, nb)
    | .ok (name, description) =>
      match nb.tenants.create ⟨id, name, description⟩ with
      | none => (.ok .apiError, nb)
      | some tenants => (.ok .success, { nb with tenants })

/-- Domains are skipped before their names are looked up. -/
def handleProjectUpdate (conn : Keystone ι) (id : ι) (nb : Nautobot ι) :
    Except Raised Exit × Nautobot ι :=
  match conn.projects id with
  | none => (.error .projectNotFound, nb)
  | some project =>
    if project.isDomain then (.ok .success, nb)
    else
      match tenantAttrs conn project with
      | .error e => (.error e, nb)
      | .ok (name, description) =>
        match nb.tenants.upsert ⟨id, name, description⟩ with
        | none => (.ok .apiError, nb)
        | some tenants => (.ok .success, { nb with tenants })

/-- The loop over the devices: each turn sends all those whose tenant was taken away so far. -/
def unmapDevices : List (Device ι) → List Text → List (Device ι) → List (Device ι)
  | [], _, devices => devices
  | d :: rest, unmapped, devices =>
    let unmapped := unmapped ++ [d.id]
    unmapDevices rest unmapped
      (devices.map fun d => if d.id ∈ unmapped then { d with tenant := none } else d)

def unmapTenantFromDevices (id : ι) (nb : Nautobot ι) : Nautobot ι :=
  { nb with
    devices := unmapDevices (nb.devices.filter fun d => d.tenant = some id) [] nb.devices }

/-- Nautobot keeps a tenant that some object has. -/
def deleteTenant (id : ι) (nb : Nautobot ι) : Option (Nautobot ι) :=
  if (nb.devices.any fun d => d.tenant = some id) || decide (id ∈ nb.holders) then none
  else some { nb with tenants := nb.tenants.delete id }

def handleProjectDelete (id : ι) (nb : Nautobot ι) : Except Raised Exit × Nautobot ι :=
  match nb.tenants.get id with
  | none => (.ok .success, nb)
  | some _ =>
    let nb := unmapTenantFromDevices id nb
    match deleteTenant id nb with
    | none => (.error .deleteRefused, nb)
    | some nb => (.ok .success, nb)

inductive Event where
  | projectCreate
  | projectUpdate
  | projectDelete
  deriving DecidableEq

def doAction (conn : Keystone ι) (event : Event) (id : ι) (nb : Nautobot ι) :
    Except Raised Exit × Nautobot ι :=
  match event with
  | .projectCreate => handleProjectCreate conn id nb
  | .projectUpdate => handleProjectUpdate conn id nb
  | .projectDelete => handleProjectDelete id nb

structure SyncResult where
  total : ℕ
  failed : ℕ
  skipped : ℕ
  deriving DecidableEq

/-- The loop over the projects, up to one whose handler raises. -/
def syncProjects (conn : Keystone ι) :
    List (ι × Project) → SyncResult → Nautobot ι → Except Raised SyncResult × Nautobot ι
  | [], result, nb => (.ok result, nb)
  | (id, project) :: projects, result, nb =>
    let result := { result with total := result.total + 1 }
    if project.isDomain then
      syncProjects conn projects { result with skipped := result.skipped + 1 } nb
    else
      match handleProjectUpdate conn id nb with
      | (.error e, nb) => (.error e, nb)
      | (.ok .success, nb) => syncProjects conn projects result nb
      | (.ok .apiError, nb) =>
        syncProjects conn projects { result with failed := result.failed + 1 } nb

/-! Keystone and the handlers together: what happens to a project emits an event, and the events are
handled in any order, some of them more than once. -/

structure World (ι : Type) where
  conn : Keystone ι
  used : List ι
  pending : List (Event × ι)
  nautobot : Nautobot ι

inductive Action (ι : Type) where
  | create (id : ι) (project : Project)
  | update (id : ι) (project : Project)
  | delete (id : ι)
  | handle (n : ℕ) (redelivered : Bool)
  | assign (device : Text) (id : ι)
  | hold (id : ι)
  | release (id : ι)

/-- Ids are never used again. The creation and removal of domains have events of their own, which
nothing handles. Other workflows give devices, prefixes and networks the tenants that there are. -/
def step (w : World ι) : Action ι → World ι
  | .create id project =>
    if id ∈ w.used then w
    else
      { w with
        conn := w.conn.put id (some project)
        used := id :: w.used
        pending := if project.isDomain then w.pending else (.projectCreate, id) :: w.pending }
  | .update id project =>
    match w.conn.projects id with
    | none => w
    | some old =>
      if old.isDomain = project.isDomain then
        { w with
          conn := w.conn.put id (some project)
          pending := (.projectUpdate, id) :: w.pending }
      else w
  | .delete id =>
    match w.conn.projects id with
    | none => w
    | some old =>
      { w with
        conn := w.conn.put id none
        pending := if old.isDomain then w.pending else (.projectDelete, id) :: w.pending }
  | .handle n redelivered =>
    match w.pending[n]? with
    | none => w
    | some (event, id) =>
      { w with
        nautobot := (doAction w.conn event id w.nautobot).2
        pending := if redelivered then w.pending else w.pending.eraseIdx n }
  | .assign device id =>
    if (w.nautobot.tenants.get id).isSome then
      { w with
        nautobot := { w.nautobot with
          devices := w.nautobot.devices.map fun d =>
            if d.id = device then { d with tenant := some id } else d } }
    else w
  | .hold id =>
    if (w.nautobot.tenants.get id).isSome then
      { w with nautobot := { w.nautobot with holders := id :: w.nautobot.holders } }
    else w
  | .release id =>
    { w with nautobot := { w.nautobot with holders := w.nautobot.holders.erase id } }

/-- The tenant that a project is to have. -/
def expected (conn : Keystone ι) (id : ι) : Option (Tenant ι) :=
  (conn.projects id).bind fun project =>
    if project.isDomain then none
    else
      match tenantAttrs conn project with
      | .error _ => none
      | .ok (name, description) => some ⟨id, name, description⟩

/-! The handlers. -/

omit [DecidableEq ι] in
/-- Devices that were sent before have no tenant any more. -/
theorem unmapDevices_eq (todo : List (Device ι)) (unmapped : List Text) (devices : List (Device ι))
    (h : ∀ d ∈ devices, d.id ∈ unmapped → d.tenant = none) :
    unmapDevices todo unmapped devices =
      devices.map fun d => if d.id ∈ todo.map Device.id then { d with tenant := none } else d := by
  induction todo generalizing unmapped devices with
  | nil => simp [unmapDevices]
  | cons d rest ih =>
    rw [unmapDevices, ih, List.map_map]
    · refine List.map_congr_left fun x hx => ?_
      simp only [Function.comp_apply, List.mem_append, List.map_cons, List.mem_cons]
      by_cases hd : x.id = d.id
      · simp [hd]
      · by_cases hdone : x.id ∈ unmapped
        · have hnone := h x hx hdone
          obtain ⟨id, tenant⟩ := x
          subst hnone
          simp [hdone]
        · simp [hd, hdone]
    · intro x hx hdone
      obtain ⟨y, -, rfl⟩ := List.mem_map.mp hx
      split_ifs at hdone ⊢ with hy
      · rfl
      · exact (hy hdone).elim

/-- No device has a tenant that Nautobot does not. -/
def Referential (nb : Nautobot ι) : Prop :=
  ∀ d ∈ nb.devices, ∀ id, d.tenant = some id → nb.tenants.get id ≠ none

theorem mem_unmapTenant {nb : Nautobot ι} {id : ι} {d : Device ι}
    (hd : d ∈ (unmapTenantFromDevices id nb).devices) :
    d.tenant ≠ some id ∧ ∃ old ∈ nb.devices, old.id = d.id ∧ (d = old ∨ d.tenant = none) := by
  rw [unmapTenantFromDevices, unmapDevices_eq _ _ _ (fun _ _ h => by cases h)] at hd
  obtain ⟨old, hold, rfl⟩ := List.mem_map.mp hd
  split_ifs with hin
  · exact ⟨by simp, old, hold, rfl, Or.inr rfl⟩
  · refine ⟨fun htenant => hin ?_, old, hold, rfl, Or.inl rfl⟩
    exact List.mem_map_of_mem (List.mem_filter.mpr ⟨hold, decide_eq_true htenant⟩)

theorem handleProjectDelete_spec {nb : Nautobot ι} (h : Referential nb) {id : ι}
    (hholders : id ∉ nb.holders) :
    (∀ i, (handleProjectDelete id nb).2.tenants.get i = if i = id then none else nb.tenants.get i) ∧
      (∀ t ∈ (handleProjectDelete id nb).2.tenants.rows, t ∈ nb.tenants.rows) ∧
      Referential (handleProjectDelete id nb).2 := by
  unfold handleProjectDelete
  cases hget : nb.tenants.get id with
  | none =>
    refine ⟨fun i => ?_, fun t ht => ht, h⟩
    split_ifs with hi
    · rw [hi, hget]
    · rfl
  | some tenant =>
    have hdevices : (unmapTenantFromDevices id nb).devices.any (fun d => d.tenant = some id) =
        false := by
      rw [List.any_eq_false]
      exact fun d hd => by simpa using (mem_unmapTenant hd).1
    have hfree : ((unmapTenantFromDevices id nb).devices.any (fun d => d.tenant = some id) ||
        decide (id ∈ (unmapTenantFromDevices id nb).holders)) = false := by
      rw [hdevices, Bool.false_or]
      exact decide_eq_false hholders
    have hother {i : ι} (hi : i ≠ id) : (nb.tenants.delete id).get i = nb.tenants.get i := by
      ext r
      simp only [Table.get_eq_some_iff, Table.mem_delete]
      constructor
      · rintro ⟨⟨hr, -⟩, hid⟩
        exact ⟨hr, hid⟩
      · rintro ⟨hr, hid⟩
        exact ⟨⟨hr, fun heq => hi (hid.symm.trans heq)⟩, hid⟩
    simp only [deleteTenant, hfree, Bool.false_eq_true, if_false]
    refine ⟨fun i => ?_, fun t ht => (Table.mem_delete.mp ht).1, fun d hd i htenant => ?_⟩
    · split_ifs with hi
      · rw [hi]
        exact Table.get_eq_none_iff.mpr fun r hr => (Table.mem_delete.mp hr).2
      · exact hother hi
    · obtain ⟨hne, old, hold, -, rfl | hnone⟩ := mem_unmapTenant hd
      · have hi : i ≠ id := fun heq => hne (heq ▸ htenant)
        show (nb.tenants.delete id).get i ≠ none
        rw [hother hi]
        exact h d hold i htenant
      · rw [hnone] at htenant
        cases htenant

/-! What holds over runs. -/

/-! Domains. -/

theorem domainName_put (conn : Keystone ι) (i : ι) (project : Option Project) (d : Text) :
    (conn.put i project).domainName d =
      if conn.uuid d = some i then
        project.bind fun domain => if domain.isDomain then some domain.name else none
      else conn.domainName d := by
  cases hd : conn.uuid d with
  | none => simp [Keystone.domainName, Keystone.put, hd]
  | some j =>
    by_cases hj : j = i
    · subst hj
      simp [Keystone.domainName, Keystone.put, hd]
    · simp [Keystone.domainName, Keystone.put, hd, hj]

omit [DecidableEq ι] in
theorem exists_of_domainName {conn : Keystone ι} {d name : Text}
    (h : conn.domainName d = some name) : ∃ i, conn.uuid d = some i ∧ conn.projects i ≠ none := by
  obtain ⟨i, hi, hrest⟩ := Option.bind_eq_some_iff.mp h
  obtain ⟨domain, hdomain, -⟩ := Option.bind_eq_some_iff.mp hrest
  exact ⟨i, hi, by simp [hdomain]⟩

/-- The name of the domain is looked up for the project. -/
def Project.LooksUp (project : Project) (d : Text) : Prop :=
  project.domainId = some d ∧ d ≠ [] ∧ d ≠ "default".toList

/-- The projects that are no domains have domains of the same names. -/
def SameDomains (conn conn' : Keystone ι) : Prop :=
  ∀ j project d, conn.projects j = some project → project.isDomain = false → project.LooksUp d →
    conn'.domainName d = conn.domainName d

omit [DecidableEq ι] in
theorem tenantAttrs_congr {conn conn' : Keystone ι} {project : Project}
    (h : ∀ d, project.LooksUp d → conn'.domainName d = conn.domainName d) :
    tenantAttrs conn' project = tenantAttrs conn project := by
  unfold tenantAttrs
  cases hd : project.domainId with
  | none => rfl
  | some d =>
    cases d with
    | nil => rfl
    | cons c d =>
      dsimp only
      by_cases hdefault : c :: d = "default".toList
      · rw [if_pos hdefault, if_pos hdefault]
      · rw [h (c :: d) ⟨hd, List.cons_ne_nil c d, hdefault⟩]

omit [DecidableEq ι] in
theorem domainName_of_attrs {conn : Keystone ι} {project : Project} {attrs : Text × Text}
    (h : tenantAttrs conn project = .ok attrs) {d : Text} (hd : project.LooksUp d) :
    conn.domainName d ≠ none := by
  obtain ⟨hid, hne, hdefault⟩ := hd
  intro hnone
  unfold tenantAttrs at h
  rw [hid] at h
  cases d with
  | nil => exact hne rfl
  | cons c d =>
    dsimp only at h
    rw [if_neg hdefault, hnone] at h
    cases h

/-- What is no domain before and after a change names none. -/
theorem domainName_put_of_not_domain {conn : Keystone ι} {i : ι} {project : Option Project}
    (hold : ∀ p, conn.projects i = some p → p.isDomain = false)
    (hnew : ∀ p, project = some p → p.isDomain = false) (d : Text) :
    (conn.put i project).domainName d = conn.domainName d := by
  rw [domainName_put]
  split_ifs with hd
  · have hbefore : conn.domainName d = none := by
      unfold Keystone.domainName
      rw [hd]
      cases hi : conn.projects i with
      | none => simp [hi]
      | some p => simp [hi, hold p hi]
    rw [hbefore]
    cases project with
    | none => rfl
    | some p => simp [hnew p rfl]
  · rfl

/-- The projects and tenants have names that are owned, each by one id. -/
def Owned (owner : Text → ι) (conn : Keystone ι) (id : ι) (project : Project) : Prop :=
  project.isDomain = true ∨
    ∃ name description, tenantAttrs conn project = .ok (name, description) ∧ owner name = id

structure Inv (owner : Text → ι) (w : World ι) : Prop where
  used : ∀ id project, w.conn.projects id = some project → id ∈ w.used
  creates : ∀ id, (.projectCreate, id) ∈ w.pending → id ∈ w.used ∧
    ∀ project, w.conn.projects id = some project → project.isDomain = false
  deletes : ∀ id, (.projectDelete, id) ∈ w.pending → id ∈ w.used ∧ w.conn.projects id = none
  owned : ∀ id project, w.conn.projects id = some project → Owned owner w.conn id project
  names : ∀ t ∈ w.nautobot.tenants.rows, owner t.name = t.id
  devices : Referential w.nautobot

/-- An event whose handler gives the project its tenant, or takes it away. -/
def Heals (w : World ι) (id : ι) : Event → Prop
  | .projectCreate => w.nautobot.tenants.get id = none ∧
      ∃ project, w.conn.projects id = some project ∧ project.isDomain = false
  | .projectUpdate => ∃ project, w.conn.projects id = some project ∧ project.isDomain = false
  | .projectDelete => w.conn.projects id = none

def Current (w : World ι) (id : ι) : Prop :=
  w.nautobot.tenants.get id = expected w.conn id ∨
    ∃ event, (event, id) ∈ w.pending ∧ Heals w id event

variable {owner : Text → ι} {w : World ι} {id : ι}

omit [DecidableEq ι] in
theorem expected_of_owned {project : Project} (h : w.conn.projects id = some project)
    (hdomain : project.isDomain = false) {name description : Text}
    (hattrs : tenantAttrs w.conn project = .ok (name, description)) :
    expected w.conn id = some ⟨id, name, description⟩ := by
  simp [expected, h, hdomain, hattrs]

/-- No other tenant has a name that the project owns. -/
theorem upsert_of_owned (hnames : ∀ t ∈ w.nautobot.tenants.rows, owner t.name = t.id)
    {name : Text} (hname : owner name = id) (description : Text) :
    ∃ tenants, w.nautobot.tenants.upsert ⟨id, name, description⟩ = some tenants := by
  rw [← Option.ne_none_iff_exists', ne_eq, Table.upsert_eq_none_iff]
  rintro ⟨t, ht, hid, hslot⟩
  refine hid ((hnames t ht).symm.trans ?_)
  exact (congrArg owner hslot).trans hname

/-- What the handling of an event does to the tenants. -/
structure Handled (owner : Text → ι) (w : World ι) (event : Event) (id : ι) (nb : Nautobot ι) :
    Prop where
  get : ∀ i ≠ id, nb.tenants.get i = w.nautobot.tenants.get i
  names : ∀ t ∈ nb.tenants.rows, owner t.name = t.id
  devices : Referential nb
  current : nb.tenants.get id = expected w.conn id ∨
    nb.tenants.get id = w.nautobot.tenants.get id ∧ ¬Heals w id event

theorem handled_unchanged {event : Event} (hw : Inv owner w) (h : ¬Heals w id event) :
    Handled owner w event id w.nautobot :=
  ⟨fun _ _ => rfl, hw.names, hw.devices, Or.inr ⟨rfl, h⟩⟩

/-- A tenant is written as the project is to have it. -/
theorem handled_written {event : Event} (hw : Inv owner w) {project : Project}
    (hproject : w.conn.projects id = some project) (hdomain : project.isDomain = false)
    {name description : Text} (hattrs : tenantAttrs w.conn project = .ok (name, description))
    (hname : owner name = id) {tenants : Table (tenants ι)}
    (h : w.nautobot.tenants.upsert ⟨id, name, description⟩ = some tenants) :
    Handled owner w event id { w.nautobot with tenants } where
  get := fun i hi => by
    show tenants.get i = _
    rw [Table.get_upsert h]
    exact if_neg hi
  names := fun t ht => by
    rcases (Table.mem_upsert h).mp ht with rfl | ⟨ht, -⟩
    · exact hname
    · exact hw.names t ht
  devices := fun d hd i htenant => by
    show tenants.get i ≠ none
    rw [Table.get_upsert h]
    split_ifs
    · simp
    · exact hw.devices d hd i htenant
  current := Or.inl (by
    show tenants.get id = _
    rw [Table.get_upsert h, expected_of_owned hproject hdomain hattrs]
    exact if_pos rfl)

theorem handled_doAction (hw : Inv owner w) {event : Event} (hevent : (event, id) ∈ w.pending)
    (hholders : event = .projectDelete → id ∉ w.nautobot.holders) :
    Handled owner w event id (doAction w.conn event id w.nautobot).2 := by
  have hattrs {project : Project} (hproject : w.conn.projects id = some project)
      (hdomain : project.isDomain = false) : ∃ name description,
      tenantAttrs w.conn project = .ok (name, description) ∧ owner name = id :=
    (hw.owned id project hproject).resolve_left (by simp [hdomain])
  cases event with
  | projectCreate =>
    unfold doAction handleProjectCreate
    cases hproject : w.conn.projects id with
    | none => exact handled_unchanged hw fun h => by simp [Heals, hproject] at h
    | some project =>
      have hdomain := (hw.creates id hevent).2 project hproject
      obtain ⟨name, description, heq, hname⟩ := hattrs hproject hdomain
      dsimp only
      rw [heq]
      cases hget : w.nautobot.tenants.get id with
      | none =>
        obtain ⟨tenants, hupsert⟩ := upsert_of_owned hw.names hname description
        have hcreate : w.nautobot.tenants.create ⟨id, name, description⟩ = some tenants := by
          rwa [Table.upsert, show w.nautobot.tenants.get ((KeystoneTenants.tenants ι).id
            ⟨id, name, description⟩) = none from hget] at hupsert
        dsimp only
        rw [hcreate]
        exact handled_written hw hproject hdomain heq hname hupsert
      | some old =>
        -- the tenant is there already, and the call is refused
        have hcreate : w.nautobot.tenants.create ⟨id, name, description⟩ = none := by
          obtain ⟨hold, hid⟩ := Table.get_eq_some_iff.mp hget
          exact Table.create_eq_none_iff.mpr ⟨old, hold, Or.inl hid⟩
        dsimp only
        rw [hcreate]
        exact handled_unchanged hw fun h => by simp [Heals, hget] at h
  | projectUpdate =>
    unfold doAction handleProjectUpdate
    cases hproject : w.conn.projects id with
    | none => exact handled_unchanged hw fun h => by simp [Heals, hproject] at h
    | some project =>
      dsimp only
      cases hdomain : project.isDomain with
      | true => exact handled_unchanged hw fun h => by simp [Heals, hproject, hdomain] at h
      | false =>
        obtain ⟨name, description, heq, hname⟩ := hattrs hproject hdomain
        obtain ⟨tenants, hupsert⟩ := upsert_of_owned hw.names hname description
        rw [if_neg Bool.false_ne_true, heq]
        dsimp only
        rw [hupsert]
        exact handled_written hw hproject hdomain heq hname hupsert
  | projectDelete =>
    obtain ⟨hget, hsub, hdevices⟩ := handleProjectDelete_spec hw.devices (hholders rfl)
    refine ⟨fun i hi => (hget i).trans (if_neg hi), fun t ht => hw.names t (hsub t ht), hdevices,
      Or.inl ?_⟩
    have hnone := (hw.deletes id hevent).2
    exact (hget id).trans (by simp [expected, hnone])

/-- A project gets a name that no other has had, for which its domain is there; a domain that has
projects is not renamed or removed; and where a removal is handled, no prefix or network has the
tenant. -/
def Allowed (owner : Text → ι) (w : World ι) : Action ι → Prop
  | .create id project => Owned owner w.conn id project
  | .update id project =>
    Owned owner w.conn id project ∧ SameDomains w.conn (w.conn.put id (some project))
  | .delete id => SameDomains w.conn (w.conn.put id none)
  | .handle n _ => ∀ id, w.pending[n]? = some (.projectDelete, id) → id ∉ w.nautobot.holders
  | .assign _ _ | .hold _ | .release _ => True

/-- What Keystone does to a project. -/
def World.change (w : World ι) (id : ι) (project : Option Project) (used : List ι)
    (pending : List (Event × ι)) : World ι :=
  { w with
    conn := w.conn.put id project
    used := used
    pending := pending }

@[simp] theorem projects_change (w : World ι) (id : ι) (project : Option Project) (used : List ι)
    (pending : List (Event × ι)) (i : ι) :
    (w.change id project used pending).conn.projects i =
      if i = id then project else w.conn.projects i :=
  Function.update_apply _ _ _ _

omit [DecidableEq ι] in
theorem Owned.congr {conn conn' : Keystone ι} {project : Project} (h : Owned owner conn id project)
    (hsame : project.isDomain = false → ∀ d, project.LooksUp d →
      conn'.domainName d = conn.domainName d) : Owned owner conn' id project := by
  cases hdomain : project.isDomain with
  | true => exact Or.inl hdomain
  | false =>
    obtain ⟨name, description, hattrs, hname⟩ := h.resolve_left (by simp [hdomain])
    exact Or.inr ⟨name, description, (tenantAttrs_congr (hsame hdomain)).trans hattrs, hname⟩

theorem Inv.projects_of_unused (hw : Inv owner w) (hused : id ∉ w.used) :
    w.conn.projects id = none := by
  by_contra hsome
  obtain ⟨project, hproject⟩ := Option.ne_none_iff_exists'.mp hsome
  exact hused (hw.used id project hproject)

/-- A new domain has no projects. -/
theorem Inv.sameDomains_create (hw : Inv owner w) (hused : id ∉ w.used) (project : Project) :
    SameDomains w.conn (w.conn.put id (some project)) := by
  have hnone := hw.projects_of_unused hused
  intro j p d hp hdomain hd
  rw [domainName_put, if_neg]
  intro hid
  obtain ⟨name, description, hattrs, -⟩ := (hw.owned j p hp).resolve_left (by simp [hdomain])
  obtain ⟨name, hname⟩ := Option.ne_none_iff_exists'.mp (domainName_of_attrs hattrs hd)
  obtain ⟨i, hi, hsome⟩ := exists_of_domainName hname
  rw [hid] at hi
  exact hsome (Option.some.inj hi ▸ hnone)

/-- A project owns its name after the change that gives it the name. -/
theorem Owned.put {conn : Keystone ι} {project : Project} (h : Owned owner conn id project)
    (hold : ∀ p, conn.projects id = some p → p.isDomain = project.isDomain) :
    Owned owner (conn.put id (some project)) id project := by
  refine h.congr fun hdomain d _ => domainName_put_of_not_domain (fun p hp => ?_) (fun p hp => ?_) d
  · rw [hold p hp, hdomain]
  · cases hp
    exact hdomain

theorem Inv.change (hw : Inv owner w) {project : Option Project} {used : List ι}
    {pending : List (Event × ι)} (hsame : SameDomains w.conn (w.conn.put id project))
    (hused : ∀ i, i ∈ w.used ∨ i = id → i ∈ used)
    (hpending : ∀ event i, (event, i) ∈ pending → (event, i) ∈ w.pending ∨ i = id)
    (howned : ∀ p, project = some p → Owned owner (w.conn.put id project) id p)
    (hcreate : (.projectCreate, id) ∈ pending → ∀ p, project = some p → p.isDomain = false)
    (hdelete : (.projectDelete, id) ∈ pending → project = none) :
    Inv owner (w.change id project used pending) := by
  refine ⟨fun i p hp => ?_, fun i hi => ⟨?_, fun p hp => ?_⟩, fun i hi => ⟨?_, ?_⟩, fun i p hp => ?_,
    hw.names, hw.devices⟩
  · rw [projects_change] at hp
    split_ifs at hp with heq
    · exact hused i (Or.inr heq)
    · exact hused i (Or.inl (hw.used i p hp))
  · exact hused i ((hpending _ i hi).imp_left fun h => (hw.creates i h).1)
  · rw [projects_change] at hp
    split_ifs at hp with heq
    · exact hcreate (heq ▸ hi) p hp
    · exact (hw.creates i ((hpending _ i hi).resolve_right heq)).2 p hp
  · exact hused i ((hpending _ i hi).imp_left fun h => (hw.deletes i h).1)
  · rw [projects_change]
    split_ifs with heq
    · exact hdelete (heq ▸ hi)
    · exact (hw.deletes i ((hpending _ i hi).resolve_right heq)).2
  · rw [projects_change] at hp
    split_ifs at hp with heq
    · exact heq ▸ howned p hp
    · exact (hw.owned i p hp).congr fun hdomain d => hsame i p d hp hdomain

/-- A step changes nothing, is a change in Keystone, or changes Nautobot's objects. -/
theorem step_cases (w : World ι) (a : Action ι) :
    step w a = w ∨
    (∃ id project, a = .create id project ∧ id ∉ w.used ∧
      step w a = w.change id (some project) (id :: w.used)
        (if project.isDomain then w.pending else (.projectCreate, id) :: w.pending)) ∨
    (∃ id old project, a = .update id project ∧ w.conn.projects id = some old ∧
      old.isDomain = project.isDomain ∧
      step w a = w.change id (some project) w.used ((.projectUpdate, id) :: w.pending)) ∨
    (∃ id old, a = .delete id ∧ w.conn.projects id = some old ∧
      step w a = w.change id none w.used
        (if old.isDomain then w.pending else (.projectDelete, id) :: w.pending)) ∨
    (∃ n redelivered event id pending, a = .handle n redelivered ∧
      w.pending[n]? = some (event, id) ∧
      (pending = w.pending ∨ pending = w.pending.eraseIdx n) ∧
      step w a = { w with nautobot := (doAction w.conn event id w.nautobot).2, pending }) ∨
    (∃ device id, w.nautobot.tenants.get id ≠ none ∧
      step w a = { w with
        nautobot := { w.nautobot with
          devices := w.nautobot.devices.map fun d =>
            if d.id = device then { d with tenant := some id } else d } }) ∨
    ∃ holders, step w a = { w with nautobot := { w.nautobot with holders } } := by
  cases a with
  | create id project =>
    by_cases hused : id ∈ w.used
    · exact Or.inl (if_pos hused)
    · exact Or.inr (Or.inl ⟨id, project, rfl, hused, if_neg hused⟩)
  | update id project =>
    cases hproject : w.conn.projects id with
    | none => exact Or.inl (by simp only [step, hproject])
    | some old =>
      by_cases hdomain : old.isDomain = project.isDomain
      · refine Or.inr (Or.inr (Or.inl ⟨id, old, project, rfl, hproject, hdomain, ?_⟩))
        simp only [step, hproject, hdomain, if_true, World.change]
      · exact Or.inl (by simp only [step, hproject, hdomain, if_false])
  | delete id =>
    cases hproject : w.conn.projects id with
    | none => exact Or.inl (by simp only [step, hproject])
    | some old =>
      refine Or.inr (Or.inr (Or.inr (Or.inl ⟨id, old, rfl, hproject, ?_⟩)))
      simp only [step, hproject, World.change]
  | handle n redelivered =>
    cases hn : w.pending[n]? with
    | none => exact Or.inl (by simp only [step, hn])
    | some p =>
      obtain ⟨event, id⟩ := p
      refine Or.inr (Or.inr (Or.inr (Or.inr (Or.inl ⟨n, redelivered, event, id,
        if redelivered then w.pending else w.pending.eraseIdx n, rfl, hn, ?_, ?_⟩))))
      · cases redelivered
        · exact Or.inr rfl
        · exact Or.inl rfl
      · simp only [step, hn]
  | assign device id =>
    by_cases hget : (w.nautobot.tenants.get id).isSome
    · refine Or.inr (Or.inr (Or.inr (Or.inr (Or.inr (Or.inl ⟨device, id, ?_, if_pos hget⟩)))))
      exact Option.isSome_iff_ne_none.mp hget
    · exact Or.inl (if_neg hget)
  | hold id =>
    by_cases hget : (w.nautobot.tenants.get id).isSome
    · exact Or.inr (Or.inr (Or.inr (Or.inr (Or.inr (Or.inr ⟨_, if_pos hget⟩)))))
    · exact Or.inl (if_neg hget)
  | release id => exact Or.inr (Or.inr (Or.inr (Or.inr (Or.inr (Or.inr ⟨_, rfl⟩)))))

theorem inv_step (hw : Inv owner w) {a : Action ι} (ha : Allowed owner w a) :
    Inv owner (step w a) := by
  rcases step_cases w a with heq | ⟨id, project, rfl, hused, heq⟩ |
    ⟨id, old, project, rfl, hold, hdomain, heq⟩ | ⟨id, old, rfl, hold, heq⟩ |
    ⟨n, redelivered, event, id, pending, rfl, hn, hpending, heq⟩ | ⟨device, id, hget, heq⟩ |
    ⟨holders, heq⟩ <;> rw [heq]
  · exact hw
  · refine hw.change (hw.sameDomains_create hused project) (fun i hi => ?_) (fun event i hi => ?_)
      (fun p hp => ?_) (fun hi p hp => ?_) (fun hi => ?_)
    · exact List.mem_cons.mpr hi.symm
    · split_ifs at hi
      · exact Or.inl hi
      · exact (List.mem_cons.mp hi).symm.imp_right fun h => congrArg Prod.snd h
    · obtain rfl := Option.some.inj hp
      exact Owned.put ha fun old hold => (hused (hw.used id old hold)).elim
    · split_ifs at hi with hdomain
      · exact (hused (hw.creates id hi).1).elim
      · exact Option.some.inj hp ▸ Bool.eq_false_iff.mpr hdomain
    · have hin : (.projectDelete, id) ∈ w.pending := by
        split_ifs at hi
        · exact hi
        · exact (List.mem_cons.mp hi).resolve_left (by simp)
      exact (hused (hw.deletes id hin).1).elim
  · have hsame {event : Event} (h : event ≠ .projectUpdate)
        (hi : (event, id) ∈ (Event.projectUpdate, id) :: w.pending) : (event, id) ∈ w.pending :=
      (List.mem_cons.mp hi).resolve_left fun h' => h (congrArg Prod.fst h')
    refine hw.change ha.2 (fun i hi => ?_) (fun event i hi => ?_) (fun p hp => ?_)
      (fun hi p hp => ?_) (fun hi => ?_)
    · exact hi.elim (fun h => h) fun h => h ▸ hw.used id old hold
    · exact (List.mem_cons.mp hi).symm.imp_right fun h => congrArg Prod.snd h
    · obtain rfl := Option.some.inj hp
      refine ha.1.put fun p hp => ?_
      rw [hold] at hp
      exact Option.some.inj hp ▸ hdomain
    · have hnot := (hw.creates id (hsame (by decide) hi)).2 old hold
      exact Option.some.inj hp ▸ hdomain.symm.trans hnot
    · have hnone := (hw.deletes id (hsame (by decide) hi)).2
      rw [hold] at hnone
      cases hnone
  · refine hw.change ha (fun i hi => ?_) (fun event i hi => ?_) (fun p hp => ?_) (fun hi p hp => ?_)
      (fun _ => rfl)
    · exact hi.elim (fun h => h) fun h => h ▸ hw.used id old hold
    · split_ifs at hi
      · exact Or.inl hi
      · exact (List.mem_cons.mp hi).symm.imp_right fun h => congrArg Prod.snd h
    · cases hp
    · cases hp
  · have hevent := List.mem_of_getElem? hn
    have hhandled := handled_doAction hw hevent fun h => ha id (h ▸ hn)
    have hsub {x : Event × ι} (hx : x ∈ pending) : x ∈ w.pending := by
      rcases hpending with rfl | rfl
      · exact hx
      · exact List.mem_of_mem_eraseIdx hx
    exact ⟨hw.used, fun i hi => hw.creates i (hsub hi), fun i hi => hw.deletes i (hsub hi),
      hw.owned, hhandled.names, hhandled.devices⟩
  · refine ⟨hw.used, hw.creates, hw.deletes, hw.owned, hw.names, fun d hd i htenant => ?_⟩
    obtain ⟨old, hold, rfl⟩ := List.mem_map.mp hd
    split_ifs at htenant
    · exact Option.some.inj htenant ▸ hget
    · exact hw.devices old hold i htenant
  · exact ⟨hw.used, hw.creates, hw.deletes, hw.owned, hw.names, hw.devices⟩

theorem expected_change {i : ι} {project : Option Project} (used : List ι)
    (pending : List (Event × ι)) (hne : id ≠ i)
    (hsame : SameDomains w.conn (w.conn.put i project)) :
    expected (w.change i project used pending).conn id = expected w.conn id := by
  rw [expected, projects_change, if_neg hne, expected]
  refine Option.bind_congr fun p hp => ?_
  cases hdomain : p.isDomain with
  | true => rfl
  | false =>
    have hattrs : tenantAttrs (w.change i project used pending).conn p = tenantAttrs w.conn p :=
      tenantAttrs_congr fun d => hsame id p d hp hdomain
    rw [hattrs]

omit [DecidableEq ι] in
theorem expected_of_domain {project : Project} (h : w.conn.projects id = some project)
    (hdomain : project.isDomain = true) : expected w.conn id = none := by
  simp [expected, h, hdomain]

omit [DecidableEq ι] in
theorem expected_of_none (h : w.conn.projects id = none) : expected w.conn id = none := by
  simp [expected, h]

theorem expected_change_domain {project : Project} (hdomain : project.isDomain = true)
    (used : List ι) (pending : List (Event × ι)) :
    expected (w.change id (some project) used pending).conn id = none := by
  refine expected_of_domain ?_ hdomain
  rw [projects_change, if_pos rfl]

/-- A change to one project leaves the others as they are. -/
theorem Current.change_other (h : Current w id) {i : ι} (hne : id ≠ i) {project : Option Project}
    (hsame : SameDomains w.conn (w.conn.put i project)) {used : List ι} {pending : List (Event × ι)}
    (hpending : w.pending ⊆ pending) :
    Current (w.change i project used pending) id := by
  have hprojects : (w.change i project used pending).conn.projects id = w.conn.projects id := by
    rw [projects_change, if_neg hne]
  rcases h with hget | ⟨event, hevent, hheals⟩
  · exact Or.inl (hget.trans (expected_change used pending hne hsame).symm)
  · refine Or.inr ⟨event, hpending hevent, ?_⟩
    cases event with
    | projectCreate => exact ⟨hheals.1, hprojects ▸ hheals.2⟩
    | projectUpdate =>
      rw [Heals, hprojects]
      exact hheals
    | projectDelete => exact hprojects.trans hheals

/-- A domain has no tenant. -/
theorem Current.of_domain (h : Current w id) {project : Project}
    (hproject : w.conn.projects id = some project) (hdomain : project.isDomain = true) :
    w.nautobot.tenants.get id = none := by
  have hnot : ¬∃ p, w.conn.projects id = some p ∧ p.isDomain = false := by
    rintro ⟨p, hp, hfalse⟩
    rw [hproject] at hp
    rw [← Option.some.inj hp, hdomain] at hfalse
    cases hfalse
  rcases h with hget | ⟨event, -, hheals⟩
  · rw [hget, expected_of_domain hproject hdomain]
  · cases event with
    | projectCreate => exact (hnot hheals.2).elim
    | projectUpdate => exact (hnot hheals).elim
    | projectDelete =>
      rw [Heals, hproject] at hheals
      cases hheals

/-- A project that never was has no tenant. -/
theorem Current.of_unused (h : Current w id) (hw : Inv owner w) (hused : id ∉ w.used) :
    w.nautobot.tenants.get id = none := by
  have hnone := hw.projects_of_unused hused
  rcases h with hget | ⟨event, hevent, hheals⟩
  · rw [hget, expected_of_none hnone]
  · cases event with
    | projectCreate => exact hheals.1
    | projectUpdate =>
      obtain ⟨project, hproject, -⟩ := hheals
      rw [hnone] at hproject
      cases hproject
    | projectDelete => exact (hused (hw.deletes id hevent).1).elim

/-- What is current stays so, or an event that heals it is pending. -/
theorem current_step (hw : Inv owner w) (h : Current w id) {a : Action ι}
    (ha : Allowed owner w a) : Current (step w a) id := by
  have hsub {b : Bool} {x : Event × ι} :
      w.pending ⊆ if b then w.pending else x :: w.pending := by
    split_ifs
    · exact List.Subset.refl _
    · exact List.subset_cons_self _ _
  rcases step_cases w a with heq | ⟨i, project, rfl, hused, heq⟩ |
    ⟨i, old, project, rfl, hold, hdomain, heq⟩ | ⟨i, old, rfl, hold, heq⟩ |
    ⟨n, redelivered, event, i, pending, rfl, hn, hpending, heq⟩ | ⟨device, i, hget, heq⟩ |
    ⟨holders, heq⟩ <;> rw [heq]
  · exact h
  · by_cases hne : id = i
    · subst hne
      have hnone := h.of_unused hw hused
      cases hdomain : project.isDomain with
      | true =>
        exact Or.inl (hnone.trans (expected_change_domain hdomain _ _).symm)
      | false =>
        refine Or.inr ⟨.projectCreate, List.mem_cons_self, hnone, project, ?_, hdomain⟩
        rw [projects_change, if_pos rfl]
    · exact h.change_other hne (hw.sameDomains_create hused project) hsub
  · by_cases hne : id = i
    · subst hne
      cases hnew : project.isDomain with
      | true =>
        have hnone := h.of_domain hold (hdomain.trans hnew)
        exact Or.inl (hnone.trans (expected_change_domain hnew _ _).symm)
      | false =>
        refine Or.inr ⟨.projectUpdate, List.mem_cons_self, project, ?_, hnew⟩
        rw [projects_change, if_pos rfl]
    · exact h.change_other hne ha.2 (List.subset_cons_self _ _)
  · by_cases hne : id = i
    · subst hne
      have hgone (used : List ι) (pending : List (Event × ι)) :
          (w.change id none used pending).conn.projects id = none := by
        rw [projects_change, if_pos rfl]
      cases hdomain : old.isDomain with
      | true => exact Or.inl ((h.of_domain hold hdomain).trans (expected_of_none (hgone _ _)).symm)
      | false => exact Or.inr ⟨.projectDelete, List.mem_cons_self, hgone _ _⟩
    · exact h.change_other hne ha hsub
  · have hhandled := handled_doAction hw (List.mem_of_getElem? hn) fun h => ha i (h ▸ hn)
    have hstays {x : Event × ι} (hx : x ∈ w.pending) (hne : x ≠ (event, i)) : x ∈ pending := by
      rcases hpending with rfl | rfl
      · exact hx
      · obtain ⟨m, hm⟩ := List.mem_iff_getElem?.mp hx
        refine List.mem_eraseIdx_iff_getElem?.mpr ⟨m, fun heq => hne ?_, hm⟩
        exact Option.some.inj (hm.symm.trans (heq ▸ hn))
    -- the tenant is as the project has it, or it is as it was and another event heals it
    have hkept (hget : (doAction w.conn event i w.nautobot).2.tenants.get id =
        w.nautobot.tenants.get id) (hother : ∀ e, Heals w id e → (e, id) ≠ (event, i)) :
        Current { w with nautobot := (doAction w.conn event i w.nautobot).2, pending } id := by
      rcases h with hcurrent | ⟨e, he, hheals⟩
      · exact Or.inl (hget.trans hcurrent)
      · refine Or.inr ⟨e, hstays he (hother e hheals), ?_⟩
        cases e with
        | projectCreate => exact ⟨hget.trans hheals.1, hheals.2⟩
        | projectUpdate => exact hheals
        | projectDelete => exact hheals
    by_cases hne : id = i
    · subst hne
      rcases hhandled.current with hcurrent | ⟨hget, hnot⟩
      · exact Or.inl hcurrent
      · refine hkept hget fun e he heq => hnot ?_
        have hevent : e = event := congrArg Prod.fst heq
        exact hevent ▸ he
    · exact hkept (hhandled.get id hne) fun e _ heq => hne (congrArg Prod.snd heq)
  · exact h
  · exact h

theorem inv_start (owner : Text → ι) (uuid : Text → Option ι) {devices : List (Device ι)}
    (h : ∀ d ∈ devices, d.tenant = none) :
    Inv owner ⟨⟨fun _ => none, uuid⟩, [], [], ⟨Table.empty, devices, []⟩⟩ where
  used := fun _ _ h => by cases h
  creates := fun _ h => by cases h
  deletes := fun _ h => by cases h
  owned := fun _ _ h => by cases h
  names := fun _ h => by cases h
  devices := fun d hd id hid => by
    rw [h d hd] at hid
    cases hid

/-- Whatever happens in Keystone, and in whatever order the events are handled: once none of a
project is left, its tenant is as the project has it, and a removed tenant has no devices. -/
theorem tenants_follow_projects (owner : Text → ι) {w : World ι} (hw : Inv owner w) {id : ι}
    (hid : Current w id) {actions : List (Action ι)}
    (h : Runs.Along step (Allowed owner) w actions) :
    ((∀ event, (event, id) ∉ (actions.foldl step w).pending) →
      (actions.foldl step w).nautobot.tenants.get id = expected (actions.foldl step w).conn id) ∧
    Referential (actions.foldl step w).nautobot := by
  obtain ⟨hinv, hcurrent⟩ := Runs.Along.invariant (I := fun w => Inv owner w ∧ Current w id)
    (fun w a hw ha => ⟨inv_step hw.1 ha, current_step hw.1 hw.2 ha⟩) ⟨hw, hid⟩ h List.prefix_rfl
  refine ⟨fun hquiet => ?_, hinv.devices⟩
  rcases hcurrent with hget | ⟨event, hevent, -⟩
  · exact hget
  · exact (hquiet event hevent).elim

def plainProject (name : Text) : Project := ⟨name, some "default".toList, none, false⟩

def emptyWorld : World ℕ :=
  ⟨⟨fun _ => none, fun _ => none⟩, [], [], ⟨Table.empty, [⟨"device".toList, none⟩], []⟩⟩

def reorderedActions : List (Action ℕ) :=
  [.create 1 (plainProject "a".toList), .update 1 (plainProject "b".toList), .handle 0 false,
    .handle 0 false, .assign "device".toList 1]

/-- The update is handled before the creation. -/
theorem tenants_follow_projects_reordered :
    (reorderedActions.foldl step emptyWorld).nautobot.tenants.get 1 =
        some ⟨1, "default:b".toList, "None".toList⟩ ∧
      Referential (reorderedActions.foldl step emptyWorld).nautobot := by
  have hstart : Inv (fun _ => 1) emptyWorld :=
    inv_start _ _ fun d hd => List.mem_singleton.mp hd ▸ rfl
  have hsame (conn : Keystone ℕ) (hproject : conn.projects 1 = some (plainProject "a".toList)) :
      SameDomains conn (conn.put 1 (some (plainProject "b".toList))) := by
    intro _ _ d _ _ _
    refine domainName_put_of_not_domain (fun p hp => ?_) (fun p hp => ?_) d
    · rw [hproject] at hp
      exact Option.some.inj hp ▸ rfl
    · exact Option.some.inj hp ▸ rfl
  have hallowed : Runs.Along step (Allowed fun _ => 1) emptyWorld reorderedActions :=
    ⟨Or.inr ⟨_, _, rfl, rfl⟩, ⟨Or.inr ⟨_, _, rfl, rfl⟩, hsame _ rfl⟩,
      fun _ _ => List.not_mem_nil, fun _ _ => List.not_mem_nil, trivial, trivial⟩
  have hquiet : (reorderedActions.foldl step emptyWorld).pending = [] := rfl
  have hcurrent : Current emptyWorld 1 := Or.inl rfl
  obtain ⟨hget, hdevices⟩ := tenants_follow_projects (fun _ => 1) hstart hcurrent hallowed
  refine ⟨hget fun event h => ?_, hdevices⟩
  rw [hquiet] at h
  cases h

end Understack.Workflows.KeystoneTenants
