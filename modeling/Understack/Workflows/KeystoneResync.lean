import Understack.Workflows.KeystoneTenants

/-! `resync_keystone_to_nautobot`: what it counts as failed is what is out of date afterwards, and
tenants that have each other's names stay so. -/
namespace Understack.Workflows.KeystoneTenants
open PyText KeyedTable

variable {ι : Type} [DecidableEq ι] {conn : Keystone ι} {nb nb' : Nautobot ι}
  {projects : List (ι × Project)} {result res : SyncResult} {id : ι}

/-- The projects are listed as Keystone has them. -/
def Listed (conn : Keystone ι) (projects : List (ι × Project)) : Prop :=
  ∀ x ∈ projects, conn.projects x.1 = some x.2

omit [DecidableEq ι] in
theorem id_of_expected {t : Tenant ι} (h : expected conn id = some t) : t.id = id := by
  obtain ⟨project, -, hproject⟩ := Option.bind_eq_some_iff.mp h
  split_ifs at hproject
  cases hattrs : tenantAttrs conn project with
  | error e =>
    rw [hattrs] at hproject
    cases hproject
  | ok attrs =>
    rw [hattrs] at hproject
    cases hproject
    rfl

/-- The handler raises, or writes the tenant that the project is to have, which may be refused. -/
theorem handleProjectUpdate_cases {project : Project} (h : conn.projects id = some project)
    (hdomain : project.isDomain = false) (nb : Nautobot ι) :
    (∃ e, handleProjectUpdate conn id nb = (.error e, nb) ∧ expected conn id = none) ∨
    ∃ t, expected conn id = some t ∧
      ((nb.tenants.upsert t = none ∧ handleProjectUpdate conn id nb = (.ok .apiError, nb)) ∨
        ∃ tenants, nb.tenants.upsert t = some tenants ∧
          handleProjectUpdate conn id nb = (.ok .success, { nb with tenants })) := by
  unfold handleProjectUpdate expected
  rw [h, Option.bind_some]
  dsimp only
  rw [if_neg (Bool.eq_false_iff.mp hdomain), if_neg (Bool.eq_false_iff.mp hdomain)]
  cases hattrs : tenantAttrs conn project with
  | error e => exact Or.inl ⟨e, rfl, rfl⟩
  | ok attrs =>
    refine Or.inr ⟨_, rfl, ?_⟩
    dsimp only
    cases hupsert : nb.tenants.upsert ⟨id, attrs.1, attrs.2⟩ with
    | none => exact Or.inl ⟨rfl, rfl⟩
    | some tenants => exact Or.inr ⟨tenants, rfl, rfl⟩

/-- The tenants that a resync wrote or failed to write. -/
structure Resynced (conn : Keystone ι) (projects : List (ι × Project)) (result res : SyncResult)
    (rows : List (Tenant ι × Bool)) : Prop where
  written : rows.map Prod.fst = projects.filterMap fun x => expected conn x.1
  domains : ∀ x ∈ projects, expected conn x.1 = none → x.2.isDomain = true
  total : res.total = result.total + projects.length
  failed : res.failed = result.failed + rows.countP fun x => !x.2
  skipped : res.skipped = result.skipped + projects.countP fun x => x.2.isDomain

omit [DecidableEq ι] in
theorem resynced_cons {project : Project} {t : Tenant ι} {ok : Bool}
    {rows : List (Tenant ι × Bool)} {failed : ℕ} (ht : expected conn id = some t)
    (hdomain : project.isDomain = false) (hfailed : failed = result.failed + if ok then 0 else 1)
    (h : Resynced conn projects ⟨result.total + 1, failed, result.skipped⟩ res rows) :
    Resynced conn ((id, project) :: projects) result res ((t, ok) :: rows) where
  written := by rw [List.map_cons, h.written, List.filterMap_cons, ht]
  domains := by
    intro x hx hnone
    rcases List.mem_cons.mp hx with rfl | hx
    · rw [ht] at hnone
      cases hnone
    · exact h.domains x hx hnone
  total := by
    have htotal : res.total = result.total + 1 + projects.length := h.total
    rw [htotal, List.length_cons]
    omega
  failed := by
    rw [h.failed, List.countP_cons, hfailed]
    cases ok
    · simp only [Bool.not_false, if_true, Bool.false_eq_true, if_false]
      omega
    · simp only [Bool.not_true, Bool.false_eq_true, if_false, if_true]
      omega
  skipped := by
    have hskipped : res.skipped = result.skipped + projects.countP fun x => x.2.isDomain :=
      h.skipped
    rw [hskipped, List.countP_cons, if_neg (Bool.eq_false_iff.mp hdomain), Nat.add_zero]

theorem upserts_syncProjects (hlisted : Listed conn projects) (result : SyncResult)
    (nb : Nautobot ι) :
    ∃ rows, Table.Upserts (fun _ => False) nb.tenants rows
        (syncProjects conn projects result nb).2.tenants ∧
      (∀ x ∈ rows, ∃ y ∈ projects, expected conn y.1 = some x.1) ∧
      ∀ res, (syncProjects conn projects result nb).1 = .ok res →
        Resynced conn projects result res rows := by
  induction projects generalizing result nb with
  | nil =>
    refine ⟨[], .nil _, fun x hx => (by cases hx), fun res hres => ?_⟩
    cases hres
    exact ⟨rfl, fun x hx => (by cases hx), rfl, rfl, rfl⟩
  | cons x projects ih =>
    obtain ⟨id, project⟩ := x
    have hproject : conn.projects id = some project := hlisted (id, project) List.mem_cons_self
    have hrest : Listed conn projects := fun y hy => hlisted y (List.mem_cons_of_mem _ hy)
    have hmem {t : Tenant ι} (h : ∃ y ∈ projects, expected conn y.1 = some t) :
        ∃ y ∈ (id, project) :: projects, expected conn y.1 = some t := by
      obtain ⟨y, hy, heq⟩ := h
      exact ⟨y, List.mem_cons_of_mem _ hy, heq⟩
    rw [syncProjects]
    dsimp only
    cases hdomain : project.isDomain with
    | true =>
      rw [if_pos rfl]
      obtain ⟨rows, hupserts, hrows, hres⟩ := ih hrest ⟨result.total + 1, result.failed,
        result.skipped + 1⟩ nb
      refine ⟨rows, hupserts, fun y hy => hmem (hrows y hy), fun res h => ?_⟩
      have hdone := hres res h
      have hnone : expected conn id = none := expected_of_domain (w := ⟨conn, [], [], nb⟩)
        hproject hdomain
      refine ⟨?_, fun y hy hy' => ?_, ?_, hdone.failed, ?_⟩
      · rw [hdone.written, List.filterMap_cons, hnone]
      · rcases List.mem_cons.mp hy with rfl | hy
        · exact hdomain
        · exact hdone.domains y hy hy'
      · have htotal : res.total = result.total + 1 + projects.length := hdone.total
        rw [htotal, List.length_cons]
        omega
      · have hskipped : res.skipped =
            result.skipped + 1 + projects.countP fun x => x.2.isDomain := hdone.skipped
        rw [hskipped, List.countP_cons, if_pos hdomain]
        omega
    | false =>
      rw [if_neg Bool.false_ne_true]
      rcases handleProjectUpdate_cases hproject hdomain nb with
        ⟨e, heq, hnone⟩ | ⟨t, ht, ⟨hupsert, heq⟩ | ⟨tenants, hupsert, heq⟩⟩
      · rw [heq]
        exact ⟨[], .nil _, fun x hx => (by cases hx), fun res h => by cases h⟩
      · rw [heq]
        obtain ⟨rows, hupserts, hrows, hres⟩ := ih hrest ⟨result.total + 1, result.failed + 1,
          result.skipped⟩ nb
        refine ⟨(t, false) :: rows, .failed (Or.inl hupsert) hupserts, ?_, fun res h => ?_⟩
        · exact List.forall_mem_cons.mpr ⟨⟨_, List.mem_cons_self, ht⟩, fun y hy => hmem (hrows y hy)⟩
        · exact resynced_cons ht hdomain (by simp) (hres res h)
      · rw [heq]
        obtain ⟨rows, hupserts, hrows, hres⟩ := ih hrest ⟨result.total + 1, result.failed,
          result.skipped⟩ { nb with tenants }
        refine ⟨(t, true) :: rows, .written hupsert hupserts, ?_, fun res h => ?_⟩
        · exact List.forall_mem_cons.mpr ⟨⟨_, List.mem_cons_self, ht⟩, fun y hy => hmem (hrows y hy)⟩
        · exact resynced_cons ht hdomain (by simp) (hres res h)

/-- With all tenants as they are to be, a resync changes nothing. -/
theorem syncProjects_of_current (hlisted : Listed conn projects)
    (h : ∀ x ∈ projects, x.2.isDomain = false →
      ∃ t ∈ nb.tenants.rows, expected conn x.1 = some t) (result : SyncResult) :
    syncProjects conn projects result nb =
      (.ok ⟨result.total + projects.length, result.failed,
        result.skipped + projects.countP fun x => x.2.isDomain⟩, nb) := by
  induction projects generalizing result with
  | nil => rfl
  | cons x projects ih =>
    obtain ⟨id, project⟩ := x
    have ih := ih (fun y hy => hlisted y (List.mem_cons_of_mem _ hy))
      fun y hy => h y (List.mem_cons_of_mem _ hy)
    rw [syncProjects]
    dsimp only
    cases hdomain : project.isDomain with
    | true =>
      rw [if_pos rfl, ih, List.length_cons, List.countP_cons, if_pos hdomain]
      simp only [Nat.add_assoc, Nat.add_comm 1]
    | false =>
      obtain ⟨t, ht, hexpected⟩ := h (id, project) List.mem_cons_self hdomain
      have hproject : conn.projects id = some project := hlisted (id, project) List.mem_cons_self
      have hunchanged : handleProjectUpdate conn id nb = (.ok .success, nb) := by
        rcases handleProjectUpdate_cases hproject hdomain nb with
          ⟨e, -, hnone⟩ | ⟨t', ht', hwrite⟩
        · rw [hnone] at hexpected
          cases hexpected
        · obtain rfl := Option.some.inj (hexpected.symm.trans ht')
          rw [Table.upsert_of_mem ht] at hwrite
          rcases hwrite with ⟨hnone, -⟩ | ⟨tenants, hsome, heq⟩
          · cases hnone
          · cases hsome
            exact heq
      rw [if_neg Bool.false_ne_true, hunchanged]
      dsimp only
      rw [ih, List.length_cons, List.countP_cons, if_neg (Bool.eq_false_iff.mp hdomain)]
      simp only [Nat.add_assoc, Nat.add_comm 1, Nat.add_zero]

omit [DecidableEq ι] in
theorem ids_written (conn : Keystone ι) (projects : List (ι × Project)) :
    ((projects.filterMap fun x => expected conn x.1).map Tenant.id).Sublist
      (projects.map Prod.fst) := by
  induction projects with
  | nil => exact .slnil
  | cons x projects ih =>
    rw [List.filterMap_cons]
    cases hexpected : expected conn x.1 with
    | none => exact ih.cons _
    | some t =>
      rw [List.map_cons, List.map_cons, id_of_expected hexpected]
      exact ih.cons_cons _

/-- A resync counts as failed the projects whose tenants are out of date after it; other tenants
stay, and after one without failures another changes nothing. -/
theorem resync_counts_out_of_date (hlisted : Listed conn projects)
    (hids : (projects.map Prod.fst).Nodup)
    (h : syncProjects conn projects ⟨0, 0, 0⟩ nb = (.ok res, nb')) :
    (res.total = projects.length ∧ res.skipped = projects.countP (fun x => x.2.isDomain) ∧
      res.failed = projects.countP fun x =>
        !x.2.isDomain && nb'.tenants.get x.1 ≠ expected conn x.1) ∧
    (∀ t : Tenant ι, t.id ∉ projects.map Prod.fst →
      (t ∈ nb'.tenants.rows ↔ t ∈ nb.tenants.rows)) ∧
    (res.failed = 0 → syncProjects conn projects ⟨0, 0, 0⟩ nb' = (.ok res, nb')) := by
  obtain ⟨rows, hupserts, hrows, hres⟩ := upserts_syncProjects hlisted ⟨0, 0, 0⟩ nb
  rw [h] at hupserts hres
  have hdone := hres res rfl
  have htotal : res.total = projects.length := hdone.total.trans (Nat.zero_add _)
  have hskipped : res.skipped = projects.countP fun x => x.2.isDomain :=
    hdone.skipped.trans (Nat.zero_add _)
  have hfailed : res.failed = rows.countP fun x => !x.2 := hdone.failed.trans (Nat.zero_add _)
  have hrowIds : (rows.map fun x => (tenants ι).id x.1).Nodup := by
    have hsub := ids_written conn projects
    rw [← hdone.written, List.map_map] at hsub
    exact hsub.nodup hids
  have hdomain {x : ι × Project} (hx : x ∈ projects) :
      x.2.isDomain = true ↔ expected conn x.1 = none :=
    ⟨fun hd => expected_of_domain (w := ⟨conn, [], [], nb⟩) (hlisted x hx) hd, hdone.domains x hx⟩
  have hcount : (rows.countP fun x => !x.2) = projects.countP fun x =>
      !x.2.isDomain && nb'.tenants.get x.1 ≠ expected conn x.1 := by
    calc (rows.countP fun x => !x.2)
        = rows.countP fun x => nb'.tenants.get x.1.id ≠ some x.1 := by
          refine List.countP_congr fun x hx => ?_
          obtain ⟨t, ok⟩ := x
          cases ok with
          | true =>
            have hget : nb'.tenants.get t.id = some t :=
              Table.get_eq_some_iff.mpr ⟨hupserts.mem hrowIds hx, rfl⟩
            simp [hget]
          | false =>
            have hnot := hupserts.not_mem hrowIds hx (fun h => h)
            simp only [Bool.not_false, ne_eq, decide_eq_true_eq, true_iff]
            exact fun hget => hnot (Table.get_eq_some_iff.mp hget).1
      _ = (projects.filterMap fun x => expected conn x.1).countP fun t =>
            nb'.tenants.get t.id ≠ some t := by rw [← hdone.written, List.countP_map]; rfl
      _ = projects.countP fun x =>
            !x.2.isDomain && nb'.tenants.get x.1 ≠ expected conn x.1 := by
          rw [List.countP_filterMap]
          refine List.countP_congr fun x hx => ?_
          cases hexpected : expected conn x.1 with
          | none => simp [(hdomain hx).mpr hexpected]
          | some t =>
            have hnot : x.2.isDomain = false := Bool.eq_false_iff.mpr fun hd => by
              rw [(hdomain hx).mp hd] at hexpected
              cases hexpected
            simp [hnot, id_of_expected hexpected]
  refine ⟨⟨htotal, hskipped, hfailed.trans hcount⟩, fun t ht => ⟨fun hmem => ?_, fun hmem => ?_⟩,
    fun hzero => ?_⟩
  · refine (hupserts.source hmem).resolve_right fun hrow => ht ?_
    obtain ⟨x, hx, hexpected⟩ := hrows _ hrow
    exact List.mem_map.mpr ⟨x, hx, (id_of_expected hexpected).symm⟩
  · refine hupserts.keeps hmem fun row hrow heq => ht ?_
    obtain ⟨x, hx, hexpected⟩ := hrows _ hrow
    exact List.mem_map.mpr ⟨x, hx, (id_of_expected hexpected).symm.trans heq⟩
  · have hall : ∀ x ∈ projects, x.2.isDomain = false →
        ∃ t ∈ nb'.tenants.rows, expected conn x.1 = some t := by
      intro x hx hnot
      cases hexpected : expected conn x.1 with
      | none => exact absurd ((hdomain hx).mpr hexpected) (by simp [hnot])
      | some t =>
        refine ⟨t, ?_, rfl⟩
        have hget : nb'.tenants.get x.1 = some t := by
          have hx' := List.countP_eq_zero.mp ((hfailed.trans hcount).symm.trans hzero) x hx
          simpa [hnot, hexpected] using hx'
        exact (Table.get_eq_some_iff.mp hget).1
    rw [syncProjects_of_current hlisted hall]
    obtain ⟨total, failed, skipped⟩ := res
    dsimp only at htotal hskipped hzero
    rw [htotal, hskipped, hzero, Nat.zero_add, Nat.zero_add]

def swapConn : Keystone ℕ where
  projects id :=
    if id = 1 then some (plainProject "a".toList)
    else if id = 2 then some (plainProject "b".toList) else none
  uuid _ := none

def swapProjects : List (ℕ × Project) :=
  [(1, plainProject "a".toList), (2, plainProject "b".toList)]

/-- Each tenant has the name that the other is to have. -/
def swapNautobot : Nautobot ℕ where
  tenants := ⟨[⟨1, "default:b".toList, "None".toList⟩, ⟨2, "default:a".toList, "None".toList⟩],
    by decide, by decide⟩
  devices := []
  holders := []

theorem listed_swap : Listed swapConn swapProjects := by
  have hall : ∀ x ∈ swapProjects, swapConn.projects x.1 = some x.2 := by decide
  exact hall

theorem resync_counts_out_of_date_swap :
    syncProjects swapConn swapProjects ⟨0, 0, 0⟩ swapNautobot = (.ok ⟨2, 2, 0⟩, swapNautobot) ∧
      2 = swapProjects.countP fun x =>
        !x.2.isDomain && swapNautobot.tenants.get x.1 ≠ expected swapConn x.1 := by
  have hrun : syncProjects swapConn swapProjects ⟨0, 0, 0⟩ swapNautobot =
      (.ok ⟨2, 2, 0⟩, swapNautobot) := rfl
  exact ⟨hrun, (resync_counts_out_of_date listed_swap (by decide) hrun).1.2.2⟩

/-- Each of these projects is to have a name that another tenant has: one that the resync does not
write, or one of another of these projects. -/
def Stuck (conn : Keystone ι) (projects : List (ι × Project)) (B : ι → Prop) (nb : Nautobot ι) :
    Prop :=
  ∀ id, B id → ∃ t, expected conn id = some t ∧ ∃ r ∈ nb.tenants.rows, r.name = t.name ∧
    r.id ≠ id ∧ (r.id ∈ projects.map Prod.fst → expected conn r.id ≠ none → B r.id)

theorem stuck_syncProjects (hlisted : Listed conn projects) {B : ι → Prop}
    (h : Stuck conn projects B nb) {batch : List (ι × Project)} (hbatch : batch ⊆ projects)
    (result : SyncResult) : Stuck conn projects B (syncProjects conn batch result nb).2 := by
  obtain ⟨rows, hupserts, hrows, -⟩ :=
    upserts_syncProjects (fun x hx => hlisted x (hbatch hx)) result nb
  have hid {t : Tenant ι} (ht : ∃ x ∈ projects, expected conn x.1 = some t) :
      t.id ∈ projects.map Prod.fst ∧ expected conn t.id = some t := by
    obtain ⟨x, hx, hexpected⟩ := ht
    rw [id_of_expected hexpected]
    exact ⟨List.mem_map_of_mem hx, hexpected⟩
  have hblocked : Table.Blocked (fun t => ∃ x ∈ projects, expected conn x.1 = some t)
      (fun t => B t.id ∧ expected conn t.id = some t) nb.tenants := by
    rintro b ⟨hb, hexpected⟩
    obtain ⟨t, ht, r, hr, hname, hne, hlist⟩ := h b.id hb
    obtain rfl := Option.some.inj (hexpected.symm.trans ht)
    refine ⟨r, hr, hname, hne, fun x hx heq => ?_⟩
    have heq : x.id = r.id := heq
    obtain ⟨hmem, hx'⟩ := hid hx
    refine ⟨?_, hx'⟩
    rw [heq] at hmem hx' ⊢
    exact hlist hmem (by simp [hx'])
  have hafter := (hupserts.blocked (fun row hrow => by
    obtain ⟨x, hx, hexpected⟩ := hrows row hrow
    exact ⟨x, hbatch hx, hexpected⟩) hblocked).1
  intro id hb
  obtain ⟨t, ht, -⟩ := h id hb
  have hname := id_of_expected ht
  subst hname
  obtain ⟨r, hr, hslot, hne, hlist⟩ := hafter t ⟨hb, ht⟩
  refine ⟨t, ht, r, hr, hslot, hne, fun hmem hsome => ?_⟩
  obtain ⟨x, hx, hxid⟩ := List.mem_map.mp hmem
  obtain ⟨t', ht'⟩ := Option.ne_none_iff_exists'.mp hsome
  have heq := id_of_expected ht'
  have hB := (hlist t' ⟨x, hx, hxid ▸ ht'⟩ heq).1
  exact heq ▸ hB

/-- One resync after the other, each with what Keystone lists then. -/
def resyncAll (conn : Keystone ι) : List (List (ι × Project)) → Nautobot ι → Nautobot ι
  | [], nb => nb
  | batch :: batches, nb => resyncAll conn batches (syncProjects conn batch ⟨0, 0, 0⟩ nb).2

/-- Tenants that hold each other's new names stay out of date, however often there is a resync. -/
theorem stuck_tenants_stay (hlisted : Listed conn projects) {B : ι → Prop}
    (h : Stuck conn projects B nb) {batches : List (List (ι × Project))}
    (hbatches : ∀ batch ∈ batches, batch ⊆ projects) :
    ∀ id, B id → (resyncAll conn batches nb).tenants.get id ≠ expected conn id := by
  induction batches generalizing nb with
  | nil =>
    intro id hb hget
    rw [resyncAll] at hget
    obtain ⟨t, ht, r, hr, hname, hne, -⟩ := h id hb
    rw [ht] at hget
    obtain ⟨hmem, hid⟩ := Table.get_eq_some_iff.mp hget
    have heq : r = t := nb.tenants.slots r hr t hmem hname
    exact hne (heq ▸ hid)
  | cons batch batches ih =>
    exact ih (stuck_syncProjects hlisted h (hbatches batch List.mem_cons_self) ⟨0, 0, 0⟩)
      fun b hb => hbatches b (List.mem_cons_of_mem _ hb)

theorem stuck_tenants_stay_swap :
    (resyncAll swapConn [swapProjects, swapProjects] swapNautobot).tenants.get 1 ≠
      expected swapConn 1 := by
  have hstuck : Stuck swapConn swapProjects (fun id => id = 1 ∨ id = 2) swapNautobot := by
    rintro id (rfl | rfl)
    · exact ⟨_, rfl, ⟨2, "default:a".toList, "None".toList⟩, by decide, rfl, by decide,
        fun _ _ => Or.inr rfl⟩
    · exact ⟨_, rfl, ⟨1, "default:b".toList, "None".toList⟩, by decide, rfl, by decide,
        fun _ _ => Or.inl rfl⟩
  refine stuck_tenants_stay listed_swap hstuck (fun batch hbatch => ?_) 1 (Or.inl rfl)
  simp only [List.mem_cons, List.not_mem_nil, or_false, or_self] at hbatch
  exact hbatch ▸ List.Subset.refl _

end Understack.Workflows.KeystoneTenants
