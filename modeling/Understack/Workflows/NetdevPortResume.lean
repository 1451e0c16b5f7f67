import Understack.Workflows.NetdevPortRuns
import Mathlib.Data.List.Forall2

/-! A request whose plans were cut short plans again from the table it left, and ends in the
ports of the uninterrupted run, whatever UUIDs and MAC spellings the servers choose. -/
namespace Understack.Workflows.Netdev

open PyText Json

variable {lower : Text → Text} {nodeName physicalNetwork : Text}
variable {t₀ t t' : PortTable} {done todo : List NetdevPort}

/-- A port up to its UUID and the case of its MAC. -/
structure PortView where
  name : Option Text
  mac : Text
  physicalNetwork : Option Text
  category : Option Text
  localLinkConnection : Option Link
  deriving DecidableEq, Repr

def view (lower : Text → Text) (p : Port) : PortView :=
  ⟨p.name, lower p.address, p.physicalNetwork, p.category, p.localLinkConnection⟩

/-- Two ports that look alike and are the same one if either is among the `old` ones. -/
def Alike (lower : Text → Text) (old : List Text) (p q : Port) : Prop :=
  view lower p = view lower q ∧ (p.uuid = q.uuid ∨ p.uuid ∉ old ∧ q.uuid ∉ old)

theorem view_patch (S S' : PortServer lower) (ops : List PortOp) {p q : Port}
    (h : view lower p = view lower q) :
    view lower (S.patch p ops) = view lower (S'.patch q ops) := by
  unfold PortServer.patch
  induction ops generalizing p q with
  | nil => exact h
  | cons op ops ih =>
    apply ih
    simp only [view, PortView.mk.injEq] at h ⊢
    cases op with
    | address mac =>
      simpa [PortServer.patchPort, S.lower_storedMac, S'.lower_storedMac] using
        ⟨h.1, h.2.2⟩
    | physicalNetwork value => simp [PortServer.patchPort, h]
    | category value => simp [PortServer.patchPort, h]
    | localLinkConnection value => simp [PortServer.patchPort, h]

/-- Both tables still have every old port. -/
structure Lockstep (lower : Text → Text) (old : List Text) (t t' : PortTable) : Prop where
  alike : List.Forall₂ (Alike lower old) t.1 t'.1
  left : old ⊆ t.1.map Port.uuid
  right : old ⊆ t'.1.map Port.uuid

/-- The call creates a port or updates an old one. -/
def PortCall.Old (old : List Text) : PortCall → Prop
  | .createPort _ => True
  | .updatePort uuid _ => uuid ∈ old

theorem Lockstep.serve {old : List Text} (h : Lockstep lower old t t') (S S' : PortServer lower)
    {c : PortCall} (hc : c.Old old) : Lockstep lower old (S.serve c t) (S'.serve c t') := by
  cases c with
  | createPort data =>
    have hnew : Alike lower old (S.newPort (t.1.map Port.uuid) data)
        (S'.newPort (t'.1.map Port.uuid) data) := by
      refine ⟨?_, Or.inr ⟨fun hm => ?_, fun hm => ?_⟩⟩
      · simp [view, PortServer.newPort, S.lower_storedMac, S'.lower_storedMac]
      · exact S.freshUuid_notMem _ (h.left hm)
      · exact S'.freshUuid_notMem _ (h.right hm)
    constructor
    · exact List.rel_append h.alike (List.Forall₂.cons hnew List.Forall₂.nil)
    · exact fun u hu => by simpa [PortServer.serve] using Or.inl (List.mem_map.mp (h.left hu))
    · exact fun u hu => by simpa [PortServer.serve] using Or.inl (List.mem_map.mp (h.right hu))
  | updatePort uuid ops =>
    constructor
    · refine List.forall₂_map_left_iff.mpr (List.forall₂_map_right_iff.mpr ?_)
      refine h.alike.imp fun p q hpq => ?_
      have hu : p.uuid = uuid ↔ q.uuid = uuid := by
        rcases hpq.2 with he | ⟨hp, hq⟩
        · rw [he]
        · exact ⟨fun he => absurd (he ▸ hc) hp, fun he => absurd (he ▸ hc) hq⟩
      by_cases hp : p.uuid = uuid
      · rw [if_pos hp, if_pos (hu.mp hp)]
        refine ⟨view_patch S S' ops hpq.1, Or.inl ?_⟩
        rw [PortServer.patch_uuid, PortServer.patch_uuid, hp, hu.mp hp]
      · rw [if_neg hp, if_neg (mt hu.mpr hp)]
        exact hpq
    · simpa [PortServer.serve] using h.left
    · simpa [PortServer.serve] using h.right

theorem Lockstep.applyPlans {old : List Text} (h : Lockstep lower old t t')
    (S S' : PortServer lower) {plans : List Plan}
    (hp : ∀ plan ∈ plans, (applyPortPlan nodeName physicalNetwork plan).Old old) :
    Lockstep lower old (Netdev.applyPlans S nodeName physicalNetwork plans t)
      (Netdev.applyPlans S' nodeName physicalNetwork plans t') := by
  unfold Netdev.applyPlans
  induction plans generalizing t t' with
  | nil => exact h
  | cons plan plans ih =>
    exact ih (h.serve S S' (hp plan List.mem_cons_self)) fun q hq =>
      hp q (List.mem_cons_of_mem plan hq)

/-- The plans of a request update ports of the table only. -/
theorem planPorts_old {plans : List (Option Plan)} {requested : List NetdevPort}
    (h : planPorts lower nodeName physicalNetwork t.1 requested = .ok plans) :
    ∀ plan ∈ plans.reduceOption,
      (applyPortPlan nodeName physicalNetwork plan).Old (t.1.map Port.uuid) := by
  induction requested generalizing plans with
  | nil =>
    cases h
    simp
  | cons p ps ih =>
    obtain ⟨plan, rest, hp, hr, rfl⟩ := planPorts_cons h
    intro q hq
    rw [List.reduceOption_mem_iff, List.mem_cons] at hq
    rcases hq with rfl | hq
    · rcases planNetdevPort_ok hp with ⟨-, -, hplan⟩ | ⟨e, address, he, -, ⟨hplan, -⟩ | hplan⟩
      · cases hplan
        exact trivial
      · cases hplan
      · cases hplan
        exact List.mem_map_of_mem (portsByName_mem he).1
    · exact ih hr q (List.reduceOption_mem_iff.mpr hq)

theorem view_applyPlans (S S' : PortServer lower) {plans : List (Option Plan)}
    {requested : List NetdevPort}
    (h : planPorts lower nodeName physicalNetwork t.1 requested = .ok plans) :
    (applyPlans S nodeName physicalNetwork plans.reduceOption t).1.map (view lower) =
      (applyPlans S' nodeName physicalNetwork plans.reduceOption t).1.map (view lower) := by
  have hsame : Lockstep lower (t.1.map Port.uuid) t t :=
    ⟨List.forall₂_same.mpr fun p _ => ⟨rfl, Or.inl rfl⟩, List.Subset.refl _, List.Subset.refl _⟩
  have hl := hsame.applyPlans S S' (planPorts_old h)
  have hv := hl.alike.imp fun _ _ hpq => hpq.1
  rw [← List.forall₂_eq_eq_eq]
  exact List.forall₂_map_left_iff.mpr (List.forall₂_map_right_iff.mpr hv)

/-- From any cut the request plans again: the ports done are settled, the others keep their
plans. -/
theorem planPorts_resume (S : PortServer lower) {as bs : List (Option Plan)}
    (hd : MacsDistinct lower t₀) (hl : ((done ++ todo).map NetdevPort.label).Nodup)
    (hm : ((done ++ todo).map fun p => lower p.mac).Nodup)
    (ha : planPorts lower nodeName physicalNetwork t₀.1 done = .ok as)
    (hb : planPorts lower nodeName physicalNetwork t₀.1 todo = .ok bs)
    (hall : ∀ p ∈ done ++ todo, Unclaimed lower nodeName t₀ p) :
    planPorts lower nodeName physicalNetwork
        (applyPlans S nodeName physicalNetwork as.reduceOption t₀).1 (done ++ todo) =
      .ok ((done.map fun _ => none) ++ bs) := by
  obtain ⟨-, hunc⟩ := macs_applyPlans S hd hl hm hall ha
  have hnd : (done.map NetdevPort.label).Nodup := by
    rw [List.map_append] at hl
    exact hl.of_append_left
  have hpr := progress_applyPlans S hnd ha
  refine planPorts_append_ok (planPorts_of_settled hpr.settled) ?_
  rw [← hb]
  unfold planPorts
  have hsame : ∀ p ∈ todo, planNetdevPort lower nodeName physicalNetwork p
        (portsByName (applyPlans S nodeName physicalNetwork as.reduceOption t₀).1
          (portName nodeName p.label))
        (portsByMac lower (applyPlans S nodeName physicalNetwork as.reduceOption t₀).1
          (lower p.mac)) =
      planNetdevPort lower nodeName physicalNetwork p
        (portsByName t₀.1 (portName nodeName p.label)) (portsByMac lower t₀.1 (lower p.mac)) := by
    intro p hp
    have hlabel : p.label ∉ done.map NetdevPort.label := by
      rw [List.map_append, List.nodup_append] at hl
      exact fun hm => hl.2.2 _ hm _ (List.mem_map_of_mem hp) rfl
    rw [planNetdevPort_of_unclaimed (hunc p hp), hpr.others p.label hlabel,
      planNetdevPort_of_unclaimed (hall p (List.mem_append_right _ hp))]
  exact mapM_eq_of_forall hsame

/-- Every cut of the pending plans leaves distinct MACs and the ports not named by the request
as they were, and from there the request plans again and ends in the same ports. -/
theorem pendingPlans_resumable {F : Type} [FloatOps F] (S S' : PortServer lower)
    {entries : List (Value F)} {requested : List NetdevPort}
    (hb : buildNetdevPorts lower entries = .ok requested) (hd : MacsDistinct lower t)
    {plans : List (Option Plan)}
    (hp : planPorts lower nodeName physicalNetwork t.1 requested = .ok plans)
    {pre : List Plan} (hpre : pre <+: plans.reduceOption) :
    MacsDistinct lower (applyPlans S nodeName physicalNetwork pre t) ∧
      (∀ q ∈ t.1, (∀ p ∈ requested, q.name ≠ some (portName nodeName p.label)) →
        q ∈ (applyPlans S nodeName physicalNetwork pre t).1) ∧
      ∃ plans', planPorts lower nodeName physicalNetwork
          (applyPlans S nodeName physicalNetwork pre t).1 requested = .ok plans' ∧
        (applyPlans S' nodeName physicalNetwork plans'.reduceOption
            (applyPlans S nodeName physicalNetwork pre t)).1.map (view lower) =
          (applyPlans S nodeName physicalNetwork plans.reduceOption t).1.map (view lower) := by
  obtain ⟨hl, hm⟩ := buildNetdevPorts_distinct hb
  obtain ⟨post, hcut⟩ := hpre
  obtain ⟨done, todo, as, bs, rfl, ha, hbs, rfl, rfl⟩ := planPorts_cut hp hcut.symm
  have hall : ∀ p ∈ done ++ todo, Unclaimed lower nodeName t p := unclaimed_of_planPorts hd hp
  have hnd : (done.map NetdevPort.label).Nodup := by
    rw [List.map_append] at hl
    exact hl.of_append_left
  have hresume := planPorts_resume S hd hl hm ha hbs hall
  refine ⟨(macs_applyPlans S hd hl hm hall ha).1, fun q hq hnames => ?_, _, hresume, ?_⟩
  · exact (progress_applyPlans S hnd ha).kept q hq fun p hp =>
      hnames p (List.mem_append_left _ hp)
  · have hred : ((done.map fun _ => (none : Option Plan)) ++ bs).reduceOption = bs.reduceOption := by
      rw [List.reduceOption_append]
      simp [List.reduceOption]
    rw [view_applyPlans S' S hresume, hred, ← hcut, applyPlans_append]

/-- One port moves to another MAC and a second one is created; the run stops between them. -/
theorem pendingPlans_resumable_between :
    let lower : Text → Text := List.map Char.toLower
    let entry (label mac : Text) : Value Text :=
      .obj [("label".toList, .str label), ("mac".toList, .str mac),
        ("switch".toList, .str ['s']), ("intf".toList, .str ['i'])]
    let a : NetdevPort := ⟨['a'], ['B'], ['s'], ['i'], none⟩
    let b : NetdevPort := ⟨['b'], ['c'], ['s'], ['i'], none⟩
    let e : Port := ⟨['1'], some ['n', ':', 'a'], ['A'], some ['p'], none, none⟩
    let first : Plan := .update e [.address ['B'], .category "network".toList,
      .localLinkConnection [("switch_id".toList, placeholderSwitchId),
        ("switch_info".toList, ['s']), ("port_id".toList, ['i'])]]
    let t : PortTable := ⟨[e], by decide⟩
    let s := applyPlans (PortServer.verbatim lower) ['n'] ['p'] [first] t
    buildNetdevPorts lower [entry ['a'] ['B'], entry ['b'] ['c']] = .ok [a, b] ∧
      planPorts lower ['n'] ['p'] t.1 [a, b] = .ok [some first, some (.create b)] ∧
      MacsDistinct lower s := by
  intro lower entry a b e first t s
  have hb : buildNetdevPorts lower [entry ['a'] ['B'], entry ['b'] ['c']] = .ok [a, b] := rfl
  have hp : planPorts lower ['n'] ['p'] t.1 [a, b] = .ok [some first, some (.create b)] := rfl
  exact ⟨hb, hp, (pendingPlans_resumable (PortServer.verbatim lower) (PortServer.verbatim lower) hb
    (by decide) hp ⟨[.create b], rfl⟩).1⟩

end Understack.Workflows.Netdev
