import Understack.Workflows.NetdevPortPlans
import Mathlib.Data.List.Induction
import Mathlib.Data.List.ReduceOption

/-! Runs of the pending plans of one request. All plans are made against the ports found at
the start and applied one at a time: the ports done are settled, the others are as they were,
and no MAC address is ever held twice. -/
namespace Understack.Workflows.Netdev

open PyText Json

variable {lower : Text → Text} {nodeName physicalNetwork : Text}

/-- The loop over `pending`. -/
def applyPlans (S : PortServer lower) (nodeName physicalNetwork : Text) (plans : List Plan)
    (t : PortTable) : PortTable :=
  plans.foldl (fun t plan => S.serve (applyPortPlan nodeName physicalNetwork plan) t) t

theorem applyPlans_append (S : PortServer lower) (ps qs : List Plan) (t : PortTable) :
    applyPlans S nodeName physicalNetwork (ps ++ qs) t =
      applyPlans S nodeName physicalNetwork qs (applyPlans S nodeName physicalNetwork ps t) :=
  List.foldl_append

/-! Plans of a list of ports. -/

theorem mapM_eq_of_forall {α β ε : Type} {f g : α → Except ε β} {l : List α}
    (h : ∀ a ∈ l, f a = g a) : l.mapM f = l.mapM g := by
  induction l with
  | nil => rfl
  | cons a l ih =>
    rw [List.mapM_cons, List.mapM_cons, h a List.mem_cons_self,
      ih fun b hb => h b (List.mem_cons_of_mem a hb)]

theorem planPorts_append {ports : List Port} {ps qs : List NetdevPort}
    {plans : List (Option Plan)}
    (h : planPorts lower nodeName physicalNetwork ports (ps ++ qs) = .ok plans) :
    ∃ as bs, planPorts lower nodeName physicalNetwork ports ps = .ok as ∧
      planPorts lower nodeName physicalNetwork ports qs = .ok bs ∧ plans = as ++ bs := by
  unfold planPorts at h ⊢
  rw [List.mapM_append] at h
  obtain ⟨as, ha, h⟩ := Runs.bind_eq_ok h
  obtain ⟨bs, hb, h⟩ := Runs.bind_eq_ok h
  cases h
  exact ⟨as, bs, ha, hb, rfl⟩

theorem planPorts_append_ok {ports : List Port} {ps qs : List NetdevPort}
    {as bs : List (Option Plan)}
    (ha : planPorts lower nodeName physicalNetwork ports ps = .ok as)
    (hb : planPorts lower nodeName physicalNetwork ports qs = .ok bs) :
    planPorts lower nodeName physicalNetwork ports (ps ++ qs) = .ok (as ++ bs) := by
  unfold planPorts at ha hb ⊢
  rw [List.mapM_append, ha, hb]
  rfl

theorem planPorts_cons {ports : List Port} {p : NetdevPort} {ps : List NetdevPort}
    {plans : List (Option Plan)}
    (h : planPorts lower nodeName physicalNetwork ports (p :: ps) = .ok plans) :
    ∃ plan rest, planNetdevPort lower nodeName physicalNetwork p
        (portsByName ports (portName nodeName p.label))
        (portsByMac lower ports (lower p.mac)) = .ok plan ∧
      planPorts lower nodeName physicalNetwork ports ps = .ok rest ∧ plans = plan :: rest := by
  unfold planPorts at h ⊢
  rw [List.mapM_cons] at h
  obtain ⟨plan, hp, h⟩ := Runs.bind_eq_ok h
  obtain ⟨rest, hr, h⟩ := Runs.bind_eq_ok h
  cases h
  exact ⟨plan, rest, hp, hr, rfl⟩

theorem planPorts_cons_ok {ports : List Port} {p : NetdevPort} {ps : List NetdevPort}
    {plan : Option Plan} {rest : List (Option Plan)}
    (hp : planNetdevPort lower nodeName physicalNetwork p
        (portsByName ports (portName nodeName p.label))
        (portsByMac lower ports (lower p.mac)) = .ok plan)
    (hr : planPorts lower nodeName physicalNetwork ports ps = .ok rest) :
    planPorts lower nodeName physicalNetwork ports (p :: ps) = .ok (plan :: rest) := by
  unfold planPorts at hr ⊢
  rw [List.mapM_cons, hp, hr]
  rfl

theorem planPorts_concat {ports : List Port} {ps : List NetdevPort} {p : NetdevPort}
    {plans : List (Option Plan)}
    (h : planPorts lower nodeName physicalNetwork ports (ps ++ [p]) = .ok plans) :
    ∃ as plan, planPorts lower nodeName physicalNetwork ports ps = .ok as ∧
      planNetdevPort lower nodeName physicalNetwork p
        (portsByName ports (portName nodeName p.label))
        (portsByMac lower ports (lower p.mac)) = .ok plan ∧
      plans.reduceOption = as.reduceOption ++ plan.toList := by
  obtain ⟨as, bs, ha, hb, rfl⟩ := planPorts_append h
  obtain ⟨plan, rest, hp, hr, rfl⟩ := planPorts_cons hb
  have hrest : rest = [] := (Except.ok.inj hr).symm
  refine ⟨as, plan, ha, hp, ?_⟩
  rw [hrest, List.reduceOption_append]
  cases plan <;> rfl

/-- A cut of the pending plans is a cut of the requested ports. -/
theorem planPorts_cut {ports : List Port} {requested : List NetdevPort}
    {plans : List (Option Plan)}
    (h : planPorts lower nodeName physicalNetwork ports requested = .ok plans)
    {pre post : List Plan} (hcut : plans.reduceOption = pre ++ post) :
    ∃ done todo as bs, requested = done ++ todo ∧
      planPorts lower nodeName physicalNetwork ports done = .ok as ∧
      planPorts lower nodeName physicalNetwork ports todo = .ok bs ∧
      as.reduceOption = pre ∧ bs.reduceOption = post := by
  induction requested generalizing plans pre with
  | nil =>
    cases h
    obtain ⟨rfl, rfl⟩ := List.append_eq_nil_iff.mp hcut.symm
    exact ⟨[], [], [], [], rfl, rfl, rfl, rfl, rfl⟩
  | cons p ps ih =>
    obtain ⟨plan, rest, hp, hr, rfl⟩ := planPorts_cons h
    cases pre with
    | nil => exact ⟨[], p :: ps, [], plan :: rest, rfl, rfl, h, rfl, hcut⟩
    | cons a pre =>
      cases plan with
      | none =>
        rw [List.reduceOption_cons_of_none] at hcut
        obtain ⟨done, todo, as, bs, rfl, hd, ht, has, hbs⟩ := ih hr hcut
        exact ⟨p :: done, todo, none :: as, bs, rfl, planPorts_cons_ok hp hd, ht, by simpa using has,
          hbs⟩
      | some b =>
        rw [List.reduceOption_cons_of_some, List.cons_append] at hcut
        obtain ⟨rfl, hrest⟩ := List.cons.inj hcut
        obtain ⟨done, todo, as, bs, rfl, hd, ht, has, hbs⟩ := ih hr hrest
        exact ⟨p :: done, todo, some b :: as, bs, rfl, planPorts_cons_ok hp hd, ht,
          by rw [List.reduceOption_cons_of_some, has], hbs⟩

/-! What the plans of some ports have done. -/

structure Progress (lower : Text → Text) (nodeName physicalNetwork : Text) (t₀ t : PortTable)
    (done : List NetdevPort) : Prop where
  settled : ∀ p ∈ done, ∃ e, portsByName t.1 (portName nodeName p.label) = some e ∧
    Settled lower physicalNetwork p e
  others : ∀ label, label ∉ done.map NetdevPort.label →
    portsByName t.1 (portName nodeName label) = portsByName t₀.1 (portName nodeName label)
  kept : ∀ q ∈ t₀.1, (∀ p ∈ done, q.name ≠ some (portName nodeName p.label)) → q ∈ t.1

variable {t₀ t t' : PortTable} {done todo : List NetdevPort} {port : NetdevPort}

theorem Progress.of_written (hpr : Progress lower nodeName physicalNetwork t₀ t done)
    (hl : port.label ∉ done.map NetdevPort.label) {x : Port}
    (hx : x.name = some (portName nodeName port.label))
    (hs : Settled lower physicalNetwork port x)
    (hw : Written (portName nodeName port.label) x t.1 t'.1) :
    Progress lower nodeName physicalNetwork t₀ t' (done ++ [port]) := by
  have hne {label : Text} (h : label ≠ port.label) :
      portName nodeName label ≠ portName nodeName port.label :=
    fun he => h (portName_injective nodeName he)
  constructor
  · intro p hp
    rcases List.mem_append.mp hp with hp | hp
    · obtain ⟨e, he, hse⟩ := hpr.settled p hp
      have hpl : p.label ≠ port.label := fun h => hl (h ▸ List.mem_map_of_mem hp)
      exact ⟨e, (hw.portsByName_of_ne hx (hne hpl)).trans he, hse⟩
    · rw [List.mem_singleton.mp hp]
      exact ⟨x, hw.portsByName_self hx, hs⟩
  · intro label hlabel
    simp only [List.map_append, List.mem_append, List.map_cons, List.map_nil, List.mem_singleton,
      not_or] at hlabel
    rw [hw.portsByName_of_ne hx (hne hlabel.2)]
    exact hpr.others label hlabel.1
  · intro q hq hnames
    have hqt : q ∈ t.1 := hpr.kept q hq fun p hp => hnames p (List.mem_append_left _ hp)
    exact hw.mem_of_name_ne hqt (hnames port (by simp))

theorem Progress.of_settled (hpr : Progress lower nodeName physicalNetwork t₀ t done) {e : Port}
    (he : portsByName t.1 (portName nodeName port.label) = some e)
    (hs : Settled lower physicalNetwork port e) :
    Progress lower nodeName physicalNetwork t₀ t (done ++ [port]) := by
  constructor
  · intro p hp
    rcases List.mem_append.mp hp with hp | hp
    · exact hpr.settled p hp
    · rw [List.mem_singleton.mp hp]
      exact ⟨e, he, hs⟩
  · intro label hlabel
    exact hpr.others label fun h => hlabel (by simp only [List.map_append, List.mem_append, h, true_or])
  · exact fun q hq hnames => hpr.kept q hq fun p hp => hnames p (List.mem_append_left _ hp)

theorem progress_applyPlans (S : PortServer lower) {plans : List (Option Plan)}
    (hl : (done.map NetdevPort.label).Nodup)
    (h : planPorts lower nodeName physicalNetwork t₀.1 done = .ok plans) :
    Progress lower nodeName physicalNetwork t₀
      (applyPlans S nodeName physicalNetwork plans.reduceOption t₀) done := by
  -- the ports are done one after the other; each plan still fits the port found at the start
  induction done using List.reverseRecOn generalizing plans with
  | nil =>
    cases h
    exact ⟨by simp, fun _ _ => rfl, fun q hq _ => hq⟩
  | append_singleton done port ih =>
    obtain ⟨as, plan, ha, hp, hred⟩ := planPorts_concat h
    rw [hred, applyPlans_append]
    simp only [List.map_append, List.map_cons, List.map_nil, List.nodup_append,
      List.mem_singleton] at hl
    have hport : port.label ∉ done.map NetdevPort.label := fun hm => hl.2.2 _ hm _ rfl rfl
    have hpr := ih hl.1 ha
    rw [← hpr.others port.label hport] at hp
    cases plan with
    | none =>
      rcases planNetdevPort_ok hp with ⟨-, -, hplan⟩ | ⟨e, _, he, -, ⟨-, hs⟩ | hplan⟩
      · cases hplan
      · exact hpr.of_settled he hs
      · cases hplan
    | some plan =>
      obtain ⟨x, hx, hs, hw⟩ := serve_plan S hp
      exact hpr.of_written hport hx hs hw

/-- Once every port is settled, nothing is pending. -/
theorem planPorts_of_settled {ports : List Port}
    (h : ∀ p ∈ done, ∃ e, portsByName ports (portName nodeName p.label) = some e ∧
      Settled lower physicalNetwork p e) :
    planPorts lower nodeName physicalNetwork ports done = .ok (done.map fun _ => none) := by
  induction done with
  | nil => rfl
  | cons p ps ih =>
    obtain ⟨e, he, hs⟩ := h p List.mem_cons_self
    refine planPorts_cons_ok ?_ (ih fun q hq => h q (List.mem_cons_of_mem p hq))
    rw [he]
    exact planNetdevPort_of_settled hs _

/-! MAC addresses. -/

def MacsDistinct (lower : Text → Text) (t : PortTable) : Prop :=
  (t.1.map fun p => lower p.address).Nodup

instance (t : PortTable) : Decidable (MacsDistinct lower t) :=
  inferInstanceAs (Decidable (List.Nodup _))

/-- No port but the one of the requested name has the requested MAC. -/
def Unclaimed (lower : Text → Text) (nodeName : Text) (t : PortTable) (port : NetdevPort) : Prop :=
  ∀ q ∈ t.1, lower q.address = lower port.mac →
    portsByName t.1 (portName nodeName port.label) = some q

theorem portsByMac_mem {ports : List Port} {mac : Text} {q : Port}
    (h : portsByMac lower ports mac = some q) : q ∈ ports ∧ lower q.address = mac := by
  refine ⟨List.mem_reverse.mp (List.mem_of_find?_eq_some h), ?_⟩
  simpa using List.find?_some h

theorem portsByMac_eq_none {ports : List Port} {mac : Text}
    (h : portsByMac lower ports mac = none) {q : Port} (hq : q ∈ ports) : lower q.address ≠ mac := by
  have := List.find?_eq_none.mp h q (List.mem_reverse.mpr hq)
  simpa using this

theorem unclaimed_of_plan (hd : MacsDistinct lower t) {plan : Option Plan}
    (h : planNetdevPort lower nodeName physicalNetwork port
      (portsByName t.1 (portName nodeName port.label))
      (portsByMac lower t.1 (lower port.mac)) = .ok plan) : Unclaimed lower nodeName t port := by
  intro q hq hmac
  rcases planNetdevPort_ok h with ⟨-, hnone, -⟩ | ⟨e, address, he, ha, -⟩
  · exact absurd hmac (portsByMac_eq_none hnone hq)
  · obtain ⟨hme, -⟩ := portsByName_mem he
    rcases planAddress_ok ha with ⟨heq, -⟩ | ⟨hne, -, howner⟩
    · rw [he, List.inj_on_of_nodup_map hd hme hq (heq.trans hmac.symm)]
    · -- the owner of the MAC would be the port itself, whose address is another one
      cases ho : portsByMac lower t.1 (lower port.mac) with
      | none => exact absurd hmac (portsByMac_eq_none ho hq)
      | some o =>
        obtain ⟨hmo, hao⟩ := portsByMac_mem ho
        exact absurd hao (eq_of_uuid_eq t hmo hme (howner o ho) ▸ hne)

theorem unclaimed_of_planPorts (hd : MacsDistinct lower t) {requested : List NetdevPort}
    {plans : List (Option Plan)}
    (h : planPorts lower nodeName physicalNetwork t.1 requested = .ok plans) :
    ∀ p ∈ requested, Unclaimed lower nodeName t p := by
  induction requested generalizing plans with
  | nil => simp
  | cons p ps ih =>
    obtain ⟨plan, rest, hp, hr, rfl⟩ := planPorts_cons h
    intro q hq
    rcases List.mem_cons.mp hq with rfl | hq
    · exact unclaimed_of_plan hd hp
    · exact ih hr q hq

/-- Where the MAC is unclaimed the plan depends on the existing port only. -/
theorem planNetdevPort_of_unclaimed (h : Unclaimed lower nodeName t port) :
    planNetdevPort lower nodeName physicalNetwork port
        (portsByName t.1 (portName nodeName port.label))
        (portsByMac lower t.1 (lower port.mac)) =
      planNetdevPort lower nodeName physicalNetwork port
        (portsByName t.1 (portName nodeName port.label)) none := by
  cases ho : portsByMac lower t.1 (lower port.mac) with
  | none => rfl
  | some o =>
    obtain ⟨hmo, hao⟩ := portsByMac_mem ho
    have he := h o hmo hao
    have haddr (owner : Option Port) : planAddress lower nodeName port o owner = .ok [] :=
      if_pos hao
    simp only [he, planNetdevPort, haddr]

theorem Written.unclaimed {name : Text} {x : Port} (hw : Written name x t.1 t'.1)
    (hx : x.name = some name) (hname : portName nodeName port.label ≠ name)
    (hmac : lower x.address ≠ lower port.mac) (h : Unclaimed lower nodeName t port) :
    Unclaimed lower nodeName t' port := by
  intro q hq hqm
  rcases hw.mem_cases hq with rfl | ⟨hqt, -⟩
  · exact absurd hqm hmac
  · rw [hw.portsByName_of_ne hx hname]
    exact h q hqt hqm

theorem Written.macsDistinct {x : Port}
    (hw : Written (portName nodeName port.label) x t.1 t'.1)
    (hx : lower x.address = lower port.mac) (h : Unclaimed lower nodeName t port)
    (hd : MacsDistinct lower t) : MacsDistinct lower t' := by
  unfold MacsDistinct at hd ⊢
  generalize t'.1 = ports' at hw
  cases hw with
  | append hn =>
    have hfree : ∀ q ∈ t.1, lower q.address ≠ lower x.address := by
      intro q hq he
      have := h q hq (he.trans hx)
      rw [hn] at this
      cases this
    rw [List.map_append, List.nodup_append]
    refine ⟨hd, List.nodup_singleton _, ?_⟩
    intro a ha b hb
    obtain ⟨q, hq, rfl⟩ := List.mem_map.mp ha
    rw [List.map_singleton, List.mem_singleton] at hb
    exact hb ▸ hfree q hq
  | replace e he hu =>
    obtain ⟨hme, -⟩ := portsByName_mem he
    have hnd := List.Nodup.of_map _ hd
    rw [List.map_map]
    refine List.Nodup.map_on ?_ hnd
    -- of two ports one may be the rewritten one; the other then has another MAC
    have hother (q : Port) (hq : q ∈ t.1) (hne : q.uuid ≠ e.uuid) :
        lower q.address ≠ lower x.address := by
      intro ha
      have hqe := h q hq (ha.trans hx)
      rw [he] at hqe
      exact hne (congrArg Port.uuid (Option.some.inj hqe).symm)
    intro p hp q hq hpq
    simp only [Function.comp_apply] at hpq
    by_cases hpe : p.uuid = e.uuid
    · by_cases hqe : q.uuid = e.uuid
      · exact eq_of_uuid_eq t hp hq (hpe.trans hqe.symm)
      · rw [if_pos hpe, if_neg hqe] at hpq
        exact absurd hpq.symm (hother q hq hqe)
    · by_cases hqe : q.uuid = e.uuid
      · rw [if_neg hpe, if_pos hqe] at hpq
        exact absurd hpq (hother p hp hpe)
      · rw [if_neg hpe, if_neg hqe] at hpq
        exact List.inj_on_of_nodup_map hd hp hq hpq

theorem macs_applyPlans (S : PortServer lower) {plans : List (Option Plan)}
    (hd : MacsDistinct lower t₀) (hl : ((done ++ todo).map NetdevPort.label).Nodup)
    (hm : ((done ++ todo).map fun p => lower p.mac).Nodup)
    (hall : ∀ p ∈ done ++ todo, Unclaimed lower nodeName t₀ p)
    (h : planPorts lower nodeName physicalNetwork t₀.1 done = .ok plans) :
    MacsDistinct lower (applyPlans S nodeName physicalNetwork plans.reduceOption t₀) ∧
      ∀ p ∈ todo, Unclaimed lower nodeName
        (applyPlans S nodeName physicalNetwork plans.reduceOption t₀) p := by
  induction done using List.reverseRecOn generalizing plans todo with
  | nil =>
    cases h
    exact ⟨hd, hall⟩
  | append_singleton done port ih =>
    obtain ⟨as, plan, ha, hp, hred⟩ := planPorts_concat h
    rw [hred, applyPlans_append]
    have hcons : done ++ [port] ++ todo = done ++ port :: todo := by simp
    rw [hcons] at hl hm hall
    obtain ⟨hdist, hunc⟩ := ih hl hm hall ha
    have hport := hunc port List.mem_cons_self
    have htodo := fun p hp => hunc p (List.mem_cons_of_mem port hp)
    simp only [List.map_append, List.map_cons, List.nodup_append, List.nodup_cons,
      List.mem_cons] at hl hm
    have hlabel : port.label ∉ done.map NetdevPort.label := fun h => hl.2.2 _ h _ (Or.inl rfl) rfl
    have hpr := progress_applyPlans S hl.1 ha
    rw [← hpr.others port.label hlabel] at hp
    cases plan with
    | none =>
      exact ⟨hdist, htodo⟩
    | some plan =>
      obtain ⟨x, hx, hs, hw⟩ := serve_plan S hp
      refine ⟨hw.macsDistinct hs.1 hport hdist, fun p hp => ?_⟩
      refine hw.unclaimed hx ?_ ?_ (htodo p hp)
      · intro he
        exact hl.2.1.1 (portName_injective nodeName he ▸ List.mem_map_of_mem hp)
      · intro he
        exact hm.2.1.1 (hs.1 ▸ he ▸ List.mem_map_of_mem hp)

end Understack.Workflows.Netdev
