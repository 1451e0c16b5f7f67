import Understack.Workflows.NetdevPorts

/-! What a plan does to the ports of a node, and runs of the plans of one request: every
prefix of the pending plans leaves a table in which the request can be planned again. -/
namespace Understack.Workflows.Netdev

open PyText Json

/-! Validation. -/

section
variable {lower : Text → Text} {F : Type} [FloatOps F]

theorem buildFrom_distinct {index : ℕ} {labels macs : List Text} {entries : List (Value F)}
    {ports : List NetdevPort} (h : buildFrom lower index labels macs entries = .ok ports) :
    (ports.map NetdevPort.label).Nodup ∧ (∀ p ∈ ports, p.label ∉ labels) ∧
      (ports.map fun p => lower p.mac).Nodup ∧ ∀ p ∈ ports, lower p.mac ∉ macs := by
  induction entries generalizing index labels macs ports with
  | nil =>
    cases h
    simp
  | cons entry rest ih =>
    obtain ⟨port, -, h⟩ := Runs.bind_eq_ok h
    split at h
    · cases h
    · next hl =>
      split at h
      · cases h
      · next hm =>
        obtain ⟨ports', hrest, h⟩ := Runs.bind_eq_ok h
        cases h
        obtain ⟨hn, hnl, hmn, hml⟩ := ih hrest
        simp only [List.mem_cons, not_or] at hnl hml
        refine ⟨?_, ?_, ?_, ?_⟩
        · refine List.nodup_cons.mpr ⟨fun hp => ?_, hn⟩
          obtain ⟨p, hp, he⟩ := List.mem_map.mp hp
          exact (hnl p hp).1 he
        · intro p hp
          rcases List.mem_cons.mp hp with rfl | hp
          · exact hl
          · exact (hnl p hp).2
        · refine List.nodup_cons.mpr ⟨fun hp => ?_, hmn⟩
          obtain ⟨p, hp, he⟩ := List.mem_map.mp hp
          exact (hml p hp).1 he
        · intro p hp
          rcases List.mem_cons.mp hp with rfl | hp
          · exact hm
          · exact (hml p hp).2

theorem buildNetdevPorts_distinct {entries : List (Value F)} {ports : List NetdevPort}
    (h : buildNetdevPorts lower entries = .ok ports) :
    (ports.map NetdevPort.label).Nodup ∧ (ports.map fun p => lower p.mac).Nodup := by
  unfold buildNetdevPorts at h
  split at h
  · cases h
  · obtain ⟨hl, -, hm, -⟩ := buildFrom_distinct h
    exact ⟨hl, hm⟩

end

theorem portName_injective (nodeName : Text) : Function.Injective (portName nodeName) := by
  intro a b h
  simpa [portName] using h

/-! One port. -/

variable {lower : Text → Text} {nodeName physicalNetwork : Text}

/-- The stored port has nothing left to change for the request. -/
def Settled (lower : Text → Text) (physicalNetwork : Text) (port : NetdevPort) (p : Port) : Prop :=
  lower p.address = lower port.mac ∧ planOther physicalNetwork port p = []

theorem keptSwitchId_placeholder : keptSwitchId placeholderSwitchId = placeholderSwitchId := by
  unfold keptSwitchId
  rw [if_pos (Or.inr rfl)]

theorem keptSwitchId_keptSwitchId (s : Text) : keptSwitchId (keptSwitchId s) = keptSwitchId s := by
  by_cases h : s = [] ∨ s = placeholderSwitchId
  · rw [show keptSwitchId s = placeholderSwitchId from if_pos h, keptSwitchId_placeholder]
  · have hs : keptSwitchId s = s := if_neg h
    rw [hs, hs]

theorem lookup_desiredLlc {port : NetdevPort} {current : Link} {e : Text × Text}
    (he : e ∈ desiredLlc port current) : (desiredLlc port current).lookup e.1 = some e.2 := by
  have hkeys : ((desiredLlc port current).map Prod.fst).Nodup := by
    show (["switch_id".toList, "switch_info".toList, "port_id".toList] : List Text).Nodup
    decide
  exact PyDict.lookup_of_mem hkeys he

theorem desiredSwitchId_of_lookup {port : NetdevPort} {current current' : Link}
    (h : current'.lookup "switch_id".toList = some (desiredSwitchId port current)) :
    desiredSwitchId port current' = desiredSwitchId port current := by
  have hk : (current'.lookup "switch_id".toList).getD [] = desiredSwitchId port current := by
    rw [h, Option.getD_some]
  unfold desiredSwitchId at hk ⊢
  rw [hk]
  cases port.switchId with
  | none => exact keptSwitchId_keptSwitchId _
  | some s =>
    cases s with
    | nil => exact keptSwitchId_keptSwitchId _
    | cons c cs => rfl

/-- A link that holds the desired values is left alone. -/
theorem linkHolds_of_lookup {port : NetdevPort} {current current' : Link}
    (h : ∀ e ∈ desiredLlc port current, current'.lookup e.1 = some e.2) :
    linkHolds port current' = true := by
  have hmem : ("switch_id".toList, desiredSwitchId port current) ∈ desiredLlc port current :=
    List.mem_cons_self
  have hid : desiredLlc port current' = desiredLlc port current := by
    unfold desiredLlc
    rw [desiredSwitchId_of_lookup (h _ hmem)]
  unfold linkHolds
  rw [hid, List.all_eq_true]
  exact fun e he => decide_eq_true (h e he)

theorem linkHolds_desiredLlc (port : NetdevPort) (current : Link) :
    linkHolds port (desiredLlc port current) = true :=
  linkHolds_of_lookup fun _ he => lookup_desiredLlc he

theorem planOther_eq_nil {port : NetdevPort} {p : Port} :
    planOther physicalNetwork port p = [] ↔
      p.physicalNetwork = some physicalNetwork ∧ p.category = some "network".toList ∧
        linkHolds port (p.localLinkConnection.getD []) = true := by
  unfold planOther
  simp only [List.append_eq_nil_iff, ite_eq_left_iff, List.cons_ne_nil, imp_false, not_not,
    and_assoc]

/-- The `switch_id` of a new port is the one desired of a port without a link. -/
theorem createNetdevPort_eq (port : NetdevPort) :
    createNetdevPort nodeName physicalNetwork port =
      .createPort ⟨port.mac, "network".toList, desiredLlc port [],
        portName nodeName port.label, physicalNetwork⟩ := by
  unfold createNetdevPort desiredLlc desiredSwitchId
  cases port.switchId with
  | none => rfl
  | some s =>
    cases s with
    | nil => rfl
    | cons c cs => rfl

theorem settled_newPort (S : PortServer lower) (uuids : List Text) (port : NetdevPort) :
    Settled lower physicalNetwork port (S.newPort uuids ⟨port.mac, "network".toList,
      desiredLlc port [], portName nodeName port.label, physicalNetwork⟩) := by
  refine ⟨S.lower_storedMac port.mac, planOther_eq_nil.mpr ⟨rfl, rfl, ?_⟩⟩
  exact linkHolds_desiredLlc port []

theorem settled_planOther (S : PortServer lower) {port : NetdevPort} {e : Port}
    (h : lower e.address = lower port.mac) :
    Settled lower physicalNetwork port (S.patch e (planOther physicalNetwork port e)) := by
  have hll := linkHolds_desiredLlc port (e.localLinkConnection.getD [])
  unfold Settled PortServer.patch
  rw [planOther_eq_nil]
  unfold planOther
  split_ifs with h1 h2 h3 h4 h5 h6 h7 <;>
    simp only [List.nil_append, List.cons_append, List.foldl_nil, List.foldl_cons,
      PortServer.patchPort, Option.getD_some] <;>
    exact ⟨h, by trivial, by trivial, by trivial⟩

theorem planAddress_ok {port : NetdevPort} {e : Port} {macOwner : Option Port}
    {address : List PortOp} (h : planAddress lower nodeName port e macOwner = .ok address) :
    lower e.address = lower port.mac ∧ address = [] ∨
      lower e.address ≠ lower port.mac ∧ address = [.address port.mac] ∧
        ∀ owner, macOwner = some owner → owner.uuid = e.uuid := by
  unfold planAddress at h
  split at h
  · next ha =>
    cases h
    exact Or.inl ⟨ha, rfl⟩
  · next ha =>
    cases macOwner with
    | none =>
      cases h
      exact Or.inr ⟨ha, rfl, fun _ ho => by cases ho⟩
    | some owner =>
      dsimp only at h
      split at h
      · cases h
      · next hu =>
        cases h
        refine Or.inr ⟨ha, rfl, fun o ho => ?_⟩
        cases ho
        exact not_not.mp hu

theorem settled_patch (S : PortServer lower) {port : NetdevPort} {e : Port}
    {macOwner : Option Port} {address : List PortOp}
    (h : planAddress lower nodeName port e macOwner = .ok address) :
    Settled lower physicalNetwork port
      (S.patch e (address ++ planOther physicalNetwork port e)) := by
  rcases planAddress_ok h with ⟨ha, rfl⟩ | ⟨-, rfl, -⟩
  · exact settled_planOther S ha
  · -- the other operations do not depend on the address
    exact settled_planOther S (e := { e with address := S.storedMac port.mac })
      (S.lower_storedMac port.mac)

theorem planNetdevPort_of_settled {port : NetdevPort} {e : Port}
    (h : Settled lower physicalNetwork port e) (macOwner : Option Port) :
    planNetdevPort lower nodeName physicalNetwork port (some e) macOwner = .ok none := by
  have ha : planAddress lower nodeName port e macOwner = .ok [] := if_pos h.1
  simp only [planNetdevPort, ha, h.2]
  rfl

/-- What a successful plan says: a port to create has no port of its name and no owner of its
MAC; an existing port is settled, or becomes so by the patch. -/
theorem planNetdevPort_ok {port : NetdevPort} {existing macOwner : Option Port}
    {plan : Option Plan}
    (h : planNetdevPort lower nodeName physicalNetwork port existing macOwner = .ok plan) :
    (existing = none ∧ macOwner = none ∧ plan = some (.create port)) ∨
      ∃ e address, existing = some e ∧
        planAddress lower nodeName port e macOwner = .ok address ∧
        ((plan = none ∧ Settled lower physicalNetwork port e) ∨
          plan = some (.update e (address ++ planOther physicalNetwork port e))) := by
  unfold planNetdevPort at h
  cases existing with
  | none =>
    cases macOwner with
    | none =>
      cases h
      exact Or.inl ⟨rfl, rfl, rfl⟩
    | some owner => cases h
  | some e =>
    obtain ⟨address, ha, h⟩ := Runs.bind_eq_ok h
    refine Or.inr ⟨e, address, rfl, ha, ?_⟩
    have hplan : (if address ++ planOther physicalNetwork port e = [] then none
        else some (Plan.update e (address ++ planOther physicalNetwork port e))) = plan :=
      Except.ok.inj h
    split_ifs at hplan with hp
    · obtain ⟨hnil, hother⟩ := List.append_eq_nil_iff.mp hp
      refine Or.inl ⟨hplan.symm, ?_, hother⟩
      rcases planAddress_ok ha with ⟨heq, -⟩ | ⟨-, rfl, -⟩
      · exact heq
      · cases hnil
    · exact Or.inr hplan.symm

/-! One plan applied to the table. -/

/-- `ports'` is `ports` with `x` as its port of name `name`: appended where there was none, in
place of the last one otherwise. -/
inductive Written (name : Text) (x : Port) (ports : List Port) : List Port → Prop
  | append (h : portsByName ports name = none) : Written name x ports (ports ++ [x])
  | replace (e : Port) (h : portsByName ports name = some e) (hu : x.uuid = e.uuid) :
      Written name x ports (ports.map fun p => if p.uuid = e.uuid then x else p)

theorem portsByName_mem {ports : List Port} {name : Text} {p : Port}
    (h : portsByName ports name = some p) : p ∈ ports ∧ p.name = some name := by
  refine ⟨List.mem_reverse.mp (List.mem_of_find?_eq_some h), ?_⟩
  simpa using List.find?_some h

theorem eq_of_uuid_eq (t : PortTable) {p q : Port} (hp : p ∈ t.1) (hq : q ∈ t.1)
    (h : p.uuid = q.uuid) : p = q :=
  List.inj_on_of_nodup_map t.2 hp hq h

theorem find?_map_of_forall {α : Type} {l : List α} {f : α → α} {q : α → Bool}
    (h : ∀ a ∈ l, q (f a) = q a) : (l.map f).find? q = (l.find? q).map f := by
  induction l with
  | nil => rfl
  | cons a l ih =>
    rw [List.map_cons, List.find?_cons, List.find?_cons, h a List.mem_cons_self,
      ih fun b hb => h b (List.mem_cons_of_mem a hb)]
    cases q a <;> rfl

variable {t : PortTable} {name : Text} {x : Port} {ports' : List Port}

theorem portsByName_append (ports : List Port) (x : Port) (name : Text) :
    portsByName (ports ++ [x]) name =
      if x.name = some name then some x else portsByName ports name := by
  simp only [portsByName, List.reverse_append, List.reverse_cons, List.reverse_nil,
    List.nil_append, List.singleton_append, List.find?_cons]
  by_cases h : x.name = some name <;> simp [h]

theorem portsByName_replace {e : Port} (he : portsByName t.1 name = some e) (hx : x.name = some name)
    (name' : Text) :
    portsByName (t.1.map fun p => if p.uuid = e.uuid then x else p) name' =
      (portsByName t.1 name').map fun p => if p.uuid = e.uuid then x else p := by
  unfold portsByName
  rw [← List.map_reverse]
  apply find?_map_of_forall
  intro p hp
  split
  · next hu =>
    obtain ⟨hm, hn⟩ := portsByName_mem he
    rw [eq_of_uuid_eq t (List.mem_reverse.mp hp) hm hu, hx, hn]
  · rfl

theorem Written.portsByName_self (h : Written name x t.1 ports') (hx : x.name = some name) :
    portsByName ports' name = some x := by
  cases h with
  | append hn => rw [portsByName_append, if_pos hx]
  | replace e he hu =>
    rw [portsByName_replace he hx, he]
    simp

theorem Written.portsByName_of_ne (h : Written name x t.1 ports') (hx : x.name = some name)
    {name' : Text} (hne : name' ≠ name) : portsByName ports' name' = portsByName t.1 name' := by
  cases h with
  | append hn =>
    rw [portsByName_append, if_neg]
    rw [hx]
    exact fun he => hne (Option.some.inj he).symm
  | replace e he hu =>
    rw [portsByName_replace he hx]
    cases hp : portsByName t.1 name' with
    | none => rfl
    | some p =>
      obtain ⟨hm, hn⟩ := portsByName_mem hp
      obtain ⟨hme, hne'⟩ := portsByName_mem he
      have hu' : p.uuid ≠ e.uuid := by
        intro hu'
        rw [eq_of_uuid_eq t hm hme hu', hne'] at hn
        exact hne (Option.some.inj hn).symm
      simp [hu']

theorem Written.mem_of_name_ne (h : Written name x t.1 ports') {p : Port} (hp : p ∈ t.1)
    (hn : p.name ≠ some name) : p ∈ ports' := by
  cases h with
  | append _ => exact List.mem_append_left _ hp
  | replace e he hu =>
    obtain ⟨hme, hne⟩ := portsByName_mem he
    have hu' : p.uuid ≠ e.uuid := fun hu' => hn (eq_of_uuid_eq t hp hme hu' ▸ hne)
    exact List.mem_map.mpr ⟨p, hp, if_neg hu'⟩

theorem Written.mem_cases (h : Written name x t.1 ports') {p : Port} (hp : p ∈ ports') :
    p = x ∨ p ∈ t.1 ∧ portsByName t.1 name ≠ some p := by
  cases h with
  | append hn =>
    rcases List.mem_append.mp hp with hp | hp
    · exact Or.inr ⟨hp, by simp [hn]⟩
    · exact Or.inl (List.mem_singleton.mp hp)
  | replace e he hu =>
    obtain ⟨q, hq, rfl⟩ := List.mem_map.mp hp
    split
    · exact Or.inl rfl
    · next hne =>
      refine Or.inr ⟨hq, fun hp => hne ?_⟩
      rw [he] at hp
      exact congrArg Port.uuid (Option.some.inj hp).symm

/-- A plan made for the port that the table holds under the name writes a settled port there. -/
theorem serve_plan (S : PortServer lower) {port : NetdevPort} {macOwner : Option Port} {plan : Plan}
    (h : planNetdevPort lower nodeName physicalNetwork port
      (portsByName t.1 (portName nodeName port.label)) macOwner = .ok (some plan)) :
    ∃ x, x.name = some (portName nodeName port.label) ∧ Settled lower physicalNetwork port x ∧
      Written (portName nodeName port.label) x t.1
        (S.serve (applyPortPlan nodeName physicalNetwork plan) t).1 := by
  rcases planNetdevPort_ok h with ⟨hnone, -, hplan⟩ | ⟨e, address, he, ha, hplan⟩
  · cases hplan
    rw [applyPortPlan, createNetdevPort_eq]
    exact ⟨_, rfl, settled_newPort S _ port, .append hnone⟩
  · rcases hplan with ⟨hplan, -⟩ | hplan
    · cases hplan
    · cases hplan
      obtain ⟨hm, hn⟩ := portsByName_mem he
      refine ⟨_, ?_, settled_patch S ha, ?_⟩
      · rw [PortServer.patch_name, hn]
      · have hmap : (S.serve (applyPortPlan nodeName physicalNetwork
            (.update e (address ++ planOther physicalNetwork port e))) t).1 =
            t.1.map fun p => if p.uuid = e.uuid then
              S.patch e (address ++ planOther physicalNetwork port e) else p := by
          refine List.map_congr_left fun p hp => ?_
          by_cases hu : p.uuid = e.uuid
          · rw [eq_of_uuid_eq t hp hm hu]
          · rw [if_neg hu, if_neg hu]
        rw [hmap]
        exact .replace e he (S.patch_uuid e _)

end Understack.Workflows.Netdev
