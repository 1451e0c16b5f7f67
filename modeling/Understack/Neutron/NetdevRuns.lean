import Understack.Neutron.NetdevCalls

/-! Bindings stay exclusive in every interleaving in which no rollback and no release takes the
stamps of another router off a node. -/
namespace Understack.Neutron.Netdev

/-- The create has stamped its node and not failed since. -/
def CreatePhase.holds : CreatePhase → Bool
  | .adopt => true
  | .wait => true
  | .bound => true
  | _ => false

structure RouterInv (pool : List Node) (c : Create) (r : String) (started : Prop) : Prop where
  request : c.phase ≠ .idle → c.request.routerId = r
  located : c.phase ≠ .idle → ∀ node ∈ pool, node.instanceUuid = some r →
    c.phase ≠ .select ∧ node.id = c.nodeId
  holding : c.phase.holds = true → ¬ started → ∃ node ∈ pool, node.id = c.nodeId ∧
    Carries node c.request ∧ (c.phase = .bound → node.provisionState = .active)

attribute [local simp] createStep

/-- Another worker's call keeps the invariant of a router. -/
theorem RouterInv.keep {pool pool' : List Node} {c : Create} {r : String} {started : Prop}
    (h : RouterInv pool c r started) (hchange : Changes (KeepsNode r) pool pool') :
    RouterInv pool' c r started where
  request := h.request
  located := by
    intro hphase node' hn' hr
    obtain ⟨node, hn, hid, hkeep⟩ := hchange.origin hn'
    rw [hid]
    exact h.located hphase node hn (hkeep.old hr)
  holding := by
    intro hholds hstarted
    obtain ⟨node, hn, hid, hcarries, hactive⟩ := h.holding hholds hstarted
    obtain ⟨node', hn', hid', hkeep⟩ := hchange.image hn
    have hidle : c.phase ≠ .idle := by
      intro he
      simp [he, CreatePhase.holds] at hholds
    have hr : node.instanceUuid = some r := by
      rw [hcarries.1, h.request hidle]
    obtain ⟨huuid, hlessee, hname, hstate⟩ := hkeep.kept hr
    refine ⟨node', hn', hid'.trans hid, ⟨?_, ?_, ?_⟩, fun hb => hstate (hactive hb)⟩
    · rw [huuid, h.request hidle]
    · rw [hlessee, hcarries.2.1]
    · rw [hname, hcarries.2.2]

/-- A call that adds no stamp keeps the invariant of a router whose delete has started. -/
theorem RouterInv.old {pool pool' : List Node} {c : Create} {r : String} {started : Prop}
    (h : RouterInv pool c r started) (hstarted : started)
    (hold : Changes (fun node node' => node'.instanceUuid = some r → node.instanceUuid = some r)
      pool pool') :
    RouterInv pool' c r started where
  request := h.request
  located := by
    intro hidle node' hn' hr
    obtain ⟨node, hn, hid, hback⟩ := hold.origin hn'
    rw [hid]
    exact h.located hidle node hn (hback hr)
  holding := fun _ hnot => absurd hstarted hnot

/-- A call that adds no stamp keeps the invariant of a router that holds nothing. -/
theorem RouterInv.release {pool pool' : List Node} {c : Create} {r : String} {started : Prop}
    {phase : CreatePhase} (h : RouterInv pool c r started) (hidle : c.phase ≠ .idle)
    (hselect : phase ≠ .select) (hfree : phase.holds = true → started)
    (hold : Changes (fun node node' => node'.instanceUuid = some r → node.instanceUuid = some r)
      pool pool') :
    RouterInv pool' { c with phase := phase } r started where
  request := fun _ => h.request hidle
  located := by
    intro _ node' hn' hr
    obtain ⟨node, hn, hid, hback⟩ := hold.origin hn'
    rw [hid]
    exact ⟨hselect, (h.located hidle node hn (hback hr)).2⟩
  holding := fun hholds hstarted => absurd (hfree hholds) hstarted

theorem Changes.mono {change change' : Node → Node → Prop} {pool pool' : List Node}
    (h : Changes change pool pool') (himp : ∀ node node', change node node' → change' node node') :
    Changes change' pool pool' :=
  h.imp fun node node' hc => ⟨hc.1, himp node node' hc.2⟩

theorem provision_keeps {pool : List Node} {verb : Verb} (nodeId r : String)
    (hids : (pool.map Node.id).Nodup) (hv : verb ≠ .deleted) (outcome : Outcome) :
    Changes (KeepsNode r) pool (attempt pool nodeId (.provision verb) outcome).1 := by
  apply attempt_changes hids (KeepsNode.refl r)
  intro node node' _ _ h
  exact keepsNode_provision h fun hd => absurd hd hv

/-- The pool after a call of a create. -/
theorem createStep_changes {change : Node → Node → Prop} {pool : List Node} {c : Create}
    (hids : (pool.map Node.id).Nodup) (hrefl : ∀ node, change node node)
    (hprovision : ∀ verb node node', verb ≠ .deleted →
      (Call.provision verb).apply node = some node' → change node node')
    (hstamp : c.phase = .stamp → ∀ node node',
      (Call.update c.request.stamp).apply node = some node' → change node node')
    (hreturn : ∀ phase, c.phase = .rollback phase → ∀ outcome,
      Changes change pool (returnStep pool c.nodeId outcome phase).1) (outcome : Outcome) :
    Changes change pool (createStep pool c outcome).1 := by
  have hsame := changes_refl hrefl pool
  have hverb {verb : Verb} (hv : verb ≠ .deleted) :
      Changes change pool (attempt pool c.nodeId (.provision verb) outcome).1 :=
    attempt_changes hids hrefl (fun node node' _ _ h => hprovision verb node node' hv h) outcome
  cases hphase : c.phase with
  | idle => simpa only [createStep, hphase] using hsame
  | select =>
    simp only [createStep, hphase]
    split <;> exact hsame
  | manage => simpa only [createStep, hphase] using hverb (by decide)
  | stamp =>
    simp only [createStep, hphase]
    exact attempt_changes hids hrefl (fun node node' _ _ h => hstamp hphase node node' h) outcome
  | adopt => simpa only [createStep, hphase] using hverb (by decide)
  | wait =>
    simp only [createStep, hphase]
    split <;> exact hsame
  | rollback phase =>
    simp only [createStep, hphase]
    exact hreturn phase hphase outcome
  | noNode => simpa only [createStep, hphase] using hsame
  | bound => simpa only [createStep, hphase] using hsame

/-- A create keeps the stamps of the other routers. -/
theorem createStep_keeps {pool : List Node} {c : Create} {q r : String}
    (hids : (pool.map Node.id).Nodup) (hr : r ≠ q)
    (hrequest : c.phase ≠ .idle → c.request.routerId = q)
    (hsafe : ∀ phase, c.phase = .rollback phase →
      ¬ (phase.clears = true ∧ carriesOther pool c.nodeId q = true)) (outcome : Outcome) :
    Changes (KeepsNode r) pool (createStep pool c outcome).1 := by
  apply createStep_changes hids (KeepsNode.refl r)
  · intro verb node node' hv h
    exact keepsNode_provision h fun hd => absurd hd hv
  · intro hphase node node' h
    have hq : c.request.routerId = q := hrequest (by simp [hphase])
    apply keepsNode_update h
    · simpa [Request.stamp, hq] using Ne.symm hr
    · intro hnone
      cases hnone
  · intro phase hphase outcome
    exact returnStep_keeps hids hr (hsafe phase hphase) outcome

section OwnCreate

variable {pool : List Node} {c : Create} {r : String} {started : Prop}

theorem RouterInv.select (h : RouterInv pool c r started) (hphase : c.phase = .select)
    (outcome : Outcome) :
    RouterInv (createStep pool c outcome).1 (createStep pool c outcome).2 r started := by
  have hidle : c.phase ≠ .idle := by simp [hphase]
  simp only [createStep, hphase]
  split
  next node _ =>
    refine ⟨fun _ => h.request hidle, ?_, by simp [CreatePhase.holds]⟩
    intro _ node hn hr
    exact absurd hphase (h.located hidle node hn hr).1
  next =>
    apply h.release hidle (by simp) (by simp [CreatePhase.holds])
    exact changes_refl (fun _ hr => hr) pool

theorem RouterInv.manage (h : RouterInv pool c r started) (hids : (pool.map Node.id).Nodup)
    (hphase : c.phase = .manage) (outcome : Outcome) :
    RouterInv (createStep pool c outcome).1 (createStep pool c outcome).2 r started := by
  simp only [createStep, hphase, Create.advance]
  apply h.release (by simp [hphase])
  · split <;> simp
  · split <;> simp [CreatePhase.holds]
  · exact (provision_keeps c.nodeId r hids (by decide) outcome).mono fun _ _ hk => hk.old

/-- The stamp that returned is on the node; the one that raised may be there too. -/
theorem RouterInv.stamp (h : RouterInv pool c r started) (hids : (pool.map Node.id).Nodup)
    (hphase : c.phase = .stamp) (outcome : Outcome) :
    RouterInv (createStep pool c outcome).1 (createStep pool c outcome).2 r started := by
  have hidle : c.phase ≠ .idle := by simp [hphase]
  have hchange : Changes (fun node node' => node'.instanceUuid = some r →
      node.instanceUuid = some r ∨ node.id = c.nodeId) pool
      (attempt pool c.nodeId (.update c.request.stamp) outcome).1 := by
    apply attempt_changes hids fun _ hr => .inl hr
    intro node node' _ hid _ _
    exact .inr hid
  simp only [createStep, hphase, Create.advance]
  refine ⟨fun _ => h.request hidle, ?_, ?_⟩
  · intro _ node' hn' hr
    obtain ⟨node, hn, hid, hback⟩ := hchange.origin hn'
    refine ⟨by split <;> simp, ?_⟩
    rw [hid]
    rcases hback hr with hr | hr
    · exact (h.located hidle node hn hr).2
    · exact hr
  · intro hholds _
    split at hholds
    next hreturned =>
      obtain ⟨node, node', hn, hid, happly, hn'⟩ := attempt_returned hreturned
      refine ⟨node', hn', (apply_id happly).trans hid, ?_, by simp [hreturned]⟩
      simp only [Call.apply, updateNode, Option.ite_none_left_eq_some, Option.some.injEq] at happly
      obtain ⟨-, rfl⟩ := happly
      exact ⟨rfl, rfl, rfl⟩
    next => simp [CreatePhase.holds] at hholds

theorem RouterInv.adopt (h : RouterInv pool c r started) (hids : (pool.map Node.id).Nodup)
    (hphase : c.phase = .adopt) (outcome : Outcome) :
    RouterInv (createStep pool c outcome).1 (createStep pool c outcome).2 r started := by
  have hkeeps := provision_keeps c.nodeId r hids (show Verb.adopt ≠ .deleted by decide) outcome
  have hkept := h.keep hkeeps
  have hidle : c.phase ≠ .idle := by simp [hphase]
  simp only [createStep, hphase, Create.advance]
  refine ⟨fun _ => h.request hidle, ?_, ?_⟩
  · intro _ node' hn' hr
    exact ⟨by split <;> simp, (hkept.located hidle node' hn' hr).2⟩
  · intro hholds hstarted
    obtain ⟨node, hn, hid, hcarries, -⟩ := hkept.holding (by simp [hphase, CreatePhase.holds]) hstarted
    refine ⟨node, hn, hid, hcarries, fun hb => ?_⟩
    split at hb <;> cases hb

/-- The poll that sees the node active binds the router. -/
theorem RouterInv.wait (h : RouterInv pool c r started) (hids : (pool.map Node.id).Nodup)
    (hphase : c.phase = .wait) (outcome : Outcome) :
    RouterInv (createStep pool c outcome).1 (createStep pool c outcome).2 r started := by
  have hidle : c.phase ≠ .idle := by simp [hphase]
  simp only [createStep, hphase]
  split
  next hstate =>
    refine ⟨fun _ => h.request hidle, ?_, ?_⟩
    · intro _ node hn hr
      exact ⟨by simp, (h.located hidle node hn hr).2⟩
    · intro _ hstarted
      obtain ⟨node, hn, hid, hcarries, -⟩ := h.holding (by simp [hphase, CreatePhase.holds]) hstarted
      obtain ⟨seen, hseen, hactive⟩ := Option.map_eq_some_iff.mp hstate
      obtain ⟨hmem, hid'⟩ := getNode_some hseen
      obtain rfl := List.inj_on_of_nodup_map hids hn hmem (hid.trans hid'.symm)
      exact ⟨node, hn, hid, hcarries, fun _ => hactive⟩
  next => exact h
  next =>
    apply h.release hidle (by simp) (by simp [CreatePhase.holds])
    exact changes_refl (fun _ hr => hr) pool

theorem RouterInv.createStep (h : RouterInv pool c r started) (hids : (pool.map Node.id).Nodup)
    (outcome : Outcome) :
    RouterInv (createStep pool c outcome).1 (createStep pool c outcome).2 r started := by
  cases hphase : c.phase with
  | idle => simpa only [Netdev.createStep, hphase] using h
  | select => exact h.select hphase outcome
  | manage => exact h.manage hids hphase outcome
  | stamp => exact h.stamp hids hphase outcome
  | adopt => exact h.adopt hids hphase outcome
  | wait => exact h.wait hids hphase outcome
  | rollback phase =>
    simp only [Netdev.createStep, hphase]
    apply h.release (by simp [hphase]) (by simp) (by simp [CreatePhase.holds])
    exact returnStep_old r hids outcome
  | noNode => simpa only [Netdev.createStep, hphase] using h
  | bound => simpa only [Netdev.createStep, hphase] using h

end OwnCreate

/-! All routers. -/

structure Inv (w : World) : Prop where
  ids : (w.pool.map Node.id).Nodup
  routers : ∀ r, RouterInv w.pool (w.creates r) r (DeleteStarted w r)

theorem Inv.exclusive {w : World} (h : Inv w) : Exclusive w := by
  have hbound (r : String) (hr : Live w r) : (w.creates r).request.routerId = r ∧
      ∃ node ∈ w.pool, node.id = (w.creates r).nodeId ∧ Carries node (w.creates r).request ∧
        node.provisionState = .active := by
    obtain ⟨hphase, hstarted⟩ := hr
    obtain ⟨node, hn, hid, hcarries, hactive⟩ :=
      (h.routers r).holding (by simp [hphase, CreatePhase.holds]) hstarted
    exact ⟨(h.routers r).request (by simp [hphase]), node, hn, hid, hcarries, hactive hphase⟩
  constructor
  · intro r hr
    obtain ⟨hrequest, node, hn, hid, hcarries, hactive⟩ := hbound r hr
    refine ⟨hrequest, node, hn, hid, hactive, hcarries, ?_⟩
    intro other ho huuid
    have hloc := ((h.routers r).located (by simp [hr.1]) other ho huuid).2
    exact List.inj_on_of_nodup_map h.ids ho hn (hloc.trans hid.symm)
  · intro r r' hr hr' hsame
    obtain ⟨hrequest, node, hn, hid, hcarries, -⟩ := hbound r hr
    obtain ⟨hrequest', node', hn', hid', hcarries', -⟩ := hbound r' hr'
    obtain rfl := List.inj_on_of_nodup_map h.ids hn hn' (hid.trans (hsame.trans hid'.symm))
    have huuid := hcarries.1.symm.trans hcarries'.1
    rw [hrequest, hrequest'] at huuid
    exact Option.some.inj huuid

theorem createStep_ids {pool : List Node} {c : Create} (hids : (pool.map Node.id).Nodup)
    (outcome : Outcome) : (createStep pool c outcome).1.map Node.id = pool.map Node.id := by
  have hany : Changes (fun _ _ => True) pool (createStep pool c outcome).1 :=
    createStep_changes hids (fun _ => trivial) (fun _ _ _ _ _ => trivial)
      (fun _ _ _ _ => trivial)
      (fun _ _ outcome => returnStep_changes hids (fun _ => trivial)
        (fun _ _ _ _ _ _ _ => trivial) outcome) outcome
  exact hany.ids

theorem deleteStep_changes {change : Node → Node → Prop} {pool : List Node} {d : Delete}
    (hrefl : ∀ node, change node node)
    (hreturn : ∀ phase, d.phase = .returning phase → ∀ outcome,
      Changes change pool (returnStep pool d.nodeId outcome phase).1) (outcome : Outcome) :
    Changes change pool (deleteStep pool d outcome).1 := by
  have hsame := changes_refl hrefl pool
  cases hphase : d.phase with
  | idle => simpa only [deleteStep, hphase] using hsame
  | find =>
    simp only [deleteStep, hphase]
    split <;> exact hsame
  | returning phase =>
    simp only [deleteStep, hphase]
    exact hreturn phase hphase outcome

theorem deleteStep_ids {pool : List Node} {d : Delete} (hids : (pool.map Node.id).Nodup)
    (outcome : Outcome) : (deleteStep pool d outcome).1.map Node.id = pool.map Node.id := by
  have hany : Changes (fun _ _ => True) pool (deleteStep pool d outcome).1 :=
    deleteStep_changes (fun _ => trivial) (fun _ _ outcome =>
      returnStep_changes hids (fun _ => trivial) (fun _ _ _ _ _ _ _ => trivial) outcome) outcome
  exact hany.ids

theorem deleteStep_router (pool : List Node) (d : Delete) (outcome : Outcome) :
    (deleteStep pool d outcome).2.routerId = d.routerId ∧
      ((deleteStep pool d outcome).2.phase = .idle ↔ d.phase = .idle) := by
  cases hphase : d.phase with
  | idle => simp [deleteStep, hphase]
  | find =>
    simp only [deleteStep, hphase]
    split <;> simp
  | returning phase => simp [deleteStep, hphase]

/-- A release in progress is one of the deletes that have started, before and after its step. -/
theorem deleteStarted_stepDelete {w : World} {worker : ℕ} {outcome : Outcome} (r : String) :
    DeleteStarted (step w (.stepDelete worker outcome)) r ↔ DeleteStarted w r := by
  obtain ⟨hrouter, hidle⟩ := deleteStep_router w.pool (w.deletes worker) outcome
  have hsame (k : ℕ) : ((step w (.stepDelete worker outcome)).deletes k).phase ≠ .idle ∧
      ((step w (.stepDelete worker outcome)).deletes k).routerId = r ↔
      (w.deletes k).phase ≠ .idle ∧ (w.deletes k).routerId = r := by
    by_cases hk : k = worker
    · subst hk
      simp only [step, Function.update_self, hrouter, ne_eq, hidle]
    · simp only [step, Function.update_of_ne hk]
  exact exists_congr hsame

theorem Inv.create {w : World} (h : Inv w) (request : Request) :
    Inv (step w (.create request)) := by
  simp only [step]
  split
  next hnew =>
    refine ⟨h.ids, fun r => ?_⟩
    by_cases hr : r = request.routerId
    · subst hr
      simp only [Function.update_self]
      refine ⟨fun _ => rfl, ?_, by simp [CreatePhase.holds]⟩
      intro _ node hn huuid
      exact absurd huuid (hnew.2 node hn)
    · simp only [Function.update_of_ne hr]
      exact h.routers r
  next => exact h

theorem Inv.stepCreate {w : World} {q : String} {outcome : Outcome} (h : Inv w)
    (hok : ¬ Trespasses w (.stepCreate q outcome)) : Inv (step w (.stepCreate q outcome)) := by
  refine ⟨?_, fun r => ?_⟩
  · show ((createStep w.pool (w.creates q) outcome).1.map Node.id).Nodup
    rw [createStep_ids h.ids]
    exact h.ids
  · by_cases hr : r = q
    · subst hr
      simp only [step, Function.update_self]
      exact (h.routers r).createStep h.ids outcome
    · simp only [step, Function.update_of_ne hr]
      apply (h.routers r).keep
      apply createStep_keeps h.ids hr (h.routers q).request
      intro phase hphase htrespass
      apply hok
      simpa only [Trespasses, hphase] using htrespass

theorem Inv.delete {w : World} (h : Inv w) (worker : ℕ) (q : String) :
    Inv (step w (.delete worker q)) := by
  simp only [step]
  split
  next hidle =>
    refine ⟨h.ids, fun r => ⟨(h.routers r).request, (h.routers r).located, ?_⟩⟩
    intro hholds hstarted
    apply (h.routers r).holding hholds
    -- A started delete stays started: the worker that was reused was idle.
    rintro ⟨k, hk, hkr⟩
    apply hstarted
    refine ⟨k, ?_⟩
    have hne : k ≠ worker := by
      rintro rfl
      exact hk hidle
    simp only [Function.update_of_ne hne]
    exact ⟨hk, hkr⟩
  next => exact h

theorem Inv.stepDelete {w : World} {worker : ℕ} {outcome : Outcome} (h : Inv w)
    (hok : ¬ Trespasses w (.stepDelete worker outcome)) :
    Inv (step w (.stepDelete worker outcome)) := by
  refine ⟨?_, fun r => ?_⟩
  · show ((deleteStep w.pool (w.deletes worker) outcome).1.map Node.id).Nodup
    rw [deleteStep_ids h.ids]
    exact h.ids
  · rw [deleteStarted_stepDelete]
    show RouterInv (deleteStep w.pool (w.deletes worker) outcome).1 (w.creates r) r _
    by_cases hr : r = (w.deletes worker).routerId
    · by_cases hidle : (w.deletes worker).phase = .idle
      · simpa only [deleteStep, hidle] using h.routers r
      · apply (h.routers r).old ⟨worker, hidle, hr.symm⟩
        exact deleteStep_changes (fun _ hb => hb)
          (fun _ _ outcome => returnStep_old r h.ids outcome) outcome
    · apply (h.routers r).keep
      apply deleteStep_changes (KeepsNode.refl r)
      intro phase hphase outcome
      apply returnStep_keeps h.ids hr
      intro htrespass
      apply hok
      simpa only [Trespasses, hphase] using htrespass

theorem Inv.step {w : World} {action : Action} (h : Inv w) (hok : ¬ Trespasses w action) :
    Inv (step w action) := by
  cases action with
  | create request => exact h.create request
  | stepCreate routerId outcome => exact h.stepCreate hok
  | delete worker routerId => exact h.delete worker routerId
  | stepDelete worker outcome => exact h.stepDelete hok

theorem Inv.start {pool : List Node} (hids : (pool.map Node.id).Nodup) : Inv (World.start pool) :=
  ⟨hids, fun _ => ⟨fun hidle => absurd rfl hidle, fun hidle => absurd rfl hidle,
    fun hholds => by cases hholds⟩⟩

/-- Bindings stay exclusive in every interleaving without a trespassing write. -/
theorem adoptionRun_exclusive (pool : List Node) (hids : (pool.map Node.id).Nodup)
    (actions : List Action)
    (h : Runs.Along step (fun w action => ¬ Trespasses w action) (World.start pool) actions) :
    ∀ pre, pre <+: actions → Exclusive (pre.foldl step (World.start pool)) := by
  intro pre hpre
  exact (h.invariant (fun w action hw hok => hw.step hok) (Inv.start hids) hpre).exclusive

def freeNode (id : String) : Node :=
  { id := id, driver := "netdev", resourceClass := "firewall", isMaintenance := false,
    provisionState := .available, lessee := none, instanceUuid := none, instanceName := none }

def routerRequest (routerId : String) : Request :=
  { routerId := routerId, projectId := some "project", routerName := "router",
    resourceClass := "firewall" }

/-- Two creates race for the first node; the loser of the manage call has not yet looked at it
when the winner is released again, and its rollback finds a free node. -/
def raceAndRelease : List Action :=
  [.create (routerRequest "a"), .create (routerRequest "b"), .stepCreate "a" .returned,
    .stepCreate "b" .returned, .stepCreate "a" .returned, .stepCreate "b" .returned,
    .stepCreate "a" .returned, .stepCreate "a" .returned, .stepCreate "a" .returned,
    .create (routerRequest "c"), .stepCreate "c" .returned, .stepCreate "c" .returned,
    .stepCreate "c" .broken, .stepCreate "c" .returned, .stepCreate "c" .returned,
    .stepCreate "c" .returned,
    .delete 0 "a", .stepDelete 0 .returned, .stepDelete 0 .returned, .stepDelete 0 .returned,
    .stepDelete 0 .returned, .stepCreate "b" .returned, .stepCreate "b" .returned]

theorem adoptionRun_exclusive_raceAndRelease :
    (([freeNode "n", freeNode "m"].map Node.id).Nodup) ∧
    Runs.Along step (fun w action => ¬ Trespasses w action)
      (World.start [freeNode "n", freeNode "m"]) raceAndRelease ∧
    (((raceAndRelease.take 16).foldl step (World.start [freeNode "n", freeNode "m"])).creates
      "a").phase = .bound ∧
    ∀ pre, pre <+: raceAndRelease →
      Exclusive (pre.foldl step (World.start [freeNode "n", freeNode "m"])) :=
  have hids : ([freeNode "n", freeNode "m"].map Node.id).Nodup := by decide
  have h : Runs.Along step (fun w action => ¬ Trespasses w action)
      (World.start [freeNode "n", freeNode "m"]) raceAndRelease := by decide
  ⟨hids, h, by decide, adoptionRun_exclusive _ hids raceAndRelease h⟩

/-- Two creates select the same node; the winner is bound, the manage call of the loser is
rejected, and the rollback of the loser undeploys the node of the winner. -/
def raceForOneNode : List Action :=
  [.create (routerRequest "a"), .create (routerRequest "b"), .stepCreate "a" .returned,
    .stepCreate "b" .returned, .stepCreate "a" .returned, .stepCreate "a" .returned,
    .stepCreate "a" .returned, .stepCreate "a" .returned, .stepCreate "b" .returned,
    .stepCreate "b" .returned, .stepCreate "b" .returned]

theorem adoptionRun_rollback_undeploys_winner :
    ¬ ∀ (pool : List Node), (pool.map Node.id).Nodup → ∀ actions : List Action,
      ∀ pre, pre <+: actions → Exclusive (pre.foldl step (World.start pool)) := by
  intro hall
  have hexclusive := hall [freeNode "n"] (by decide) raceForOneNode _ (List.prefix_refl _)
  have hlive : Live (raceForOneNode.foldl step (World.start [freeNode "n"])) "a" := by
    refine ⟨by decide, ?_⟩
    rintro ⟨worker, hphase, -⟩
    exact hphase rfl
  obtain ⟨-, node, hn, -, hactive, -⟩ := hexclusive.bound "a" hlive
  have hpool : (raceForOneNode.foldl step (World.start [freeNode "n"])).pool =
      [{ freeNode "n" with lessee := some "project" }] := by decide
  rw [hpool, List.mem_singleton] at hn
  rw [hn] at hactive
  cases hactive

end Understack.Neutron.Netdev
