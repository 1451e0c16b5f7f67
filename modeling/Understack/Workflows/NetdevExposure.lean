import Understack.Workflows.NetdevEffects

/-! At whatever call `enroll` is stopped, no half-reconciled node is in the pool: ports change
only outside of it, and a node enters it after all its writes. -/
namespace Understack.Workflows.Netdev

open PyText Json Calls

variable {lower : Text → Text} {F : Type}

def Call.isTransition : Call F → Bool
  | .setProvisionState _ => true
  | _ => false

/-- The calls that can put a node into the pool. -/
def Call.offers : Call F → Bool
  | .setProvisionState target => target = .provide
  | .waitForProvisionState expected => expected = .available
  | _ => false

def Call.isPort : Call F → Bool
  | .port _ => true
  | _ => false

def stateOf (s : Option (Node F)) : Option ProvisionState := s.map Node.provisionState

/-- The node is available after the call and was not before it. -/
def MovesToAvailable (e : Event (Option (Node F)) (Call F)) : Prop :=
  stateOf e.before ≠ some .available ∧ stateOf e.after = some .available

/-- The call was made, with success. -/
def Done (log : List (Event (Option (Node F)) (Call F))) (c : Call F) : Prop :=
  ∃ e ∈ log, e.call = c ∧ e.succeeded = true

section
variable [FloatOps F]

/-- The call that writes the metadata, if there is anything to write. -/
def metadataWrites (req : Request F) : Option (Node F) → List (Call F)
  | none => [.createNode req.nodeData]
  | some node => metadataCalls req node

/-- Every pending plan has been applied and the node metadata has been written. -/
def Reconciled (lower : Text → Text) (req : Request F) (s : Option (Node F))
    (log : List (Event (Option (Node F)) (Call F))) : Prop :=
  ∃ ports plans, buildNetdevPorts lower req.ports = .ok ports ∧
    planPorts lower req.name req.physicalNetwork (initialPorts s) ports = .ok plans ∧
    ∀ c ∈ metadataWrites req s ++ portCalls req plans.reduceOption, Done log c

/-! The calls of each segment. -/

theorem mem_prepareCalls {req : Request F} {node : Node F} {created : Bool} {pending : List Plan}
    {c : Call F} (h : c ∈ prepareCalls req node created pending) :
    c = .setProvisionState .manage ∨ c = .waitForProvisionState .manageable ∨
      c = .updateNode (req.metadataPatch node) := by
  unfold prepareCalls at h
  rcases List.mem_append.mp h with h | h
  · unfold stepDownCalls at h
    split_ifs at h
    · simpa [transitionCalls, or_assoc] using Or.inl h
    · cases h
  · cases created with
    | true => cases h
    | false =>
      have hm : c ∈ metadataCalls req node := h
      unfold metadataCalls at hm
      split_ifs at hm
      · cases hm
      · exact Or.inr (Or.inr (List.mem_singleton.mp hm))

end

theorem mem_portCalls {req : Request F} {pending : List Plan} {c : Call F}
    (h : c ∈ portCalls req pending) : ∃ pc, c = .port pc := by
  obtain ⟨plan, -, rfl⟩ := List.mem_map.mp h
  exact ⟨_, rfl⟩

theorem mem_makeAvailable {node : Node F} {state : ProvisionState} {c : Call F}
    (h : c ∈ (makeAvailableScript node state).1) :
    (∃ target, c = .setProvisionState target) ∨ ∃ expected, c = .waitForProvisionState expected := by
  have htransition {target : Target} {expected : ProvisionState}
      (hc : c ∈ transitionCalls target expected) :
      (∃ target, c = .setProvisionState target) ∨
        ∃ expected, c = .waitForProvisionState expected := by
    rcases List.mem_cons.mp hc with rfl | hc
    · exact Or.inl ⟨_, rfl⟩
    · exact Or.inr ⟨_, List.mem_singleton.mp hc⟩
  cases state with
  | available => cases h
  | enroll =>
    rcases List.mem_append.mp h with h | h
    · exact htransition h
    · exact htransition h
  | manageable => exact htransition h
  | other name => cases h

/-! Ports change outside of the pool. -/

def PortSafe (s : Option (Node F)) (c : Call F) : Prop :=
  c.isPort = true → stateOf s = some .enroll ∨ stateOf s = some .manageable

section
variable {I : Ironic lower} {outcome : ℕ → Outcome}

theorem allowed_of_notPort {cs : List (Call F)} (h : ∀ c ∈ cs, c.isPort = false)
    (s : Option (Node F)) : (I.api outcome).Allowed PortSafe s cs := by
  refine Api.Allowed.of_invariant (I := fun _ => True) (fun s _ c hc hp => ?_)
    (fun _ _ _ _ _ _ => trivial) trivial
  rw [h c hc] at hp
  cases hp

theorem allowed_portCalls (req : Request F) (pending : List Plan) {s : Option (Node F)}
    (h : stateOf s = some .enroll ∨ stateOf s = some .manageable) :
    (I.api outcome).Allowed PortSafe s (portCalls req pending) := by
  refine Api.Allowed.of_invariant
    (I := fun s => stateOf s = some .enroll ∨ stateOf s = some .manageable)
    (fun s hs _ _ _ => hs) (fun s hs c hc s' hserve => ?_) h
  obtain ⟨pc, rfl⟩ := mem_portCalls hc
  cases s with
  | none => cases hserve
  | some node =>
    cases hserve
    exact hs

theorem steppedState_safe {pending : List Plan} {state : ProvisionState}
    (h : state ∈ reenrollableStates) (hp : pending ≠ []) :
    steppedState pending state = .enroll ∨ steppedState pending state = .manageable := by
  unfold steppedState
  cases state with
  | available => simp [hp]
  | enroll => simp
  | manageable => simp
  | other name => simp [reenrollableStates] at h

theorem notPort_prepare [FloatOps F] {req : Request F} {node : Node F} {created : Bool}
    {pending : List Plan} : ∀ c ∈ prepareCalls req node created pending, c.isPort = false := by
  intro c hc
  rcases mem_prepareCalls hc with rfl | rfl | rfl <;> rfl

theorem notPort_makeAvailable {node : Node F} {state : ProvisionState} :
    ∀ c ∈ (makeAvailableScript node state).1, c.isPort = false := by
  intro c hc
  rcases mem_makeAvailable hc with ⟨_, rfl⟩ | ⟨_, rfl⟩ <;> rfl

variable [FloatOps F]

theorem allowed_reconcile (req : Request F) {node : Node F} (created : Bool)
    (pending : List Plan) (h : node.provisionState ∈ reenrollableStates) :
    (I.api outcome).Allowed PortSafe (some node) (reconcileScript req node created pending).1 := by
  unfold reconcileScript
  dsimp only
  split_ifs
  · exact allowed_of_notPort notPort_prepare _
  · refine ((allowed_of_notPort notPort_prepare _).append fun s hs => ?_).append fun s _ =>
      allowed_of_notPort notPort_makeAvailable s
    by_cases hp : pending = []
    · rw [hp]
      trivial
    · rw [serveAll_prepare] at hs
      obtain ⟨n, -, rfl⟩ := Option.map_eq_some_iff.mp hs
      apply allowed_portCalls
      simpa [stateOf, Node.withState] using steppedState_safe h hp

theorem allowed_script (req : Request F) (s : Option (Node F)) :
    (I.api outcome).Allowed PortSafe s (script I req s).1 := by
  rcases script_cases I req s with ⟨_, _, _, hreads⟩ | ⟨opening, node, created, _, _, hf, _, _, he⟩
  · refine allowed_of_notPort (fun c hc => ?_) s
    have := hreads c hc
    cases c <;> first | rfl | cases this
  · rw [he]
    refine Api.Allowed.append ?_ fun s' hs' => ?_
    · refine allowed_of_notPort (fun c hc => ?_) s
      rcases hf.mem_opening hc with ⟨_, rfl⟩ | ⟨-, rfl⟩ | rfl <;> rfl
    · rw [hf.serveAll outcome] at hs'
      cases hs'
      exact allowed_reconcile req created _ hf.reenrollable

/-! A node enters the pool after its writes. -/

omit [FloatOps F] in
theorem offers_of_moves {e : Event (Option (Node F)) (Call F)}
    (he : e.after = e.before ∨ (I.api outcome).serve e.call e.before = some e.after)
    (hm : MovesToAvailable e) : e.call.offers = true := by
  obtain ⟨c, before, after, ok⟩ := e
  obtain ⟨hb, ha⟩ := hm
  dsimp only at he ha hb ⊢
  rcases he with rfl | he
  · exact absurd ha hb
  · cases before with
    | none =>
      cases c <;> cases he
      all_goals cases ha
    | some node =>
      obtain ⟨node', hn, rfl⟩ := Option.map_eq_some_iff.mp he
      cases c with
      | getNode name =>
        cases hn
        exact absurd ha hb
      | createNode data => cases hn
      | listPorts =>
        cases hn
        exact absurd ha hb
      | updateNode patch =>
        have hs := (Node.patch_same hn).2.2.1
        simp only [stateOf, Option.map_some] at ha hb
        rw [hs] at ha
        exact absurd ha hb
      | setProvisionState target =>
        cases hn
        cases target with
        | manage => exact absurd (Option.some.inj ha) (I.transit_manage _)
        | provide => rfl
      | waitForProvisionState expected =>
        cases hn
        simpa [Call.offers] using Option.some.inj ha
      | port pc =>
        cases hn
        exact absurd ha hb

theorem notOffers_before {req : Request F} {s : Option (Node F)} {opening : List (Call F)}
    {node : Node F} {created : Bool} (hf : Found I req s opening node created)
    (pending : List Plan) :
    ∀ c ∈ opening ++ (prepareCalls req node created pending ++ portCalls req pending),
      c.offers = false := by
  intro c hc
  rcases List.mem_append.mp hc with hc | hc
  · rcases hf.mem_opening hc with ⟨_, rfl⟩ | ⟨-, rfl⟩ | rfl <;> rfl
  · rcases List.mem_append.mp hc with hc | hc
    · rcases mem_prepareCalls hc with rfl | rfl | rfl <;> rfl
    · obtain ⟨pc, rfl⟩ := mem_portCalls hc
      rfl

theorem metadataWrites_subset {req : Request F} {s : Option (Node F)} {opening : List (Call F)}
    {node : Node F} {created : Bool} (hf : Found I req s opening node created)
    (pending : List Plan) :
    metadataWrites req s ⊆ opening ++ prepareCalls req node created pending := by
  cases hf with
  | created => simp [metadataWrites]
  | reused node hd hs =>
    intro c hc
    exact List.mem_append_right _ (List.mem_append_right _ hc)

/-- Whatever offers the node to the pool comes after every write of the script. -/
theorem writes_before_offer {req : Request F} {s : Option (Node F)} {calls : List (Call F)}
    {c : Call F} (hpre : calls ++ [c] <+: (script I req s).1) (hc : c.offers = true) :
    ∃ ports plans, buildNetdevPorts lower req.ports = .ok ports ∧
      planPorts lower req.name req.physicalNetwork (initialPorts s) ports = .ok plans ∧
      metadataWrites req s ++ portCalls req plans.reduceOption ⊆ calls := by
  have hmem : c ∈ (script I req s).1 := hpre.subset (by simp)
  rcases script_cases I req s with
    ⟨_, _, _, hreads⟩ | ⟨opening, node, created, ports, plans, hf, hb, hp, he⟩
  · have hread := hreads c hmem
    cases c <;> first | cases hc | cases hread
  · refine ⟨ports, plans, hb, hp, ?_⟩
    have hnot := notOffers_before hf plans.reduceOption
    have hc' : c ∉ opening ++
        (prepareCalls req node created plans.reduceOption ++ portCalls req plans.reduceOption) := by
      intro hm
      rw [hnot c hm] at hc
      cases hc
    rw [he] at hpre hmem
    unfold before reconcileScript at hpre hmem
    dsimp only at hpre hmem
    split_ifs at hpre hmem with hearly
    · refine absurd ?_ hc'
      rcases List.mem_append.mp hmem with hm | hm
      · exact List.mem_append_left _ hm
      · exact List.mem_append_right _ (List.mem_append_left _ hm)
    · rw [← List.append_assoc] at hpre
      have hall := (isPrefix_of_concat hpre hc').subset
      intro x hx
      rcases List.mem_append.mp hx with hx | hx
      · rcases List.mem_append.mp (metadataWrites_subset hf plans.reduceOption hx) with hx | hx
        · exact hall (List.mem_append_left _ hx)
        · exact hall (List.mem_append_right _ (List.mem_append_left _ hx))
      · exact hall (List.mem_append_right _ (List.mem_append_right _ hx))

/-! Checks come before writes. -/

theorem notRead_reconcile {req : Request F} {node : Node F} {created : Bool}
    {pending : List Plan} :
    ∀ c ∈ (reconcileScript req node created pending).1, c.isRead = false := by
  have hprep : ∀ c ∈ prepareCalls req node created pending, c.isRead = false := by
    intro c hc
    rcases mem_prepareCalls hc with rfl | rfl | rfl <;> rfl
  intro c hc
  unfold reconcileScript at hc
  dsimp only at hc
  split_ifs at hc
  · exact hprep c hc
  · rcases List.mem_append.mp hc with hc | hc
    · rcases List.mem_append.mp hc with hc | hc
      · exact hprep c hc
      · obtain ⟨pc, rfl⟩ := mem_portCalls hc
        rfl
    · rcases mem_makeAvailable hc with ⟨_, rfl⟩ | ⟨_, rfl⟩ <;> rfl

/-- A run that ends in a failing read of a reused node has made reads only. -/
theorem reads_of_failed_read {req : Request F} {node : Node F} {calls : List (Call F)}
    {c : Call F} (hpre : calls ++ [c] <+: (script I req (some node)).1) (hc : c.isRead = true) :
    ∀ x ∈ calls ++ [c], x.isRead = true := by
  rcases script_cases I req (some node) with
    ⟨_, _, _, hreads⟩ | ⟨opening, found, created, ports, plans, hf, -, -, he⟩
  · exact fun x hx => hreads x (hpre.subset hx)
  · rw [he] at hpre
    have hnot : c ∉ (reconcileScript req found created plans.reduceOption).1 := by
      intro hm
      rw [notRead_reconcile c hm] at hc
      cases hc
    have hopen := concat_isPrefix_of_notMem hpre hnot
    intro x hx
    rcases hf.mem_opening (hopen.subset hx) with ⟨_, rfl⟩ | ⟨hnone, -⟩ | rfl
    · rfl
    · cases hnone
    · rfl

/-- `enroll` never exposes a half-reconciled node: ports change in `enroll` or `manageable`, the
node becomes available after all its writes, and a failing check has written nothing. -/
theorem enroll_never_exposes (I : Ironic lower) (outcome : ℕ → Outcome) (req : Request F)
    (s : Option (Node F)) :
    (∀ e ∈ (enroll (I.api outcome) lower req ⟨s, []⟩).2.log, e.call.isPort = true →
        stateOf e.before = some .enroll ∨ stateOf e.before = some .manageable) ∧
      (∀ pre e post, (enroll (I.api outcome) lower req ⟨s, []⟩).2.log = pre ++ e :: post →
        MovesToAvailable e → Reconciled lower req s pre) ∧
      ∀ err, (enroll (I.api outcome) lower req ⟨s, []⟩).1 = .error err →
        (∀ c, err = .failed c → c.isRead = true ∧ s ≠ none) →
        ∀ e ∈ (enroll (I.api outcome) lower req ⟨s, []⟩).2.log, e.call.isRead = true := by
  rw [enroll_eq]
  obtain ⟨es, r, hlog, ht, hres⟩ := (I.api outcome).follow_trace (script I req s) ⟨s, []⟩
  rw [List.nil_append] at hlog
  rw [hlog]
  refine ⟨ht.allowed (allowed_script req s), fun pre e post hes hm => ?_, fun err herr hcause => ?_⟩
  · have hcalls : pre.map Event.call ++ [e.call] <+: (script I req s).1 := by
      refine List.IsPrefix.trans ?_ ht.calls_isPrefix
      rw [hes]
      exact ⟨post.map Event.call, by simp⟩
    have hoffers := offers_of_moves (ht.effect (by simp [hes])) hm
    obtain ⟨ports, plans, hb, hp, hsub⟩ := writes_before_offer hcalls hoffers
    refine ⟨ports, plans, hb, hp, fun c hc => ?_⟩
    obtain ⟨x, hx, hxc⟩ := List.mem_map.mp (hsub hc)
    exact ⟨x, hx, hxc, ht.succeeded_before hes x hx⟩
  · have hcalls : ∀ x ∈ es.map Event.call, x.isRead = true := by
      rcases hres with ⟨-, hres⟩ | ⟨c, rfl, hres⟩
      · -- the script itself raised
        rcases script_cases I req s with ⟨_, _, _, hreads⟩ | ⟨_, _, _, _, _, hf, -, -, he⟩
        · exact fun x hx => hreads x (ht.calls_isPrefix.subset hx)
        · rw [hres, he] at herr
          cases (reconcileScript_ok req _ _ hf.reenrollable).symm.trans herr
      · -- a call failed
        obtain ⟨c', calls, hc', hes⟩ := ht.failed_last
        have hfailed : err = .failed c' := (Except.error.inj (hres.symm.trans herr)).symm.trans hc'
        obtain ⟨hread, hs⟩ := hcause c' hfailed
        have hpre := ht.calls_isPrefix
        rw [hes] at hpre ⊢
        cases s with
        | none => exact absurd rfl hs
        | some node => exact reads_of_failed_read hpre hread
    exact fun e he => hcalls _ (List.mem_map_of_mem he)

end

/-- The calls from the fourth on are refused. -/
def refuseFourth (n : ℕ) : Outcome := if n < 3 then .done else .refused

/-- A manageable node whose resource class changes and whose port create is refused: the patch
was sent, and no transition. -/
theorem enroll_fails_after_patch :
    ¬ ∀ (outcome : ℕ → Outcome) (req : Request Text) (s : Option (Node Text))
        (err : EnrollError Text),
      (enroll ((Ironic.prompt id).api outcome) id req ⟨s, []⟩).1 = .error err →
      (∀ e ∈ (enroll ((Ironic.prompt id).api outcome) id req ⟨s, []⟩).2.log,
        e.call.isTransition = false) →
      ∀ e ∈ (enroll ((Ironic.prompt id).api outcome) id req ⟨s, []⟩).2.log,
        e.call.isRead = true := by
  intro h
  have hraised : (enroll ((Ironic.prompt id).api refuseFourth) id (onePortRequest none)
      ⟨some bareNode, []⟩).1.isOk = false := by decide +kernel
  have hquiet : (enroll ((Ironic.prompt id).api refuseFourth) id (onePortRequest none)
      ⟨some bareNode, []⟩).2.log.all (fun e => !e.call.isTransition) = true := by decide +kernel
  have hwrite : (enroll ((Ironic.prompt id).api refuseFourth) id (onePortRequest none)
      ⟨some bareNode, []⟩).2.log.any (fun e => !e.call.isRead) = true := by decide +kernel
  obtain ⟨e, he, hw⟩ := List.any_eq_true.mp hwrite
  cases herr : (enroll ((Ironic.prompt id).api refuseFourth) id (onePortRequest none)
      ⟨some bareNode, []⟩).1 with
  | ok _ =>
    rw [herr] at hraised
    cases hraised
  | error err =>
    have hread := h refuseFourth (onePortRequest none) (some bareNode) err herr
      (fun e he => by simpa using List.all_eq_true.mp hquiet e he) e he
    rw [hread] at hw
    cases hw

end Understack.Workflows.Netdev
