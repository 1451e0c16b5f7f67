import Understack.Workflows.NetdevPortRuns
import Understack.Workflows.NetdevScript

/-! The shape of the script, and what its calls do to the node. -/
namespace Understack.Workflows.Netdev

open PyText Json Calls

variable {lower : Text → Text} {F : Type}

/-! A metadata patch leaves the provision state and the ports alone. -/

def Node.withState (node : Node F) (state : ProvisionState) : Node F :=
  { node with provisionState := state }

theorem Node.addOperation_withState (node : Node F) (state : ProvisionState) (path : List Text)
    (value : Value F) :
    (node.withState state).addOperation path value =
      (node.addOperation path value).map fun n => n.withState state := by
  unfold Node.addOperation
  cases path with
  | nil => rfl
  | cons field rest =>
    dsimp only
    split_ifs
    · rfl
    · rfl
    · simp [Node.withState, Option.map_map, Function.comp_def]
    · simp [Node.withState, Option.map_map, Function.comp_def]
    · rfl

theorem Node.patch_withState (node : Node F) (state : ProvisionState) (patch : Patch F) :
    (node.withState state).patch patch = (node.patch patch).map fun n => n.withState state := by
  induction patch generalizing node with
  | nil => rfl
  | cons op ops ih =>
    unfold Node.patch at ih ⊢
    rw [List.foldlM_cons, List.foldlM_cons]
    cases hp : pointer op.1 with
    | none => rfl
    | some path =>
      simp only [Option.bind_some, Node.addOperation_withState]
      cases ha : node.addOperation path op.2 with
      | none => rfl
      | some n => exact ih n

theorem Node.addOperation_same {node node' : Node F} {path : List Text} {value : Value F}
    (h : node.addOperation path value = some node') :
    node'.uuid = node.uuid ∧ node'.driver = node.driver ∧
      node'.provisionState = node.provisionState ∧ node'.ports = node.ports := by
  unfold Node.addOperation at h
  cases path with
  | nil => cases h
  | cons field rest =>
    dsimp only at h
    split_ifs at h
    · cases h
      exact ⟨rfl, rfl, rfl, rfl⟩
    · obtain ⟨ms, -, rfl⟩ := Option.map_eq_some_iff.mp h
      exact ⟨rfl, rfl, rfl, rfl⟩
    · obtain ⟨ms, -, rfl⟩ := Option.map_eq_some_iff.mp h
      exact ⟨rfl, rfl, rfl, rfl⟩

theorem Node.patch_same {node node' : Node F} {patch : Patch F}
    (h : node.patch patch = some node') :
    node'.uuid = node.uuid ∧ node'.driver = node.driver ∧
      node'.provisionState = node.provisionState ∧ node'.ports = node.ports := by
  induction patch generalizing node with
  | nil =>
    cases h
    exact ⟨rfl, rfl, rfl, rfl⟩
  | cons op ops ih =>
    unfold Node.patch at h ih
    rw [List.foldlM_cons] at h
    obtain ⟨n, hop, hrest⟩ := Option.bind_eq_some_iff.mp h
    obtain ⟨path, -, ha⟩ := Option.bind_eq_some_iff.mp hop
    obtain ⟨hu, hd, hs, hp⟩ := ih hrest
    obtain ⟨hu', hd', hs', hp'⟩ := Node.addOperation_same ha
    exact ⟨hu.trans hu', hd.trans hd', hs.trans hs', hp.trans hp'⟩

/-! The segments of the script. -/

def Node.withPorts (node : Node F) (ports : PortTable) : Node F :=
  { node with ports := ports }

section
variable (I : Ironic lower) (outcome : ℕ → Outcome)

theorem serveAll_transition (target : Target) (expected : ProvisionState) (node : Node F) :
    (I.api outcome).serveAll (transitionCalls target expected) (some node) =
      some (some (node.withState expected)) := rfl

theorem serveAll_stepDown (pending : List Plan) (node : Node F) :
    (I.api outcome).serveAll (stepDownCalls pending node.provisionState) (some node) =
      some (some (node.withState (steppedState pending node.provisionState))) := by
  unfold stepDownCalls steppedState
  split_ifs
  · exact serveAll_transition I outcome .manage .manageable node
  · rfl

theorem serveAll_portCalls (req : Request F) (pending : List Plan) (node : Node F) :
    (I.api outcome).serveAll (portCalls req pending) (some node) =
      some (some (node.withPorts
        (applyPlans I.toPortServer req.name req.physicalNetwork pending node.ports))) := by
  induction pending generalizing node with
  | nil => rfl
  | cons plan plans ih =>
    exact ih (node.withPorts (I.serve (applyPortPlan req.name req.physicalNetwork plan) node.ports))

theorem serveAll_makeAvailable (first node : Node F)
    (h : node.provisionState ∈ reenrollableStates) :
    (I.api outcome).serveAll (makeAvailableScript first node.provisionState).1 (some node) =
      some (some (node.withState .available)) := by
  obtain ⟨uuid, driver, state, resourceClass, driverInfo, extra, ports⟩ := node
  cases state with
  | available => rfl
  | enroll => rfl
  | manageable => rfl
  | other name => simp [reenrollableStates] at h

end

section
variable [FloatOps F] (I : Ironic lower) (outcome : ℕ → Outcome)

/-- The patch that `enroll` applies; a node it has created needs none. -/
def Request.ownPatch (req : Request F) (node : Node F) (created : Bool) : Patch F :=
  if created then [] else req.metadataPatch node

theorem serveAll_metadata (req : Request F) (node : Node F) (state : ProvisionState) :
    (I.api outcome).serveAll (metadataCalls req node) (some (node.withState state)) =
      (node.patch (req.metadataPatch node)).map fun n => some (n.withState state) := by
  unfold metadataCalls
  split_ifs with h
  · have hp : req.metadataPatch node = [] := by
      rw [Request.metadataPatch, h]
      rfl
    rw [hp]
    rfl
  · have hserve : (I.api outcome).serveAll [.updateNode (req.metadataPatch node)]
        (some (node.withState state)) =
        (((node.withState state).patch (req.metadataPatch node)).map some).bind some := rfl
    rw [hserve, Node.patch_withState]
    cases node.patch (req.metadataPatch node) <;> rfl

theorem serveAll_prepare (req : Request F) (node : Node F) (created : Bool)
    (pending : List Plan) :
    (I.api outcome).serveAll (prepareCalls req node created pending) (some node) =
      (node.patch (req.ownPatch node created)).map fun n =>
        some (n.withState (steppedState pending node.provisionState)) := by
  unfold prepareCalls Request.ownPatch
  rw [Api.serveAll_append, serveAll_stepDown, Option.bind_some]
  cases created with
  | true => rfl
  | false => exact serveAll_metadata I outcome req node _

theorem steppedState_reenrollable (pending : List Plan) {state : ProvisionState}
    (h : state ∈ reenrollableStates) : steppedState pending state ∈ reenrollableStates := by
  unfold steppedState
  split_ifs
  · simp [reenrollableStates]
  · exact h

/-- Where a script that runs to its end leaves the node. -/
theorem serveAll_reconcile (req : Request F) {node : Node F} (created : Bool)
    (pending : List Plan) (h : node.provisionState ∈ reenrollableStates) :
    (I.api outcome).serveAll (reconcileScript req node created pending).1 (some node) =
      (node.patch (req.ownPatch node created)).map fun n =>
        some ((n.withPorts (applyPlans I.toPortServer req.name req.physicalNetwork pending
          node.ports)).withState .available) := by
  unfold reconcileScript
  dsimp only
  split_ifs with hc
  · rw [serveAll_prepare]
    cases hp : node.patch (req.ownPatch node created) with
    | none => rfl
    | some n =>
      obtain ⟨-, -, -, hports⟩ := Node.patch_same hp
      simp only [Option.map_some, hc.2]
      rw [hc.1, ← hports]
      rfl
  · rw [Api.serveAll_append, Api.serveAll_append, serveAll_prepare]
    cases hp : node.patch (req.ownPatch node created) with
    | none => rfl
    | some n =>
      obtain ⟨-, -, -, hports⟩ := Node.patch_same hp
      have hstep := steppedState_reenrollable pending h
      simp only [Option.map_some, Option.bind_some, serveAll_portCalls]
      rw [← hports]
      exact serveAll_makeAvailable I outcome node _ hstep

end

/-! The shape of the script. -/

def Call.isRead : Call F → Bool
  | .getNode _ => true
  | .listPorts => true
  | _ => false

def initialPorts : Option (Node F) → List Port
  | none => []
  | some node => node.ports.1

section

/-- How `enroll` comes by its node: the calls, the node, and whether it was created. -/
inductive Found (I : Ironic lower) (req : Request F) :
    Option (Node F) → List (Call F) → Node F → Bool → Prop
  | created : Found I req none [.getNode req.name, .createNode req.nodeData, .listPorts]
      (I.newNode req.nodeData) true
  | reused (node : Node F) (hd : node.driver = "netdev".toList)
      (hs : node.provisionState ∈ reenrollableStates) :
      Found I req (some node) [.getNode req.name, .listPorts] node false

variable {I : Ironic lower} {req : Request F} {s : Option (Node F)} {opening : List (Call F)}
  {node : Node F} {created : Bool}

theorem Found.reenrollable (h : Found I req s opening node created) :
    node.provisionState ∈ reenrollableStates := by
  cases h with
  | created => simp [Ironic.newNode, reenrollableStates]
  | reused _ _ hs => exact hs

theorem Found.driver (h : Found I req s opening node created) :
    node.driver = "netdev".toList := by
  cases h with
  | created => rfl
  | reused _ hd _ => exact hd

theorem Found.mem_opening (h : Found I req s opening node created) {c : Call F}
    (hc : c ∈ opening) :
    (∃ name, c = .getNode name) ∨ (s = none ∧ c = .createNode req.nodeData) ∨ c = .listPorts := by
  cases h with
  | created =>
    simp only [List.mem_cons, List.not_mem_nil, or_false] at hc
    rcases hc with rfl | rfl | rfl
    · exact Or.inl ⟨_, rfl⟩
    · exact Or.inr (Or.inl ⟨rfl, rfl⟩)
    · exact Or.inr (Or.inr rfl)
  | reused _ _ _ =>
    simp only [List.mem_cons, List.not_mem_nil, or_false] at hc
    rcases hc with rfl | rfl
    · exact Or.inl ⟨_, rfl⟩
    · exact Or.inr (Or.inr rfl)

theorem Found.ports (h : Found I req s opening node created) : initialPorts s = node.ports.1 := by
  cases h <;> rfl

theorem Found.serveAll (h : Found I req s opening node created) (outcome : ℕ → Outcome) :
    (I.api outcome).serveAll opening s = some (some node) := by
  cases h <;> rfl

end

section
variable [FloatOps F] {node : Node F}

theorem reconcileScript_ok (req : Request F) (created : Bool) (pending : List Plan)
    (h : node.provisionState ∈ reenrollableStates) :
    (reconcileScript req node created pending).2 = .ok () := by
  have hstep := steppedState_reenrollable pending h
  unfold reconcileScript
  dsimp only
  split_ifs
  · rfl
  · generalize steppedState pending node.provisionState = state at hstep
    cases state with
    | other name => simp [reenrollableStates] at hstep
    | _ => rfl

theorem planPorts_nil (lower : Text → Text) (requested : List NetdevPort) (nodeName physicalNetwork : Text) :
    planPorts lower nodeName physicalNetwork [] requested =
      .ok (requested.map fun p => some (.create p)) := by
  induction requested with
  | nil => rfl
  | cons p ps ih => exact planPorts_cons_ok rfl ih

/-- The script ends in a check that fails after reads only, or it reconciles the node found. -/
theorem script_cases (I : Ironic lower) (req : Request F) (s : Option (Node F)) :
    (∃ err, (script I req s).2 = .error err ∧ (∀ c, err ≠ .failed c) ∧
        ∀ c ∈ (script I req s).1, c.isRead = true) ∨
      ∃ opening node created ports plans, Found I req s opening node created ∧
        buildNetdevPorts lower req.ports = .ok ports ∧
        planPorts lower req.name req.physicalNetwork (initialPorts s) ports = .ok plans ∧
        script I req s = before opening (reconcileScript req node created plans.reduceOption) := by
  unfold script
  cases buildNetdevPorts lower req.ports with
  | error e => exact Or.inl ⟨_, rfl, by simp, by simp⟩
  | ok ports =>
    cases s with
    | none =>
      have hp := planPorts_nil lower ports req.name req.physicalNetwork
      refine Or.inr ⟨_, _, _, ports, _, .created, rfl, hp, ?_⟩
      have hnew : (I.newNode req.nodeData : Node F).ports.1 = [] := rfl
      dsimp only
      unfold plannedScript
      rw [hnew, hp]
    | some node =>
      dsimp only
      split_ifs with hd hs
      · exact Or.inl ⟨_, rfl, by simp, by simp [Call.isRead]⟩
      · unfold plannedScript
        cases hp : planPorts lower req.name req.physicalNetwork node.ports.1 ports with
        | error e => exact Or.inl ⟨_, rfl, by simp, by simp [before, Call.isRead]⟩
        | ok plans => exact Or.inr ⟨_, _, _, ports, plans, .reused node (not_not.mp hd) hs, rfl, hp, rfl⟩
      · exact Or.inl ⟨_, rfl, by simp, by simp [Call.isRead]⟩

end

/-! A small request and a small node, for runs on concrete inputs. -/

def portEntry (label mac : Text) : Value Text :=
  .obj [("label".toList, .str label), ("mac".toList, .str mac), ("switch".toList, .str ['s']),
    ("intf".toList, .str ['i'])]

/-- One port, resource class `x` and at most one `driver_info` key. -/
def onePortRequest (driverInfo : Option (Text × Scalar)) : Request Text :=
  ⟨['n'], ['p'], [portEntry ['a'] ['m']], .null, some ['x'],
    ⟨driverInfo.toList, by cases driverInfo <;> simp⟩, ⟨[], by simp⟩⟩

/-- A manageable netdev node without ports, of resource class `y`. -/
def bareNode : Node Text :=
  ⟨['u'], "netdev".toList, .manageable, .str ['y'], [], [], ⟨[], by simp⟩⟩

end Understack.Workflows.Netdev
