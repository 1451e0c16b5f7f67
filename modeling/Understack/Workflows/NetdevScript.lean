import Understack.Workflows.NetdevReconciler
import Mathlib.Data.List.ReduceOption

/-! `enroll` decides everything from the state it finds: it follows a script, a list of calls
and the result after them, that is a function of the request and of the initial state. -/
namespace Understack.Workflows.Netdev

open PyText Json Calls

theorem splitOnce_isSome {c : Char} {s : Text} (h : c ∈ s) : (splitOnce c s).isSome = true := by
  induction s with
  | nil => cases h
  | cons x xs ih =>
    by_cases hx : x = c
    · simp [splitOnce, hx]
    · have hxs : c ∈ xs := (List.mem_cons.mp h).resolve_left (Ne.symm hx)
      simp [splitOnce, hx, ih hxs]

section
variable {F : Type} [FloatOps F]

def transitionCalls (target : Target) (expected : ProvisionState) : List (Call F) :=
  [.setProvisionState target, .waitForProvisionState expected]

def stepDownCalls (pending : List Plan) (state : ProvisionState) : List (Call F) :=
  if pending ≠ [] ∧ state = .available then transitionCalls .manage .manageable else []

def steppedState (pending : List Plan) (state : ProvisionState) : ProvisionState :=
  if pending ≠ [] ∧ state = .available then .manageable else state

def Request.updates (req : Request F) (node : Node F) : List Text :=
  metadataUpdates node req.effectiveResourceClass req.driverInfo req.nodeExtra

def Request.metadataPatch (req : Request F) (node : Node F) : Patch F :=
  (argsArrayToPatch (req.updates node)).getD []

def metadataCalls (req : Request F) (node : Node F) : List (Call F) :=
  if req.updates node = [] then [] else [.updateNode (req.metadataPatch node)]

def makeAvailableScript (node : Node F) :
    ProvisionState → List (Call F) × Except (EnrollError F) Unit
  | .available => ([], .ok ())
  | .enroll => (transitionCalls .manage .manageable ++ transitionCalls .provide .available, .ok ())
  | .manageable => (transitionCalls .provide .available, .ok ())
  | .other name => ([], .error (.cannotMakeAvailable node.uuid (.other name)))

/-- What comes before the port calls. -/
def prepareCalls (req : Request F) (node : Node F) (created : Bool) (pending : List Plan) :
    List (Call F) :=
  stepDownCalls pending node.provisionState ++ if created then [] else metadataCalls req node

def reconcileScript (req : Request F) (node : Node F) (created : Bool) (pending : List Plan) :
    List (Call F) × Except (EnrollError F) Unit :=
  let state := steppedState pending node.provisionState
  if pending = [] ∧ state = .available then (prepareCalls req node created pending, .ok ())
  else
    (prepareCalls req node created pending ++ portCalls req pending ++
      (makeAvailableScript node state).1, (makeAvailableScript node state).2)

variable (lower : Text → Text)

def plannedScript (req : Request F) (node : Node F) (created : Bool) (ports : List NetdevPort) :
    List (Call F) × Except (EnrollError F) Unit :=
  match planPorts lower req.name req.physicalNetwork node.ports.1 ports with
  | .error e => ([], .error (.plan e))
  | .ok plans => reconcileScript req node created plans.reduceOption

/-- `calls` before a script. -/
def before (calls : List (Call F)) (s : List (Call F) × Except (EnrollError F) Unit) :
    List (Call F) × Except (EnrollError F) Unit :=
  (calls ++ s.1, s.2)

variable {lower}

def script (I : Ironic lower) (req : Request F) (s : Option (Node F)) :
    List (Call F) × Except (EnrollError F) Unit :=
  match buildNetdevPorts lower req.ports with
  | .error e => ([], .error (.ports e))
  | .ok ports =>
    match s with
    | none =>
      before [.getNode req.name, .createNode req.nodeData, .listPorts]
        (plannedScript lower req (I.newNode req.nodeData) true ports)
    | some node =>
      if node.driver ≠ "netdev".toList then
        ([.getNode req.name], .error (.wrongDriver req.name node.uuid node.driver))
      else if node.provisionState ∉ reenrollableStates then
        ([.getNode req.name], .error (.cannotEnroll node.uuid node.provisionState))
      else before [.getNode req.name, .listPorts] (plannedScript lower req node false ports)

/-! Each part of `enroll` follows its part of the script. -/

theorem mem_updates (req : Request F) (node : Node F) {u : Text} (h : u ∈ req.updates node) :
    '=' ∈ u := by
  have hfield (field : Text) (stored : List (Text × Value F)) (wanted : Fields)
      (hu : u ∈ fieldUpdates field stored wanted) : '=' ∈ u := by
    obtain ⟨e, -, rfl⟩ := List.mem_map.mp hu
    simp
  unfold Request.updates metadataUpdates at h
  rcases List.mem_append.mp h with h | h
  · rcases List.mem_append.mp h with h | h
    · split at h
      · cases h
      · rw [List.mem_singleton.mp h]
        simp
    · exact hfield _ _ _ h
  · exact hfield _ _ _ h

theorem argsArrayToPatch_isSome {attributes : List Text} (h : ∀ u ∈ attributes, '=' ∈ u) :
    ∃ patch : Patch F, argsArrayToPatch attributes = some patch := by
  induction attributes with
  | nil => exact ⟨[], rfl⟩
  | cons u us ih =>
    obtain ⟨patch, hp⟩ := ih fun v hv => h v (List.mem_cons_of_mem u hv)
    have hu : '=' ∈ (if u.head? = some '/' then u else '/' :: u) := by
      split
      · exact h u List.mem_cons_self
      · exact List.mem_cons_of_mem _ (h u List.mem_cons_self)
    obtain ⟨p, hsplit⟩ := Option.isSome_iff_exists.mp (splitOnce_isSome hu)
    unfold argsArrayToPatch at hp ⊢
    rw [List.mapM_cons, attributeToOperation, hsplit, hp]
    exact ⟨_, rfl⟩

theorem argsArrayToPatch_updates (req : Request F) (node : Node F) :
    argsArrayToPatch (req.updates node) = some (req.metadataPatch node) := by
  obtain ⟨patch, hp⟩ := argsArrayToPatch_isSome (F := F) fun _ hu => mem_updates req node hu
  rw [Request.metadataPatch, hp]
  rfl

variable (A : Api (Option (Node F)) (Call F) (EnrollError F))

omit [FloatOps F] in
theorem transition_eq (target : Target) (expected : ProvisionState) :
    transition A target expected = A.callAll (transitionCalls target expected) := by
  simp [transition, transitionCalls]

omit [FloatOps F] in
theorem stepDown_eq (pending : List Plan) (state : ProvisionState) :
    stepDown A pending state =
      A.callAll (stepDownCalls pending state) >>= fun _ => pure (steppedState pending state) := by
  unfold stepDown stepDownCalls steppedState
  split_ifs with h
  · rw [transition_eq]
  · simp

theorem updateNodeMetadata_eq (req : Request F) (node : Node F) :
    updateNodeMetadata A node req.effectiveResourceClass req.driverInfo req.nodeExtra =
      A.callAll (metadataCalls req node) >>= fun _ => pure (decide (req.updates node ≠ [])) := by
  have hpatch := argsArrayToPatch_updates req node
  unfold updateNodeMetadata metadataCalls
  unfold Request.updates at hpatch ⊢
  by_cases h : metadataUpdates node req.effectiveResourceClass req.driverInfo req.nodeExtra = []
  · simp [h]
  · simp [h, hpatch]

omit [FloatOps F] in
theorem makeAvailable_eq (node : Node F) (state : ProvisionState) :
    makeAvailable A node state = A.follow (makeAvailableScript node state) := by
  cases state with
  | available => rfl
  | enroll =>
    simp only [makeAvailable, transition_eq, makeAvailableScript, Api.follow_ok,
      A.callAll_append]
  | manageable => simp only [makeAvailable, transition_eq, makeAvailableScript, Api.follow_ok]
  | other name => rfl

theorem applyPending_eq (req : Request F) (node : Node F) (created : Bool) (pending : List Plan) :
    applyPending A req node created pending =
      A.follow (reconcileScript req node created pending) := by
  have hprep : A.callAll (prepareCalls req node created pending) =
      (do
        A.callAll (stepDownCalls pending node.provisionState)
        A.callAll (if created then [] else metadataCalls req node)) := by
    rw [prepareCalls, A.callAll_append]
  unfold applyPending
  rw [stepDown_eq, updateNodeMetadata_eq]
  unfold reconcileScript
  dsimp only
  by_cases h : pending = [] ∧ steppedState pending node.provisionState = .available
  · rw [if_pos h, Api.follow_ok, hprep]
    simp only [bind_assoc, pure_bind, if_pos h]
    cases created <;> simp
  · rw [if_neg h, List.append_assoc, A.follow_append, A.follow_append, hprep]
    cases created <;> simp [h, makeAvailable_eq]

end

variable {lower : Text → Text} {F : Type} [FloatOps F]

omit [FloatOps F] in
theorem current_of_state {w : World (Option (Node F)) (Call F)} {s : Option (Node F)}
    (h : w.state = s) : (current : Client _ _ (EnrollError F) _) w = (.ok s, w) := by
  unfold current
  rw [h]

omit [FloatOps F] in
theorem readNode_of_state {w : World (Option (Node F)) (Call F)} {node : Node F}
    (h : w.state = some node) (c : Call F) : readNode c w = (.ok node, w) := by
  unfold readNode
  rw [bind_ok (current_of_state h)]
  rfl

theorem reconcile_eq (I : Ironic lower) (outcome : ℕ → Outcome) (req : Request F)
    (ports : List NetdevPort) {node : Node F} (created : Bool)
    {w : World (Option (Node F)) (Call F)} (hw : w.state = some node) :
    reconcile (I.api outcome) lower req ports node created w =
      (I.api outcome).follow (before [.listPorts] (plannedScript lower req node created ports)) w := by
  rw [before, (I.api outcome).follow_append]
  simp only [reconcile, listPorts, bind_assoc, pure_bind, Api.callAll_cons, Api.callAll_nil]
  refine (I.api outcome).call_bind_congr fun w' hw' => ?_
  have hstate : w'.state = some node := by
    rw [hw] at hw'
    exact (Option.some.inj hw').symm
  rw [bind_ok (readNode_of_state hstate _)]
  unfold plannedScript
  cases planPorts lower req.name req.physicalNetwork node.ports.1 ports with
  | error e => rfl
  | ok plans =>
    rw [← applyPending_eq]
    rfl

omit [FloatOps F] in
/-- What follows a `get_node` reads the state that was there before it. -/
theorem getNode_bind_congr (I : Ironic lower) (outcome : ℕ → Outcome) {name : Text}
    {w : World (Option (Node F)) (Call F)} {s : Option (Node F)} (hs : w.state = s)
    {f : Option (Node F) → Client (Option (Node F)) (Call F) (EnrollError F) Unit}
    {g : Client (Option (Node F)) (Call F) (EnrollError F) Unit}
    (h : ∀ w₁ : World (Option (Node F)) (Call F), w₁.state = s → f s w₁ = g w₁) :
    ((I.api outcome).call (.getNode name) >>= fun _ => current >>= f) w =
      ((I.api outcome).call (.getNode name) >>= fun _ => g) w := by
  refine (I.api outcome).call_bind_congr fun w₁ hw₁ => ?_
  have h₁ : w₁.state = s := by
    rw [hs] at hw₁
    cases s <;> exact (Option.some.inj hw₁).symm
  rw [bind_ok (current_of_state h₁)]
  exact h w₁ h₁

/-- `enroll` follows the script of the state it finds. -/
theorem enroll_eq (I : Ironic lower) (outcome : ℕ → Outcome) (req : Request F)
    (w : World (Option (Node F)) (Call F)) :
    enroll (I.api outcome) lower req w = (I.api outcome).follow (script I req w.state) w := by
  unfold enroll script
  cases buildNetdevPorts lower req.ports with
  | error e => rfl
  | ok ports =>
    show (findOrCreateNetdevNode (I.api outcome) req >>= _) w = _
    simp only [findOrCreateNetdevNode, bind_assoc]
    cases hs : w.state with
    | none =>
      rw [before, (I.api outcome).follow_append]
      simp only [Api.callAll_cons, Api.callAll_nil, bind_assoc, pure_bind]
      refine getNode_bind_congr I outcome hs fun w₁ h₁ => ?_
      simp only [createNetdevNode, bind_assoc, pure_bind]
      refine (I.api outcome).call_bind_congr fun w₂ hw₂ => ?_
      have h₂ : w₂.state = some (I.newNode req.nodeData) := by
        rw [h₁] at hw₂
        exact (Option.some.inj hw₂).symm
      rw [bind_ok (readNode_of_state h₂ _), reconcile_eq I outcome req ports true h₂, before,
        (I.api outcome).follow_append]
      simp only [Api.callAll_cons, Api.callAll_nil, bind_assoc, pure_bind]
    | some node =>
      dsimp only
      by_cases hd : node.driver ≠ "netdev".toList
      · rw [if_pos hd, Api.follow, Api.callAll_cons, Api.callAll_nil, bind_assoc]
        refine getNode_bind_congr I outcome hs fun w₁ _ => ?_
        dsimp only
        rw [if_pos hd]
        rfl
      · rw [if_neg hd]
        by_cases hp : node.provisionState ∉ reenrollableStates
        · rw [if_pos hp, Api.follow, Api.callAll_cons, Api.callAll_nil, bind_assoc]
          refine getNode_bind_congr I outcome hs fun w₁ _ => ?_
          dsimp only
          rw [if_neg hd, if_pos hp]
          rfl
        · rw [if_neg hp, before, (I.api outcome).follow_append]
          simp only [Api.callAll_cons, Api.callAll_nil, bind_assoc, pure_bind]
          refine getNode_bind_congr I outcome hs fun w₁ h₁ => ?_
          dsimp only
          rw [if_neg hd, if_neg hp, pure_bind, reconcile_eq I outcome req ports false h₁, before,
            (I.api outcome).follow_append]
          simp only [Api.callAll_cons, Api.callAll_nil, bind_assoc, pure_bind]

end Understack.Workflows.Netdev
