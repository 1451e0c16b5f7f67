import Understack.Lib.TopoOrder
import Mathlib.Data.List.Sort
import Mathlib.Data.List.Count
import Mathlib.Tactic.Linarith

/-! Kahn's algorithm of `internal/controller/dag.go`. Names are any linearly ordered type;
in the source they are strings with the byte order of `sort.Strings`. -/
namespace Understack.Nautobotop.Dag
open TopoOrder Relation

variable {α : Type*} [LinearOrder α]

structure ResourceNode (α : Type*) where
  name : α
  dependsOn : List α
  deriving DecidableEq, Repr

inductive SortError (α : Type*) where
  | duplicateName (name : α)
  | missingDependency (node dep : α)
  | cycle (nodes : List α)
  deriving DecidableEq, Repr

def sortStrings (xs : List α) : List α := xs.insertionSort (· ≤ ·)

/-- The loop that fills `nodeSet`, up to the first name already in it. -/
def duplicateName (nodeSet : List α) : List (ResourceNode α) → Option α
  | [] => none
  | node :: nodes =>
    if node.name ∈ nodeSet then some node.name else duplicateName (node.name :: nodeSet) nodes

/-- The first dependency, in input order, that names no node. -/
def missingDependency (names : List α) (nodes : List (ResourceNode α)) : Option (α × α) :=
  nodes.findSome? fun node =>
    (node.dependsOn.find? fun dep => dep ∉ names).map fun dep => (node.name, dep)

def inDegrees (nodes : List (ResourceNode α)) : α → ℤ :=
  nodes.foldl (fun inDegree node => Function.update inDegree node.name node.dependsOn.length)
    fun _ => 0

def addDependents (dependents : α → List α) (node : ResourceNode α) : α → List α :=
  node.dependsOn.foldl
    (fun dependents dep => Function.update dependents dep (dependents dep ++ [node.name]))
    dependents

def dependentsOf (nodes : List (ResourceNode α)) : α → List α :=
  nodes.foldl addDependents fun _ => []

/-- The body of the loop over the children: decrement, and enqueue at zero. -/
def relax (st : (α → ℤ) × List α) (child : α) : (α → ℤ) × List α :=
  let inDegree := Function.update st.1 child (st.1 child - 1)
  if inDegree child = 0 then (inDegree, st.2 ++ [child]) else (inDegree, st.2)

/-- The main loop, for at most `fuel` turns. `none` means that the queue was not yet empty. -/
def kahnLoop (dependents : α → List α) :
    ℕ → (α → ℤ) → List α → List α → Option ((α → ℤ) × List α)
  | _, inDegree, [], result => some (inDegree, result)
  | 0, _, _ :: _, _ => none
  | fuel + 1, inDegree, current :: queue, result =>
    let st := (sortStrings (dependents current)).foldl relax (inDegree, queue)
    kahnLoop dependents fuel st.1 (sortStrings st.2) (result ++ [current])

def topologicalSort (fuel : ℕ) (nodes : List (ResourceNode α)) :
    Option (Except (SortError α) (List α)) :=
  let names := nodes.map ResourceNode.name
  if nodes = [] then some (.ok [])
  else
    match duplicateName [] nodes with
    | some name => some (.error (.duplicateName name))
    | none =>
      match missingDependency names nodes with
      | some (node, dep) => some (.error (.missingDependency node dep))
      | none =>
        let inDegree := inDegrees nodes
        let queue := sortStrings (names.filter fun name => inDegree name = 0)
        (kahnLoop (dependentsOf nodes) fuel inDegree queue []).map fun (inDegree, result) =>
          if result.length ≠ nodes.length then
            .error (.cycle (sortStrings (names.filter fun name => inDegree name > 0)))
          else .ok result

/-! What the input describes. -/

section Input
variable {α : Type*}

/-- `a` lists `b` among its dependencies. -/
def DependsOn (nodes : List (ResourceNode α)) (a b : α) : Prop :=
  ∃ node ∈ nodes, node.name = a ∧ b ∈ node.dependsOn

def Duplicated (nodes : List (ResourceNode α)) : Prop := ¬ (nodes.map ResourceNode.name).Nodup

def Missing (nodes : List (ResourceNode α)) : Prop :=
  ∃ node ∈ nodes, ∃ dep ∈ node.dependsOn, dep ∉ nodes.map ResourceNode.name

def Cyclic (nodes : List (ResourceNode α)) : Prop := ∃ a, TransGen (DependsOn nodes) a a

/-- A permutation of the names in which every dependency precedes its dependents. -/
def IsTopological (nodes : List (ResourceNode α)) (order : List α) : Prop :=
  order.Perm (nodes.map ResourceNode.name) ∧ ∀ a b, DependsOn nodes a b → Precedes order b a

abbrev nameSet (nodes : List (ResourceNode α)) : Set α :=
  {a | a ∈ nodes.map ResourceNode.name}

/-- The same nodes in another order, each with its dependencies in another order. -/
def Reordered (nodes nodes' : List (ResourceNode α)) : Prop :=
  ∃ shuffled, shuffled.Perm nodes ∧ List.Forall₂
    (fun a b => a.name = b.name ∧ a.dependsOn.Perm b.dependsOn) shuffled nodes'

theorem dependsOn_name {nodes : List (ResourceNode α)} (hn : (nodes.map ResourceNode.name).Nodup)
    {node : ResourceNode α} (hm : node ∈ nodes) {b : α} :
    DependsOn nodes node.name b ↔ b ∈ node.dependsOn := by
  constructor
  · rintro ⟨x, hx, hname, hb⟩
    rwa [← List.inj_on_of_nodup_map hn hx hm hname]
  · exact fun hb => ⟨node, hm, rfl, hb⟩

theorem dependsOn_cons {node : ResourceNode α} {nodes : List (ResourceNode α)} {a b : α} :
    DependsOn (node :: nodes) a b ↔
      (node.name = a ∧ b ∈ node.dependsOn) ∨ DependsOn nodes a b := by
  simp [DependsOn]

theorem forall₂_same {nodes nodes' : List (ResourceNode α)}
    (h : List.Forall₂ (fun a b => a.name = b.name ∧ a.dependsOn.Perm b.dependsOn) nodes nodes') :
    nodes.map ResourceNode.name = nodes'.map ResourceNode.name ∧
      ∀ a b, DependsOn nodes a b ↔ DependsOn nodes' a b := by
  induction h with
  | nil => simp
  | cons hab _ ih =>
    refine ⟨by rw [List.map_cons, List.map_cons, hab.1, ih.1], fun a b => ?_⟩
    rw [dependsOn_cons, dependsOn_cons, hab.1, hab.2.mem_iff, ih.2]

theorem Reordered.isTopological {nodes nodes' : List (ResourceNode α)}
    (h : Reordered nodes nodes') (order : List α) :
    IsTopological nodes' order ↔ IsTopological nodes order := by
  obtain ⟨shuffled, hperm, hall⟩ := h
  obtain ⟨hnames, hdep⟩ := forall₂_same hall
  have hnames' := hperm.map ResourceNode.name
  rw [hnames] at hnames'
  have hdep' (a b : α) : DependsOn nodes' a b ↔ DependsOn nodes a b := by
    rw [← hdep]
    exact exists_congr fun node => by rw [hperm.mem_iff]
  refine and_congr ⟨fun h => h.trans hnames', fun h => h.trans hnames'.symm⟩ ?_
  exact forall_congr' fun a => forall_congr' fun b => by rw [hdep']

theorem isTopological_iff_readyOrder {nodes : List (ResourceNode α)}
    (hn : (nodes.map ResourceNode.name).Nodup) {order : List α}
    (hperm : order.Perm (nodes.map ResourceNode.name)) :
    IsTopological nodes order ↔ ReadyOrder (nameSet nodes) (DependsOn nodes) ∅ order := by
  constructor
  · intro h
    exact readyOrder_of_precedes (hperm.nodup_iff.mpr hn) (fun x hx => hperm.mem_iff.mp hx)
      fun x _ y hxy => h.2 x y hxy
  · refine fun h => ⟨hperm, fun a b hab => ?_⟩
    obtain ⟨node, hm, rfl, -⟩ := id hab
    exact (h.precedes (hperm.mem_iff.mpr (List.mem_map_of_mem hm)) hab).resolve_left (by simp)

end Input

/-! Specifications of the checks and of the two maps. -/

theorem duplicateName_eq_none {nodeSet : List α} {nodes : List (ResourceNode α)} :
    duplicateName nodeSet nodes = none ↔
      (nodes.map ResourceNode.name).Nodup ∧ ∀ n ∈ nodes.map ResourceNode.name, n ∉ nodeSet := by
  induction nodes generalizing nodeSet with
  | nil => simp [duplicateName]
  | cons node nodes ih =>
    by_cases h : node.name ∈ nodeSet
    · simp only [duplicateName, h, if_true, reduceCtorEq, false_iff]
      exact fun hs => hs.2 node.name (by simp) h
    · simp only [duplicateName, h, if_false, ih, List.map_cons, List.nodup_cons, List.mem_cons,
        forall_eq_or_imp, not_or]
      constructor
      · rintro ⟨hn, hs⟩
        exact ⟨⟨fun hm => (hs _ hm).1 rfl, hn⟩, not_false, fun n hm => (hs n hm).2⟩
      · rintro ⟨⟨hm, hn⟩, -, hs⟩
        exact ⟨hn, fun n hmem => ⟨fun he => hm (he ▸ hmem), hs n hmem⟩⟩

theorem missingDependency_eq_none {names : List α} {nodes : List (ResourceNode α)} :
    missingDependency names nodes = none ↔ ∀ node ∈ nodes, ∀ dep ∈ node.dependsOn, dep ∈ names := by
  simp [missingDependency, List.findSome?_eq_none_iff]

theorem inDegrees_apply {nodes : List (ResourceNode α)}
    (hn : (nodes.map ResourceNode.name).Nodup) {node : ResourceNode α} (hm : node ∈ nodes) :
    inDegrees nodes node.name = node.dependsOn.length := by
  -- the last write to a name is its only one
  have key (nodes : List (ResourceNode α)) (hn : (nodes.map ResourceNode.name).Nodup)
      (m : α → ℤ) (a : α) (d : ℤ)
      (h : (∃ node ∈ nodes, node.name = a ∧ (node.dependsOn.length : ℤ) = d) ∨
        (a ∉ nodes.map ResourceNode.name ∧ m a = d)) :
      nodes.foldl (fun inDegree node => Function.update inDegree node.name
        (node.dependsOn.length : ℤ)) m a = d := by
    induction nodes generalizing m with
    | nil => simpa using h
    | cons node nodes ih =>
      obtain ⟨hnot, hn'⟩ := List.nodup_cons.mp hn
      apply ih hn'
      rcases h with ⟨x, hx, hxa, hxd⟩ | ⟨ha, hd⟩
      · rcases List.mem_cons.mp hx with rfl | hx
        · exact Or.inr ⟨hxa ▸ hnot, by simp [← hxa, hxd]⟩
        · exact Or.inl ⟨x, hx, hxa, hxd⟩
      · simp only [List.map_cons, List.mem_cons, not_or] at ha
        exact Or.inr ⟨ha.2, by simp [Function.update_of_ne ha.1, hd]⟩
  exact key nodes hn _ _ _ (Or.inl ⟨node, hm, rfl, rfl⟩)

/-- A name occurs among the dependents of `dep` as often as its node lists `dep`. -/
theorem count_addDependents (dependents : α → List α) (node : ResourceNode α) (dep a : α) :
    (addDependents dependents node dep).count a =
      (dependents dep).count a + if node.name = a then node.dependsOn.count dep else 0 := by
  unfold addDependents
  induction node.dependsOn generalizing dependents with
  | nil => simp
  | cons d ds ih =>
    rw [List.foldl_cons, ih]
    by_cases hd : d = dep
    · subst hd
      rw [Function.update_self, List.count_append, List.count_cons_self]
      by_cases ha : node.name = a
      · simp [ha]
        omega
      · simp [ha]
    · rw [Function.update_of_ne (Ne.symm hd), List.count_cons_of_ne hd]

theorem count_dependentsOf (nodes : List (ResourceNode α)) (dep a : α) :
    (dependentsOf nodes dep).count a =
      (nodes.map fun node => if node.name = a then node.dependsOn.count dep else 0).sum := by
  have key (nodes : List (ResourceNode α)) (m : α → List α) :
      ((nodes.foldl addDependents m) dep).count a = (m dep).count a +
        (nodes.map fun node => if node.name = a then node.dependsOn.count dep else 0).sum := by
    induction nodes generalizing m with
    | nil => simp
    | cons node nodes ih =>
      rw [List.foldl_cons, ih, count_addDependents, List.map_cons, List.sum_cons, add_assoc]
  simpa [dependentsOf] using key nodes fun _ => []

/-- With unique names the dependents of `dep` count its occurrences in one node. -/
theorem count_dependentsOf_name {nodes : List (ResourceNode α)}
    (hn : (nodes.map ResourceNode.name).Nodup) {node : ResourceNode α} (hm : node ∈ nodes)
    (dep : α) : (dependentsOf nodes dep).count node.name = node.dependsOn.count dep := by
  rw [count_dependentsOf]
  induction nodes with
  | nil => simp at hm
  | cons x nodes ih =>
    obtain ⟨hx, hn'⟩ := List.nodup_cons.mp hn
    rw [List.map_cons, List.sum_cons]
    rcases List.mem_cons.mp hm with rfl | hm
    · have hzero : (nodes.map fun n => if n.name = node.name then n.dependsOn.count dep else 0).sum
          = 0 := by
        apply List.sum_eq_zero
        intro c hc
        obtain ⟨n, hmem, rfl⟩ := List.mem_map.mp hc
        exact if_neg fun he : n.name = node.name => hx (he ▸ List.mem_map_of_mem hmem)
      rw [if_pos rfl, hzero, add_zero]
    · have hne : x.name ≠ node.name := fun he => hx (he ▸ List.mem_map_of_mem hm)
      rw [if_neg hne, ih hn' hm, zero_add]

theorem mem_dependentsOf {nodes : List (ResourceNode α)} {dep a : α} :
    a ∈ dependentsOf nodes dep ↔ DependsOn nodes a dep := by
  rw [← List.count_pos_iff, count_dependentsOf, Nat.pos_iff_ne_zero, ne_eq,
    List.sum_eq_zero_iff_forall_eq_nat, List.forall_mem_map, not_forall]
  constructor
  · rintro ⟨node, hc⟩
    obtain ⟨hm, hc⟩ := Classical.not_imp.mp hc
    obtain ⟨hname, hc⟩ := Classical.not_imp.mp (mt ite_eq_right_iff.mpr hc)
    exact ⟨node, hm, hname, List.count_pos_iff.mp (Nat.pos_of_ne_zero hc)⟩
  · rintro ⟨node, hm, hname, hd⟩
    refine ⟨node, fun hc => ?_⟩
    have := hc hm
    rw [if_pos hname, List.count_eq_zero] at this
    exact this hd

theorem mem_sortStrings {xs : List α} {a : α} : a ∈ sortStrings xs ↔ a ∈ xs :=
  List.mem_insertionSort _

theorem sortStrings_perm (xs : List α) : (sortStrings xs).Perm xs := List.perm_insertionSort _ xs

/-- The effect of the loop over the children, repeated ones included: each degree falls by
the number of occurrences, and a child is enqueued once, when its degree reaches zero. -/
theorem foldl_relax {children : List α} {inDegree : α → ℤ}
    (h : ∀ a ∈ children, (children.count a : ℤ) ≤ inDegree a) (queue : List α) :
    ∃ inDegree' pushed, children.foldl relax (inDegree, queue) = (inDegree', queue ++ pushed) ∧
      (∀ a, inDegree' a = inDegree a - children.count a) ∧ pushed.Nodup ∧
      ∀ a, a ∈ pushed ↔ a ∈ children ∧ inDegree' a = 0 := by
  induction children generalizing inDegree queue with
  | nil => exact ⟨inDegree, [], by simp, by simp, List.nodup_nil, by simp⟩
  | cons c children ih =>
    have hc := h c (by simp)
    rw [List.count_cons_self] at hc
    obtain ⟨next, hnext⟩ : ∃ next, next = Function.update inDegree c (inDegree c - 1) := ⟨_, rfl⟩
    have hnc : next c = inDegree c - 1 := by rw [hnext, Function.update_self]
    have hna {a : α} (ha : a ≠ c) : next a = inDegree a := by rw [hnext, Function.update_of_ne ha]
    have hle : ∀ a ∈ children, (children.count a : ℤ) ≤ next a := by
      intro a ha
      by_cases hac : a = c
      · subst hac
        push_cast at hc
        omega
      · have := h a (by simp [ha])
        rwa [List.count_cons_of_ne (Ne.symm hac), ← hna hac] at this
    have hdegree {d : ℤ} {a : α} (hd : d = next a - children.count a) :
        d = inDegree a - (c :: children).count a := by
      by_cases hac : a = c
      · subst hac
        rw [List.count_cons_self]
        push_cast
        omega
      · rw [List.count_cons_of_ne (Ne.symm hac), ← hna hac, hd]
    by_cases hzero : next c = 0
    · have hnot : c ∉ children := fun hm => by
        have := hle c hm
        have := List.count_pos_iff.mpr hm
        omega
      obtain ⟨inDegree', pushed, hfold, hdeg, hnd, hmem⟩ := ih hle (queue ++ [c])
      refine ⟨inDegree', c :: pushed, ?_, fun a => hdegree (hdeg a), ?_, fun a => ?_⟩
      · rw [List.foldl_cons, relax, ← hnext, if_pos hzero, hfold]
        simp
      · exact List.nodup_cons.mpr ⟨fun hm => hnot ((hmem c).mp hm).1, hnd⟩
      · have hc0 : inDegree' c = 0 := by
          rw [hdeg c, hzero, List.count_eq_zero_of_not_mem hnot]
          rfl
        simp only [List.mem_cons, hmem a]
        constructor
        · rintro (rfl | ⟨ha, h0⟩)
          · exact ⟨Or.inl rfl, hc0⟩
          · exact ⟨Or.inr ha, h0⟩
        · rintro ⟨rfl | ha, h0⟩
          · exact Or.inl rfl
          · exact Or.inr ⟨ha, h0⟩
    · obtain ⟨inDegree', pushed, hfold, hdeg, hnd, hmem⟩ := ih hle queue
      refine ⟨inDegree', pushed, ?_, fun a => hdegree (hdeg a), hnd, fun a => ?_⟩
      · rw [List.foldl_cons, relax, ← hnext, if_neg hzero, hfold]
      · rw [hmem a, List.mem_cons]
        constructor
        · rintro ⟨ha, h0⟩
          exact ⟨Or.inr ha, h0⟩
        · rintro ⟨rfl | ha, h0⟩
          · -- the head cannot reach zero later unless it occurs again
            refine ⟨Classical.byContradiction fun hnot => hzero ?_, h0⟩
            have := hdeg a
            rw [List.count_eq_zero_of_not_mem hnot] at this
            omega
          · exact ⟨ha, h0⟩

/-! The loop invariant. -/

/-- The degrees count the unplaced dependencies with repetition, the queue holds exactly the
ready names, and the result takes the least ready name at every turn. -/
structure LoopInv (nodes : List (ResourceNode α)) (inDegree : α → ℤ) (queue result : List α) :
    Prop where
  degrees : ∀ node ∈ nodes, inDegree node.name = (node.dependsOn.filter (· ∉ result)).length
  queued : ∀ a, a ∈ queue ↔ Ready (nameSet nodes) (DependsOn nodes) {z | z ∈ result} a
  nodup : queue.Nodup
  sorted : queue.Pairwise (· ≤ ·)
  least : LeastOrder (nameSet nodes) (DependsOn nodes) ∅ result

theorem length_filter_notMem_concat {xs result : List α} {c : α} (hc : c ∉ result) :
    (xs.filter (· ∉ result)).length = (xs.filter (· ∉ result ++ [c])).length + xs.count c := by
  induction xs with
  | nil => rfl
  | cons x xs ih =>
    by_cases hx : x = c
    · subst hx
      simp [hc] at ih ⊢
      omega
    · by_cases hr : x ∈ result <;> simp [hx, hr] at ih ⊢ <;> omega

theorem filter_notMem_length_eq_zero {xs result : List α} :
    ((xs.filter (· ∉ result)).length : ℤ) = 0 ↔ ∀ x ∈ xs, x ∈ result := by
  simp [List.filter_eq_nil_iff]

section Loop
variable {nodes : List (ResourceNode α)} {inDegree : α → ℤ} {queue result : List α}

theorem LoopInv.result_closed (h : LoopInv nodes inDegree queue result) {a b : α}
    (ha : a ∈ result) (hd : DependsOn nodes a b) : b ∈ result := by
  obtain ⟨l, r, hlr, hb⟩ := (h.least.readyOrder.precedes ha hd).resolve_left (by simp)
  simp [hlr, hb]

theorem LoopInv.result_le (h : LoopInv nodes inDegree queue result) :
    result.length ≤ nodes.length := by
  have hsub : result.Subperm (nodes.map ResourceNode.name) :=
    h.least.readyOrder.nodup.subperm fun a ha => (h.least.readyOrder.mem ha).1
  simpa using hsub.length_le

/-- Relaxing the children of the head keeps the degrees exact, and enqueues those whose last
missing dependency was the head. -/
theorem LoopInv.relax_children {current : α} (hn : (nodes.map ResourceNode.name).Nodup)
    (h : LoopInv nodes inDegree (current :: queue) result) :
    ∃ inDegree' pushed, (sortStrings (dependentsOf nodes current)).foldl relax (inDegree, queue) =
        (inDegree', queue ++ pushed) ∧
      (∀ node ∈ nodes,
        inDegree' node.name = (node.dependsOn.filter (· ∉ result ++ [current])).length) ∧
      pushed.Nodup ∧ ∀ a, a ∈ pushed ↔ DependsOn nodes a current ∧
        ∀ b, DependsOn nodes a b → b ∈ result ++ [current] := by
  obtain ⟨-, hcr, -⟩ := (h.queued current).mp (by simp)
  have hcount {node : ResourceNode α} (hm : node ∈ nodes) :
      (sortStrings (dependentsOf nodes current)).count node.name = node.dependsOn.count current :=
    ((sortStrings_perm _).count_eq _).trans (count_dependentsOf_name hn hm current)
  have hchild (a : α) : a ∈ sortStrings (dependentsOf nodes current) ↔
      DependsOn nodes a current := mem_sortStrings.trans mem_dependentsOf
  have hle : ∀ a ∈ sortStrings (dependentsOf nodes current),
      ((sortStrings (dependentsOf nodes current)).count a : ℤ) ≤ inDegree a := by
    intro a ha
    obtain ⟨node, hm, rfl, -⟩ := (hchild a).mp ha
    rw [hcount hm, h.degrees node hm, length_filter_notMem_concat hcr]
    omega
  obtain ⟨inDegree', pushed, hfold, hdeg, hnodup, hmem⟩ := foldl_relax hle queue
  have hdeg' : ∀ node ∈ nodes,
      inDegree' node.name = (node.dependsOn.filter (· ∉ result ++ [current])).length := by
    intro node hm
    rw [hdeg, hcount hm, h.degrees node hm, length_filter_notMem_concat hcr]
    omega
  refine ⟨inDegree', pushed, hfold, hdeg', hnodup, fun a => ?_⟩
  rw [hmem, hchild]
  refine and_congr_right fun hd => ?_
  obtain ⟨node, hm, rfl, -⟩ := hd
  rw [hdeg' node hm, filter_notMem_length_eq_zero]
  exact forall_congr' fun b => by rw [dependsOn_name hn hm]

/-- One turn of the loop: the head of the queue is placed and its children are relaxed. -/
theorem LoopInv.step {current : α} (hn : (nodes.map ResourceNode.name).Nodup)
    (h : LoopInv nodes inDegree (current :: queue) result) :
    ∃ st, (sortStrings (dependentsOf nodes current)).foldl relax (inDegree, queue) = st ∧
      LoopInv nodes st.1 (sortStrings st.2) (result ++ [current]) := by
  obtain ⟨hcn, hcr, hcd⟩ := (h.queued current).mp (by simp)
  obtain ⟨inDegree', pushed, hfold, hdeg, hpush, hmem⟩ := h.relax_children hn
  -- a child of `current` was not ready before: `current` itself was missing
  have hnew {a : α} (ha : a ∈ pushed) : a ∉ result ∧ a ≠ current ∧ a ∉ queue := by
    have hd := ((hmem a).mp ha).1
    refine ⟨fun hr => hcr (h.result_closed hr hd), ?_, fun hq => ?_⟩
    · rintro rfl
      exact hcr (hcd a hd)
    · exact hcr (((h.queued a).mp (by simp [hq])).2.2 current hd)
  refine ⟨_, hfold, hdeg, fun a => ?_, ?_, List.pairwise_insertionSort _ _, ?_⟩
  · rw [mem_sortStrings, List.mem_append]
    constructor
    · rintro (hq | hp)
      · obtain ⟨h1, h2, h3⟩ := (h.queued a).mp (by simp [hq])
        have hne : a ≠ current := by
          rintro rfl
          exact (List.nodup_cons.mp h.nodup).1 hq
        exact ⟨h1, by simpa [hne] using h2, fun b hb => List.mem_append_left _ (h3 b hb)⟩
      · obtain ⟨hd, hall⟩ := (hmem a).mp hp
        obtain ⟨hr, hne, -⟩ := hnew hp
        obtain ⟨node, hm, rfl, -⟩ := hd
        exact ⟨List.mem_map_of_mem hm, by simpa [hne] using hr, hall⟩
    · rintro ⟨h1, h2, h3⟩
      have hr : a ∉ result ∧ a ≠ current := by simpa using h2
      by_cases hd : DependsOn nodes a current
      · exact Or.inr ((hmem a).mpr ⟨hd, h3⟩)
      · have hready : a ∈ current :: queue := by
          refine (h.queued a).mpr ⟨h1, hr.1, fun b hb => ?_⟩
          rcases List.mem_append.mp (h3 b hb) with hb' | hb'
          · exact hb'
          · exact absurd (List.mem_singleton.mp hb' ▸ hb) hd
        exact Or.inl ((List.mem_cons.mp hready).resolve_left hr.2)
  · refine (sortStrings_perm _).nodup_iff.mpr (List.nodup_append.mpr
      ⟨(List.nodup_cons.mp h.nodup).2, hpush, fun a hq b hp hab => ?_⟩)
    exact (hnew hp).2.2 (hab ▸ hq)
  · apply h.least.concat
    · rw [Set.empty_union]
      exact ⟨hcn, hcr, hcd⟩
    · intro y hy
      rw [Set.empty_union] at hy
      rcases List.mem_cons.mp ((h.queued y).mpr hy) with rfl | hq
      · exact le_refl _
      · exact (List.pairwise_cons.mp h.sorted).1 y hq

/-- The loop ends within as many turns as names are left, with an empty queue. -/
theorem LoopInv.run (hn : (nodes.map ResourceNode.name).Nodup) {fuel : ℕ}
    (h : LoopInv nodes inDegree queue result) (hf : nodes.length ≤ fuel + result.length) :
    ∃ inDegree' result', kahnLoop (dependentsOf nodes) fuel inDegree queue result =
      some (inDegree', result') ∧ LoopInv nodes inDegree' [] result' := by
  induction fuel generalizing inDegree queue result with
  | zero =>
    cases queue with
    | nil => exact ⟨inDegree, result, rfl, h⟩
    | cons current queue =>
      obtain ⟨st, -, h'⟩ := h.step hn
      have := h'.result_le
      simp only [List.length_append, List.length_singleton] at this
      omega
  | succ fuel ih =>
    cases queue with
    | nil => exact ⟨inDegree, result, rfl, h⟩
    | cons current queue =>
      obtain ⟨st, hst, h'⟩ := h.step hn
      simp only [kahnLoop, hst]
      exact ih h' (by simp only [List.length_append, List.length_singleton]; omega)

end Loop

theorem loopInv_init {nodes : List (ResourceNode α)} (hn : (nodes.map ResourceNode.name).Nodup) :
    LoopInv nodes (inDegrees nodes) (sortStrings ((nodes.map ResourceNode.name).filter
      fun name => inDegrees nodes name = 0)) [] := by
  refine ⟨fun node hm => by simp [inDegrees_apply hn hm], fun a => ?_, ?_,
    List.pairwise_insertionSort _ _, trivial⟩
  · rw [mem_sortStrings, List.mem_filter, decide_eq_true_eq]
    refine and_congr_right fun ha => ?_
    obtain ⟨node, hm, rfl⟩ := List.mem_map.mp ha
    rw [inDegrees_apply hn hm]
    simp [dependsOn_name hn hm, List.eq_nil_iff_forall_not_mem]
  · exact (sortStrings_perm _).nodup_iff.mpr (hn.filter _)

/-! The whole function. -/

/-- An empty queue with names left over means a cycle among these. -/
theorem LoopInv.cyclic {nodes : List (ResourceNode α)} {inDegree : α → ℤ} {result : List α}
    (h : LoopInv nodes inDegree [] result) (hmiss : ¬ Missing nodes)
    {a : α} (ha : a ∈ nodes.map ResourceNode.name) (har : a ∉ result) : Cyclic nodes := by
  apply exists_cycle (s := {x | x ∈ nodes.map ResourceNode.name ∧ x ∉ result})
  · exact (List.finite_toSet (nodes.map ResourceNode.name)).subset fun x hx => hx.1
  · exact ⟨a, ha, har⟩
  · rintro x ⟨hx, hxr⟩
    have hnot : ¬ Ready (nameSet nodes) (DependsOn nodes) {z | z ∈ result} x :=
      fun hr => by simpa using (h.queued x).mpr hr
    have hdep : ∃ y, DependsOn nodes x y ∧ y ∉ result := by
      by_contra hall
      exact hnot ⟨hx, hxr, fun y hy => Classical.byContradiction fun hy' => hall ⟨y, hy, hy'⟩⟩
    obtain ⟨y, hxy, hyr⟩ := hdep
    obtain ⟨node, hm, -, hy⟩ := id hxy
    have hyn : y ∈ nodes.map ResourceNode.name :=
      Classical.byContradiction fun hyn => hmiss ⟨node, hm, y, hy, hyn⟩
    exact ⟨y, ⟨hyn, hyr⟩, hxy⟩

/-- On distinct names with known dependencies the sort fails exactly on a cycle, and else
returns the least ready order of all names. -/
theorem topologicalSort_of_known {nodes : List (ResourceNode α)} {fuel : ℕ}
    (hf : nodes.length ≤ fuel) (hn : (nodes.map ResourceNode.name).Nodup)
    (hmiss : ¬ Missing nodes) :
    (Cyclic nodes ∧ ∃ names, topologicalSort fuel nodes = some (.error (.cycle names))) ∨
      (¬ Cyclic nodes ∧ ∃ order, topologicalSort fuel nodes = some (.ok order) ∧
        order.Perm (nodes.map ResourceNode.name) ∧
        LeastOrder (nameSet nodes) (DependsOn nodes) ∅ order) := by
  by_cases hnil : nodes = []
  · subst hnil
    refine Or.inr ⟨?_, [], by simp [topologicalSort], by simp, trivial⟩
    rintro ⟨a, ha⟩
    cases ha with
    | single h => simp [DependsOn] at h
    | tail _ h => simp [DependsOn] at h
  have hdup : duplicateName [] nodes = none := duplicateName_eq_none.mpr ⟨hn, by simp⟩
  have hmd : missingDependency (nodes.map ResourceNode.name) nodes = none :=
    missingDependency_eq_none.mpr fun node hm dep hd =>
      Classical.byContradiction fun hnot => hmiss ⟨node, hm, dep, hd, hnot⟩
  obtain ⟨inDegree, result, hrun, hinv⟩ :=
    (loopInv_init hn).run hn (show nodes.length ≤ fuel + _ by simpa using hf)
  have hsub : result.Subperm (nodes.map ResourceNode.name) :=
    hinv.least.readyOrder.nodup.subperm fun a ha => (hinv.least.readyOrder.mem ha).1
  by_cases hlen : result.length = nodes.length
  · have hperm : result.Perm (nodes.map ResourceNode.name) := hsub.perm_of_length_le (by simp [hlen])
    refine Or.inr ⟨?_, result, ?_, hperm, hinv.least⟩
    · rintro ⟨a, ha⟩
      refine hinv.least.readyOrder.acyclic (fun x y hxy => ?_) a ha
      obtain ⟨node, hm, rfl, -⟩ := hxy
      exact hperm.mem_iff.mpr (List.mem_map_of_mem hm)
    · simp [topologicalSort, hnil, hdup, hmd, hrun, hlen]
  · refine Or.inl ⟨?_, ?_⟩
    · obtain ⟨a, ha, har⟩ : ∃ a ∈ nodes.map ResourceNode.name, a ∉ result := by
        by_contra hall
        have hsub' : (nodes.map ResourceNode.name).Subperm result := hn.subperm fun a ha =>
          Classical.byContradiction fun har => hall ⟨a, ha, har⟩
        exact hlen (by simpa using (hsub.antisymm hsub').length_eq)
      exact hinv.cyclic hmiss ha har
    · simp [topologicalSort, hnil, hdup, hmd, hrun, hlen]

/-- The four outcomes, in the order in which the source looks for them. -/
inductive Outcome (nodes : List (ResourceNode α)) : Except (SortError α) (List α) → Prop
  | duplicate (name : α) (hd : Duplicated nodes) : Outcome nodes (.error (.duplicateName name))
  | missing (node dep : α) (hd : ¬ Duplicated nodes) (hm : Missing nodes) :
      Outcome nodes (.error (.missingDependency node dep))
  | cycle (names : List α) (hd : ¬ Duplicated nodes) (hm : ¬ Missing nodes) (hc : Cyclic nodes) :
      Outcome nodes (.error (.cycle names))
  | sorted (order : List α) (hd : ¬ Duplicated nodes) (hm : ¬ Missing nodes) (hc : ¬ Cyclic nodes)
      (hperm : order.Perm (nodes.map ResourceNode.name))
      (hl : LeastOrder (nameSet nodes) (DependsOn nodes) ∅ order) : Outcome nodes (.ok order)

theorem topologicalSort_outcome {nodes : List (ResourceNode α)} {fuel : ℕ}
    (hf : nodes.length ≤ fuel) :
    ∃ out, topologicalSort fuel nodes = some out ∧ Outcome nodes out := by
  by_cases hnil : nodes = []
  · have hknown := topologicalSort_of_known hf (by simp [hnil]) (by simp [hnil, Missing])
    rcases hknown with ⟨hc, names, h⟩ | ⟨hc, order, h, hperm, hl⟩
    · exact ⟨_, h, .cycle names (by simp [hnil, Duplicated]) (by simp [hnil, Missing]) hc⟩
    · exact ⟨_, h, .sorted order (by simp [hnil, Duplicated]) (by simp [hnil, Missing]) hc hperm hl⟩
  cases hdup : duplicateName [] nodes with
  | some name =>
    have hd : Duplicated nodes := fun hn => by
      rw [duplicateName_eq_none.mpr ⟨hn, fun _ _ => List.not_mem_nil⟩] at hdup
      cases hdup
    exact ⟨_, by simp [topologicalSort, hnil, hdup], .duplicate name hd⟩
  | none =>
    have hn : (nodes.map ResourceNode.name).Nodup := (duplicateName_eq_none.mp hdup).1
    have hd : ¬ Duplicated nodes := fun h => h hn
    cases hmd : missingDependency (nodes.map ResourceNode.name) nodes with
    | some p =>
      have hm : Missing nodes := by
        by_contra hm
        simp only [Missing, not_exists, not_and, not_not] at hm
        simp [missingDependency_eq_none.mpr hm] at hmd
      exact ⟨_, by simp [topologicalSort, hnil, hdup, hmd], .missing p.1 p.2 hd hm⟩
    | none =>
      have hm : ¬ Missing nodes := by
        rintro ⟨node, hmem, dep, hdep, hnot⟩
        exact hnot (missingDependency_eq_none.mp hmd node hmem dep hdep)
      rcases topologicalSort_of_known hf hn hm with ⟨hc, names, h⟩ | ⟨hc, order, h, hperm, hl⟩
      · exact ⟨_, h, .cycle names hd hm hc⟩
      · exact ⟨_, h, .sorted order hd hm hc hperm hl⟩

/-- The least topological order: what the sort returns, in terms of the input alone. -/
def IsLeastTopological (nodes : List (ResourceNode α)) (order : List α) : Prop :=
  IsTopological nodes order ∧ ∀ other, IsTopological nodes other → order ≤ other

theorem Outcome.error_iff {nodes : List (ResourceNode α)} {out : Except (SortError α) (List α)}
    (h : Outcome nodes out) :
    (∃ e, out = .error e) ↔ Duplicated nodes ∨ Missing nodes ∨ Cyclic nodes := by
  cases h with
  | duplicate _ hd => simp [hd]
  | missing _ _ _ hm => simp [hm]
  | cycle _ _ _ hc => simp [hc]
  | sorted _ hd hm hc => simp [hd, hm, hc]

theorem Outcome.ok_iff {nodes : List (ResourceNode α)} {out : Except (SortError α) (List α)}
    (h : Outcome nodes out) {order : List α} :
    out = .ok order ↔ ¬ Duplicated nodes ∧ IsLeastTopological nodes order := by
  have hready (hd : ¬ Duplicated nodes) {order : List α} (ht : IsTopological nodes order) :
      ReadyOrder (nameSet nodes) (DependsOn nodes) ∅ order :=
    (isTopological_iff_readyOrder (not_not.mp hd) ht.1).mp ht
  cases h with
  | duplicate _ hd => simp [hd]
  | missing _ _ hd hm =>
    obtain ⟨node, hmem, dep, hdep, hnot⟩ := hm
    refine iff_of_false (by simp) ?_
    rintro ⟨-, ht, -⟩
    obtain ⟨l, r, hlr, hl⟩ := ht.2 node.name dep ⟨node, hmem, rfl, hdep⟩
    exact hnot (ht.1.mem_iff.mp (by simp [hlr, hl]))
  | cycle _ hd _ hc =>
    obtain ⟨a, ha⟩ := hc
    refine iff_of_false (by simp) ?_
    rintro ⟨-, ht, -⟩
    refine (hready hd ht).acyclic (fun x y hxy => ?_) a ha
    obtain ⟨node, hmem, rfl, -⟩ := hxy
    exact ht.1.mem_iff.mpr (List.mem_map_of_mem hmem)
  | sorted found hd hm hc hperm hl =>
    have htop : IsTopological nodes found :=
      (isTopological_iff_readyOrder (not_not.mp hd) hperm).mpr hl.readyOrder
    have hmin : ∀ other, IsTopological nodes other → found ≤ other := fun other ho =>
      hl.le (hready hd ho) (hperm.length_eq.trans ho.1.length_eq.symm)
    constructor
    · intro h
      obtain rfl : found = order := by simpa using h
      exact ⟨hd, htop, hmin⟩
    · rintro ⟨-, ht, hleast⟩
      rw [le_antisymm (hmin order ht) (hleast found htop)]

/-- Reordering the input changes neither the uniqueness of names nor the least order. -/
theorem Reordered.leastTopological {nodes nodes' : List (ResourceNode α)}
    (h : Reordered nodes nodes') (order : List α) :
    (¬ Duplicated nodes' ∧ IsLeastTopological nodes' order) ↔
      (¬ Duplicated nodes ∧ IsLeastTopological nodes order) := by
  have hnames : (nodes'.map ResourceNode.name).Perm (nodes.map ResourceNode.name) := by
    obtain ⟨shuffled, hperm, hall⟩ := h
    rw [← (forall₂_same hall).1]
    exact hperm.map _
  simp only [IsLeastTopological, h.isTopological, Duplicated, hnames.nodup_iff]

/-- The sort ends within as many turns as there are nodes. It fails exactly on duplicate
names, unknown dependencies and cycles; else it returns the lexicographically least
permutation of the names that puts every dependency first, and no reordering of the input
changes it. -/
theorem topologicalSort_correct (nodes : List (ResourceNode α)) (fuel : ℕ)
    (hf : nodes.length ≤ fuel) :
    ∃ out, topologicalSort fuel nodes = some out ∧
      ((∃ e, out = .error e) ↔ Duplicated nodes ∨ Missing nodes ∨ Cyclic nodes) ∧
      (∀ order, out = .ok order → IsTopological nodes order ∧
        ∀ other, IsTopological nodes other → order ≤ other) ∧
      ∀ nodes' fuel', Reordered nodes nodes' → nodes'.length ≤ fuel' →
        ∀ order, topologicalSort fuel' nodes' = some (.ok order) ↔ out = .ok order := by
  obtain ⟨out, hout, ho⟩ := topologicalSort_outcome hf
  refine ⟨out, hout, ho.error_iff, fun order h => (ho.ok_iff.mp h).2, ?_⟩
  intro nodes' fuel' hr hf' order
  obtain ⟨out', hout', ho'⟩ := topologicalSort_outcome hf'
  rw [hout', Option.some.injEq, ho'.ok_iff, ho.ok_iff, hr.leastTopological]

/-- A diamond with a repeated dependency, given in an order that is not sorted. -/
def diamond : List (ResourceNode ℕ) := [⟨4, [2, 3, 2]⟩, ⟨2, [1]⟩, ⟨3, [1]⟩, ⟨1, []⟩]

theorem topologicalSort_correct_diamond :
    ∃ out, topologicalSort 4 diamond = some out ∧ out = .ok [1, 2, 3, 4] ∧
      ((∃ e, out = .error e) ↔ Duplicated diamond ∨ Missing diamond ∨ Cyclic diamond) := by
  obtain ⟨out, hout, he, -⟩ := topologicalSort_correct diamond 4 (by decide)
  have hrun : topologicalSort 4 diamond = some (.ok [1, 2, 3, 4]) := by decide
  exact ⟨out, hout, Option.some.inj (hout.symm.trans hrun), he⟩

end Understack.Nautobotop.Dag
