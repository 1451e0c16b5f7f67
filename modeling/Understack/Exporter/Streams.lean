import Mathlib.Algebra.Ring.Int.Defs
import Mathlib.Data.List.Induction
import Mathlib.Data.List.Perm.Basic
import Understack.Exporter.NodeStore

/-! The two streams meet in the store. Each writes fields of its own, and the name, which both write,
is the sensors' once there was a sensor message; so their interleaving does not matter. -/
namespace Understack.Exporter
open PyText

variable {F : Type}

inductive Message (F : Type) where
  | sensor (msg : HardwareMessage F)
  | state (msg : NodeStateMessage)

def Message.sensor? : Message F → Option (HardwareMessage F)
  | .sensor msg => some msg
  | .state _ => none

def Message.state? : Message F → Option NodeStateMessage
  | .sensor _ => none
  | .state msg => some msg

def receive (s : Store F) : Message F → Store F
  | .sensor msg => s.update msg
  | .state msg => s.updateNodeState msg

/-- The state of a node, as in its entry. -/
structure NodeState where
  hasStateData : Bool
  conductorHost : Text
  powerState : Option Text
  provisionState : Option Text
  maintenance : Bool
  fault : Option Text

def NodeEntry.state (e : NodeEntry F) : NodeState :=
  ⟨e.hasStateData, e.conductorHost, e.powerState, e.provisionState, e.maintenance, e.fault⟩

/-- The state of a node in the store; that of a node without an entry has the zero values. -/
def stateOf (s : Store F) (uuid : Text) : NodeState :=
  ((s.lookup uuid).getD (.zero uuid [])).state

/-- The last sensor message of a node. -/
def lastSensor (msgs : List (HardwareMessage F)) (uuid : Text) : Option (HardwareMessage F) :=
  msgs.reverse.find? fun m => m.nodeUUID = uuid

/-- Each entry is stored under the id it names, and no id twice. -/
structure Keyed (s : Store F) : Prop where
  nodup : (s.map Prod.fst).Nodup
  own : ∀ e ∈ s, e.2.nodeUUID = e.1

theorem Keyed.put {s : Store F} (h : Keyed s) {uuid : Text} {entry : NodeEntry F}
    (hown : entry.nodeUUID = uuid) : Keyed (PyDict.put uuid entry s) where
  nodup := PyDict.nodup_keys_put uuid entry h.nodup
  own := by
    intro e he
    rcases PyDict.mem_put he with rfl | he
    · exact hown
    · exact h.own e he

theorem Keyed.entry {s : Store F} (h : Keyed s) {uuid name : Text} :
    ((s.lookup uuid).getD (.zero uuid name)).nodeUUID = uuid := by
  cases hs : s.lookup uuid with
  | none => rfl
  | some e => exact h.own _ (PyDict.mem_of_lookup hs)

theorem Keyed.receive {s : Store F} (h : Keyed s) (m : Message F) : Keyed (receive s m) := by
  cases m with
  | sensor msg => exact h.put h.entry
  | state msg => exact h.put h.entry

def received (msgs : List (Message F)) : Store F := msgs.foldl receive []

theorem received_append (msgs : List (Message F)) (m : Message F) :
    received (msgs ++ [m]) = receive (received msgs) m := by
  rw [received, List.foldl_append]
  rfl

theorem keyed_received (msgs : List (Message F)) : Keyed (received msgs) := by
  induction msgs using List.reverseRecOn with
  | nil => exact ⟨List.nodup_nil, by simp [received]⟩
  | append_singleton msgs m ih =>
    rw [received_append]
    exact ih.receive m

/-- What the last sensor message of a node wrote is in its entry. -/
structure Reads (m : HardwareMessage F) (e : NodeEntry F) : Prop where
  name : e.nodeName = m.nodeName
  lastSeen : e.lastSeen = m.eventTimestamp
  sensors : e.sensors = m.sensors

theorem reads_received {msgs : List (Message F)} {uuid : Text} {m : HardwareMessage F}
    (h : lastSensor (msgs.filterMap Message.sensor?) uuid = some m) :
    ∃ e, (received msgs).lookup uuid = some e ∧ Reads m e := by
  induction msgs using List.reverseRecOn with
  | nil => cases h
  | append_singleton msgs a ih =>
    rw [received_append]
    rw [List.filterMap_append, lastSensor, List.reverse_append] at h
    cases a with
    | sensor msg =>
      rw [receive, lookup_update]
      simp only [List.filterMap_cons, Message.sensor?, List.filterMap_nil, List.reverse_singleton,
        List.singleton_append, List.find?_cons] at h
      by_cases huuid : msg.nodeUUID = uuid
      · rw [decide_eq_true huuid] at h
        cases h
        rw [if_pos huuid.symm]
        exact ⟨_, rfl, rfl, rfl, rfl⟩
      · rw [decide_eq_false huuid] at h
        rw [if_neg (Ne.symm huuid)]
        exact ih h
    | state msg =>
      obtain ⟨e, he, hr⟩ := ih h
      rw [receive, lookup_updateNodeState]
      split_ifs with huuid
      · rw [he]
        exact ⟨_, rfl, hr.name, hr.lastSeen, hr.sensors⟩
      · exact ⟨e, he, hr⟩

theorem stateOf_update (s : Store F) (msg : HardwareMessage F) (uuid : Text) :
    stateOf (s.update msg) uuid = stateOf s uuid := by
  unfold stateOf
  rw [lookup_update]
  split_ifs with h
  · rfl
  · rfl

/-- A state message makes equal states of equal states. -/
theorem stateOf_updateNodeState {s s' : Store F} {uuid : Text} (h : stateOf s uuid = stateOf s' uuid)
    (msg : NodeStateMessage) :
    stateOf (s.updateNodeState msg) uuid = stateOf (s'.updateNodeState msg) uuid := by
  have hzero (t : Store F) : ((t.lookup uuid).getD (.zero uuid msg.nodeName)).state = stateOf t uuid := by
    unfold stateOf
    cases t.lookup uuid with
    | none => rfl
    | some e => rfl
  have hstate := ((hzero s).trans h).trans (hzero s').symm
  generalize hnew : stateOf (s.updateNodeState msg) uuid = new
  generalize hnew' : stateOf (s'.updateNodeState msg) uuid = new'
  unfold stateOf at hnew hnew' h
  rw [lookup_updateNodeState] at hnew hnew'
  split_ifs at hnew hnew' with huuid
  · injection hstate with h₁ h₂ h₃ h₄ h₅ h₆
    rw [← hnew, ← hnew']
    simp only [Option.getD_some, NodeEntry.state, NodeEntry.withState, h₃, h₄, h₅, h₆]
  · rw [← hnew, ← hnew', h]

/-- The state of a node is that of the state messages alone. -/
theorem stateOf_received (msgs : List (Message F)) (uuid : Text) :
    stateOf (received msgs) uuid =
      stateOf (received ((msgs.filterMap Message.state?).map .state) : Store F) uuid := by
  induction msgs using List.reverseRecOn with
  | nil => rfl
  | append_singleton msgs a ih =>
    rw [received_append, List.filterMap_append, List.map_append]
    cases a with
    | sensor msg =>
      have hlast : ([Message.sensor msg] : List (Message F)).filterMap Message.state? = [] := rfl
      rw [receive, stateOf_update, ih, hlast, List.map_nil, List.append_nil]
    | state msg =>
      have hlast : ([Message.state msg] : List (Message F)).filterMap Message.state? = [msg] := rfl
      rw [hlast, List.map_singleton, received_append]
      exact stateOf_updateNodeState ih msg

/-- A node without messages has no entry. -/
theorem lookup_received_none {msgs : List (Message F)} {uuid : Text}
    (hsensor : ∀ m ∈ msgs.filterMap Message.sensor?, m.nodeUUID ≠ uuid)
    (hstate : ∀ m ∈ msgs.filterMap Message.state?, m.nodeUUID ≠ uuid) :
    (received msgs).lookup uuid = none := by
  induction msgs using List.reverseRecOn with
  | nil => rfl
  | append_singleton msgs a ih =>
    rw [List.filterMap_append, List.forall_mem_append] at hsensor hstate
    have hrest := ih hsensor.1 hstate.1
    rw [received_append]
    cases a with
    | sensor msg =>
      have hne := hsensor.2 msg (by simp [Message.sensor?])
      rw [receive, lookup_update, if_neg (Ne.symm hne)]
      exact hrest
    | state msg =>
      have hne := hstate.2 msg (by simp [Message.state?])
      rw [receive, lookup_updateNodeState, if_neg (Ne.symm hne)]
      exact hrest

/-- Where each node has a sensor message, one without has no entry. -/
theorem lastSensor_or_none {msgs : List (Message F)}
    (hheard : ∀ m ∈ msgs.filterMap Message.state?,
      ∃ h ∈ msgs.filterMap Message.sensor?, h.nodeUUID = m.nodeUUID) {uuid : Text} :
    (∃ m, lastSensor (msgs.filterMap Message.sensor?) uuid = some m) ∨
      (received msgs).lookup uuid = none := by
  cases hl : lastSensor (msgs.filterMap Message.sensor?) uuid with
  | some m => exact Or.inl ⟨m, rfl⟩
  | none =>
    rw [lastSensor, List.find?_eq_none] at hl
    have hno : ∀ m ∈ msgs.filterMap Message.sensor?, m.nodeUUID ≠ uuid := by
      intro m hm
      simpa using hl m (List.mem_reverse.mpr hm)
    refine Or.inr (lookup_received_none hno fun m hm heq => ?_)
    obtain ⟨h, hh, huuid⟩ := hheard m hm
    exact hno h hh (huuid.trans heq)

theorem entry_received {msgs : List (Message F)} {uuid : Text} {e : NodeEntry F}
    (he : (received msgs).lookup uuid = some e) :
    e.nodeUUID = uuid ∧ e.state =
      stateOf (received ((msgs.filterMap Message.state?).map .state) : Store F) uuid := by
  refine ⟨(keyed_received msgs).own _ (PyDict.mem_of_lookup he), ?_⟩
  rw [← stateOf_received, stateOf, he]
  rfl

/-- An entry is its id, what the sensors wrote and the state. -/
theorem Reads.eq {m : HardwareMessage F} {e e' : NodeEntry F} (h : Reads m e) (h' : Reads m e')
    (huuid : e.nodeUUID = e'.nodeUUID) (hstate : e.state = e'.state) : e = e' := by
  have hname := h.name.trans h'.name.symm
  have hseen := h.lastSeen.trans h'.lastSeen.symm
  have hsensors := h.sensors.trans h'.sensors.symm
  cases e
  cases e'
  injection hstate with h₁ h₂ h₃ h₄ h₅ h₆
  simp_all

/-- What tells the samples of a family apart. -/
def Sample.key (s : Sample F) : Option Text × Option Text :=
  (s.labels.lookup "node_uuid", s.labels.lookup "sensor")

/-- The samples of one node, each of a sensor of its own. -/
structure OwnSamples (n : NodeEntry F) (samples : List (Sample F)) : Prop where
  uuid : ∀ s ∈ samples, s.labels.lookup "node_uuid" = some n.nodeUUID
  nodup : (samples.map Sample.key).Nodup

theorem ownSamples_sensor {α : Type} (n : NodeEntry F) (sensors : GoMap α)
    (read : α → Option (List (String × Text) × F)) :
    OwnSamples n (n.sensorSamples sensors read) where
  uuid := by
    intro s hs
    obtain ⟨e, -, hread⟩ := List.mem_filterMap.mp hs
    obtain ⟨r, -, rfl⟩ := Option.map_eq_some_iff.mp hread
    rfl
  nodup := by
    have hsub : List.Sublist ((n.sensorSamples sensors read).map Sample.key)
        (sensors.entries.map fun e => (some n.nodeUUID, some e.1)) := by
      unfold NodeEntry.sensorSamples
      induction sensors.entries with
      | nil => exact List.Sublist.slnil
      | cons e entries ih =>
        rw [List.filterMap_cons, List.map_cons]
        cases read e.2 with
        | none => exact ih.cons _
        | some r => exact ih.cons_cons _
    refine hsub.nodup ?_
    have hkeys : (sensors.entries.map fun e => (some n.nodeUUID, some e.1)) =
        (sensors.entries.map Prod.fst).map fun k => (some n.nodeUUID, some k) := by
      rw [List.map_map]
      rfl
    rw [hkeys]
    refine sensors.nodup.map fun a b h => ?_
    exact Option.some.inj (Prod.ext_iff.mp h).2

theorem ownSamples_state (n : NodeEntry F)
    (read : NodeEntry F → Option (List (String × Text) × F)) :
    OwnSamples n (n.stateSample read) := by
  unfold NodeEntry.stateSample
  split_ifs
  · cases read n with
    | none => exact ⟨by simp, List.nodup_nil⟩
    | some r => exact ⟨fun s hs => by rw [List.mem_singleton.mp hs]; rfl, List.nodup_singleton _⟩
  · exact ⟨by simp, List.nodup_nil⟩

theorem ownSamples_single (n : NodeEntry F) (value : F) : OwnSamples n [⟨n.labels, value⟩] :=
  ⟨fun s hs => by rw [List.mem_singleton.mp hs]; rfl, List.nodup_singleton _⟩

theorem nodup_gauge (name help : String) {nodes : Store F}
    {samples : NodeEntry F → List (Sample F)} (hnodup : (nodes.map Prod.fst).Nodup)
    (hown : ∀ e ∈ nodes, e.2.nodeUUID = e.1) (hsamples : ∀ n, OwnSamples n (samples n)) :
    ((gauge name help nodes samples).samples.map Sample.key).Nodup := by
  rw [gauge, List.map_flatMap, List.nodup_flatMap]
  refine ⟨fun e _ => (hsamples e.2).nodup, ?_⟩
  refine (List.pairwise_map.mp hnodup).imp_of_mem fun {a b} ha hb hne => ?_
  -- samples of two nodes differ in the id
  apply List.disjoint_left.mpr
  intro key hka hkb
  obtain ⟨s, hs, rfl⟩ := List.mem_map.mp hka
  obtain ⟨t, ht, heq⟩ := List.mem_map.mp hkb
  have huuid := (Prod.ext_iff.mp heq).1
  rw [Sample.key, Sample.key, (hsamples a.2).uuid s hs, (hsamples b.2).uuid t ht, hown a ha,
    hown b hb] at huuid
  exact hne (Option.some.inj huuid).symm

variable [Zero F] [One F] [IntCast F]

/-- The families of a snapshot have names of their own, and one sample for each sensor of a node or
for the node. -/
theorem nodup_transform {nodes : Store F} (hnodup : (nodes.map Prod.fst).Nodup)
    (hown : ∀ e ∈ nodes, e.2.nodeUUID = e.1) :
    ((transform nodes).map MetricFamily.name).Nodup ∧
      ∀ family ∈ transform nodes, (family.samples.map Sample.key).Nodup := by
  constructor
  · change List.Nodup ["ironic_node_last_seen_timestamp_seconds", "ironic_node_temperature_celsius",
      "ironic_node_temperature_health", "ironic_node_power_output_watts", "ironic_node_power_health",
      "ironic_node_drive_enabled", "ironic_node_drive_health", "ironic_node_power_state",
      "ironic_node_provision_state", "ironic_node_maintenance", "ironic_node_fault"]
    decide
  · have hsensor {α : Type} (name help : String) (sensors : NodeEntry F → GoMap α)
        (read : α → Option (List (String × Text) × F)) :
        ((gauge name help nodes fun n => n.sensorSamples (sensors n) read).samples.map
          Sample.key).Nodup :=
      nodup_gauge name help hnodup hown fun n => ownSamples_sensor n (sensors n) read
    have hstate (name help : String) (read : NodeEntry F → Option (List (String × Text) × F)) :
        ((gauge name help nodes fun n => n.stateSample read).samples.map Sample.key).Nodup :=
      nodup_gauge name help hnodup hown fun n => ownSamples_state n read
    simp only [transform, sensorFamilies, stateFamilies, List.forall_mem_append,
      List.forall_mem_cons, List.not_mem_nil, false_implies, implies_true, and_true]
    refine ⟨⟨?_, hsensor _ _ _ _, hsensor _ _ _ _, hsensor _ _ _ _, hsensor _ _ _ _,
      hsensor _ _ _ _, hsensor _ _ _ _⟩, hstate _ _ _, hstate _ _ _, hstate _ _ _, hstate _ _ _⟩
    refine nodup_gauge _ _ hnodup hown fun n => ?_
    split_ifs
    · exact ⟨by simp, List.nodup_nil⟩
    · exact ownSamples_single n _

/-- A state message before and after the sensor message of its node. -/
def stateOn : Message ℤ :=
  .state ⟨"u".toList, "old".toList, "c".toList, 1, some "power on".toList, none, some true, none⟩

def sensorNew : Message ℤ := .sensor ⟨"u".toList, "new".toList, 5, ⟨.empty, .empty, .empty⟩⟩

end Understack.Exporter
