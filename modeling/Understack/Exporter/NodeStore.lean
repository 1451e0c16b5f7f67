import Understack.Lib.GoStructs

/-! The hardware exporter: sensor readings and node states arrive as two streams of messages, meet
in one entry per node and leave as gauges. -/
namespace Understack.Exporter
open PyText Json GoStructs

variable {F : Type}

/-- `time.Time`, in nanoseconds since the zero time. -/
abbrev Time := ℤ

/-- `Time.Unix`. -/
def unixSeconds (t : Time) : ℤ := t / 1000000000 - 62135596800

/-- The entries of a Go map, in the order of one iteration. -/
structure GoMap (α : Type) where
  entries : List (Text × α)
  nodup : (entries.map Prod.fst).Nodup

def GoMap.empty {α : Type} : GoMap α := ⟨[], List.nodup_nil⟩

structure TemperatureSensor (F : Type) where
  readingCelsius : Option F
  physicalContext : Text
  health : Option Text

structure PowerSensor (F : Type) where
  lastPowerOutputWatts : Option F
  health : Option Text

structure DriveSensor where
  state : Option Text
  health : Option Text

structure SensorPayload (F : Type) where
  temperature : GoMap (TemperatureSensor F)
  power : GoMap (PowerSensor F)
  drive : GoMap DriveSensor

structure HardwareMessage (F : Type) where
  nodeUUID : Text
  nodeName : Text
  eventTimestamp : Time
  sensors : SensorPayload F

/-- `none` is a nil pointer. -/
structure NodeStateMessage where
  nodeUUID : Text
  nodeName : Text
  conductorHost : Text
  eventTimestamp : Time
  powerState : Option Text
  provisionState : Option Text
  maintenance : Option Bool
  fault : Option Text

/-- `time.Parse` with the layout of the notifications, and the time that is taken where it
fails. -/
structure Clock where
  parse : Text → Option Time
  now : Time

/-- Lower case; no character outside ASCII becomes one of those that are compared. -/
def toLower (s : Text) : Text :=
  s.map fun c => if 'A' ≤ c ∧ c ≤ 'Z' then Char.ofNat (c.toNat + 32) else c

def isNodeStateEvent (eventType : Text) : Bool :=
  let lower := toLower eventType
  "baremetal.node.".toList.isPrefixOf lower && !(".start".toList.isSuffixOf lower)

/-- `none` is an error, and `some none` an event that is skipped. The syntax of JSON is read by
`parse`. -/
def parseNodeState (parse : Text → Option (Value F)) (clock : Clock) (body : Text) :
    Option (Option NodeStateMessage) := do
  let envelope ← decodeDocument parse body
  let osloMessage ← decodeString (field "oslo.message" envelope)
  let _ ← decodeString (field "oslo.version" envelope)
  let msg ← decodeDocument parse osloMessage
  let eventType ← decodeString (field "event_type" msg)
  let publisherID ← decodeString (field "publisher_id" msg)
  let payload ← decodeStruct (field "payload" msg)
  let timestamp ← decodeString (field "timestamp" msg)
  let data ← decodeStruct (field "ironic_object.data" payload)
  let uuid ← decodeString (field "uuid" data)
  let name ← decodeString (field "name" data)
  let powerState ← decodePointer readString (field "power_state" data)
  let provisionState ← decodePointer readString (field "provision_state" data)
  let maintenance ← decodePointer readBool (field "maintenance" data)
  let fault ← decodePointer readString (field "fault" data)
  if isNodeStateEvent eventType then
    some (some {
      nodeUUID := uuid
      nodeName := name
      conductorHost := publisherID
      eventTimestamp := (clock.parse timestamp).getD clock.now
      powerState := powerState
      provisionState := provisionState
      maintenance := maintenance
      fault := fault })
  else some none

structure NodeEntry (F : Type) where
  nodeUUID : Text
  nodeName : Text
  lastSeen : Time
  sensors : SensorPayload F
  hasStateData : Bool
  conductorHost : Text
  powerState : Option Text
  provisionState : Option Text
  maintenance : Bool
  fault : Option Text

/-- An entry with its ids and the zero values of the other fields. -/
def NodeEntry.zero (nodeUUID nodeName : Text) : NodeEntry F where
  nodeUUID := nodeUUID
  nodeName := nodeName
  lastSeen := 0
  sensors := ⟨.empty, .empty, .empty⟩
  hasStateData := false
  conductorHost := []
  powerState := none
  provisionState := none
  maintenance := false
  fault := none

/-- The cache by node id; nothing is evicted. -/
abbrev Store (F : Type) := List (Text × NodeEntry F)

def NodeEntry.withSensors (entry : NodeEntry F) (msg : HardwareMessage F) : NodeEntry F :=
  { entry with
    nodeName := msg.nodeName
    lastSeen := msg.eventTimestamp
    sensors := msg.sensors }

/-- A nil pointer leaves the field. -/
def NodeEntry.withState (entry : NodeEntry F) (msg : NodeStateMessage) : NodeEntry F :=
  { entry with
    hasStateData := true
    conductorHost := msg.conductorHost
    powerState := msg.powerState.or entry.powerState
    provisionState := msg.provisionState.or entry.provisionState
    maintenance := msg.maintenance.getD entry.maintenance
    fault := msg.fault.or entry.fault }

def Store.update (s : Store F) (msg : HardwareMessage F) : Store F :=
  let entry := (s.lookup msg.nodeUUID).getD (.zero msg.nodeUUID [])
  PyDict.put msg.nodeUUID (entry.withSensors msg) s

def Store.updateNodeState (s : Store F) (msg : NodeStateMessage) : Store F :=
  let entry := (s.lookup msg.nodeUUID).getD (.zero msg.nodeUUID msg.nodeName)
  PyDict.put msg.nodeUUID (entry.withState msg) s

theorem lookup_updateNodeState (s : Store F) (msg : NodeStateMessage) (uuid : Text) :
    (s.updateNodeState msg).lookup uuid =
      if uuid = msg.nodeUUID then
        some (((s.lookup uuid).getD (.zero uuid msg.nodeName)).withState msg)
      else s.lookup uuid := by
  unfold Store.updateNodeState
  split_ifs with h
  · rw [h, PyDict.lookup_put_self]
  · exact PyDict.lookup_put_of_ne _ _ h

theorem lookup_update (s : Store F) (msg : HardwareMessage F) (uuid : Text) :
    (s.update msg).lookup uuid =
      if uuid = msg.nodeUUID then some (((s.lookup uuid).getD (.zero uuid [])).withSensors msg)
      else s.lookup uuid := by
  unfold Store.update
  split_ifs with h
  · rw [h, PyDict.lookup_put_self]
  · exact PyDict.lookup_put_of_ne _ _ h

/-- The consumer of the notifications. -/
def consumeState (parse : Text → Option (Value F)) (clock : Clock) (s : Store F) (body : Text) :
    Store F :=
  match parseNodeState parse clock body with
  | some (some msg) => s.updateNodeState msg
  | _ => s

structure Sample (F : Type) where
  labels : List (String × Text)
  value : F

structure MetricFamily (F : Type) where
  name : String
  help : String
  samples : List (Sample F)

def NodeEntry.labels (n : NodeEntry F) : List (String × Text) :=
  [("node_uuid", n.nodeUUID), ("node_name", n.nodeName)]

/-- A family with the samples of each node. -/
def gauge (name help : String) (nodes : Store F) (samples : NodeEntry F → List (Sample F)) :
    MetricFamily F :=
  ⟨name, help, nodes.flatMap fun e => samples e.2⟩

/-- At most one sample for each sensor of a node, with what `read` adds to its labels and its
value. -/
def NodeEntry.sensorSamples {α : Type} (n : NodeEntry F) (sensors : GoMap α)
    (read : α → Option (List (String × Text) × F)) : List (Sample F) :=
  sensors.entries.filterMap fun e =>
    (read e.2).map fun r => ⟨n.labels ++ ("sensor", e.1) :: r.1, r.2⟩

/-- The sample of a node that has state data. -/
def NodeEntry.stateSample (n : NodeEntry F) (read : NodeEntry F → Option (List (String × Text) × F)) :
    List (Sample F) :=
  if n.hasStateData then
    ((read n).map fun r => ⟨n.labels ++ ("conductor_host", n.conductorHost) :: r.1, r.2⟩).toList
  else []

variable [Zero F] [One F]

def flag (b : Bool) : F := if b then 1 else 0

def sensorFamilies [IntCast F] (nodes : Store F) : List (MetricFamily F) :=
  [gauge "ironic_node_last_seen_timestamp_seconds"
      "Unix timestamp of the last hardware metrics event received for this node" nodes
      fun n => if n.lastSeen = 0 then [] else [⟨n.labels, (unixSeconds n.lastSeen : F)⟩],
    gauge "ironic_node_temperature_celsius" "Temperature reading in Celsius from a node sensor" nodes
      fun n => n.sensorSamples n.sensors.temperature fun t =>
        t.readingCelsius.map fun x => ([("context", t.physicalContext)], x),
    gauge "ironic_node_temperature_health"
      "Temperature sensor health; value is always 1, health state is in the label" nodes
      fun n => n.sensorSamples n.sensors.temperature fun t =>
        t.health.map fun h => ([("health", h)], 1),
    gauge "ironic_node_power_output_watts" "Power output in watts from a node power supply" nodes
      fun n => n.sensorSamples n.sensors.power fun p =>
        p.lastPowerOutputWatts.map fun x => ([], x),
    gauge "ironic_node_power_health"
      "Power supply health; value is always 1, health state is in the label" nodes
      fun n => n.sensorSamples n.sensors.power fun p => p.health.map fun h => ([("health", h)], 1),
    gauge "ironic_node_drive_enabled" "1 if the drive is in Enabled state, 0 otherwise" nodes
      fun n => n.sensorSamples n.sensors.drive fun d =>
        some ([], flag (d.state = some "Enabled".toList)),
    gauge "ironic_node_drive_health" "Drive health; value is always 1, health state is in the label"
      nodes
      fun n => n.sensorSamples n.sensors.drive fun d => d.health.map fun h => ([("health", h)], 1)]

def stateFamilies (nodes : Store F) : List (MetricFamily F) :=
  [gauge "ironic_node_power_state"
      "Current power state of the node; value is always 1, state is in the label" nodes
      fun n => n.stateSample fun n => n.powerState.map fun p => ([("power_state", p)], 1),
    gauge "ironic_node_provision_state"
      "Current provision state of the node; value is always 1, state is in the label" nodes
      fun n => n.stateSample fun n => n.provisionState.map fun p => ([("provision_state", p)], 1),
    gauge "ironic_node_maintenance" "1 if the node is in maintenance mode, 0 otherwise" nodes
      fun n => n.stateSample fun n => some ([], flag n.maintenance),
    gauge "ironic_node_fault" "1 if the node has a fault, 0 otherwise; fault reason is in the label"
      nodes
      fun n => n.stateSample fun n =>
        some ([("fault", n.fault.getD "none".toList)], flag n.fault.isSome)]

/-- The nodes of a snapshot in the order of one iteration. -/
def transform [IntCast F] (nodes : Store F) : List (MetricFamily F) :=
  sensorFamilies nodes ++ stateFamilies nodes

end Understack.Exporter
