import Mathlib.Algebra.Ring.Int.Defs
import Mathlib.Data.List.Induction
import Understack.Exporter.NodeStore

/-! Whether the exported state of a node is what its notifications said last. A pointer in a message
does not tell a field that is `null` from one that is missing, so that a value is never cleared. -/
namespace Understack.Exporter
open PyText Json GoStructs

variable {F : Type}

/-- What a notification says; a field that is carried may be `null`. -/
structure Notification where
  eventType : Text
  uuid : Text
  powerState : Option (Option Text)
  provisionState : Option (Option Text)
  maintenance : Option Bool
  fault : Option (Option Text)

/-- The body is a notification of a node, other than of a start. Members that are not named, and
their order, are free. -/
structure Notifies (parse : Text → Option (Value F)) (body : Text) (n : Notification) : Prop where
  decoded : ∃ envelope message msg payload data,
    parse body = some (.obj envelope) ∧ (decodeString (field "oslo.version" envelope)).isSome ∧
    field "oslo.message" envelope = [.str message] ∧ parse message = some (.obj msg) ∧
    field "event_type" msg = [.str n.eventType] ∧
    (decodeString (field "publisher_id" msg)).isSome ∧
    (decodeString (field "timestamp" msg)).isSome ∧ field "payload" msg = [.obj payload] ∧
    field "ironic_object.data" payload = [.obj data] ∧ field "uuid" data = [.str n.uuid] ∧
    (decodeString (field "name" data)).isSome ∧
    field "power_state" data = (n.powerState.map (ofPointer .str)).toList ∧
    field "provision_state" data = (n.provisionState.map (ofPointer .str)).toList ∧
    field "maintenance" data = (n.maintenance.map .bool).toList ∧
    field "fault" data = (n.fault.map (ofPointer .str)).toList
  event : isNodeStateEvent n.eventType = true

/-- The value in the last notification that carried the field. -/
def lastCarried {α : Type} (carried : Notification → Option α) (ns : List Notification) :
    Option α :=
  ns.reverse.findSome? carried

/-- The value of a label, and the value, of the samples of a node. -/
def shown (families : List (MetricFamily F)) (family label : String) (uuid : Text) :
    List (Option Text × F) :=
  (((families.filter fun m => m.name = family).flatMap MetricFamily.samples).filter
    fun s => s.labels.lookup "node_uuid" = some uuid).map fun s => (s.labels.lookup label, s.value)

/-- The label and the value of the fault gauge. -/
def faultShown [Zero F] [One F] : Option Text → Option Text × F
  | some reason => (some reason, 1)
  | none => (some "none".toList, 0)

/-- For each field, the metrics show the value in the last notification that carried it. -/
structure Mirrors [Zero F] [One F] (uuid : Text) (ns : List Notification)
    (families : List (MetricFamily F)) : Prop where
  power : shown families "ironic_node_power_state" "power_state" uuid =
    (lastCarried Notification.powerState ns).join.toList.map fun p => (some p, 1)
  provision : shown families "ironic_node_provision_state" "provision_state" uuid =
    (lastCarried Notification.provisionState ns).join.toList.map fun p => (some p, 1)
  maintenance : (shown families "ironic_node_maintenance" "node_uuid" uuid).map Prod.snd =
    if ns = [] then [] else [flag ((lastCarried Notification.maintenance ns).getD false)]
  fault : shown families "ironic_node_fault" "fault" uuid =
    if ns = [] then [] else [faultShown (lastCarried Notification.fault ns).join]

/-- No value of the field is taken back: where the last word is `null`, there was no other. -/
def NotCleared (carried : Notification → Option (Option Text)) (ns : List Notification) : Prop :=
  lastCarried carried ns = some none → ∀ n ∈ ns, (carried n).join = none

theorem parseNodeState_notifies {parse : Text → Option (Value F)} (clock : Clock) {body : Text}
    {n : Notification} (h : Notifies parse body n) :
    ∃ msg, parseNodeState parse clock body = some (some msg) ∧ msg.nodeUUID = n.uuid ∧
      msg.powerState = n.powerState.join ∧ msg.provisionState = n.provisionState.join ∧
      msg.maintenance = n.maintenance ∧ msg.fault = n.fault.join := by
  obtain ⟨⟨envelope, message, msg, payload, data, hbody, hversion, hmessage, hmsg, hevent,
    hpublisher, htimestamp, hpayload, hdata, huuid, hname, hpower, hprovision, hmaintenance,
    hfault⟩, hstate⟩ := h
  obtain ⟨version, hversion⟩ := Option.isSome_iff_exists.mp hversion
  obtain ⟨publisher, hpublisher⟩ := Option.isSome_iff_exists.mp hpublisher
  obtain ⟨timestamp, htimestamp⟩ := Option.isSome_iff_exists.mp htimestamp
  obtain ⟨name, hname⟩ := Option.isSome_iff_exists.mp hname
  have hpointer (carried : Option (Option Text)) :
      decodePointer readString (carried.map (ofPointer (Value.str (F := F)))).toList =
        some carried.join :=
    decodePointer_ofPointer decodePointer_str carried
  have hbool : decodePointer readBool (n.maintenance.map (Value.bool (F := F))).toList =
      some n.maintenance := by
    cases n.maintenance with
    | none => rfl
    | some b => rfl
  have hdocument {text : Text} {ms : List (Text × Value F)} (h : parse text = some (.obj ms)) :
      decodeDocument parse text = some ms := by
    rw [decodeDocument, h]
    rfl
  have hstring {name : String} {ms : List (Text × Value F)} {t : Text}
      (h : field name ms = [.str t]) : decodeString (field name ms) = some t := by
    rw [h]
    rfl
  have hstruct {name : String} {ms inner : List (Text × Value F)}
      (h : field name ms = [.obj inner]) : decodeStruct (field name ms) = some inner := by
    rw [h]
    rfl
  refine ⟨⟨n.uuid, name, publisher, (clock.parse timestamp).getD clock.now, n.powerState.join,
    n.provisionState.join, n.maintenance, n.fault.join⟩, ?_, rfl, rfl, rfl, rfl, rfl⟩
  -- one step for each line of the decoder
  refine Option.bind_eq_some_iff.mpr ⟨envelope, hdocument hbody, ?_⟩
  refine Option.bind_eq_some_iff.mpr ⟨message, hstring hmessage, ?_⟩
  refine Option.bind_eq_some_iff.mpr ⟨version, hversion, ?_⟩
  refine Option.bind_eq_some_iff.mpr ⟨msg, hdocument hmsg, ?_⟩
  refine Option.bind_eq_some_iff.mpr ⟨n.eventType, hstring hevent, ?_⟩
  refine Option.bind_eq_some_iff.mpr ⟨publisher, hpublisher, ?_⟩
  refine Option.bind_eq_some_iff.mpr ⟨payload, hstruct hpayload, ?_⟩
  refine Option.bind_eq_some_iff.mpr ⟨timestamp, htimestamp, ?_⟩
  refine Option.bind_eq_some_iff.mpr ⟨data, hstruct hdata, ?_⟩
  refine Option.bind_eq_some_iff.mpr ⟨n.uuid, hstring huuid, ?_⟩
  refine Option.bind_eq_some_iff.mpr ⟨name, hname, ?_⟩
  refine Option.bind_eq_some_iff.mpr ⟨n.powerState.join, hpower ▸ hpointer n.powerState, ?_⟩
  refine Option.bind_eq_some_iff.mpr
    ⟨n.provisionState.join, hprovision ▸ hpointer n.provisionState, ?_⟩
  refine Option.bind_eq_some_iff.mpr ⟨n.maintenance, hmaintenance ▸ hbool, ?_⟩
  refine Option.bind_eq_some_iff.mpr ⟨n.fault.join, hfault ▸ hpointer n.fault, ?_⟩
  exact if_pos hstate

theorem lastCarried_append {α : Type} (carried : Notification → Option α) (ns : List Notification)
    (n : Notification) : lastCarried carried (ns ++ [n]) = (carried n).or (lastCarried carried ns) := by
  rw [lastCarried, List.reverse_append, List.reverse_singleton, List.singleton_append,
    List.findSome?_cons]
  cases carried n with
  | none => rfl
  | some a => rfl

/-- What the store holds of a node after its notifications: of each field the last value that was
not `null`. -/
structure Holds (uuid : Text) (ns : List Notification) (e : NodeEntry F) : Prop where
  uuid : e.nodeUUID = uuid
  state : e.hasStateData = true
  power : e.powerState = lastCarried (fun n => n.powerState.join) ns
  provision : e.provisionState = lastCarried (fun n => n.provisionState.join) ns
  maintenance : e.maintenance = (lastCarried Notification.maintenance ns).getD false
  fault : e.fault = lastCarried (fun n => n.fault.join) ns

/-- The store with the entry of the only node, if it was heard of. -/
def Tracks (uuid : Text) (ns : List Notification) (s : Store F) : Prop :=
  (ns = [] ∧ s = []) ∨ (ns ≠ [] ∧ ∃ e, s = [(uuid, e)] ∧ Holds uuid ns e)

theorem Tracks.step {parse : Text → Option (Value F)} (clock : Clock) {uuid body : Text}
    {ns : List Notification} {n : Notification} {s : Store F} (h : Tracks uuid ns s)
    (hbody : Notifies parse body n) (huuid : n.uuid = uuid) :
    Tracks uuid (ns ++ [n]) (consumeState parse clock s body) := by
  obtain ⟨msg, hmsg, hid, hpower, hprovision, hmaintenance, hfault⟩ :=
    parseNodeState_notifies clock hbody
  rw [huuid] at hid
  have hs : consumeState parse clock s body = s.updateNodeState msg := by
    rw [consumeState, hmsg]
  rw [hs]
  refine Or.inr ⟨by simp, ?_⟩
  rcases h with ⟨rfl, rfl⟩ | ⟨-, e, rfl, he⟩
  · refine ⟨(NodeEntry.zero uuid msg.nodeName).withState msg, ?_, ⟨rfl, rfl, ?_, ?_, ?_, ?_⟩⟩
    · simp [Store.updateNodeState, PyDict.put, hid]
    · simp [NodeEntry.withState, NodeEntry.zero, hpower, lastCarried]
    · simp [NodeEntry.withState, NodeEntry.zero, hprovision, lastCarried]
    · simp [NodeEntry.withState, NodeEntry.zero, hmaintenance, lastCarried]
    · simp [NodeEntry.withState, NodeEntry.zero, hfault, lastCarried]
  · refine ⟨e.withState msg, ?_, ⟨he.uuid, rfl, ?_, ?_, ?_, ?_⟩⟩
    · simp [Store.updateNodeState, PyDict.put, hid]
    · rw [lastCarried_append, ← he.power, ← hpower]
      rfl
    · rw [lastCarried_append, ← he.provision, ← hprovision]
      rfl
    · rw [lastCarried_append, ← hmaintenance]
      cases hm : msg.maintenance with
      | none => simp [NodeEntry.withState, hm, he.maintenance]
      | some b => simp [NodeEntry.withState, hm]
    · rw [lastCarried_append, ← he.fault, ← hfault]
      rfl

/-- The run: every notification of the node is taken in. -/
theorem tracks_run {parse : Text → Option (Value F)} (clock : Clock) {uuid : Text}
    {bodies : List Text} {ns : List Notification} (h : List.Forall₂ (Notifies parse) bodies ns)
    (huuid : ∀ n ∈ ns, n.uuid = uuid) {before : List Notification} {s : Store F}
    (hs : Tracks uuid before s) :
    Tracks uuid (before ++ ns) (bodies.foldl (consumeState parse clock) s) := by
  induction h generalizing before s with
  | nil => simpa using hs
  | @cons body n bodies ns hbody hrest ih =>
    have hstep := hs.step clock hbody (huuid n List.mem_cons_self)
    have hrun := ih (fun m hm => huuid m (List.mem_cons_of_mem n hm)) hstep
    rw [List.append_assoc] at hrun
    exact hrun

/-- The last value that was not `null` is the last word exactly if that was not cleared. -/
theorem lastCarried_join_iff (carried : Notification → Option (Option Text))
    (ns : List Notification) :
    lastCarried (fun n => (carried n).join) ns = (lastCarried carried ns).join ↔
      NotCleared carried ns := by
  induction ns using List.reverseRecOn with
  | nil => simp [lastCarried, NotCleared]
  | append_singleton ns n ih =>
    rw [NotCleared, lastCarried_append, lastCarried_append]
    rcases hn : carried n with _ | _ | v
    · simp only [Option.join_none, Option.none_or]
      rw [ih, NotCleared, List.forall_mem_append, List.forall_mem_singleton, hn]
      simp
    · simp only [Option.join_some, Option.none_or, Option.some_or, true_implies]
      rw [List.forall_mem_append, List.forall_mem_singleton, hn]
      simp [lastCarried]
    · simp

section Shown

variable [Zero F] [One F]

theorem faultShown_injective [NeZero (1 : F)] : Function.Injective (faultShown (F := F)) := by
  intro a b h
  cases a with
  | none =>
    cases b with
    | none => rfl
    | some r => exact absurd (congrArg Prod.snd h).symm (NeZero.ne (1 : F))
  | some q =>
    cases b with
    | none => exact absurd (congrArg Prod.snd h) (NeZero.ne (1 : F))
    | some r => exact congrArg Prod.fst h

omit [Zero F] in
theorem sampleList_injective :
    Function.Injective fun v : Option Text => v.toList.map fun p => (some p, (1 : F)) := by
  intro a b h
  cases a with
  | none =>
    cases b with
    | none => rfl
    | some r => cases h
  | some q =>
    cases b with
    | none => cases h
    | some r =>
      cases h
      rfl

variable [IntCast F]

/-- The samples of one of the families are found by its name. -/
theorem shown_gauge {nodes : Store F} {family help : String}
    {samples : NodeEntry F → List (Sample F)}
    (h : ((transform nodes).filter fun m => m.name = family) = [gauge family help nodes samples])
    (label : String) (uuid : Text) :
    shown (transform nodes) family label uuid =
      ((nodes.flatMap fun e => samples e.2).filter
        fun s => s.labels.lookup "node_uuid" = some uuid).map
          fun s => (s.labels.lookup label, s.value) := by
  rw [shown, h, List.flatMap_singleton]
  rfl

/-- The state that is shown of the only node. -/
theorem shown_state {uuid : Text} {e : NodeEntry F} (huuid : e.nodeUUID = uuid)
    (hstate : e.hasStateData = true) {family help label : String}
    {read : NodeEntry F → Option (List (String × Text) × F)}
    (h : ((transform [(uuid, e)]).filter fun m => m.name = family) =
      [gauge family help [(uuid, e)] fun n => n.stateSample read]) :
    shown (transform [(uuid, e)]) family label uuid = ((read e).map fun r =>
      ((e.labels ++ ("conductor_host", e.conductorHost) :: r.1).lookup label, r.2)).toList := by
  rw [shown_gauge h, List.flatMap_singleton, NodeEntry.stateSample, if_pos hstate]
  cases read e with
  | none => rfl
  | some r =>
    have hfirst : List.lookup "node_uuid"
        (e.labels ++ ("conductor_host", e.conductorHost) :: r.1) = some uuid := by
      rw [← huuid]
      rfl
    simp [hfirst]

/-- The states that are shown of a node with state data. -/
theorem shown_entry {uuid : Text} {e : NodeEntry F} (huuid : e.nodeUUID = uuid)
    (hstate : e.hasStateData = true) :
    shown (transform [(uuid, e)]) "ironic_node_power_state" "power_state" uuid =
        e.powerState.toList.map (fun p => (some p, 1)) ∧
      shown (transform [(uuid, e)]) "ironic_node_provision_state" "provision_state" uuid =
        e.provisionState.toList.map (fun p => (some p, 1)) ∧
      (shown (transform [(uuid, e)]) "ironic_node_maintenance" "node_uuid" uuid).map Prod.snd =
        [flag e.maintenance] ∧
      shown (transform [(uuid, e)]) "ironic_node_fault" "fault" uuid = [faultShown e.fault] := by
  refine ⟨(shown_state huuid hstate rfl).trans ?_, (shown_state huuid hstate rfl).trans ?_, ?_,
    (shown_state huuid hstate rfl).trans ?_⟩
  · cases e.powerState with
    | none => rfl
    | some p => rfl
  · cases e.provisionState with
    | none => rfl
    | some p => rfl
  · rw [shown_state huuid hstate rfl]
    rfl
  · cases e.fault with
    | none => rfl
    | some reason => rfl

/-- After the notifications of one node, its metrics are the last words on each field exactly if no
state and no fault was cleared by a `null`. -/
theorem metrics_mirror_iff [NeZero (1 : F)] (parse : Text → Option (Value F)) (clock : Clock)
    {uuid : Text} {bodies : List Text} {ns : List Notification}
    (h : List.Forall₂ (Notifies parse) bodies ns) (huuid : ∀ n ∈ ns, n.uuid = uuid) :
    Mirrors uuid ns (transform (bodies.foldl (consumeState parse clock) [])) ↔
      NotCleared Notification.powerState ns ∧ NotCleared Notification.provisionState ns ∧
        NotCleared Notification.fault ns := by
  rcases tracks_run clock h huuid (Or.inl ⟨rfl, rfl⟩) with ⟨hns, hs⟩ | ⟨hns, e, hs, he⟩
  · rw [List.nil_append] at hns
    rw [hs, hns]
    refine ⟨fun _ => ⟨?_, ?_, ?_⟩, fun _ => ⟨rfl, rfl, rfl, rfl⟩⟩
    · simp [NotCleared, lastCarried]
    · simp [NotCleared, lastCarried]
    · simp [NotCleared, lastCarried]
  · rw [List.nil_append] at hns he
    obtain ⟨hpower, hprovision, hmaintenance, hfault⟩ := shown_entry he.uuid he.state
    rw [hs, ← lastCarried_join_iff, ← lastCarried_join_iff, ← lastCarried_join_iff, ← he.power,
      ← he.provision, ← he.fault]
    constructor
    · intro hm
      refine ⟨sampleList_injective (hpower.symm.trans hm.power),
        sampleList_injective (hprovision.symm.trans hm.provision), ?_⟩
      have hshown := hfault.symm.trans hm.fault
      rw [if_neg hns] at hshown
      exact faultShown_injective (List.cons.inj hshown).1
    · rintro ⟨hp, hq, hf⟩
      refine ⟨hpower.trans (by rw [hp]), hprovision.trans (by rw [hq]), ?_, ?_⟩
      · rw [hmaintenance, if_neg hns, he.maintenance]
      · rw [hfault, if_neg hns, hf]

end Shown

/-! Two notifications of a node: a fault, and the end of it. -/

def noClock : Clock := ⟨fun _ => none, 0⟩

/-- The inner message with a fault, given as JSON, after a blank. -/
def faultMessage (blank : Char) (fault : Text) : Text :=
  blank :: ("\x7b\"event_type\":\"baremetal.node.update.end\",\"payload\":".toList ++
    "\x7b\"ironic_object.data\":\x7b\"uuid\":\"u\",\"fault\":".toList ++ fault ++
    "\x7d\x7d\x7d".toList)

def envelopeText (blank : Char) (message : Text) : Text :=
  blank :: ("\x7b\"oslo.message\":\"".toList ++
    message.flatMap (fun c => if c = '"' then ['\\', '"'] else [c]) ++ "\"\x7d".toList)

def faultDocument (fault : Value ℤ) : Value ℤ :=
  .obj [("event_type".toList, .str "baremetal.node.update.end".toList),
    ("payload".toList, .obj [("ironic_object.data".toList,
      .obj [("uuid".toList, .str "u".toList), ("fault".toList, fault)])])]

def envelope (message : Text) : Value ℤ := .obj [("oslo.message".toList, .str message)]

def setText : Text := faultMessage ' ' "\"x\"".toList

def clearText : Text := faultMessage '\t' "null".toList

/-- The documents of the two messages and of their envelopes. -/
def faultParse (t : Text) : Option (Value ℤ) :=
  if t = envelopeText '\n' setText then some (envelope setText)
  else if t = envelopeText '\r' clearText then some (envelope clearText)
  else if t = setText then some (faultDocument (.str "x".toList))
  else if t = clearText then some (faultDocument .null)
  else none

def faultNotification (fault : Option Text) : Notification :=
  ⟨"baremetal.node.update.end".toList, "u".toList, none, none, none, some fault⟩

theorem faultParse_eq :
    faultParse (envelopeText '\n' setText) = some (envelope setText) ∧
      faultParse (envelopeText '\r' clearText) = some (envelope clearText) ∧
      faultParse setText = some (faultDocument (.str "x".toList)) ∧
      faultParse clearText = some (faultDocument .null) := by
  have hblank {a b : Char} {s t : Text} (h : a ≠ b) : a :: s ≠ b :: t :=
    fun heq => h (List.cons.inj heq).1
  refine ⟨if_pos rfl, ?_, ?_, ?_⟩
  · exact (if_neg (hblank (by decide))).trans (if_pos rfl)
  · exact (if_neg (hblank (by decide))).trans ((if_neg (hblank (by decide))).trans (if_pos rfl))
  · exact (if_neg (hblank (by decide))).trans ((if_neg (hblank (by decide))).trans
      ((if_neg (hblank (by decide))).trans (if_pos rfl)))

theorem notifies_fault {blank : Char} {message : Text} {value : Value ℤ}
    {carried : Option Text} (hbody : faultParse (envelopeText blank message) = some (envelope message))
    (hmessage : faultParse message = some (faultDocument value))
    (hvalue : value = ofPointer .str carried) :
    Notifies faultParse (envelopeText blank message) (faultNotification carried) where
  decoded := ⟨_, message, _, _, _, hbody, rfl, rfl, hmessage, rfl, rfl, rfl, rfl, rfl, rfl, rfl, rfl,
    rfl, rfl, by rw [hvalue]; rfl⟩
  event := (by decide : isNodeStateEvent "baremetal.node.update.end".toList = true)

theorem notifies_set :
    Notifies faultParse (envelopeText '\n' setText) (faultNotification (some "x".toList)) :=
  notifies_fault faultParse_eq.1 faultParse_eq.2.2.1 rfl

theorem notifies_clear :
    Notifies faultParse (envelopeText '\r' clearText) (faultNotification none) :=
  notifies_fault faultParse_eq.2.1 faultParse_eq.2.2.2 rfl

theorem metrics_mirror_iff_set :
    Mirrors "u".toList [faultNotification none, faultNotification (some "x".toList)]
      (transform ([envelopeText '\r' clearText, envelopeText '\n' setText].foldl
        (consumeState faultParse noClock) [])) := by
  refine (metrics_mirror_iff faultParse noClock (.cons notifies_clear (.cons notifies_set .nil))
    ?_).mpr ⟨?_, ?_, ?_⟩
  · intro n hn
    rcases List.mem_pair.mp hn with rfl | rfl
    · rfl
    · rfl
  · exact fun h => absurd h (by decide)
  · exact fun h => absurd h (by decide)
  · exact fun h => absurd h (by decide)

/-- The fault of the first notification is still shown after the second took it back. -/
theorem fault_not_cleared :
    Notifies faultParse (envelopeText '\n' setText) (faultNotification (some "x".toList)) ∧
      Notifies faultParse (envelopeText '\r' clearText) (faultNotification none) ∧
      ¬Mirrors "u".toList [faultNotification (some "x".toList), faultNotification none]
        (transform ([envelopeText '\n' setText, envelopeText '\r' clearText].foldl
          (consumeState faultParse noClock) [])) := by
  refine ⟨notifies_set, notifies_clear, fun h => ?_⟩
  have huuid : ∀ n ∈ [faultNotification (some "x".toList), faultNotification none],
      n.uuid = "u".toList := by
    intro n hn
    rcases List.mem_pair.mp hn with rfl | rfl
    · rfl
    · rfl
  obtain ⟨hns, -⟩ | ⟨-, e, hs, he⟩ := tracks_run noClock
    (.cons notifies_set (.cons notifies_clear .nil)) huuid (Or.inl ⟨rfl, rfl⟩)
  · cases hns
  · have hfault := h.fault
    rw [hs, (shown_entry he.uuid he.state).2.2.2, he.fault] at hfault
    exact absurd hfault (by decide)

end Understack.Exporter
