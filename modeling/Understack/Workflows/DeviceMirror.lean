import Understack.Workflows.NautobotDevices
import Mathlib.Data.List.Nodup

/-! The node sync of a device that is already there: when the device says what the node says, and a
second run finds nothing to do. -/
namespace Understack.Workflows.Devices
open PyText KeyedTable Interfaces Netdev

section Switches

variable {switches : Text → SwitchAnswer}

def SwitchAnswer.place? : SwitchAnswer → Option Place
  | .placed place => some place
  | .nowhere => none
  | .several => none

/-- A name under which Nautobot has several devices. -/
def SwitchAnswer.isSeveral : SwitchAnswer → Bool
  | .several => true
  | .placed _ => false
  | .nowhere => false

def switchPlace (switches : Text → SwitchAnswer) (name : Text) : Option Place :=
  (switches name).place?

/-- The places of the switches that the ports are connected to. -/
def connectedPlaces (switches : Text → SwitchAnswer) (ports : List (Option Text)) : List Place :=
  (ports.filterMap switchName).filterMap (switchPlace switches)

/-- Some name is ambiguous, and the lookup of the switches ends in an error. -/
def Ambiguous (switches : Text → SwitchAnswer) (ports : List (Option Text)) : Prop :=
  ∃ name ∈ ports.filterMap switchName, (switches name).isSeveral = true

instance (switches : Text → SwitchAnswer) (ports : List (Option Text)) :
    Decidable (Ambiguous switches ports) :=
  inferInstanceAs (Decidable (∃ name ∈ ports.filterMap switchName,
    (switches name).isSeveral = true))

variable {port : Option Text} {ports : List (Option Text)} {name : Text}

theorem ambiguous_cons (h : switchName port = some name) :
    Ambiguous switches (port :: ports) ↔
      (switches name).isSeveral = true ∨ Ambiguous switches ports := by
  simp only [Ambiguous, List.filterMap_cons_some h, List.exists_mem_cons_iff]

theorem ambiguous_cons_none (h : switchName port = none) :
    Ambiguous switches (port :: ports) ↔ Ambiguous switches ports := by
  simp only [Ambiguous, List.filterMap_cons_none h]

theorem switchLocations_ambiguous {k : ℕ} (h : Ambiguous switches ports) :
    switchLocations switches (fun _ => none) k ports = .error .permanent := by
  induction ports generalizing k with
  | nil =>
    obtain ⟨name, hname, -⟩ := h
    cases hname
  | cons port ports ih =>
    unfold switchLocations
    cases hname : switchName port with
    | none =>
      rw [ambiguous_cons_none hname] at h
      exact ih h
    | some name =>
      rw [ambiguous_cons hname] at h
      cases hans : switches name with
      | several => simp only [hans]
      | nowhere =>
        rw [hans] at h
        simp only [hans]
        exact ih (h.resolve_left Bool.false_ne_true)
      | placed place =>
        rw [hans] at h
        simp only [hans, ih (h.resolve_left Bool.false_ne_true)]
        rfl

theorem switchLocations_places {k : ℕ} (h : ¬Ambiguous switches ports) :
    switchLocations switches (fun _ => none) k ports = .ok (connectedPlaces switches ports) := by
  induction ports generalizing k with
  | nil => rfl
  | cons port ports ih =>
    unfold switchLocations connectedPlaces
    cases hname : switchName port with
    | none =>
      rw [ambiguous_cons_none hname] at h
      rw [List.filterMap_cons_none hname]
      exact ih h
    | some name =>
      rw [ambiguous_cons hname, not_or] at h
      rw [List.filterMap_cons_some hname]
      cases hans : switches name with
      | several =>
        rw [hans] at h
        exact absurd rfl h.1
      | nowhere =>
        have hplace : switchPlace switches name = none := by
          rw [switchPlace, hans]
          rfl
        rw [List.filterMap_cons_none hplace]
        simp only [hans]
        exact ih h.2
      | placed place =>
        have hplace : switchPlace switches name = some place := by
          rw [switchPlace, hans]
          rfl
        rw [List.filterMap_cons_some hplace]
        simp only [hans, ih h.2]
        rfl

/-- A failing call that is retried ends the loop, as one does that is not; where no call fails that
is needed, the faults do not matter. -/
theorem switchLocations_cases (switches : Text → SwitchAnswer) (fault : ℕ → Option Fault) (k : ℕ)
    (ports : List (Option Text)) :
    switchLocations switches fault k ports = .error .transient ∨
      (switchLocations switches fault k ports = .error .permanent ∧
        ∃ j, fault j = some .permanent) ∨
      switchLocations switches fault k ports =
        switchLocations switches (fun _ => none) k ports := by
  induction ports generalizing k with
  | nil => exact Or.inr (Or.inr rfl)
  | cons port ports ih =>
    unfold switchLocations
    cases hname : switchName port with
    | none => exact ih (k + 1)
    | some name =>
      cases hfault : fault k with
      | some e =>
        cases e with
        | transient => exact Or.inl rfl
        | permanent => exact Or.inr (Or.inl ⟨rfl, k, hfault⟩)
      | none =>
        cases hans : switches name with
        | several =>
          right
          right
          simp only [hans]
        | nowhere =>
          simp only [hans]
          exact ih (k + 1)
        | placed place =>
          simp only [hans]
          rcases ih (k + 1) with h | ⟨h, hj⟩ | h
          · left
            rw [h]
            rfl
          · right
            left
            rw [h]
            exact ⟨rfl, hj⟩
          · right
            right
            rw [h]

/-- All the switches that have a place have the same. -/
def OneRack (switches : Text → SwitchAnswer) (ports : List (Option Text)) : Prop :=
  Ambiguous switches ports ∨
    ∀ p ∈ connectedPlaces switches ports, ∀ q ∈ connectedPlaces switches ports, p = q

/-- The place that the sync chooses where no call fails. -/
def chosenPlace (switches : Text → SwitchAnswer) (pick : ℕ) (ports : List (Option Text)) :
    Option Place :=
  if Ambiguous switches ports then none else firstLocation pick (connectedPlaces switches ports)

theorem firstLocation_eq_some_iff {l : List Place} (h : ∀ p ∈ l, ∀ q ∈ l, p = q) {pick : ℕ}
    {p : Place} : firstLocation pick l = some p ↔ p ∈ l := by
  constructor
  · exact mem_of_firstLocation
  · intro hp
    have hpos : 0 < l.dedup.length := List.length_pos_of_mem (List.mem_dedup.mpr hp)
    have hlt : pick % l.dedup.length < l.dedup.length := Nat.mod_lt _ hpos
    have hsome : firstLocation pick l = some l.dedup[pick % l.dedup.length] :=
      List.getElem?_eq_getElem hlt
    rw [hsome, h _ (mem_of_firstLocation hsome) p hp]

theorem exists_firstLocation {l : List Place} {p : Place} (h : p ∈ l) :
    ∃ pick, firstLocation pick l = some p := by
  obtain ⟨k, hk, hp⟩ := List.getElem_of_mem (List.mem_dedup.mpr h)
  refine ⟨k, ?_⟩
  unfold firstLocation
  rw [Nat.mod_eq_of_lt hk, List.getElem?_eq_getElem hk, hp]

theorem ambiguous_perm {ports' : List (Option Text)} (h : ports'.Perm ports) :
    Ambiguous switches ports' ↔ Ambiguous switches ports := by
  have hmem := fun name => (h.filterMap switchName).mem_iff (a := name)
  simp only [Ambiguous, hmem]

theorem mem_connectedPlaces_perm {ports' : List (Option Text)} (h : ports'.Perm ports)
    {p : Place} : p ∈ connectedPlaces switches ports' ↔ p ∈ connectedPlaces switches ports :=
  ((h.filterMap switchName).filterMap _).mem_iff

/-- Where there is one rack, neither the order of the ports nor that of the set matters. -/
theorem OneRack.chosenPlace_eq (h : OneRack switches ports) {ports' : List (Option Text)}
    (hp : ports'.Perm ports) (pick pick' : ℕ) :
    chosenPlace switches pick' ports' = chosenPlace switches pick ports := by
  unfold chosenPlace
  by_cases ha : Ambiguous switches ports
  · rw [if_pos ha, if_pos ((ambiguous_perm hp).mpr ha)]
  · have hone := h.resolve_left ha
    have hone' : ∀ p ∈ connectedPlaces switches ports', ∀ q ∈ connectedPlaces switches ports',
        p = q := fun p hpm q hqm => hone p ((mem_connectedPlaces_perm hp).mp hpm) q
          ((mem_connectedPlaces_perm hp).mp hqm)
    rw [if_neg ha, if_neg (mt (ambiguous_perm hp).mp ha)]
    apply Option.ext
    intro p
    rw [firstLocation_eq_some_iff hone', firstLocation_eq_some_iff hone,
      mem_connectedPlaces_perm hp]

/-- Where there are several, the order of the set matters. -/
theorem oneRack_of_chosenPlace_eq
    (h : ∀ pick pick', chosenPlace switches pick' ports = chosenPlace switches pick ports) :
    OneRack switches ports := by
  by_cases ha : Ambiguous switches ports
  · exact Or.inl ha
  · right
    intro p hp q hq
    obtain ⟨k, hk⟩ := exists_firstLocation hp
    obtain ⟨k', hk'⟩ := exists_firstLocation hq
    have heq := h k' k
    rw [chosenPlace, chosenPlace, if_neg ha, if_neg ha, hk, hk'] at heq
    exact Option.some.inj heq

end Switches

/-! An update that is made twice. -/
section Idempotence

variable {info : DeviceInfo} {device : Device}

theorem nonempty_textOrNone (v : Scalar) : nonempty (textOrNone v) = textOrNone v := by
  cases v with
  | null => rfl
  | int z =>
    simp only [textOrNone]
    split_ifs
    · rfl
    · exact Option.filter_some_pos (by simpa using ofInt_ne_nil z)
  | str s =>
    simp only [textOrNone]
    split_ifs with hs
    · rfl
    · exact Option.filter_some_pos (by simpa using hs)

/-- The custom field says afterwards what the node says. -/
theorem updatedDevice_externalCmdbId (hfields : info.customFields = [])
    (hcmdb : nonempty info.externalCmdbId = info.externalCmdbId) :
    (updatedDevice info device).externalCmdbId = info.externalCmdbId := by
  show nonempty ((updatedCustomFields info device).lookup cmdbKey).join = info.externalCmdbId
  rw [updatedCustomFields, hfields, List.foldl_nil]
  split_ifs with heq
  · exact heq.symm
  · rw [PyDict.lookup_put_self]
    exact hcmdb

theorem getD_getD {α : Type} (o : Option α) (a : α) : o.getD (o.getD a) = o.getD a := by
  cases o <;> rfl

theorem or_or {α : Type} (o o' : Option α) : o.or (o.or o') = o.or o' := by
  cases o <;> rfl

/-- A second update that knows no more of the place changes nothing. -/
theorem updatedDevice_again {l r : Option Id} (hfields : info.customFields = [])
    (hcmdb : nonempty info.externalCmdbId = info.externalCmdbId)
    (hl : ∀ o, l.or (info.locationId.or o) = info.locationId.or o)
    (hr : ∀ o, r.or (info.rackId.or o) = info.rackId.or o) :
    updatedDevice { info with locationId := l, rackId := r } (updatedDevice info device) =
      updatedDevice info device := by
  have hcustom : updatedCustomFields { info with locationId := l, rackId := r }
      (updatedDevice info device) = (updatedDevice info device).customFields := by
    rw [updatedCustomFields, hfields, List.foldl_nil,
      if_pos (updatedDevice_externalCmdbId hfields hcmdb).symm]
  have hface : (if info.position.isSome then some (info.face.getD .front)
      else (updatedDevice info device).face) = (updatedDevice info device).face := by
    split_ifs with hposition
    · exact (if_pos hposition).symm
    · rfl
  rw [updatedDevice, hcustom, hface]
  simp only [updatedDevice, getD_getD, or_or, hl, hr]

end Idempotence

section Steady

variable (C : Casing) (parseUuid : Text → Option Id) (uuid : Text)

/-- An attempt and a run in which no call fails. -/
def calmAttempt (data : IronicData) (switches : Text → SwitchAnswer) (pick : ℕ) : Attempt :=
  ⟨data, switches, pick, .none⟩

def calmRun (data : IronicData) (switches : Text → SwitchAnswer) (pick : ℕ) : Run :=
  ⟨List.replicate retryAttempts (calmAttempt data switches pick), List.length_replicate⟩

/-- All attempts meet the same node and the same switches. Calls may fail. -/
def Steady (data : IronicData) (switches : Text → SwitchAnswer) (run : Run) : Prop :=
  ∀ a ∈ run.1, a.data = data ∧ a.switches = switches

/-- The lookup of a switch fails only in ways that are retried; the sync does not see others. -/
def LookupsRetried (run : Run) : Prop := ∀ a ∈ run.1, ∀ k, a.faults.switch k ≠ some .permanent

theorem calmRun_steady (data : IronicData) (switches : Text → SwitchAnswer) (pick : ℕ) :
    Steady data switches (calmRun data switches pick) := by
  intro a ha
  rw [List.eq_of_mem_replicate ha]
  exact ⟨rfl, rfl⟩

theorem calmRun_lookupsRetried (data : IronicData) (switches : Text → SwitchAnswer) (pick : ℕ) :
    LookupsRetried (calmRun data switches pick) := by
  intro a ha k
  rw [List.eq_of_mem_replicate ha]
  exact Option.some_ne_none _ ∘ Eq.symm

def DeviceInfo.withPlace (info : DeviceInfo) : Option Place → DeviceInfo
  | none => info
  | some place => { info with locationId := some place.location, rackId := some place.rack }

/-- The place that an attempt goes on with: the chosen one, or none if a lookup failed and the
error was not seen. -/
def Attempt.Finds (a : Attempt) (place : Option Place) : Prop :=
  place = chosenPlace a.switches a.pick a.data.ports ∨
    (place = none ∧ ∃ k, a.faults.switch k = some .permanent)

variable {C parseUuid uuid} {data : IronicData} {switches : Text → SwitchAnswer} {pick : ℕ}
  {info : DeviceInfo} {device : Device} {n : Nautobot} {a : Attempt}

theorem setLocationFromSwitches_calm (ports : List (Option Text)) :
    setLocationFromSwitches switches (fun _ => none) pick ports info =
      .ok (info.withPlace (chosenPlace switches pick ports)) := by
  unfold setLocationFromSwitches chosenPlace
  by_cases ha : Ambiguous switches ports
  · rw [switchLocations_ambiguous ha, if_pos ha]
    rfl
  · rw [switchLocations_places ha, if_neg ha]
    cases hp : firstLocation pick (connectedPlaces switches ports) with
    | none =>
      simp only [hp]
      rfl
    | some place =>
      simp only [hp]
      rfl

theorem fetchNodeDetails_calm (h : describe C parseUuid uuid data = some info) :
    fetchNodeDetails C parseUuid uuid (calmAttempt data switches pick) =
      .ok (info.withPlace (chosenPlace switches pick data.ports)) := by
  simp only [fetchNodeDetails, calmAttempt, h, Faults.none, setLocationFromSwitches_calm]

theorem fetchNodeDetails_finds (h : describe C parseUuid uuid a.data = some info) :
    (∃ e, fetchNodeDetails C parseUuid uuid a = .error e) ∨
      ∃ place, a.Finds place ∧
        fetchNodeDetails C parseUuid uuid a = .ok (info.withPlace place) := by
  simp only [fetchNodeDetails, h]
  rcases switchLocations_cases a.switches a.faults.switch 0 a.data.ports with hl | ⟨hl, hfault⟩ | hl
  · left
    simp only [setLocationFromSwitches, hl]
    exact ⟨_, rfl⟩
  · right
    refine ⟨none, Or.inr ⟨rfl, hfault⟩, ?_⟩
    simp only [setLocationFromSwitches, hl]
    rfl
  · right
    refine ⟨_, Or.inl rfl, ?_⟩
    rw [← setLocationFromSwitches_calm]
    simp only [setLocationFromSwitches, hl]

/-- Nothing but the place differs. -/
theorem withPlace_eq (info : DeviceInfo) (place : Option Place) :
    ∃ l r, info.withPlace place = { info with locationId := l, rackId := r } := by
  cases place with
  | none => exact ⟨info.locationId, info.rackId, rfl⟩
  | some p => exact ⟨some p.location, some p.rack, rfl⟩

theorem updateNautobotDevice_cases (f : Faults) (info : DeviceInfo) (hd : device ∈ n.table.rows) :
    (∃ e, updateNautobotDevice f info device n = (.error e, n)) ∨
      ∃ n', updateNautobotDevice f info device n = (.ok (), n') ∧
        updatedDevice info device ∈ n'.table.rows ∧
        (updatedDevice info device = device → n' = n) := by
  by_cases hsame : updatedDevice info device = device
  · right
    refine ⟨n, ?_, ?_, fun _ => rfl⟩
    · rw [updateNautobotDevice, if_pos hsame]
    · rw [hsame]
      exact hd
  · cases hsave : f.save with
    | some e =>
      left
      refine ⟨e, ?_⟩
      simp only [updateNautobotDevice, if_neg hsame, hsave]
    | none =>
      right
      obtain ⟨t, heq, hrow⟩ := updateNautobotDevice_saved hd hsave hsame
      exact ⟨_, heq, hrow, fun hcon => absurd hcon hsame⟩

/-- An attempt on a device that is there changes nothing or updates the device. -/
theorem attemptSync_found (h : describe C parseUuid uuid a.data = some info)
    (hd : device ∈ n.table.rows) (hid : device.id = uuid) :
    (∃ e, attemptSync C parseUuid uuid a n = (.error e, n)) ∨
      ∃ place n', a.Finds place ∧ attemptSync C parseUuid uuid a n = (.ok (), n') ∧
        updatedDevice (info.withPlace place) device ∈ n'.table.rows ∧
        (updatedDevice (info.withPlace place) device = device → n' = n) := by
  unfold attemptSync
  rcases fetchNodeDetails_finds h with ⟨e, hf⟩ | ⟨place, hfinds, hf⟩
  · left
    rw [hf]
    exact ⟨e, rfl⟩
  · rw [hf]
    have hget : n.table.get (info.withPlace place).uuid = some device := by
      obtain ⟨l, r, hplace⟩ := withPlace_eq info place
      obtain ⟨status, manufacturer, -, -, hdesc⟩ := describe_eq h
      rw [hplace, hdesc]
      exact Table.get_eq_some_iff.mpr ⟨hd, hid⟩
    cases hgetId : a.faults.getId with
    | some e =>
      left
      simp only [findOrCreateNautobotDevice, hgetId]
      exact ⟨e, rfl⟩
    | none =>
      simp only [findOrCreateNautobotDevice, hgetId, hget]
      rcases updateNautobotDevice_cases a.faults (info.withPlace place) hd with
        herror | ⟨n', hok, hrow, hsame⟩
      · exact Or.inl herror
      · exact Or.inr ⟨place, n', hfinds, hok, hrow, hsame⟩

/-- So do the attempts of a run, of which the last one counts. -/
theorem retrySync_found {attempts : List Attempt}
    (h : ∀ a ∈ attempts, describe C parseUuid uuid a.data = some info)
    (hd : device ∈ n.table.rows) (hid : device.id = uuid) :
    ((retrySync C parseUuid uuid attempts n).1 ≠ .success ∧
      (retrySync C parseUuid uuid attempts n).2 = n) ∨
    ∃ a ∈ attempts, ∃ place n', a.Finds place ∧
      retrySync C parseUuid uuid attempts n = (.success, n') ∧
      updatedDevice (info.withPlace place) device ∈ n'.table.rows ∧
      (updatedDevice (info.withPlace place) device = device → n' = n) := by
  induction attempts with
  | nil =>
    left
    constructor
    · intro hcon
      cases hcon
    · rfl
  | cons a attempts ih =>
    obtain ⟨ha, hattempts⟩ := List.forall_mem_cons.mp h
    unfold retrySync
    rcases attemptSync_found ha hd hid with ⟨e, hattempt⟩ | ⟨place, n', hfinds, hattempt, hrest⟩
    · rw [hattempt]
      cases e with
      | permanent =>
        left
        constructor
        · intro hcon
          cases hcon
        · rfl
      | transient =>
        rcases ih hattempts with hleft | ⟨b, hb, hright⟩
        · exact Or.inl hleft
        · exact Or.inr ⟨b, List.mem_cons_of_mem a hb, hright⟩
    · rw [hattempt]
      exact Or.inr ⟨a, List.mem_cons_self, place, n', hfinds, rfl, hrest⟩

theorem described_of_success {run : Run} (hsteady : Steady data switches run)
    (h : (syncDeviceToNautobot C parseUuid uuid run n).1 = .success) :
    uuid ≠ [] ∧ ∃ info, describe C parseUuid uuid data = some info := by
  unfold syncDeviceToNautobot at h
  split_ifs at h with huuid
  refine ⟨huuid, ?_⟩
  cases hdesc : describe C parseUuid uuid data with
  | some info => exact ⟨info, rfl⟩
  | none =>
    obtain ⟨attempts, hlength⟩ := run
    cases attempts with
    | nil => cases hlength
    | cons a attempts =>
      have hdata := (hsteady a List.mem_cons_self).1
      have hattempt : attemptSync C parseUuid uuid a n = (.error .permanent, n) := by
        simp only [attemptSync, fetchNodeDetails, hdata, hdesc]
      simp only [retrySync, hattempt] at h
      cases h

/-- Once the device has been updated for a place, an update for the same place, or for none, finds
nothing to do. -/
theorem updatedDevice_withPlace_again {place place' : Option Place}
    (h : describe C parseUuid uuid data = some info) (hp : place' = place ∨ place' = none) :
    updatedDevice (info.withPlace place') (updatedDevice (info.withPlace place) device) =
      updatedDevice (info.withPlace place) device := by
  obtain ⟨l, r, hplace⟩ := withPlace_eq info place
  obtain ⟨status, manufacturer, -, -, hinfo⟩ := describe_eq h
  have hfields : (info.withPlace place).customFields = [] := by
    rw [hplace, hinfo]
    rfl
  have hcmdb : nonempty (info.withPlace place).externalCmdbId =
      (info.withPlace place).externalCmdbId := by
    rw [hplace, hinfo]
    exact nonempty_textOrNone _
  rcases hp with rfl | rfl
  · exact updatedDevice_again hfields hcmdb (or_or _) (or_or _)
  · have hnone : info.withPlace none =
        { info.withPlace place with locationId := none, rackId := none } := by
      rw [hplace, hinfo]
      rfl
    rw [hnone]
    exact updatedDevice_again hfields hcmdb (fun _ => Option.none_or) (fun _ => Option.none_or)

end Steady

section Mirror

variable (C : Casing) (parseUuid : Text → Option Id) (uuid : Text) (data : IronicData)
  (switches : Text → SwitchAnswer)

/-- The CMDB id that a node has; only null and the empty text are none. -/
def cmdbIdText : Scalar → Option Text
  | .null => none
  | .int z => some (ofInt z)
  | .str s => if s = [] then none else some s

/-- The device says what the node and its inventory say. -/
structure MirrorsNode (device : Device) : Prop where
  status : ∀ status, translateToNautobot data.node.provisionState = some (some status) →
    device.status = status
  name : ∀ manufacturer name, vendorManufacturer C data.systemVendor = some manufacturer →
    generatedName manufacturer (nonempty data.systemVendor.serialNumber) = some name →
      device.name = name
  serial : ∀ serial, nonempty data.systemVendor.serialNumber = some serial →
    device.serial = serial
  externalCmdbId : device.externalCmdbId = cmdbIdText data.node.externalCmdbId
  tenant : ∀ tenant, (nonempty data.node.lessee).bind parseUuid = some tenant →
    device.tenant = some tenant
  noTenant : nonempty data.node.lessee = none → device.tenant = none

/-- The location and rack that the sync determines of the ports in an order. -/
def chosenLocation (pick : ℕ) (ports : List (Option Text)) :
    Except Fault (Option Id × Option Id) :=
  (fetchNodeDetails C parseUuid uuid (calmAttempt { data with ports := ports } switches pick)).map
    fun info => (info.locationId, info.rackId)

/-- Neither the order of the ports nor that of the set matters. -/
def LocationSettled : Prop :=
  ∀ pick pick' ports', ports'.Perm data.ports →
    chosenLocation C parseUuid uuid data switches pick' ports' =
      chosenLocation C parseUuid uuid data switches pick data.ports

variable {C parseUuid uuid data switches} {info : DeviceInfo} {device : Device} {n : Nautobot}
  {pick : ℕ}

theorem chosenLocation_eq (h : describe C parseUuid uuid data = some info)
    (ports : List (Option Text)) :
    chosenLocation C parseUuid uuid data switches pick ports =
      .ok ((chosenPlace switches pick ports).map Place.location,
        (chosenPlace switches pick ports).map Place.rack) := by
  have h' : describe C parseUuid uuid { data with ports := ports } = some info := h
  obtain ⟨status, manufacturer, -, -, hdesc⟩ := describe_eq h
  rw [chosenLocation, fetchNodeDetails_calm h', hdesc]
  cases chosenPlace switches pick ports <;> rfl

theorem map_place_inj {o o' : Option Place}
    (h : (o.map Place.location, o.map Place.rack) = (o'.map Place.location, o'.map Place.rack)) :
    o = o' := by
  obtain ⟨hl, hr⟩ := Prod.mk.inj h
  cases o with
  | none =>
    cases o' with
    | none => rfl
    | some p' => cases hl
  | some p =>
    cases o' with
    | none => cases hl
    | some p' =>
      obtain ⟨l, r⟩ := p
      obtain ⟨l', r'⟩ := p'
      cases hl
      cases hr
      rfl

theorem locationSettled_iff (h : describe C parseUuid uuid data = some info) :
    LocationSettled C parseUuid uuid data switches ↔ OneRack switches data.ports := by
  constructor
  · intro hs
    apply oneRack_of_chosenPlace_eq
    intro pick pick'
    have heq := hs pick pick' data.ports (List.Perm.refl _)
    rw [chosenLocation_eq h, chosenLocation_eq h] at heq
    exact map_place_inj (Except.ok.inj heq)
  · intro hone pick pick' ports' hp
    rw [chosenLocation_eq h, chosenLocation_eq h, hone.chosenPlace_eq hp pick pick']

theorem textOrNone_eq_cmdbIdText_iff (v : Scalar) :
    textOrNone v = cmdbIdText v ↔ v ≠ .int 0 := by
  cases v with
  | null => simp [textOrNone, cmdbIdText]
  | int z =>
    by_cases hz : z = 0
    · simp [textOrNone, cmdbIdText, hz]
    · simp [textOrNone, cmdbIdText, hz]
  | str s => simp [textOrNone, cmdbIdText]

/-- The update mirrors the node unless a tenant has to go or the CMDB id is taken for none. -/
theorem mirrorsNode_iff (h : describe C parseUuid uuid data = some info) (place : Option Place) :
    MirrorsNode C parseUuid data (updatedDevice (info.withPlace place) device) ↔
      (nonempty data.node.lessee ≠ none ∨ device.tenant = none) ∧
        data.node.externalCmdbId ≠ .int 0 := by
  obtain ⟨status, manufacturer, hstatus, hmanufacturer, hdesc⟩ := describe_eq h
  obtain ⟨l, r, hplace⟩ := withPlace_eq info place
  have hcmdb : (updatedDevice (info.withPlace place) device).externalCmdbId =
      textOrNone data.node.externalCmdbId := by
    have hinfo : (info.withPlace place).customFields = [] ∧
        (info.withPlace place).externalCmdbId = textOrNone data.node.externalCmdbId := by
      rw [hplace, hdesc]
      exact ⟨rfl, rfl⟩
    rw [updatedDevice_externalCmdbId hinfo.1 (hinfo.2.symm ▸ nonempty_textOrNone _), hinfo.2]
  have htenant : (updatedDevice (info.withPlace place) device).tenant =
      ((nonempty data.node.lessee).bind parseUuid).or device.tenant := by
    rw [hplace, hdesc]
    rfl
  constructor
  · intro hm
    constructor
    · by_contra hcon
      push Not at hcon
      have hnone := hm.noTenant hcon.1
      rw [htenant, hcon.1] at hnone
      exact hcon.2 hnone
    · rw [← textOrNone_eq_cmdbIdText_iff, ← hcmdb]
      exact hm.externalCmdbId
  · rintro ⟨hlessee, hzero⟩
    refine ⟨?_, ?_, ?_, ?_, ?_, ?_⟩
    · intro st hst
      have hst' : status = some st := Option.some.inj (hstatus.symm.trans hst)
      rw [hplace, hdesc, hst']
      rfl
    · intro m name hm hname
      have hm' : manufacturer = m := Option.some.inj (hmanufacturer.symm.trans hm)
      rw [hplace, hdesc, hm']
      simp only [updatedDevice, hname, Option.getD_some]
    · intro serial hserial
      rw [hplace, hdesc]
      simp only [updatedDevice, hserial, Option.getD_some]
    · rw [hcmdb]
      exact (textOrNone_eq_cmdbIdText_iff _).mpr hzero
    · intro tenant ht
      rw [htenant, ht]
      rfl
    · intro hnone
      rw [htenant, hnone]
      exact hlessee.resolve_left (not_not.mpr hnone)

/-- A successful sync mirrors the node, in a place that no order decides, and has nothing to do a
second time, just if the tenant does not have to be cleared, the CMDB id is not the number zero and
the switches are in one rack. -/
theorem node_sync_mirrors_iff {run : Run} (hd : device ∈ n.table.rows) (hid : device.id = uuid)
    (hsteady : Steady data switches run) (hlookups : LookupsRetried run)
    (h : (syncDeviceToNautobot C parseUuid uuid run n).1 = .success) :
    ((∃ d ∈ (syncDeviceToNautobot C parseUuid uuid run n).2.table.rows,
        d.id = uuid ∧ MirrorsNode C parseUuid data d) ∧
      LocationSettled C parseUuid uuid data switches ∧
      ∀ run', Steady data switches run' →
        (syncDeviceToNautobot C parseUuid uuid run'
          (syncDeviceToNautobot C parseUuid uuid run n).2).2.saves =
        (syncDeviceToNautobot C parseUuid uuid run n).2.saves) ↔
    (nonempty data.node.lessee ≠ none ∨ device.tenant = none) ∧
      data.node.externalCmdbId ≠ .int 0 ∧ OneRack switches data.ports := by
  obtain ⟨huuid, info, hdesc⟩ := described_of_success hsteady h
  have hdescribed : ∀ {run : Run}, Steady data switches run →
      ∀ a ∈ run.1, describe C parseUuid uuid a.data = some info := by
    intro run hrun a ha
    rw [(hrun a ha).1]
    exact hdesc
  simp only [syncDeviceToNautobot, if_neg huuid] at h ⊢
  rcases retrySync_found (hdescribed hsteady) hd hid with
    ⟨hne, -⟩ | ⟨a, ha, place, n', hfinds, hrun, hrow, -⟩
  · exact absurd h hne
  rw [hrun]
  have hplace : place = chosenPlace switches a.pick data.ports := by
    obtain ⟨hdata, hswitches⟩ := hsteady a ha
    rcases hfinds with hchosen | ⟨-, k, hfault⟩
    · rw [hchosen, hdata, hswitches]
    · exact absurd hfault (hlookups a ha k)
  constructor
  · rintro ⟨⟨d, hdmem, hdid, hm⟩, hs, -⟩
    have heq := n'.table.ids d hdmem _ hrow (hdid.trans hid.symm)
    rw [heq, mirrorsNode_iff hdesc] at hm
    exact ⟨hm.1, hm.2, (locationSettled_iff hdesc).mp hs⟩
  · rintro ⟨hlessee, hzero, hone⟩
    refine ⟨⟨_, hrow, hid, (mirrorsNode_iff hdesc _).mpr ⟨hlessee, hzero⟩⟩,
      (locationSettled_iff hdesc).mpr hone, ?_⟩
    intro run' hsteady'
    rcases retrySync_found (hdescribed hsteady') hrow hid with
      ⟨-, hsame⟩ | ⟨b, hb, place', n'', hfinds', hrun', -, hsame⟩
    · rw [hsame]
    · -- the second run knows the same of the place, or nothing
      have hagain : place' = place ∨ place' = none := by
        obtain ⟨hdata, hswitches⟩ := hsteady' b hb
        rcases hfinds' with hchosen | ⟨hnone, -⟩
        · left
          rw [hchosen, hdata, hswitches, hplace]
          exact hone.chosenPlace_eq (List.Perm.refl _) a.pick b.pick
        · exact Or.inr hnone
      rw [hrun', hsame (updatedDevice_withPlace_again hdesc hagain)]

def projectUuid : Text := "12345678-1234-5678-9abc-123456789abc".toList

/-- The parser as it treats this one project. -/
def parseProject (text : Text) : Option Id :=
  if text = projectUuid then some ⟨projectUuid, by decide⟩ else none

/-- A device that has had a tenant. -/
def leasedDevice : Device where
  id := "node".toList
  name := "node".toList
  status := "Planned".toList
  serial := []
  location := none
  rack := none
  position := none
  face := none
  tenant := some ⟨"tenant".toList, by decide⟩
  customFields := []

def leasedNautobot : Nautobot := ⟨⟨[leasedDevice], by decide, by decide⟩, 0⟩

/-- An active node of the given lessee, with two ports on switches of one rack. -/
def rackedNode (lessee : Option Text) : IronicData where
  node := ⟨.null, .null, .null, "active".toList, lessee, .int 7⟩
  systemVendor := ⟨some "Dell Inc.".toList, some "SN1".toList⟩
  ports := [some "sw1".toList, some "sw2".toList]

def oneRack (_ : Text) : SwitchAnswer :=
  .placed ⟨⟨"hall".toList, by decide⟩, ⟨"row 1".toList, by decide⟩⟩

theorem leased_node_mirrored :
    LocationSettled asciiCasing parseProject "node".toList (rackedNode (some projectUuid))
      oneRack ∧
    ∃ d ∈ (syncDeviceToNautobot asciiCasing parseProject "node".toList
        (calmRun (rackedNode (some projectUuid)) oneRack 0) leasedNautobot).2.table.rows,
      d.id = "node".toList ∧
        MirrorsNode asciiCasing parseProject (rackedNode (some projectUuid)) d := by
  have hmem : leasedDevice ∈ leasedNautobot.table.rows := List.mem_cons_self
  have hid : leasedDevice.id = "node".toList := rfl
  have hok : (syncDeviceToNautobot asciiCasing parseProject "node".toList
      (calmRun (rackedNode (some projectUuid)) oneRack 0) leasedNautobot).1 = .success := by
    decide +kernel
  have hall := (node_sync_mirrors_iff hmem hid (calmRun_steady _ _ 0)
    (calmRun_lookupsRetried _ _ 0) hok).mpr
    ⟨Or.inl (by decide +kernel), by decide +kernel, Or.inr (by decide +kernel)⟩
  exact ⟨hall.2.1, hall.1⟩

/-- The lease has ended, but the tenant stays. -/
theorem ended_lease_keeps_tenant :
    (syncDeviceToNautobot asciiCasing parseProject "node".toList
      (calmRun (rackedNode none) oneRack 0) leasedNautobot).1 = .success ∧
    ¬∃ d ∈ (syncDeviceToNautobot asciiCasing parseProject "node".toList
        (calmRun (rackedNode none) oneRack 0) leasedNautobot).2.table.rows,
      d.id = "node".toList ∧ MirrorsNode asciiCasing parseProject (rackedNode none) d := by
  constructor
  · decide +kernel
  · rintro ⟨d, hd, -, hm⟩
    have htenant : ∀ d ∈ (syncDeviceToNautobot asciiCasing parseProject "node".toList
        (calmRun (rackedNode none) oneRack 0) leasedNautobot).2.table.rows, d.tenant ≠ none := by
      decide +kernel
    exact htenant d hd (hm.noTenant rfl)

end Mirror

end Understack.Workflows.Devices
