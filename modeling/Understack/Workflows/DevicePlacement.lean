import Understack.Lib.Runs
import Understack.Workflows.NautobotDevices

/-! Re-enrolment: an old device has the name that the node will get. Whether some run of the sync,
with calls that fail, loses the device or its place in the rack. -/
namespace Understack.Workflows.Devices
open PyText KeyedTable Interfaces Runs

/-- The device that was enrolled before, under another id, and has its place in a rack. -/
structure Reenrolled (uuid : Text) (old : Device) : Prop where
  id : old.id ≠ uuid
  location : old.location.isSome
  rack : old.rack.isSome
  position : old.position.isSome
  face : old.face.isSome

/-- The device stands where the old one stood, or in the rack of a switch it is connected to. -/
structure Placed (old : Device) (connected : Place → Prop) (device : Device) : Prop where
  position : device.position = old.position
  face : device.face = old.face
  place : (device.location = old.location ∧ device.rack = old.rack) ∨
    ∃ p, connected p ∧ device.location = some p.location ∧ device.rack = some p.rack

/-- What the sync knows of the device before it looks for it. -/
structure Fetched (uuid : Text) (old : Device) (connected : Place → Prop) (info : DeviceInfo) :
    Prop where
  uuid : info.uuid = uuid
  name : info.name = some old.name
  position : info.position = none
  face : info.face = none
  place : (info.locationId = none ∧ info.rackId = none) ∨
    ∃ p, connected p ∧ info.locationId = some p.location ∧ info.rackId = some p.rack

section Attempts

variable (C : Casing) (parseUuid : Text → Option Id) (uuid : Text) (old : Device)
  (connected : Place → Prop)

/-- The node has the name of the old device and is connected to these switches. -/
structure Expected (a : Attempt) : Prop where
  name : ∀ info, describe C parseUuid uuid a.data = some info → info.name = some old.name
  switches : ∀ name ∈ a.data.ports.filterMap switchName, ∀ p,
    a.switches name = .placed p → connected p

/-- The attempt deletes the old device. -/
def Deletes (a : Attempt) (n : Nautobot) : Prop :=
  (fetchNodeDetails C parseUuid uuid a).toBool = true ∧ a.faults.getId = none ∧
    n.table.get uuid = none ∧ a.faults.getName = none ∧
    getByName old.name n = .ok (some old) ∧ a.faults.delete = none

/-- After it has deleted the old device the attempt makes and saves the new one. -/
def Replaces (a : Attempt) (n : Nautobot) : Prop :=
  Deletes C parseUuid uuid old a n → a.faults.create = none ∧ a.faults.save = none

/-- Only the old device is there. -/
def OldOnly (n : Nautobot) : Prop := old ∈ n.table.rows ∧ ∀ d ∈ n.table.rows, d.id ≠ uuid

/-- The new device is there, in its place. -/
def NewPlaced (n : Nautobot) : Prop :=
  ∃ d ∈ n.table.rows, d.id = uuid ∧ Placed old connected d

variable {C parseUuid uuid old connected} {a : Attempt} {n : Nautobot} {info : DeviceInfo}
  {device : Device}

theorem fetchNodeDetails_fetched (he : Expected C parseUuid uuid old connected a)
    (h : fetchNodeDetails C parseUuid uuid a = .ok info) : Fetched uuid old connected info := by
  unfold fetchNodeDetails at h
  cases hd : describe C parseUuid uuid a.data with
  | none =>
    rw [hd] at h
    cases h
  | some described =>
    simp only [hd] at h
    have hname := he.name described hd
    obtain ⟨status, manufacturer, -, -, hdesc⟩ := describe_eq hd
    rcases setLocationFromSwitches_eq h with heq | ⟨p, hp, heq⟩
    · rw [heq]
      refine ⟨by rw [hdesc]; rfl, hname, by rw [hdesc]; rfl, by rw [hdesc]; rfl, Or.inl ?_⟩
      rw [hdesc]
      exact ⟨rfl, rfl⟩
    · obtain ⟨name, hmem, hans⟩ := hp
      rw [heq]
      exact ⟨by rw [hdesc]; rfl, hname, by rw [hdesc]; rfl, by rw [hdesc]; rfl,
        Or.inr ⟨p, he.switches name hmem p hans, rfl, rfl⟩⟩

/-- An update that knows no position leaves the device in its place. -/
theorem updatedDevice_placed (hf : Fetched uuid old connected info)
    (hp : Placed old connected device) : Placed old connected (updatedDevice info device) := by
  refine ⟨?_, ?_, ?_⟩
  · show info.position.or device.position = old.position
    rw [hf.position]
    exact hp.position
  · show (if info.position.isSome then some (info.face.getD .front) else device.face) = old.face
    rw [hf.position]
    exact hp.face
  · show (info.locationId.or device.location = old.location ∧
      info.rackId.or device.rack = old.rack) ∨ ∃ p, connected p ∧
        info.locationId.or device.location = some p.location ∧
        info.rackId.or device.rack = some p.rack
    rcases hf.place with ⟨hl, hr⟩ | ⟨p, hp', hl, hr⟩
    · rw [hl, hr]
      exact hp.place
    · rw [hl, hr]
      exact Or.inr ⟨p, hp', rfl, rfl⟩

/-- The new device gets the place of the old one. -/
theorem replacement_placed (hold : Reenrolled uuid old) (hf : Fetched uuid old connected info) :
    Placed old connected (updatedDevice (preserveLocationFromDevice info old)
      (createdDevice (preserveLocationFromDevice info old))) := by
  obtain ⟨position, hposition⟩ := Option.isSome_iff_exists.mp hold.position
  obtain ⟨face, hface⟩ := Option.isSome_iff_exists.mp hold.face
  obtain ⟨rack, hrack⟩ := Option.isSome_iff_exists.mp hold.rack
  obtain ⟨location, hlocation⟩ := Option.isSome_iff_exists.mp hold.location
  refine ⟨?_, ?_, ?_⟩
  · simp [updatedDevice, preserveLocationFromDevice, hposition]
  · simp [updatedDevice, preserveLocationFromDevice, hposition, hface]
  · rcases hf.place with ⟨hl, hr⟩ | ⟨p, hp, hl, hr⟩
    · left
      simp [updatedDevice, preserveLocationFromDevice, hl, hr, hlocation, hrack]
    · right
      refine ⟨p, hp, ?_, ?_⟩
      · simp [updatedDevice, preserveLocationFromDevice, hl]
      · simp [updatedDevice, preserveLocationFromDevice, hr]

theorem updateNautobotDevice_new {f : Faults} (hd : device ∈ n.table.rows)
    (hid : device.id = uuid) (hf : Fetched uuid old connected info)
    (hp : Placed old connected device) :
    NewPlaced uuid old connected (updateNautobotDevice f info device n).2 := by
  have hkept : NewPlaced uuid old connected n := ⟨device, hd, hid, hp⟩
  by_cases hsame : updatedDevice info device = device
  · rw [updateNautobotDevice, if_pos hsame]
    exact hkept
  · cases hsave : f.save with
    | some e =>
      rw [updateNautobotDevice, if_neg hsame]
      simp only [hsave]
      exact hkept
    | none =>
      obtain ⟨t, heq, hrow⟩ := updateNautobotDevice_saved hd hsave hsame
      rw [heq]
      exact ⟨_, hrow, hid, updatedDevice_placed hf hp⟩

/-- Once the new device is there every attempt leaves it in its place. -/
theorem attemptSync_new (he : Expected C parseUuid uuid old connected a)
    (hn : NewPlaced uuid old connected n) :
    NewPlaced uuid old connected (attemptSync C parseUuid uuid a n).2 := by
  obtain ⟨device, hd, hid, hp⟩ := hn
  have hn : NewPlaced uuid old connected n := ⟨device, hd, hid, hp⟩
  unfold attemptSync
  cases hfetch : fetchNodeDetails C parseUuid uuid a with
  | error e => exact hn
  | ok info =>
    have hf := fetchNodeDetails_fetched he hfetch
    have hget : n.table.get info.uuid = some device :=
      Table.get_eq_some_iff.mpr ⟨hd, hid.trans hf.uuid.symm⟩
    simp only [findOrCreateNautobotDevice, hget]
    cases a.faults.getId with
    | some e => exact hn
    | none => exact updateNautobotDevice_new hd hid hf hp

/-- The old device is found by its name, or several devices are. -/
theorem getByName_old (hn : old ∈ n.table.rows) :
    getByName old.name n = .ok (some old) ∨ getByName old.name n = .error .permanent := by
  have hmem : old ∈ n.table.rows.filter (·.name = old.name) := by simpa using hn
  unfold getByName
  cases hl : n.table.rows.filter (·.name = old.name) with
  | nil =>
    rw [hl] at hmem
    cases hmem
  | cons d ds =>
    cases ds with
    | nil =>
      rw [hl] at hmem
      obtain rfl : old = d := by simpa using hmem
      exact Or.inl rfl
    | cons d' ds => exact Or.inr rfl

/-- The attempt that deletes the old device leaves the new one in its place. -/
theorem findOrCreate_replaces {f : Faults} (hold : Reenrolled uuid old)
    (hf : Fetched uuid old connected info) (hn : OldOnly uuid old n)
    (hget : f.getName = none ∧ f.delete = none) (hcreate : f.create = none)
    (hname : getByName old.name n = .ok (some old)) (hid : f.getId = none) :
    ∃ t : Table deviceKeys, findOrCreateNautobotDevice f info n =
        (.ok (preserveLocationFromDevice info old,
          createdDevice (preserveLocationFromDevice info old)), ⟨t, n.saves⟩) ∧
      createdDevice (preserveLocationFromDevice info old) ∈ t.rows := by
  have hmissing : n.table.get info.uuid = none :=
    Table.get_eq_none_iff.mpr fun d hd => hf.uuid.symm ▸ hn.2 d hd
  have hlocation : ∃ l, (preserveLocationFromDevice info old).locationId = some l := by
    rw [← Option.isSome_iff_exists]
    simp [preserveLocationFromDevice, hold.location]
  obtain ⟨l, hl⟩ := hlocation
  have hfree : (n.table.delete old.id).create
      (createdDevice (preserveLocationFromDevice info old)) ≠ none := by
    intro hnone
    obtain ⟨d, hd, hsame⟩ := Table.create_eq_none_iff.mp hnone
    have hdid : d.id = uuid := (or_self_iff.mp hsame).trans hf.uuid
    exact hn.2 d (Table.mem_delete.mp hd).1 hdid
  obtain ⟨t, ht⟩ := Option.ne_none_iff_exists'.mp hfree
  refine ⟨t, ?_, (Table.mem_create ht).mpr (Or.inl rfl)⟩
  simp only [findOrCreateNautobotDevice, hid, hmissing, deleteOldDeviceByName, hf.name, hget.1,
    hname, hget.2, hl, createNautobotDevice, hcreate, ht]

/-- An attempt that does not delete the old device fails and leaves everything as it is. -/
theorem attemptSync_stays (he : Expected C parseUuid uuid old connected a)
    (hn : OldOnly uuid old n) (hnd : ¬Deletes C parseUuid uuid old a n) :
    ∃ e, attemptSync C parseUuid uuid a n = (.error e, n) := by
  cases hfetch : fetchNodeDetails C parseUuid uuid a with
  | error e => exact ⟨e, by simp only [attemptSync, hfetch]⟩
  | ok info =>
    have hf := fetchNodeDetails_fetched he hfetch
    have hmissing : n.table.get info.uuid = none :=
      Table.get_eq_none_iff.mpr fun d hd => hf.uuid.symm ▸ hn.2 d hd
    cases hid : a.faults.getId with
    | some e => exact ⟨e, by simp only [attemptSync, hfetch, findOrCreateNautobotDevice, hid]⟩
    | none =>
      cases hgn : a.faults.getName with
      | some e =>
        refine ⟨e, ?_⟩
        simp only [attemptSync, hfetch, findOrCreateNautobotDevice, hid, hmissing,
          deleteOldDeviceByName, hf.name, hgn]
      | none =>
        rcases getByName_old hn.1 with hname | hname
        · cases hdel : a.faults.delete with
          | some e =>
            refine ⟨e, ?_⟩
            simp only [attemptSync, hfetch, findOrCreateNautobotDevice, hid, hmissing,
              deleteOldDeviceByName, hf.name, hgn, hname, hdel]
          | none =>
            exact absurd ⟨by rw [hfetch]; rfl, hid, hf.uuid ▸ hmissing, hgn, hname, hdel⟩ hnd
        · refine ⟨.permanent, ?_⟩
          simp only [attemptSync, hfetch, findOrCreateNautobotDevice, hid, hmissing,
            deleteOldDeviceByName, hf.name, hgn, hname]

/-- An attempt that deletes the old device puts the new one in its place if the two calls after
the deletion do not fail. -/
theorem attemptSync_replaces (hold : Reenrolled uuid old)
    (he : Expected C parseUuid uuid old connected a) (hn : OldOnly uuid old n)
    (hd : Deletes C parseUuid uuid old a n) (hcreate : a.faults.create = none)
    (hsave : a.faults.save = none) :
    NewPlaced uuid old connected (attemptSync C parseUuid uuid a n).2 := by
  obtain ⟨hok, hid, -, hgn, hname, hdel⟩ := hd
  cases hfetch : fetchNodeDetails C parseUuid uuid a with
  | error e =>
    rw [hfetch] at hok
    cases hok
  | ok info =>
    have hf := fetchNodeDetails_fetched he hfetch
    obtain ⟨t, hfound, hrow⟩ := findOrCreate_replaces hold hf hn ⟨hgn, hdel⟩ hcreate hname hid
    have hplaced := replacement_placed hold hf
    -- the position differs, so there is something to save
    have hne : updatedDevice (preserveLocationFromDevice info old)
        (createdDevice (preserveLocationFromDevice info old)) ≠
          createdDevice (preserveLocationFromDevice info old) := by
      intro heq
      have hposition := hplaced.position
      rw [heq] at hposition
      have hsome := hold.position
      rw [← hposition] at hsome
      cases hsome
    obtain ⟨t', hupdate, hrow'⟩ :=
      updateNautobotDevice_saved (n := ⟨t, n.saves⟩) hrow hsave hne
    simp only [attemptSync, hfetch, hfound, hupdate]
    exact ⟨_, hrow', hf.uuid, hplaced⟩

/-- Every attempt that a run makes meets the condition in the state it finds. -/
def AttemptsMeet (C : Casing) (parseUuid : Text → Option Id) (uuid : Text)
    (ok : Attempt → Nautobot → Prop) : List Attempt → Nautobot → Prop
  | [], _ => True
  | a :: attempts, n => ok a n ∧ ((attemptSync C parseUuid uuid a n).1 = .error .transient →
      AttemptsMeet C parseUuid uuid ok attempts (attemptSync C parseUuid uuid a n).2)

theorem retrySync_new {attempts : List Attempt}
    (h : AttemptsMeet C parseUuid uuid
      (fun a n => Expected C parseUuid uuid old connected a ∧ Replaces C parseUuid uuid old a n)
      attempts n)
    (hn : NewPlaced uuid old connected n) :
    NewPlaced uuid old connected (retrySync C parseUuid uuid attempts n).2 := by
  induction attempts generalizing n with
  | nil => exact hn
  | cons a attempts ih =>
    have hstep := attemptSync_new h.1.1 hn
    have hmore := h.2
    unfold retrySync
    generalize attemptSync C parseUuid uuid a n = result at hstep hmore ⊢
    obtain ⟨outcome, n'⟩ := result
    cases outcome with
    | ok u => exact hstep
    | error e =>
      cases e with
      | permanent => exact hstep
      | transient => exact ih (hmore rfl) hstep

/-- A run that finds only the old device leaves it alone and does not succeed, or puts the new one
in its place. -/
theorem retrySync_old (hold : Reenrolled uuid old) {attempts : List Attempt}
    (h : AttemptsMeet C parseUuid uuid
      (fun a n => Expected C parseUuid uuid old connected a ∧ Replaces C parseUuid uuid old a n)
      attempts n)
    (hn : OldOnly uuid old n) :
    (OldOnly uuid old (retrySync C parseUuid uuid attempts n).2 ∧
      (retrySync C parseUuid uuid attempts n).1 ≠ .success) ∨
    NewPlaced uuid old connected (retrySync C parseUuid uuid attempts n).2 := by
  induction attempts generalizing n with
  | nil => exact Or.inl ⟨hn, fun heq => by cases heq⟩
  | cons a attempts ih =>
    obtain ⟨⟨he, hr⟩, hmore⟩ := h
    by_cases hd : Deletes C parseUuid uuid old a n
    · obtain ⟨hcreate, hsave⟩ := hr hd
      have hstep := attemptSync_replaces hold he hn hd hcreate hsave
      right
      unfold retrySync
      generalize attemptSync C parseUuid uuid a n = result at hstep hmore ⊢
      obtain ⟨outcome, n'⟩ := result
      cases outcome with
      | ok u => exact hstep
      | error e =>
        cases e with
        | permanent => exact hstep
        | transient => exact retrySync_new (hmore rfl) hstep
    · obtain ⟨e, heq⟩ := attemptSync_stays he hn hd
      rw [heq] at hmore
      unfold retrySync
      rw [heq]
      cases e with
      | permanent => exact Or.inl ⟨hn, fun heq => by cases heq⟩
      | transient => exact ih (hmore rfl) hn

end Attempts

section Runs

variable (C : Casing) (parseUuid : Text → Option Id) (uuid : Text)

/-- Nautobot after some runs, and whether one of them has succeeded. -/
structure Progress where
  nautobot : Nautobot
  succeeded : Bool

def runStep (s : Progress) (run : Run) : Progress :=
  let result := syncDeviceToNautobot C parseUuid uuid run s.nautobot
  ⟨result.2, s.succeeded || decide (result.1 = .success)⟩

/-- Only the old device is there and no run has succeeded, or the new device is in its place. -/
def Kept (old : Device) (connected : Place → Prop) (s : Progress) : Prop :=
  (OldOnly uuid old s.nautobot ∧ s.succeeded = false) ∨ NewPlaced uuid old connected s.nautobot

/-- What every run of a re-enrolment meets. -/
def RunMeets (old : Device) (connected : Place → Prop) (s : Progress) (run : Run) : Prop :=
  AttemptsMeet C parseUuid uuid
    (fun a n => Expected C parseUuid uuid old connected a ∧ Replaces C parseUuid uuid old a n)
    run.1 s.nautobot

variable {C parseUuid uuid} {old : Device} {connected : Place → Prop}

theorem runStep_kept (hold : Reenrolled uuid old) (s : Progress) (run : Run)
    (hs : Kept uuid old connected s)
    (h : RunMeets C parseUuid uuid old connected s run) :
    Kept uuid old connected (runStep C parseUuid uuid s run) := by
  unfold runStep syncDeviceToNautobot
  split_ifs with huuid
  · rcases hs with ⟨hn, hfalse⟩ | hn
    · exact Or.inl ⟨hn, by simp [hfalse]⟩
    · exact Or.inr hn
  · rcases hs with ⟨hn, hfalse⟩ | hn
    · rcases retrySync_old hold h hn with ⟨hn', hne⟩ | hn'
      · exact Or.inl ⟨hn', by simp [hfalse, hne]⟩
      · exact Or.inr hn'
    · exact Or.inr (retrySync_new h hn)

/-- In a re-enrolment in which no attempt that has deleted the old device fails after that, some
device is always there, and after a run that succeeds the new one has the old one's place. -/
theorem reenrolment_keeps_placement (hold : Reenrolled uuid old) {n : Nautobot}
    (hmem : old ∈ n.table.rows) (hnew : ∀ d ∈ n.table.rows, d.id ≠ uuid) {runs pre : List Run}
    (h : Along (runStep C parseUuid uuid) (RunMeets C parseUuid uuid old connected)
      ⟨n, false⟩ runs) (hp : pre <+: runs) :
    let s := pre.foldl (runStep C parseUuid uuid) ⟨n, false⟩
    ((∃ d ∈ s.nautobot.table.rows, d.id = old.id) ∨ ∃ d ∈ s.nautobot.table.rows, d.id = uuid) ∧
      (s.succeeded = true →
        ∃ d ∈ s.nautobot.table.rows, d.id = uuid ∧ Placed old connected d) := by
  have hstart : Kept uuid old connected ⟨n, false⟩ := Or.inl ⟨⟨hmem, hnew⟩, rfl⟩
  rcases Along.invariant (runStep_kept hold) hstart h hp with ⟨hn, hfalse⟩ | hn
  · refine ⟨Or.inl ⟨old, hn.1, rfl⟩, ?_⟩
    intro htrue
    rw [hfalse] at htrue
    cases htrue
  · refine ⟨Or.inr ?_, fun _ => hn⟩
    obtain ⟨d, hd, hid, -⟩ := hn
    exact ⟨d, hd, hid⟩

/-- Texts that are already in the form of `str(UUID(...))`. -/
def canonicalUuid (text : Text) : Option Id :=
  if h : text ≠ [] ∧ text.length = 36 ∧ text.all (fun c => "0123456789abcdef-".toList.contains c) then
    some ⟨text, h.1⟩
  else none

def rackedDevice : Device where
  id := "old".toList
  name := "Dell-SN1".toList
  status := "Active".toList
  serial := "SN1".toList
  location := some ⟨"site".toList, by decide⟩
  rack := some ⟨"rack".toList, by decide⟩
  position := some 12
  face := some .rear
  tenant := none
  customFields := []

def rackedNautobot : Nautobot := ⟨⟨[rackedDevice], by decide, by decide⟩, 0⟩

/-- An active node whose inventory names it and whose ports have no switch. -/
def dellNode : IronicData where
  node := ⟨.null, .null, .null, "active".toList, none, .null⟩
  systemVendor := ⟨some "Dell Inc.".toList, some "SN1".toList⟩
  ports := []

def dellAttempt (faults : Faults) : Attempt := ⟨dellNode, fun _ => .nowhere, 0, faults⟩

theorem rackedDevice_reenrolled : Reenrolled "new".toList rackedDevice :=
  ⟨by decide, rfl, rfl, rfl, rfl⟩

theorem dellAttempt_expected (faults : Faults) :
    Expected asciiCasing canonicalUuid "new".toList rackedDevice (fun _ => False)
      (dellAttempt faults) := by
  constructor
  · intro info h
    have hname : (describe asciiCasing canonicalUuid "new".toList dellNode).map DeviceInfo.name =
        some (some rackedDevice.name) := by decide +kernel
    have h' : describe asciiCasing canonicalUuid "new".toList dellNode = some info := h
    rw [h'] at hname
    exact Option.some.inj hname
  · intro name hname
    cases hname

/-- A run in which the first attempt meets the faults and the others none. -/
def dellRun (faults : Faults) : Run :=
  ⟨dellAttempt faults :: List.replicate 4 (dellAttempt .none), rfl⟩

theorem undisturbed_run_keeps_placement :
    ∃ d ∈ ((runStep asciiCasing canonicalUuid "new".toList ⟨rackedNautobot, false⟩
      (dellRun .none)).nautobot.table.rows), d.id = "new".toList ∧
        Placed rackedDevice (fun _ => False) d := by
  have h : Along (runStep asciiCasing canonicalUuid "new".toList)
      (RunMeets asciiCasing canonicalUuid "new".toList rackedDevice fun _ => False)
      ⟨rackedNautobot, false⟩ [dellRun .none] := by
    refine ⟨⟨⟨dellAttempt_expected _, fun _ => ⟨rfl, rfl⟩⟩, ?_⟩, trivial⟩
    intro hfail
    exact absurd hfail (by decide +kernel)
  exact (reenrolment_keeps_placement rackedDevice_reenrolled (by decide) (by decide) h
    (List.prefix_refl _)).2 (by decide +kernel)

/-- The create request fails once. The retry finds neither device and knows no location. -/
theorem failed_create_loses_device :
    Reenrolled "new".toList rackedDevice ∧ rackedDevice ∈ rackedNautobot.table.rows ∧
    (∀ d ∈ rackedNautobot.table.rows, d.id ≠ "new".toList) ∧
    (∀ a ∈ (dellRun { Faults.none with create := some .transient }).1,
      Expected asciiCasing canonicalUuid "new".toList rackedDevice (fun _ => False) a) ∧
    ¬((∃ d ∈ (runStep asciiCasing canonicalUuid "new".toList ⟨rackedNautobot, false⟩
        (dellRun { Faults.none with create := some .transient })).nautobot.table.rows,
          d.id = rackedDevice.id) ∨
      ∃ d ∈ (runStep asciiCasing canonicalUuid "new".toList ⟨rackedNautobot, false⟩
        (dellRun { Faults.none with create := some .transient })).nautobot.table.rows,
          d.id = "new".toList) := by
  refine ⟨rackedDevice_reenrolled, by decide, by decide, ?_, by decide +kernel⟩
  intro a ha
  rcases List.mem_cons.mp ha with rfl | ha
  · exact dellAttempt_expected _
  · rw [List.eq_of_mem_replicate ha]
    exact dellAttempt_expected _

end Runs

end Understack.Workflows.Devices
