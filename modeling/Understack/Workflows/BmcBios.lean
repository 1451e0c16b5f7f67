import Mathlib.Data.List.Infix
import Understack.Lib.Json

/-! `bmc_bios.py`: bring the BIOS attributes of a server to their required values. The write
of the pending values may be refused because a configuration job is queued already; that
refusal is swallowed. -/
namespace Understack.Workflows.BmcBios

open PyText Json

def requiredBiosSettings (pxeInterface : Option Text) : List (Text × Text) :=
  [("HttpDev1TlsMode".toList, "None".toList),
    ("TimeZone".toList, "UTC".toList),
    ("OS-BMC.1.AdminState".toList, "Disabled".toList),
    ("IPMILan.1.Enable".toList, "Disabled".toList),
    ("SecureBoot".toList, "Disabled".toList),
    ("PxeDev1EnDis".toList, "Disabled".toList),
    ("HttpDev1EnDis".toList, "Enabled".toList),
    ("HttpDev2EnDis".toList, "Disabled".toList),
    ("HttpDev3EnDis".toList, "Disabled".toList),
    ("HttpDev4EnDis".toList, "Disabled".toList)] ++
  match pxeInterface with
  | some (c :: cs) => [("HttpDev1Interface".toList, c :: cs)]
  | _ => []

section
variable {F : Type}

abbrev Attributes (F : Type) := List (Text × Value F)

/-- `d.get(key)`, with `none` for `None`. -/
def get (attributes : Attributes F) (key : Text) : Option (Value F) :=
  match attributes.lookup key with
  | some .null => none
  | v => v

def isText : Value F → Text → Bool
  | .str s, t => s = t
  | _, _ => false

def requiredChangeForBiosSetting (key requiredValue : Text) (current pending : Attributes F) :
    Option Text :=
  match get current key with
  | none => none
  | some activeValue =>
    match get pending key with
    | some pendingValue => if isText pendingValue requiredValue then none else some requiredValue
    | none => if isText activeValue requiredValue then none else some requiredValue

/-- The attributes in force and those that wait for the next boot. -/
structure Bios (F : Type) where
  active : Attributes F
  pending : Attributes F

inductive PatchAnswer where
  | accepted
  | refused (text : Text)
  deriving DecidableEq, Repr

/-- Whether the two reads succeed, and what becomes of the write. -/
structure Answers where
  bios : Bool
  settings : Bool
  patch : PatchAnswer

inductive BiosError where
  | unreadable
  | refused (text : Text)
  deriving DecidableEq, Repr

def isJobQueued (text : Text) : Bool := decide ("Pending configuration values".toList <:+: text)

def patchBiosSettings (bios : Bios F) (answer : PatchAnswer) (newSettings : List (Text × Text)) :
    Except BiosError (Bios F) :=
  match answer with
  | .accepted => .ok { bios with
      pending := (newSettings.map fun e => (e.1, Value.str e.2)).foldl
        (fun d e => PyDict.put e.1 e.2 d) bios.pending }
  | .refused text => if isJobQueued text then .ok bios else .error (.refused text)

def requiredChanges (bios : Bios F) (pxeInterface : Option Text) : List (Text × Text) :=
  (requiredBiosSettings pxeInterface).filterMap fun e =>
    (requiredChangeForBiosSetting e.1 e.2 bios.active bios.pending).map fun change =>
      (e.1, change)

/-- The BIOS afterwards and the changes that are returned. -/
def updateDellBiosSettings (bios : Bios F) (answers : Answers) (pxeInterface : Option Text) :
    Except BiosError (Bios F × List (Text × Text)) :=
  if answers.bios && answers.settings then
    let changes := requiredChanges bios pxeInterface
    if changes = [] then .ok (bios, changes)
    else (patchBiosSettings bios answers.patch changes).map fun bios' => (bios', changes)
  else .error .unreadable

/-! What an update ought to do. -/

def Bios.Has (bios : Bios F) (key : Text) : Prop := get bios.active key ≠ none

def Bios.atNextBoot (bios : Bios F) (key : Text) : Option (Value F) :=
  (get bios.pending key).or (get bios.active key)

/-- Every required key that the BIOS has takes effect with the required value. -/
def Settled (bios : Bios F) (pxeInterface : Option Text) : Prop :=
  ∀ e ∈ requiredBiosSettings pxeInterface, bios.Has e.1 → bios.atNextBoot e.1 = some (.str e.2)

structure Converges (pxeInterface : Option Text) (before after : Bios F)
    (returned : List (Text × Text)) : Prop where
  settled : Settled after pxeInterface
  active : after.active = before.active
  others : ∀ k, k ∉ (requiredBiosSettings pxeInterface).map Prod.fst →
    after.pending.lookup k = before.pending.lookup k
  unchanged : ∀ k, after.pending.lookup k = before.pending.lookup k → returned.lookup k = none
  changed : ∀ k, after.pending.lookup k ≠ before.pending.lookup k →
    (returned.lookup k).map Value.str = after.pending.lookup k

/-! The changes. -/

theorem required_nodup (pxeInterface : Option Text) :
    ((requiredBiosSettings pxeInterface).map Prod.fst).Nodup := by
  have hkeys (withPxe : Bool) :
      (["HttpDev1TlsMode".toList, "TimeZone".toList, "OS-BMC.1.AdminState".toList,
        "IPMILan.1.Enable".toList, "SecureBoot".toList, "PxeDev1EnDis".toList,
        "HttpDev1EnDis".toList, "HttpDev2EnDis".toList, "HttpDev3EnDis".toList,
        "HttpDev4EnDis".toList] ++
        if withPxe then ["HttpDev1Interface".toList] else []).Nodup := by
    cases withPxe <;> decide +kernel
  cases pxeInterface with
  | none => exact hkeys false
  | some p =>
    cases p with
    | nil => exact hkeys false
    | cons c cs => exact hkeys true

theorem isText_iff {v : Value F} {s : Text} : isText v s = true ↔ v = .str s := by
  cases v <;> simp [isText]

/-- A key is changed if the BIOS has it and another value would take effect. -/
theorem requiredChange_eq_none {key value : Text} {bios : Bios F} :
    requiredChangeForBiosSetting key value bios.active bios.pending = none ↔
      (bios.Has key → bios.atNextBoot key = some (.str value)) := by
  unfold requiredChangeForBiosSetting Bios.Has Bios.atNextBoot
  cases get bios.active key with
  | none => simp
  | some a =>
    cases get bios.pending key with
    | none => simp [isText_iff]
    | some p => simp [isText_iff]

theorem requiredChange_eq_some {key value change : Text} {current pending : Attributes F}
    (h : requiredChangeForBiosSetting key value current pending = some change) :
    change = value := by
  unfold requiredChangeForBiosSetting at h
  split at h
  · cases h
  · split at h <;> split at h <;> cases h <;> rfl

theorem requiredChange_not_pending {key value change : Text} {current pending : Attributes F}
    (h : requiredChangeForBiosSetting key value current pending = some change) :
    pending.lookup key ≠ some (.str change) := by
  intro hp
  have hget : get pending key = some (.str change) := by
    rw [get, hp]
  rw [requiredChange_eq_some h] at hget
  unfold requiredChangeForBiosSetting at h
  rw [hget] at h
  split at h
  · cases h
  · simp [isText] at h

theorem lookup_requiredChanges (bios : Bios F) (pxeInterface : Option Text) (key : Text) :
    (requiredChanges bios pxeInterface).lookup key =
      ((requiredBiosSettings pxeInterface).lookup key).bind fun value =>
        requiredChangeForBiosSetting key value bios.active bios.pending :=
  PyDict.lookup_filterMap (required_nodup pxeInterface)
    (fun key value => requiredChangeForBiosSetting key value bios.active bios.pending) key

theorem requiredChanges_nodup (bios : Bios F) (pxeInterface : Option Text) :
    ((requiredChanges bios pxeInterface).map Prod.fst).Nodup :=
  PyDict.nodup_keys_filterMap (required_nodup pxeInterface)
    fun key value => requiredChangeForBiosSetting key value bios.active bios.pending

theorem requiredChanges_eq_nil {bios : Bios F} {pxeInterface : Option Text} :
    requiredChanges bios pxeInterface = [] ↔ Settled bios pxeInterface := by
  unfold requiredChanges Settled
  simp only [List.filterMap_eq_nil_iff, Option.map_eq_none_iff, requiredChange_eq_none]

/-- The pending values after an accepted write. -/
theorem lookup_accepted (bios : Bios F) (pxeInterface : Option Text) (key : Text) :
    (((requiredChanges bios pxeInterface).map fun e => (e.1, Value.str (F := F) e.2)).foldl
        (fun d e => PyDict.put e.1 e.2 d) bios.pending).lookup key =
      (((requiredChanges bios pxeInterface).lookup key).map Value.str).or
        (bios.pending.lookup key) := by
  have hnodup : (((requiredChanges bios pxeInterface).map
      fun e => (e.1, Value.str (F := F) e.2)).map Prod.fst).Nodup := by
    rw [List.map_map]
    exact requiredChanges_nodup bios pxeInterface
  rw [PyDict.lookup_foldl_put_of_nodup hnodup, PyDict.lookup_map]

/-- An accepted write brings the BIOS to the required values. -/
theorem converges_accepted (bios : Bios F) (pxeInterface : Option Text) :
    Converges pxeInterface bios
      { bios with pending := ((requiredChanges bios pxeInterface).map
          fun e => (e.1, Value.str e.2)).foldl (fun d e => PyDict.put e.1 e.2 d) bios.pending }
      (requiredChanges bios pxeInterface) where
  settled := by
    intro e he hhas
    have hreq : (requiredBiosSettings pxeInterface).lookup e.1 = some e.2 :=
      PyDict.lookup_of_mem (required_nodup pxeInterface) he
    have hlookup := lookup_accepted bios pxeInterface e.1
    have hchange := lookup_requiredChanges bios pxeInterface e.1
    rw [hreq, Option.bind_some] at hchange
    cases hc : requiredChangeForBiosSetting e.1 e.2 bios.active bios.pending with
    | none =>
      rw [hchange, hc, Option.map_none, Option.none_or] at hlookup
      have hold := requiredChange_eq_none.mp hc hhas
      rwa [Bios.atNextBoot, get, hlookup]
    | some change =>
      rw [hchange, hc, requiredChange_eq_some hc, Option.map_some, Option.some_or] at hlookup
      rw [Bios.atNextBoot, get, hlookup]
      rfl
  active := rfl
  others := by
    intro k hk
    have hnone : (requiredBiosSettings pxeInterface).lookup k = none := by
      rw [List.lookup_eq_none_iff]
      exact fun e he => bne_iff_ne.mpr fun heq => hk (List.mem_map.mpr ⟨e, he, heq.symm⟩)
    rw [lookup_accepted, lookup_requiredChanges, hnone]
    rfl
  unchanged := by
    intro k hk
    cases hc : (requiredChanges bios pxeInterface).lookup k with
    | none => rfl
    | some v =>
      rw [lookup_accepted, hc, Option.map_some, Option.some_or] at hk
      rw [lookup_requiredChanges] at hc
      obtain ⟨value, -, hc⟩ := Option.bind_eq_some_iff.mp hc
      exact absurd hk.symm (requiredChange_not_pending hc)
  changed := by
    intro k hk
    rw [lookup_accepted] at hk ⊢
    cases hc : (requiredChanges bios pxeInterface).lookup k with
    | none =>
      rw [hc] at hk
      exact absurd rfl hk
    | some v => rfl

/-- An update that returns has converged exactly when the write was accepted or there was
nothing to write. -/
theorem update_converges_iff {bios bios' : Bios F} {answers : Answers} {pxeInterface : Option Text}
    {returned : List (Text × Text)}
    (h : updateDellBiosSettings bios answers pxeInterface = .ok (bios', returned)) :
    Converges pxeInterface bios bios' returned ↔
      answers.patch = .accepted ∨ Settled bios pxeInterface := by
  unfold updateDellBiosSettings at h
  split at h
  · dsimp only at h
    split at h
    · next hnil =>
      have hsettled := requiredChanges_eq_nil.mp hnil
      cases h
      refine iff_of_true ?_ (Or.inr hsettled)
      rw [hnil]
      exact ⟨hsettled, rfl, fun _ _ => rfl, fun _ _ => rfl, fun _ hk => absurd rfl hk⟩
    · next hne =>
      cases hp : answers.patch with
      | accepted =>
        rw [hp] at h
        cases h
        exact iff_of_true (converges_accepted bios pxeInterface) (Or.inl rfl)
      | refused text =>
        -- the refusal is swallowed, the BIOS is as before
        rw [hp, patchBiosSettings] at h
        split at h
        · cases h
          have hunsettled : ¬ Settled bios pxeInterface := mt requiredChanges_eq_nil.mpr hne
          refine iff_of_false (fun hconv => hunsettled hconv.settled) ?_
          rintro (ha | hs)
          · cases ha
          · exact hunsettled hs
        · cases h
  · cases h

end

/-- A BIOS with secure boot enabled. -/
def secureBoot : Bios Text := ⟨[("SecureBoot".toList, .str "Enabled".toList)], []⟩

def secureBootDisabled : Bios Text :=
  { secureBoot with pending := [("SecureBoot".toList, .str "Disabled".toList)] }

theorem update_converges_secureBoot :
    Converges none secureBoot secureBootDisabled [("SecureBoot".toList, "Disabled".toList)] := by
  have h : updateDellBiosSettings secureBoot ⟨true, true, .accepted⟩ none =
      .ok (secureBootDisabled, [("SecureBoot".toList, "Disabled".toList)]) := rfl
  exact (update_converges_iff h).mpr (Or.inl rfl)

/-- With a job queued the update reports a change that it did not make. -/
theorem queued_job_reported :
    updateDellBiosSettings secureBoot
        ⟨true, true, .refused "Pending configuration values are already committed".toList⟩ none =
      .ok (secureBoot, [("SecureBoot".toList, "Disabled".toList)]) ∧
    ¬ Converges none secureBoot secureBoot [("SecureBoot".toList, "Disabled".toList)] := by
  constructor
  · rfl
  · intro h
    have hchanged := h.unchanged "SecureBoot".toList rfl
    cases hchanged


end Understack.Workflows.BmcBios
