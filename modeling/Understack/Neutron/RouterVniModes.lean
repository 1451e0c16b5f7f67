import Understack.Lib.Json
import Understack.Neutron.VniAutoSelection

/-! The router hooks of the VNI plugin (`l3_router/vrf.py`). The flavor of a router gives the mode
in which a VNI is allocated for it; flavors may change between any two requests. -/
namespace Understack.Neutron.Vni
open PyText Json Intervals

/-- The metainfo of a service profile: a nullable JSON string, or a dict. -/
inductive Metainfo (F : Type) where
  | null
  | raw (s : Text)
  | dict (members : List (Text × Value F))

/-- The flavors plugin; `none` where a call of it raises. `nextDriver` is the driver of
`get_flavor_next_provider(context, flavor_id)[0]`. -/
structure FlavorPlugin (F : Type) where
  serviceProfiles : Text → Option (List Text)
  metainfo : Text → Option (Metainfo F)
  nextDriver : Text → Option Text

inductive VniAlloc where
  | off
  | on
  | auto
  deriving DecidableEq, Repr

inductive RouterError where
  | flavorNotFound (flavorId : Text)
  | serviceProfileNotFound (spId : Text)
  | badRequest (resource msg : Text)
  | vni (e : VniError)
  deriving DecidableEq

variable {F : Type} [FloatOps F]

def getFlavor (plugin : FlavorPlugin F) (flavorId : Text) : Except RouterError (List Text) :=
  (plugin.serviceProfiles flavorId).elim (.error (.flavorNotFound flavorId)) .ok

def getServiceProfile (plugin : FlavorPlugin F) (spId : Text) : Except RouterError (Metainfo F) :=
  (plugin.metainfo spId).elim (.error (.serviceProfileNotFound spId)) .ok

/-- The first profile whose metainfo is a JSON object. -/
def serviceProfileMetainfo (plugin : FlavorPlugin F) :
    List Text → Except RouterError (List (Text × Value F))
  | [] => .ok []
  | spId :: spIds => do
    match ← getServiceProfile plugin spId with
    | .null | .raw [] | .dict [] => serviceProfileMetainfo plugin spIds
    | .dict members => .ok members
    | .raw s =>
      match loads s with
      | some (.obj members) => .ok members
      | _ => serviceProfileMetainfo plugin spIds

def vniAllocKey : Text := "vni_alloc".toList

/-- `str(value).lower()` as a mode. The text of a value that is not a string is never one, and no
letter beyond ASCII lowers to a letter of one. -/
def vniAllocOf : Value F → Option VniAlloc
  | .str s =>
    let mode := s.map Char.toLower
    if mode = "off".toList then some .off
    else if mode = "on".toList then some .on
    else if mode = "auto".toList then some .auto
    else none
  | _ => none

/-- `VNI_ALLOC_DEFAULT`. -/
def vniAllocDefault : VniAlloc := .off

def routerVniAlloc (plugin : FlavorPlugin F) : Option Text → Except RouterError VniAlloc
  | none => .ok .off
  | some flavorId => do
    let spIds ← getFlavor plugin flavorId
    let metainfo ← serviceProfileMetainfo plugin spIds
    return ((metainfo.lookup vniAllocKey).bind vniAllocOf).getD vniAllocDefault

/-- What a create request says of a router. -/
structure Router where
  flavorId : Option Text
  evpnVni : RequestedVni
  deriving DecidableEq

/-- The hook of `PRECOMMIT_CREATE`; one that raises takes the whole transaction back. -/
def processRouterCreate (vniRanges : List Text) (plugin : FlavorPlugin F) (t : Table)
    (routerId : RouterId) (router : Router) : Except RouterError (Table × Router) := do
  let mode ← routerVniAlloc plugin router.flavorId
  if mode = .off then
    if isAutoVni router.evpnVni then return (t, router)
    else throw (.badRequest "router".toList
      "evpn_vni cannot be set on routers of this flavor".toList)
  else if mode = .on ∧ isAutoVni router.evpnVni then return (t, router)
  else
    match allocateVniForRouter vniRanges t routerId router.evpnVni with
    | (_, .error e) => throw (.vni e)
    | (t, .ok vni) => return (t, { router with evpnVni := .number vni })

/-- The hook of `PRECOMMIT_DELETE`. -/
def processRouterDelete (t : Table) (routerId : RouterId) (now : ℤ) : Table :=
  releaseVniForRouter t routerId now

/-- The `evpn_vni` that the API shows of a router. -/
def extendRouterDict (t : Table) (routerId : RouterId) : Option ℤ :=
  (getRouterAllocation t routerId).bind fun a => if truthy a.routerId then some a.vni else none

/-- A router that was created: what was asked for, and the mode of its flavor at that time. -/
structure Row where
  id : RouterId
  asked : Router
  mode : VniAlloc
  deriving DecidableEq

structure World (F : Type) where
  plugin : FlavorPlugin F
  routers : List Row
  table : Table
  used : List RouterId

inductive Action (F : Type) where
  | configure (plugin : FlavorPlugin F)
  | create (routerId : RouterId) (router : Router)
  | delete (routerId : RouterId) (now : ℤ)

/-- The serialized requests. The ids of routers are new ones. -/
def step (vniRanges : List Text) (w : World F) : Action F → World F
  | .configure plugin => { w with plugin }
  | .create routerId router =>
    if routerId = "" ∨ routerId ∈ w.used then w
    else
      match routerVniAlloc w.plugin router.flavorId,
        processRouterCreate vniRanges w.plugin w.table routerId router with
      | .ok mode, .ok (table, _) =>
        { w with routers := ⟨routerId, router, mode⟩ :: w.routers, table,
                 used := routerId :: w.used }
      | _, _ => w
  | .delete routerId now =>
    if w.routers.any fun x => x.id = routerId then
      { w with routers := w.routers.filter fun x => x.id ≠ routerId
               table := processRouterDelete w.table routerId now }
    else w

def start (plugin : FlavorPlugin F) : World F := ⟨plugin, [], [], []⟩

def run (vniRanges : List Text) (plugin : FlavorPlugin F) (as : List (Action F)) : World F :=
  as.foldl (step vniRanges) (start plugin)

/-- What a router of the mode shows that was created with the request. -/
inductive Granted : VniAlloc → RequestedVni → Option ℤ → Prop
  | unset {mode : VniAlloc} {asked : RequestedVni} (hmode : mode ≠ .auto)
      (hasked : isAutoVni asked = true) : Granted mode asked none
  | supplied {mode : VniAlloc} {n : ℤ} (hmode : mode ≠ .off) (hn : n ≠ 0) :
      Granted mode (.number n) (some n)
  | picked {asked : RequestedVni} (v : ℤ) (hasked : isAutoVni asked = true) :
      Granted .auto asked (some v)

/-- There is no VNI to give for the request. -/
def NoneLeft (vniRanges : List Text) (taken : ℤ → Prop) (asked : RequestedVni) : Prop :=
  (∀ ranges, parseVniRanges vniRanges ≠ .ok ranges) ∨
    if isAutoVni asked then ∀ v, Configured vniRanges v → taken v
    else ¬Configured vniRanges asked.toInt ∨ taken asked.toInt

/-- A router of the mode is refused with the request. -/
def Refuses (vniRanges : List Text) (taken : ℤ → Prop) (mode : VniAlloc) (asked : RequestedVni) :
    Prop :=
  match mode with
  | .off => isAutoVni asked = false
  | .on => isAutoVni asked = false ∧ NoneLeft vniRanges taken asked
  | .auto => NoneLeft vniRanges taken asked

/-- A router of the world has the VNI. -/
def Taken (w : World F) (v : ℤ) : Prop := ∃ x ∈ w.routers, extendRouterDict w.table x.id = some v

/-! The two writes of an allocation. -/

omit [FloatOps F] in
theorem isAutoVni_eq_false {asked : RequestedVni} (h : isAutoVni asked = false) :
    asked = .number asked.toInt ∧ asked.toInt ≠ 0 := by
  cases asked with
  | notSpecified => cases h
  | null => cases h
  | number n => exact ⟨rfl, by simpa [isAutoVni, RequestedVni.toInt] using h⟩

variable {vniRanges : List Text} {t : Table} {r : RouterId} {v : ℤ}

theorem holds_insert_iff {r' : RouterId} {w : ℤ} :
    Holds (insert t v r) r' w ↔ Holds t r' w ∨ r' = r ∧ w = v := by
  constructor
  · intro h
    exact (holds_insert h).imp_right fun ⟨hw, hr⟩ => ⟨hr.symm, hw⟩
  · rintro (⟨a, ha, hav⟩ | ⟨rfl, rfl⟩)
    · exact ⟨a, List.mem_append_left _ ha, hav⟩
    · exact ⟨_, List.mem_append_right _ List.mem_cons_self, rfl, rfl⟩

/-- A row that no router holds goes to one. -/
theorem holds_take_iff {r' : RouterId} {w : ℤ} (hv : v ∈ t.map Allocation.vni)
    (hfree : ∀ q, ¬Holds t q v) :
    Holds (assign t v (some r) none) r' w ↔ Holds t r' w ∨ r' = r ∧ w = v := by
  constructor
  · intro h
    exact (holds_assign h).imp_right fun ⟨hw, hr⟩ => ⟨(Option.some.inj hr).symm, hw⟩
  · rintro (⟨a, ha, rfl, har⟩ | ⟨rfl, rfl⟩)
    · have hne : a.vni ≠ v := fun heq => hfree r' ⟨a, ha, heq, har⟩
      exact ⟨a, List.mem_map.mpr ⟨a, ha, if_neg hne⟩, rfl, har⟩
    · obtain ⟨a, ha, rfl⟩ := List.mem_map.mp hv
      exact ⟨_, List.mem_map.mpr ⟨a, ha, rfl⟩, by rw [if_pos rfl], by rw [if_pos rfl]⟩

theorem TableInvariant.free_of_none (ht : TableInvariant vniRanges t) {a : Allocation}
    (ha : a ∈ t) (hnone : a.routerId = none) (q : RouterId) : ¬Holds t q a.vni := by
  rintro ⟨b, hb, hvni, hq⟩
  have heq : b = a := List.inj_on_of_nodup_map ht.vnis hb ha hvni
  rw [heq, hnone] at hq
  cases hq

/-- The release of what a router holds. -/
theorem holds_release_iff (ht : TableInvariant vniRanges t) {now : ℤ} {r' : RouterId} {w : ℤ} :
    Holds (processRouterDelete t r now) r' w ↔ Holds t r' w ∧ r' ≠ r := by
  unfold processRouterDelete releaseVniForRouter
  cases hget : getRouterAllocation t r with
  | none =>
    refine ⟨fun h => ⟨h, ?_⟩, And.left⟩
    rintro rfl
    exact getRouterAllocation_none hget w h
  | some a =>
    have hheld := getRouterAllocation_some hget
    constructor
    · intro h
      have hold := (holds_assign h).resolve_right fun hn => by simp at hn
      refine ⟨hold, ?_⟩
      rintro rfl
      obtain rfl := ht.routers r' w a.vni hold hheld
      obtain ⟨b, hb, hbv, hbr⟩ := h
      obtain ⟨c, hc, rfl⟩ := List.mem_map.mp hb
      split_ifs at hbv hbr with heq
      exact heq hbv
    · rintro ⟨⟨b, hb, rfl, hbr⟩, hne⟩
      refine ⟨b, List.mem_map.mpr ⟨b, hb, if_neg fun heq => hne ?_⟩, rfl, hbr⟩
      exact ht.vni_holder ⟨b, hb, heq, hbr⟩ hheld

def Held (t : Table) (v : ℤ) : Prop := ∃ q, Holds t q v

/-- The router gets the VNI, and nothing else changes hands. -/
structure Given (vniRanges : List Text) (t : Table) (r : RouterId) (asked : RequestedVni)
    (t' : Table) (v : ℤ) : Prop where
  configured : Configured vniRanges v
  explicit : isAutoVni asked = false → asked = .number v
  holds : ∀ q w, Holds t' q w ↔ Holds t q w ∨ q = r ∧ w = v
  available : ¬NoneLeft vniRanges (Held t) asked

theorem not_noneLeft {ranges : List Interval} (hp : parseVniRanges vniRanges = .ok ranges)
    {asked : RequestedVni} (hc : Configured vniRanges v) (hfree : ∀ q, ¬Holds t q v)
    (hasked : isAutoVni asked = false → asked.toInt = v) : ¬NoneLeft vniRanges (Held t) asked := by
  rintro (hparse | hleft)
  · exact hparse ranges hp
  · split_ifs at hleft with hauto
    · obtain ⟨q, hq⟩ := hleft v hc
      exact hfree q hq
    · rw [hasked (by simpa using hauto)] at hleft
      rcases hleft with hleft | ⟨q, hq⟩
      · exact hleft hc
      · exact hfree q hq

/-- An automatic allocation gives a free VNI, or every configured one is held. -/
theorem allocateAutoVni_cases (ht : TableInvariant vniRanges t) {ranges : List Interval}
    (hp : parseVniRanges vniRanges = .ok ranges) (r : RouterId) {asked : RequestedVni}
    (hauto : isAutoVni asked = true) :
    (∃ t' v, allocateAutoVni t r ranges = (t', .ok v) ∧ Given vniRanges t r asked t' v) ∨
    ∃ e, allocateAutoVni t r ranges = (t, .error e) ∧ NoneLeft vniRanges (Held t) asked := by
  have hcovers {v : ℤ} : Covers ranges v ↔ Configured vniRanges v := covers_parseVniRanges hp
  have hgiven {t' : Table} {v : ℤ} (hc : Covers ranges v) (hfree : ∀ q, ¬Holds t q v)
      (hholds : ∀ q w, Holds t' q w ↔ Holds t q w ∨ q = r ∧ w = v) :
      Given vniRanges t r asked t' v :=
    ⟨hcovers.mp hc, fun h => absurd hauto (by simp [h]), hholds,
      not_noneLeft hp (hcovers.mp hc) hfree fun h => absurd hauto (by simp [h])⟩
  unfold allocateAutoVni
  cases hnever : findNeverUsedVni t ranges with
  | some v =>
    obtain ⟨hc, hv⟩ := findNeverUsedVni_spec hnever
    refine Or.inl ⟨_, v, rfl, hgiven hc ?_ fun q w => holds_insert_iff⟩
    rintro q ⟨a, ha, hav, -⟩
    exact hv (List.mem_map.mpr ⟨a, ha, hav⟩)
  | none =>
    cases hreleased : findReleasedAllocation t ranges with
    | some a =>
      obtain ⟨ha, hnone, hc⟩ := findReleasedAllocation_spec hreleased
      have hfree := ht.free_of_none ha hnone
      exact Or.inl ⟨_, a.vni, rfl, hgiven hc hfree fun q w =>
        holds_take_iff (List.mem_map.mpr ⟨a, ha, rfl⟩) hfree⟩
    | none =>
      refine Or.inr ⟨_, rfl, Or.inr ?_⟩
      rw [if_pos hauto]
      intro v hv
      obtain ⟨a, ha, rfl⟩ := List.mem_map.mp (findNeverUsedVni_none hnever (hcovers.mpr hv))
      cases hrouter : a.routerId with
      | none => exact absurd ⟨ha, hrouter, hv⟩ (not_released_of_find hp hreleased a)
      | some q => exact ⟨q, a, ha, rfl, hrouter⟩

/-- The allocation of a configured VNI gives it, or it is held. -/
theorem allocateSpecificVni_cases (ht : TableInvariant vniRanges t)
    (hnamed : ∀ a ∈ t, a.routerId ≠ some "") {ranges : List Interval}
    (hp : parseVniRanges vniRanges = .ok ranges) (r : RouterId) {asked : RequestedVni}
    (hexplicit : isAutoVni asked = false) (hc : Covers ranges asked.toInt) :
    (∃ t' v, allocateSpecificVni t r asked.toInt = (t', .ok v) ∧ Given vniRanges t r asked t' v) ∨
    ∃ e, allocateSpecificVni t r asked.toInt = (t, .error e) ∧ NoneLeft vniRanges (Held t) asked := by
  have hconfigured := (covers_parseVniRanges hp).mp hc
  have hgiven {t' : Table} (hfree : ∀ q, ¬Holds t q asked.toInt)
      (hholds : ∀ q w, Holds t' q w ↔ Holds t q w ∨ q = r ∧ w = asked.toInt) :
      Given vniRanges t r asked t' asked.toInt :=
    ⟨hconfigured, fun _ => (isAutoVni_eq_false hexplicit).1, hholds,
      not_noneLeft hp hconfigured hfree fun _ => rfl⟩
  unfold allocateSpecificVni
  cases hfind : t.find? fun a => a.vni = asked.toInt with
  | none =>
    refine Or.inl ⟨_, _, rfl, hgiven ?_ fun q w => holds_insert_iff⟩
    rintro q ⟨a, ha, hav, -⟩
    exact List.find?_eq_none.mp hfind a ha (by simpa using hav)
  | some a =>
    have ha := List.mem_of_find?_eq_some hfind
    have hav : a.vni = asked.toInt := by simpa using List.find?_some hfind
    dsimp only
    cases hrouter : a.routerId with
    | none =>
      have hfree := hav ▸ ht.free_of_none ha hrouter
      rw [if_neg (by simp [truthy])]
      exact Or.inl ⟨_, _, rfl, hgiven hfree fun q w =>
        holds_take_iff (List.mem_map.mpr ⟨a, ha, hav⟩) hfree⟩
    | some q =>
      have hq : q ≠ "" := fun heq => hnamed a ha (hrouter.trans (congrArg some heq))
      rw [if_pos (by simp [truthy, hq])]
      refine Or.inr ⟨_, rfl, Or.inr ?_⟩
      rw [if_neg (by simp [hexplicit])]
      exact Or.inr ⟨q, a, ha, hav, hrouter⟩

/-- For a router that holds nothing an allocation gives a free VNI, or there is none to give. -/
theorem allocateVniForRouter_cases (ht : TableInvariant vniRanges t)
    (hnamed : ∀ a ∈ t, a.routerId ≠ some "") (hr : ∀ v, ¬Holds t r v) (asked : RequestedVni) :
    (∃ t' v, allocateVniForRouter vniRanges t r asked = (t', .ok v) ∧
      Given vniRanges t r asked t' v) ∨
    ∃ e, allocateVniForRouter vniRanges t r asked = (t, .error e) ∧
      NoneLeft vniRanges (Held t) asked := by
  unfold allocateVniForRouter
  cases hp : parseVniRanges vniRanges with
  | error e => exact Or.inr ⟨e, rfl, Or.inl fun ranges h => by cases hp.symm.trans h⟩
  | ok ranges =>
    rw [getRouterAllocation_eq_none hr]
    dsimp only
    cases hauto : isAutoVni asked with
    | true =>
      rw [if_pos rfl]
      exact allocateAutoVni_cases ht hp r hauto
    | false =>
      rw [if_neg Bool.false_ne_true]
      by_cases hc : Covers ranges asked.toInt
      · rw [if_pos hc]
        exact allocateSpecificVni_cases ht hnamed hp r hauto hc
      · rw [if_neg hc]
        refine Or.inr ⟨_, rfl, Or.inr ?_⟩
        rw [if_neg (by simp [hauto])]
        exact Or.inl fun h => hc ((covers_parseVniRanges hp).mpr h)

/-- The hook grants what the mode of the flavor says, or refuses. -/
theorem processRouterCreate_cases (ht : TableInvariant vniRanges t)
    (hnamed : ∀ a ∈ t, a.routerId ≠ some "") (hr : ∀ v, ¬Holds t r v) {plugin : FlavorPlugin F}
    {router : Router} {mode : VniAlloc} (hmode : routerVniAlloc plugin router.flavorId = .ok mode) :
    (∃ t' router' shown, processRouterCreate vniRanges plugin t r router = .ok (t', router') ∧
      ¬Refuses vniRanges (Held t) mode router.evpnVni ∧ TableInvariant vniRanges t' ∧
      Granted mode router.evpnVni shown ∧ (∀ v, shown = some v → Configured vniRanges v) ∧
      ∀ q w, Holds t' q w ↔ Holds t q w ∨ q = r ∧ shown = some w) ∨
    ∃ e, processRouterCreate vniRanges plugin t r router = .error e ∧
      Refuses vniRanges (Held t) mode router.evpnVni := by
  have hunset {mode : VniAlloc} (hne : mode ≠ .auto) (hauto : isAutoVni router.evpnVni = true) :
      Granted mode router.evpnVni none ∧ (∀ v, (none : Option ℤ) = some v → Configured vniRanges v) ∧
        ∀ q w, Holds t q w ↔ Holds t q w ∨ q = r ∧ (none : Option ℤ) = some w :=
    ⟨.unset hne hauto, by simp, by simp⟩
  have hallocated {mode : VniAlloc} (hne : mode ≠ .off)
      (hauto : isAutoVni router.evpnVni = true → mode = .auto) {t' : Table} {v : ℤ}
      (hgiven : Given vniRanges t r router.evpnVni t' v) : Granted mode router.evpnVni (some v) := by
    cases hasked : isAutoVni router.evpnVni with
    | true =>
      rw [hauto hasked]
      exact .picked v hasked
    | false =>
      have hnumber := hgiven.explicit hasked
      rw [hnumber] at hasked ⊢
      exact .supplied hne (by simpa [isAutoVni] using hasked)
  have hchange := ht.change (apply_change vniRanges t (.allocate r router.evpnVni))
  unfold processRouterCreate
  rw [hmode]
  simp only [bind, Except.bind, VniOp.apply] at hchange ⊢
  cases mode with
  | off =>
    rw [if_pos rfl]
    cases hauto : isAutoVni router.evpnVni with
    | true =>
      exact Or.inl ⟨t, router, none, rfl, by simp [Refuses, hauto], ht, hunset (by decide) hauto⟩
    | false => exact Or.inr ⟨_, rfl, hauto⟩
  | on =>
    rw [if_neg (by decide)]
    cases hauto : isAutoVni router.evpnVni with
    | true =>
      rw [if_pos ⟨rfl, rfl⟩]
      exact Or.inl ⟨t, router, none, rfl, by simp [Refuses, hauto], ht, hunset (by decide) hauto⟩
    | false =>
      rw [if_neg (by simp)]
      rcases allocateVniForRouter_cases ht hnamed hr router.evpnVni with
        ⟨t', v, halloc, hgiven⟩ | ⟨e, halloc, hleft⟩ <;> rw [halloc] at hchange ⊢
      · exact Or.inl ⟨t', _, some v, rfl, fun h => hgiven.available h.2, hchange,
          hallocated (by decide) (by simp [hauto]) hgiven, by simpa using hgiven.configured,
          fun q w => by rw [hgiven.holds, Option.some.injEq, eq_comm (a := v)]⟩
      · exact Or.inr ⟨_, rfl, hauto, hleft⟩
  | auto =>
    rw [if_neg (by decide), if_neg (by simp)]
    rcases allocateVniForRouter_cases ht hnamed hr router.evpnVni with
      ⟨t', v, halloc, hgiven⟩ | ⟨e, halloc, hleft⟩ <;> rw [halloc] at hchange ⊢
    · exact Or.inl ⟨t', _, some v, rfl, hgiven.available, hchange,
        hallocated (by decide) (fun _ => rfl) hgiven, by simpa using hgiven.configured,
        fun q w => by rw [hgiven.holds, Option.some.injEq, eq_comm (a := v)]⟩
    · exact Or.inr ⟨_, rfl, hleft⟩

/-! Runs of requests. -/

/-- What the API shows of a router is what it holds. -/
theorem extendRouterDict_eq_some (ht : TableInvariant vniRanges t) (hne : r ≠ "") :
    extendRouterDict t r = some v ↔ Holds t r v := by
  unfold extendRouterDict
  cases hget : getRouterAllocation t r with
  | none =>
    refine ⟨fun h => (by cases h), fun h => ?_⟩
    exact absurd h (getRouterAllocation_none hget v)
  | some a =>
    have hheld := getRouterAllocation_some hget
    have hrouter : a.routerId = some r := by simpa using List.find?_some hget
    rw [Option.bind_some, hrouter, if_pos (by simp [truthy, hne]), Option.some.injEq]
    refine ⟨fun h => h ▸ hheld, fun h => ht.routers r _ _ hheld h⟩

theorem extendRouterDict_congr {t' : Table} (ht : TableInvariant vniRanges t)
    (ht' : TableInvariant vniRanges t') (hne : r ≠ "") (h : ∀ v, Holds t' r v ↔ Holds t r v) :
    extendRouterDict t' r = extendRouterDict t r := by
  refine Option.ext fun v => ?_
  exact (extendRouterDict_eq_some ht' hne).trans ((h v).trans (extendRouterDict_eq_some ht hne).symm)

/-- Only live routers hold VNIs, and each shows what its mode grants. -/
structure Books (vniRanges : List Text) (w : World F) : Prop where
  table : TableInvariant vniRanges w.table
  live : ∀ q v, Holds w.table q v → ∃ x ∈ w.routers, x.id = q
  configured : ∀ q v, Holds w.table q v → Configured vniRanges v
  named : ∀ x ∈ w.routers, x.id ≠ "" ∧ x.id ∈ w.used
  ids : (w.routers.map Row.id).Nodup
  granted : ∀ x ∈ w.routers, Granted x.mode x.asked.evpnVni (extendRouterDict w.table x.id)

variable {w : World F}

omit [FloatOps F] in
theorem Books.rows_named (h : Books vniRanges w) : ∀ a ∈ w.table, a.routerId ≠ some "" := by
  intro a ha hempty
  obtain ⟨x, hx, hid⟩ := h.live "" a.vni ⟨a, ha, rfl, hempty⟩
  exact (h.named x hx).1 hid

omit [FloatOps F] in
theorem Books.not_holds (h : Books vniRanges w) (hr : r ∉ w.used) (v : ℤ) : ¬Holds w.table r v := by
  intro hheld
  obtain ⟨x, hx, rfl⟩ := h.live r v hheld
  exact hr (h.named x hx).2

omit [FloatOps F] in
theorem Books.taken_iff (h : Books vniRanges w) : Taken w v ↔ Held w.table v := by
  constructor
  · rintro ⟨x, hx, hshown⟩
    exact ⟨x.id, (extendRouterDict_eq_some h.table (h.named x hx).1).mp hshown⟩
  · rintro ⟨q, hheld⟩
    obtain ⟨x, hx, rfl⟩ := h.live q v hheld
    exact ⟨x, hx, (extendRouterDict_eq_some h.table (h.named x hx).1).mpr hheld⟩

/-- What a request can do to the world. -/
theorem step_cases (h : Books vniRanges w) (a : Action F) :
    (∃ plugin, step vniRanges w a = { w with plugin }) ∨
    (∃ q router mode table shown, q ≠ "" ∧ q ∉ w.used ∧ TableInvariant vniRanges table ∧
      Granted mode router.evpnVni shown ∧ (∀ v, shown = some v → Configured vniRanges v) ∧
      (∀ q' v, Holds table q' v ↔ Holds w.table q' v ∨ q' = q ∧ shown = some v) ∧
      step vniRanges w a = { w with routers := ⟨q, router, mode⟩ :: w.routers, table,
                                    used := q :: w.used }) ∨
    ∃ q now, step vniRanges w a = { w with routers := w.routers.filter fun x => x.id ≠ q
                                           table := processRouterDelete w.table q now } := by
  cases a with
  | configure plugin => exact Or.inl ⟨plugin, rfl⟩
  | create q router =>
    rw [step]
    split_ifs with hguard
    · exact Or.inl ⟨w.plugin, rfl⟩
    · obtain ⟨hne, hused⟩ := not_or.mp hguard
      cases hmode : routerVniAlloc w.plugin router.flavorId with
      | error e => exact Or.inl ⟨w.plugin, rfl⟩
      | ok mode =>
        rcases processRouterCreate_cases h.table h.rows_named (h.not_holds hused) hmode with
          ⟨table, router', shown, hcreate, -, ht, hgranted, hconf, hholds⟩ | ⟨e, hcreate, -⟩ <;>
          rw [hcreate]
        · exact Or.inr (Or.inl ⟨q, router, mode, table, shown, hne, hused, ht, hgranted, hconf,
            hholds, rfl⟩)
        · exact Or.inl ⟨w.plugin, rfl⟩
  | delete q now =>
    rw [step]
    split_ifs
    · exact Or.inr (Or.inr ⟨q, now, rfl⟩)
    · exact Or.inl ⟨w.plugin, rfl⟩

theorem Books.step (h : Books vniRanges w) (a : Action F) : Books vniRanges (step vniRanges w a) := by
  rcases step_cases h a with ⟨plugin, heq⟩ |
    ⟨q, router, mode, table, shown, hne, hused, ht, hgranted, hconf, hholds, heq⟩ |
    ⟨q, now, heq⟩ <;> rw [heq]
  · exact ⟨h.table, h.live, h.configured, h.named, h.ids, h.granted⟩
  · have hold {x : Row} (hx : x ∈ w.routers) : x.id ≠ q :=
      fun heq => hused (heq ▸ (h.named x hx).2)
    refine ⟨ht, fun q' v hheld => ?_, fun q' v hheld => ?_, fun x hx => ?_, ?_, fun x hx => ?_⟩
    · rcases (hholds q' v).mp hheld with hheld | ⟨rfl, -⟩
      · obtain ⟨x, hx, hid⟩ := h.live q' v hheld
        exact ⟨x, List.mem_cons_of_mem _ hx, hid⟩
      · exact ⟨_, List.mem_cons_self, rfl⟩
    · rcases (hholds q' v).mp hheld with hheld | ⟨-, hshown⟩
      · exact h.configured q' v hheld
      · exact hconf v hshown
    · rcases List.mem_cons.mp hx with rfl | hx
      · exact ⟨hne, List.mem_cons_self⟩
      · exact (h.named x hx).imp_right (List.mem_cons_of_mem q)
    · rw [List.map_cons, List.nodup_cons]
      refine ⟨fun hmem => ?_, h.ids⟩
      obtain ⟨x, hx, hid⟩ := List.mem_map.mp hmem
      exact hold hx hid
    · rcases List.mem_cons.mp hx with rfl | hx
      · have hshown : extendRouterDict table q = shown := by
          refine Option.ext fun v => ?_
          rw [extendRouterDict_eq_some ht hne, hholds]
          exact ⟨fun hor => (hor.resolve_left (h.not_holds hused v)).2, fun hs => Or.inr ⟨rfl, hs⟩⟩
        exact hshown.symm ▸ hgranted
      · have hsame := extendRouterDict_congr h.table ht (h.named x hx).1 fun v =>
          (hholds x.id v).trans (or_iff_left fun hor => hold hx hor.1)
        exact hsame.symm ▸ h.granted x hx
  · have hmem {x : Row} : x ∈ w.routers.filter (fun x => x.id ≠ q) ↔ x ∈ w.routers ∧ x.id ≠ q := by
      simp
    have hholds {q' : RouterId} {v : ℤ} :
        Holds (processRouterDelete w.table q now) q' v ↔ Holds w.table q' v ∧ q' ≠ q :=
      holds_release_iff h.table
    have ht : TableInvariant vniRanges (processRouterDelete w.table q now) :=
      h.table.change (apply_change vniRanges w.table (.release q now))
    refine ⟨ht, fun q' v hheld => ?_, fun q' v hheld => h.configured q' v (hholds.mp hheld).1,
      fun x hx => h.named x (hmem.mp hx).1, (List.filter_sublist.map Row.id).nodup h.ids,
      fun x hx => ?_⟩
    · obtain ⟨hheld, hneq⟩ := hholds.mp hheld
      obtain ⟨x, hx, rfl⟩ := h.live q' v hheld
      exact ⟨x, hmem.mpr ⟨hx, hneq⟩, rfl⟩
    · obtain ⟨hx, hneq⟩ := hmem.mp hx
      have hsame := extendRouterDict_congr h.table ht (h.named x hx).1 fun v =>
        hholds.trans (and_iff_left hneq)
      exact hsame.symm ▸ h.granted x hx

theorem books_run (vniRanges : List Text) (plugin : FlavorPlugin F) (as : List (Action F)) :
    Books vniRanges (run vniRanges plugin as) := by
  refine List.foldlRecOn as (motive := Books vniRanges) _ ?_ fun w hw a _ => hw.step a
  exact ⟨⟨List.nodup_nil, by simp [start, Holds], by simp [start]⟩, by simp [start, Holds],
    by simp [start, Holds], by simp [start], List.nodup_nil, by simp [start]⟩

/-- A router that is there before and after a request shows the same. -/
theorem extendRouterDict_step (h : Books vniRanges w) (a : Action F) {x : Row} (hx : x ∈ w.routers)
    (hx' : x ∈ (step vniRanges w a).routers) :
    extendRouterDict (step vniRanges w a).table x.id = extendRouterDict w.table x.id := by
  refine extendRouterDict_congr h.table (h.step a).table (h.named x hx).1 fun v => ?_
  rcases step_cases h a with ⟨plugin, heq⟩ |
    ⟨q, router, mode, table, shown, -, hused, -, -, -, hholds, heq⟩ | ⟨q, now, heq⟩ <;>
    rw [heq] at hx' ⊢
  · refine (hholds x.id v).trans (or_iff_left fun hor => hused ?_)
    exact hor.1 ▸ (h.named x hx).2
  · have hne : x.id ≠ q := by simpa using (List.mem_filter.mp hx').2
    exact (holds_release_iff h.table).trans (and_iff_left hne)

/-- Ids are used once. -/
theorem step_used (h : Books vniRanges w) (a : Action F) {q : RouterId} (hused : q ∈ w.used) :
    q ∈ (step vniRanges w a).used ∧
      ∀ x ∈ (step vniRanges w a).routers, x.id = q → x ∈ w.routers := by
  rcases step_cases h a with ⟨plugin, heq⟩ |
    ⟨q', router, mode, table, shown, -, hfresh, -, -, -, -, heq⟩ | ⟨q', now, heq⟩ <;> rw [heq]
  · exact ⟨hused, fun x hx _ => hx⟩
  · refine ⟨List.mem_cons_of_mem q' hused, fun x hx hid => ?_⟩
    rcases List.mem_cons.mp hx with rfl | hx
    · obtain rfl : q' = q := hid
      exact absurd hused hfresh
    · exact hx
  · exact ⟨hused, fun x hx _ => (List.mem_filter.mp hx).1⟩

/-- A router that is gone does not come back. -/
theorem foldl_absent (h : Books vniRanges w) (as : List (Action F)) {x : Row} (hused : x.id ∈ w.used)
    (hx : x ∉ w.routers) : x ∉ (as.foldl (step vniRanges) w).routers := by
  induction as generalizing w with
  | nil => exact hx
  | cons a as ih =>
    obtain ⟨hused', hback⟩ := step_used h a hused
    exact ih (h.step a) hused' fun hmem => hx (hback x hmem rfl)

theorem extendRouterDict_foldl (h : Books vniRanges w) (as : List (Action F)) {x : Row}
    (hx : x ∈ w.routers) (hx' : x ∈ (as.foldl (step vniRanges) w).routers) :
    extendRouterDict (as.foldl (step vniRanges) w).table x.id = extendRouterDict w.table x.id := by
  induction as generalizing w with
  | nil => rfl
  | cons a as ih =>
    by_cases hmid : x ∈ (step vniRanges w a).routers
    · exact (ih (h.step a) hmid hx').trans (extendRouterDict_step h a hx hmid)
    · obtain ⟨hused, -⟩ := step_used h a (h.named x hx).2
      exact absurd hx' (foldl_absent (h.step a) as hused hmid)

/-- Whatever is created, deleted and reconfigured, every router shows what the mode of its flavor
granted when it was created, and no VNI is shown by two. -/
theorem router_vnis_follow_modes (vniRanges : List Text) (plugin : FlavorPlugin F)
    (as : List (Action F)) :
    (∀ q v, Holds (run vniRanges plugin as).table q v →
      ∃ x ∈ (run vniRanges plugin as).routers, x.id = q) ∧
    (∀ x ∈ (run vniRanges plugin as).routers, Granted x.mode x.asked.evpnVni
      (extendRouterDict (run vniRanges plugin as).table x.id)) ∧
    (∀ x ∈ (run vniRanges plugin as).routers, ∀ v,
      extendRouterDict (run vniRanges plugin as).table x.id = some v → Configured vniRanges v ∧
        ∀ y ∈ (run vniRanges plugin as).routers,
          extendRouterDict (run vniRanges plugin as).table y.id = some v → y = x) ∧
    ∀ pre, pre <+: as → ∀ x ∈ (run vniRanges plugin pre).routers,
      x ∈ (run vniRanges plugin as).routers →
        extendRouterDict (run vniRanges plugin as).table x.id =
          extendRouterDict (run vniRanges plugin pre).table x.id := by
  have h := books_run vniRanges plugin as
  have hshown {x : Row} (hx : x ∈ (run vniRanges plugin as).routers) {v : ℤ} :=
    extendRouterDict_eq_some (v := v) h.table (h.named x hx).1
  refine ⟨h.live, h.granted, fun x hx v hv => ⟨h.configured x.id v ((hshown hx).mp hv), ?_⟩, ?_⟩
  · intro y hy hv'
    have hid := h.table.vni_holder ((hshown hy).mp hv') ((hshown hx).mp hv)
    exact List.inj_on_of_nodup_map h.ids hy hx hid
  · rintro pre ⟨rest, rfl⟩ x hx hx'
    rw [run, List.foldl_append] at hx' ⊢
    exact extendRouterDict_foldl (books_run vniRanges plugin pre) rest hx hx'

/-- Flavor "a" allocates, flavor "n" takes what is supplied, and any other leaves the VNI unset. -/
def vniFlavors : FlavorPlugin Text where
  serviceProfiles flavorId := some [flavorId]
  metainfo spId :=
    if spId = "a".toList then some (.raw "\x7b\"vni_alloc\": \"Auto\"\x7d".toList)
    else if spId = "n".toList then some (.raw "\x7b\"vni_alloc\": \"on\"\x7d".toList)
    else some .null
  nextDriver _ := none

/-- In every state reached, a new router is refused exactly where its mode forbids an explicit VNI
or there is none left to give it. -/
theorem router_create_refused_iff (vniRanges : List Text) (plugin : FlavorPlugin F)
    (as : List (Action F)) {q : RouterId} (hq : q ∉ (run vniRanges plugin as).used)
    {router : Router} {mode : VniAlloc}
    (hmode : routerVniAlloc (run vniRanges plugin as).plugin router.flavorId = .ok mode) :
    (∃ e, processRouterCreate vniRanges (run vniRanges plugin as).plugin
      (run vniRanges plugin as).table q router = .error e) ↔
      Refuses vniRanges (Taken (run vniRanges plugin as)) mode router.evpnVni := by
  have h := books_run vniRanges plugin as
  have htaken : Taken (run vniRanges plugin as) = Held (run vniRanges plugin as).table :=
    funext fun v => propext h.taken_iff
  rw [htaken]
  rcases processRouterCreate_cases h.table h.rows_named (h.not_holds hq) hmode with
    ⟨table, router', shown, hcreate, hnot, -⟩ | ⟨e, hcreate, hrefused⟩ <;> rw [hcreate]
  · exact ⟨fun ⟨e, he⟩ => (by cases he), fun hr => absurd hr hnot⟩
  · exact ⟨fun _ => hrefused, fun _ => ⟨e, rfl⟩⟩

/-- The only VNI is released and taken again, after which there is none left. -/
def takeLast : List (Action Text) :=
  [.create "r1" ⟨some "a".toList, .null⟩, .delete "r1" 5, .create "r2" ⟨some "n".toList, .number 7⟩]

theorem router_create_refused_iff_last :
    (∃ e, processRouterCreate ["7".toList] (run ["7".toList] vniFlavors takeLast).plugin
      (run ["7".toList] vniFlavors takeLast).table "r3" ⟨some "a".toList, .notSpecified⟩ =
        .error e) ↔
      Refuses ["7".toList] (Taken (run ["7".toList] vniFlavors takeLast)) .auto .notSpecified :=
  router_create_refused_iff ["7".toList] vniFlavors takeLast (by decide +kernel) (by decide +kernel)

end Understack.Neutron.Vni
