import Understack.Lib.Calls
import Understack.Lib.Json
import Mathlib.Data.List.DropRight

/-! The `Bmc` object of `bmc.py`: three lazily cached resource paths and the account
operations that read them. `base_path` stores what it returns under `_system_path`. -/
namespace Understack.Workflows

open PyText Json Calls

structure Bmc where
  ipAddress : Text
  username : Text
  password : Text
  basePath : Option Text
  systemPath : Option Text
  managerPath : Option Text
  deriving DecidableEq, Repr

/-- `Bmc(ip_address, password, username)`. -/
def Bmc.new (ipAddress : Text) (password : Option Text) (username : Text) : Bmc :=
  ⟨ipAddress, username, password.getD [], none, none, none⟩

def Bmc.url (bmc : Bmc) : Text := "https://".toList ++ bmc.ipAddress

namespace Redfish

inductive Method where
  | get
  | patch
  deriving DecidableEq, Repr

structure Request (F : Type) where
  method : Method
  path : Text
  token : Option Text
  payload : Option (Value F)

inductive AccessError (F : Type) where
  | request (r : Request F)
  | shape (path : Text)
  | auth (username : Text)

/-- A program on one `Bmc` object; its calls are the Redfish requests. -/
abbrev Session (F α : Type) := Client Bmc (Request F) (AccessError F) α

def get {F : Type} (path : Text) (token : Option Text) : Request F := ⟨.get, path, token, none⟩

def systemsCollection : Text := "/redfish/v1/Systems/".toList
def managersCollection : Text := "/redfish/v1/Managers/".toList

section
variable {F : Type}

/-- `value[key]` -/
def item (v : Value F) (key : Text) : Option (Value F) :=
  match v with
  | .obj ms => ms.lookup key
  | _ => none

def text : Value F → Option Text
  | .str s => some s
  | _ => none

def elements : Value F → Option (List (Value F))
  | .arr xs => some xs
  | _ => none

def odataId (v : Value F) : Option Text := (item v "@odata.id".toList).bind text

/-- `_result["Members"][0]["@odata.id"]` -/
def firstMember (v : Value F) : Option Text := do
  let members ← item v "Members".toList
  let first ← (← elements members).head?
  odataId first

end

/-- What answers the requests: the `n`-th of them by `respond n`, with `none` for a failed one.
The first members of the two collections stay the same. -/
structure Server (F : Type) where
  respond : ℕ → Request F → Option (Value F)
  system : Text
  manager : Text
  first_system : ∀ n v path, respond n (get systemsCollection none) = some v →
    firstMember v = some path → path = system
  first_manager : ∀ n v path, respond n (get managersCollection none) = some v →
    firstMember v = some path → path = manager

section
variable {F : Type}

def store (f : Bmc → Bmc) : Session F Unit := fun w => (.ok (), ⟨f w.state, w.log⟩)

/-- A part of a response that is read by key or index. -/
def expect {α : Type} (path : Text) : Option α → Session F α
  | some a => pure a
  | none => raise (.shape path)

end

namespace Server

variable {F : Type} (S : Server F)

/-- The first members as the paths end up, without trailing slashes. -/
def systemResource : Text := S.system.rdropWhile (· = '/')
def managerResource : Text := S.manager.rdropWhile (· = '/')

def redfishRequest (r : Request F) : Session F (Value F) := fun w =>
  match S.respond w.log.length r with
  | some v => (.ok v, ⟨w.state, w.log ++ [⟨r, w.state, w.state, true⟩]⟩)
  | none => (.error (.request r), ⟨w.state, w.log ++ [⟨r, w.state, w.state, false⟩]⟩)

def getBasePath : Session F Text := pure "/redfish/v1".toList

/-- `redfish_request(collection)["Members"][0]["@odata.id"].rstrip("/")` -/
def getFirstMember (collection : Text) : Session F Text := do
  let result ← S.redfishRequest (get collection none)
  let path ← expect collection (firstMember result)
  return path.rdropWhile (· = '/')

def getSystemPath : Session F Text := S.getFirstMember systemsCollection

def getManagerPath : Session F Text := S.getFirstMember managersCollection

/-- `cached or compute()` -/
def orCompute (cached : Option Text) (compute : Session F Text) : Session F Text :=
  match cached with
  | some (c :: cs) => pure (c :: cs)
  | _ => compute

/-- `self.target = self.source or compute()`, and the value. -/
def cachedPath (source : Bmc → Option Text) (target : Text → Bmc → Bmc)
    (compute : Session F Text) : Session F Text := do
  let bmc ← current
  let path ← orCompute (source bmc) compute
  store (target path)
  return path

/-- The value is stored as the system path, not as the base path. -/
def basePath : Session F Text :=
  cachedPath Bmc.basePath (fun path b => { b with systemPath := some path }) getBasePath

def systemPath : Session F Text :=
  cachedPath Bmc.systemPath (fun path b => { b with systemPath := some path }) S.getSystemPath

def managerPath : Session F Text :=
  cachedPath Bmc.managerPath (fun path b => { b with managerPath := some path }) S.getManagerPath

/-- `redfish_request(path, token)[key]["@odata.id"]` -/
def follow (path key : Text) (token : Option Text) : Session F Text := do
  let result ← S.redfishRequest (get path token)
  expect path ((item result key).bind odataId)

/-- What `get_user_accounts` does with the base path. -/
def accountsBelow (path : Text) (token : Option Text) : Session F (Value F) := do
  let path ← S.follow path "AccountService".toList token
  let path ← S.follow path "Accounts".toList token
  let result ← S.redfishRequest (get path token)
  expect path (item result "Members".toList)

def getUserAccounts (token : Option Text) : Session F (Value F) := do
  let path ← basePath
  S.accountsBelow path token

/-- The loop of `set_bmc_creds`: the first account with the name. -/
def matchedAccount (username : Text) (token : Option Text) :
    List (Value F) → Session F (Value F)
  | [] => raise (.auth username)
  | account :: accounts => do
    let url ← expect username (odataId account)
    let a ← S.redfishRequest (get url token)
    let name ← expect url (item a "UserName".toList)
    if text name = some username then return a
    else matchedAccount username token accounts

/-- What `set_bmc_creds` does with the accounts. -/
def changePassword (password : Text) (token : Option Text) (accounts : Value F) :
    Session F Unit := do
  let bmc ← current
  let accounts ← expect bmc.username (elements accounts)
  let account ← S.matchedAccount bmc.username token accounts
  let uri ← expect bmc.username (odataId account)
  let _ ← S.redfishRequest
    ⟨.patch, uri, token, some (.obj [("Password".toList, .str password)])⟩
  return ()

def setBmcCreds (password : Text) (token : Option Text) : Session F Unit := do
  let accounts ← S.getUserAccounts token
  S.changePassword password token accounts

end Server

/-! Accesses to one object. -/

inductive Access where
  | basePath
  | systemPath
  | managerPath
  | getUserAccounts (token : Option Text)
  | setBmcCreds (password : Text) (token : Option Text)
  deriving DecidableEq, Repr

namespace Access

def readsBasePath : Access → Bool
  | .basePath => true
  | .getUserAccounts _ => true
  | .setBmcCreds _ _ => true
  | _ => false

/-- The path that an access yields, where it is one that does. -/
def perform {F : Type} (S : Server F) : Access → Session F (Option Text)
  | .basePath => some <$> Server.basePath
  | .systemPath => some <$> S.systemPath
  | .managerPath => some <$> S.managerPath
  | .getUserAccounts token => do
    let _ ← S.getUserAccounts token
    return none
  | .setBmcCreds password token => do
    S.setBmcCreds password token
    return none

/-- What an access ought to yield. -/
def wanted {F : Type} (S : Server F) : Access → Option Text
  | .basePath => some "/redfish/v1".toList
  | .systemPath => some S.systemResource
  | .managerPath => some S.managerResource
  | _ => none

end Access

section
variable {F : Type}

/-- The accesses with what each yields; one that raises leaves the object in use. -/
def accessAll (S : Server F) :
    List Access → World Bmc (Request F) → List (Access × Except (AccessError F) (Option Text))
  | [], _ => []
  | a :: as, w => (a, (a.perform S w).1) :: accessAll S as (a.perform S w).2

/-- No access yields a path that is not its own. -/
def PathsKept (S : Server F) (results : List (Access × Except (AccessError F) (Option Text))) :
    Prop :=
  ∀ r ∈ results, ∀ path, r.2 = .ok (some path) → r.1.wanted S = some path

end

/-! Programs that leave the object alone. -/

section
variable {F α β : Type}

def Keeps (m : Session F α) : Prop := ∀ w, (m w).2.state = w.state

theorem Keeps.bind {m : Session F α} {f : α → Session F β} (hm : Keeps m) (hf : ∀ a, Keeps (f a)) :
    Keeps (m >>= f) := by
  intro w
  have h := hm w
  cases hr : m w with
  | mk r w' =>
    rw [hr] at h
    cases r with
    | ok a =>
      rw [bind_ok hr, hf a w', h]
    | error e =>
      rw [bind_error hr, h]

theorem keeps_ofExcept (x : Except (AccessError F) α) : Keeps (ofExcept x : Session F α) :=
  fun _ => rfl

theorem keeps_expect (path : Text) (x : Option α) : Keeps (expect path x : Session F α) := by
  cases x <;> exact fun _ => rfl

theorem keeps_current : Keeps (current : Session F Bmc) := fun _ => rfl

variable (S : Server F)

theorem keeps_redfishRequest (r : Request F) : Keeps (S.redfishRequest r) := by
  intro w
  unfold Server.redfishRequest
  split <;> rfl

theorem keeps_follow (path key : Text) (token : Option Text) : Keeps (S.follow path key token) :=
  (keeps_redfishRequest S _).bind fun _ => keeps_expect _ _

theorem keeps_accountsBelow (path : Text) (token : Option Text) :
    Keeps (S.accountsBelow path token) :=
  (keeps_follow S _ _ _).bind fun _ => (keeps_follow S _ _ _).bind fun _ =>
    (keeps_redfishRequest S _).bind fun _ => keeps_expect _ _

theorem keeps_matchedAccount (username : Text) (token : Option Text) (accounts : List (Value F)) :
    Keeps (S.matchedAccount username token accounts) := by
  induction accounts with
  | nil => exact keeps_ofExcept _
  | cons account accounts ih =>
    refine (keeps_expect _ _).bind fun url => (keeps_redfishRequest S _).bind fun a =>
      (keeps_expect _ _).bind fun name => ?_
    split
    · exact keeps_ofExcept (.ok a)
    · exact ih

theorem keeps_changePassword (password : Text) (token : Option Text) (accounts : Value F) :
    Keeps (S.changePassword password token accounts) :=
  keeps_current.bind fun _ => (keeps_expect _ _).bind fun _ =>
    (keeps_matchedAccount S _ _ _).bind fun _ => (keeps_expect _ _).bind fun _ =>
      (keeps_redfishRequest S _).bind fun _ => keeps_ofExcept (.ok ())

theorem keeps_getFirstMember (collection : Text) : Keeps (S.getFirstMember collection) :=
  (keeps_redfishRequest S _).bind fun _ => (keeps_expect _ _).bind fun path =>
    keeps_ofExcept (.ok (path.rdropWhile (· = '/')))

theorem getFirstMember_ok {collection path : Text} {w w' : World Bmc (Request F)}
    (h : S.getFirstMember collection w = (.ok path, w')) :
    ∃ n v member, S.respond n (get collection none) = some v ∧ firstMember v = some member ∧
      path = member.rdropWhile (· = '/') := by
  unfold Server.getFirstMember at h
  cases hr : S.respond w.log.length (get collection none) with
  | none =>
    have hreq : S.redfishRequest (get collection none) w = (.error (.request (get collection none)),
        ⟨w.state, w.log ++ [⟨get collection none, w.state, w.state, false⟩]⟩) := by
      rw [Server.redfishRequest, hr]
    rw [bind_error hreq] at h
    cases h
  | some v =>
    have hreq : S.redfishRequest (get collection none) w = (.ok v,
        ⟨w.state, w.log ++ [⟨get collection none, w.state, w.state, true⟩]⟩) := by
      rw [Server.redfishRequest, hr]
    rw [bind_ok hreq] at h
    cases hm : firstMember v with
    | none =>
      rw [hm] at h
      cases h
    | some member =>
      rw [hm] at h
      cases h
      exact ⟨w.log.length, v, member, hr, hm, rfl⟩

/-! One access. -/

theorem getSystemPath_ok {path : Text} {w w' : World Bmc (Request F)}
    (h : S.getSystemPath w = (.ok path, w')) : path = S.systemResource := by
  obtain ⟨n, v, member, hr, hm, rfl⟩ := getFirstMember_ok S h
  rw [S.first_system n v member hr hm, Server.systemResource]

theorem getManagerPath_ok {path : Text} {w w' : World Bmc (Request F)}
    (h : S.getManagerPath w = (.ok path, w')) : path = S.managerResource := by
  obtain ⟨n, v, member, hr, hm, rfl⟩ := getFirstMember_ok S h
  rw [S.first_manager n v member hr hm, Server.managerResource]

theorem orCompute_run {compute : Session F Text} (hk : Keeps compute) (cached : Option Text)
    (w : World Bmc (Request F)) :
    (∃ path w', Server.orCompute cached compute w = (.ok path, w') ∧ w'.state = w.state ∧
        (cached = some path ∨ compute w = (.ok path, w'))) ∨
      ∃ e w', Server.orCompute cached compute w = (.error e, w') ∧ w'.state = w.state := by
  have hcompute : (∃ path w', compute w = (.ok path, w') ∧ w'.state = w.state ∧
      (cached = some path ∨ compute w = (.ok path, w'))) ∨
      ∃ e w', compute w = (.error e, w') ∧ w'.state = w.state := by
    have hs := hk w
    cases hr : compute w with
    | mk r w' =>
      rw [hr] at hs
      cases r with
      | ok path => exact Or.inl ⟨path, w', rfl, hs, Or.inr rfl⟩
      | error e => exact Or.inr ⟨e, w', rfl, hs⟩
  unfold Server.orCompute
  split
  · next c cs => exact Or.inl ⟨c :: cs, w, rfl, rfl, Or.inl rfl⟩
  · exact hcompute

/-- A cached path that is filled with `own` and computed as `own` yields nothing else; an access
that raises writes nothing. -/
theorem cachedPath_own (source : Bmc → Option Text) (target : Text → Bmc → Bmc)
    {compute : Session F Text} {own : Text} {w : World Bmc (Request F)} (hk : Keeps compute)
    (hs : source w.state = none ∨ source w.state = some own)
    (hc : ∀ path w', compute w = (.ok path, w') → path = own) :
    (∀ path, (Server.cachedPath source target compute w).1 = .ok path → path = own) ∧
      ((Server.cachedPath source target compute w).2.state = w.state ∨
        (Server.cachedPath source target compute w).2.state = target own w.state) := by
  unfold Server.cachedPath
  rw [current_bind]
  rcases orCompute_run hk (source w.state) w with ⟨path, w', hr, hw, hp⟩ | ⟨e, w', hr, hw⟩
  · rw [bind_ok hr]
    have hown : path = own := by
      rcases hp with hp | hp
      · rcases hs with hs | hs <;> rw [hs] at hp <;> cases hp
        rfl
      · exact hc path w' hp
    subst hown
    refine ⟨fun q hq => ?_, Or.inr ?_⟩
    · cases hq
      rfl
    · rw [← hw]
      rfl
  · rw [bind_error hr]
    refine ⟨fun q hq => ?_, Or.inl hw⟩
    cases hq

end

/-! Sequences of accesses. -/

def basePathValue : Text := "/redfish/v1".toList

/-- What the object holds; `touched` once the base path has been read. -/
structure Coherent {F : Type} (S : Server F) (touched : Bool) (b : Bmc) : Prop where
  base : b.basePath = none
  manager : b.managerPath = none ∨ b.managerPath = some S.managerResource
  mixed : touched = true → b.systemPath = some basePathValue
  system : touched = false → b.systemPath = none ∨ b.systemPath = some S.systemResource

section
variable {F : Type} {S : Server F} {touched : Bool} {w : World Bmc (Request F)}

theorem coherent_new (S : Server F) (ipAddress : Text) (password : Option Text) (username : Text) :
    Coherent S false (Bmc.new ipAddress password username) where
  base := rfl
  manager := Or.inl rfl
  mixed h := by cases h
  system _ := Or.inl rfl

theorem Coherent.touch {b : Bmc} (h : Coherent S touched b) :
    Coherent S true { b with systemPath := some basePathValue } where
  base := h.base
  manager := h.manager
  mixed _ := rfl
  system ht := by cases ht

theorem basePath_run (h : Coherent S touched w.state) :
    Server.basePath w =
      (.ok basePathValue, ⟨{ w.state with systemPath := some basePathValue }, w.log⟩) := by
  unfold Server.basePath Server.cachedPath
  rw [current_bind, h.base]
  rfl

theorem getUserAccounts_state (h : Coherent S touched w.state) (token : Option Text) :
    (S.getUserAccounts token w).2.state = { w.state with systemPath := some basePathValue } := by
  unfold Server.getUserAccounts
  rw [bind_ok (basePath_run h)]
  exact keeps_accountsBelow S _ _ _

theorem setBmcCreds_state (h : Coherent S touched w.state) (password : Text)
    (token : Option Text) :
    (S.setBmcCreds password token w).2.state =
      { w.state with systemPath := some basePathValue } := by
  have hs := getUserAccounts_state h token
  unfold Server.setBmcCreds
  cases hr : S.getUserAccounts token w with
  | mk r w' =>
    rw [hr] at hs
    cases r with
    | ok accounts => rw [bind_ok hr, keeps_changePassword S password token accounts w', hs]
    | error e => rw [bind_error hr, hs]

theorem map_run {α β : Type} (f : α → β) (m : Session F α) (w : World Bmc (Request F)) :
    (f <$> m) w = ((m w).1.map f, (m w).2) := by
  rw [map_eq_pure_bind]
  cases hr : m w with
  | mk r w' =>
    cases r with
    | ok a => exact bind_ok hr
    | error e => exact bind_error hr

theorem bind_none_run {α : Type} (m : Session F α) (w : World Bmc (Request F)) :
    (m >>= fun _ => (pure none : Session F (Option Text))) w =
      ((m w).1.map fun _ => none, (m w).2) := by
  cases hr : m w with
  | mk r w' =>
    cases r with
    | ok a => exact bind_ok hr
    | error e => exact bind_error hr

theorem map_some_ok {r : Except (AccessError F) Text} {path : Text}
    (h : r.map some = .ok (some path)) : r = .ok path := by
  cases r with
  | ok p =>
    cases h
    rfl
  | error e => cases h

/-- The mixed read: the base path is answered for the system path. -/
theorem perform_mixed (h : Coherent S true w.state) :
    (Access.systemPath.perform S w).1 = .ok (some basePathValue) ∧
      Coherent S true (Access.systemPath.perform S w).2.state := by
  have hrun : S.systemPath w =
      (.ok basePathValue, ⟨{ w.state with systemPath := some basePathValue }, w.log⟩) := by
    unfold Server.systemPath Server.cachedPath
    rw [current_bind, h.mixed rfl]
    rfl
  have hperform : Access.systemPath.perform S w = _ := map_run some S.systemPath w
  rw [hperform, hrun]
  exact ⟨rfl, h.touch⟩

/-- Every other access yields its own path. -/
theorem perform_own (a : Access) (h : Coherent S touched w.state)
    (ha : ¬(touched = true ∧ a = .systemPath)) :
    (∀ path, (a.perform S w).1 = .ok (some path) → a.wanted S = some path) ∧
      Coherent S (touched || a.readsBasePath) (a.perform S w).2.state := by
  cases a with
  | basePath =>
    have hperform : Access.basePath.perform S w = _ := map_run some Server.basePath w
    rw [hperform, basePath_run h, show (touched || Access.basePath.readsBasePath) = true by
      simp [Access.readsBasePath]]
    refine ⟨fun path hp => ?_, h.touch⟩
    cases hp
    rfl
  | systemPath =>
    have ht : touched = false := by simpa using ha
    subst ht
    obtain ⟨hval, hstate⟩ := cachedPath_own Bmc.systemPath
      (fun path b => { b with systemPath := some path })
      (keeps_getFirstMember S systemsCollection) (h.system rfl)
      fun path w' hp => getSystemPath_ok S hp
    have hperform : Access.systemPath.perform S w = _ := map_run some S.systemPath w
    rw [hperform]
    refine ⟨fun path hp => congrArg some (hval path (map_some_ok hp)).symm, ?_⟩
    rcases hstate with hst | hst
    · rw [show (S.systemPath w).2.state = w.state from hst]
      exact h
    · rw [show (S.systemPath w).2.state = { w.state with systemPath := some S.systemResource }
        from hst]
      exact ⟨h.base, h.manager, fun ht => (Bool.false_ne_true ht).elim, fun _ => Or.inr rfl⟩
  | managerPath =>
    obtain ⟨hval, hstate⟩ := cachedPath_own Bmc.managerPath
      (fun path b => { b with managerPath := some path })
      (keeps_getFirstMember S managersCollection) h.manager
      fun path w' hp => getManagerPath_ok S hp
    have hperform : Access.managerPath.perform S w = _ := map_run some S.managerPath w
    rw [hperform, show (touched || Access.managerPath.readsBasePath) = touched by
      simp [Access.readsBasePath]]
    refine ⟨fun path hp => congrArg some (hval path (map_some_ok hp)).symm, ?_⟩
    rcases hstate with hst | hst
    · rw [show (S.managerPath w).2.state = w.state from hst]
      exact h
    · rw [show (S.managerPath w).2.state = { w.state with managerPath := some S.managerResource }
        from hst]
      exact ⟨h.base, Or.inr rfl, h.mixed, h.system⟩
  | getUserAccounts token =>
    have hperform : (Access.getUserAccounts token).perform S w = _ :=
      bind_none_run (S.getUserAccounts token) w
    rw [hperform, getUserAccounts_state h]
    refine ⟨fun path hp => ?_, by simpa [Access.readsBasePath] using h.touch⟩
    cases hr : (S.getUserAccounts token w).1 <;> rw [hr] at hp <;> cases hp
  | setBmcCreds password token =>
    have hperform : (Access.setBmcCreds password token).perform S w = _ :=
      bind_none_run (S.setBmcCreds password token) w
    rw [hperform, setBmcCreds_state h]
    refine ⟨fun path hp => ?_, by simpa [Access.readsBasePath] using h.touch⟩
    cases hr : (S.setBmcCreds password token w).1 <;> rw [hr] at hp <;> cases hp

/-- What a sequence of accesses yields, from an object in any coherent state. -/
theorem pathsKept_accessAll (accesses : List Access) (h : Coherent S touched w.state) :
    PathsKept S (accessAll S accesses w) ↔ S.systemResource = basePathValue ∨
      (accesses.Pairwise fun a b => ¬(a.readsBasePath = true ∧ b = .systemPath)) ∧
        (touched = true → Access.systemPath ∉ accesses) := by
  induction accesses generalizing touched w with
  | nil => simp [accessAll, PathsKept]
  | cons a accesses ih =>
    have hcons : PathsKept S (accessAll S (a :: accesses) w) ↔
        (∀ path, (a.perform S w).1 = .ok (some path) → a.wanted S = some path) ∧
          PathsKept S (accessAll S accesses (a.perform S w).2) := by
      simp [PathsKept, accessAll]
    rw [hcons, List.pairwise_cons]
    by_cases ha : touched = true ∧ a = .systemPath
    · -- the base path is read for the system path: right only if the two are the same
      obtain ⟨rfl, rfl⟩ := ha
      obtain ⟨hval, hco⟩ := perform_mixed h
      rw [hval, ih hco]
      constructor
      · rintro ⟨hown, -⟩
        exact Or.inl (Option.some.inj (hown basePathValue rfl))
      · rintro (hs | ⟨-, hnot⟩)
        · refine ⟨fun path hp => ?_, Or.inl hs⟩
          cases hp
          exact congrArg some hs
        · exact absurd List.mem_cons_self (hnot rfl)
    · obtain ⟨hval, hco⟩ := perform_own a h ha
      rw [ih hco]
      have hmem : (touched = true → Access.systemPath ∉ a :: accesses) ↔
          (touched = true → Access.systemPath ∉ accesses) := by
        constructor
        · exact fun hn ht hm => hn ht (List.mem_cons_of_mem a hm)
        · intro hn ht hm
          rcases List.mem_cons.mp hm with hm | hm
          · exact ha ⟨ht, hm.symm⟩
          · exact hn ht hm
      have hhead : (∀ b ∈ accesses, ¬(a.readsBasePath = true ∧ b = .systemPath)) ↔
          (a.readsBasePath = true → Access.systemPath ∉ accesses) := by
        constructor
        · exact fun hn hr hm => hn _ hm ⟨hr, rfl⟩
        · rintro hn b hb ⟨hr, rfl⟩
          exact hn hr hb
      rw [hmem, hhead, and_iff_right hval, Bool.or_eq_true, or_imp]
      tauto

/-- On a new object the paths stay apart exactly when no system path is read after a base path,
read by itself or for an account operation, or the system is the service root. -/
theorem paths_kept_iff (S : Server F) (ipAddress : Text) (password : Option Text)
    (username : Text) (accesses : List Access) :
    PathsKept S (accessAll S accesses ⟨Bmc.new ipAddress password username, []⟩) ↔
      S.systemResource = "/redfish/v1".toList ∨
        accesses.Pairwise fun a b => ¬(a.readsBasePath = true ∧ b = .systemPath) := by
  rw [pathsKept_accessAll accesses (coherent_new S ipAddress password username)]
  have hnone : false = true → Access.systemPath ∉ accesses := fun h => by cases h
  rw [and_iff_left hnone]
  rfl

end

/-- A DRAC: its two collections have one member each. -/
def drac : Server Text where
  respond _ r :=
    let members (path : Text) : Value Text :=
      .obj [("Members".toList, .arr [.obj [("@odata.id".toList, .str path)]])]
    if r.path = systemsCollection then
      some (members "/redfish/v1/Systems/System.Embedded.1".toList)
    else if r.path = managersCollection then
      some (members "/redfish/v1/Managers/iDRAC.Embedded.1".toList)
    else none
  system := "/redfish/v1/Systems/System.Embedded.1".toList
  manager := "/redfish/v1/Managers/iDRAC.Embedded.1".toList
  first_system n v path h hp := by
    cases h
    cases hp
    rfl
  first_manager n v path h hp := by
    cases h
    cases hp
    rfl

/-- Reading the base path and then the system path yields the base path twice. -/
theorem system_path_mixed :
    ¬ PathsKept drac (accessAll drac [.basePath, .systemPath]
      ⟨Bmc.new "10.0.0.1".toList none "root".toList, []⟩) := by
  rw [pathsKept_accessAll _ (coherent_new drac _ _ _)]
  decide

end Redfish

end Understack.Workflows
