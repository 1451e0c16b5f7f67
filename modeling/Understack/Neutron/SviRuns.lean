import Understack.Neutron.SviScope

/-! SVI routers stay single-scope over every serial run of port writes without an unchecked
reattachment. -/
namespace Understack.Neutron.Svi

theorem truthy_eq_some {s : Option String} {t : String} (h : truthy s = some t) :
    s = some t ∧ t ≠ "" := by
  unfold truthy at h
  split at h
  next => cases h
  next hne =>
    subst h
    exact ⟨rfl, fun he => hne (congrArg some he)⟩

theorem collectNewScopes_spec {env : Plugins} {ids subnetIds : List String} {scopes new : Scopes}
    (h : collectNewScopes env ids scopes subnetIds = .ok new) :
    (∀ scope, scopes .v4 = some scope → new .v4 = some scope) ∧
    ∀ s ∈ subnetIds, ∃ scope, scope ≠ "" ∧ new .v4 = some scope ∧
      getSubnetAddressScope env s = .ok (.v4, some scope) := by
  induction subnetIds generalizing scopes with
  | nil =>
    cases h
    exact ⟨fun _ hs => hs, by simp⟩
  | cons subnetId rest ih =>
    unfold collectNewScopes at h
    obtain ⟨⟨version, scope⟩, hlookup, h⟩ := Runs.bind_eq_ok h
    cases version with
    | v6 => simp [throw, throwThe, MonadExceptOf.throw, bind, Except.bind] at h
    | v4 =>
      simp only [reduceCtorEq, ↓reduceIte] at h
      split at h
      next => cases h
      next scopeId htruthy =>
        obtain ⟨rfl, hne⟩ := truthy_eq_some htruthy
        -- Both branches continue with the scope recorded for IPv4.
        have key (hold : ∀ old, scopes .v4 = some old → old = scopeId)
            (hrec : collectNewScopes env ids
              (Function.update scopes .v4 (some scopeId)) rest = .ok new) :
            (∀ old, scopes .v4 = some old → new .v4 = some old) ∧
            ∀ s ∈ subnetId :: rest, ∃ scope, scope ≠ "" ∧ new .v4 = some scope ∧
              getSubnetAddressScope env s = .ok (.v4, some scope) := by
          obtain ⟨hkeep, hall⟩ := ih hrec
          have hnew := hkeep scopeId (Function.update_self ..)
          constructor
          · intro old ho
            rw [hnew, hold old ho]
          · intro s hs
            rcases List.mem_cons.mp hs with rfl | hs
            · exact ⟨scopeId, hne, hnew, hlookup⟩
            · exact hall s hs
        split at h
        next previous hprevious =>
          split at h
          next => cases h
          next heq =>
            refine key (fun old ho => ?_) h
            rw [hprevious] at ho
            obtain rfl := Option.some.inj ho
            exact not_not.mp heq
        next hnone => exact key (fun old ho => by rw [hnone] at ho; cases ho) h

theorem checkExistingScopes_spec {env : Plugins} {routerId scope : String}
    {ids existing : List String} {new : Scopes} (hscope : new .v4 = some scope)
    (h : checkExistingScopes env routerId ids new existing = .ok ()) :
    ∀ s ∈ existing, ∀ σ, getSubnetAddressScope env s = .ok (.v4, σ) → σ = some scope := by
  induction existing with
  | nil => simp
  | cons subnetId rest ih =>
    unfold checkExistingScopes at h
    obtain ⟨⟨version, found⟩, hlookup, h⟩ := Runs.bind_eq_ok h
    have hrest : checkExistingScopes env routerId ids new rest = .ok () ∧
        (version = .v4 → found = some scope) := by
      dsimp only at h
      split at h
      next hnone => exact ⟨h, fun hv => by rw [hv, hscope] at hnone; cases hnone⟩
      next newScope hnew =>
        split at h
        next => cases h
        next existingScope htruthy =>
          obtain ⟨rfl, -⟩ := truthy_eq_some htruthy
          split at h
          next => cases h
          next heq =>
            refine ⟨h, fun hv => ?_⟩
            rw [hv, hscope] at hnew
            rw [not_not.mp heq, hnew]
    intro s hs σ hσ
    rcases List.mem_cons.mp hs with rfl | hs
    · rw [hlookup] at hσ
      cases hσ
      exact hrest.2 rfl
    · exact ih hrest.1 s hs σ hσ

theorem IsSvi.ne_empty {env : Plugins} {routerId : String} (h : IsSvi env routerId) :
    routerId ≠ "" := by
  intro he
  simp only [IsSvi, he, env.no_empty_id] at h

theorem IsSvi.flavor {env : Plugins} {routerId : String} (h : IsSvi env routerId) :
    ∃ flavor, env.getRouterFlavor routerId = some flavor ∧ isSviRouter env flavor = .ok true := by
  unfold IsSvi at h
  split at h
  next flavor hflavor =>
    refine ⟨flavor, hflavor, ?_⟩
    cases hresult : isSviRouter env flavor with
    | error e => simp [hresult, Except.toOption] at h
    | ok svi => simpa [hresult, Except.toOption] using h
  next => exact h.elim

/-- An accepted interface of an SVI router has IPv4 subnets of one scope, and the IPv4 subnets
that the query returned for the router have that scope too. -/
theorem validateSviRouterPort_spec {env : Plugins} {view : List Port} {port : Port} {checked : Bool}
    (howner : port.deviceOwner = .routerInterface) (hsvi : IsSvi env port.deviceId)
    (hsubnets : port.subnetIds ≠ []) (h : validateSviRouterPort env view port = .ok checked) :
    ∃ scope, scope ≠ "" ∧
      (∀ s ∈ port.subnetIds, getSubnetAddressScope env s = .ok (.v4, some scope)) ∧
      ∀ s ∈ getExistingRouterSubnetIds view port.deviceId,
        ∀ σ, getSubnetAddressScope env s = .ok (.v4, σ) → σ = some scope := by
  have hne := hsvi.ne_empty
  obtain ⟨flavor, hflavor, hdriver⟩ := hsvi.flavor
  have hrules : ∃ new, validateAddressScopeRules env view port.deviceId port.subnetIds = .ok new := by
    simp only [validateSviRouterPort, howner, hne, hflavor, hdriver, orNotFound, ne_eq,
      not_true_eq_false, ↓reduceIte, bind, Except.bind, pure, Except.pure] at h
    split at h
    next => cases h
    next new hnew => exact ⟨new, hnew⟩
  obtain ⟨new, hnew⟩ := hrules
  unfold validateAddressScopeRules at hnew
  obtain ⟨scopes, hcollect, hnew⟩ := Runs.bind_eq_ok hnew
  obtain ⟨⟨⟩, hcheck, -⟩ := Runs.bind_eq_ok hnew
  obtain ⟨-, hall⟩ := collectNewScopes_spec hcollect
  obtain ⟨s, hs⟩ := List.exists_mem_of_ne_nil _ hsubnets
  obtain ⟨scope, hscope, hv4, -⟩ := hall s hs
  refine ⟨scope, hscope, ?_, checkExistingScopes_spec hv4 hcheck⟩
  intro s' hs'
  obtain ⟨scope', -, hv4', hlookup⟩ := hall s' hs'
  rw [hv4] at hv4'
  rw [hlookup, ← hv4']

/-! What a write does to the subnets of a router. -/

theorem mem_existing {ports : List Port} {routerId s : String} :
    s ∈ getExistingRouterSubnetIds ports routerId ↔
      ∃ p ∈ ports, p.interfaceOf routerId = true ∧ s ∈ p.subnetIds := by
  simp [getExistingRouterSubnetIds, and_assoc]

theorem interfaceOf_iff {p : Port} {routerId : String} :
    p.interfaceOf routerId = true ↔ p.deviceId = routerId ∧ p.deviceOwner = .routerInterface := by
  simp [Port.interfaceOf]

theorem SingleScope.mono {env : Plugins} {ports written : List Port} {routerId : String}
    (h : SingleScope env ports routerId)
    (hsub : ∀ p ∈ written, p.interfaceOf routerId = true → p.subnetIds ≠ [] →
      ∃ q ∈ ports, q.interfaceOf routerId = true ∧ p.subnetIds = q.subnetIds) :
    SingleScope env written routerId := by
  obtain ⟨scope, hscope, hall⟩ := h
  refine ⟨scope, hscope, ?_⟩
  intro s hs
  obtain ⟨p, hp, hintf, hmem⟩ := mem_existing.mp hs
  obtain ⟨q, hq, hqintf, heq⟩ := hsub p hp hintf (List.ne_nil_of_mem hmem)
  exact hall s (mem_existing.mpr ⟨q, hq, hqintf, heq ▸ hmem⟩)

/-- A checked write keeps the rule, whether or not the query saw the row being written. -/
theorem SingleScope.write {env : Plugins} {ports view written : List Port} {port : Port}
    {routerId : String} (h : SingleScope env ports routerId) (hsvi : IsSvi env routerId)
    (hwritten : ∀ p ∈ written, p = port ∨ p ∈ ports ∧ p ∈ view)
    (hcheck : port.deviceOwner = .routerInterface →
      ∃ checked, validateSviRouterPort env view port = .ok checked) :
    SingleScope env written routerId := by
  by_cases hport : port.interfaceOf routerId = true ∧ port.subnetIds ≠ []
  · obtain ⟨hdevice, howner⟩ := interfaceOf_iff.mp hport.1
    obtain ⟨checked, hchecked⟩ := hcheck howner
    obtain ⟨scope, hscope, hnew, hexisting⟩ := validateSviRouterPort_spec howner
      (hdevice ▸ hsvi) hport.2 hchecked
    refine ⟨scope, hscope, ?_⟩
    intro s hs
    obtain ⟨p, hp, hintf, hmem⟩ := mem_existing.mp hs
    rcases hwritten p hp with rfl | ⟨hpold, hpview⟩
    · exact hnew s hmem
    · -- The other interfaces were in the query, and they are IPv4 by the rule so far.
      obtain ⟨old, -, hall⟩ := h
      have hold := hall s (mem_existing.mpr ⟨p, hpold, hintf, hmem⟩)
      rw [hold, hexisting s (mem_existing.mpr ⟨p, hpview, hdevice ▸ hintf, hmem⟩) _ hold]
  · apply h.mono
    intro p hp hintf hne
    rcases hwritten p hp with rfl | ⟨hpold, -⟩
    · exact absurd ⟨hintf, hne⟩ hport
    · exact ⟨p, hpold, hintf, rfl⟩

theorem mem_replacePort {ports : List Port} {current p : Port} (h : p ∈ replacePort ports current) :
    p = current ∨ p ∈ ports := by
  simp only [replacePort, List.mem_map] at h
  obtain ⟨q, hq, rfl⟩ := h
  split
  · exact .inl rfl
  · exact .inr hq

theorem createPortPrecommit_checked {env : Plugins} {view : List Port} {port : Port}
    (h : createPortPrecommit env view port = .ok ()) (howner : port.deviceOwner = .routerInterface) :
    ∃ checked, validateSviRouterPort env view port = .ok checked := by
  have hrouter : isRouterInterfacePort port = true := by simp [isRouterInterfacePort, howner, DeviceOwner.isRouter]
  simp only [createPortPrecommit, hrouter, ↓reduceIte] at h
  obtain ⟨checked, hchecked, -⟩ := Runs.bind_eq_ok h
  exact ⟨checked, hchecked⟩

theorem updatePortPrecommit_checked {env : Plugins} {view : List Port} {original port : Port}
    (h : updatePortPrecommit env view original port = .ok ())
    (howner : port.deviceOwner = .routerInterface) :
    (isRouterInterfacePort original = true ∧ original.fixedIps = port.fixedIps) ∨
      ∃ checked, validateSviRouterPort env view port = .ok checked := by
  have hrouter : isRouterInterfacePort port = true := by simp [isRouterInterfacePort, howner, DeviceOwner.isRouter]
  by_cases hskip : isRouterInterfacePort original = true ∧ original.fixedIps = port.fixedIps
  · exact .inl hskip
  · right
    have hneeded : (!isRouterInterfacePort original) = true ∨ original.fixedIps ≠ port.fixedIps := by
      rw [Bool.not_eq_true']
      by_cases ho : isRouterInterfacePort original = true
      · exact .inr fun he => hskip ⟨ho, he⟩
      · exact .inl (Bool.not_eq_true _ ▸ ho)
    simp only [updatePortPrecommit, hrouter, not_true_eq_false, ↓reduceIte, Bool.and_true,
      hneeded] at h
    obtain ⟨checked, hchecked, -⟩ := Runs.bind_eq_ok h
    exact ⟨checked, hchecked⟩

theorem SingleScope.createPort {env : Plugins} {ports : List Port} {port : Port} {flushed : Bool}
    {routerId : String} (h : SingleScope env ports routerId) (hsvi : IsSvi env routerId) :
    SingleScope env (createPort env ports port flushed) routerId := by
  unfold Svi.createPort
  split
  next => exact h
  next =>
    split
    next hok =>
      apply h.write hsvi _ (createPortPrecommit_checked hok)
      intro p hp
      rcases List.mem_append.mp hp with hp | hp
      · right
        cases flushed <;> simp [hp]
      · exact .inl (List.mem_singleton.mp hp)
    next => exact h

theorem SingleScope.updatePort {env : Plugins} {ports : List Port} {port : Port} {flushed : Bool}
    {routerId : String} (h : SingleScope env ports routerId) (hsvi : IsSvi env routerId)
    (hop : ¬ Reattaches env ports (.update port flushed)) :
    SingleScope env (updatePort env ports port flushed) routerId := by
  unfold Svi.updatePort
  split
  next => exact h
  next original hfind =>
    split
    next hok =>
      by_cases hskip : isRouterInterfacePort original = true ∧ original.fixedIps = port.fixedIps
      · -- The check was skipped, so the port brings no subnet that was not there.
        obtain ⟨hrouter, hips⟩ := hskip
        apply h.mono
        intro p hp hintf hne
        rcases mem_replacePort hp with rfl | hp
        · obtain ⟨rfl, howner⟩ := interfaceOf_iff.mp hintf
          refine ⟨original, List.mem_of_find?_eq_some hfind, ?_, by simp [Port.subnetIds, hips]⟩
          by_contra hoff
          apply hop
          simp only [Reattaches, hfind]
          exact ⟨hrouter, hne, howner, hsvi, hips, Bool.not_eq_true _ ▸ hoff⟩
        · exact ⟨p, hp, hintf, rfl⟩
      · apply h.write hsvi _ fun howner => (updatePortPrecommit_checked hok howner).resolve_left hskip
        intro p hp
        rcases mem_replacePort hp with rfl | hp'
        · exact .inl rfl
        · right
          cases flushed <;> simp [hp, hp']
    next => exact h

/-- One write keeps the rule unless it is an unchecked reattachment. -/
theorem AllSingleScope.applyOp {env : Plugins} {ports : List Port} {op : PortOp}
    (h : AllSingleScope env ports) (hop : ¬ Reattaches env ports op) :
    AllSingleScope env (applyOp env ports op) := by
  intro routerId hsvi
  have hold := h routerId hsvi
  cases op with
  | create port flushed => exact hold.createPort hsvi
  | update port flushed => exact hold.updatePort hsvi hop
  | delete id =>
    apply hold.mono
    intro p hp hintf _
    exact ⟨p, (List.mem_filter.mp hp).1, hintf, rfl⟩

/-- The rule holds in every state of a run without unchecked reattachments. -/
theorem portRun_allSingleScope (env : Plugins) (ops : List PortOp)
    (h : Runs.Along (applyOp env) (fun ports op => ¬ Reattaches env ports op) [] ops) :
    ∀ pre, pre <+: ops → AllSingleScope env (pre.foldl (applyOp env) []) := by
  intro pre hpre
  apply h.invariant (fun ports op hold hop => hold.applyOp hop) _ hpre
  intro routerId _
  exact ⟨"scope", by decide, by simp [getExistingRouterSubnetIds]⟩

/-- One SVI router and one router without a flavor; `s6` is an IPv6 subnet and the scopes of
`s1` and `s2` agree. -/
def smallPlugins : Plugins where
  getSubnet := fun s =>
    if s = "s6" then some ⟨.v6, some "pool6"⟩
    else if s = "s1" ∨ s = "s2" then some ⟨.v4, some "pool4"⟩
    else none
  getSubnetpoolScope := fun p => if p = "pool4" then some (some "scope4") else some none
  getRouterFlavor := fun r =>
    if r = "svi" then some (.value "svi-flavor") else if r = "plain" then some .null else none
  flavorDriver := fun _ => some sviProviderDriver
  no_empty_id := by decide

def interfacePort (id routerId subnetId : String) : Port :=
  { id := id, deviceOwner := .routerInterface, deviceId := routerId,
    fixedIps := [{ subnetId := some subnetId, ipAddress := "a" }] }

def attachAndMove : List PortOp :=
  [.create (interfacePort "p1" "svi" "s1") false, .create (interfacePort "p2" "plain" "s6") true,
    .create (interfacePort "p3" "svi" "s6") false, .create (interfacePort "p4" "svi" "s2") true,
    .update (interfacePort "p2" "svi" "s2") false, .update (interfacePort "p1" "svi" "s6") true,
    .delete "p4"]

theorem portRun_allSingleScope_attachAndMove :
    Runs.Along (applyOp smallPlugins) (fun ports op => ¬ Reattaches smallPlugins ports op) []
      attachAndMove ∧
    getExistingRouterSubnetIds (attachAndMove.foldl (applyOp smallPlugins) []) "svi" =
      ["s1", "s2"] ∧
    ∀ pre, pre <+: attachAndMove →
      AllSingleScope smallPlugins (pre.foldl (applyOp smallPlugins) []) :=
  have h : Runs.Along (applyOp smallPlugins)
      (fun ports op => ¬ Reattaches smallPlugins ports op) [] attachAndMove := by decide
  ⟨h, by decide, portRun_allSingleScope smallPlugins attachAndMove h⟩

/-- Moving an interface from a plain router onto the SVI router is not checked. -/
theorem portRun_reattach_breaks_scope :
    ¬ ∀ (env : Plugins) (ops : List PortOp), ∀ pre, pre <+: ops →
      AllSingleScope env (pre.foldl (applyOp env) []) := by
  intro hall
  have hrule := hall smallPlugins
    [.create (interfacePort "p" "plain" "s6") false, .update (interfacePort "p" "svi" "s6") false]
    _ (List.prefix_refl _) "svi" (by decide)
  obtain ⟨scope, -, hscope⟩ := hrule
  have hv6 := hscope "s6" (by decide)
  cases hv6

end Understack.Neutron.Svi
