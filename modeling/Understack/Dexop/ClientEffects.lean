import Understack.Dexop.ClientController

/-! What each step of `Reconcile` returns and leaves behind, whether it returns or raises. -/
namespace Understack.Dexop
open PyText Attempts

def Stored.setClient (s : Stored) (k : NamespacedName) (r : Option Client) : Stored :=
  { s with clients := Function.update s.clients k r }

def Stored.setSecret (s : Stored) (k : NamespacedName) (data : List (Text × Text)) : Stored :=
  { s with secrets := Function.update s.secrets k (some data) }

def Stored.setDex (s : Stored) (id : Text) (r : Option DexClient) : Stored :=
  { s with dex := Function.update s.dex id r }

theorem Stored.setDex_self {s : Stored} {id : Text} {r : Option DexClient} (h : s.dex id = r) :
    s.setDex id r = s := by
  rw [setDex, ← h, Function.update_eq_self]

@[simp] theorem Stored.setDex_setDex (s : Stored) (id : Text) (r r' : Option DexClient) :
    (s.setDex id r).setDex id r' = s.setDex id r' := by
  simp [setDex]

@[simp] theorem Stored.setDex_dex (s : Stored) (id : Text) (r : Option DexClient) :
    (s.setDex id r).dex id = r := by
  simp [setDex]

theorem Stored.setDex_dex_of_ne {s : Stored} {id id' : Text} {r : Option DexClient} (h : id' ≠ id) :
    (s.setDex id r).dex id' = s.dex id' :=
  Function.update_of_ne h _ _

@[simp] theorem Stored.setClient_clients (s : Stored) (k : NamespacedName) (r : Option Client) :
    (s.setClient k r).clients k = r := by
  simp [setClient]

def Client.withFinalizer (c : Client) : Client :=
  if dexFinalizer ∈ c.finalizers then c
  else { c with finalizers := c.finalizers ++ [dexFinalizer] }

namespace Env

variable {env : Env}

theorem triple_fetch {α : Type} (find : Stored → Option α) (missing : Error) (s₀ : Stored) :
    Triple (· = s₀) (env.fetch find missing) (fun a s => s = s₀ ∧ find s₀ = some a)
      fun e s => s = s₀ ∧ (e = missing ∧ find s₀ = none ∨ e.isNotFound = false) := by
  unfold fetch
  refine (Triple.call_eq _ _ s₀).conseq (fun s h => h) ?_ ?_
  · rintro a s ⟨n, h⟩
    cases hfind : find s₀ with
    | none =>
      rw [hfind] at h
      cases h
    | some b =>
      rw [hfind] at h
      cases h
      exact ⟨rfl, rfl⟩
  · rintro e s (⟨n, h⟩ | ⟨n, f, hf, rfl, h⟩)
    · cases hfind : find s₀ with
      | none =>
        rw [hfind] at h
        cases h
        exact ⟨rfl, Or.inl ⟨rfl, rfl⟩⟩
      | some b =>
        rw [hfind] at h
        cases h
    · refine ⟨?_, Or.inr (env.faults_found n f hf)⟩
      rcases h with rfl | rfl
      · rfl
      · cases find s₀ with
        | none => rfl
        | some b => rfl

/-- A call that writes, with what the server makes of the state. -/
theorem triple_write {serve : ℕ → Stored → Except Error Unit × Stored} {s₀ : Stored}
    {W : Stored → Prop} (h : ∀ n, ∃ s, serve n s₀ = (.ok (), s) ∧ W s) :
    Triple (· = s₀) (call env.faults serve) (fun _ s => W s) fun _ s => s = s₀ ∨ W s := by
  refine (Triple.call_eq _ _ s₀).conseq (fun s h => h) ?_ ?_
  · rintro _ s ⟨n, hs⟩
    obtain ⟨s', hs', hw⟩ := h n
    cases hs.symm.trans hs'
    exact hw
  · rintro e s (⟨n, hs⟩ | ⟨n, f, -, -, rfl | rfl⟩)
    · obtain ⟨s', hs', hw⟩ := h n
      cases hs.symm.trans hs'
    · exact Or.inl rfl
    · obtain ⟨s', hs', hw⟩ := h n
      rw [hs']
      exact Or.inr hw

theorem triple_getClientSpec (k : NamespacedName) (s₀ : Stored) :
    Triple (· = s₀) (env.getClientSpec k)
      (fun r s => s = s₀ ∧ s₀.clients k = r.map Loaded.toClient ∧ ∀ c, r = some c → c.secretValue = [])
      fun _ s => s = s₀ := by
  unfold getClientSpec
  refine (triple_fetch _ _ s₀).reify.bind fun r => ?_
  cases r with
  | error e =>
    refine Triple.of_state fun s hs => ?_
    obtain ⟨rfl, hs⟩ := hs
    dsimp only
    split_ifs with hnot
    · refine Triple.pure fun s' hs' => ?_
      subst hs'
      rcases hs with ⟨-, hnone⟩ | hfound
      · exact ⟨rfl, hnone, by simp⟩
      · rw [hfound] at hnot
        cases hnot
    · exact Triple.throw fun s' hs' => hs'
  | ok c =>
    have hissuer : Triple (fun s => s = s₀ ∧ s₀.clients k = some c) env.getIssuer
        (fun _ s => s = s₀ ∧ s₀.clients k = some c) fun _ s => s = s₀ := by
      unfold getIssuer
      split_ifs
      · exact Triple.pure fun s hs => hs
      · refine Triple.of_state fun s hs => ?_
        obtain ⟨rfl, hc⟩ := hs
        refine (Triple.call_eq _ _ s).conseq (fun s h => h) ?_ ?_
        · rintro a s' ⟨n, h⟩
          cases h
          exact ⟨rfl, hc⟩
        · rintro e s' (⟨n, h⟩ | ⟨n, f, -, -, rfl | rfl⟩)
          · cases h
          · rfl
          · rfl
    refine hissuer.bind fun issuer => ?_
    refine Triple.pure fun s hs => ⟨hs.1, hs.2, fun c' hc' => ?_⟩
    cases hc'
    rfl

theorem triple_updateClient {k : NamespacedName} {s₀ : Stored} {old c : Client}
    (hold : s₀.clients k = some old) {r : Option Client}
    (hr : (if c.deletionRequested && c.finalizers.isEmpty then none else some c) = r) :
    Triple (· = s₀) (env.updateClient k c) (fun _ s => s = s₀.setClient k r)
      fun _ s => s = s₀ ∨ s = s₀.setClient k r := by
  refine triple_write fun n => ⟨s₀.setClient k r, ?_, rfl⟩
  rw [hold, ← hr]
  rfl

/-- The resource gets the finalizer unless it has it. -/
theorem triple_addFinalizer {k : NamespacedName} {c : Loaded} {s₀ : Stored}
    (hc : s₀.clients k = some c.toClient) (hlive : c.deletionRequested = false) :
    Triple (· = s₀) (env.addFinalizer k c)
      (fun c' s => c' = { c with toClient := c.withFinalizer } ∧
        s = s₀.setClient k (some c.withFinalizer))
      fun _ s => s = s₀ ∨ s = s₀.setClient k (some c.withFinalizer) := by
  unfold addFinalizer Client.withFinalizer
  split_ifs with hfin
  · refine Triple.pure fun s hs => ⟨rfl, ?_⟩
    rw [hs, Stored.setClient, ← hc, Function.update_eq_self]
  · refine (triple_updateClient hc ?_).bind fun _ => Triple.pure fun s hs => ⟨rfl, hs⟩
    simp [hlive]

/-- The Secret of a spec. -/
def secretRef (k : NamespacedName) (spec : ClientSpec) : NamespacedName :=
  secretOf (inNamespace k spec)

/-- The Secret was missing, and now holds a drawn password. -/
def Generated (env : Env) (k : NamespacedName) (spec : ClientSpec) (s₀ s : Stored) : Prop :=
  spec.secretName ≠ [] ∧ spec.generateSecret = true ∧ s₀.secrets (secretRef k spec) = none ∧
    ∃ n p data, env.password n = .ok p ∧ data.lookup secretKey = some p ∧
      s = s₀.setSecret (secretRef k spec) data

/-- The value that a run reads, or goes on with. -/
inductive Gives (env : Env) (k : NamespacedName) (spec : ClientSpec) (s₀ : Stored) :
    Text → Stored → Prop
  | unnamed (h : spec.secretName = []) : Gives env k spec s₀ [] s₀
  | read {value : Text} {data : List (Text × Text)} (h : spec.secretName ≠ [])
      (hdata : s₀.secrets (secretRef k spec) = some data) (hvalue : data.lookup secretKey = some value) :
      Gives env k spec s₀ value s₀
  | generated {s : Stored} (h : Generated env k spec s₀ s) : Gives env k spec s₀ [] s

theorem inNamespace_eq (k : NamespacedName) (spec : ClientSpec) :
    ∃ ns, inNamespace k spec = { spec with secretNamespace := ns } := by
  unfold inNamespace
  split_ifs
  · exact ⟨_, rfl⟩
  · exact ⟨_, rfl⟩

theorem triple_readSecret (k : NamespacedName) (s₀ : Stored) :
    Triple (· = s₀) (env.readSecret k)
      (fun v s => s = s₀ ∧ ∃ data, s₀.secrets k = some data ∧ data.lookup secretKey = some v)
      fun e s => s = s₀ ∧ (e.isNotFound = true → s₀.secrets k = none) := by
  unfold readSecret
  refine ((triple_fetch _ _ s₀).conseq (fun s h => h) (fun a s h => h) ?_).bind fun data => ?_
  · rintro e s ⟨rfl, ⟨-, hnone⟩ | hfound⟩
    · exact ⟨rfl, fun _ => hnone⟩
    · refine ⟨rfl, fun h => ?_⟩
      rw [hfound] at h
      cases h
  · cases hl : data.lookup secretKey with
    | some v => exact Triple.pure fun s hs => ⟨hs.1, data, hs.2, hl⟩
    | none => exact Triple.throw fun s hs => ⟨hs.1, by simp⟩

/-- A drawn password was written. -/
def Wrote (env : Env) (c : Loaded) (s₀ s : Stored) : Prop :=
  ∃ n p, env.password n = .ok p ∧ s = s₀.setSecret (secretOf c.spec) (secretData c p)

theorem triple_generatePassword {c : Loaded} {s₀ : Stored}
    (hnone : s₀.secrets (secretOf c.spec) = none) :
    Triple (· = s₀) (env.generatePassword c)
      (fun data s => ∃ n p, env.password n = .ok p ∧ data = secretData c p ∧
        s = s₀.setSecret (secretOf c.spec) data)
      fun _ s => s = s₀ ∨ Wrote env c s₀ s := by
  unfold generatePassword
  refine (Triple.draw (Q := fun p s => s = s₀ ∧ ∃ n, env.password n = .ok p)
    (fun n p s hp hs => ⟨hs, n, hp⟩) fun e s hs => Or.inl hs).bind fun p => ?_
  refine Triple.of_state fun s hs => ?_
  obtain ⟨rfl, n, hp⟩ := hs
  have hcreate : Triple (· = s) (env.createSecret (secretOf c.spec) (secretData c p))
      (fun _ s' => s' = s.setSecret (secretOf c.spec) (secretData c p))
      fun _ s' => s' = s ∨ Wrote env c s s' := by
    refine (triple_write (W := (· = s.setSecret (secretOf c.spec) (secretData c p))) fun _ => ?_).conseq
      (fun s' h => h) (fun _ s' h => h) fun e s' h => h.imp_right fun h => ⟨n, p, hp, h⟩
    rw [hnone]
    exact ⟨_, rfl, rfl⟩
  exact hcreate.bind fun _ => Triple.pure fun s' hs' => ⟨n, p, hp, rfl, hs'⟩

/-- The password is written under one key and looked for under another. -/
theorem triple_generateSecret {k : NamespacedName} {c : Loaded} {s₀ : Stored}
    (hnone : s₀.secrets (secretOf c.spec) = none) :
    Triple (· = s₀) (env.generateSecret k c) (fun v s => v = [] ∧ Wrote env c s₀ s)
      fun _ s => s = s₀ ∨ Wrote env c s₀ s := by
  unfold generateSecret
  refine (triple_generatePassword hnone).bind fun data => Triple.of_state fun s hs => ?_
  obtain ⟨n, p, hp, rfl, hs⟩ := hs
  have hwrote : Wrote env c s₀ s := ⟨n, p, hp, hs⟩
  have howner : Triple (· = s) (setControllerReference k (secretOf c.spec) : Op Unit)
      (fun _ s' => s' = s) fun _ s' => s' = s₀ ∨ Wrote env c s₀ s' := by
    unfold setControllerReference
    split_ifs
    · exact Triple.throw fun s' hs' => Or.inr (hs' ▸ hwrote)
    · exact Triple.pure fun s' hs' => hs'
  refine howner.bind fun _ => ?_
  -- the Secret is written again, as it was
  have hupdate : Triple (· = s) (env.updateSecret (secretOf c.spec) (secretData c p))
      (fun _ s' => s' = s) fun _ s' => s' = s₀ ∨ Wrote env c s₀ s' := by
    refine (triple_write (W := (· = s)) fun _ => ⟨s, ?_, rfl⟩).conseq (fun s' h => h)
      (fun _ s' h => h) ?_
    · rw [hs]
      simp [Stored.setSecret]
    · rintro e s' (rfl | rfl)
      · exact Or.inr hwrote
      · exact Or.inr hwrote
  refine hupdate.bind fun _ => ?_
  have hkey : (secretData c p).lookup "secret".toList = none := rfl
  rw [hkey]
  exact Triple.pure fun s' hs' => ⟨rfl, hs' ▸ hwrote⟩

theorem Wrote.generated {k : NamespacedName} {c : Loaded} {s₀ s : Stored}
    {spec : ClientSpec} (hspec : c.spec = inNamespace k spec) (h : Wrote env c s₀ s)
    (hname : spec.secretName ≠ []) (hgenerate : spec.generateSecret = true)
    (hnone : s₀.secrets (secretRef k spec) = none) : Generated env k spec s₀ s := by
  obtain ⟨n, p, hp, hs⟩ := h
  refine ⟨hname, hgenerate, hnone, n, p, secretData c p, hp, rfl, ?_⟩
  rw [hs, hspec]
  rfl

theorem triple_manageSecret (k : NamespacedName) (c : Loaded) (hc : c.secretValue = [])
    (s₀ : Stored) :
    Triple (· = s₀) (env.manageSecret k c)
      (fun c' s => ∃ v ns, c' = { c with
          spec := { c.spec with secretNamespace := ns }, secretValue := v } ∧
        Gives env k c.spec s₀ v s)
      fun _ s => s = s₀ ∨ Generated env k c.spec s₀ s := by
  unfold manageSecret
  split_ifs with hname
  · refine Triple.pure fun s hs => ⟨[], c.spec.secretNamespace, ?_, hs ▸ .unnamed hname⟩
    rw [← hc]
  · obtain ⟨ns, hns⟩ := inNamespace_eq k c.spec
    have hvalue : Triple (· = s₀)
        (env.readOrGenerateSecret k { c with spec := inNamespace k c.spec })
        (fun v s => Gives env k c.spec s₀ v s) fun _ s => s = s₀ ∨ Generated env k c.spec s₀ s := by
      unfold readOrGenerateSecret
      refine (triple_readSecret _ s₀).reify.bind fun r => ?_
      cases r with
      | ok v =>
        refine Triple.pure ?_
        rintro s ⟨rfl, data, hdata, hv⟩
        exact .read hname hdata hv
      | error e =>
        refine Triple.of_state fun s hs => ?_
        obtain ⟨rfl, hnone⟩ := hs
        dsimp only
        split_ifs with h
        · obtain ⟨hnot, hgenerate⟩ := Bool.and_eq_true_iff.mp h
          have hnone := hnone hnot
          rw [hns] at hgenerate
          refine (triple_generateSecret hnone).conseq (fun s h => h) ?_ ?_
          · rintro v s' ⟨rfl, hs'⟩
            exact .generated (hs'.generated rfl hname hgenerate hnone)
          · exact fun e s' hs' => hs'.imp_right fun h => h.generated rfl hname hgenerate hnone
        · exact Triple.throw fun s' hs' => Or.inl hs'
    refine hvalue.bind fun v => Triple.pure fun s hs => ⟨v, ns, ?_, hs⟩
    rw [hns]

/-! The client in Dex. -/

/-- The fields of a spec that an update does not write are empty in the client as well. -/
def Mergeable (spec : ClientSpec) (c : DexClient) : Prop :=
  (spec.redirectURIs = [] → c.redirectURIs = []) ∧ (spec.trustedPeers = [] → c.trustedPeers = []) ∧
    (spec.logoUrl = [] → c.logoUrl = [])

theorem merge_newClient (c : Loaded) (n : ℕ) : merge c.spec (env.newClient c n) = env.newClient c n := by
  unfold merge newClient
  simp

/-- The update does not make the client anew. -/
def Keeps (c : Loaded) (old : DexClient) : Prop :=
  old.secret = c.secretValue ∧ old.isPublic = c.spec.isPublic

/-- What a run makes of the client: a new one, or the old one with the update. -/
def Applied (env : Env) (c : Loaded) (r₀ r : Option DexClient) : Prop :=
  (∃ n, r = some (env.newClient c n)) ∨ ∃ old, r₀ = some old ∧ Keeps c old ∧ r = some (merge c.spec old)

/-- What a run that raises leaves of the client. -/
def Partly (env : Env) (c : Loaded) (r₀ r : Option DexClient) : Prop :=
  r = r₀ ∨ r = none ∨ Applied env c r₀ r

theorem triple_createOauth2Client {c : Loaded} (hname : c.spec.name ≠ []) (s₀ : Stored) :
    Triple (· = s₀) (env.createOauth2Client c)
      (fun _ s => ∃ r, s = s₀.setDex c.spec.name r ∧
        (s₀.dex c.spec.name = none ∧ (∃ n, r = some (env.newClient c n)) ∨
          ∃ old, s₀.dex c.spec.name = some old ∧ r = some old))
      fun _ s => ∃ r, s = s₀.setDex c.spec.name r ∧ (r = s₀.dex c.spec.name ∨
        s₀.dex c.spec.name = none ∧ ∃ n, r = some (env.newClient c n)) := by
  unfold createOauth2Client
  refine (triple_write (W := fun s => ∃ r, s = s₀.setDex c.spec.name r ∧
    (s₀.dex c.spec.name = none ∧ (∃ n, r = some (env.newClient c n)) ∨
      ∃ old, s₀.dex c.spec.name = some old ∧ r = some old)) fun n => ?_).conseq (fun s h => h)
    (fun _ s h => h) ?_
  · simp only [if_neg hname]
    cases hd : s₀.dex c.spec.name with
    | none => exact ⟨_, rfl, _, rfl, Or.inl ⟨rfl, n, rfl⟩⟩
    | some old => exact ⟨s₀, rfl, some old, (Stored.setDex_self hd).symm, Or.inr ⟨old, rfl, rfl⟩⟩
  · rintro e s (rfl | ⟨r, rfl, h | ⟨old, hold, rfl⟩⟩)
    · exact ⟨_, (Stored.setDex_self rfl).symm, Or.inl rfl⟩
    · exact ⟨r, rfl, Or.inr h⟩
    · exact ⟨some old, rfl, Or.inl hold.symm⟩

/-- There is a client before the update. -/
theorem triple_createClient {c : Loaded} (hname : c.spec.name ≠ []) (s₀ : Stored) :
    Triple (· = s₀) (env.createClient c)
      (fun b s => b = true ∧ ∃ r, s = s₀.setDex c.spec.name r ∧
        (s₀.dex c.spec.name = none ∧ (∃ n, r = some (env.newClient c n)) ∨
          ∃ old, s₀.dex c.spec.name = some old ∧ r = some old))
      fun _ s => ∃ r, s = s₀.setDex c.spec.name r ∧ (r = s₀.dex c.spec.name ∨
        s₀.dex c.spec.name = none ∧ ∃ n, r = some (env.newClient c n)) := by
  unfold createClient
  refine (triple_fetch _ _ s₀).reify.bind fun r => ?_
  cases r with
  | ok old =>
    refine Triple.pure ?_
    rintro s ⟨rfl, hold⟩
    exact ⟨rfl, some old, (Stored.setDex_self hold).symm, Or.inr ⟨old, hold, rfl⟩⟩
  | error e =>
    refine Triple.of_state fun s hs => ?_
    obtain ⟨rfl, -⟩ := hs
    dsimp only
    split_ifs
    · exact (triple_createOauth2Client hname s).bind fun _ => Triple.pure fun s' hs' => ⟨rfl, hs'⟩
    · refine Triple.throw fun s' hs' => ?_
      subst hs'
      exact ⟨_, (Stored.setDex_self rfl).symm, Or.inl rfl⟩

theorem triple_patchClient {spec : ClientSpec} {s₀ : Stored} {old : DexClient}
    (hold : s₀.dex spec.name = some old) :
    Triple (· = s₀) (env.patchClient spec)
      (fun _ s => s = s₀.setDex spec.name (some (merge spec old)))
      fun _ s => s = s₀ ∨ s = s₀.setDex spec.name (some (merge spec old)) := by
  refine triple_write fun n => ⟨_, ?_, rfl⟩
  rw [hold]
  rfl

theorem triple_removeOauth2Client (id : Text) (s₀ : Stored) :
    Triple (· = s₀) (env.removeOauth2Client id) (fun _ s => s = s₀.setDex id none)
      fun _ s => s = s₀ ∨ s = s₀.setDex id none :=
  triple_write fun _ => ⟨_, rfl, rfl⟩

/-- The client is removed, created and updated: it is new if no call fails, and missing or new
otherwise. -/
theorem triple_recreate {c : Loaded} (hname : c.spec.name ≠ []) {s₀ : Stored} {old : DexClient}
    (hold : s₀.dex c.spec.name = some old) :
    Triple (· = s₀) (do
        env.removeOauth2Client c.spec.name
        env.createOauth2Client c
        env.patchClient c.spec)
      (fun _ s => ∃ r, s = s₀.setDex c.spec.name r ∧ Applied env c (some old) r)
      fun _ s => ∃ r, s = s₀.setDex c.spec.name r ∧ Partly env c (some old) r := by
  have hremove : Triple (· = s₀) (env.removeOauth2Client c.spec.name)
      (fun _ s => s = s₀.setDex c.spec.name none)
      fun _ s => ∃ r, s = s₀.setDex c.spec.name r ∧ Partly env c (some old) r := by
    refine (triple_removeOauth2Client _ s₀).conseq (fun s h => h) (fun _ s h => h) ?_
    rintro e s (rfl | rfl)
    · exact ⟨some old, (Stored.setDex_self hold).symm, Or.inl rfl⟩
    · exact ⟨none, rfl, Or.inr (Or.inl rfl)⟩
  have hcreate : Triple (· = s₀.setDex c.spec.name none) (env.createOauth2Client c)
      (fun _ s => ∃ n, s = s₀.setDex c.spec.name (some (env.newClient c n)))
      fun _ s => ∃ r, s = s₀.setDex c.spec.name r ∧ Partly env c (some old) r := by
    refine (triple_createOauth2Client hname _).conseq (fun s h => h) ?_ ?_
    · rintro _ s ⟨r, rfl, ⟨-, n, rfl⟩ | ⟨old', hold', -⟩⟩
      · exact ⟨n, Stored.setDex_setDex ..⟩
      · rw [Stored.setDex_dex] at hold'
        cases hold'
    · rintro e s ⟨r, rfl, h⟩
      rw [Stored.setDex_dex] at h
      refine ⟨r, Stored.setDex_setDex .., ?_⟩
      rcases h with rfl | ⟨-, hnew⟩
      · exact Or.inr (Or.inl rfl)
      · exact Or.inr (Or.inr (Or.inl hnew))
  refine hremove.bind fun _ => hcreate.bind fun _ => Triple.of_state fun s hs => ?_
  obtain ⟨n, rfl⟩ := hs
  have hnew : Applied env c (some old) (some (env.newClient c n)) := Or.inl ⟨n, rfl⟩
  have hsame : (s₀.setDex c.spec.name (some (env.newClient c n))).setDex c.spec.name
      (some (merge c.spec (env.newClient c n))) =
        s₀.setDex c.spec.name (some (env.newClient c n)) := by
    rw [Stored.setDex_setDex, merge_newClient]
  refine (triple_patchClient (Stored.setDex_dex ..)).conseq (fun s h => h) ?_ ?_
  · rintro _ s rfl
    exact ⟨_, hsame, hnew⟩
  · rintro e s (rfl | rfl)
    · exact ⟨_, rfl, Or.inr (Or.inr hnew)⟩
    · exact ⟨_, hsame, Or.inr (Or.inr hnew)⟩

theorem triple_updateOauth2Client {c : Loaded} (hname : c.spec.name ≠ []) {s₀ : Stored}
    {old : DexClient} (hold : s₀.dex c.spec.name = some old) :
    Triple (· = s₀) (env.updateOauth2Client c)
      (fun _ s => ∃ r, s = s₀.setDex c.spec.name r ∧ Applied env c (some old) r)
      fun _ s => ∃ r, s = s₀.setDex c.spec.name r ∧ Partly env c (some old) r := by
  unfold updateOauth2Client
  refine ((triple_fetch _ _ s₀).conseq (fun s h => h) (fun a s h => h) ?_).bind fun existing => ?_
  · rintro e s ⟨rfl, -⟩
    exact ⟨some old, (Stored.setDex_self hold).symm, Or.inl rfl⟩
  refine Triple.of_state fun s hs => ?_
  obtain ⟨rfl, hexisting⟩ := hs
  cases hold.symm.trans hexisting
  split_ifs with hanew
  · exact triple_recreate hname hold
  · rw [not_or, not_not, not_not] at hanew
    refine (triple_patchClient hold).conseq (fun s' h => h) ?_ ?_
    · rintro _ s' rfl
      exact ⟨_, rfl, Or.inr ⟨old, rfl, hanew, rfl⟩⟩
    · rintro e s' (rfl | rfl)
      · exact ⟨some old, (Stored.setDex_self hold).symm, Or.inl rfl⟩
      · exact ⟨_, rfl, Or.inr (Or.inr (Or.inr ⟨old, rfl, hanew, rfl⟩))⟩

/-- What `Reconcile` does with the client of a resource. -/
def applyClient (env : Env) (c : Loaded) : Op Unit := do
  let alreadyExists ← env.createClient c
  if alreadyExists then env.updateOauth2Client c

theorem triple_applyClient {c : Loaded} (hname : c.spec.name ≠ []) (s₀ : Stored) :
    Triple (· = s₀) (env.applyClient c)
      (fun _ s => ∃ r, s = s₀.setDex c.spec.name r ∧ Applied env c (s₀.dex c.spec.name) r)
      fun _ s => ∃ r, s = s₀.setDex c.spec.name r ∧ Partly env c (s₀.dex c.spec.name) r := by
  unfold applyClient
  refine ((triple_createClient hname s₀).conseq (fun s h => h) (fun b s h => h) ?_).bind fun b => ?_
  · rintro e s ⟨r, rfl, rfl | ⟨-, hnew⟩⟩
    · exact ⟨_, rfl, Or.inl rfl⟩
    · exact ⟨r, rfl, Or.inr (Or.inr (Or.inl hnew))⟩
  refine Triple.of_state fun s hs => ?_
  obtain ⟨rfl, r, rfl, h⟩ := hs
  have hex : ∃ old, r = some old ∧ (s₀.dex c.spec.name = some old ∨ ∃ n, old = env.newClient c n) := by
    rcases h with ⟨-, n, rfl⟩ | ⟨old, hold, rfl⟩
    · exact ⟨_, rfl, Or.inr ⟨n, rfl⟩⟩
    · exact ⟨old, rfl, Or.inl hold⟩
  obtain ⟨old, rfl, hold⟩ := hex
  have happlied {r : Option DexClient} (hr : Applied env c (some old) r) :
      Applied env c (s₀.dex c.spec.name) r := by
    rcases hr with hnew | ⟨old', hold', hkeeps, rfl⟩
    · exact Or.inl hnew
    · cases hold'
      rcases hold with hold | ⟨n, rfl⟩
      · exact Or.inr ⟨old, hold, hkeeps, rfl⟩
      · exact Or.inl ⟨n, by rw [merge_newClient]⟩
  refine (triple_updateOauth2Client hname (Stored.setDex_dex ..)).conseq (fun s h => h) ?_ ?_
  · rintro _ s ⟨r, rfl, hr⟩
    exact ⟨r, Stored.setDex_setDex .., happlied hr⟩
  · rintro e s ⟨r, rfl, hr⟩
    refine ⟨r, Stored.setDex_setDex .., ?_⟩
    rcases hr with rfl | rfl | hr
    · rcases hold with hold | ⟨n, rfl⟩
      · exact Or.inl hold.symm
      · exact Or.inr (Or.inr (Or.inl ⟨n, rfl⟩))
    · exact Or.inr (Or.inl rfl)
    · exact Or.inr (Or.inr (happlied hr))

/-- Dex makes up an id for a client without one, which is then not found. -/
theorem triple_applyClient_unnamed {c : Loaded} (hname : c.spec.name = [])
    (clients : NamespacedName → Option Client) :
    Triple (fun s => s.clients = clients ∧ s.dex [] = none) (env.applyClient c) (fun _ _ => False)
      fun _ s => s.clients = clients ∧ s.dex [] = none := by
  have hget : Triple (fun s => s.clients = clients ∧ s.dex [] = none)
      (env.getOauth2Client c.spec.name) (fun _ _ => False)
      fun _ s => s.clients = clients ∧ s.dex [] = none := by
    refine Triple.of_state fun s₀ hs₀ => ?_
    refine (triple_fetch _ _ s₀).conseq (fun s h => h) ?_ ?_
    · rintro old s ⟨rfl, hold⟩
      rw [hname, hs₀.2] at hold
      cases hold
    · rintro e s ⟨rfl, -⟩
      exact hs₀
  have hcreate : Triple (fun s => s.clients = clients ∧ s.dex [] = none)
      (env.createOauth2Client c) (fun _ s => s.clients = clients ∧ s.dex [] = none)
      fun _ s => s.clients = clients ∧ s.dex [] = none := by
    refine Triple.of_state fun s₀ hs₀ => ?_
    refine (triple_write (W := fun s => s.clients = clients ∧ s.dex [] = none) fun n => ?_).conseq
      (fun s h => h) (fun _ s h => h) ?_
    · simp only [if_pos hname]
      cases s₀.dex (env.newId n) with
      | some old => exact ⟨s₀, rfl, hs₀⟩
      | none =>
        refine ⟨_, rfl, hs₀.1, ?_⟩
        exact (Function.update_of_ne (env.newId_ne n).symm _ _).trans hs₀.2
    · rintro e s (rfl | hs)
      · exact hs₀
      · exact hs
  have hexists : Triple (fun s => s.clients = clients ∧ s.dex [] = none) (env.createClient c)
      (fun b s => b = true ∧ s.clients = clients ∧ s.dex [] = none)
      fun _ s => s.clients = clients ∧ s.dex [] = none := by
    unfold createClient
    refine hget.reify.bind fun r => ?_
    cases r with
    | ok old => exact Triple.pure fun s hs => hs.elim
    | error e =>
      dsimp only
      split_ifs
      · exact hcreate.bind fun _ => Triple.pure fun s hs => ⟨rfl, hs⟩
      · exact Triple.throw fun s hs => hs
  refine hexists.bind fun b => Triple.of_state fun s hs => ?_
  obtain ⟨rfl, hs⟩ := hs
  refine (hget.conseq (fun s' h => ?_) (fun _ s' h => h) fun e s' h => h).bind fun _ => ?_
  · rw [h]
    exact hs
  · exact Triple.of_state fun s' hs' => hs'.elim

theorem Generated.eqs {k : NamespacedName} {spec : ClientSpec} {s₁ s₂ : Stored}
    (h : Generated env k spec s₁ s₂) : s₂.clients = s₁.clients ∧ s₂.dex = s₁.dex := by
  obtain ⟨-, -, -, n, p, data, -, -, rfl⟩ := h
  exact ⟨rfl, rfl⟩

theorem Gives.eqs {k : NamespacedName} {spec : ClientSpec} {s₁ s₂ : Stored} {v : Text}
    (h : Gives env k spec s₁ v s₂) : s₂.clients = s₁.clients ∧ s₂.dex = s₁.dex := by
  cases h with
  | unnamed h => exact ⟨rfl, rfl⟩
  | read h hdata hvalue => exact ⟨rfl, rfl⟩
  | generated h => exact h.eqs

/-- An attempt for a live resource: after the finalizer and the Secret, the client is applied. -/
theorem triple_reconcile_live {k : NamespacedName} {cl : Client} {s₀ s₁ : Stored} {Q E : Stored → Prop}
    (hcl : s₀.clients k = some cl) (hlive : cl.deletionRequested = false)
    (hs₁ : s₁ = s₀.setClient k (some cl.withFinalizer)) (hsame : E s₀) (hfinalizer : E s₁)
    (hsecret : ∀ s, Generated env k cl.spec s₁ s → E s)
    (hclient : ∀ (c : Loaded) (ns : Text) (s₂ : Stored),
      c.spec = { cl.spec with secretNamespace := ns } → Gives env k cl.spec s₁ c.secretValue s₂ →
        Triple (· = s₂) (env.applyClient c) (fun _ s => Q s) fun _ s => E s) :
    Triple (· = s₀) (env.reconcile k) (fun _ s => Q s) fun _ s => E s := by
  unfold reconcile
  refine ((triple_getClientSpec k s₀).conseq (fun s h => h) (fun r s h => h) ?_).bind fun r => ?_
  · rintro e s rfl
    exact hsame
  refine Triple.of_state fun s hs => ?_
  obtain ⟨rfl, hr, hvalue⟩ := hs
  rw [hcl] at hr
  obtain ⟨c, rfl, rfl⟩ := Option.map_eq_some_iff.mp hr.symm
  dsimp only
  rw [handleDeletion, if_neg (by simp [hlive]), pure_bind, if_neg Bool.false_ne_true]
  refine ((triple_addFinalizer hcl hlive).conseq (fun s h => h) (fun c s h => h) ?_).bind fun c' => ?_
  · rintro e s' (rfl | rfl)
    · exact hsame
    · exact hs₁ ▸ hfinalizer
  refine Triple.of_state fun s' hs' => ?_
  obtain ⟨rfl, rfl⟩ := hs'
  rw [← hs₁]
  have hspec : (c.withFinalizer).spec = c.spec := by
    unfold Client.withFinalizer
    split_ifs
    · rfl
    · rfl
  have hmanage : Triple (· = s₁) (env.manageSecret k { c with toClient := c.withFinalizer }) _ _ :=
    triple_manageSecret k { c with toClient := c.withFinalizer } (hvalue c rfl) s₁
  rw [hspec] at hmanage
  refine (hmanage.conseq (fun s h => h) (fun c s h => h) ?_).bind fun c' => ?_
  · rintro e s' (rfl | h)
    · exact hfinalizer
    · exact hsecret s' h
  refine Triple.of_state fun s₂ hs₂ => ?_
  obtain ⟨v, ns, rfl, hgives⟩ := hs₂
  exact hclient _ ns s₂ rfl hgives

theorem triple_reconcile_absent {k : NamespacedName} {s₀ : Stored} (hk : s₀.clients k = none) :
    Triple (· = s₀) (env.reconcile k) (fun _ s => s = s₀) fun _ s => s = s₀ := by
  unfold reconcile
  refine (triple_getClientSpec k s₀).bind fun r => Triple.of_state fun s hs => ?_
  obtain ⟨rfl, hr, -⟩ := hs
  rw [hk] at hr
  cases Option.map_eq_none_iff.mp hr.symm
  exact Triple.pure fun s' hs' => hs'

/-- A resource that is to be deleted loses its client, then its finalizer, and with it itself. -/
theorem triple_reconcile_deleted {k : NamespacedName} {cl : Client} {s₀ : Stored}
    (hcl : s₀.clients k = some cl) (hdeleted : cl.deletionRequested = true)
    (hfinalizers : cl.finalizers = [dexFinalizer]) :
    Triple (· = s₀) (env.reconcile k)
      (fun _ s => s = (s₀.setDex cl.spec.name none).setClient k none)
      fun _ s => s = s₀ ∨ s = s₀.setDex cl.spec.name none ∨
        s = (s₀.setDex cl.spec.name none).setClient k none := by
  unfold reconcile
  refine ((triple_getClientSpec k s₀).conseq (fun s h => h) (fun r s h => h)
    fun e s h => Or.inl h).bind fun r => Triple.of_state fun s hs => ?_
  obtain ⟨rfl, hr, -⟩ := hs
  rw [hcl] at hr
  obtain ⟨c, rfl, rfl⟩ := Option.map_eq_some_iff.mp hr.symm
  have hhandle : Triple (· = s) (env.handleDeletion k c)
      (fun b s' => b = true ∧ s' = (s.setDex c.spec.name none).setClient k none)
      fun _ s' => s' = s ∨ s' = s.setDex c.spec.name none ∨
        s' = (s.setDex c.spec.name none).setClient k none := by
    unfold handleDeletion
    rw [if_pos hdeleted, if_pos (by simp [hfinalizers])]
    refine ((triple_removeOauth2Client _ s).conseq (fun s h => h) (fun _ s h => h)
      fun e s' h => h.imp_right Or.inl).bind fun _ => ?_
    have hcl' : (s.setDex c.spec.name none).clients k = some c.toClient := hcl
    refine Triple.bind ((triple_updateClient hcl' ?_).conseq (fun s h => h) (fun _ s h => h)
      fun e s' h => Or.inr h) fun _ => Triple.pure fun s' hs' => ⟨rfl, hs'⟩
    simp [hdeleted, hfinalizers]
  refine hhandle.bind fun b => Triple.of_state fun s' hs' => ?_
  obtain ⟨rfl, rfl⟩ := hs'
  exact Triple.pure fun s'' hs'' => hs''

end Env

end Understack.Dexop
