import Understack.Dexop.ClientEffects

/-! Whether Dex and the Secret of a resource hold the same secret after `Reconcile`. A generated
password is looked for under a key that it was not written to, and the run goes on without it. -/
namespace Understack.Dexop
open PyText Attempts Env

/-- The client of the resource and its Secret hold the same secret, which is not empty. -/
def SecretsAgree (k : NamespacedName) (spec : ClientSpec) (s : Stored) : Prop :=
  ∃ c data, s.dex spec.name = some c ∧ c.secret ≠ [] ∧ s.secrets (secretRef k spec) = some data ∧
    data.lookup secretKey = some c.secret

/-- The Secret is there, with a value. -/
def SecretFilled (k : NamespacedName) (spec : ClientSpec) (s : Stored) : Prop :=
  ∃ data v, s.secrets (secretRef k spec) = some data ∧ data.lookup secretKey = some v ∧ v ≠ []

variable {env : Env} {k : NamespacedName} {spec : ClientSpec} {c : Loaded} {s₁ s₂ : Stored}

/-- The secret of an applied client is the one that was given, or one that Dex made up for none. -/
theorem Env.Applied.secret {r₀ r : Option DexClient} (h : Applied env c r₀ r) :
    ∃ d, r = some d ∧ (d.secret = c.secretValue ∨ c.secretValue = [] ∧ d.secret.length ≠ 48) := by
  rcases h with ⟨n, rfl⟩ | ⟨old, -, hkeeps, rfl⟩
  · refine ⟨_, rfl, ?_⟩
    unfold newClient
    split_ifs with hv
    · exact Or.inr ⟨hv, env.newSecret_length _ n⟩
    · exact Or.inl rfl
  · exact ⟨_, rfl, Or.inl hkeeps.1⟩

theorem agree_iff_of_applied {r : Option DexClient} (hsecret : spec.secretName ≠ [])
    (hgives : Gives env k spec s₁ c.secretValue s₂)
    (hr : Applied env c (s₂.dex spec.name) r) :
    SecretsAgree k spec (s₂.setDex spec.name r) ↔ SecretFilled k spec s₁ := by
  obtain ⟨d, rfl, hd⟩ := hr.secret
  have hagree : SecretsAgree k spec (s₂.setDex spec.name (some d)) ↔ d.secret ≠ [] ∧
      ∃ data, s₂.secrets (secretRef k spec) = some data ∧ data.lookup secretKey = some d.secret := by
    constructor
    · rintro ⟨d', data, hd', hne, hdata, hl⟩
      rw [Stored.setDex_dex] at hd'
      cases hd'
      exact ⟨hne, data, hdata, hl⟩
    · rintro ⟨hne, data, hdata, hl⟩
      exact ⟨d, data, Stored.setDex_dex .., hne, hdata, hl⟩
  rw [hagree]
  generalize hv : c.secretValue = v at hgives hd
  cases hgives with
  | unnamed h => exact absurd h hsecret
  | @read _ data _ hdata hvalue =>
    constructor
    · rintro ⟨hne, data', hdata', hl⟩
      cases hdata.symm.trans hdata'
      exact ⟨data, d.secret, hdata, hl, hne⟩
    · rintro ⟨data', u, hdata', hl, hu⟩
      cases hdata.symm.trans hdata'
      cases hvalue.symm.trans hl
      have hsame : d.secret = v := hd.resolve_right fun h => hu h.1
      rw [hsame]
      exact ⟨hu, data, hdata, hl⟩
  | generated h =>
    obtain ⟨-, -, hnone, n, p, data, hp, hl, rfl⟩ := h
    constructor
    · rintro ⟨hne, data', hdata', hl'⟩
      have hdata : data = data' := by simpa [Stored.setSecret] using hdata'
      rw [← hdata, hl] at hl'
      cases hl'
      rcases hd with hempty | ⟨-, hlength⟩
      · exact absurd hempty hne
      · exact absurd (env.password_length n _ hp) hlength
    · rintro ⟨data', u, hdata', -, -⟩
      rw [hnone] at hdata'
      cases hdata'

/-- Where `Reconcile` returns for a live resource with a Secret, Dex and the Secret agree exactly if
the Secret was there with a value. Dex has no client with an empty id. -/
theorem secrets_agree_iff (env : Env) {k : NamespacedName} {cl : Client} {w w' : Counted Stored}
    (hcl : w.state.clients k = some cl) (hlive : cl.deletionRequested = false)
    (hsecret : cl.spec.secretName ≠ []) (hdex : w.state.dex [] = none)
    (hok : env.reconcile k w = .ok () w') :
    SecretsAgree k cl.spec w'.state ↔ SecretFilled k cl.spec w.state := by
  have hrun : Triple (· = w.state) (env.reconcile k)
      (fun _ s => SecretsAgree k cl.spec s ↔ SecretFilled k cl.spec w.state) fun _ _ => True := by
    refine triple_reconcile_live hcl hlive rfl trivial trivial (fun _ _ => trivial) ?_
    intro c ns s₂ hspec hgives
    have hname : c.spec.name = cl.spec.name := by rw [hspec]
    by_cases hnamed : cl.spec.name = []
    · refine (triple_applyClient_unnamed (hname.trans hnamed) s₂.clients).conseq ?_
        (fun _ s h => h.elim) fun _ _ _ => trivial
      rintro s rfl
      refine ⟨rfl, ?_⟩
      rw [hgives.eqs.2]
      exact hdex
    · rw [← hname] at hnamed
      refine (triple_applyClient hnamed s₂).conseq (fun s h => h) ?_ fun _ _ _ => trivial
      rintro _ s ⟨r, rfl, hr⟩
      rw [hname] at hr ⊢
      -- the finalizer does not touch the Secrets
      have hiff := agree_iff_of_applied hsecret hgives hr
      exact hiff
  have h := hrun w rfl
  rw [hok] at h
  exact h

/-! A resource with a Secret, in the namespace of the resource. -/

def demoKey : NamespacedName := ⟨"ns".toList, "web".toList⟩

def demoSpec : ClientSpec where
  name := "web".toList
  secretName := "s".toList
  secretNamespace := []
  generateSecret := true
  redirectURIs := ["u".toList]
  logoUrl := []
  trustedPeers := []
  isPublic := false

/-- No call fails, and Dex makes up the secret `x`. -/
def demoEnv : Env where
  faults _ := none
  faults_found _ _ h := by cases h
  issuer := "i".toList
  discoveredIssuer := []
  password _ := .ok (List.replicate 48 'p')
  password_length _ _ h := by
    cases h
    rfl
  unknownClient := "not found".toList
  unknownClient_text := by decide
  newId _ := "id".toList
  newId_ne _ := by decide
  newSecret _ _ := "x".toList
  newSecret_length _ _ := by decide

/-- Dex is empty, and the Secret as given. -/
def demoWorld (secret : Option (List (Text × Text))) : Counted Stored :=
  ⟨⟨fun k => if k = demoKey then some ⟨demoSpec, [], false⟩ else none,
    fun k => if k = ⟨"ns".toList, "s".toList⟩ then secret else none, fun _ => none⟩, 0⟩

theorem secrets_agree_iff_filled : ∃ w', demoEnv.reconcile demoKey
      (demoWorld (some [(secretKey, "v".toList)])) = .ok () w' ∧
    (SecretsAgree demoKey demoSpec w'.state ↔
      SecretFilled demoKey demoSpec (demoWorld (some [(secretKey, "v".toList)])).state) :=
  ⟨_, rfl, secrets_agree_iff demoEnv
    (show (demoWorld _).state.clients demoKey = some ⟨demoSpec, [], false⟩ from rfl) rfl
    (by decide) rfl rfl⟩

/-- A Secret that is generated in the run holds another secret than Dex. -/
theorem generated_secret_lost : ∃ w', demoEnv.reconcile demoKey (demoWorld none) = .ok () w' ∧
    ¬ SecretsAgree demoKey demoSpec w'.state := by
  refine ⟨_, rfl, ?_⟩
  rintro ⟨c, data, hc, -, hdata, hl⟩
  cases hc
  cases hdata
  revert hl
  decide

end Understack.Dexop
