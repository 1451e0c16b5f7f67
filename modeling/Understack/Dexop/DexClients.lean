import Understack.Dexop.ClientSecrets

/-! Whether Dex has exactly the clients that the resources declare, after every change that was
reconciled. The controller knows only the current spec of a resource, and an update of Dex leaves
what the request leaves empty. -/
namespace Understack.Dexop
open PyText Attempts Env

structure Matches (spec : ClientSpec) (c : DexClient) : Prop where
  redirectURIs : c.redirectURIs = spec.redirectURIs
  trustedPeers : c.trustedPeers = spec.trustedPeers
  isPublic : c.isPublic = spec.isPublic
  logoUrl : c.logoUrl = spec.logoUrl

/-- Dex has the client of each resource, as its spec says, and no other. -/
structure Exact (s : Stored) : Prop where
  declared : ∀ k cl, s.clients k = some cl → ∃ c, s.dex cl.spec.name = some c ∧ Matches cl.spec c
  owned : ∀ id c, s.dex id = some c → ∃ k cl, s.clients k = some cl ∧ cl.spec.name = id

def DistinctNames (s : Stored) : Prop :=
  ∀ k k' cl cl', s.clients k = some cl → s.clients k' = some cl' → cl.spec.name = cl'.spec.name →
    k = k'

inductive Change where
  | create (k : NamespacedName) (spec : ClientSpec)
  | edit (k : NamespacedName) (spec : ClientSpec)
  | delete (k : NamespacedName)

def Change.key : Change → NamespacedName
  | .create k _ => k
  | .edit k _ => k
  | .delete k => k

/-- What Kubernetes makes of the resource. One with a finalizer is only marked for deletion. -/
def Change.result : Change → Option Client → Option Client
  | .create _ spec, none => some ⟨spec, [], false⟩
  | .create _ _, some cl => some cl
  | .edit _ spec, old => old.map fun cl => { cl with spec := spec }
  | .delete _, old => old.bind fun cl =>
    if cl.finalizers = [] then none else some { cl with deletionRequested := true }

/-- A change of a resource, with the Secrets at that time. -/
structure Turn where
  change : Change
  secrets : NamespacedName → Option (List (Text × Text))

def Turn.apply (t : Turn) (s : Stored) : Stored where
  clients := Function.update s.clients t.change.key (t.change.result (s.clients t.change.key))
  secrets := t.secrets
  dex := s.dex

/-- The states after the turns of a run: each change leaves the names distinct and is reconciled
until that succeeds. -/
inductive Reached (env : Env) (ok : Stored → Turn → Prop) : Counted Stored → Prop
  | start (secrets : NamespacedName → Option (List (Text × Text))) (n : ℕ) :
      Reached env ok ⟨⟨fun _ => none, secrets, fun _ => none⟩, n⟩
  | turn {w w' : Counted Stored} {t : Turn} (h : Reached env ok w)
      (hdistinct : DistinctNames (t.apply w.state)) (hok : ok w.state t)
      (hsettled : Retried (env.reconcile t.change.key) ⟨t.apply w.state, w.calls⟩ w') :
      Reached env ok w'

/-- The secrets that a run may go on with: none, what the Secret holds, and where it is missing
none or the password that an attempt before has written. -/
def MayGive (env : Env) (secrets : NamespacedName → Option (List (Text × Text)))
    (k : NamespacedName) (spec : ClientSpec) (v : Text) : Prop :=
  (spec.secretName = [] ∧ v = []) ∨
  (spec.secretName ≠ [] ∧ ∃ data, secrets (secretRef k spec) = some data ∧
    data.lookup secretKey = some v) ∨
  (spec.secretName ≠ [] ∧ spec.generateSecret = true ∧ secrets (secretRef k spec) = none ∧
    (v = [] ∨ ∃ n, env.password n = .ok v))

/-- The run makes the client anew. -/
def MadeAnew (env : Env) (secrets : NamespacedName → Option (List (Text × Text)))
    (k : NamespacedName) (spec : ClientSpec) (c : DexClient) : Prop :=
  c.isPublic ≠ spec.isPublic ∨ ∀ v, MayGive env secrets k spec v → v ≠ c.secret

/-- An edit keeps the name, and empties no list or text unless the client is made anew. -/
def Safe (env : Env) (s : Stored) (t : Turn) : Prop :=
  match t.change with
  | .edit k spec => ∀ cl c, s.clients k = some cl → s.dex cl.spec.name = some c →
    spec.name = cl.spec.name ∧ (Mergeable spec c ∨ MadeAnew env t.secrets k spec c)
  | _ => True

variable {env : Env} {k : NamespacedName} {spec : ClientSpec} {c : Loaded} {s s₀ s₁ s₂ : Stored}

/-! What may be given shrinks with the attempts. -/

theorem Env.Generated.mayGive (h : Generated env k spec s₁ s₂) {v : Text}
    (hv : MayGive env s₂.secrets k spec v) : MayGive env s₁.secrets k spec v := by
  obtain ⟨hname, hgenerate, hnone, n, p, data, hp, hl, rfl⟩ := h
  have hsecret : (s₁.setSecret (secretRef k spec) data).secrets (secretRef k spec) = some data := by
    simp [Stored.setSecret]
  rcases hv with hv | ⟨-, data', hdata', hl'⟩ | ⟨-, -, hnone', -⟩
  · exact Or.inl hv
  · rw [hsecret] at hdata'
    cases hdata'
    rw [hl] at hl'
    cases hl'
    exact Or.inr (Or.inr ⟨hname, hgenerate, hnone, Or.inr ⟨n, hp⟩⟩)
  · rw [hsecret] at hnone'
    cases hnone'

theorem Env.Gives.mayGive {v v' : Text} (h : Gives env k spec s₁ v s₂)
    (hv : MayGive env s₂.secrets k spec v') : MayGive env s₁.secrets k spec v' := by
  cases h with
  | unnamed h => exact hv
  | read h hdata hvalue => exact hv
  | generated h => exact h.mayGive hv

theorem Env.Gives.mayGive_self {v : Text} (h : Gives env k spec s₁ v s₂) :
    MayGive env s₁.secrets k spec v := by
  cases h with
  | unnamed h => exact Or.inl ⟨h, rfl⟩
  | read h hdata hvalue => exact Or.inr (Or.inl ⟨h, _, hdata, hvalue⟩)
  | generated h =>
    obtain ⟨hname, hgenerate, hnone, -⟩ := h
    exact Or.inr (Or.inr ⟨hname, hgenerate, hnone, Or.inl rfl⟩)

theorem MadeAnew.of_mayGive {secrets secrets' : NamespacedName → Option (List (Text × Text))}
    {d : DexClient} (h : MadeAnew env secrets k spec d)
    (hgive : ∀ v, MayGive env secrets' k spec v → MayGive env secrets k spec v) :
    MadeAnew env secrets' k spec d :=
  h.imp_right fun hne v hv => hne v (hgive v hv)

/-! The client of a live resource. -/

theorem Matches.mergeable {d : DexClient} (h : Matches spec d) : Mergeable spec d :=
  ⟨fun he => h.redirectURIs.trans he, fun he => h.trustedPeers.trans he,
    fun he => h.logoUrl.trans he⟩

theorem written_eq {α : Type} {new old : List α} [Decidable (new = [])] (h : new = [] → old = []) :
    (if new = [] then old else new) = new := by
  split_ifs with he
  · exact (h he).trans he.symm
  · rfl

theorem matches_merge {d : DexClient} (h : Mergeable spec d) (hpublic : d.isPublic = spec.isPublic) :
    Matches spec (merge spec d) :=
  ⟨written_eq h.1, written_eq h.2.1, hpublic, written_eq h.2.2⟩

/-- The client of the resource is one that the update sets right, or that is made anew. -/
def Fixable (env : Env) (k : NamespacedName) (spec : ClientSpec) (s : Stored) : Prop :=
  ∀ d, s.dex spec.name = some d → Mergeable spec d ∨ MadeAnew env s.secrets k spec d

theorem Env.Applied.matches {ns : Text} {r : Option DexClient} (hfix : Fixable env k spec s₁)
    (hspec : c.spec = { spec with secretNamespace := ns })
    (hgives : Gives env k spec s₁ c.secretValue s₂)
    (h : Applied env c (s₂.dex spec.name) r) : ∃ d, r = some d ∧ Matches spec d := by
  rcases h with ⟨n, rfl⟩ | ⟨old, hold, ⟨hsecret, hpublic⟩, rfl⟩
  · refine ⟨_, rfl, ?_⟩
    unfold newClient
    rw [hspec]
    exact ⟨rfl, rfl, rfl, rfl⟩
  · refine ⟨_, rfl, ?_⟩
    rw [hgives.eqs.2] at hold
    rw [hspec] at hpublic ⊢
    rcases hfix old hold with hmerge | hflip | hne
    · exact matches_merge hmerge hpublic
    · exact absurd hpublic hflip
    · exact absurd hsecret.symm (hne _ hgives.mayGive_self)

/-- The attempts for a live resource: only its finalizer and its client differ from `base`. -/
structure Trying (env : Env) (base : Stored) (k : NamespacedName) (spec : ClientSpec) (s : Stored) :
    Prop where
  resource : ∃ cl, s.clients = Function.update base.clients k (some cl) ∧ cl.spec = spec ∧
    cl.deletionRequested = false ∧ (cl.finalizers = [] ∨ cl.finalizers = [dexFinalizer])
  others : ∀ id, id ≠ spec.name → s.dex id = base.dex id
  own : Fixable env k spec s

/-- The end of the attempts for a live resource. -/
structure Applies (base : Stored) (k : NamespacedName) (spec : ClientSpec) (s : Stored) : Prop where
  resource : ∃ cl, s.clients = Function.update base.clients k (some cl) ∧ cl.spec = spec ∧
    cl.deletionRequested = false ∧ cl.finalizers = [dexFinalizer]
  others : ∀ id, id ≠ spec.name → s.dex id = base.dex id
  own : ∃ d, s.dex spec.name = some d ∧ Matches spec d

theorem Client.withFinalizer_of {cl : Client}
    (h : cl.finalizers = [] ∨ cl.finalizers = [dexFinalizer]) :
    cl.withFinalizer = { cl with finalizers := [dexFinalizer] } := by
  unfold Client.withFinalizer
  rcases h with h | h
  · rw [if_neg (by simp [h]), h]
    rfl
  · rw [if_pos (by simp [h]), ← h]

theorem triple_trying {base : Stored} (hname : spec.name ≠ []) :
    Triple (Trying env base k spec) (env.reconcile k) (fun _ s => Applies base k spec s)
      fun _ s => Trying env base k spec s := by
  refine Triple.of_state fun s₀ hs₀ => ?_
  obtain ⟨cl, hclients, rfl, hlive, hfin⟩ := hs₀.resource
  have hcl : s₀.clients k = some cl := by rw [hclients, Function.update_self]
  have hfinal : ∃ cl', (s₀.setClient k (some cl.withFinalizer)).clients =
      Function.update base.clients k (some cl') ∧ cl'.spec = cl.spec ∧
        cl'.deletionRequested = false ∧ cl'.finalizers = [dexFinalizer] := by
    refine ⟨{ cl with finalizers := [dexFinalizer] }, ?_, rfl, hlive, rfl⟩
    rw [Stored.setClient, hclients, Client.withFinalizer_of hfin, Function.update_idem]
  have htrying {s : Stored} (hc : s.clients = (s₀.setClient k (some cl.withFinalizer)).clients)
      (hothers : ∀ id, id ≠ cl.spec.name → s.dex id = s₀.dex id) (hown : Fixable env k cl.spec s) :
      Trying env base k cl.spec s := by
    obtain ⟨cl', hcl', hspec, hl, hf⟩ := hfinal
    exact ⟨⟨cl', hc.trans hcl', hspec, hl, Or.inr hf⟩,
      fun id hid => (hothers id hid).trans (hs₀.others id hid), hown⟩
  have hfix : Fixable env k cl.spec (s₀.setClient k (some cl.withFinalizer)) := hs₀.own
  refine triple_reconcile_live hcl hlive rfl hs₀ (htrying rfl (fun _ _ => rfl) hfix) ?_ ?_
  · intro s hs
    refine htrying hs.eqs.1 (fun id _ => by rw [hs.eqs.2]; rfl) fun d hd => ?_
    rw [hs.eqs.2] at hd
    exact (hfix d hd).imp_right fun h => h.of_mayGive fun v hv => hs.mayGive hv
  · intro c ns s₂ hspec hgives
    have hc : c.spec.name = cl.spec.name := by rw [hspec]
    have hothers (r : Option DexClient) (id : Text) (hid : id ≠ cl.spec.name) :
        (s₂.setDex cl.spec.name r).dex id = s₀.dex id := by
      rw [Stored.setDex_dex_of_ne hid, hgives.eqs.2]
      rfl
    refine (triple_applyClient (by rwa [hc]) s₂).conseq (fun s h => h) ?_ ?_
    · rintro _ s ⟨r, rfl, hr⟩
      rw [hc] at hr ⊢
      obtain ⟨d, rfl, hd⟩ := hr.matches hfix hspec hgives
      refine ⟨?_, fun id hid => (hothers _ id hid).trans (hs₀.others id hid), d,
        Stored.setDex_dex .., hd⟩
      obtain ⟨cl', hcl', h⟩ := hfinal
      exact ⟨cl', hgives.eqs.1.trans hcl', h⟩
    · rintro e s ⟨r, rfl, hr⟩
      rw [hc] at hr ⊢
      refine htrying hgives.eqs.1 (hothers r) fun d hd => ?_
      rw [Stored.setDex_dex] at hd
      subst hd
      rcases hr with hsame | hnone | happlied
      · rw [hgives.eqs.2] at hsame
        exact (hfix d hsame.symm).imp_right fun h => h.of_mayGive fun v hv => hgives.mayGive hv
      · cases hnone
      · obtain ⟨d', hd', hmatch⟩ := happlied.matches hfix hspec hgives
        cases hd'
        exact Or.inl hmatch.mergeable

/-- A live resource without a name is never reconciled. -/
theorem triple_unnamed (hname : spec.name = []) :
    Triple (fun s => (∃ cl, s.clients k = some cl ∧ cl.spec = spec ∧ cl.deletionRequested = false) ∧
        s.dex [] = none) (env.reconcile k) (fun _ _ => False)
      fun _ s => (∃ cl, s.clients k = some cl ∧ cl.spec = spec ∧ cl.deletionRequested = false) ∧
        s.dex [] = none := by
  refine Triple.of_state fun s₀ hs₀ => ?_
  obtain ⟨⟨cl, hcl, rfl, hlive⟩, hdex⟩ := hs₀
  have hfinal {s : Stored} (hc : s.clients = (s₀.setClient k (some cl.withFinalizer)).clients)
      (hd : s.dex [] = none) :
      (∃ cl', s.clients k = some cl' ∧ cl'.spec = cl.spec ∧ cl'.deletionRequested = false) ∧
        s.dex [] = none := by
    refine ⟨⟨cl.withFinalizer, ?_, ?_⟩, hd⟩
    · rw [hc, Stored.setClient_clients]
    · unfold Client.withFinalizer
      split_ifs
      · exact ⟨rfl, hlive⟩
      · exact ⟨rfl, hlive⟩
  refine triple_reconcile_live hcl hlive rfl ⟨⟨cl, hcl, rfl, hlive⟩, hdex⟩ (hfinal rfl hdex) ?_ ?_
  · intro s hs
    refine hfinal hs.eqs.1 ?_
    rw [hs.eqs.2]
    exact hdex
  · intro c ns s₂ hspec hgives
    have hc : c.spec.name = [] := by
      rw [hspec]
      exact hname
    refine (triple_applyClient_unnamed hc s₂.clients).conseq ?_ (fun _ s h => h) ?_
    · rintro s rfl
      refine ⟨rfl, ?_⟩
      rw [hgives.eqs.2]
      exact hdex
    · rintro e s ⟨hclients, hd⟩
      exact hfinal (hclients.trans hgives.eqs.1) hd

/-- The attempts for a resource that is to be deleted: it is there, or it and its client are gone. -/
def Removing (base : Stored) (k : NamespacedName) (name : Text) (s : Stored) : Prop :=
  (∀ id, id ≠ name → s.dex id = base.dex id) ∧
    (s.clients = base.clients ∨ s.clients = Function.update base.clients k none ∧ s.dex name = none)

theorem triple_removing {base : Stored} {cl : Client} (hcl : base.clients k = some cl)
    (hdeleted : cl.deletionRequested = true) (hfin : cl.finalizers = [dexFinalizer]) :
    Triple (Removing base k cl.spec.name) (env.reconcile k)
      (fun _ s => (∀ id, id ≠ cl.spec.name → s.dex id = base.dex id) ∧
        s.clients = Function.update base.clients k none ∧ s.dex cl.spec.name = none)
      fun _ s => Removing base k cl.spec.name s := by
  refine Triple.of_state fun s₀ hs₀ => ?_
  obtain ⟨hothers, hclients | hgone⟩ := hs₀
  · have hothers' {id : Text} (hid : id ≠ cl.spec.name) :
        (s₀.setDex cl.spec.name none).dex id = base.dex id := by
      rw [Stored.setDex_dex_of_ne hid]
      exact hothers id hid
    have hcl₀ : s₀.clients k = some cl := by rw [hclients, hcl]
    have hend : ((s₀.setDex cl.spec.name none).setClient k none).clients =
        Function.update base.clients k none := by
      rw [← hclients]
      rfl
    refine (triple_reconcile_deleted hcl₀ hdeleted hfin).conseq (fun s h => h) ?_ ?_
    · rintro _ s rfl
      exact ⟨fun id hid => hothers' hid, hend, Stored.setDex_dex ..⟩
    · rintro e s (rfl | rfl | rfl)
      · exact ⟨hothers, Or.inl hclients⟩
      · exact ⟨fun id hid => hothers' hid, Or.inl hclients⟩
      · exact ⟨fun id hid => hothers' hid, Or.inr ⟨hend, Stored.setDex_dex ..⟩⟩
  · have hnone : s₀.clients k = none := by rw [hgone.1, Function.update_self]
    refine (triple_reconcile_absent hnone).conseq (fun s h => h) ?_ ?_
    · rintro _ s rfl
      exact ⟨hothers, hgone⟩
    · rintro e s rfl
      exact ⟨hothers, Or.inr hgone⟩

/-- Between the turns each resource has the finalizer, and Dex has no client without an id. -/
structure Settled (s : Stored) : Prop extends Exact s where
  finalized : ∀ k cl, s.clients k = some cl →
    cl.finalizers = [dexFinalizer] ∧ cl.deletionRequested = false
  named : s.dex [] = none

/-- A live resource that was applied joins the settled ones, if a resource before it had its name
and no other has. -/
theorem Settled.applies {base : Stored} (h : Settled s) (hdex : base.dex = s.dex)
    (hbase : ∀ k', k' ≠ k → base.clients k' = s.clients k') (hname : spec.name ≠ [])
    (hsame : ∀ cl, s.clients k = some cl → cl.spec.name = spec.name)
    (hdistinct : ∀ k' cl, k' ≠ k → s.clients k' = some cl → cl.spec.name ≠ spec.name)
    {s' : Stored} (ha : Applies base k spec s') : Settled s' := by
  obtain ⟨⟨cl, hclients, rfl, hlive, hfin⟩, hothers, d, hd, hmatch⟩ := ha
  have hk : s'.clients k = some cl := by rw [hclients, Function.update_self]
  have hne {k' : NamespacedName} (hk' : k' ≠ k) : s'.clients k' = s.clients k' := by
    rw [hclients, Function.update_of_ne hk', hbase k' hk']
  rw [hdex] at hothers
  refine ⟨⟨fun k' cl' hcl' => ?_, fun id c hc => ?_⟩, fun k' cl' hcl' => ?_, ?_⟩
  · by_cases hk' : k' = k
    · subst hk'
      cases hk.symm.trans hcl'
      exact ⟨d, hd, hmatch⟩
    · rw [hne hk'] at hcl'
      rw [hothers _ (hdistinct k' cl' hk' hcl')]
      exact h.declared k' cl' hcl'
  · by_cases hid : id = cl.spec.name
    · exact ⟨k, cl, hk, hid.symm⟩
    · rw [hothers id hid] at hc
      obtain ⟨k', cl', hcl', hname'⟩ := h.owned id c hc
      have hk' : k' ≠ k := by
        rintro rfl
        exact hid (hname'.symm.trans (hsame cl' hcl'))
      exact ⟨k', cl', (hne hk').trans hcl', hname'⟩
  · by_cases hk' : k' = k
    · subst hk'
      cases hk.symm.trans hcl'
      exact ⟨hfin, hlive⟩
    · rw [hne hk'] at hcl'
      exact h.finalized k' cl' hcl'
  · rw [hothers [] hname.symm]
    exact h.named

theorem Settled.removed (h : Settled s) {cl : Client} (hcl : s.clients k = some cl)
    (hdistinct : ∀ k' cl', k' ≠ k → s.clients k' = some cl' → cl'.spec.name ≠ cl.spec.name)
    {s' : Stored} (hothers : ∀ id, id ≠ cl.spec.name → s'.dex id = s.dex id)
    (hk : s'.clients k = none) (hne : ∀ k', k' ≠ k → s'.clients k' = s.clients k')
    (hgone : s'.dex cl.spec.name = none) : Settled s' := by
  have hold {k' : NamespacedName} {cl' : Client} (hcl' : s'.clients k' = some cl') :
      k' ≠ k ∧ s.clients k' = some cl' := by
    have hk' : k' ≠ k := by
      rintro rfl
      cases hk.symm.trans hcl'
    exact ⟨hk', (hne k' hk').symm.trans hcl'⟩
  refine ⟨⟨fun k' cl' hcl' => ?_, fun id c hc => ?_⟩, fun k' cl' hcl' => ?_, ?_⟩
  · obtain ⟨hk', hcl'⟩ := hold hcl'
    rw [hothers _ (hdistinct k' cl' hk' hcl')]
    exact h.declared k' cl' hcl'
  · have hid : id ≠ cl.spec.name := by
      rintro rfl
      cases hgone.symm.trans hc
    rw [hothers id hid] at hc
    obtain ⟨k', cl', hcl', hname'⟩ := h.owned id c hc
    have hk' : k' ≠ k := by
      rintro rfl
      cases hcl.symm.trans hcl'
      exact hid hname'.symm
    exact ⟨k', cl', (hne k' hk').trans hcl', hname'⟩
  · exact h.finalized k' cl' (hold hcl').2
  · obtain ⟨d, hd, -⟩ := h.declared k cl hcl
    have hnamed : [] ≠ cl.spec.name := by
      intro heq
      rw [← heq, h.named] at hd
      cases hd
    rw [hothers [] hnamed]
    exact h.named

/-- What becomes of the resource of a turn, in a settled state. -/
theorem Settled.result_cases (h : Settled s) {t : Turn} (hsafe : Safe env s t) :
    (t.change.result (s.clients t.change.key) = none ∧ s.clients t.change.key = none) ∨
    (∃ cl, t.change.result (s.clients t.change.key) = some cl ∧ cl.deletionRequested = false ∧
      (cl.finalizers = [] ∨ cl.finalizers = [dexFinalizer]) ∧
      ∀ old, s.clients t.change.key = some old → old.spec.name = cl.spec.name ∧
        ∀ d, s.dex cl.spec.name = some d →
          Mergeable cl.spec d ∨ MadeAnew env t.secrets t.change.key cl.spec d) ∨
    ∃ cl, s.clients t.change.key = some cl ∧
      t.change.result (s.clients t.change.key) = some { cl with deletionRequested := true } := by
  obtain ⟨change, secrets⟩ := t
  cases change with
  | create k spec =>
    simp only [Change.key]
    refine Or.inr (Or.inl ?_)
    cases hk : s.clients k with
    | none => exact ⟨⟨spec, [], false⟩, rfl, rfl, Or.inl rfl, by simp⟩
    | some old =>
      obtain ⟨hfin, hlive⟩ := h.finalized k old hk
      refine ⟨old, rfl, hlive, Or.inr hfin, ?_⟩
      rintro _ ⟨⟩
      refine ⟨rfl, fun d hd => ?_⟩
      obtain ⟨d', hd', hmatch⟩ := h.declared k old hk
      cases hd.symm.trans hd'
      exact Or.inl hmatch.mergeable
  | edit k spec =>
    simp only [Change.key]
    cases hk : s.clients k with
    | none => exact Or.inl ⟨rfl, rfl⟩
    | some old =>
      obtain ⟨hfin, hlive⟩ := h.finalized k old hk
      obtain ⟨d, hd, -⟩ := h.declared k old hk
      refine Or.inr (Or.inl ⟨{ old with spec := spec }, rfl, hlive, Or.inr hfin, ?_⟩)
      rintro _ ⟨⟩
      obtain ⟨hname, hfix⟩ := hsafe old d hk hd
      refine ⟨hname.symm, fun d' hd' => ?_⟩
      rw [hname] at hd'
      cases hd.symm.trans hd'
      exact hfix
  | delete k =>
    simp only [Change.key]
    cases hk : s.clients k with
    | none => exact Or.inl ⟨rfl, rfl⟩
    | some cl =>
      refine Or.inr (Or.inr ⟨cl, rfl, ?_⟩)
      obtain ⟨hfin, -⟩ := h.finalized k cl hk
      simp [Change.result, hfin]

theorem Settled.turn {w w' : Counted Stored} {t : Turn} (h : Settled w.state)
    (hdistinct : DistinctNames (t.apply w.state)) (hsafe : Safe env w.state t)
    (hr : Retried (env.reconcile t.change.key) ⟨t.apply w.state, w.calls⟩ w') : Settled w'.state := by
  have hkey : (t.apply w.state).clients t.change.key =
      t.change.result (w.state.clients t.change.key) := Function.update_self ..
  have hbase (k' : NamespacedName) (hk' : k' ≠ t.change.key) :
      (t.apply w.state).clients k' = w.state.clients k' := Function.update_of_ne hk' _ _
  -- another resource has another name
  have hother {cl : Client} (hcl : t.change.result (w.state.clients t.change.key) = some cl)
      (k' : NamespacedName) (cl' : Client) (hk' : k' ≠ t.change.key)
      (hcl' : w.state.clients k' = some cl') : cl'.spec.name ≠ cl.spec.name := by
    intro heq
    rw [← hbase k' hk'] at hcl'
    exact hk' (hdistinct k' t.change.key cl' cl hcl' (hkey.trans hcl) heq)
  rcases h.result_cases hsafe with ⟨hnone, hold⟩ | ⟨cl, hcl, hlive, hfin, hfix⟩ | ⟨cl, hold, hcl⟩
  · have hs := (triple_reconcile_absent (hkey.trans hnone)).retried hr rfl
    have hclients : (t.apply w.state).clients = w.state.clients := by
      rw [Turn.apply, hnone, ← hold, Function.update_eq_self]
    rw [hs]
    refine ⟨⟨?_, ?_⟩, ?_, h.named⟩
    · rw [hclients]
      exact h.declared
    · rw [hclients]
      exact h.owned
    · rw [hclients]
      exact h.finalized
  · by_cases hname : cl.spec.name = []
    · exact ((triple_unnamed hname).retried hr ⟨⟨cl, hkey.trans hcl, rfl, hlive⟩, h.named⟩).elim
    · have htrying : Trying env (t.apply w.state) t.change.key cl.spec (t.apply w.state) := by
        refine ⟨⟨cl, ?_, rfl, hlive, hfin⟩, fun _ _ => rfl, fun d hd => ?_⟩
        · rw [← hcl, ← hkey, Function.update_eq_self]
        · obtain ⟨k', cl', hcl', hname'⟩ := h.owned cl.spec.name d hd
          have hk' : k' = t.change.key := by
            by_contra hk'
            exact hother hcl k' cl' hk' hcl' hname'
          exact (hfix cl' (hk' ▸ hcl')).2 d hd
      have happlies := (triple_trying hname).retried hr htrying
      have hdex : (t.apply w.state).dex = w.state.dex := rfl
      exact h.applies hdex hbase hname (fun old hold => (hfix old hold).1) (hother hcl) happlies
  · obtain ⟨hfin, -⟩ := h.finalized _ cl hold
    obtain ⟨hothers, hclients, hgone⟩ :=
      (triple_removing (hkey.trans hcl) rfl hfin).retried hr ⟨fun _ _ => rfl, Or.inl rfl⟩
    have hdistinct := hother hcl
    refine h.removed hold hdistinct hothers ?_ (fun k' hk' => ?_) hgone
    · rw [hclients, Function.update_self]
    · rw [hclients, Function.update_of_ne hk', hbase k' hk']

/-- In every run of turns that keep names and empty nothing, or whose client is made anew, Dex has
exactly the clients that the resources declare. -/
theorem dex_exact_of_safe {env : Env} {w : Counted Stored} (h : Reached env (Safe env) w) :
    Exact w.state := by
  have hsettled : Settled w.state := by
    induction h with
    | start secrets n => exact ⟨⟨by simp, by simp⟩, by simp, rfl⟩
    | turn _ hdistinct hok hr ih => exact ih.turn hdistinct hok hr
  exact hsettled.toExact

/-! A resource without a Secret: created, edited, renamed. -/

def openSpec : ClientSpec := { demoSpec with secretName := [] }

def noSecrets : NamespacedName → Option (List (Text × Text)) := fun _ => none

theorem distinctNames_of_single (k : NamespacedName) {s : Stored}
    (h : ∀ k', k' ≠ k → s.clients k' = none) : DistinctNames s := by
  have hkey {k' : NamespacedName} {cl : Client} (hcl : s.clients k' = some cl) : k' = k := by
    by_contra hk'
    cases (h k' hk').symm.trans hcl
  intro k₁ k₂ cl₁ cl₂ h₁ h₂ _
  exact (hkey h₁).trans (hkey h₂).symm

/-- A turn of the one resource, with one attempt. -/
theorem reached_single {ok : Stored → Turn → Prop} {w w' : Counted Stored} (change : Change)
    (h : Reached demoEnv ok w) (hkey : change.key = demoKey)
    (hnone : ∀ k', k' ≠ demoKey → w.state.clients k' = none)
    (hok : ok w.state ⟨change, noSecrets⟩)
    (hr : demoEnv.reconcile change.key ⟨Turn.apply ⟨change, noSecrets⟩ w.state, w.calls⟩ =
      .ok () w') : Reached demoEnv ok w' := by
  refine h.turn (distinctNames_of_single demoKey fun k' hk' => ?_) hok (.done hr)
  exact (Function.update_of_ne (hkey ▸ hk') _ _).trans (hnone k' hk')

theorem dex_exact_of_safe_edit : ∃ w c, Reached demoEnv (Safe demoEnv) w ∧ Exact w.state ∧
    w.state.dex "web".toList = some c ∧ c.redirectURIs = ["v".toList] := by
  have hcreate := reached_single (.create demoKey openSpec)
    (.start noSecrets 0 : Reached demoEnv (Safe demoEnv) _) rfl (fun _ _ => rfl) trivial rfl
  have hedit := reached_single (.edit demoKey { openSpec with redirectURIs := ["v".toList] })
    hcreate rfl (fun k' hk' => (Function.update_of_ne hk' _ _).trans (Function.update_of_ne hk' _ _))
    (by
      intro cl c hcl hc
      cases hcl
      cases hc
      exact ⟨rfl, Or.inl ⟨by simp, fun _ => rfl, fun _ => rfl⟩⟩) rfl
  exact ⟨_, _, hedit, dex_exact_of_safe hedit, rfl, rfl⟩

/-- A resource that is renamed leaves its old client in Dex. -/
theorem renamed_client_left : ∃ w, Reached demoEnv (fun _ _ => True) w ∧ ¬ Exact w.state := by
  have hcreate := reached_single (.create demoKey openSpec)
    (.start noSecrets 0 : Reached demoEnv (fun _ _ => True) _) rfl (fun _ _ => rfl) trivial rfl
  have hrename := reached_single (.edit demoKey { openSpec with name := "app".toList })
    hcreate rfl (fun k' hk' => (Function.update_of_ne hk' _ _).trans (Function.update_of_ne hk' _ _))
    trivial rfl
  refine ⟨_, hrename, fun h => ?_⟩
  obtain ⟨k, cl, hcl, hname⟩ := h.owned "web".toList _ rfl
  by_cases hk : k = demoKey
  · subst hk
    cases hcl
    revert hname
    decide
  · have hnone := (Function.update_of_ne hk _ _).trans ((Function.update_of_ne hk _ _).trans
      (Function.update_of_ne hk _ _)) |>.symm.trans hcl
    cases hnone

end Understack.Dexop
