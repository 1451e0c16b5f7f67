import Understack.Nautobotop.References
import Understack.Nautobotop.SyncIntervals

/-! Whole passes and whole runs: what has been resolved stays so, and a first `Reconcile` resolves
everything. -/
namespace Understack.Nautobotop.Inventory
open PyText Reconcile

variable {A : Type} {dec : Decoder A} {dataMaps : List (Text × Data)} {env : Env A} {k : Kind}
  {s₀ s s' : Nautobot A}

/-! The removal at the end of a pass. -/

/-- A removal that leaves what lasts. -/
structure Shrinks (dec : Decoder A) (dataMaps : List (Text × Data)) (s₀ s s' : Nautobot A) :
    Prop where
  subset : ∀ u ∈ s'.objects, u ∈ s.objects
  stays : ∀ u ∈ s.objects, Lasting dec dataMaps s₀ u → u ∈ s'.objects
  createdBy : s'.createdBy = s.createdBy

theorem Shrinks.done (h : Shrinks dec dataMaps s₀ s s') (hres : Resolvable dec dataMaps s₀)
    (hinv : Inv dec dataMaps s₀ s) (hk : ¬k.byName) {x : Entry A × Option (Entry A)}
    (hx : x ∈ declared dec dataMaps k) (hdone : Done dec dataMaps s k x) :
    Done dec dataMaps s' k x := by
  obtain ⟨w, hw, hown, hlinked⟩ := hdone
  have hmade {p : Entry A} {u : Object A} (hp : p.name ∈ declaredNames dec dataMaps k)
      (hu : Made s k p u) : Made s' k p u := by
    refine ⟨h.stays u hu.mem (Or.inl ⟨?_, ?_⟩), hu.kind, hu.name, hu.id⟩
    · exact fun hpre => hk (Or.inr (hu.kind.symm.trans hpre))
    · rw [hu.kind, hu.name]
      exact hp
  refine ⟨w, hmade (mem_declaredNames hx) hw, hown, fun hchecked => ⟨?_, ?_, ?_⟩⟩
  · intro t name href
    obtain ⟨u, hu, rfl, rfl, hrefs⟩ := (hlinked hchecked).refs t name href
    have hpre : u.kind ≠ .ipPrefix := fun heq => href.lookup (heq ▸ lookup_references_ipPrefix k)
    have hlasting := hinv.lasting hu hpre (hres.names k x hx u.kind u.name href)
    exact ⟨u, h.stays u hu hlasting, rfl, rfl, hrefs⟩
  · intro p hp
    obtain ⟨u, hu, hrefs⟩ := (hlinked hchecked).parent p hp
    exact ⟨u, hmade (name_of_above hx hp) hu, hrefs⟩
  · rintro rfl name hname
    obtain ⟨d, hd, hkind, rfl, hrefs⟩ := (hlinked hchecked).devices rfl name hname
    have hlasting := hinv.lasting hd (by rw [hkind]; decide) (by
      rw [hkind]
      exact hres.devices x hx d.name hname)
    exact ⟨d, h.stays d hd hlasting, hkind, rfl, hrefs⟩

theorem Shrinks.keeps (h : Shrinks dec dataMaps s₀ s s') (hres : Resolvable dec dataMaps s₀)
    (hinv : Inv dec dataMaps s₀ s) : Keeps dec dataMaps s₀ s s' where
  lasting := fun u hu hlasting => ⟨u, h.stays u hu hlasting, rfl, rfl⟩
  done := fun _ hk _ hx hdone => h.done hres hinv hk hx hdone

theorem Shrinks.inv (h : Shrinks dec dataMaps s₀ s s') (hres : Resolvable dec dataMaps s₀)
    (hinv : Inv dec dataMaps s₀ s) : Inv dec dataMaps s₀ s' where
  keys := fun a ha b hb => hinv.keys a (h.subset a ha) b (h.subset b hb)
  source := fun v hv => hinv.source v (h.subset v hv)
  createdBy := fun u hu hown => h.createdBy ▸ hinv.createdBy u hu hown
  alive := by
    intro u hu hlasting
    obtain ⟨v, hv, hkey, hname⟩ := hinv.alive u hu hlasting
    exact ⟨v, h.stays v hv (hlasting.congr hkey hname), hkey, hname⟩
  sound := by
    rintro k hk x hx hne ⟨v, hv, hkey⟩
    exact h.done hres hinv hk hx (hinv.sound k hk x hx hne ⟨v, h.subset v hv, hkey⟩)

/-- The removal of a pass leaves what lasts. -/
theorem shrinks_deleteObsolete (hinv : Inv dec dataMaps s₀ s) {synced : List Text}
    (h : deleteObsolete env k (declaredNames dec dataMaps k) synced s = some s') :
    Shrinks dec dataMaps s₀ s s' := by
  obtain ⟨ids, rfl, hids⟩ := deleteObsolete_removes h
  refine ⟨fun u hu => mem_of_foldl_destroy hu, fun u hu hlasting => ?_,
    createdBy_foldl_destroy ids s⟩
  refine mem_foldl_destroy hu fun hcreated id hid hkey => ?_
  obtain ⟨v, hv, hvkey, hname⟩ := hids id hid
  have heq : u = v := hinv.keys u hu v hv (hkey.trans hvkey.symm)
  subst heq
  rcases hlasting with ⟨hpre, hdeclared⟩ | ⟨⟨w, hw, hwid⟩, hown⟩
  · have hkind : u.kind = k := congrArg Prod.fst hkey
    rw [hkind] at hpre hdeclared
    exact hname hpre hdeclared
  · rw [← hwid] at hown hcreated
    exact hinv.createdBy w hw hown hcreated

variable (env k) in
/-- What is obsolete was there at the start, with the parents that it had. -/
theorem removalOrder_returns (hres : Resolvable dec dataMaps s₀) (hinv : Inv dec dataMaps s₀ s) :
    ∃ order, removalOrder env k (SyncById.obsolete resource
      (env.listing (s.objects.filter fun v => v.kind = k)) (declaredNames dec dataMaps k)) =
        some order := by
  unfold removalOrder
  dsimp only
  have hobsolete {name : Text} {v : Object A} := @mem_obsolete A env k s
    (declaredNames dec dataMaps k) name v
  have hnodup : ((SyncById.obsolete resource (env.listing (s.objects.filter fun v => v.kind = k))
      (declaredNames dec dataMaps k)).map Prod.fst).Nodup := SyncById.nodup_keys_obsolete
  generalize SyncById.obsolete resource (env.listing (s.objects.filter fun v => v.kind = k))
    (declaredNames dec dataMaps k) = obsolete at hobsolete hnodup ⊢
  split_ifs with htree
  · obtain ⟨depth, hdepth⟩ := hres.acyclic
    let depthOf (name : Text) : ℕ := ((obsolete.lookup name).map fun v => depth v.key).getD 0
    have hstart {name : Text} {v : Object A} (hv : obsolete.lookup name = some v) :
        ∃ u ∈ s₀.objects, u.key = v.key ∧ v.refs k = u.refs k := by
      obtain ⟨hmem, hkind, -, hnot⟩ := hobsolete hv
      obtain ⟨u, hu, hkey, -, hrefs⟩ := (hinv.source v hmem).resolve_left (hkind ▸ hnot)
      rw [hkind] at hrefs
      exact ⟨u, hu, hkey, hrefs htree⟩
    have hchild : ∀ name, ∀ child ∈ childrenMap env k obsolete name,
        depthOf name < depthOf child := by
      intro name child hchild
      have hparent := of_decide_eq_true (List.mem_filter.mp hchild).2
      obtain ⟨v, hv, hparent⟩ := Option.bind_eq_some_iff.mp hparent
      obtain ⟨id, hid, hname⟩ := Option.bind_eq_some_iff.mp hparent
      obtain ⟨⟨name', w⟩, hw, rfl⟩ := Option.map_eq_some_iff.mp hname
      have hwid : w.id = id := by simpa using List.find?_some hw
      have hwlookup : obsolete.lookup name' = some w :=
        PyDict.lookup_of_mem hnodup (List.mem_of_find?_eq_some hw)
      obtain ⟨v₀, hv₀, hvkey, hvrefs⟩ := hstart hv
      obtain ⟨w₀, hw₀, hwkey, -⟩ := hstart hwlookup
      have hvkind : v₀.kind = k := (congrArg Prod.fst hvkey).trans (hobsolete hv).2.1
      have hwkind : w₀.kind = k := (congrArg Prod.fst hwkey).trans (hobsolete hwlookup).2.1
      have hlt := hdepth v₀ hv₀ w₀ hw₀ (hwkind.trans hvkind.symm) (by
        rw [hvkind, ← hvrefs, hid, ← hwid]
        exact congrArg some (congrArg Prod.snd hwkey).symm)
      simp only [depthOf, hv, hwlookup, Option.map_some, Option.getD_some]
      rwa [hwkey, hvkey] at hlt
    have hkeys : ∀ name, ∀ child ∈ childrenMap env k obsolete name,
        child ∈ env.ranged (obsolete.map Prod.fst) :=
      fun _ _ hchild => (List.mem_filter.mp hchild).1
    obtain ⟨done, hdone⟩ := PostOrder.visitAll_returns hchild hkeys
      (env.ranged (obsolete.map Prod.fst))
    have hlength : (env.ranged (obsolete.map Prod.fst)).length = obsolete.length := by
      rw [(env.ranged_perm _).length_eq, List.length_map]
    rw [hlength] at hdone
    exact ⟨done.reverse, by rw [hdone]; rfl⟩
  · exact ⟨_, rfl⟩

variable (env k) in
theorem deleteObsolete_returns (hres : Resolvable dec dataMaps s₀) (hinv : Inv dec dataMaps s₀ s)
    (synced : List Text) :
    ∃ s', deleteObsolete env k (declaredNames dec dataMaps k) synced s = some s' := by
  unfold deleteObsolete
  dsimp only
  split_ifs
  · exact ⟨_, rfl⟩
  · exact ⟨_, rfl⟩
  · obtain ⟨order, horder⟩ := removalOrder_returns env k hres hinv
    exact ⟨_, by rw [horder]; rfl⟩

/-! A pass. -/

theorem permission_without_id {x : Entry A × Option (Entry A)} (hk : k = .permissionGroup)
    (hx : x ∈ declared dec dataMaps k) : x.1.id = [] := by
  subst hk
  obtain ⟨-, tree, htree, hentry⟩ := placedAll_flat (dec.flat _ _ rfl) hx
  exact hentry ▸ dec.noId _ tree htree

/-- The turns of the entries of a pass. -/
theorem walks_turns (hres : Resolvable dec dataMaps s₀)
    (hids : ∀ k, ∀ x ∈ declared dec dataMaps k, ∀ objects, env.newId objects ≠ x.1.id) (k : Kind) :
    Walks env k (fun s => Inv dec dataMaps s₀ s ∧ Findable dec dataMaps s₀ k s)
      (Keeps dec dataMaps s₀) (fun s => Above dec dataMaps s₀ s k)
      (fun s x => x ∈ declared dec dataMaps k → ¬k.byName → Done dec dataMaps s k x)
      (fun _ => True) False (declared dec dataMaps k) where
  refl := Keeps.refl
  trans := fun _ _ _ => Keeps.trans
  below := by
    intro s s' above parent hkeeps habove hk p hp
    obtain ⟨u, hu, hlasting, hparent⟩ := habove hk p hp
    obtain ⟨w, hw, hkey, hname⟩ := hkeeps.lasting u hu.mem hlasting
    have hid : w.id = u.id := congrArg Prod.snd hkey
    exact ⟨w, ⟨hw, (congrArg Prod.fst hkey).trans hu.kind, hname.trans hu.name,
      fun hne => hid.trans (hu.id hne)⟩, hlasting.congr hkey hname,
      hparent.trans (congrArg some hid.symm)⟩
  done := fun _ _ x hkeeps hdone hx hk => hkeeps.done k hk x hx (hdone hx hk)
  single := by
    rintro s x hx parent ⟨hinv, hfind⟩ habove
    obtain ⟨req, v, mid, f, hreq, hstored, hreassigns, hsync⟩ :=
      syncSingle_returns env parent hinv.keys
        (fun hk => permission_without_id hk hx) (hres.dates k x hx)
        (fun t name hwanted => by
          obtain ⟨u, hu, hkind, hname, -⟩ :=
            hfind.refs x hx t name ⟨true, hwanted, Or.inl rfl⟩ (Or.inr hwanted)
          exact ⟨u, hu, hkind, hname⟩)
        (fun hk name hname => by
          obtain ⟨u, hu, hkind, huname, -⟩ := hfind.devices hk x hx name hname
          exact ⟨u, hu, hkind, huname⟩)
    have hturn : Turn dec dataMaps env s₀ k x parent s req v mid f :=
      ⟨hres, hids, hx, hinv, hfind, habove, hreq, hstored, hreassigns⟩
    rw [hsync]
    refine ⟨⟨hturn.inv_reassign, hfind.keep hturn.keeps⟩, hturn.keeps,
      fun hnone => (Option.some_ne_none _ hnone).elim, fun id hid => ?_⟩
    cases hid
    refine ⟨?_, fun _ hk => hturn.done hk, trivial⟩
    rintro hk p hp
    cases hp
    have hmade := hturn.made hk
    refine ⟨f v, hmade, Or.inl ⟨fun hpre => hk (Or.inr (hmade.kind.symm.trans hpre)), ?_⟩,
      congrArg some (hreassigns.id v).symm⟩
    rw [hmade.kind, hmade.name]
    exact mem_declaredNames hx

theorem names_entries : (entries (dec.forest k (dataOf dataMaps k))).map Entry.name =
    declaredNames dec dataMaps k := by
  simp [entries, declaredNames, declared]

/-- A pass whose names are found succeeds, and its entries have their objects. -/
theorem syncAll_returns (hres : Resolvable dec dataMaps s₀)
    (hids : ∀ k, ∀ x ∈ declared dec dataMaps k, ∀ objects, env.newId objects ≠ x.1.id)
    (hinv : Inv dec dataMaps s₀ s) (hfind : Findable dec dataMaps s₀ k s) :
    ∃ s', syncAll dec env k (dataOf dataMaps k) s = some (true, s') ∧ Inv dec dataMaps s₀ s' ∧
      Keeps dec dataMaps s₀ s s' ∧
      (¬k.byName → ∀ x ∈ declared dec dataMaps k, Done dec dataMaps s' k x) := by
  unfold syncAll
  split_ifs with hdata
  · refine ⟨s, rfl, hinv, Keeps.refl s, fun _ x hx => ?_⟩
    rw [declared, hdata, dec.empty, placedAll] at hx
    cases hx
  · have hwalked := walked_syncForest (walks_turns hres hids k) none none s ⟨hinv, hfind⟩
      (fun _ p hp => by cases hp) (env.files (dec.forest k (dataOf dataMaps k)))
      (fun x hx => mem_placedAll_files.mp hx)
    generalize syncForest env k none s (env.files (dec.forest k (dataOf dataMaps k))) = r at hwalked
    obtain ⟨_ | ids, mid⟩ := r
    · exact (hwalked.stop rfl).elim
    · obtain ⟨hinv', -⟩ := hwalked.inv
      dsimp only
      rw [names_entries]
      obtain ⟨s', hs'⟩ := deleteObsolete_returns env k hres hinv' ids
      have hshrinks := shrinks_deleteObsolete hinv' hs'
      refine ⟨s', by rw [hs']; rfl, hshrinks.inv hres hinv',
        hwalked.keeps.trans (hshrinks.keeps hres hinv'), fun hk x hx => ?_⟩
      exact hshrinks.done hres hinv' hk hx
        ((hwalked.done ids rfl).1 x (mem_placedAll_files.mpr hx) hx hk)

/-! The order of the passes. -/

def Need.isRequired : Need → Bool
  | .required | .requiredIfNamed | .requiredFirst => true
  | .optional | .optionalIfNamed => false

/-- What an entry of a kind needs to find was synced before, but for the VLAN groups of devices. -/
def Preceded (done : List Kind) (k : Kind) : Prop :=
  (∀ r ∈ references k, (k ∈ checkedKinds ∨ r.2.isRequired) →
    r.1 ∈ done ∨ (k = .device ∧ r.1 = .vlanGroup)) ∧ (k = .cluster → .device ∈ done)

instance decidablePreceded (done : List Kind) (k : Kind) : Decidable (Preceded done k) :=
  inferInstanceAs (Decidable (_ ∧ _))

def InOrder : List Kind → List Kind → Prop
  | _, [] => True
  | done, k :: ks => Preceded done k ∧ InOrder (k :: done) ks

instance InOrder.decidable : ∀ done ks, Decidable (InOrder done ks)
  | _, [] => instDecidableTrue
  | done, k :: ks =>
    have := InOrder.decidable (k :: done) ks
    inferInstanceAs (Decidable (Preceded done k ∧ InOrder (k :: done) ks))

theorem inOrder_order : InOrder [.status] Kind.order := by decide

/-- After a whole run any order will do. -/
theorem inOrder_of_all {done : List Kind} (h : ∀ t, t ∈ done) (ks : List Kind) :
    InOrder done ks := by
  induction ks generalizing done with
  | nil => trivial
  | cons k ks ih =>
    exact ⟨⟨fun r _ _ => Or.inl (h r.1), fun _ => h .device⟩,
      ih fun t => List.mem_cons_of_mem k (h t)⟩

theorem mem_order {t : Kind} (h : t ≠ .status) : t ∈ Kind.order := by
  cases t <;> first | decide | exact (h rfl).elim

theorem isRequired_of_wanted {e : Entry A} {t : Kind} {need : Need} {name : Text}
    (hneed : (references k).lookup t = some need) (h : wanted k e t = some (name, true)) :
    need.isRequired := by
  rw [wanted, hneed] at h
  cases need with
  | required | requiredIfNamed | requiredFirst => rfl
  | optional => simp at h
  | optionalIfNamed => simp at h

theorem found_of_available (hinv : Inv dec dataMaps s₀ s) {t : Kind} {name : Text}
    (ht : t ≠ .ipPrefix) (h : Available dec dataMaps s₀ t name) :
    ∃ u ∈ s.objects, u.kind = t ∧ u.name = name ∧ Lasting dec dataMaps s₀ u := by
  obtain ⟨⟨u, hu, rfl, rfl⟩, hown⟩ := h
  have hlasting : Lasting dec dataMaps s₀ u := by
    rcases hown with hdeclared | hown
    · exact Or.inl ⟨ht, hdeclared⟩
    · exact Or.inr ⟨⟨u, hu, rfl⟩, hown u hu rfl rfl⟩
  obtain ⟨v, hv, hkey, hname⟩ := hinv.alive u hu hlasting
  exact ⟨v, hv, congrArg Prod.fst hkey, hname, hlasting.congr hkey hname⟩

theorem found_of_done {t : Kind} {name : Text} (ht : ¬t.byName)
    (hdone : ∀ x ∈ declared dec dataMaps t, Done dec dataMaps s t x)
    (hname : name ∈ declaredNames dec dataMaps t) :
    ∃ u ∈ s.objects, u.kind = t ∧ u.name = name ∧ Lasting dec dataMaps s₀ u := by
  obtain ⟨x, hx, rfl⟩ := List.mem_map.mp hname
  obtain ⟨w, hw, -⟩ := hdone x hx
  refine ⟨w, hw.mem, hw.kind, hw.name, Or.inl ⟨fun hpre => ?_, ?_⟩⟩
  · exact ht (Or.inr (hw.kind.symm.trans hpre))
  · rw [hw.kind, hw.name]
    exact hname

theorem findable_of_preceded (hres : Resolvable dec dataMaps s₀) (hinv : Inv dec dataMaps s₀ s)
    {done : List Kind} (hpreceded : Preceded done k)
    (hdone : ∀ t ∈ done, ¬t.byName → ∀ x ∈ declared dec dataMaps t, Done dec dataMaps s t x) :
    Findable dec dataMaps s₀ k s where
  refs := by
    intro x hx t name href hset
    have hpre : t ≠ .ipPrefix := fun heq => href.lookup (heq ▸ lookup_references_ipPrefix k)
    have hby : ¬t.byName := by
      rintro (rfl | rfl)
      · exact href.lookup (by cases k <;> rfl)
      · exact hpre rfl
    obtain ⟨need, hneed⟩ := Option.ne_none_iff_exists'.mp href.lookup
    have hrequired : k ∈ checkedKinds ∨ need.isRequired = true :=
      hset.imp id (isRequired_of_wanted hneed)
    rcases hpreceded.1 (t, need) (PyDict.mem_of_lookup hneed) hrequired with ht | ⟨hk, hvlan⟩
    · rcases hres.names k x hx t name href with hdeclared | havailable
      · exact found_of_done hby (hdone t ht hby) hdeclared
      · exact found_of_available hinv hpre havailable
    · subst hk
      have htvlan : t = .vlanGroup := hvlan
      subst htvlan
      exact found_of_available hinv hpre (hres.vlanGroups x hx name href)
  devices := by
    rintro rfl x hx name hname
    have hby : ¬Kind.device.byName := by
      rintro (hby | hby) <;> cases hby
    rcases hres.devices x hx name hname with hdeclared | havailable
    · exact found_of_done hby (hdone .device (hpreceded.2 rfl) hby) hdeclared
    · exact found_of_available hinv (by decide) havailable

/-! A run. -/

def callOf (dataMaps : List (Text × Data)) (k : Kind) : SyncCall :=
  ⟨k.resource, dataOf dataMaps k, true⟩

theorem syncFunc_resource (hk : k ∈ Kind.order) (data : Data) (s : Nautobot A) :
    syncFunc dec env k.resource data s = syncAll dec env k data s := by
  have hfind : ∀ k ∈ Kind.order, (Kind.order.find? fun t => t.resource = k.resource) = some k := by
    decide +kernel
  rw [syncFunc, hfind k hk]

/-- Passes in an order in which names are found resolve all their entries. -/
theorem runCalls_returns {done : List Kind} (hres : Resolvable dec dataMaps s₀)
    (hids : ∀ k, ∀ x ∈ declared dec dataMaps k, ∀ objects, env.newId objects ≠ x.1.id)
    {ks : List Kind} (hks : ∀ k ∈ ks, k ∈ Kind.order) (horder : InOrder done ks)
    {s : Nautobot A} (hinv : Inv dec dataMaps s₀ s)
    (hdone : ∀ t ∈ done, ¬t.byName → ∀ x ∈ declared dec dataMaps t, Done dec dataMaps s t x) :
    ∃ s', runCalls dec env (ks.map (callOf dataMaps)) s = some (none, s') ∧
      Inv dec dataMaps s₀ s' ∧ ∀ t, (t ∈ done ∨ t ∈ ks) → ¬t.byName →
        ∀ x ∈ declared dec dataMaps t, Done dec dataMaps s' t x := by
  induction ks generalizing done s with
  | nil => exact ⟨s, rfl, hinv, fun t ht => hdone t (ht.resolve_right (List.not_mem_nil))⟩
  | cons k ks ih =>
    obtain ⟨hpreceded, hrest⟩ := horder
    obtain ⟨mid, hmid, hinv', hkeeps, hk⟩ :=
      syncAll_returns hres hids hinv (findable_of_preceded hres hinv hpreceded hdone)
    obtain ⟨s', hs', hinv'', hall⟩ := ih (fun t ht => hks t (List.mem_cons_of_mem k ht)) hrest hinv'
      (fun t ht hby x hx => by
        rcases List.mem_cons.mp ht with rfl | ht
        · exact hk hby x hx
        · exact hkeeps.done t hby x hx (hdone t ht hby x hx))
    refine ⟨s', ?_, hinv'', fun t ht => hall t ?_⟩
    · rw [List.map_cons, runCalls]
      simp only [callOf, syncFunc_resource (hks k List.mem_cons_self), hmid]
      exact hs'
    · rcases ht with ht | ht
      · exact Or.inl (List.mem_cons_of_mem k ht)
      · rcases List.mem_cons.mp ht with rfl | ht
        · exact Or.inl List.mem_cons_self
        · exact Or.inr ht

theorem syncLoop_true (toSync : List (Text × Data)) (order : List Text) :
    syncLoop (fun _ _ => true) toSync order =
      order.filterMap fun name => (toSync.lookup name).map (⟨name, ·, true⟩) := by
  induction order with
  | nil => rfl
  | cons name order ih =>
    rw [syncLoop, List.filterMap_cons]
    cases toSync.lookup name with
    | none => exact ih
    | some data => simp [ih]

/-- The calls of a run are those of kinds with their data. -/
theorem calls_of_toSync {toSync : List (Text × Data)}
    (h : ∀ k ∈ Kind.order, ∀ data, toSync.lookup k.resource = some data →
      dataOf dataMaps k = data) :
    syncLoop (fun _ _ => true) toSync syncOrder =
      (Kind.order.filter fun k => (toSync.lookup k.resource).isSome).map (callOf dataMaps) := by
  have horder : syncOrder = Kind.order.map Kind.resource := rfl
  rw [syncLoop_true, horder, List.filterMap_map]
  generalize Kind.order = kinds at h
  induction kinds with
  | nil => rfl
  | cons k kinds ih =>
    have hrest := ih fun t ht => h t (List.mem_cons_of_mem k ht)
    cases hlookup : toSync.lookup k.resource with
    | none => simpa [hlookup] using hrest
    | some data =>
      have hdata : callOf dataMaps k = ⟨k.resource, data, true⟩ := by
        rw [callOf, h k List.mem_cons_self data hlookup]
      simpa [hlookup, hdata] using hrest

theorem dataOf_of_toSync {sha : Sha256} {st : Status} {inp : Inputs}
    (h : aggregateAll inp = .ok dataMaps) {data : Data}
    (hlookup : (resourcesToSync sha inp st dataMaps).lookup k.resource = some data) :
    dataOf dataMaps k = data := by
  have hmem := (List.mem_filter.mp (PyDict.mem_of_lookup hlookup)).1
  have hnodup : (dataMaps.map Prod.fst).Nodup := keys_aggregateAll h ▸ resourceNames_nodup
  rw [dataOf, PyDict.lookup_of_mem hnodup hmem]
  rfl

theorem exists_calls (sha : Sha256) (st : Status) {inp : Inputs}
    (h : aggregateAll inp = .ok dataMaps) : ∃ ks : List Kind, (∀ k ∈ ks, k ∈ Kind.order) ∧
      (Reconcile.reconcile sha st (withSyncFunc inp fun _ _ => true)).calls =
        ks.map (callOf dataMaps) := by
  rcases reconcile_cases sha st (withSyncFunc inp fun _ _ => true) with
    hidle | ⟨dataMaps', hactive⟩
  · exact ⟨[], fun k hk => (List.not_mem_nil hk).elim, hidle.calls⟩
  · have hsame : dataMaps' = dataMaps := by
      have hboth := hactive.aggregated.symm.trans h
      exact Except.ok.inj hboth
    subst hsame
    refine ⟨_, fun k hk => (List.mem_filter.mp hk).1, hactive.calls.trans (calls_of_toSync ?_)⟩
    exact fun k _ data hlookup => dataOf_of_toSync hactive.aggregated hlookup

/-- A run that syncs every resource. -/
structure Starts (sha : Sha256) (st : Status) (dataMaps : List (Text × Data)) (inp : Inputs) :
    Prop where
  found : inp.found = true
  isEnabled : inp.isEnabled = true
  authToken : inp.authToken = true
  newClient : inp.newClient = true
  due : ∀ p ∈ dataMaps, shouldSync st.lastSyncedAt (syncInterval inp) inp.now
    (computeHash sha p.2) (st.syncHash p.1) = true

theorem calls_of_starts {sha : Sha256} {st : Status} {inp : Inputs}
    (h : aggregateAll inp = .ok dataMaps) (hstarts : Starts sha st dataMaps inp) :
    (Reconcile.reconcile sha st (withSyncFunc inp fun _ _ => true)).calls =
      Kind.order.map (callOf dataMaps) := by
  have hkeys := keys_aggregateAll h
  obtain ⟨hfound, henabled, hauth, hclient, hdue⟩ := hstarts
  have hall : resourcesToSync sha (withSyncFunc inp fun _ _ => true) st dataMaps = dataMaps :=
    List.filter_eq_self.mpr fun p hp => hdue p hp
  have hsync : (withSyncFunc inp fun _ _ => true).syncFunc = fun _ _ => true := rfl
  have haggregate : aggregateAll (withSyncFunc inp fun _ _ => true) = .ok dataMaps := h
  change (withSyncFunc inp fun _ _ => true).found = true at hfound
  change (withSyncFunc inp fun _ _ => true).isEnabled = true at henabled
  change (withSyncFunc inp fun _ _ => true).authToken = true at hauth
  change (withSyncFunc inp fun _ _ => true).newClient = true at hclient
  generalize (withSyncFunc inp fun _ _ => true) = planned at *
  have hne : dataMaps ≠ [] := by
    rintro rfl
    cases hkeys
  have hcalls : syncLoop planned.syncFunc dataMaps syncOrder =
      Kind.order.map (callOf dataMaps) := by
    rw [hsync, calls_of_toSync fun k _ data hlookup => by rw [dataOf, hlookup]; rfl]
    congr 1
    refine List.filter_eq_self.mpr fun k hk => ?_
    have hname : k.resource ∈ dataMaps.map Prod.fst := by
      rw [hkeys, ← syncOrder_perm.mem_iff]
      exact List.mem_map_of_mem hk
    obtain ⟨data, hdata⟩ := mem_keys_iff.mp hname
    rw [hdata]
    rfl
  simp only [Reconcile.reconcile, hfound, henabled, topologicalSort_resources, haggregate, hall,
    hne, syncResources, hauth, hclient, Bool.not_true, Bool.false_eq_true, if_false]
  split_ifs <;> exact hcalls

theorem reconcile_of_calls {sha : Sha256} {st : Status} (run : Run A) {calls : List SyncCall}
    (hcalls : (Reconcile.reconcile sha st (withSyncFunc run.inputs fun _ _ => true)).calls =
      calls) (h : runCalls dec run.env calls s = some (none, s')) :
    ∃ report, reconcile sha dec st s run = some (report, s') ∧
      report.status = (Reconcile.reconcile sha st
        (withSyncFunc run.inputs fun name _ => some name ≠ none)).status := by
  unfold reconcile
  dsimp only
  rw [hcalls, h]
  exact ⟨_, rfl, rfl⟩

/-! Runs. -/

theorem inv_start (h : Resolvable dec dataMaps s₀) : Inv dec dataMaps s₀ s₀ where
  keys := h.keys
  source := fun v hv => Or.inr ⟨v, hv, rfl, rfl, fun _ => rfl⟩
  createdBy := fun _ _ hown => hown
  alive := fun u hu _ => ⟨u, hu, rfl, rfl⟩
  sound := by
    rintro k - x hx hne ⟨v, hv, hkey⟩
    exact (h.fresh k x hx hne v hv (congrArg Prod.snd hkey)).elim

theorem declared_status {inp : Inputs} (h : aggregateAll inp = .ok dataMaps) :
    declared dec dataMaps .status = [] := by
  have hnone : dataMaps.lookup Kind.status.resource = none := by
    by_contra hsome
    obtain ⟨data, hdata⟩ := Option.ne_none_iff_exists'.mp hsome
    have hname : Kind.status.resource ∈ dataMaps.map Prod.fst := mem_keys_iff.mpr ⟨data, hdata⟩
    rw [keys_aggregateAll h] at hname
    exact absurd hname (by decide +kernel)
  rw [declared, dataOf, hnone, Option.getD_none, dec.empty, placedAll]

/-- What is declared for a run: the same data each time, and ids that Nautobot does not draw. -/
structure Declares (dec : Decoder A) (dataMaps : List (Text × Data)) (run : Run A) : Prop where
  aggregated : aggregateAll run.inputs = .ok dataMaps
  ids : ∀ k, ∀ x ∈ declared dec dataMaps k, ∀ objects, run.env.newId objects ≠ x.1.id

/-- Once everything is resolved, it stays so from run to run. -/
theorem reconcileAll_keeps (sha : Sha256) (hres : Resolvable dec dataMaps s₀) {runs : List (Run A)}
    (hruns : ∀ run ∈ runs, Declares dec dataMaps run) (st : Status) {s : Nautobot A}
    (hinv : Inv dec dataMaps s₀ s)
    (hdone : ∀ t, ¬t.byName → ∀ x ∈ declared dec dataMaps t, Done dec dataMaps s t x) :
    ∃ st' s', reconcileAll sha dec runs st s = some (st', s') ∧
      ∀ t, ¬t.byName → ∀ x ∈ declared dec dataMaps t, Done dec dataMaps s' t x := by
  induction runs generalizing st s with
  | nil => exact ⟨st, s, rfl, hdone⟩
  | cons run runs ih =>
    have hrun := hruns run List.mem_cons_self
    obtain ⟨ks, hks, hcalls⟩ := exists_calls sha st hrun.aggregated
    have hall : ∀ t : Kind, t ∈ .status :: Kind.order := by
      intro t
      by_cases ht : t = .status
      · exact ht ▸ List.mem_cons_self
      · exact List.mem_cons_of_mem _ (mem_order ht)
    obtain ⟨s', hs', hinv', hdone'⟩ := runCalls_returns hres hrun.ids hks (inOrder_of_all hall ks)
      hinv fun t _ => hdone t
    obtain ⟨report, hreport, -⟩ := reconcile_of_calls run hcalls hs'
    obtain ⟨st'', s'', hrest, hfinal⟩ := ih (fun r hr => hruns r (List.mem_cons_of_mem run hr))
      report.status hinv' fun t => hdone' t (Or.inl (hall t))
    refine ⟨st'', s'', ?_, hfinal⟩
    rw [reconcileAll, hreport]
    exact hrest

theorem resolved_of_done (hk : k ∈ checkedKinds) {x : Entry A × Option (Entry A)}
    (h : Done dec dataMaps s k x) : Resolved s k x := by
  obtain ⟨v, hv, -, hlinked⟩ := h
  exact ⟨v, hv, hlinked hk⟩

/-! One device in a VLAN group, every other name of which is in Nautobot. -/

def sampleName : Kind → Text
  | .deviceType => "server".toList
  | .status => "Active".toList
  | .role => "compute".toList
  | .location => "hall".toList
  | .vlanGroup => "fabric".toList
  | _ => []

def sampleEntry : Kind → Option (Entry Unit)
  | .device => some ⟨"d".toList, "host".toList, fun t => some (sampleName t), [], fun _ => some ()⟩
  | .vlanGroup =>
    some ⟨"g".toList, "fabric".toList, fun t => some (sampleName t), [], fun _ => some ()⟩
  | _ => none

def sampleDecoder : Decoder Unit where
  forest k data := if data = [] then [] else ((sampleEntry k).map (Tree.node · [])).toList
  empty _ := rfl
  flat k data _ tree htree := by
    split_ifs at htree
    · cases htree
    · obtain ⟨e, -, rfl⟩ := Option.map_eq_some_iff.mp (Option.mem_toList.mp htree)
      rfl
  noId data tree htree := by simp [sampleEntry] at htree

/-- A Nautobot that answers the first object and lists everything in its order. -/
def firstEnv : Env Unit where
  found objects k name := objects.find? fun v => v.kind = k ∧ v.name = name
  found_some _ _ _ _ h := ⟨List.mem_of_find?_eq_some h, by simpa using List.find?_some h⟩
  found_none _ _ _ h v hv hkind hname := by simpa [hkind, hname] using List.find?_eq_none.mp h v hv
  listing objects := objects
  listing_perm _ := .refl _
  firstPage objects := objects
  firstPage_subset _ := List.Subset.refl _
  ranged keys := keys
  ranged_perm _ := .refl _
  files forest := forest
  files_perm _ := .refl _
  newId objects := '-' :: (objects.map Object.id).flatten
  newId_fresh objects v hv heq := by
    have hle := (List.sublist_flatten_of_mem (List.mem_map_of_mem (f := Object.id) hv)).length_le
    rw [heq, List.length_cons] at hle
    omega
  sameAttrs _ _ := true
  storedAttrs _ attrs := attrs

def sampleInputs : Inputs where
  found := true
  isEnabled := true
  syncIntervalSeconds := 0
  configRefs name :=
    if name ∈ ["device".toList, "vlanGroup".toList] then [configMapRef name] else []
  cluster := configMapsOf [("device".toList, oneEntry "a".toList "b".toList),
    ("vlanGroup".toList, oneEntry "a".toList "b".toList)]
  now := 0
  authToken := true
  newClient := true
  syncFunc _ _ := true
  statusUpdate := true

def sampleDataMaps : List (Text × Data) :=
  resourceNames.map fun name => (name,
    if name ∈ ["device".toList, "vlanGroup".toList] then [("a".toList, "b".toList)] else [])

def sampleRun : Run Unit := ⟨sampleInputs, firstEnv⟩

def sampleObject (k : Kind) : Object Unit := ⟨k, sampleName k, sampleName k, fun _ => none, ()⟩

def sampleStart (kinds : List Kind) : Nautobot Unit := ⟨kinds.map sampleObject, []⟩

theorem declared_sample (k : Kind) : declared sampleDecoder sampleDataMaps k =
    ((sampleEntry k).map (·, none)).toList := by
  cases k <;> rfl

theorem declares_sample : Declares sampleDecoder sampleDataMaps sampleRun where
  aggregated := rfl
  ids := by
    intro k x hx objects heq
    rw [declared_sample] at hx
    cases k <;> simp [sampleEntry] at hx <;> rw [hx] at heq <;> cases heq

/-- With an interval of zero every run syncs everything. -/
theorem starts_sample (sha : Sha256) {st : Status} (h : ∀ t, st.lastSyncedAt = some t → t ≤ 0) :
    Starts sha st sampleDataMaps sampleInputs where
  found := rfl
  isEnabled := rfl
  authToken := rfl
  newClient := rfl
  due := by
    intro p _
    refine shouldSync_iff.mpr (Or.inr fun t ht => ?_)
    have hle := h t ht
    simp only [syncInterval, sampleInputs]
    omega

theorem refers_sample {e : Entry Unit} (he : sampleEntry k = some e) {t : Kind} {name : Text}
    (h : Refers k e t name) :
    name = sampleName t ∧ t ∈ [.deviceType, .status, .role, .location, .vlanGroup] ∧
      (t = .vlanGroup → k = .device) := by
  obtain ⟨hname, hempty⟩ := h.name_eq
  obtain ⟨need, hneed⟩ := Option.ne_none_iff_exists'.mp h.lookup
  have hmem := PyDict.mem_of_lookup hneed
  have hrefers : name = sampleName t := by
    cases k <;> cases he <;> exact hname
  have hnonempty (hk : need ≠ .required) (hk' : need ≠ .requiredFirst) : name ≠ [] := by
    intro heq
    have hin := hempty heq
    rw [hneed] at hin
    simp [hk, hk'] at hin
  refine ⟨hrefers, ?_⟩
  cases k <;> cases he
  · simp only [references, List.mem_singleton, Prod.mk.injEq] at hmem
    obtain ⟨rfl, -⟩ := hmem
    decide
  · simp only [references, List.mem_cons, Prod.mk.injEq, List.not_mem_nil, or_false] at hmem
    rcases hmem with ⟨rfl, rfl⟩ | ⟨rfl, rfl⟩ | ⟨rfl, rfl⟩ | ⟨rfl, rfl⟩ | ⟨rfl, rfl⟩ | ⟨rfl, rfl⟩ |
      ⟨rfl, rfl⟩
    · decide
    · decide
    · decide
    · decide
    · exact (hnonempty (by decide) (by decide) hrefers).elim
    · exact (hnonempty (by decide) (by decide) hrefers).elim
    · decide

theorem available_sample {kinds : List Kind} {t : Kind} (ht : t ∈ kinds) :
    Available sampleDecoder sampleDataMaps (sampleStart kinds) t (sampleName t) :=
  ⟨⟨sampleObject t, List.mem_map_of_mem ht, rfl, rfl⟩,
    Or.inr fun _ _ _ _ => List.not_mem_nil⟩

theorem complete_sample {kinds : List Kind} (hnodup : (kinds.map fun k => (k, sampleName k)).Nodup)
    (hkinds : ∀ k ∈ [.deviceType, .status, .role, .location], k ∈ kinds)
    (hids : ∀ k ∈ kinds, sampleName k ≠ "d".toList ∧ sampleName k ≠ "g".toList) :
    Complete sampleDecoder sampleDataMaps (sampleStart kinds) where
  keys := by
    have hkeys : ((sampleStart kinds).objects.map Object.key).Nodup := by
      rw [sampleStart, List.map_map]
      exact hnodup
    exact fun a ha b hb => List.inj_on_of_nodup_map hkeys ha hb
  acyclic := by
    refine ⟨fun _ => 0, fun v hv u _ _ hrefs => ?_⟩
    obtain ⟨k, -, rfl⟩ := List.mem_map.mp hv
    cases hrefs
  fresh := by
    intro k x hx _ u hu
    obtain ⟨t, ht, rfl⟩ := List.mem_map.mp hu
    rw [declared_sample] at hx
    cases k <;> simp only [sampleEntry, Option.map_none, Option.toList_none, List.not_mem_nil] at hx
    · rw [List.mem_singleton.mp hx]
      exact (hids t ht).2
    · rw [List.mem_singleton.mp hx]
      exact (hids t ht).1
  distinct := by
    intro k x hx y hy _ _
    rw [declared_sample] at hx hy
    obtain ⟨e, he, rfl⟩ := Option.map_eq_some_iff.mp (Option.mem_toList.mp hx)
    obtain ⟨e', he', rfl⟩ := Option.map_eq_some_iff.mp (Option.mem_toList.mp hy)
    rw [he] at he'
    cases he'
    rfl
  dates := by
    intro k x hx lookup
    rw [declared_sample] at hx
    obtain ⟨e, he, rfl⟩ := Option.map_eq_some_iff.mp (Option.mem_toList.mp hx)
    cases k <;> cases he <;> rfl
  names := by
    intro k x hx t name href
    rw [declared_sample] at hx
    obtain ⟨e, he, rfl⟩ := Option.map_eq_some_iff.mp (Option.mem_toList.mp hx)
    obtain ⟨rfl, ht, -⟩ := refers_sample he href
    by_cases hvlan : t = .vlanGroup
    · subst hvlan
      refine Or.inl ?_
      rw [declaredNames, declared_sample]
      exact List.mem_singleton.mpr rfl
    · refine Or.inr (available_sample (hkinds t ?_))
      simp only [List.mem_cons, List.not_mem_nil, or_false] at ht ⊢
      tauto
  devices := by
    intro x hx
    rw [declared_sample] at hx
    cases hx
  clusters := by
    intro x hx
    rw [declared_sample] at hx
    cases hx

/-- Nautobot has the VLAN group beforehand. -/
def groupedKinds : List Kind := [.deviceType, .status, .role, .location, .vlanGroup]

theorem resolvable_sample :
    Resolvable sampleDecoder sampleDataMaps (sampleStart groupedKinds) where
  toComplete := complete_sample (by decide) (by decide) (by decide)
  vlanGroups := by
    intro x hx name href
    rw [declared_sample] at hx
    obtain ⟨e, he, rfl⟩ := Option.map_eq_some_iff.mp (Option.mem_toList.mp hx)
    obtain ⟨rfl, -⟩ := refers_sample he href
    exact available_sample (by decide)

/-- Where the VLAN groups of the devices exist beforehand, a first `Reconcile` sets every declared
reference, and every later one leaves them set. -/
theorem references_resolved_from_first_run (sha : Sha256) {dec : Decoder A}
    {dataMaps : List (Text × Data)} {st : Status} {s : Nautobot A}
    (hres : Resolvable dec dataMaps s) {first : Run A} {later : List (Run A)}
    (hstarts : Starts sha st dataMaps first.inputs)
    (hruns : ∀ run ∈ first :: later, Declares dec dataMaps run) :
    ∃ st' s', reconcileAll sha dec (first :: later) st s = some (st', s') ∧
      ∀ k ∈ checkedKinds, ∀ x ∈ declared dec dataMaps k, Resolved s' k x := by
  have hfirst := hruns first List.mem_cons_self
  obtain ⟨mid, hmid, hinv, hdone⟩ := runCalls_returns hres hfirst.ids (fun _ => id)
    inOrder_order (inv_start hres) (fun t ht _ x hx => by
      rw [List.mem_singleton.mp ht, declared_status hfirst.aggregated] at hx
      cases hx)
  obtain ⟨report, hreport, -⟩ :=
    reconcile_of_calls first (calls_of_starts hfirst.aggregated hstarts) hmid
  obtain ⟨st', s', hrest, hall⟩ := reconcileAll_keeps sha hres
    (fun run hrun => hruns run (List.mem_cons_of_mem first hrun)) report.status hinv fun t => by
      by_cases ht : t = .status
      · exact hdone t (Or.inl (List.mem_singleton.mpr ht))
      · exact hdone t (Or.inr (mem_order ht))
  refine ⟨st', s', ?_, fun k hk x hx => resolved_of_done hk (hall k ?_ x hx)⟩
  · rw [reconcileAll, hreport]
    exact hrest
  · rintro (rfl | rfl) <;> simp [checkedKinds] at hk

theorem references_resolved_from_first_run_sample :
    ∃ st' s', reconcileAll knownSha sampleDecoder [sampleRun, sampleRun] freshStatus
        (sampleStart groupedKinds) = some (st', s') ∧
      ∀ k ∈ checkedKinds, ∀ x ∈ declared sampleDecoder sampleDataMaps k, Resolved s' k x :=
  references_resolved_from_first_run knownSha resolvable_sample
    (starts_sample knownSha fun t ht => by cases ht) (List.forall_mem_cons.mpr ⟨declares_sample,
      List.forall_mem_cons.mpr ⟨declares_sample, List.forall_mem_nil _⟩⟩)

/-! Without it the device is created before its VLAN group, and found unchanged ever after. -/

def bareKinds : List Kind := [.deviceType, .status, .role, .location]

def bareCalls : List SyncCall := Kind.order.map (callOf sampleDataMaps)

def bareAfter : Nautobot Unit :=
  ((runCalls sampleDecoder firstEnv bareCalls (sampleStart bareKinds)).map Prod.snd).getD
    (sampleStart bareKinds)

theorem runCalls_bareStart :
    runCalls sampleDecoder firstEnv bareCalls (sampleStart bareKinds) = some (none, bareAfter) :=
  (rfl)

theorem runCalls_bareAfter :
    runCalls sampleDecoder firstEnv bareCalls bareAfter = some (none, bareAfter) := (rfl)

theorem device_bareAfter :
    ∀ v ∈ bareAfter.objects, v.kind = .device → v.refs .vlanGroup = none := by
  have hobjects : (bareAfter.objects.map fun v => (v.kind, v.refs .vlanGroup)) =
      [(.deviceType, none), (.status, none), (.role, none), (.location, none), (.device, none),
        (.vlanGroup, none)] := rfl
  intro v hv _
  have hmem := List.mem_map_of_mem (f := fun v : Object Unit => (v.kind, v.refs .vlanGroup)) hv
  rw [hobjects] at hmem
  simp only [List.mem_cons, Prod.mk.injEq, List.not_mem_nil, or_false] at hmem
  rcases hmem with h | h | h | h | h | h <;> exact h.2

attribute [irreducible] bareAfter

theorem lastSyncedAt_reconcile (sha : Sha256) {st : Status} {inp : Inputs} (hnow : inp.now = 0)
    (h : ∀ t, st.lastSyncedAt = some t → t ≤ 0) :
    ∀ t, (Reconcile.reconcile sha st inp).status.lastSyncedAt = some t → t ≤ 0 := by
  rcases reconcile_cases sha st inp with hidle | ⟨dataMaps, hactive⟩
  · rw [hidle.status]
    exact h
  · rcases hactive.recorded with ⟨hsame, -⟩ | ⟨hrecorded, -⟩
    · rw [hsame]
      exact h
    · intro t ht
      rw [hrecorded] at ht
      cases ht
      rw [hnow]
      decide

theorem reconcileAll_bare (sha : Sha256) (n : ℕ) {st : Status}
    (h : ∀ t, st.lastSyncedAt = some t → t ≤ 0) {s : Nautobot Unit}
    (hs : runCalls sampleDecoder firstEnv bareCalls s = some (none, bareAfter)) :
    ∃ st', reconcileAll sha sampleDecoder (List.replicate (n + 1) sampleRun) st s =
      some (st', bareAfter) := by
  induction n generalizing st s with
  | zero =>
    obtain ⟨report, hreport, -⟩ := reconcile_of_calls sampleRun
      (calls_of_starts declares_sample.aggregated (starts_sample sha h)) hs
    exact ⟨report.status, by rw [List.replicate, reconcileAll, hreport]; rfl⟩
  | succ n ih =>
    obtain ⟨report, hreport, hstatus⟩ := reconcile_of_calls sampleRun
      (calls_of_starts declares_sample.aggregated (starts_sample sha h)) hs
    have hnext : ∀ t, report.status.lastSyncedAt = some t → t ≤ 0 := by
      rw [hstatus]
      exact lastSyncedAt_reconcile sha rfl h
    obtain ⟨st', hrest⟩ := ih hnext runCalls_bareAfter
    refine ⟨st', ?_⟩
    rw [List.replicate_succ, reconcileAll, hreport, Option.bind_some]
    dsimp only
    exact hrest

/-- The device, its VLAN group and all other names are declared or in Nautobot, and every call
succeeds, but the device is never in its VLAN group, however often `Reconcile` runs. -/
theorem vlanGroup_of_device_never_set :
    Complete sampleDecoder sampleDataMaps (sampleStart bareKinds) ∧
      Starts knownSha freshStatus sampleDataMaps sampleRun.inputs ∧
      Declares sampleDecoder sampleDataMaps sampleRun ∧
      ∀ n, ∃ st, reconcileAll knownSha sampleDecoder (List.replicate (n + 1) sampleRun) freshStatus
          (sampleStart bareKinds) = some (st, bareAfter) ∧
        ∃ x ∈ declared sampleDecoder sampleDataMaps .device, ¬Resolved bareAfter .device x := by
  have hfresh : ∀ t, freshStatus.lastSyncedAt = some t → t ≤ 0 := fun t ht => by cases ht
  refine ⟨complete_sample (by decide) (by decide) (by decide), starts_sample knownSha hfresh,
    declares_sample, fun n => ?_⟩
  obtain ⟨st, hst⟩ := reconcileAll_bare knownSha n hfresh runCalls_bareStart
  refine ⟨st, hst, _, by rw [declared_sample]; exact List.mem_singleton.mpr rfl, ?_⟩
  rintro ⟨v, hv, hlinked⟩
  obtain ⟨u, -, -, -, hrefs⟩ := hlinked.refs .vlanGroup "fabric".toList ⟨false, rfl, by decide⟩
  rw [device_bareAfter v hv.mem hv.kind] at hrefs
  cases hrefs

end Understack.Nautobotop.Inventory
