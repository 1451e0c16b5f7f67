import Understack.Nautobotop.InventoryPass

/-! The references between declared objects, from pass to pass and from run to run. A name is found
where its kind was synced before, which the order of the kinds grants for all references but that
of a device to its VLAN group. -/
namespace Understack.Nautobotop.Inventory
open PyText Reconcile

variable {A : Type}

/-- The data of a kind among what `Reconcile` aggregated. -/
def dataOf (dataMaps : List (Text × Data)) (k : Kind) : Data := (dataMaps.lookup k.resource).getD []

/-- The declared entries of a kind with those that they are below. -/
def declared (dec : Decoder A) (dataMaps : List (Text × Data)) (k : Kind) :
    List (Entry A × Option (Entry A)) :=
  placedAll none (dec.forest k (dataOf dataMaps k))

def declaredNames (dec : Decoder A) (dataMaps : List (Text × Data)) (k : Kind) : List Text :=
  (declared dec dataMaps k).map fun x => x.1.name

/-- An entry refers to a name. -/
def Refers (k : Kind) (e : Entry A) (t : Kind) (name : Text) : Prop :=
  ∃ required, wanted k e t = some (name, required) ∧ (required = true ∨ name ≠ [])

/-- The object of an entry. -/
structure Made (s : Nautobot A) (k : Kind) (e : Entry A) (v : Object A) : Prop where
  mem : v ∈ s.objects
  kind : v.kind = k
  name : v.name = e.name
  id : e.id ≠ [] → v.id = e.id

/-- An object refers to objects of the names that its entry gives, to that of the entry above, and
the listed devices of a cluster refer to it. -/
structure Linked (s : Nautobot A) (k : Kind) (x : Entry A × Option (Entry A)) (v : Object A) :
    Prop where
  refs : ∀ t name, Refers k x.1 t name →
    ∃ u ∈ s.objects, u.kind = t ∧ u.name = name ∧ v.refs t = some u.id
  parent : ∀ p, x.2 = some p → ∃ u, Made s k p u ∧ v.refs k = some u.id
  devices : k = .cluster → ∀ name ∈ x.1.devices,
    ∃ d ∈ s.objects, d.kind = .device ∧ d.name = name ∧ d.refs .cluster = some v.id

/-- The entry's object exists with every reference that the entry declares. -/
def Resolved (s : Nautobot A) (k : Kind) (x : Entry A × Option (Entry A)) : Prop :=
  ∃ v, Made s k x.1 v ∧ Linked s k x v

/-- The kinds whose references are to be set. -/
def checkedKinds : List Kind := [.device, .rack, .rackGroup, .location, .cluster]

/-- Nautobot has objects of a name, all of which the operator leaves alone. -/
def Available (dec : Decoder A) (dataMaps : List (Text × Data)) (s : Nautobot A) (t : Kind)
    (name : Text) : Prop :=
  (∃ u ∈ s.objects, u.kind = t ∧ u.name = name) ∧
    (name ∈ declaredNames dec dataMaps t ∨
      ∀ u ∈ s.objects, u.kind = t → u.name = name → u.id ∉ s.createdBy)

/-- The parents in a tree are objects above. -/
def Nautobot.Acyclic (s : Nautobot A) : Prop :=
  ∃ depth : Kind × Text → ℕ, ∀ v ∈ s.objects, ∀ u ∈ s.objects, u.kind = v.kind →
    v.refs v.kind = some u.id → depth u.key < depth v.key

/-- A configuration whose names are all declared or in Nautobot, before its objects exist. -/
structure Complete (dec : Decoder A) (dataMaps : List (Text × Data)) (s : Nautobot A) : Prop where
  keys : KeyedTable.Unique Object.key s.objects
  acyclic : s.Acyclic
  fresh : ∀ k, ∀ x ∈ declared dec dataMaps k, x.1.id ≠ [] → ∀ u ∈ s.objects, u.id ≠ x.1.id
  distinct : ∀ k, ∀ x ∈ declared dec dataMaps k, ∀ y ∈ declared dec dataMaps k, x.1.id ≠ [] →
    y.1.id = x.1.id → y = x
  dates : ∀ k, ∀ x ∈ declared dec dataMaps k, ∀ lookup, (x.1.attrs lookup).isSome
  names : ∀ k, ∀ x ∈ declared dec dataMaps k, ∀ t name, Refers k x.1 t name →
    name ∈ declaredNames dec dataMaps t ∨ Available dec dataMaps s t name
  devices : ∀ x ∈ declared dec dataMaps .cluster, ∀ name ∈ x.1.devices,
    name ∈ declaredNames dec dataMaps .device ∨ Available dec dataMaps s .device name
  clusters : ∀ x ∈ declared dec dataMaps .cluster, ∀ y ∈ declared dec dataMaps .cluster, y ≠ x →
    ∀ name ∈ x.1.devices, name ∉ y.1.devices

/-- The VLAN groups that devices name are in Nautobot too. -/
structure Resolvable (dec : Decoder A) (dataMaps : List (Text × Data)) (s : Nautobot A) : Prop
    extends Complete dec dataMaps s where
  vlanGroups : ∀ x ∈ declared dec dataMaps .device, ∀ name, Refers .device x.1 .vlanGroup name →
    Available dec dataMaps s .vlanGroup name

variable {dec : Decoder A} {dataMaps : List (Text × Data)} {env : Env A} {k : Kind}
  {s₀ s s' : Nautobot A}

theorem mem_declaredNames {x : Entry A × Option (Entry A)} (h : x ∈ declared dec dataMaps k) :
    x.1.name ∈ declaredNames dec dataMaps k :=
  List.mem_map_of_mem h

/-! What stays. -/

section Invariant

variable (dec dataMaps s₀)

/-- The operator never removes an object that is declared or, at the start, of another user. -/
def Lasting (u : Object A) : Prop :=
  (u.kind ≠ .ipPrefix ∧ u.name ∈ declaredNames dec dataMaps u.kind) ∨
    (∃ v ∈ s₀.objects, v.id = u.id) ∧ u.id ∉ s₀.createdBy

/-- Nothing refers to objects of these kinds, which are found by their names. -/
def Kind.byName (k : Kind) : Prop := k = .permissionGroup ∨ k = .ipPrefix

/-- The entry's object exists, under an id that no other entry has, and has its references. -/
def Done (s : Nautobot A) (k : Kind) (x : Entry A × Option (Entry A)) : Prop :=
  ∃ v, Made s k x.1 v ∧ (x.1.id = [] → ∀ y ∈ declared dec dataMaps k, y.1.id ≠ v.id) ∧
    (k ∈ checkedKinds → Linked s k x v)

structure Inv (s : Nautobot A) : Prop where
  keys : KeyedTable.Unique Object.key s.objects
  source : ∀ v ∈ s.objects, v.name ∈ declaredNames dec dataMaps v.kind ∨
    ∃ u ∈ s₀.objects, u.key = v.key ∧ u.name = v.name ∧
      (v.kind.isTree → v.refs v.kind = u.refs v.kind)
  createdBy : ∀ u ∈ s₀.objects, u.id ∉ s₀.createdBy → u.id ∉ s.createdBy
  alive : ∀ u ∈ s₀.objects, Lasting dec dataMaps s₀ u →
    ∃ v ∈ s.objects, v.key = u.key ∧ v.name = u.name
  sound : ∀ k, ¬k.byName → ∀ x ∈ declared dec dataMaps k, x.1.id ≠ [] →
    (∃ v ∈ s.objects, v.key = (k, x.1.id)) → Done dec dataMaps s k x

structure Keeps (s s' : Nautobot A) : Prop where
  lasting : ∀ u ∈ s.objects, Lasting dec dataMaps s₀ u →
    ∃ v ∈ s'.objects, v.key = u.key ∧ v.name = u.name
  done : ∀ k, ¬k.byName → ∀ x ∈ declared dec dataMaps k,
    Done dec dataMaps s k x → Done dec dataMaps s' k x

/-- The names that the entries of a kind refer to are found, those that may be missing only where
the references are to be set. -/
structure Findable (k : Kind) (s : Nautobot A) : Prop where
  refs : ∀ x ∈ declared dec dataMaps k, ∀ t name, Refers k x.1 t name →
    (k ∈ checkedKinds ∨ wanted k x.1 t = some (name, true)) →
    ∃ u ∈ s.objects, u.kind = t ∧ u.name = name ∧ Lasting dec dataMaps s₀ u
  devices : k = .cluster → ∀ x ∈ declared dec dataMaps k, ∀ name ∈ x.1.devices,
    ∃ u ∈ s.objects, u.kind = .device ∧ u.name = name ∧ Lasting dec dataMaps s₀ u

end Invariant

theorem Lasting.congr {u v : Object A} (h : Lasting dec dataMaps s₀ u) (hkey : v.key = u.key)
    (hname : v.name = u.name) : Lasting dec dataMaps s₀ v := by
  have hkind : v.kind = u.kind := congrArg Prod.fst hkey
  have hid : v.id = u.id := congrArg Prod.snd hkey
  unfold Lasting at h ⊢
  rwa [hkind, hid, hname]

theorem Keeps.refl (s : Nautobot A) : Keeps dec dataMaps s₀ s s :=
  ⟨fun u hu _ => ⟨u, hu, rfl, rfl⟩, fun _ _ _ _ h => h⟩

theorem Keeps.trans {s'' : Nautobot A} (h : Keeps dec dataMaps s₀ s s')
    (h' : Keeps dec dataMaps s₀ s' s'') : Keeps dec dataMaps s₀ s s'' where
  lasting := by
    intro u hu hlasting
    obtain ⟨v, hv, hkey, hname⟩ := h.lasting u hu hlasting
    obtain ⟨w, hw, hkey', hname'⟩ := h'.lasting v hv (hlasting.congr hkey hname)
    exact ⟨w, hw, hkey'.trans hkey, hname'.trans hname⟩
  done := fun k hk x hx hdone => h'.done k hk x hx (h.done k hk x hx hdone)

theorem Findable.keep (h : Findable dec dataMaps s₀ k s) (hkeeps : Keeps dec dataMaps s₀ s s') :
    Findable dec dataMaps s₀ k s' := by
  have hmove {t : Kind} {name : Text} (hu : ∃ u ∈ s.objects, u.kind = t ∧ u.name = name ∧
      Lasting dec dataMaps s₀ u) : ∃ u ∈ s'.objects, u.kind = t ∧ u.name = name ∧
        Lasting dec dataMaps s₀ u := by
    obtain ⟨u, hu, rfl, rfl, hlasting⟩ := hu
    obtain ⟨v, hv, hkey, hname⟩ := hkeeps.lasting u hu hlasting
    exact ⟨v, hv, congrArg Prod.fst hkey, hname, hlasting.congr hkey hname⟩
  exact ⟨fun x hx t name href hset => hmove (h.refs x hx t name href hset),
    fun hk x hx name hname => hmove (h.devices hk x hx name hname)⟩

/-- What an entry names lasts. -/
theorem Inv.lasting (h : Inv dec dataMaps s₀ s) {u : Object A} (hu : u ∈ s.objects)
    (hpre : u.kind ≠ .ipPrefix)
    (hname : u.name ∈ declaredNames dec dataMaps u.kind ∨ Available dec dataMaps s₀ u.kind u.name) :
    Lasting dec dataMaps s₀ u := by
  by_cases hdeclared : u.name ∈ declaredNames dec dataMaps u.kind
  · exact Or.inl ⟨hpre, hdeclared⟩
  · have hown := (hname.resolve_left hdeclared).2.resolve_left hdeclared
    obtain ⟨v, hv, hkey, hvname, -⟩ := (h.source u hu).resolve_left hdeclared
    have hid : v.id = u.id := congrArg Prod.snd hkey
    exact Or.inr ⟨⟨v, hv, hid⟩, hid ▸ hown v hv (congrArg Prod.fst hkey) hvname⟩

/-! What an entry refers to. -/

theorem lookup_references_cluster (k : Kind) : (references k).lookup .cluster = none := by
  cases k <;> rfl

theorem lookup_references_ipPrefix (k : Kind) : (references k).lookup .ipPrefix = none := by
  cases k <;> rfl

theorem lookup_references_self (hk : k ∈ checkedKinds) : (references k).lookup k = none := by
  cases k <;> first | rfl | simp [checkedKinds] at hk

theorem wanted_of_lookup {t : Kind} (h : (references k).lookup t = none) (e : Entry A) :
    wanted k e t = none := by
  rw [wanted, h]

theorem Refers.lookup {e : Entry A} {t : Kind} {name : Text} (h : Refers k e t name) :
    (references k).lookup t ≠ none := by
  obtain ⟨required, hwanted, -⟩ := h
  intro hnone
  rw [wanted_of_lookup hnone] at hwanted
  cases hwanted

/-- An empty name is looked up only where the reference is required. -/
theorem Refers.name_eq {e : Entry A} {t : Kind} {name : Text} (h : Refers k e t name) :
    name = (e.refers t).getD [] ∧
      (name = [] → (references k).lookup t ∈ [some .required, some .requiredFirst]) := by
  have hnamed {required : Bool} {name' : Text} {required' : Bool}
      (hwanted : (e.named t).map (·, required) = some (name', required')) :
      e.refers t = some name' ∧ name' ≠ [] := by
    obtain ⟨n, hn, heq⟩ := Option.map_eq_some_iff.mp hwanted
    cases heq
    obtain ⟨hrefers, hne⟩ := Option.filter_eq_some_iff.mp hn
    exact ⟨hrefers, of_decide_eq_true hne⟩
  obtain ⟨required, hwanted, hne⟩ := h
  unfold wanted at hwanted
  split at hwanted
  · cases hwanted
  · next hneed =>
    cases hwanted
    exact ⟨rfl, fun _ => by simp [hneed]⟩
  · obtain ⟨hrefers, hname⟩ := hnamed hwanted
    exact ⟨by rw [hrefers]; rfl, fun heq => (hname heq).elim⟩
  · next hneed =>
    obtain ⟨n, hn, heq⟩ := Option.map_eq_some_iff.mp hwanted
    cases heq
    exact ⟨by rw [hn]; rfl, fun _ => by simp [hneed]⟩
  · cases hwanted
    exact ⟨rfl, fun heq => (hne.resolve_left Bool.false_ne_true heq).elim⟩
  · obtain ⟨hrefers, hname⟩ := hnamed hwanted
    exact ⟨by rw [hrefers]; rfl, fun heq => (hname heq).elim⟩

variable (env) in
theorem exists_lookup {t : Kind} {name : Text}
    (h : ∃ u ∈ s.objects, u.kind = t ∧ u.name = name) : ∃ id, lookup env s t name = some id := by
  obtain ⟨u, hu, hkind, hname⟩ := h
  by_contra hnone
  exact lookup_none (Option.eq_none_iff_forall_ne_some.mpr fun id hid => hnone ⟨id, hid⟩) u hu hkind
    hname

variable (env) in
/-- An entry whose names are found has a request. -/
theorem exists_request {e : Entry A} (parent : Option Text)
    (hdates : ∀ lookup, (e.attrs lookup).isSome)
    (hnames : ∀ t name, wanted k e t = some (name, true) →
      ∃ u ∈ s.objects, u.kind = t ∧ u.name = name) :
    ∃ req, request env k parent s e = some req := by
  unfold request
  rw [if_neg]
  · exact Option.isSome_iff_exists.mp (by rw [Option.isSome_map]; exact hdates _)
  · rintro ⟨t, hmissing⟩
    unfold missing at hmissing
    split at hmissing
    · next name hwanted =>
      obtain ⟨id, hid⟩ := exists_lookup env (hnames t name hwanted)
      rw [hid] at hmissing
      cases hmissing
    · cases hmissing

theorem refs_of_refers {e : Entry A} {parent : Option Text} {req : Request A}
    (h : request env k parent s e = some req) (hk : k ∈ checkedKinds) {t : Kind} {name : Text}
    (href : Refers k e t name) (hname : ∃ u ∈ s.objects, u.kind = t ∧ u.name = name) :
    ∃ u ∈ s.objects, u.kind = t ∧ u.name = name ∧ req.refs t = some u.id := by
  have hne : t ≠ k := by
    rintro rfl
    exact href.lookup (lookup_references_self hk)
  obtain ⟨id, hid⟩ := exists_lookup env hname
  obtain ⟨u, hu, hkind, huname, rfl⟩ := lookup_some hid
  obtain ⟨required, hwanted, -⟩ := href
  refine ⟨u, hu, hkind, huname, ?_⟩
  rw [refs_request h, if_neg hne, hwanted]
  exact hid

theorem parent_of_request {e : Entry A} {id : Text} {req : Request A}
    (h : request env k (some id) s e = some req) : req.refs k = some id := by
  rw [refs_request h, if_pos rfl]
  rfl

/-! One entry. -/

/-- What the list of a cluster's devices changes: the cluster of devices that it names, or that were
in the cluster. -/
structure Reassigns (k : Kind) (e : Entry A) (clusterID : Text) (s : Nautobot A)
    (f : Object A → Object A) : Prop where
  key : ∀ u, (f u).key = u.key
  name : ∀ u, (f u).name = u.name
  refs : ∀ u t, t ≠ .cluster → (f u).refs t = u.refs t
  moved : ∀ u, (f u).refs .cluster ≠ u.refs .cluster → k = .cluster ∧ u.kind = .device
  cause : ∀ u ∈ s.objects, (f u).refs .cluster ≠ u.refs .cluster →
    u.name ∈ e.devices ∨ u.refs .cluster = some clusterID
  listed : k = .cluster → ∀ name ∈ e.devices, ∃ u ∈ s.objects, u.kind = .device ∧ u.name = name ∧
    (f u).refs .cluster = some clusterID

variable (env) in
theorem reassigns_syncClusterDevices {e : Entry A} (clusterID : Text)
    (hkeys : KeyedTable.Unique Object.key s.objects)
    (hnames : ∀ name ∈ e.devices, ∃ u ∈ s.objects, u.kind = .device ∧ u.name = name) :
    ∃ f, syncClusterDevices env clusterID e.devices s = { s with objects := s.objects.map f } ∧
      Reassigns .cluster e clusterID s f := by
  obtain ⟨assigned, unassigned, hsync, hassigned, hunassigned, hlisted⟩ :=
    syncClusterDevices_spec env clusterID e.devices s
  -- a device that is dropped has a name that is not listed
  have hdropped : ∀ u ∈ s.objects, u.kind = .device → u.id ∈ unassigned →
      u.refs .cluster = some clusterID ∧ u.name ∉ e.devices := by
    intro u hu hkind hid
    obtain ⟨v, hv, hkey, hcluster, hnot⟩ := hunassigned u.id hid
    have huv : u = v := hkeys u hu v hv (by rw [hkey, Object.key, hkind])
    subst huv
    refine ⟨hcluster, fun hname => hnot u.name hname ?_ rfl⟩
    obtain ⟨id, hid⟩ := exists_lookup env (hnames u.name hname)
    rw [hid]
    exact Option.some_ne_none id
  refine ⟨_, hsync, ?_, ?_, ?_, ?_, ?_, ?_⟩
  · intro u
    unfold reassigned
    split_ifs <;> rfl
  · intro u
    unfold reassigned
    split_ifs <;> rfl
  · intro u t ht
    unfold reassigned
    split_ifs
    · exact Function.update_of_ne ht none u.refs
    · exact Function.update_of_ne ht (some clusterID) u.refs
    · rfl
  · intro u hmoved
    refine ⟨rfl, ?_⟩
    by_contra hkind
    simp [reassigned, hkind] at hmoved
  · intro u hu hmoved
    by_cases hdevice : u.kind = .device
    · by_cases hout : u.id ∈ unassigned
      · exact Or.inr (hdropped u hu hdevice hout).1
      · by_cases hin : u.id ∈ assigned
        · obtain ⟨name, hname, hid⟩ := hassigned u.id hin
          obtain ⟨v, hv, hkind, rfl, hvid⟩ := lookup_some hid
          have huv : u = v := hkeys u hu v hv (by rw [Object.key, Object.key, hdevice, hkind, hvid])
          subst huv
          exact Or.inl hname
        · simp [reassigned, hout, hin] at hmoved
    · simp [reassigned, hdevice] at hmoved
  · intro _ name hname
    obtain ⟨id, hid⟩ := exists_lookup env (hnames name hname)
    obtain ⟨u, hu, hkind, rfl, huid⟩ := lookup_some hid
    have hkept : ∀ v ∈ s.objects, v.kind = .device → v.name ∈ e.devices → v.id ∉ unassigned :=
      fun v hv hvkind hvname hout => (hdropped v hv hvkind hout).2 hvname
    rcases hlisted u.name hname id hid with hin | ⟨v, hv, hvkind, hvname, hcluster⟩
    · refine ⟨u, hu, hkind, rfl, ?_⟩
      rw [reassigned, if_neg (fun h => hkept u hu hkind hname h.2), if_pos ⟨hkind, huid ▸ hin⟩]
      exact Function.update_self Kind.cluster (some clusterID) u.refs
    · refine ⟨v, hv, hvkind, hvname, ?_⟩
      rw [reassigned, if_neg (fun h => hkept v hv hvkind (hvname ▸ hname) h.2)]
      split_ifs
      · exact Function.update_self Kind.cluster (some clusterID) v.refs
      · exact hcluster

def Nautobot.reassign (f : Object A → Object A) (s : Nautobot A) : Nautobot A :=
  { s with objects := s.objects.map f }

variable (env) in
/-- An entry whose names are found leaves its object, and the assignments of a cluster. -/
theorem syncSingle_returns {e : Entry A} (parent : Option Text)
    (hkeys : KeyedTable.Unique Object.key s.objects)
    (hpermission : k = .permissionGroup → e.id = []) (hdates : ∀ lookup, (e.attrs lookup).isSome)
    (hnames : ∀ t name, wanted k e t = some (name, true) →
      ∃ u ∈ s.objects, u.kind = t ∧ u.name = name)
    (hdevices : k = .cluster → ∀ name ∈ e.devices,
      ∃ u ∈ s.objects, u.kind = .device ∧ u.name = name) :
    ∃ req v mid f, request env k parent s e = some req ∧ Stored env k s e req mid v ∧
      Reassigns k e v.id mid f ∧
      syncSingle env k parent s e = (some v.id, mid.reassign f) := by
  obtain ⟨req, hreq⟩ := exists_request env parent hdates hnames
  rcases syncSingle_cases env e parent hkeys hpermission with
    ⟨hnone, -⟩ | ⟨req, v, mid, hreq, hstored, hid, ⟨hplain, hmid⟩ | ⟨rfl, hcluster⟩⟩
  · rw [hreq] at hnone
    cases hnone
  · refine ⟨req, v, mid, id, hreq, hstored, ?_, Prod.ext hid ?_⟩
    · refine ⟨fun _ => rfl, fun _ => rfl, fun _ _ _ => rfl, fun _ h => (h rfl).elim,
        fun _ _ h => (h rfl).elim, fun hk name hname => ?_⟩
      have hnil : e.devices ≠ [] := List.ne_nil_of_mem hname
      exact (hplain ⟨hk, hnil⟩).elim
    · rw [hmid, Nautobot.reassign, List.map_id]
  · have hmid : ∀ name ∈ e.devices, ∃ u ∈ mid.objects, u.kind = .device ∧ u.name = name := by
      intro name hname
      obtain ⟨u, hu, hkind, huname⟩ := hdevices rfl name hname
      refine ⟨u, (hstored.objects u).mpr (Or.inl ⟨hu, fun heq => ?_⟩), hkind, huname⟩
      have hsame : u.kind = v.kind := congrArg Prod.fst heq
      rw [hkind, hstored.kind] at hsame
      cases hsame
    obtain ⟨f, hsync, hf⟩ := reassigns_syncClusterDevices env v.id (hstored.keys hkeys) hmid
    exact ⟨req, v, mid, f, hreq, hstored, hf, Prod.ext hid (hcluster.trans hsync)⟩

mutual

theorem above_placed (above : Option (Entry A)) : ∀ tree : Tree A, ∀ x ∈ tree.placed above,
    x.2 = above ∨ ∃ y ∈ tree.placed above, x.2 = some y.1
  | .node e children => by
    intro x hx
    rw [Tree.placed] at hx ⊢
    rcases List.mem_cons.mp hx with rfl | hx
    · exact Or.inl rfl
    · rcases above_placedAll (some e) children x hx with habove | ⟨y, hy, habove⟩
      · exact Or.inr ⟨(e, above), List.mem_cons_self, habove⟩
      · exact Or.inr ⟨y, List.mem_cons_of_mem _ hy, habove⟩
termination_by structural tree => tree

theorem above_placedAll (above : Option (Entry A)) : ∀ forest : List (Tree A),
    ∀ x ∈ placedAll above forest, x.2 = above ∨ ∃ y ∈ placedAll above forest, x.2 = some y.1
  | [] => by
    intro x hx
    rw [placedAll] at hx
    cases hx
  | tree :: forest => by
    intro x hx
    rw [placedAll] at hx ⊢
    rcases List.mem_append.mp hx with hx | hx
    · rcases above_placed above tree x hx with habove | ⟨y, hy, habove⟩
      · exact Or.inl habove
      · exact Or.inr ⟨y, List.mem_append_left _ hy, habove⟩
    · rcases above_placedAll above forest x hx with habove | ⟨y, hy, habove⟩
      · exact Or.inl habove
      · exact Or.inr ⟨y, List.mem_append_right _ hy, habove⟩
termination_by structural forest => forest

end

/-- What an entry is below is declared. -/
theorem name_of_above {x : Entry A × Option (Entry A)} (hx : x ∈ declared dec dataMaps k)
    {p : Entry A} (hp : x.2 = some p) : p.name ∈ declaredNames dec dataMaps k := by
  rcases above_placedAll none _ x hx with hnone | ⟨y, hy, habove⟩
  · rw [hp] at hnone
    cases hnone
  · rw [hp] at habove
    cases habove
    exact mem_declaredNames hy

/-- The parent's id is that of the object of the entry above. -/
def Above (dec : Decoder A) (dataMaps : List (Text × Data)) (s₀ s : Nautobot A) (k : Kind)
    (above : Option (Entry A)) (parent : Option Text) : Prop :=
  ¬k.byName → ∀ p, above = some p →
    ∃ u, Made s k p u ∧ Lasting dec dataMaps s₀ u ∧ parent = some u.id

/-- The turn of an entry in its pass. -/
structure Turn (dec : Decoder A) (dataMaps : List (Text × Data)) (env : Env A) (s₀ : Nautobot A)
    (k : Kind) (x : Entry A × Option (Entry A)) (parent : Option Text) (s : Nautobot A)
    (req : Request A) (v : Object A) (mid : Nautobot A) (f : Object A → Object A) : Prop where
  resolvable : Resolvable dec dataMaps s₀
  ids : ∀ k, ∀ x ∈ declared dec dataMaps k, ∀ objects, env.newId objects ≠ x.1.id
  declares : x ∈ declared dec dataMaps k
  inv : Inv dec dataMaps s₀ s
  findable : Findable dec dataMaps s₀ k s
  above : Above dec dataMaps s₀ s k x.2 parent
  request : request env k parent s x.1 = some req
  stored : Stored env k s x.1 req mid v
  reassigns : Reassigns k x.1 v.id mid f

section Turn

variable {x : Entry A × Option (Entry A)} {parent : Option Text} {req : Request A} {v : Object A}
  {mid : Nautobot A} {f : Object A → Object A}

/-- An object that the entry finds by its id is one that it made. -/
theorem Turn.old_name (h : Turn dec dataMaps env s₀ k x parent s req v mid f) {old : Object A}
    (hold : existing env k s x.1 = some old) (hk : k ≠ .ipPrefix) : old.name = x.1.name := by
  obtain ⟨hmem, hkind, ⟨hne, hpermission, hid⟩ | ⟨hname, -⟩⟩ := existing_some hold
  · have hby : ¬k.byName := fun hby => hby.elim hpermission hk
    have hkey : old.key = (k, x.1.id) := by rw [Object.key, hkind, hid]
    obtain ⟨w, hw, -⟩ := h.inv.sound k hby x h.declares hne ⟨old, hmem, hkey⟩
    have heq : w = old :=
      h.inv.keys w hw.mem old hmem (by rw [hkey, Object.key, hw.kind, hw.id hne])
    rw [← heq, hw.name]
  · exact hname

theorem Turn.old_declared (h : Turn dec dataMaps env s₀ k x parent s req v mid f) {old : Object A}
    (hold : existing env k s x.1 = some old) : old.name ∈ declaredNames dec dataMaps k := by
  obtain ⟨hmem, hkind, ⟨hne, -, hid⟩ | ⟨hname, -⟩⟩ := existing_some hold
  · rcases h.inv.source old hmem with hdeclared | ⟨u, hu, hkey, -⟩
    · exact hkind ▸ hdeclared
    · have huid : u.id = old.id := congrArg Prod.snd hkey
      exact (h.resolvable.fresh k x h.declares hne u hu (huid.trans hid)).elim
  · exact hname ▸ mem_declaredNames h.declares

theorem Turn.declaredName (h : Turn dec dataMaps env s₀ k x parent s req v mid f) :
    v.name ∈ declaredNames dec dataMaps k := by
  rcases h.stored.source with ⟨hv, -⟩ | ⟨old, hold, -, -, -, ⟨rfl, -⟩ | hv⟩
  · rw [hv]
    exact mem_declaredNames h.declares
  · exact h.old_declared hold
  · rw [hv]
    simp only [updated]
    split_ifs
    · exact h.old_declared hold
    · exact mem_declaredNames h.declares

/-- An object of another entry is not the one that the entry stores. -/
theorem Turn.key_ne (h : Turn dec dataMaps env s₀ k x parent s req v mid f) {k' : Kind}
    (hk : ¬k'.byName) {y : Entry A × Option (Entry A)} (hy : y ∈ declared dec dataMaps k')
    (hne : ¬(k' = k ∧ y = x)) {w : Object A} (hw : Made s k' y.1 w)
    (hown : y.1.id = [] → ∀ z ∈ declared dec dataMaps k', z.1.id ≠ w.id) : w.key ≠ v.key := by
  intro heq
  have hkind : k' = k := by rw [← hw.kind, ← h.stored.kind]; exact congrArg Prod.fst heq
  have hid : w.id = v.id := congrArg Prod.snd heq
  subst hkind
  rcases h.stored.id_cases (id_request h.request) with
    ⟨hx, hvid⟩ | ⟨-, hvid, -⟩ | ⟨old, -, -, -, hby⟩
  · by_cases hempty : y.1.id = []
    · exact hown hempty x h.declares (hvid.symm.trans hid.symm)
    · have hyx : y.1.id = x.1.id := (hw.id hempty).symm.trans (hid.trans hvid)
      exact hne ⟨rfl, h.resolvable.distinct _ x h.declares y hy hx hyx⟩
  · exact env.newId_fresh s.objects w hw.mem (hid.trans hvid)
  · exact hk hby

theorem Turn.mem_reassign (h : Turn dec dataMaps env s₀ k x parent s req v mid f) {u : Object A} :
    u ∈ (mid.reassign f).objects ↔ (∃ w ∈ s.objects, w.key ≠ v.key ∧ f w = u) ∨ f v = u := by
  simp only [Nautobot.reassign, List.mem_map, h.stored.objects]
  constructor
  · rintro ⟨w, ⟨hw, hkey⟩ | rfl, rfl⟩
    · exact Or.inl ⟨w, hw, hkey, rfl⟩
    · exact Or.inr rfl
  · rintro (⟨w, hw, hkey, rfl⟩ | rfl)
    · exact ⟨w, Or.inl ⟨hw, hkey⟩, rfl⟩
    · exact ⟨v, Or.inr rfl, rfl⟩

theorem Turn.lasting (h : Turn dec dataMaps env s₀ k x parent s req v mid f) {u : Object A}
    (hu : u ∈ s.objects) (hlasting : Lasting dec dataMaps s₀ u) :
    ∃ w ∈ (mid.reassign f).objects, w.key = u.key ∧ w.name = u.name := by
  by_cases hkey : u.key = v.key
  · refine ⟨f v, h.mem_reassign.mpr (Or.inr rfl), (h.reassigns.key v).trans hkey.symm,
      (h.reassigns.name v).trans ?_⟩
    rcases h.stored.source with ⟨-, -, -, hnew, -⟩ | ⟨old, hold, hmem, holdkey, -, hv⟩
    · exact (hnew u hu hkey).elim
    · have heq : old = u := h.inv.keys old hmem u hu (holdkey.trans hkey.symm)
      subst heq
      rcases hv with ⟨rfl, -⟩ | hv
      · rfl
      · rw [hv]
        simp only [updated]
        split_ifs
        · rfl
        · obtain ⟨-, hkind, ⟨hne, -, hid⟩ | ⟨hname, -⟩⟩ := existing_some hold
          · refine (h.old_name hold ?_).symm
            rintro hpre
            rcases hlasting with ⟨hnot, -⟩ | ⟨⟨w, hw, hwid⟩, -⟩
            · exact hnot (hkind.trans hpre)
            · exact h.resolvable.fresh k x h.declares hne w hw (hwid.trans hid)
          · exact hname.symm
  · exact ⟨f u, h.mem_reassign.mpr (Or.inl ⟨u, hu, hkey, rfl⟩), h.reassigns.key u,
      h.reassigns.name u⟩

theorem Turn.name (h : Turn dec dataMaps env s₀ k x parent s req v mid f) (hk : ¬k.byName) :
    v.name = x.1.name := by
  refine h.stored.name fun old hold hkey _ => ?_
  rcases h.stored.source with ⟨-, -, -, hnew, -⟩ | ⟨old', hold', hmem, hkey', -⟩
  · exact (hnew old hold hkey).elim
  · have heq : old' = old := h.inv.keys old' hmem old hold (hkey'.trans hkey.symm)
    exact heq ▸ h.old_name hold' fun hpre => hk (Or.inr hpre)

theorem Turn.id_cases (h : Turn dec dataMaps env s₀ k x parent s req v mid f) (hk : ¬k.byName) :
    (x.1.id ≠ [] ∧ v.id = x.1.id) ∨ (x.1.id = [] ∧ v.id = env.newId s.objects) := by
  rcases h.stored.id_cases (id_request h.request) with hid | ⟨hx, hid, -⟩ | ⟨old, -, -, -, hby⟩
  · exact Or.inl hid
  · exact Or.inr ⟨hx, hid⟩
  · exact (hk hby).elim

/-- A named object is still there after the entry. -/
theorem Turn.target (h : Turn dec dataMaps env s₀ k x parent s req v mid f) {t : Kind} {name : Text}
    {id : Option Text} (ht : t ≠ .ipPrefix)
    (hname : name ∈ declaredNames dec dataMaps t ∨ Available dec dataMaps s₀ t name)
    (hu : ∃ u ∈ s.objects, u.kind = t ∧ u.name = name ∧ id = some u.id) :
    ∃ u ∈ (mid.reassign f).objects, u.kind = t ∧ u.name = name ∧ id = some u.id := by
  obtain ⟨u, hu, rfl, rfl, rfl⟩ := hu
  obtain ⟨w, hw, hkey, hwname⟩ := h.lasting hu (h.inv.lasting hu ht hname)
  exact ⟨w, hw, congrArg Prod.fst hkey, hwname, congrArg some (congrArg Prod.snd hkey).symm⟩

theorem Turn.target_made (h : Turn dec dataMaps env s₀ k x parent s req v mid f) {k' : Kind}
    (hk : ¬k'.byName) {p : Entry A} (hp : p.name ∈ declaredNames dec dataMaps k') {u : Object A}
    (hu : Made s k' p u) : ∃ w, Made (mid.reassign f) k' p w ∧ w.id = u.id := by
  have hlasting : Lasting dec dataMaps s₀ u := by
    refine Or.inl ⟨fun hpre => hk (Or.inr (hu.kind.symm.trans hpre)), ?_⟩
    rw [hu.kind, hu.name]
    exact hp
  obtain ⟨w, hw, hkey, hname⟩ := h.lasting hu.mem hlasting
  have hid : w.id = u.id := congrArg Prod.snd hkey
  exact ⟨w, ⟨hw, (congrArg Prod.fst hkey).trans hu.kind, hname.trans hu.name,
    fun hne => hid.trans (hu.id hne)⟩, hid⟩

theorem Reassigns.kind {e : Entry A} {clusterID : Text} (h : Reassigns k e clusterID s f)
    (u : Object A) : (f u).kind = u.kind := congrArg Prod.fst (h.key u)

theorem Reassigns.id {e : Entry A} {clusterID : Text} (h : Reassigns k e clusterID s f)
    (u : Object A) : (f u).id = u.id := congrArg Prod.snd (h.key u)

/-- The references of an object to its own kind stay. -/
theorem Reassigns.refs_kind {e : Entry A} {clusterID : Text} (h : Reassigns k e clusterID s f)
    (u : Object A) : (f u).refs u.kind = u.refs u.kind := by
  by_cases ht : u.kind = .cluster
  · by_contra hmoved
    rw [ht] at hmoved
    have hdevice := (h.moved u hmoved).2
    rw [ht] at hdevice
    cases hdevice
  · exact h.refs u u.kind ht

theorem Turn.made (h : Turn dec dataMaps env s₀ k x parent s req v mid f) (hk : ¬k.byName) :
    Made (mid.reassign f) k x.1 (f v) where
  mem := h.mem_reassign.mpr (Or.inr rfl)
  kind := (h.reassigns.kind v).trans h.stored.kind
  name := (h.reassigns.name v).trans (h.name hk)
  id := by
    intro hne
    rcases h.id_cases hk with ⟨-, hid⟩ | ⟨hempty, -⟩
    · exact (h.reassigns.id v).trans hid
    · exact (hne hempty).elim

/-- After its turn the entry has its object with its references. -/
theorem Turn.done (h : Turn dec dataMaps env s₀ k x parent s req v mid f) (hk : ¬k.byName) :
    Done dec dataMaps (mid.reassign f) k x := by
  have hid : (f v).id = v.id := h.reassigns.id v
  refine ⟨f v, h.made hk, ?_, fun hchecked => ⟨?_, ?_, ?_⟩⟩
  · intro hempty y hy heq
    rcases h.id_cases hk with ⟨hne, -⟩ | ⟨-, hvid⟩
    · exact hne hempty
    · exact h.ids k y hy s.objects (hvid.symm.trans (hid.symm.trans heq.symm))
  · intro t name href
    have ht : t ≠ .cluster := fun heq => href.lookup (heq ▸ lookup_references_cluster k)
    have hpre : t ≠ .ipPrefix := fun heq => href.lookup (heq ▸ lookup_references_ipPrefix k)
    rw [h.reassigns.refs v t ht]
    refine h.target hpre (h.resolvable.names k x h.declares t name href) ?_
    obtain ⟨u, hu, hukind, huname, -⟩ :=
      h.findable.refs x h.declares t name href (Or.inl hchecked)
    obtain ⟨u, hu, hukind, huname, hreq⟩ :=
      refs_of_refers h.request hchecked href ⟨u, hu, hukind, huname⟩
    by_cases hcompared : compared k t = true
    · exact ⟨u, hu, hukind, huname, h.stored.refs hreq hcompared⟩
    · -- what is not compared was set when the object was created
      rcases h.stored.source with ⟨hv, -⟩ | ⟨old, hold, hmem, hkey, -, ⟨rfl, -⟩ | hv⟩
      · exact ⟨u, hu, hukind, huname, by rw [hv]; exact hreq⟩
      · obtain ⟨-, -, ⟨hne, -, holdid⟩ | ⟨-, hby⟩⟩ := existing_some hold
        · have holdkey : v.key = (k, x.1.id) := by rw [Object.key, h.stored.kind, holdid]
          obtain ⟨w, hw, -, hlinked⟩ := h.inv.sound k hk x h.declares hne ⟨v, hmem, holdkey⟩
          have heq : w = v :=
            h.inv.keys w hw.mem v hmem (by rw [holdkey, Object.key, hw.kind, hw.id hne])
          exact heq ▸ (hlinked hchecked).refs t name href
        · exact (hk (hby.imp id And.left)).elim
      · refine ⟨u, hu, hukind, huname, ?_⟩
        rw [hv]
        simp [updated, hreq]
  · intro p hp
    obtain ⟨u, hu, -, hparent⟩ := h.above hk p hp
    obtain ⟨w, hw, hwid⟩ := h.target_made hk (name_of_above h.declares hp) hu
    refine ⟨w, hw, ?_⟩
    have hreq := h.request
    rw [hparent] at hreq
    have hcompared : compared k k = true := by cases k <;> rfl
    rw [hwid, ← h.stored.refs (parent_of_request hreq) hcompared, ← h.stored.kind]
    exact h.reassigns.refs_kind v
  · intro hcluster name hname
    obtain ⟨d, hd, hdkind, hdname, hrefs⟩ := h.reassigns.listed hcluster name hname
    exact ⟨f d, List.mem_map_of_mem hd, (h.reassigns.kind d).trans hdkind,
      (h.reassigns.name d).trans hdname, hrefs.trans (congrArg some hid.symm)⟩

/-- A device stays in its cluster, but for the cluster whose turn it is. -/
theorem Turn.device (h : Turn dec dataMaps env s₀ k x parent s req v mid f) {d : Object A}
    (hd : d ∈ s.objects) (hkind : d.kind = .device) {clusterID : Text}
    (hrefs : d.refs .cluster = some clusterID)
    (hother : k = .cluster → d.name ∉ x.1.devices ∧ clusterID ≠ v.id) :
    ∃ u ∈ (mid.reassign f).objects, u.kind = .device ∧ u.name = d.name ∧
      u.refs .cluster = some clusterID := by
  by_cases hkey : d.key = v.key
  · have hk : k = .device := by
      rw [← h.stored.kind, ← hkind]
      exact (congrArg Prod.fst hkey).symm
    have hstay : (f v).refs .cluster = v.refs .cluster := by
      by_contra hmoved
      have hcluster := (h.reassigns.moved v hmoved).1
      rw [hk] at hcluster
      cases hcluster
    have hold : v.refs .cluster = d.refs .cluster ∧ d.name = x.1.name := by
      rcases h.stored.source with ⟨-, -, -, hnew, -⟩ | ⟨old, hold, hmem, holdkey, -, hv⟩
      · exact (hnew d hd hkey).elim
      · have heq : old = d := h.inv.keys old hmem d hd (holdkey.trans hkey.symm)
        subst heq
        refine ⟨?_, h.old_name hold (by rw [hk]; decide)⟩
        rcases hv with ⟨rfl, -⟩ | hv
        · rfl
        · rw [hv]
          have hnone : req.refs .cluster = none := by
            rw [refs_request h.request, if_neg (by rw [hk]; decide),
              wanted_of_lookup (lookup_references_cluster k)]
            rfl
          simp [updated, hnone]
    have hby : ¬k.byName := by
      rw [hk]
      rintro (hby | hby) <;> cases hby
    refine ⟨f v, h.mem_reassign.mpr (Or.inr rfl), ?_, ?_, ?_⟩
    · rw [h.reassigns.kind, h.stored.kind, hk]
    · rw [h.reassigns.name, h.name hby, hold.2]
    · rw [hstay, hold.1, hrefs]
  · have hmid : d ∈ mid.objects := (h.stored.objects d).mpr (Or.inl ⟨hd, hkey⟩)
    have hstay : (f d).refs .cluster = d.refs .cluster := by
      by_contra hmoved
      obtain ⟨hname, hid⟩ := hother (h.reassigns.moved d hmoved).1
      rcases h.reassigns.cause d hmid hmoved with hin | hcluster
      · exact hname hin
      · rw [hrefs] at hcluster
        exact hid (Option.some.inj hcluster)
    exact ⟨f d, List.mem_map_of_mem hmid, (h.reassigns.kind d).trans hkind, h.reassigns.name d,
      hstay.trans hrefs⟩

/-- What other entries have done stays done. -/
theorem Turn.keeps (h : Turn dec dataMaps env s₀ k x parent s req v mid f) :
    Keeps dec dataMaps s₀ s (mid.reassign f) := by
  refine ⟨fun u hu hlasting => h.lasting hu hlasting, fun k' hk y hy hdone => ?_⟩
  by_cases hsame : k' = k ∧ y = x
  · obtain ⟨rfl, rfl⟩ := hsame
    exact h.done hk
  obtain ⟨w, hw, hown, hlinked⟩ := hdone
  have hkey : w.key ≠ v.key := h.key_ne hk hy hsame hw hown
  have hid : (f w).id = w.id := h.reassigns.id w
  refine ⟨f w, ⟨h.mem_reassign.mpr (Or.inl ⟨w, hw.mem, hkey, rfl⟩),
    (h.reassigns.kind w).trans hw.kind, (h.reassigns.name w).trans hw.name,
    fun hne => hid.trans (hw.id hne)⟩, fun hempty z hz => hid ▸ hown hempty z hz,
    fun hchecked => ⟨?_, ?_, ?_⟩⟩
  · intro t name href
    have ht : t ≠ .cluster := fun heq => href.lookup (heq ▸ lookup_references_cluster k')
    have hpre : t ≠ .ipPrefix := fun heq => href.lookup (heq ▸ lookup_references_ipPrefix k')
    rw [h.reassigns.refs w t ht]
    exact h.target hpre (h.resolvable.names k' y hy t name href)
      ((hlinked hchecked).refs t name href)
  · intro p hp
    obtain ⟨u, hu, hrefs⟩ := (hlinked hchecked).parent p hp
    obtain ⟨u', hu', huid⟩ := h.target_made hk (name_of_above hy hp) hu
    refine ⟨u', hu', ?_⟩
    rw [huid, ← hrefs, ← hw.kind]
    exact h.reassigns.refs_kind w
  · rintro rfl name hname
    obtain ⟨d, hd, hdkind, rfl, hrefs⟩ := (hlinked hchecked).devices rfl name hname
    rw [hid]
    refine h.device hd hdkind hrefs fun hk' => ⟨fun hin => ?_, fun heq => hkey ?_⟩
    · subst hk'
      exact h.resolvable.clusters y hy x h.declares (fun heq => hsame ⟨rfl, heq.symm⟩) d.name hname
        hin
    · rw [Object.key, Object.key, hw.kind, h.stored.kind, hk', heq]

/-- The invariant holds after the turn. -/
theorem Turn.inv_reassign (h : Turn dec dataMaps env s₀ k x parent s req v mid f) :
    Inv dec dataMaps s₀ (mid.reassign f) where
  keys := by
    intro a ha b hb heq
    obtain ⟨a, hmema, rfl⟩ := List.mem_map.mp ha
    obtain ⟨b, hmemb, rfl⟩ := List.mem_map.mp hb
    rw [h.reassigns.key, h.reassigns.key] at heq
    rw [h.stored.keys h.inv.keys a hmema b hmemb heq]
  source := by
    intro u hu
    rcases h.mem_reassign.mp hu with ⟨w, hw, -, rfl⟩ | rfl
    · rw [h.reassigns.kind, h.reassigns.name, h.reassigns.key, h.reassigns.refs_kind]
      exact h.inv.source w hw
    · rw [h.reassigns.kind, h.reassigns.name, h.stored.kind]
      exact Or.inl h.declaredName
  createdBy := by
    intro u hu hown
    have hbefore := h.inv.createdBy u hu hown
    show u.id ∉ mid.createdBy
    rcases h.stored.createdBy with hsame | ⟨hcreated, hnew⟩
    · rwa [hsame]
    · rw [hcreated, List.mem_cons, not_or]
      refine ⟨fun heq => ?_, hbefore⟩
      obtain ⟨w, hw, hkey, -⟩ := h.inv.alive u hu (Or.inr ⟨⟨u, hu, rfl⟩, hown⟩)
      rcases h.stored.id_cases (id_request h.request) with
        ⟨hne, hid⟩ | ⟨-, hid, -⟩ | ⟨old, hold, holdkey, -⟩
      · exact h.resolvable.fresh k x h.declares hne u hu (heq.trans hid)
      · exact env.newId_fresh s.objects w hw ((congrArg Prod.snd hkey).trans (heq.trans hid))
      · exact hnew old hold holdkey
  alive := by
    intro u hu hlasting
    obtain ⟨w, hw, hkey, hname⟩ := h.inv.alive u hu hlasting
    obtain ⟨w', hw', hkey', hname'⟩ := h.lasting hw (hlasting.congr hkey hname)
    exact ⟨w', hw', hkey'.trans hkey, hname'.trans hname⟩
  sound := by
    rintro k' hk y hy hne ⟨u, hu, hukey⟩
    rcases h.mem_reassign.mp hu with ⟨w, hw, -, rfl⟩ | rfl
    · rw [h.reassigns.key] at hukey
      exact h.keeps.done k' hk y hy (h.inv.sound k' hk y hy hne ⟨w, hw, hukey⟩)
    · rw [h.reassigns.key] at hukey
      have hkind : k = k' := h.stored.kind.symm.trans (congrArg Prod.fst hukey)
      have hvid : v.id = y.1.id := congrArg Prod.snd hukey
      subst hkind
      rcases h.id_cases hk with ⟨hx, hid⟩ | ⟨-, hid⟩
      · have hyx : y = x := h.resolvable.distinct k x h.declares y hy hx (hvid.symm.trans hid)
        exact hyx ▸ h.done hk
      · exact (h.ids k y hy s.objects (hid.symm.trans hvid)).elim

end Turn

end Understack.Nautobotop.Inventory
