import Understack.Nautobotop.ReferenceRuns

/-! The objects of entries that a configuration no longer has. The passes remove them in the order
that suits their creation, and Nautobot refuses to remove what is still referred to. -/
namespace Understack.Nautobotop.Inventory
open PyText Reconcile

variable {A : Type} {dec : Decoder A} {dataMaps : List (Text × Data)} {env : Env A} {k : Kind}
  {s s' : Nautobot A}

def Kind.turn (k : Kind) : ℕ := Kind.order.idxOf k

/-- No object has the key of `v` any more. -/
def Gone (v : Object A) (s : Nautobot A) : Prop := ∀ u ∈ s.objects, u.key ≠ v.key

/-- A range over a map meets the one name before the other. -/
def RangesFirst (env : Env A) (a b : Text) : Prop :=
  ∀ keys, a ∈ keys → ∀ before after, env.ranged keys = before ++ b :: after → a ∈ before

/-- The removal of `u` comes before that of `v`, to which it refers. -/
def RemovedFirst (env : Env A) (u v : Object A) : Prop :=
  u.kind.turn < v.kind.turn ∨
    u.kind = v.kind ∧ (v.kind.isTree ∨ v.kind ≠ .ipPrefix ∧ RangesFirst env u.name v.name)

/-- Objects that no entry stands for or names. -/
structure Doomed (dec : Decoder A) (dataMaps : List (Text × Data)) (D : Object A → Prop) : Prop where
  kind : ∀ v, D v → v.kind ∈ Kind.order ∧ v.kind ≠ .permissionGroup
  id : ∀ v, D v → ∀ x ∈ declared dec dataMaps v.kind, x.1.id ≠ [] → x.1.id ≠ v.id
  name : ∀ v, D v → v.kind ≠ .ipPrefix → v.name ∉ declaredNames dec dataMaps v.kind
  text : ∀ v, D v → v.kind = .ipPrefix → ∀ x ∈ declared dec dataMaps .ipPrefix, x.1.id = [] →
    x.1.name ≠ v.name
  wanted : ∀ v, D v → ∀ k, ∀ x ∈ declared dec dataMaps k, ∀ name required,
    wanted k x.1 v.kind = some (name, required) → name ≠ v.name
  data : ∀ v, D v → dataOf dataMaps v.kind ≠ []

/-- What Nautobot and the ranges over maps decide leaves room for the removal. -/
structure Clears (env : Env A) (D : Object A → Prop) : Prop where
  newId : ∀ v, D v → ∀ objects, env.newId objects ≠ v.id
  first : ∀ u v, D u → D v → u.refs v.kind = some v.id → u.key ≠ v.key → RemovedFirst env u v

/-- Only objects that are to be removed refer to one that is. -/
structure Removing (D : Object A → Prop) (s : Nautobot A) : Prop where
  keys : KeyedTable.Unique Object.key s.objects
  createdBy : ∀ v, D v → v.id ∈ s.createdBy
  name : ∀ v, D v → ∀ u ∈ s.objects, u.key = v.key → u.name = v.name
  alone : ∀ v, D v → v.kind ≠ .ipPrefix → ∀ u ∈ s.objects, u.kind = v.kind → u.name = v.name →
    u.key = v.key
  referrers : ∀ v, D v → ∀ u ∈ s.objects, u.refs v.kind = some v.id → u.key ≠ v.key →
    ∃ w, D w ∧ w.key = u.key ∧ w.refs v.kind = some v.id

/-- What is gone stays so. -/
def StaysGone (D : Object A → Prop) (s s' : Nautobot A) : Prop := ∀ v, D v → Gone v s → Gone v s'

def Cleared (D : Object A → Prop) (t : Kind) (s : Nautobot A) : Prop :=
  ∀ v, D v → v.kind = t → Gone v s

variable {D : Object A → Prop}

theorem Gone.of_subset {v : Object A} (h : Gone v s) (hsub : ∀ u ∈ s'.objects, u ∈ s.objects) :
    Gone v s' := fun u hu => h u (hsub u hu)

theorem Cleared.stays {t : Kind} (h : Cleared D t s) (hstays : StaysGone D s s') :
    Cleared D t s' := fun v hv ht => hstays v hv (h v hv ht)

theorem Removing.of_subset (h : Removing D s) (hsub : ∀ u ∈ s'.objects, u ∈ s.objects)
    (hcreated : s'.createdBy = s.createdBy) : Removing D s' where
  keys := fun a ha b hb => h.keys a (hsub a ha) b (hsub b hb)
  createdBy := fun v hv => hcreated ▸ h.createdBy v hv
  name := fun v hv u hu => h.name v hv u (hsub u hu)
  alone := fun v hv hpre u hu => h.alone v hv hpre u (hsub u hu)
  referrers := fun v hv u hu => h.referrers v hv u (hsub u hu)

/-! One entry. -/

section Turn

variable {e : Entry A} {above : Option (Entry A)} {parent : Option Text} {req : Request A}
  {v : Object A} {mid : Nautobot A}

/-- The entry's object is none of those that are to be removed. -/
theorem Stored.spares (hdoomed : Doomed dec dataMaps D) (hclears : Clears env D)
    (hs : Removing D s) (hx : (e, above) ∈ declared dec dataMaps k)
    (hrequest : request env k parent s e = some req) (h : Stored env k s e req mid v)
    {d : Object A} (hd : D d) : v.key ≠ d.key := by
  intro hkey
  have hkind : k = d.kind := h.kind.symm.trans (congrArg Prod.fst hkey)
  have hid : v.id = d.id := congrArg Prod.snd hkey
  subst hkind
  rcases h.source with ⟨-, hvid, hnone, -⟩ | ⟨old, hold, hmem, holdkey, -⟩
  · rw [id_request hrequest, SyncPass.optionalID] at hvid
    split_ifs at hvid with hempty
    · exact hclears.newId d hd s.objects (hvid.symm.trans hid)
    · exact hdoomed.id d hd _ hx hempty (hvid.symm.trans hid)
  · obtain ⟨-, -, ⟨hne, -, holdid⟩ | ⟨hname, hk | ⟨hk, hempty⟩⟩⟩ := existing_some hold
    · refine hdoomed.id d hd _ hx hne (holdid.symm.trans ?_)
      exact (congrArg Prod.snd holdkey).trans hid
    · exact (hdoomed.kind d hd).2 hk
    · have hx' : (e, above) ∈ declared dec dataMaps .ipPrefix := hk ▸ hx
      refine hdoomed.text d hd hk _ hx' hempty (hname.symm.trans ?_)
      exact hs.name d hd old hmem (holdkey.trans hkey)

/-- The entry's object refers to none of those that are to be removed. -/
theorem Stored.refs_ne (hdoomed : Doomed dec dataMaps D) (hclears : Clears env D)
    (hs : Removing D s) (hx : (e, above) ∈ declared dec dataMaps k)
    (hrequest : request env k parent s e = some req)
    (hparent : ∀ d, D d → d.kind = k → parent ≠ some d.id) (h : Stored env k s e req mid v)
    {d : Object A} (hd : D d) : v.refs d.kind ≠ some d.id := by
  have hspares {d : Object A} (hd : D d) := h.spares hdoomed hclears hs hx hrequest hd
  have hreq : req.refs d.kind ≠ some d.id := by
    intro hrefs
    rw [refs_request hrequest, Option.or_eq_some_iff] at hrefs
    rcases hrefs with hrefs | ⟨-, hrefs⟩
    · split_ifs at hrefs with hk
      exact hparent d hd hk hrefs
    · obtain ⟨⟨name, required⟩, hwanted, hlookup⟩ := Option.bind_eq_some_iff.mp hrefs
      obtain ⟨u, hu, hkind, huname, hid⟩ := lookup_some hlookup
      have hkey : u.key = d.key := by rw [Object.key, Object.key, hkind, hid]
      exact hdoomed.wanted d hd k _ hx name required hwanted
        (huname.symm.trans (hs.name d hd u hu hkey))
  rcases h.source with ⟨hv, -⟩ | ⟨old, -, hmem, hkey, -, hv⟩
  · rw [hv]
    exact hreq
  · have hold : old.refs d.kind ≠ some d.id := by
      intro hrefs
      obtain ⟨w, hw, hwkey, -⟩ := hs.referrers d hd old hmem hrefs fun heq =>
        hspares hd (hkey.symm.trans heq)
      exact hspares hw (hkey.symm.trans hwkey.symm)
    rcases hv with ⟨rfl, -⟩ | hv
    · exact hold
    · rw [hv]
      simp only [updated, ne_eq, Option.or_eq_some_iff, not_or, not_and]
      exact ⟨hreq, fun _ => hold⟩

theorem Stored.removing (hdoomed : Doomed dec dataMaps D) (hclears : Clears env D)
    (hs : Removing D s) (hx : (e, above) ∈ declared dec dataMaps k)
    (hrequest : request env k parent s e = some req)
    (hparent : ∀ d, D d → d.kind = k → parent ≠ some d.id) (h : Stored env k s e req mid v) :
    Removing D mid where
  keys := h.keys hs.keys
  createdBy := by
    intro d hd
    rcases h.createdBy with hsame | ⟨hcreated, -⟩
    · rw [hsame]
      exact hs.createdBy d hd
    · rw [hcreated]
      exact List.mem_cons_of_mem _ (hs.createdBy d hd)
  name := by
    intro d hd u hu hkey
    rcases (h.objects u).mp hu with ⟨hu, -⟩ | rfl
    · exact hs.name d hd u hu hkey
    · exact (h.spares hdoomed hclears hs hx hrequest hd hkey).elim
  alone := by
    intro d hd hpre u hu hkind hname
    rcases (h.objects u).mp hu with ⟨hu, -⟩ | rfl
    · exact hs.alone d hd hpre u hu hkind hname
    · have hentry : e.name ≠ d.name := by
        intro heq
        refine hdoomed.name d hd hpre ?_
        rw [← heq, ← hkind, h.kind]
        exact mem_declaredNames hx
      have hother {old : Object A} (hmem : old ∈ s.objects) (hkey : old.key = u.key) :
          old.name ≠ d.name := fun heq =>
        h.spares hdoomed hclears hs hx hrequest hd (hkey.symm.trans
          (hs.alone d hd hpre old hmem ((congrArg Prod.fst hkey).trans hkind) heq))
      rcases h.source with ⟨hv, -⟩ | ⟨old, -, hmem, hkey, -, ⟨rfl, -⟩ | hv⟩
      · rw [hv] at hname
        exact (hentry hname).elim
      · exact (hother hmem rfl hname).elim
      · have hcases : u.name = old.name ∨ u.name = e.name := by
          rw [hv]
          simp only [updated]
          split_ifs
          · exact Or.inl rfl
          · exact Or.inr rfl
        rcases hcases with hsame | hsame
        · exact (hother hmem hkey (hsame.symm.trans hname)).elim
        · exact (hentry (hsame.symm.trans hname)).elim
  referrers := by
    intro d hd u hu hrefs hkey
    rcases (h.objects u).mp hu with ⟨hu, -⟩ | rfl
    · exact hs.referrers d hd u hu hrefs hkey
    · exact (h.refs_ne hdoomed hclears hs hx hrequest hparent hd hrefs).elim

theorem Stored.staysGone (hdoomed : Doomed dec dataMaps D) (hclears : Clears env D)
    (hs : Removing D s) (hx : (e, above) ∈ declared dec dataMaps k)
    (hrequest : request env k parent s e = some req) (h : Stored env k s e req mid v) :
    StaysGone D s mid := by
  intro d hd hgone u hu
  rcases (h.objects u).mp hu with ⟨hu, -⟩ | rfl
  · exact hgone u hu
  · exact h.spares hdoomed hclears hs hx hrequest hd

end Turn

theorem key_reassigned (clusterID : Text) (assigned unassigned : List Text) (u : Object A) :
    (reassigned clusterID assigned unassigned u).key = u.key := by
  unfold reassigned
  split_ifs <;> rfl

theorem name_reassigned (clusterID : Text) (assigned unassigned : List Text) (u : Object A) :
    (reassigned clusterID assigned unassigned u).name = u.name := by
  unfold reassigned
  split_ifs <;> rfl

/-- A device gets the cluster or none, all other references stay. -/
theorem refs_reassigned {clusterID : Text} {assigned unassigned : List Text} {u : Object A}
    {t : Kind} {id : Text} (h : (reassigned clusterID assigned unassigned u).refs t = some id) :
    u.refs t = some id ∨ t = .cluster ∧ id = clusterID := by
  unfold reassigned at h
  by_cases ht : t = .cluster
  · subst ht
    split_ifs at h
    · simp at h
    · simp only [Function.update_self, Option.some.injEq] at h
      exact Or.inr ⟨rfl, h.symm⟩
    · exact Or.inl h
  · split_ifs at h
    · exact Or.inl (by simpa [ht] using h)
    · exact Or.inl (by simpa [ht] using h)
    · exact Or.inl h

theorem removing_syncClusterDevices (env : Env A) {clusterID : Text} (names : List Text)
    (hs : Removing D s) (hcluster : ∀ d, D d → d.key ≠ (.cluster, clusterID)) :
    Removing D (syncClusterDevices env clusterID names s) ∧
      StaysGone D s (syncClusterDevices env clusterID names s) := by
  obtain ⟨assigned, unassigned, hsync, -⟩ := syncClusterDevices_spec env clusterID names s
  rw [hsync]
  have hmem {u : Object A} (hu : u ∈ s.objects.map (reassigned clusterID assigned unassigned)) :
      ∃ w ∈ s.objects, w.key = u.key ∧ w.name = u.name ∧ ∀ d, D d →
        u.refs d.kind = some d.id → w.refs d.kind = some d.id := by
    obtain ⟨w, hw, rfl⟩ := List.mem_map.mp hu
    refine ⟨w, hw, (key_reassigned clusterID assigned unassigned w).symm,
      (name_reassigned clusterID assigned unassigned w).symm, fun d hd hrefs => ?_⟩
    rcases refs_reassigned hrefs with hrefs | ⟨hkind, hid⟩
    · exact hrefs
    · exact (hcluster d hd (by rw [Object.key, hkind, hid])).elim
  refine ⟨⟨?_, hs.createdBy, ?_, ?_, ?_⟩, ?_⟩
  · intro a ha b hb heq
    obtain ⟨a, hmema, rfl⟩ := List.mem_map.mp ha
    obtain ⟨b, hmemb, rfl⟩ := List.mem_map.mp hb
    rw [key_reassigned, key_reassigned] at heq
    rw [hs.keys a hmema b hmemb heq]
  · intro d hd u hu hkey
    obtain ⟨w, hw, hwkey, hname, -⟩ := hmem hu
    exact hname.symm.trans (hs.name d hd w hw (hwkey.trans hkey))
  · intro d hd hpre u hu hkind hname
    obtain ⟨w, hw, hwkey, hwname, -⟩ := hmem hu
    exact hwkey.symm.trans (hs.alone d hd hpre w hw
      ((congrArg Prod.fst hwkey).trans hkind) (hwname.trans hname))
  · intro d hd u hu hrefs hkey
    obtain ⟨w, hw, hwkey, -, hwrefs⟩ := hmem hu
    rw [← hwkey] at hkey ⊢
    exact hs.referrers d hd w hw (hwrefs d hd hrefs) hkey
  · intro d _ hgone u hu
    obtain ⟨w, hw, hwkey, -⟩ := hmem hu
    exact hwkey ▸ hgone w hw

/-- The entries of a pass neither bring back what is gone nor refer to what is to be removed. -/
theorem walks_removing (hdoomed : Doomed dec dataMaps D) (hclears : Clears env D) (k : Kind) :
    Walks env k (Removing D) (StaysGone D)
      (fun _ _ parent => ∀ d, D d → d.kind = k → parent ≠ some d.id) (fun _ _ => True)
      (fun id => ∀ d, D d → d.key ≠ (k, id)) True (declared dec dataMaps k) where
  refl := fun _ _ _ hgone => hgone
  trans := fun _ _ _ h h' d hd hgone => h' d hd (h d hd hgone)
  below := fun _ _ _ _ _ h => h
  done := fun _ _ _ _ _ => trivial
  single := by
    rintro s ⟨e, above⟩ hx parent hs hparent
    rcases syncSingle_cases env e parent hs.keys (fun hk => permission_without_id hk hx) with
      ⟨-, hsync⟩ | ⟨req, v, mid, hrequest, hstored, hid, hsync⟩
    · rw [hsync]
      exact ⟨hs, fun _ _ hgone => hgone, fun _ => trivial, fun id hsome => by cases hsome⟩
    · have hmid := hstored.removing hdoomed hclears hs hx hrequest hparent
      have hstays := hstored.staysGone hdoomed hclears hs hx hrequest
      have hspares : ∀ d, D d → d.key ≠ (k, v.id) := by
        intro d hd heq
        refine hstored.spares hdoomed hclears hs hx hrequest hd ?_
        rw [heq, Object.key, hstored.kind]
      have hrest : Removing D (syncSingle env k parent s e).2 ∧
          StaysGone D s (syncSingle env k parent s e).2 := by
        rcases hsync with ⟨-, hsync⟩ | ⟨rfl, hsync⟩
        · rw [hsync]
          exact ⟨hmid, hstays⟩
        · rw [hsync]
          obtain ⟨hremoving, hstays'⟩ := removing_syncClusterDevices env e.devices hmid hspares
          exact ⟨hremoving, fun d hd hgone => hstays' d hd (hstays d hd hgone)⟩
      refine ⟨hrest.1, hrest.2, fun _ => trivial, fun id hsome => ?_⟩
      rw [hid] at hsome
      cases hsome
      refine ⟨fun d hd hkind heq => hspares d hd ?_, trivial, hspares⟩
      rw [Object.key, hkind, Option.some.inj heq]

/-! The removal at the end of a pass. -/

theorem removing_foldl_destroy (hs : Removing D s) (ids : List Text) :
    Removing D (ids.foldl (destroy k) s) :=
  hs.of_subset (fun _ hu => mem_of_foldl_destroy hu) (createdBy_foldl_destroy ids s)

/-- An object of the ids is gone if all that refer to it stand before it. -/
theorem gone_foldl_destroy (hs : Removing D s) {ids : List Text}
    (hfirst : ∀ v, D v → v.kind = k → ∀ u ∈ s.objects, u.refs k = some v.id → u.key ≠ v.key →
      ∃ w, D w ∧ w.key = u.key ∧ w.kind = k ∧
        ∀ before after, ids = before ++ v.id :: after → w.id ∈ before)
    {v : Object A} (hv : D v) (hkind : v.kind = k) (hid : v.id ∈ ids) :
    Gone v (ids.foldl (destroy k) s) := by
  induction ids using List.reverseRecOn generalizing v with
  | nil => cases hid
  | append_singleton before id ih =>
    have hbefore {v : Object A} (hv : D v) (hkind : v.kind = k) (hid : v.id ∈ before) :
        Gone v (before.foldl (destroy k) s) := by
      refine ih (fun v hv hkind u hu hrefs hkey => ?_) hv hkind hid
      obtain ⟨w, hw, hwkey, hwkind, hsplit⟩ := hfirst v hv hkind u hu hrefs hkey
      exact ⟨w, hw, hwkey, hwkind, fun p q hpq => hsplit p (q ++ [id]) (by rw [hpq]; simp)⟩
    rw [List.foldl_append, List.foldl_cons, List.foldl_nil]
    intro u hu hkey
    obtain ⟨hmem, hrefused⟩ := mem_destroy.mp hu
    rcases List.mem_append.mp hid with hid | hid
    · exact hbefore hv hkind hid u hmem hkey
    · -- nothing refers to the object any more
      have hvid : v.id = id := List.mem_singleton.mp hid
      have hkeys : v.key = (k, id) := by rw [Object.key, hkind, hvid]
      refine hrefused (hkey.trans hkeys) ⟨?_, ?_⟩
      · rw [createdBy_foldl_destroy, ← hvid]
        exact hs.createdBy v hv
      · rw [Nautobot.referenced, List.any_eq_false]
        intro u' hu' hrefers
        obtain ⟨hrefs, hne⟩ := of_decide_eq_true hrefers
        rw [← hvid] at hrefs
        rw [← hkeys] at hne
        obtain ⟨w, hw, hwkey, hwkind, hsplit⟩ :=
          hfirst v hv hkind u' (mem_of_foldl_destroy hu') hrefs hne
        exact hbefore hw hwkind (hsplit before [] (by rw [hvid])) u' hu' hwkey.symm

/-- The objects that the removal by names takes, by their names. -/
abbrev obsoleteOf (env : Env A) (k : Kind) (names : List Text) (s : Nautobot A) : Obsolete A :=
  SyncById.obsolete resource (env.listing (s.objects.filter fun v => v.kind = k)) names

section Names

variable {names : List Text}

/-- What is to be removed is obsolete. -/
theorem lookup_obsolete (hs : Removing D s) {v : Object A} (hv : D v) (hkind : v.kind = k)
    (hpre : k ≠ .ipPrefix) (hname : v.name ∉ names) {u : Object A} (hu : u ∈ s.objects)
    (hkey : u.key = v.key) : (obsoleteOf env k names s).lookup v.name = some u := by
  refine PyDict.lookup_of_mem SyncById.nodup_keys_obsolete
    (SyncById.mem_obsolete.mpr ⟨?_, hname⟩)
  have hmem : ∀ w, w ∈ (env.listing (s.objects.filter fun v => v.kind = k)).reverse ↔
      w ∈ s.objects ∧ w.kind = k := by
    intro w
    rw [List.mem_reverse, (env.listing_perm _).mem_iff, List.mem_filter, decide_eq_true_eq]
  have hone : ∀ w ∈ (env.listing (s.objects.filter fun v => v.kind = k)).reverse,
      w.name = v.name → w = u := by
    intro w hw hwname
    obtain ⟨hw, hwkind⟩ := (hmem w).mp hw
    have hwkey := hs.alone v hv (hkind ▸ hpre) w hw (hwkind.trans hkind.symm) hwname
    exact hs.keys w hw u hu (hwkey.trans hkey.symm)
  apply Excerpts.find?_eq_some_of_one
  · intro w hw w' hw' hwn hwn'
    rw [hone w hw (of_decide_eq_true hwn), hone w' hw' (of_decide_eq_true hwn')]
  · exact (hmem u).mpr ⟨hu, (congrArg Prod.fst hkey).trans hkind⟩
  · exact decide_eq_true (hs.name v hv u hu hkey)

/-- In a tree a child is a child by its name. -/
theorem mem_childrenMap (hs : Removing D s) {v w : Object A} (hv : D v) (hw : D w)
    (hvkind : v.kind = k) (hwkind : w.kind = k) (hpre : k ≠ .ipPrefix) (hvname : v.name ∉ names)
    (hwname : w.name ∉ names) {u x : Object A} (hu : u ∈ s.objects) (hukey : u.key = w.key)
    (hx : x ∈ s.objects) (hxkey : x.key = v.key) (hrefs : u.refs k = some v.id) :
    w.name ∈ childrenMap env k (obsoleteOf env k names s) v.name := by
  have hlookup : (obsoleteOf env k names s).lookup w.name = some u :=
    lookup_obsolete hs hw hwkind hpre hwname hu hukey
  have hkeys : w.name ∈ env.ranged ((obsoleteOf env k names s).map Prod.fst) :=
    (env.ranged_perm _).mem_iff.mpr (mem_keys_iff.mpr ⟨u, hlookup⟩)
  refine List.mem_filter.mpr ⟨hkeys, decide_eq_true ?_⟩
  have hin : (v.name, x) ∈ obsoleteOf env k names s :=
    PyDict.mem_of_lookup (lookup_obsolete hs hv hvkind hpre hvname hx hxkey)
  obtain ⟨⟨n, y⟩, hfind⟩ : ∃ p, (obsoleteOf env k names s).find? (fun p => p.2.id = v.id) =
      some p := by
    rw [← Option.isSome_iff_exists, List.find?_isSome]
    exact ⟨_, hin, decide_eq_true (congrArg Prod.snd hxkey)⟩
  have hyid : y.id = v.id := by simpa using List.find?_some hfind
  obtain ⟨hy, hykind, hyname, -⟩ := mem_obsolete
    (PyDict.lookup_of_mem SyncById.nodup_keys_obsolete (List.mem_of_find?_eq_some hfind))
  have hykey : y.key = v.key := by rw [Object.key, Object.key, hykind, hvkind, hyid]
  have hn : n = v.name := hyname.symm.trans (hs.name v hv y hy hykey)
  rw [hlookup, Option.bind_some, hrefs, Option.bind_some, idToName, hfind, Option.map_some, hn]

theorem mem_removalOrder {obsolete : Obsolete A} {order : List Text}
    (h : removalOrder env k obsolete = some order) {name : Text}
    (hname : name ∈ obsolete.map Prod.fst) : name ∈ order := by
  have hkeys : name ∈ env.ranged (obsolete.map Prod.fst) :=
    (env.ranged_perm _).mem_iff.mpr hname
  unfold removalOrder at h
  dsimp only at h
  split_ifs at h
  · obtain ⟨done, hdone, rfl⟩ := Option.map_eq_some_iff.mp h
    obtain ⟨-, hall, -⟩ := PostOrder.visitAll_spec (S := fun _ => True) (fun _ _ _ _ => trivial)
      (fun _ _ => trivial) hdone
    exact List.mem_reverse.mpr (hall name hkeys)
  · cases h
    exact hkeys

/-- The names come in an order in which what refers to an object comes before it. -/
theorem before_removalOrder (hs : Removing D s) {v w : Object A} (hv : D v) (hw : D w)
    (hvkind : v.kind = k) (hwkind : w.kind = k) (hpre : k ≠ .ipPrefix) (hvname : v.name ∉ names)
    (hwname : w.name ∉ names) {u x : Object A} (hu : u ∈ s.objects) (hukey : u.key = w.key)
    (hx : x ∈ s.objects) (hxkey : x.key = v.key) (hrefs : u.refs k = some v.id)
    (hranges : k.isTree = true ∨ RangesFirst env w.name v.name) {order : List Text}
    (horder : removalOrder env k (obsoleteOf env k names s) = some order)
    {before after : List Text} (hsplit : order = before ++ v.name :: after) :
    w.name ∈ before := by
  unfold removalOrder at horder
  dsimp only at horder
  split_ifs at horder with htree
  · obtain ⟨done, hdone, rfl⟩ := Option.map_eq_some_iff.mp horder
    obtain ⟨hfirst, -, -⟩ := PostOrder.visitAll_spec (S := fun _ => True) (fun _ _ _ _ => trivial)
      (fun _ _ => trivial) hdone
    have hdoneEq : done = after.reverse ++ v.name :: before.reverse := by
      rw [← List.reverse_reverse done, hsplit]
      simp
    rw [hdoneEq] at hfirst
    exact List.mem_reverse.mp (hfirst.before w.name
      (mem_childrenMap hs hv hw hvkind hwkind hpre hvname hwname hu hukey hx hxkey hrefs))
  · cases horder
    refine hranges.resolve_left htree _ (mem_keys_iff.mpr ⟨u, ?_⟩) before after hsplit
    exact lookup_obsolete hs hw hwkind hpre hwname hu hukey

end Names

/-- After the removal nothing of its kind is left, if what was synced earlier is gone. -/
theorem cleared_deleteObsolete (hdoomed : Doomed dec dataMaps D) (hclears : Clears env D)
    (hs : Removing D s) (hearlier : ∀ t : Kind, t.turn < k.turn → Cleared D t s)
    {synced : List Text} (hsynced : ∀ id ∈ synced, ∀ d, D d → d.key ≠ (k, id))
    (h : deleteObsolete env k (declaredNames dec dataMaps k) synced s = some s') :
    Cleared D k s' := by
  intro v hv hkind
  by_cases hgone : Gone v s
  · obtain ⟨ids, rfl, -⟩ := deleteObsolete_removes h
    exact hgone.of_subset fun u hu => mem_of_foldl_destroy hu
  obtain ⟨x, hx, hxkey⟩ : ∃ x ∈ s.objects, x.key = v.key := by simpa [Gone] using hgone
  -- what refers to an object and is still there is of its kind
  have hsame : ∀ v, D v → v.kind = k → ∀ u ∈ s.objects, u.refs k = some v.id → u.key ≠ v.key →
      ∃ w, D w ∧ w.key = u.key ∧ w.kind = k ∧ (k.isTree = true ∨ k ≠ .ipPrefix ∧
        RangesFirst env w.name v.name) := by
    intro v hv hkind u hu hrefs hne
    subst hkind
    obtain ⟨w, hw, hwkey, hwrefs⟩ := hs.referrers v hv u hu hrefs hne
    rcases hclears.first w v hw hv hwrefs (hwkey ▸ hne) with hlt | ⟨hwkind, hranges⟩
    · exact (hearlier w.kind hlt w hw rfl u hu hwkey.symm).elim
    · exact ⟨w, hw, hwkey, hwkind, hranges⟩
  unfold deleteObsolete at h
  dsimp only at h
  split_ifs at h with hpermission hpre
  · exact ((hdoomed.kind v hv).2 (hkind.trans hpermission)).elim
  · cases h
    refine gone_foldl_destroy hs ?_ hv hkind ?_
    · intro v hv hkind u hu hrefs hne
      obtain ⟨w, -, -, -, htree | ⟨hnot, -⟩⟩ := hsame v hv hkind u hu hrefs hne
      · rw [hpre] at htree
        cases htree
      · exact (hnot hpre).elim
    · refine List.mem_filter.mpr ⟨List.mem_map.mpr ⟨x, ?_, congrArg Prod.snd hxkey⟩, ?_⟩
      · rw [(env.listing_perm _).mem_iff, List.mem_filter, decide_eq_true_eq]
        exact ⟨hx, (congrArg Prod.fst hxkey).trans hkind⟩
      · exact decide_eq_true fun hin => hsynced v.id hin v hv (by rw [Object.key, hkind])
  · obtain ⟨order, horder, rfl⟩ := Option.map_eq_some_iff.mp h
    have hname {v : Object A} (hv : D v) (hkind : v.kind = k) :
        v.name ∉ declaredNames dec dataMaps k := by
      subst hkind
      exact hdoomed.name v hv hpre
    have hlookup {v u : Object A} (hv : D v) (hkind : v.kind = k) (hu : u ∈ s.objects)
        (hkey : u.key = v.key) :
        (obsoleteOf env k (declaredNames dec dataMaps k) s).lookup v.name = some u :=
      lookup_obsolete hs hv hkind hpre (hname hv hkind) hu hkey
    refine gone_foldl_destroy hs ?_ hv hkind ?_
    · intro v hv hkind u hu hrefs hne
      obtain ⟨w, hw, hwkey, hwkind, hranges⟩ := hsame v hv hkind u hu hrefs hne
      refine ⟨w, hw, hwkey, hwkind, fun before after hsplit => ?_⟩
      obtain ⟨l₁, l₂, rfl, rfl, hl₂⟩ := List.filterMap_eq_append_iff.mp hsplit
      obtain ⟨m₁, name, m₂, rfl, hnone, hfound, -⟩ := List.filterMap_eq_cons_iff.mp hl₂
      obtain ⟨y, hy, hyid⟩ := Option.map_eq_some_iff.mp hfound
      obtain ⟨hymem, hykind, hyname, -⟩ := mem_obsolete hy
      have hykey : y.key = v.key := by rw [Object.key, Object.key, hykind, hkind, hyid]
      have hnameEq : name = v.name := hyname.symm.trans (hs.name v hv y hymem hykey)
      subst hnameEq
      have hcut : l₁ ++ (m₁ ++ v.name :: m₂) = (l₁ ++ m₁) ++ v.name :: m₂ := by simp
      have hbefore := before_removalOrder hs hv hw hkind hwkind hpre (hname hv hkind)
        (hname hw hwkind) hu hwkey.symm hymem hykey hrefs (hranges.imp id And.right) horder hcut
      have hwid : ((obsoleteOf env k (declaredNames dec dataMaps k) s).lookup w.name).map
          Object.id = some w.id := by
        rw [hlookup hw hwkind hu hwkey.symm, Option.map_some]
        exact congrArg (fun key : Kind × Text => some key.2) hwkey.symm
      rcases List.mem_append.mp hbefore with hin | hin
      · exact List.mem_filterMap.mpr ⟨w.name, hin, hwid⟩
      · rw [hnone w.name hin] at hwid
        cases hwid
    · have hin := hlookup hv hkind hx hxkey
      refine List.mem_filterMap.mpr
        ⟨v.name, mem_removalOrder horder (mem_keys_iff.mpr ⟨x, hin⟩), ?_⟩
      rw [hin, Option.map_some]
      exact congrArg (fun key : Kind × Text => some key.2) hxkey

end Understack.Nautobotop.Inventory
