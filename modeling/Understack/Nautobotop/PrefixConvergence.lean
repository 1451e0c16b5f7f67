import Mathlib.Data.List.Pairwise
import Understack.Nautobotop.PrefixSync

/-! When two passes of `PrefixSync.SyncAll` over one list settle: the first leaves a prefix for every
entry, and the second writes nothing. -/
namespace Understack.Nautobotop.PrefixSync
open PyText CachedService CompareJson SyncPass

variable {F : Type} [DecidableEq F]

/-- The prefix has the entry's text and is in the namespace that the entry names, if it names
one. -/
def Describes (refs : References) (e : Prefix F) (v : NbPrefix F) : Prop :=
  v.prefixText = e.prefixText ∧
    (e.namespaceName ≠ [] → refs.namespaces e.namespaceName = some v.namespaceId)

/-- After a pass there is a prefix of its own for every entry, no other of the operator's user, none
that the pass created, updated or matched is gone, and a second pass writes nothing. -/
structure Converges (api : Api (prefixes (F := F))) (refs : References) (parse : DateParser)
    (w : World (NbPrefix F)) (desired : List (Prefix F)) : Prop where
  matched : ∃ matched : List (NbPrefix F), List.Forall₂ (Describes refs) desired matched ∧
    (matched.map NbPrefix.id).Nodup ∧
    (∀ v ∈ matched, v ∈ (syncAll api refs parse w desired).2.objects) ∧
    ∀ v ∈ (syncAll api refs parse w desired).2.objects,
      v ∈ matched ∨ v.id ∉ (syncAll api refs parse w desired).2.createdBy
  kept : ∃ ids, (syncAll api refs parse w desired).1 = .ok ids ∧
    ∀ id ∈ ids, id ∈ (syncAll api refs parse w desired).2.objects.map NbPrefix.id
  still : (syncAll api refs parse (syncAll api refs parse w desired).2 desired).2.writes =
    (syncAll api refs parse w desired).2.writes

/-- Which prefix a lookup by text finds is not left to chance: ids are distinct; an entry without an
id comes after no entry of its text and before none whose id is that of a stored prefix of that
text; and where it names no namespace, no other entry and at most one stored prefix has its text.
Nautobot stores what it is asked to. -/
structure Unambiguous (api : Api (prefixes (F := F)))
    (request : Prefix F → WritablePrefixRequest F) (objects : List (NbPrefix F))
    (desired : List (Prefix F)) : Prop where
  ids : desired.Pairwise fun a b => a.id ≠ [] → a.id ≠ b.id
  created : ∀ e ∈ desired, ∀ i, (e.id ≠ [] → i = e.id) →
    comparePrefix (api.created i (request e)) (request e) = true
  updated : ∀ e ∈ desired, ∀ v, (e.id ≠ [] → v.id = e.id) →
    comparePrefix (api.updated v (request e)) (request e) = true
  text : ∀ e ∈ desired, api.normalize e.prefixText = e.prefixText
  alone : desired.Pairwise fun a b => b.id = [] → a.prefixText ≠ b.prefixText
  free : desired.Pairwise fun a b => a.id = [] → ∀ v ∈ objects, v.id = b.id →
    v.prefixText ≠ a.prefixText
  unnamed : desired.Pairwise fun a b => a.id = [] → a.namespaceName = [] →
    a.prefixText ≠ b.prefixText
  single : ∀ e ∈ desired, e.id = [] → e.namespaceName = [] → ∀ u ∈ objects, ∀ v ∈ objects,
    u.prefixText = e.prefixText → v.prefixText = e.prefixText → u = v

variable {api : Api (prefixes (F := F))} {request : Prefix F → WritablePrefixRequest F}

/-- The prefix is that of the entry. -/
def Fits (request : Prefix F → WritablePrefixRequest F) (e : Prefix F) (v : NbPrefix F) : Prop :=
  (e.id ≠ [] → v.id = e.id) ∧ comparePrefix v (request e) = true

/-- What the loop has done: the entries so far with their prefixes, over the objects at the
start. -/
structure Progress (request : Prefix F → WritablePrefixRequest F) (start : List (NbPrefix F))
    (pairs : List (Prefix F × NbPrefix F)) (objects : List (NbPrefix F)) : Prop where
  fits : ∀ p ∈ pairs, Fits request p.1 p.2
  distinct : (pairs.map fun p => p.2.id).Nodup
  present : ∀ p ∈ pairs, p.2 ∈ objects
  others : ∀ v, v.id ∉ pairs.map (fun p => p.2.id) → (v ∈ objects ↔ v ∈ start)
  sole : ∀ p ∈ pairs, p.1.id = [] → p.1.namespaceName = [] → ∀ u ∈ start,
    u.prefixText = p.1.prefixText → u.id ∈ pairs.map fun p => p.2.id

/-- The id that an entry without an id gets is new, or that of a stored prefix of its text. -/
def Adopted (api : Api (prefixes (F := F))) (start objects : List (NbPrefix F)) (e : Prefix F)
    (id : Text) : Prop :=
  id = api.newId objects ∨ ∃ u ∈ start, u.id = id ∧ u.prefixText = e.prefixText

theorem Turn.id_eq {w w' : World (NbPrefix F)} {e : Prefix F} {id : Text}
    (h : Turn api request w e id w') (hid : e.id ≠ [])
    (hrequest : (request e).id = optionalID e.id) : id = e.id := by
  obtain ⟨existing, hfound, happlied⟩ := h
  have hexisting := hfound.byID hid
  cases existing with
  | none =>
    have hrequestId : prefixes.requestId (request e) = some e.id := hrequest.trans (if_neg hid)
    rw [happlied.id_of_none.1, hrequestId, Option.getD_some]
  | some v =>
    have hv : v.id = e.id := by simpa using List.find?_some hexisting.symm
    exact happlied.id_of_some.trans hv

/-- What a lookup by text finds is a prefix of the start that no entry has taken. -/
theorem Progress.untaken {start objects : List (NbPrefix F)} {pairs : List (Prefix F × NbPrefix F)}
    (hp : Progress request start pairs objects) (hids : (objects.map NbPrefix.id).Nodup)
    (htext : ∀ p ∈ pairs, (request p.1).prefixText = p.1.prefixText) {v : NbPrefix F}
    (hv : v ∈ objects) (halone : ∀ p ∈ pairs, p.1.prefixText ≠ v.prefixText) :
    v.id ∉ pairs.map fun p => p.2.id := by
  intro hmem
  obtain ⟨p, hpair, hid⟩ := List.mem_map.mp hmem
  have heq : p.2 = v :=
    Excerpts.unique_of_nodup hids p.2 (hp.present p hpair) v hv hid
  have hcompare := text_of_comparePrefix (hp.fits p hpair).2
  rw [heq, htext p hpair] at hcompare
  exact halone p hpair hcompare.symm

/-- What the condition says of one entry when the loop comes to it. -/
structure Ready (api : Api (prefixes (F := F))) (request : Prefix F → WritablePrefixRequest F)
    (start : List (NbPrefix F)) (pairs : List (Prefix F × NbPrefix F)) (e : Prefix F) : Prop where
  requestId : (request e).id = optionalID e.id
  created : ∀ i, (e.id ≠ [] → i = e.id) →
    comparePrefix (api.created i (request e)) (request e) = true
  updated : ∀ v, (e.id ≠ [] → v.id = e.id) →
    comparePrefix (api.updated v (request e)) (request e) = true
  text : api.normalize e.prefixText = e.prefixText
  alone : e.id = [] → ∀ p ∈ pairs, p.1.prefixText ≠ e.prefixText
  fresh : e.id ≠ [] → e.id ∉ pairs.map fun p => p.2.id
  single : e.id = [] → e.namespaceName = [] → ∀ u ∈ start, ∀ v ∈ start,
    u.prefixText = e.prefixText → v.prefixText = e.prefixText → u = v

/-- An entry without an id finds a prefix of the start that none has taken, or none. -/
theorem Ready.found_by_text {start : List (NbPrefix F)} {pairs : List (Prefix F × NbPrefix F)}
    {e : Prefix F} (h : Ready api request start pairs e) {w : World (NbPrefix F)}
    (hw : Consistent prefixes w) (hp : Progress request start pairs w.objects)
    (htext : ∀ p ∈ pairs, (request p.1).prefixText = p.1.prefixText) (hid : e.id = [])
    {existing : Option (NbPrefix F)} (hfound : Found api w.objects e existing) :
    (∀ u, existing = some u → u ∈ w.objects ∧ u ∈ start ∧ u.prefixText = e.prefixText ∧
      u.id ∉ pairs.map fun p => p.2.id) ∧
    (existing = none → ∀ u ∈ w.objects, u.prefixText ≠ e.prefixText) := by
  constructor
  · intro u hu
    obtain ⟨hmem, hname⟩ := hfound.byText hid u hu
    have hsame : u.prefixText = e.prefixText := by
      rcases hname with hname | hname
      · exact hname
      · exact hname.trans h.text
    have huntaken := hp.untaken hw.ids htext hmem (hsame ▸ h.alone hid)
    exact ⟨hmem, (hp.others u huntaken).mp hmem, hsame, huntaken⟩
  · intro hnone u hu heq
    exact hfound.missing hid hnone u hu (heq.trans h.text.symm)

theorem Ready.untaken {start : List (NbPrefix F)} {pairs : List (Prefix F × NbPrefix F)}
    {e : Prefix F} (h : Ready api request start pairs e) {w w' : World (NbPrefix F)} {id : Text}
    (hw : Consistent prefixes w) (hp : Progress request start pairs w.objects)
    (htext : ∀ p ∈ pairs, (request p.1).prefixText = p.1.prefixText)
    (hturn : Turn api request w e id w') :
    id ∉ (pairs.map fun p => p.2.id) ∧ (e.id = [] → Adopted api start w.objects e id) := by
  by_cases hid : e.id = []
  · obtain ⟨existing, hfound, happlied⟩ := hturn
    obtain ⟨hsome, -⟩ := h.found_by_text hw hp htext hid hfound
    cases existing with
    | none =>
      obtain ⟨hid', hnew⟩ := happlied.id_of_none
      have hrequestId : prefixes.requestId (request e) = none := h.requestId.trans (if_pos hid)
      rw [hrequestId, Option.getD_none] at hid'
      refine ⟨fun hmem => hnew ?_, fun _ => Or.inl hid'⟩
      obtain ⟨p, hpair, heq⟩ := List.mem_map.mp hmem
      exact List.mem_map.mpr ⟨p.2, hp.present p hpair, heq⟩
    | some u =>
      obtain ⟨-, hstart, hsame, huntaken⟩ := hsome u rfl
      have hidu : id = u.id := happlied.id_of_some
      exact ⟨hidu ▸ huntaken, fun _ => Or.inr ⟨u, hstart, hidu.symm, hsame⟩⟩
  · refine ⟨?_, fun hnil => absurd hnil hid⟩
    rw [hturn.id_eq hid h.requestId]
    exact h.fresh hid

/-- One more entry gets its prefix. -/
theorem Ready.step {start : List (NbPrefix F)} {pairs : List (Prefix F × NbPrefix F)}
    {e : Prefix F} (h : Ready api request start pairs e) {w w' : World (NbPrefix F)} {id : Text}
    (hw : Consistent prefixes w) (hp : Progress request start pairs w.objects)
    (htext : ∀ p ∈ pairs, (request p.1).prefixText = p.1.prefixText)
    (hturn : Turn api request w e id w') :
    ∃ v, v.id = id ∧ Progress request start (pairs ++ [(e, v)]) w'.objects := by
  obtain ⟨hnot, -⟩ := h.untaken hw hp htext hturn
  have hidne := fun hid => hturn.id_eq hid h.requestId
  obtain ⟨existing, hfound, happlied⟩ := hturn
  have hexisting : ∀ v, existing = some v → v ∈ w.objects := by
    intro v hv
    by_cases hid : e.id = []
    · exact (hfound.byText hid v hv).1
    · exact List.mem_of_find?_eq_some ((hfound.byID hid).symm.trans hv)
  obtain ⟨v, hv, hvid, hcompare⟩ := happlied.result (h.created id hidne)
    (fun u hu => h.updated u fun hid => Eq.trans hu (hidne hid)) hexisting
  have hvid' : v.id = id := hvid
  have hmap : (pairs ++ [(e, v)]).map (fun p => p.2.id) = pairs.map (fun p => p.2.id) ++ [id] := by
    rw [List.map_append, List.map_singleton, hvid']
  refine ⟨v, hvid', ⟨fun p hpair => ?_, ?_, fun p hpair => ?_, fun u hu => ?_,
    fun p hpair hpid hpname u hu hsame => ?_⟩⟩
  · rcases List.mem_append.mp hpair with hpair | hpair
    · exact hp.fits p hpair
    · rw [List.mem_singleton.mp hpair]
      exact ⟨fun hid => hvid'.trans (hidne hid), hcompare⟩
  · rw [hmap, List.nodup_append_comm]
    exact List.nodup_cons.mpr ⟨hnot, hp.distinct⟩
  · rcases List.mem_append.mp hpair with hpair | hpair
    · refine (happlied.others fun heq => hnot ?_).mpr (hp.present p hpair)
      exact heq ▸ List.mem_map_of_mem hpair
    · rw [List.mem_singleton.mp hpair]
      exact hv
  · rw [hmap, List.mem_append, List.mem_singleton, not_or] at hu
    exact (happlied.others hu.2).trans (hp.others u hu.1)
  · rw [hmap, List.mem_append, List.mem_singleton]
    rcases List.mem_append.mp hpair with hpair | hpair
    · exact Or.inl (hp.sole p hpair hpid hpname u hu hsame)
    · rw [List.mem_singleton.mp hpair] at hpid hpname hsame
      by_cases htaken : u.id ∈ pairs.map fun p => p.2.id
      · exact Or.inl htaken
      · obtain ⟨hsome, hnone⟩ := h.found_by_text hw hp htext hpid hfound
        have humem := (hp.others u htaken).mpr hu
        cases existing with
        | none => exact absurd hsame (hnone rfl u humem)
        | some x =>
          obtain ⟨-, hxstart, hxsame, -⟩ := hsome x rfl
          rw [h.single hpid hpname u hu x hxstart hsame hxsame]
          exact Or.inr happlied.id_of_some.symm

theorem Unambiguous.ready {start : List (NbPrefix F)} {pairs : List (Prefix F × NbPrefix F)}
    {e : Prefix F} {rest : List (Prefix F)}
    (h : Unambiguous api request start (pairs.map Prod.fst ++ e :: rest))
    (hrequest : (request e).id = optionalID e.id)
    (hfresh : e.id ≠ [] → e.id ∉ pairs.map fun p => p.2.id) :
    Ready api request start pairs e := by
  have hmem : e ∈ pairs.map Prod.fst ++ e :: rest :=
    List.mem_append_right _ List.mem_cons_self
  refine ⟨hrequest, h.created e hmem, h.updated e hmem, h.text e hmem, fun hid p hpair => ?_,
    hfresh, h.single e hmem⟩
  exact (List.pairwise_append.mp h.alone).2.2 p.1 (List.mem_map_of_mem hpair) e
    List.mem_cons_self hid

/-- An id that an entry gets is none of those that later entries have. -/
theorem Unambiguous.later {start objects : List (NbPrefix F)}
    {pairs : List (Prefix F × NbPrefix F)} {e : Prefix F} {rest : List (Prefix F)} {id : Text}
    (h : Unambiguous api request start (pairs.map Prod.fst ++ e :: rest))
    (hnew : ∀ b ∈ rest, api.newId objects ≠ b.id) (hid : e.id ≠ [] → id = e.id)
    (hadopted : e.id = [] → Adopted api start objects e id) : ∀ b ∈ rest, b.id ≠ id := by
  intro b hb heq
  by_cases hnil : e.id = []
  · rcases hadopted hnil with rfl | ⟨u, hu, huid, hsame⟩
    · exact hnew b hb heq.symm
    · have hfree := List.rel_of_pairwise_cons (List.pairwise_append.mp h.free).2.1 hb hnil u hu
        (huid.trans heq.symm)
      exact hfree hsame
  · have hdistinct := List.rel_of_pairwise_cons (List.pairwise_append.mp h.ids).2.1 hb hnil
    exact hdistinct ((hid hnil).symm.trans heq.symm)

/-- The loop gives every entry a prefix of its own. -/
theorem progress_of_entries {start : List (NbPrefix F)} {w w' : World (NbPrefix F)}
    {rest : List (Prefix F)} {ids : List Text} (h : Entries (Turn api request) w rest ids w')
    {pairs : List (Prefix F × NbPrefix F)} (hw : Consistent prefixes w)
    (hp : Progress request start pairs w.objects)
    (hcond : Unambiguous api request start (pairs.map Prod.fst ++ rest))
    (hrequest : ∀ e ∈ pairs.map Prod.fst ++ rest,
      (request e).id = optionalID e.id ∧ (request e).prefixText = e.prefixText)
    (hnew : ∀ objects, api.newId objects ≠ [] ∧ ∀ b ∈ rest, api.newId objects ≠ b.id)
    (hstart : ∀ v ∈ start, v.id ≠ [])
    (hfresh : ∀ b ∈ rest, b.id ≠ [] → b.id ∉ pairs.map fun p => p.2.id) :
    (∀ id ∈ ids, id ≠ []) ∧ ∃ pairs', pairs'.map Prod.fst = pairs.map Prod.fst ++ rest ∧
      pairs'.map (fun p => p.2.id) = pairs.map (fun p => p.2.id) ++ ids ∧
      Progress request start pairs' w'.objects := by
  induction h generalizing pairs with
  | nil w => exact ⟨by simp, pairs, by simp, by simp, hp⟩
  | @cons w w₁ w' e rest id ids hturn hrest ih =>
    have htext : ∀ p ∈ pairs, (request p.1).prefixText = p.1.prefixText := fun p hpair =>
      (hrequest p.1 (List.mem_append_left _ (List.mem_map_of_mem hpair))).2
    have hready := hcond.ready (hrequest e (List.mem_append_right _ List.mem_cons_self)).1
      (hfresh e List.mem_cons_self)
    obtain ⟨hnot, hadopted⟩ := hready.untaken hw hp htext hturn
    have hidne : e.id ≠ [] → id = e.id := fun hid => hturn.id_eq hid hready.requestId
    obtain ⟨v, hvid, hp'⟩ := hready.step hw hp htext hturn
    have hlater := hcond.later (fun b hb => (hnew w.objects).2 b (List.mem_cons_of_mem e hb)) hidne
      hadopted
    have happend : (pairs ++ [(e, v)]).map Prod.fst ++ rest = pairs.map Prod.fst ++ e :: rest := by
      simp
    obtain ⟨hne, pairs', hfst, hids, hprogress⟩ := ih (hturn.consistent hw) hp'
      (happend ▸ hcond) (happend ▸ hrequest)
      (fun objects => ⟨(hnew objects).1, fun b hb => (hnew objects).2 b (List.mem_cons_of_mem e hb)⟩)
      (fun b hb hbid => by
        rw [List.map_append, List.map_singleton, List.mem_append, List.mem_singleton, hvid]
        exact not_or.mpr ⟨hfresh b (List.mem_cons_of_mem e hb) hbid, hlater b hb⟩)
    refine ⟨?_, pairs', hfst.trans happend, ?_, hprogress⟩
    · intro i hi
      rcases List.mem_cons.mp hi with rfl | hi
      · by_cases hnil : e.id = []
        · rcases hadopted hnil with rfl | ⟨u, hu, rfl, -⟩
          · exact (hnew w.objects).1
          · exact hstart u hu
        · rw [hidne hnil]
          exact hnil
      · exact hne i hi
    · rw [hids, List.map_append, List.map_singleton, hvid, List.append_assoc,
        List.singleton_append]

/-- Nautobot's key of a prefix besides the id. -/
def NbPrefix.key (v : NbPrefix F) : Text × Text := (v.prefixText, v.namespaceId)

/-- What a pass leaves: the entries with their prefixes, which are the only ones of the operator's
user. -/
structure Settled (request : Prefix F → WritablePrefixRequest F)
    (pairs : List (Prefix F × NbPrefix F)) (w : World (NbPrefix F)) : Prop where
  consistent : Consistent prefixes w
  unique : KeyedTable.Unique NbPrefix.key w.objects
  fits : ∀ p ∈ pairs, Fits request p.1 p.2
  distinct : (pairs.map fun p => p.2.id).Nodup
  present : ∀ p ∈ pairs, p.2 ∈ w.objects
  ids : ∀ p ∈ pairs, p.2.id ≠ []
  owned : ∀ v ∈ w.objects, v.id ∈ w.createdBy → ∃ p ∈ pairs, p.2 = v
  sole : ∀ p ∈ pairs, p.1.id = [] → p.1.namespaceName = [] → ∀ u ∈ w.objects,
    u.prefixText = p.1.prefixText → ∃ p' ∈ pairs, p'.2 = u

/-- If one of the entries is without id and namespace, their texts differ. -/
def Apart (a b : Prefix F × NbPrefix F) : Prop :=
  (a.1.id = [] ∧ a.1.namespaceName = [] ∨ b.1.id = [] ∧ b.1.namespaceName = []) →
    a.1.prefixText ≠ b.1.prefixText

omit [DecidableEq F] in
instance : Std.Symm (Apart (F := F)) := ⟨fun _ _ hab hor => (hab hor.symm).symm⟩

/-- No other entry has the text of one without id and namespace. -/
theorem Unambiguous.one_of_text {start : List (NbPrefix F)}
    {pairs : List (Prefix F × NbPrefix F)}
    (h : Unambiguous api request start (pairs.map Prod.fst)) {p p' : Prefix F × NbPrefix F}
    (hp : p ∈ pairs) (hp' : p' ∈ pairs) (hid : p.1.id = []) (hname : p.1.namespaceName = [])
    (htext : p.1.prefixText = p'.1.prefixText) : p = p' := by
  have hpairs : pairs.Pairwise Apart := by
    refine ((List.pairwise_map.mp h.unnamed).and (List.pairwise_map.mp h.alone)).imp ?_
    rintro a b ⟨hunnamed, halone⟩ (⟨haid, haname⟩ | ⟨hbid, -⟩)
    · exact hunnamed haid haname
    · exact halone hbid
  by_contra hne
  exact hpairs.forall hp hp' hne (Or.inl ⟨hid, hname⟩) htext

section SecondPass

variable {refs : References} {parse : DateParser} {start : List (NbPrefix F)}
  {pairs : List (Prefix F × NbPrefix F)} {w w₁ w₂ : World (NbPrefix F)} {id : Text}

/-- A settled entry with a namespace that finds a prefix of its text finds its own: to match another
one would give two prefixes the same key. -/
theorem Settled.own_of_namespace (h : Settled request pairs w)
    (hcond : Unambiguous api request start (pairs.map Prod.fst))
    (haccepts : ∀ others v, api.accepts others v = true → ∀ u ∈ others, u.key ≠ v.key)
    {p : Prefix F × NbPrefix F} (hpair : p ∈ pairs) {ns : Text} (hid : p.1.id = [])
    (hns : (request p.1).namespaceId = some ns) {t : NbPrefix F} (ht : t ∈ w.objects)
    (hobjects : w₁.objects = w.objects)
    (happlied : Applied api comparePrefix w₁ (some t) (request p.1) id w₂) : t = p.2 := by
  have hfits := h.fits p hpair
  have hpresent := h.present p hpair
  have hkey (u : NbPrefix F) (hu : comparePrefix u (request p.1) = true) : p.2.key = u.key := by
    rw [NbPrefix.key, NbPrefix.key, text_of_comparePrefix hfits.2, text_of_comparePrefix hu,
      namespace_of_comparePrefix hfits.2 hns, namespace_of_comparePrefix hu hns]
  by_contra hne
  cases happlied with
  | created hnone hid' hnew haccepted hwrote => cases hnone
  | unchanged u hsome hid' hcompare hkept =>
    cases hsome
    exact hne (h.unique t ht p.2 hpresent (hkey t hcompare).symm)
  | updated u old hsome hid' hchanged hold haccepted hwrote =>
    cases hsome
    refine haccepts _ _ haccepted p.2 (List.mem_filter.mpr ⟨hobjects ▸ hpresent, ?_⟩)
      (hkey _ (hcond.updated p.1 (List.mem_map_of_mem hpair) old fun hne => absurd hid hne))
    refine decide_eq_true fun heq => hne ?_
    exact Excerpts.unique_of_nodup h.consistent.ids t ht p.2 hpresent (hid'.symm.trans heq.symm)

/-- Without a namespace, only the entry itself has a prefix of its text. -/
theorem Settled.own_of_text (h : Settled request pairs w)
    (hcond : Unambiguous api request start (pairs.map Prod.fst))
    (hrequest : ∀ e ∈ pairs.map Prod.fst, prefixRequest refs parse e = .ok (request e))
    {p : Prefix F × NbPrefix F} (hpair : p ∈ pairs) (hid : p.1.id = [])
    (hunnamed : p.1.namespaceName = []) {t : NbPrefix F} (ht : t ∈ w.objects)
    (hsame : t.prefixText = p.1.prefixText) : t = p.2 := by
  obtain ⟨p', hpair', rfl⟩ := h.sole p hpair hid hunnamed t ht hsame
  have hsame' : p.1.prefixText = p'.1.prefixText := by
    rw [← hsame, text_of_comparePrefix (h.fits p' hpair').2,
      (request_fields (hrequest p'.1 (List.mem_map_of_mem hpair'))).2.1]
  rw [hcond.one_of_text hpair hpair' hid hunnamed hsame']

/-- Where nothing is left to chance, a settled entry finds its own prefix again. -/
theorem Settled.turn (h : Settled request pairs w)
    (hcond : Unambiguous api request start (pairs.map Prod.fst))
    (hrequest : ∀ e ∈ pairs.map Prod.fst, prefixRequest refs parse e = .ok (request e))
    (haccepts : ∀ others v, api.accepts others v = true → ∀ u ∈ others, u.key ≠ v.key)
    {p : Prefix F × NbPrefix F} (hpair : p ∈ pairs) (hobjects : w₁.objects = w.objects)
    (hturn : Turn api request w₁ p.1 id w₂) : Kept prefixes w₁ w₂ ∧ id = p.2.id := by
  have he : p.1 ∈ pairs.map Prod.fst := List.mem_map_of_mem hpair
  obtain ⟨-, htext, hnamespace⟩ := request_fields (hrequest p.1 he)
  have hfits := h.fits p hpair
  obtain ⟨existing, hfound, happlied⟩ := hturn
  rw [hobjects] at hfound
  -- it is enough that the lookup finds the entry's own prefix
  have hown (heq : existing = some p.2) : Kept prefixes w₁ w₂ ∧ id = p.2.id := by
    subst heq
    exact ⟨happlied.kept hfits.2, happlied.id_of_some⟩
  by_cases hid : p.1.id = []
  · cases existing with
    | none =>
      have hne := hfound.missing hid rfl p.2 (h.present p hpair)
      rw [hcond.text p.1 he] at hne
      exact absurd ((text_of_comparePrefix hfits.2).trans htext) hne
    | some t =>
      obtain ⟨ht, hname⟩ := hfound.byText hid t rfl
      refine hown (congrArg some ?_)
      by_cases hnamed : p.1.namespaceName = []
      · refine h.own_of_text hcond hrequest hpair hid hnamed ht ?_
        rcases hname with hname | hname
        · exact hname
        · exact hname.trans (hcond.text p.1 he)
      · obtain ⟨ns, -, hns⟩ := hnamespace hnamed
        exact h.own_of_namespace hcond haccepts hpair hid hns ht hobjects happlied
  · have hids : KeyedTable.Unique NbPrefix.id w.objects :=
      Excerpts.unique_of_nodup h.consistent.ids
    refine hown ((hfound.byID hid).trans ?_)
    rw [hids.find?_eq_some_iff]
    exact ⟨h.present p hpair, hfits.1 hid⟩

/-- A second pass writes nothing. -/
theorem Settled.writes_of_pass (h : Settled request pairs w)
    (hcond : Unambiguous api request start (pairs.map Prod.fst))
    (hrequest : ∀ e ∈ pairs.map Prod.fst, prefixRequest refs parse e = .ok (request e))
    (haccepts : ∀ others v, api.accepts others v = true → ∀ u ∈ others, u.key ≠ v.key)
    (hok : (syncAll api refs parse w (pairs.map Prod.fst)).2.failed = false) :
    (syncAll api refs parse w (pairs.map Prod.fst)).2.writes = w.writes := by
  obtain ⟨ids, w', hsync, hentries, hw'⟩ := syncAll_of_success hrequest h.consistent hok
  obtain ⟨hkept, hagain⟩ := kept_of_entries
    (P := fun e id => ∀ p ∈ pairs, p.1 = e → id = p.2.id) hentries
    fun e he w₁ id w₂ hobjects hturn => by
      have hown (p : Prefix F × NbPrefix F) (hp : p ∈ pairs) (heq : p.1 = e) :
          Kept prefixes w₁ w₂ ∧ id = p.2.id :=
        h.turn hcond hrequest haccepts hp hobjects (heq ▸ hturn)
      obtain ⟨p, hp, heq⟩ := List.mem_map.mp he
      exact ⟨(hown p hp heq).1, fun p hp heq => (hown p hp heq).2⟩
  rw [hsync] at hok ⊢
  rw [(swept_deleteObsoletePrefixes hok).writes, hkept.writes]
  -- what is not of an entry is not the operator's
  have hforeign : (((api.listing w'.objects).filter fun v => v.id ∉ ids.filter (· ≠ [])).map
      NbPrefix.id).filter (· ∈ w'.createdBy) = [] := by
    rw [List.filter_eq_nil_iff]
    intro id hid howned
    obtain ⟨v, hv, rfl⟩ := List.mem_map.mp hid
    obtain ⟨hlisted, hunsynced⟩ := List.mem_filter.mp hv
    have hmem := (api.listing_perm w'.objects).mem_iff.mp hlisted
    rw [hkept.objects] at hmem
    rw [hkept.createdBy] at howned
    obtain ⟨p, hp, rfl⟩ := h.owned v hmem (of_decide_eq_true howned)
    obtain ⟨i, hi, hsame⟩ := hagain p.1 (List.mem_map_of_mem hp)
    refine of_decide_eq_true hunsynced (List.mem_filter.mpr ⟨?_, ?_⟩)
    · rw [← hsame p hp rfl]
      exact hi
    · exact decide_eq_true (h.ids p hp)
  rw [hforeign, List.map_nil, List.append_nil]

/-- A settled prefix has the text and the namespace of its entry. -/
theorem Settled.describes (h : Settled request pairs w)
    (hrequest : ∀ e ∈ pairs.map Prod.fst, prefixRequest refs parse e = .ok (request e)) :
    ∀ p ∈ pairs, Describes refs p.1 p.2 := by
  intro p hp
  obtain ⟨-, htext, hnamespace⟩ := request_fields (hrequest p.1 (List.mem_map_of_mem hp))
  refine ⟨(text_of_comparePrefix (h.fits p hp).2).trans htext, fun hnamed => ?_⟩
  obtain ⟨ns, hlookup, hns⟩ := hnamespace hnamed
  rw [hlookup, namespace_of_comparePrefix (h.fits p hp).2 hns]

end SecondPass

/-! Examples. -/

/-- A Nautobot that returns what it was given and keeps texts unique within a namespace. -/
def keepingApi : Api (prefixes (F := ℤ)) where
  listing objects := objects
  listing_perm := List.Perm.refl
  normalize text := text
  newId objects := List.replicate (objects.flatMap NbPrefix.id).length.succ '0'
  created i req := ⟨i, req.prefixText, req.namespaceId.getD "global".toList, [], req.json⟩
  id_created _ _ := rfl
  updated v req := ⟨v.id, req.prefixText, req.namespaceId.getD v.namespaceId, [], req.json⟩
  id_updated _ _ := rfl
  accepts others v := others.all fun u => u.key ≠ v.key
  fails _ := false
  expires n := n = 3
  ranged ids := ids
  ranged_perm := List.Perm.refl

theorem keepingApi_accepts (others : List (NbPrefix ℤ)) (v : NbPrefix ℤ)
    (h : keepingApi.accepts others v = true) : ∀ u ∈ others, u.key ≠ v.key := by
  intro u hu
  exact of_decide_eq_true (List.all_eq_true.mp h u hu)

/-- Every namespace has its name as id. -/
def namespaceRefs : References where
  status name := if name = "Active".toList then some "s".toList else none
  namespaces name := some name
  role _ := none
  rir _ := none
  location _ := none
  vlanGroup _ := none
  vlan _ := none
  vrf _ := none
  tenant _ := none
  tenantGroup _ := none
  tag _ := none

def plainPrefix (id text namespaceName : Text) : Prefix ℤ :=
  ⟨id, text, namespaceName, [], "Active".toList, [], [], [], [], [], [], [], [], [], [], [], []⟩

def plainRequest (e : Prefix ℤ) : WritablePrefixRequest ℤ :=
  ⟨optionalID e.id, e.prefixText, none, "s".toList, some e.namespaceName, none, none, none, none,
    none, none, none, [], []⟩

def noDates : DateParser := fun _ => none

section Passes

variable {refs : References} {parse : DateParser} {w : World (NbPrefix F)}
  {desired : List (Prefix F)}

/-- What the first pass leaves. -/
theorem settled_of_pass (hw : Consistent prefixes w)
    (hunique : KeyedTable.Unique NbPrefix.key w.objects) (hstart : ∀ v ∈ w.objects, v.id ≠ [])
    (haccepts : ∀ others v, api.accepts others v = true → ∀ u ∈ others, u.key ≠ v.key)
    (hnew : ∀ objects, api.newId objects ≠ [] ∧ ∀ e ∈ desired, api.newId objects ≠ e.id)
    (hrequest : ∀ e ∈ desired, prefixRequest refs parse e = .ok (request e))
    (hcond : Unambiguous api request w.objects desired)
    (hok : (syncAll api refs parse w desired).2.failed = false) :
    ∃ pairs, pairs.map Prod.fst = desired ∧
      (syncAll api refs parse w desired).1 = .ok (pairs.map fun p => p.2.id) ∧
      Settled request pairs (syncAll api refs parse w desired).2 := by
  obtain ⟨ids, w', hsync, hentries, hw'⟩ := syncAll_of_success hrequest hw hok
  have hinit : Progress request w.objects [] w.objects :=
    ⟨by simp, by simp, by simp, fun v _ => Iff.rfl, by simp⟩
  obtain ⟨hne, pairs, hfst, hids, hp⟩ := progress_of_entries hentries hw hinit hcond
    (fun e he => ⟨(request_fields (hrequest e he)).1, (request_fields (hrequest e he)).2.1⟩) hnew
    hstart (by simp)
  rw [List.map_nil, List.nil_append] at hfst hids
  have hall : ids.filter (· ≠ []) = ids :=
    List.filter_eq_self.mpr fun id hid => decide_eq_true (hne id hid)
  rw [hsync, hall] at hok ⊢
  rw [← hids] at hok ⊢
  have hmem := mem_deleteObsoletePrefixes hok
  have hswept := swept_deleteObsoletePrefixes hok
  have hloopUnique : KeyedTable.Unique NbPrefix.key w'.objects :=
    hentries.invariant (fun _ _ _ _ ⟨_, _, happlied⟩ hu => happlied.unique haccepts hu) hunique
  -- a prefix under the id of an entry is that entry's
  have hpair (v : NbPrefix F) (hv : v ∈ w'.objects)
      (hid : v.id ∈ pairs.map fun p => p.2.id) : ∃ p ∈ pairs, p.2 = v := by
    obtain ⟨p, hpair, heq⟩ := List.mem_map.mp hid
    exact ⟨p, hpair, Excerpts.unique_of_nodup hw'.ids p.2 (hp.present p hpair) v hv heq⟩
  refine ⟨pairs, hfst, rfl, ⟨hswept.consistent hw', ?_, hp.fits, hp.distinct, ?_, ?_, ?_, ?_⟩⟩
  · rw [hswept.objects]
    exact hloopUnique.filter _
  · intro p hpair
    exact (hmem p.2).mpr ⟨hp.present p hpair, Or.inl (List.mem_map_of_mem hpair)⟩
  · intro p hpair
    refine hne p.2.id ?_
    rw [← hids]
    exact List.mem_map_of_mem hpair
  · intro v hv howned
    obtain ⟨hv', hor⟩ := (hmem v).mp hv
    rw [hswept.createdBy] at howned
    rcases hor with hid | hforeign
    · exact hpair v hv' hid
    · exact absurd howned hforeign
  · intro p hpmem hid hname u hu htext
    obtain ⟨hu', -⟩ := (hmem u).mp hu
    by_cases hid' : u.id ∈ pairs.map fun p => p.2.id
    · exact hpair u hu' hid'
    · have hold := (hp.others u hid').mp hu'
      exact absurd (hp.sole p hpmem hid hname u hold htext) hid'

/-- Where no call fails, ids and the pairs of text and namespace are unique in Nautobot and the ids
it assigns are new, two passes settle if no lookup by text is ambiguous. -/
theorem prefixes_converge (hids : (w.objects.map NbPrefix.id).Nodup)
    (hcache : ∀ items, w.cache = some items → items.Subperm w.objects)
    (hunique : KeyedTable.Unique NbPrefix.key w.objects) (hstart : ∀ v ∈ w.objects, v.id ≠ [])
    (haccepts : ∀ others v, api.accepts others v = true → ∀ u ∈ others, u.key ≠ v.key)
    (hnew : ∀ objects, api.newId objects ≠ [] ∧ ∀ e ∈ desired, api.newId objects ≠ e.id)
    (hrequest : ∀ e ∈ desired, prefixRequest refs parse e = .ok (request e))
    (hok : (syncAll api refs parse (syncAll api refs parse w desired).2 desired).2.failed = false)
    (hcond : Unambiguous api request w.objects desired) :
    Converges api refs parse w desired := by
  have hw : Consistent prefixes w := consistent_of_subperm hids hcache
  obtain ⟨pairs, rfl, hresult, hsettled⟩ := settled_of_pass hw hunique hstart haccepts hnew hrequest
    hcond (failed_before_syncAll hok)
  refine ⟨⟨pairs.map Prod.snd, ?_, ?_, ?_, ?_⟩, ⟨_, hresult, ?_⟩, ?_⟩
  · rw [List.forall₂_map_left_iff, List.forall₂_map_right_iff, List.forall₂_same]
    exact hsettled.describes hrequest
  · rw [List.map_map]
    exact hsettled.distinct
  · intro v hv
    obtain ⟨p, hp, rfl⟩ := List.mem_map.mp hv
    exact hsettled.present p hp
  · intro v hv
    by_cases howned : v.id ∈ (syncAll api refs parse w (pairs.map Prod.fst)).2.createdBy
    · obtain ⟨p, hp, rfl⟩ := hsettled.owned v hv howned
      exact Or.inl (List.mem_map_of_mem hp)
    · exact Or.inr howned
  · intro id hid
    obtain ⟨p, hp, rfl⟩ := List.mem_map.mp hid
    exact List.mem_map_of_mem (hsettled.present p hp)
  · exact hsettled.writes_of_pass hcond hrequest haccepts hok

end Passes

/-- A prefix in the wrong namespace is adopted by the entry without an id. -/
theorem prefixes_converge_moved :
    let w : World (NbPrefix ℤ) := ⟨[⟨"x".toList, "10.0.0.0/8".toList, "m".toList, [], []⟩],
      ["x".toList], none, 0, [], false⟩
    Converges keepingApi namespaceRefs noDates w
      [plainPrefix [] "10.0.0.0/8".toList "n".toList,
        plainPrefix "c".toList "10.0.0.0/9".toList "n".toList] := by
  intro w
  have hobjects : ∀ u ∈ w.objects,
      u = ⟨"x".toList, "10.0.0.0/8".toList, "m".toList, [], []⟩ := fun u hu =>
    List.mem_singleton.mp hu
  refine @prefixes_converge ℤ _ keepingApi plainRequest namespaceRefs noDates w _ (by decide)
    (fun items hitems => by cases hitems) ?_ (by decide) keepingApi_accepts ?_ ?_ (by decide) ?_
  · exact fun u hu v hv _ => (hobjects u hu).trans (hobjects v hv).symm
  · intro objects
    refine ⟨List.cons_ne_nil _ _, fun e he heq => ?_⟩
    rcases List.mem_pair.mp he with rfl | rfl
    · exact List.cons_ne_nil _ _ heq
    · exact absurd (List.cons.inj heq).1 (by decide)
  · intro e he
    rcases List.mem_pair.mp he with rfl | rfl
    · rfl
    · rfl
  · refine ⟨by decide, ?_, ?_, fun _ _ => rfl, by decide, ?_, by decide, ?_⟩
    · intro e he i hi
      rcases List.mem_pair.mp he with rfl | rfl
      · rfl
      · rw [hi (by decide)]
        rfl
    · intro e he v hv
      rcases List.mem_pair.mp he with rfl | rfl
      · rfl
      · obtain ⟨vid, vtext, vnamespace, vnamespaceOther, vother⟩ := v
        have hvid : vid = "c".toList := hv (by decide)
        rw [hvid]
        rfl
    · refine List.pairwise_pair.mpr fun _ v hv hid => ?_
      rw [hobjects v hv] at hid
      exact absurd hid (by decide)
    · exact fun e _ _ _ u hu v hv _ _ => (hobjects u hu).trans (hobjects v hv).symm

/-- Two entries of one text in two namespaces share one prefix, which the second moves. -/
theorem prefix_moved_away :
    let w : World (NbPrefix ℤ) := ⟨[], [], none, 0, [], false⟩
    let desired := [plainPrefix [] "10.0.0.0/8".toList "n".toList,
      plainPrefix [] "10.0.0.0/8".toList "m".toList]
    (desired.map fun e => (e.prefixText, e.namespaceName)).Nodup ∧
      (∀ e ∈ desired, prefixRequest namespaceRefs noDates e = .ok (plainRequest e)) ∧
      (syncAll keepingApi namespaceRefs noDates
        (syncAll keepingApi namespaceRefs noDates w desired).2 desired).2.failed = false ∧
      ¬Converges keepingApi namespaceRefs noDates w desired := by
  intro w desired
  refine ⟨by decide, fun e he => ?_, by decide, fun h => ?_⟩
  · rcases List.mem_pair.mp he with rfl | rfl
    · rfl
    · rfl
  obtain ⟨matched, hmatched, hdistinct, hpresent, -⟩ := h.matched
  have hlength : matched.length = 2 := hmatched.length_eq.symm
  obtain ⟨u, v, rfl⟩ := List.length_eq_two.mp hlength
  have hone : ∀ u ∈ (syncAll keepingApi namespaceRefs noDates w desired).2.objects,
      u.id = "0".toList := by decide
  have hid : u.id = v.id := (hone u (hpresent u List.mem_cons_self)).trans
    (hone v (hpresent v (List.mem_cons_of_mem u List.mem_cons_self))).symm
  rw [List.map_cons, hid] at hdistinct
  exact (List.nodup_cons.mp hdistinct).1 List.mem_cons_self

end Understack.Nautobotop.PrefixSync
