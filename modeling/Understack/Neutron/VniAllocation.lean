import Understack.Neutron.VniRanges

/-! The router VNI allocation table of `l3_router/understack_vni_db.py`. Each operation
returns the table it leaves behind together with its result, so that what a raising call
does to the table is part of the model. -/
namespace Understack.Neutron.Vni
open PyText Intervals

/-- A row of `understack_router_vni_allocations`. -/
structure Allocation where
  vni : ℤ
  routerId : Option RouterId
  releasedAt : Option ℤ
  deriving DecidableEq, Repr

abbrev Table := List Allocation

/-- The `evpn_vni` value of a request. -/
inductive RequestedVni where
  | notSpecified
  | null
  | number (n : ℤ)
  deriving DecidableEq, Repr

def isAutoVni : RequestedVni → Bool
  | .notSpecified => true
  | .null => true
  | .number n => n == 0

/-- `int(requested_vni)`, evaluated only where `is_auto_vni` is false. -/
def RequestedVni.toInt : RequestedVni → ℤ
  | .number n => n
  | _ => 0

def getRouterAllocation (t : Table) (routerId : RouterId) : Option Allocation :=
  t.find? fun a => a.routerId = some routerId

/-- The flush of an ORM row whose `router_id` and `released_at` were assigned. -/
def assign (t : Table) (vni : ℤ) (routerId : Option RouterId) (releasedAt : Option ℤ) : Table :=
  t.map fun a => if a.vni = vni then { a with routerId := routerId, releasedAt := releasedAt } else a

/-- The flush of a new row. -/
def insert (t : Table) (vni : ℤ) (routerId : RouterId) : Table :=
  t ++ [{ vni := vni, routerId := some routerId, releasedAt := none }]

/-- The inner loop of `_find_never_used_vni` over the ordered rows of one range. -/
def scanRange (stop : ℤ) : ℤ → List ℤ → Option ℤ
  | candidate, [] => if candidate ≤ stop then some candidate else none
  | candidate, vni :: rows =>
    if vni > candidate then some candidate
    else
      let next := if vni = candidate then candidate + 1 else candidate
      if next > stop then none else scanRange stop next rows

def rowsBetween (t : Table) (start stop : ℤ) : List ℤ :=
  ((t.map Allocation.vni).filter fun v => start ≤ v ∧ v ≤ stop).insertionSort (· ≤ ·)

def findNeverUsedVni (t : Table) : List Interval → Option ℤ
  | [] => none
  | r :: ranges =>
    match scanRange r.2 r.1 (rowsBetween t r.1 r.2) with
    | some candidate => some candidate
    | none => findNeverUsedVni t ranges

/-- `ORDER BY released_at, vni`, with `NULL` first. -/
def releasedLe (a b : Allocation) : Bool :=
  match a.releasedAt, b.releasedAt with
  | none, none => a.vni ≤ b.vni
  | none, some _ => true
  | some _, none => false
  | some x, some y => x < y || (x == y && a.vni ≤ b.vni)

def findReleasedAllocation (t : Table) (ranges : List Interval) : Option Allocation :=
  ((t.filter fun a => a.routerId = none ∧ Covers ranges a.vni).insertionSort
    fun a b => releasedLe a b = true).head?

def allocateAutoVni (t : Table) (routerId : RouterId) (ranges : List Interval) :
    Table × Except VniError ℤ :=
  match findNeverUsedVni t ranges with
  | some vni => (insert t vni routerId, .ok vni)
  | none =>
    match findReleasedAllocation t ranges with
    | some released => (assign t released.vni (some routerId) none, .ok released.vni)
    | none => (t, .error (.noAvailable (formatVniRanges ranges)))

/-- The truth value of the nullable `router_id` column. -/
def truthy (routerId : Option RouterId) : Bool := routerId.any fun r => r ≠ ""

def allocateSpecificVni (t : Table) (routerId : RouterId) (vni : ℤ) : Table × Except VniError ℤ :=
  match t.find? fun a => a.vni = vni with
  | some allocation =>
    if truthy allocation.routerId then (t, .error (.inUse vni allocation.routerId))
    else (assign t vni (some routerId) none, .ok vni)
  | none => (insert t vni routerId, .ok vni)

def allocateVniForRouter (vniRanges : List Text) (t : Table) (routerId : RouterId)
    (requested : RequestedVni) : Table × Except VniError ℤ :=
  match parseVniRanges vniRanges with
  | .error e => (t, .error e)
  | .ok ranges =>
    match getRouterAllocation t routerId with
    | some existing =>
      if isAutoVni requested || requested == .number existing.vni then (t, .ok existing.vni)
      else (t, .error (.routerHasVni routerId existing.vni requested.toInt))
    | none =>
      if isAutoVni requested then allocateAutoVni t routerId ranges
      else if Covers ranges requested.toInt then allocateSpecificVni t routerId requested.toInt
      else (t, .error (.notInRange requested.toInt (formatVniRanges ranges)))

def releaseVniForRouter (t : Table) (routerId : RouterId) (now : ℤ) : Table :=
  match getRouterAllocation t routerId with
  | none => t
  | some allocation => assign t allocation.vni none (some now)

/-- The serialized transactions on the table; `now` is the clock read by the release. -/
inductive VniOp where
  | allocate (routerId : RouterId) (requested : RequestedVni)
  | release (routerId : RouterId) (now : ℤ)

def VniOp.apply (vniRanges : List Text) (t : Table) : VniOp → Table
  | .allocate routerId requested => (allocateVniForRouter vniRanges t routerId requested).1
  | .release routerId now => releaseVniForRouter t routerId now

def runOps (vniRanges : List Text) (ops : List VniOp) : Table :=
  ops.foldl (VniOp.apply vniRanges) []

/-- The router holds the VNI in the table. -/
def Holds (t : Table) (routerId : RouterId) (vni : ℤ) : Prop :=
  ∃ a ∈ t, a.vni = vni ∧ a.routerId = some routerId

/-! Specifications of the searches. -/

/-- The scan of ordered rows stops at an id that no row carries. -/
theorem scanRange_spec {stop candidate vni : ℤ} {rows : List ℤ} (hs : rows.Pairwise (· ≤ ·))
    (hle : ∀ v ∈ rows, v ≤ stop) (h : scanRange stop candidate rows = some vni) :
    candidate ≤ vni ∧ vni ≤ stop ∧ vni ∉ rows := by
  induction rows generalizing candidate with
  | nil =>
    simp only [scanRange, Option.ite_none_right_eq_some, Option.some.injEq] at h
    obtain ⟨hc, rfl⟩ := h
    exact ⟨le_refl _, hc, by simp⟩
  | cons v rows ih =>
    obtain ⟨hv, hs'⟩ := List.pairwise_cons.mp hs
    have hvs := hle v (by simp)
    simp only [scanRange] at h
    split at h
    next hgt =>
      obtain rfl := Option.some.inj h
      refine ⟨le_refl _, by omega, fun hm => ?_⟩
      rcases List.mem_cons.mp hm with he | hm
      · omega
      · have := hv _ hm
        omega
    next hngt =>
      generalize hnext : (if v = candidate then candidate + 1 else candidate) = next at h
      have hlt : candidate ≤ next ∧ v < next := by split at hnext <;> omega
      obtain ⟨-, h⟩ := Option.ite_none_left_eq_some.mp h
      obtain ⟨h1, h2, h3⟩ := ih hs' (fun x hx => hle x (by simp [hx])) h
      refine ⟨by omega, h2, fun hm => ?_⟩
      rcases List.mem_cons.mp hm with he | hm
      · omega
      · exact h3 hm

theorem mem_rowsBetween {t : Table} {start stop v : ℤ} :
    v ∈ rowsBetween t start stop ↔ v ∈ t.map Allocation.vni ∧ start ≤ v ∧ v ≤ stop := by
  simp only [rowsBetween, List.mem_insertionSort, List.mem_filter, decide_eq_true_eq]

theorem findNeverUsedVni_spec {t : Table} {ranges : List Interval} {vni : ℤ}
    (h : findNeverUsedVni t ranges = some vni) :
    Covers ranges vni ∧ vni ∉ t.map Allocation.vni := by
  induction ranges with
  | nil => simp [findNeverUsedVni] at h
  | cons r ranges ih =>
    simp only [findNeverUsedVni] at h
    split at h
    next candidate hc =>
      obtain rfl := Option.some.inj h
      obtain ⟨h1, h2, h3⟩ := scanRange_spec (List.pairwise_insertionSort _ _)
        (fun v hv => (mem_rowsBetween.mp hv).2.2) hc
      exact ⟨covers_cons.mpr (Or.inl ⟨h1, h2⟩), fun hm => h3 (mem_rowsBetween.mpr ⟨hm, h1, h2⟩)⟩
    next => exact (ih h).imp_left fun hr => covers_cons.mpr (Or.inr hr)

theorem findReleasedAllocation_spec {t : Table} {ranges : List Interval} {a : Allocation}
    (h : findReleasedAllocation t ranges = some a) :
    a ∈ t ∧ a.routerId = none ∧ Covers ranges a.vni := by
  have hm := List.mem_of_mem_head? h
  simpa only [List.mem_insertionSort, List.mem_filter, decide_eq_true_eq] using hm

/-! What one transaction can do to the table. -/

/-- The possible effects of a transaction, with everything its guards establish. -/
inductive Change (vniRanges : List Text) (t : Table) : Table → Prop
  | none : Change vniRanges t t
  | insert {ranges : List Interval} {vni : ℤ} {routerId : RouterId}
      (hp : parseVniRanges vniRanges = .ok ranges) (hc : Covers ranges vni)
      (hv : vni ∉ t.map Allocation.vni) (hr : getRouterAllocation t routerId = none) :
      Change vniRanges t (insert t vni routerId)
  | take {ranges : List Interval} {vni : ℤ} {routerId : RouterId}
      (hp : parseVniRanges vniRanges = .ok ranges) (hc : Covers ranges vni)
      (hr : getRouterAllocation t routerId = none) :
      Change vniRanges t (assign t vni (some routerId) none)
  | release (vni now : ℤ) : Change vniRanges t (assign t vni none (some now))

theorem allocateAutoVni_change {vniRanges : List Text} {t : Table} {routerId : RouterId}
    {ranges : List Interval} (hp : parseVniRanges vniRanges = .ok ranges)
    (hr : getRouterAllocation t routerId = none) :
    Change vniRanges t (allocateAutoVni t routerId ranges).1 := by
  unfold allocateAutoVni
  split
  next vni hn =>
    obtain ⟨hc, hv⟩ := findNeverUsedVni_spec hn
    exact .insert hp hc hv hr
  next =>
    split
    next a ha => exact .take hp (findReleasedAllocation_spec ha).2.2 hr
    next => exact .none

theorem allocateSpecificVni_change {vniRanges : List Text} {t : Table} {routerId : RouterId}
    {ranges : List Interval} {vni : ℤ} (hp : parseVniRanges vniRanges = .ok ranges)
    (hc : Covers ranges vni) (hr : getRouterAllocation t routerId = none) :
    Change vniRanges t (allocateSpecificVni t routerId vni).1 := by
  unfold allocateSpecificVni
  split
  next a ha =>
    split
    · exact .none
    · exact .take hp hc hr
  next hn =>
    refine .insert hp hc (fun hm => ?_) hr
    obtain ⟨a, ha, hav⟩ := List.mem_map.mp hm
    exact List.find?_eq_none.mp hn a ha (by simpa using hav)

theorem apply_change (vniRanges : List Text) (t : Table) (op : VniOp) :
    Change vniRanges t (op.apply vniRanges t) := by
  cases op with
  | allocate routerId requested =>
    simp only [VniOp.apply, allocateVniForRouter]
    split
    next => exact .none
    next ranges hp =>
      split
      next => split <;> exact .none
      next hr =>
        split
        · exact allocateAutoVni_change hp hr
        · split
          next hc => exact allocateSpecificVni_change hp hc hr
          next => exact .none
  | release routerId now =>
    simp only [VniOp.apply, releaseVniForRouter]
    split
    next => exact .none
    next a ha => exact .release a.vni now

/-! Frame lemmas of the two writes. -/

theorem map_vni_assign (t : Table) (vni : ℤ) (routerId : Option RouterId) (x : Option ℤ) :
    (assign t vni routerId x).map Allocation.vni = t.map Allocation.vni := by
  simp only [assign, List.map_map]
  apply List.map_congr_left
  intro a _
  simp only [Function.comp_apply]
  split <;> rfl

theorem holds_assign {t : Table} {vni v : ℤ} {routerId : Option RouterId} {x : Option ℤ}
    {r : RouterId} (h : Holds (assign t vni routerId x) r v) :
    Holds t r v ∨ (v = vni ∧ routerId = some r) := by
  obtain ⟨b, hb, hv, hr⟩ := h
  obtain ⟨a, ha, rfl⟩ := List.mem_map.mp hb
  split at hv
  next heq =>
    rw [if_pos heq] at hr
    exact Or.inr ⟨hv.symm.trans heq, hr⟩
  next hne =>
    rw [if_neg hne] at hr
    exact Or.inl ⟨a, ha, hv, hr⟩

theorem holds_insert {t : Table} {vni v : ℤ} {routerId r : RouterId}
    (h : Holds (insert t vni routerId) r v) : Holds t r v ∨ (v = vni ∧ routerId = r) := by
  obtain ⟨a, ha, hv, hr⟩ := h
  rcases List.mem_append.mp ha with ha | ha
  · exact Or.inl ⟨a, ha, hv, hr⟩
  · obtain rfl := List.mem_singleton.mp ha
    exact Or.inr ⟨hv.symm, Option.some.inj hr⟩

/-- A router held by no row is not among the routers of the table. -/
theorem getRouterAllocation_none {t : Table} {r : RouterId} (h : getRouterAllocation t r = none) :
    ∀ v, ¬ Holds t r v := by
  rintro v ⟨a, ha, -, hr⟩
  exact List.find?_eq_none.mp h a ha (by simpa using hr)

theorem getRouterAllocation_some {t : Table} {r : RouterId} {a : Allocation}
    (h : getRouterAllocation t r = some a) : Holds t r a.vni :=
  ⟨a, List.mem_of_find?_eq_some h, rfl, by simpa using List.find?_some h⟩

/-- What keeps the two uniqueness constraints of the table from ever firing. A nonempty
table also witnesses that the configured ranges parse. -/
structure TableInvariant (vniRanges : List Text) (t : Table) : Prop where
  vnis : (t.map Allocation.vni).Nodup
  routers : ∀ r v₁ v₂, Holds t r v₁ → Holds t r v₂ → v₁ = v₂
  parsed : t ≠ [] → ∃ ranges, parseVniRanges vniRanges = .ok ranges

theorem TableInvariant.vni_holder {vniRanges : List Text} {t : Table}
    (h : TableInvariant vniRanges t) {r₁ r₂ : RouterId} {v : ℤ} (h₁ : Holds t r₁ v)
    (h₂ : Holds t r₂ v) : r₁ = r₂ := by
  obtain ⟨a, ha, hav, har⟩ := h₁
  obtain ⟨b, hb, hbv, hbr⟩ := h₂
  have hab : a = b := List.inj_on_of_nodup_map h.vnis ha hb (hav.trans hbv.symm)
  rw [hab, hbr] at har
  exact (Option.some.inj har).symm

theorem TableInvariant.change {vniRanges : List Text} {t t' : Table}
    (h : TableInvariant vniRanges t) (hc : Change vniRanges t t') :
    TableInvariant vniRanges t' := by
  cases hc with
  | none => exact h
  | @insert ranges vni routerId hp hc hv hr =>
    have hfree := getRouterAllocation_none hr
    refine ⟨?_, fun r v₁ v₂ h₁ h₂ => ?_, fun _ => ⟨ranges, hp⟩⟩
    · simpa [insert, List.nodup_append, h.vnis] using hv
    · rcases holds_insert h₁ with h₁ | ⟨e₁, rfl⟩ <;> rcases holds_insert h₂ with h₂ | ⟨e₂, hr₂⟩
      · exact h.routers r v₁ v₂ h₁ h₂
      · exact absurd (hr₂ ▸ h₁) (hfree v₁)
      · exact absurd h₂ (hfree v₂)
      · exact e₁.trans e₂.symm
  | @take ranges vni routerId hp hc hr =>
    have hfree := getRouterAllocation_none hr
    refine ⟨?_, fun r v₁ v₂ h₁ h₂ => ?_, fun _ => ⟨ranges, hp⟩⟩
    · rw [map_vni_assign]
      exact h.vnis
    · rcases holds_assign h₁ with h₁ | ⟨e₁, hr₁⟩ <;> rcases holds_assign h₂ with h₂ | ⟨e₂, hr₂⟩
      · exact h.routers r v₁ v₂ h₁ h₂
      · exact absurd (Option.some.inj hr₂ ▸ h₁) (hfree v₁)
      · exact absurd (Option.some.inj hr₁ ▸ h₂) (hfree v₂)
      · exact e₁.trans e₂.symm
  | release vni now =>
    refine ⟨?_, fun r v₁ v₂ h₁ h₂ => ?_, fun hne => h.parsed fun ht => hne (by simp [assign, ht])⟩
    · rw [map_vni_assign]
      exact h.vnis
    · have held {v : ℤ} (hv : Holds (assign t vni none (some now)) r v) : Holds t r v :=
        (holds_assign hv).resolve_right fun hn => by simp at hn
      exact h.routers r v₁ v₂ (held h₁) (held h₂)

theorem runOps_invariant (vniRanges : List Text) (ops : List VniOp) :
    TableInvariant vniRanges (runOps vniRanges ops) := by
  apply List.foldlRecOn
  · exact ⟨by simp, by simp [Holds], by simp⟩
  · intro t ht op _
    exact ht.change (apply_change vniRanges t op)

/-! The contract of the allocator in a given table. -/

theorem change_new_configured {vniRanges : List Text} {t t' : Table} (hc : Change vniRanges t t')
    {r : RouterId} {v : ℤ} (hv : Holds t' r v) (hn : ¬ Holds t r v) : Configured vniRanges v := by
  cases hc with
  | none => exact absurd hv hn
  | insert hp hc _ _ =>
    obtain ⟨rfl, -⟩ := (holds_insert hv).resolve_left hn
    exact parseVniRanges_configured hp hc
  | take hp hc _ =>
    obtain ⟨rfl, -⟩ := (holds_assign hv).resolve_left hn
    exact parseVniRanges_configured hp hc
  | release => simpa using (holds_assign hv).resolve_left hn

theorem change_vni_mem {vniRanges : List Text} {t t' : Table} (hc : Change vniRanges t t') {v : ℤ}
    (hv : v ∈ t.map Allocation.vni) : v ∈ t'.map Allocation.vni := by
  cases hc with
  | none => exact hv
  | insert => simp only [insert, List.map_append, List.mem_append, hv, true_or]
  | take => rwa [map_vni_assign]
  | release => rwa [map_vni_assign]

/-- A router that already holds a VNI gets the same one back. -/
theorem TableInvariant.repeated {vniRanges : List Text} {t : Table}
    (h : TableInvariant vniRanges t) {r : RouterId} {v : ℤ} {requested : RequestedVni}
    (hv : Holds t r v) (hreq : isAutoVni requested = true ∨ requested = .number v) :
    allocateVniForRouter vniRanges t r requested = (t, .ok v) := by
  have hne : t ≠ [] := by
    obtain ⟨a, ha, -⟩ := hv
    exact List.ne_nil_of_mem ha
  obtain ⟨ranges, hp⟩ := h.parsed hne
  cases hg : getRouterAllocation t r with
  | none => exact absurd hv (getRouterAllocation_none hg v)
  | some a =>
    obtain rfl : a.vni = v := h.routers r _ _ (getRouterAllocation_some hg) hv
    have hcond : (isAutoVni requested || requested == .number a.vni) = true := by
      rcases hreq with h | h <;> simp [h]
    simp only [allocateVniForRouter, hp, hg, hcond, if_true]

/-- No failure path of the allocator has written to the table. -/
theorem allocateVniForRouter_error {vniRanges : List Text} {t t' : Table} {r : RouterId}
    {requested : RequestedVni} {e : VniError}
    (h : allocateVniForRouter vniRanges t r requested = (t', .error e)) : t' = t := by
  unfold allocateVniForRouter allocateAutoVni allocateSpecificVni at h
  repeat' split at h
  all_goals simp_all

/-- The promises of the allocator in one table: what its rows say, and what the next
transaction may do. -/
structure AllocatorContract (vniRanges : List Text) (t : Table) : Prop where
  vni_held_once : ∀ r₁ r₂ v, Holds t r₁ v → Holds t r₂ v → r₁ = r₂
  router_holds_once : ∀ r v₁ v₂, Holds t r v₁ → Holds t r v₂ → v₁ = v₂
  new_in_ranges : ∀ (op : VniOp) r v, Holds (op.apply vniRanges t) r v → ¬ Holds t r v →
    Configured vniRanges v
  repeated_unchanged : ∀ r v requested, Holds t r v →
    isAutoVni requested = true ∨ requested = .number v →
    allocateVniForRouter vniRanges t r requested = (t, .ok v)
  raise_unchanged : ∀ r requested t' e,
    allocateVniForRouter vniRanges t r requested = (t', .error e) → t' = t
  rows_kept : ∀ (op : VniOp), ∀ a ∈ t, ∃ b ∈ op.apply vniRanges t, b.vni = a.vni

/-- Every table reached from the empty one keeps the whole contract. -/
theorem runOps_contract (vniRanges : List Text) (ops : List VniOp) :
    AllocatorContract vniRanges (runOps vniRanges ops) := by
  have hinv := runOps_invariant vniRanges ops
  refine ⟨fun r₁ r₂ v => hinv.vni_holder, hinv.routers, fun op r v => ?_, fun r v requested => ?_,
    fun r requested t' e => allocateVniForRouter_error, fun op a ha => ?_⟩
  · exact change_new_configured (apply_change vniRanges _ op)
  · exact hinv.repeated
  · exact List.mem_map.mp (change_vni_mem (apply_change vniRanges _ op)
      (List.mem_map.mpr ⟨a, ha, rfl⟩))

end Understack.Neutron.Vni
