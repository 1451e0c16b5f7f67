import Mathlib.Data.Set.Insert
import Mathlib.Logic.Function.Basic
import Understack.Lib.Intervals
import Understack.Lib.PyText

/-! The UCVNI group range of `main/sync_ucvni_group_range.py`: a comma separated list of
intervals that follows the network segment ranges of a group, and the notes that remember
the interval of each segment range. -/
namespace Understack.Workflows.Ucvni
open PyText Intervals

abbrev SegmentId := String

inductive SegmentRangeEvent where
  | create
  | update
  | delete
  deriving DecidableEq, Repr

structure SegmentArgs where
  event : SegmentRangeEvent
  segmentRangeId : SegmentId
  segmentMinRange : ℤ
  segmentMaxRange : ℤ
  deriving DecidableEq, Repr

/-- The exceptions that leave `modify_range`: a note that is not there has no `note`
attribute, and a listed range that is not two integers does not unpack. -/
inductive RangeError where
  | attributeError
  | valueError
  deriving DecidableEq, Repr

/-- `map(int, r.split("-"))` unpacked into two integers. -/
def parseRange (r : Text) : Option Interval :=
  match split '-' r with
  | [a, b] => (int? a).bind fun start => (int? b).map fun stop => (start, stop)
  | _ => none

def formatRange (r : Interval) : Text := ofInt r.1 ++ '-' :: ofInt r.2

/-- The body of the loop of `_remove_subrange`. -/
def cutRange (remove : Interval) (r : Text) : Except RangeError (List Text) :=
  match parseRange r with
  | none => .error .valueError
  | some (start, stop) =>
    if start = remove.1 ∧ stop = remove.2 then .ok []
    else if stop < remove.1 ∨ start > remove.2 then .ok [r]
    else .ok ((if start < remove.1 then [formatRange (start, remove.1 - 1)] else []) ++
      (if stop > remove.2 then [formatRange (remove.2 + 1, stop)] else []))

def cutRanges (remove : Interval) : List Text → Except RangeError (List Text)
  | [] => .ok []
  | r :: ranges => do
    let kept ← cutRange remove r
    let rest ← cutRanges remove ranges
    return kept ++ rest

/-- `note` is what `notes_endpoint.get(segment_range_id)` finds. -/
def removeSubrange (ranges : List Text) (note : Option Text) : Except RangeError (List Text) :=
  match note with
  | none => .error .attributeError
  | some rangeToRemove =>
    if rangeToRemove = [] then .ok ranges
    else
      match parseRange rangeToRemove with
      | none => .ok ranges
      | some remove => cutRanges remove ranges

/-- `existing_range.split(",") if existing_range else []`. -/
def listedRanges (existing : Option Text) : List Text :=
  match existing with
  | none => []
  | some text => if text = [] then [] else split ',' text

def modifyRange (action : SegmentRangeEvent) (newRange : Text) (existing note : Option Text) :
    Except RangeError Text := do
  let ranges := listedRanges existing
  match action with
  | .create => return join ',' (ranges ++ [newRange])
  | .delete => return join ',' (← removeSubrange ranges note)
  | .update => return join ',' ((← removeSubrange ranges note) ++ [newRange])

/-- The interval of the event. -/
def SegmentArgs.interval (args : SegmentArgs) : Interval :=
  (args.segmentMinRange, args.segmentMaxRange)

def SegmentArgs.requestedRange (args : SegmentArgs) : Text := formatRange args.interval

/-- The part of Nautobot that the workflow reads and writes: the group's `range` and the
notes by id. -/
structure Nautobot where
  range : Option Text
  notes : SegmentId → Option Text

def captureSegmentRangeInNotes (notes : SegmentId → Option Text) (segmentRangeId : SegmentId)
    (segmentRange : Text) : SegmentRangeEvent → SegmentId → Option Text
  | .update => Function.update notes segmentRangeId (some segmentRange)
  | .delete => Function.update notes segmentRangeId none
  | .create => Function.update notes segmentRangeId (some segmentRange)

/-- `isUpdated old new` is the return value of `ucvni_group.update`, whose write has
succeeded in either case. -/
def updateUcvniRange (isUpdated : Option Text → Text → Bool) (nb : Nautobot) (args : SegmentArgs) :
    Except RangeError Nautobot := do
  let newRange ←
    modifyRange args.event args.requestedRange nb.range (nb.notes args.segmentRangeId)
  let notes :=
    if isUpdated nb.range newRange then
      captureSegmentRangeInNotes nb.notes args.segmentRangeId args.requestedRange args.event
    else nb.notes
  return { range := some newRange, notes := notes }

def handleEvents (isUpdated : Option Text → Text → Bool) :
    Nautobot → List SegmentArgs → Except RangeError Nautobot
  | nb, [] => .ok nb
  | nb, args :: rest => do handleEvents isUpdated (← updateUcvniRange isUpdated nb args) rest

/-! The intervals that exist in Neutron, as the events describe them. -/

abbrev Segments := SegmentId → Option Interval

def Segments.apply (live : Segments) (args : SegmentArgs) : Segments :=
  match args.event with
  | .delete => Function.update live args.segmentRangeId none
  | _ => Function.update live args.segmentRangeId (some args.interval)

/-- Positive intervals, pairwise disjoint. -/
structure Segments.Proper (live : Segments) : Prop where
  positive : ∀ id r, live id = some r → 0 < r.1 ∧ r.1 ≤ r.2
  disjoint : ∀ i j r s, live i = some r → live j = some s → i ≠ j → r.2 < s.1 ∨ s.2 < r.1

/-- A segment range is created once, and only an existing one is updated or deleted. -/
def SegmentArgs.Applies (args : SegmentArgs) (live : Segments) : Prop :=
  match args.event with
  | .create => live args.segmentRangeId = none
  | _ => live args.segmentRangeId ≠ none

/-- Every event of the sequence applies, and the live ranges are proper after each. -/
def ProperRun : Segments → List SegmentArgs → Prop
  | _, [] => True
  | live, args :: rest =>
    args.Applies live ∧ (live.apply args).Proper ∧ ProperRun (live.apply args) rest

/-- The intervals that the group's range string lists. -/
def parsedRanges (range : Option Text) : Option (List Interval) :=
  (listedRanges range).mapM parseRange

/-! Formatted intervals parse back. -/

theorem formatRange_eq_join (r : Interval) : formatRange r = join '-' [ofInt r.1, ofInt r.2] := by
  simp [formatRange, join, List.intercalate_cons_cons]

theorem parseRange_formatRange {r : Interval} (h1 : 0 ≤ r.1) (h2 : 0 ≤ r.2) :
    parseRange (formatRange r) = some r := by
  have hdash {z : ℤ} (hz : 0 ≤ z) : '-' ∉ ofInt z := fun hm => by
    simpa using mem_ofInt_of_nonneg hz hm
  have hs : split '-' (formatRange r) = [ofInt r.1, ofInt r.2] := by
    rw [formatRange_eq_join]
    apply split_join (by simp)
    simp [hdash h1, hdash h2]
  simp [parseRange, hs]

theorem formatRange_ne_nil (r : Interval) : formatRange r ≠ [] := by simp [formatRange]

theorem comma_notMem_formatRange (r : Interval) : ',' ∉ formatRange r := by
  have hcomma (z : ℤ) : ',' ∉ ofInt z := fun hm => by simpa using mem_ofInt hm
  simp [formatRange, hcomma]

/-! The range string as a list of positive intervals. -/

def Positive (parts : List Interval) : Prop := ∀ r ∈ parts, 0 < r.1 ∧ r.1 ≤ r.2

theorem Positive.parse {parts : List Interval} (h : Positive parts) {r : Interval}
    (hr : r ∈ parts) : parseRange (formatRange r) = some r := by
  obtain ⟨h1, h2⟩ := h r hr
  exact parseRange_formatRange (by omega) (by omega)

theorem listedRanges_join (range : Option Text) (parts : List Interval)
    (h : range.getD [] = join ',' (parts.map formatRange)) :
    listedRanges range = parts.map formatRange := by
  have hne : ∀ p ∈ parts.map formatRange, p ≠ [] :=
    List.forall_mem_map.mpr fun r _ => formatRange_ne_nil r
  have hcomma : ∀ p ∈ parts.map formatRange, ',' ∉ p :=
    List.forall_mem_map.mpr fun r _ => comma_notMem_formatRange r
  by_cases hnil : parts.map formatRange = []
  · have htext : range.getD [] = [] := by rw [h, hnil]; rfl
    cases range with
    | none => exact hnil.symm
    | some text =>
      rw [Option.getD_some] at htext
      simp [listedRanges, htext, hnil]
  · have htext : range.getD [] ≠ [] := by rwa [h, ne_eq, join_eq_nil hne]
    cases range with
    | none => simp at htext
    | some text =>
      rw [Option.getD_some] at h htext
      rw [listedRanges, if_neg htext, h, split_join hnil hcomma]

theorem join_formatRange_inj {parts parts' : List Interval} (hp : Positive parts)
    (hp' : Positive parts')
    (h : join ',' (parts.map formatRange) = join ',' (parts'.map formatRange)) :
    parts = parts' := by
  have e1 := listedRanges_join (some (join ',' (parts.map formatRange))) parts rfl
  have e2 := listedRanges_join (some (join ',' (parts.map formatRange))) parts' h
  have hm : (parts.map formatRange).map parseRange = (parts'.map formatRange).map parseRange := by
    rw [← e1, e2]
  have some_map {l : List Interval} (hl : Positive l) :
      (l.map formatRange).map parseRange = l.map some := by
    rw [List.map_map]
    exact List.map_congr_left fun r hr => hl.parse hr
  rw [some_map hp, some_map hp'] at hm
  exact List.map_injective_iff.mpr (Option.some_injective _) hm

theorem parsedRanges_join {range : Option Text} {parts : List Interval} (hp : Positive parts)
    (h : range.getD [] = join ',' (parts.map formatRange)) : parsedRanges range = some parts := by
  rw [parsedRanges, listedRanges_join range parts h]
  clear h
  induction parts with
  | nil => rfl
  | cons r parts ih =>
    have hr := hp.parse (r := r) (by simp)
    have hrest := ih fun r hr => hp r (by simp [hr])
    simp [List.mapM_cons, hr, hrest]

/-- Cutting an interval that every other listed one avoids removes exactly that interval. -/
theorem cutRanges_disjoint {remove : Interval} {parts : List Interval} (hp : Positive parts)
    (hd : ∀ r ∈ parts, r = remove ∨ r.2 < remove.1 ∨ remove.2 < r.1) :
    cutRanges remove (parts.map formatRange) =
      .ok ((parts.filter (· ≠ remove)).map formatRange) := by
  induction parts with
  | nil => rfl
  | cons r parts ih =>
    have hrest := ih (fun r hr => hp r (by simp [hr])) (fun r hr => hd r (by simp [hr]))
    have hparse := hp.parse (r := r) (by simp)
    by_cases he : r = remove
    · subst he
      have hcut : cutRange r (formatRange r) = .ok [] := by simp [cutRange, hparse]
      simp [cutRanges, hcut, hrest, bind, Except.bind, pure, Except.pure]
    · have hne : ¬ (r.1 = remove.1 ∧ r.2 = remove.2) := fun h => he (Prod.ext h.1 h.2)
      have havoid : r.2 < remove.1 ∨ r.1 > remove.2 := (hd r (by simp)).resolve_left he
      have hcut : cutRange remove (formatRange r) = .ok [formatRange r] := by
        simp only [cutRange, hparse]
        rw [if_neg hne, if_pos havoid]
      simp [cutRanges, hcut, hrest, he, bind, Except.bind, pure, Except.pure]

/-! One event. -/

/-- The group and the notes follow the live segment ranges; `seen` holds the ids of the
events so far. -/
structure Follows (nb : Nautobot) (live : Segments) (seen : Set SegmentId)
    (parts : List Interval) : Prop where
  text : nb.range.getD [] = join ',' (parts.map formatRange)
  listed : ∀ r, r ∈ parts ↔ ∃ id, live id = some r
  noted : ∀ id r, live id = some r → nb.notes id = some (formatRange r)
  cleared : ∀ id ∈ seen, live id = none → nb.notes id = none

variable {isUpdated : Option Text → Text → Bool} {nb : Nautobot} {live : Segments}
  {seen : Set SegmentId} {parts : List Interval} {args : SegmentArgs}

theorem Follows.positive (h : Follows nb live seen parts) (hl : live.Proper) : Positive parts := by
  intro r hr
  obtain ⟨id, hid⟩ := (h.listed r).mp hr
  exact hl.positive id r hid

/-- The event replaces the listed intervals by `parts'` and captures the note. The note is
skipped only when the write changed nothing, and then it already has its value. -/
theorem Follows.write (h : Follows nb live seen parts) (hl : live.Proper)
    (hl' : (live.apply args).Proper)
    (hu : ∀ old new, old ≠ some new → isUpdated old new = true) (parts' : List Interval)
    (hm : modifyRange args.event args.requestedRange nb.range (nb.notes args.segmentRangeId) =
      .ok (join ',' (parts'.map formatRange)))
    (hlisted : ∀ r, r ∈ parts' ↔ ∃ id, live.apply args id = some r)
    (hsame : parts = parts' → captureSegmentRangeInNotes nb.notes args.segmentRangeId
      args.requestedRange args.event = nb.notes) :
    ∃ nb', updateUcvniRange isUpdated nb args = .ok nb' ∧
      Follows nb' (live.apply args) (insert args.segmentRangeId seen) parts' := by
  obtain ⟨captured, hcap⟩ : ∃ captured, captured = captureSegmentRangeInNotes nb.notes
      args.segmentRangeId args.requestedRange args.event := ⟨_, rfl⟩
  have hpos' : Positive parts' := by
    intro r hr
    obtain ⟨id, hid⟩ := (hlisted r).mp hr
    exact hl'.positive id r hid
  have hnotes : (if isUpdated nb.range (join ',' (parts'.map formatRange)) = true then captured
      else nb.notes) = captured := by
    split
    next => rfl
    next hfalse =>
      have heq : nb.range = some (join ',' (parts'.map formatRange)) :=
        Classical.byContradiction fun hne => hfalse (hu _ _ hne)
      have htext := h.text
      rw [heq, Option.getD_some] at htext
      rw [hcap, hsame (join_formatRange_inj (h.positive hl) hpos' htext.symm)]
  have hother (id : SegmentId) (hid : id ≠ args.segmentRangeId) :
      live.apply args id = live id ∧ captured id = nb.notes id := by
    rw [hcap]
    unfold Segments.apply captureSegmentRangeInNotes
    cases args.event <;> simp [Function.update_of_ne hid]
  have hself : captured args.segmentRangeId =
      (live.apply args args.segmentRangeId).map formatRange := by
    rw [hcap]
    unfold Segments.apply captureSegmentRangeInNotes
    cases args.event <;> simp [SegmentArgs.requestedRange]
  refine ⟨⟨some (join ',' (parts'.map formatRange)), captured⟩, ?_, rfl, hlisted,
    fun id r hid => ?_, fun id hid hnone => ?_⟩
  · simp only [updateUcvniRange, hm, bind, Except.bind, pure, Except.pure, ← hcap, hnotes]
  · by_cases hi : id = args.segmentRangeId
    · subst hi
      exact hself.trans (by rw [hid, Option.map_some])
    · obtain ⟨h1, h2⟩ := hother id hi
      exact h2.trans (h.noted id r (h1 ▸ hid))
  · by_cases hi : id = args.segmentRangeId
    · subst hi
      exact hself.trans (by rw [hnone, Option.map_none])
    · obtain ⟨h1, h2⟩ := hother id hi
      exact h2.trans (h.cleared id (hid.resolve_left hi) (h1 ▸ hnone))

/-- The old interval is cut out of the list; the others stay. -/
theorem Follows.remove (h : Follows nb live seen parts) (hl : live.Proper) {id : SegmentId}
    {old : Interval} (ho : live id = some old) :
    removeSubrange (listedRanges nb.range) (nb.notes id) =
      .ok ((parts.filter (· ≠ old)).map formatRange) := by
  obtain ⟨h1, h2⟩ := hl.positive id old ho
  have hparse : parseRange (formatRange old) = some old :=
    parseRange_formatRange (by omega) (by omega)
  rw [h.noted id old ho, listedRanges_join nb.range parts h.text]
  simp only [removeSubrange, formatRange_ne_nil, if_false, hparse]
  apply cutRanges_disjoint (h.positive hl)
  intro r hr
  obtain ⟨j, hj⟩ := (h.listed r).mp hr
  by_cases hji : j = id
  · subst hji
    exact Or.inl (Option.some.inj (hj.symm.trans ho))
  · exact Or.inr (hl.disjoint j id r old hj ho hji)

/-- Membership in the shortened list: the intervals of the other segment ranges. -/
theorem Follows.mem_remove (h : Follows nb live seen parts) (hl : live.Proper) {id : SegmentId}
    {old : Interval} (ho : live id = some old) (r : Interval) :
    r ∈ parts.filter (· ≠ old) ↔ ∃ j, j ≠ id ∧ live j = some r := by
  simp only [List.mem_filter, decide_eq_true_eq, h.listed r]
  constructor
  · rintro ⟨⟨j, hj⟩, hne⟩
    refine ⟨j, fun hji => hne ?_, hj⟩
    subst hji
    exact Option.some.inj (hj.symm.trans ho)
  · rintro ⟨j, hji, hj⟩
    refine ⟨⟨j, hj⟩, ?_⟩
    rintro rfl
    have := hl.positive j r hj
    have := hl.disjoint j id r r hj ho hji
    omega

/-- Which intervals are live once one segment range has been written. -/
theorem exists_update_iff (live : Segments) (id : SegmentId) (x : Option Interval) (r : Interval) :
    (∃ j, Function.update live id x j = some r) ↔ x = some r ∨ ∃ j, j ≠ id ∧ live j = some r := by
  constructor
  · rintro ⟨j, hj⟩
    by_cases hi : j = id
    · subst hi
      exact Or.inl (by rwa [Function.update_self] at hj)
    · exact Or.inr ⟨j, hi, by rwa [Function.update_of_ne hi] at hj⟩
  · rintro (hx | ⟨j, hi, hj⟩)
    · exact ⟨id, by rw [Function.update_self, hx]⟩
    · exact ⟨j, by rw [Function.update_of_ne hi, hj]⟩

theorem Follows.create (h : Follows nb live seen parts) (hl : live.Proper)
    (he : args.event = .create) (hnew : live args.segmentRangeId = none)
    (hl' : (live.apply args).Proper)
    (hu : ∀ old new, old ≠ some new → isUpdated old new = true) :
    ∃ nb', updateUcvniRange isUpdated nb args = .ok nb' ∧
      Follows nb' (live.apply args) (insert args.segmentRangeId seen) (parts ++ [args.interval]) := by
  have hlist := listedRanges_join nb.range parts h.text
  have hlisted (r : Interval) :
      r ∈ parts ++ [args.interval] ↔ ∃ id, live.apply args id = some r := by
    have hother : (∃ j, live j = some r) ↔ ∃ j, j ≠ args.segmentRangeId ∧ live j = some r :=
      exists_congr fun j => ⟨fun hj => ⟨fun hi => by simp [← hi, hj] at hnew, hj⟩, And.right⟩
    simp only [Segments.apply, he, exists_update_iff, List.mem_append, h.listed r, hother,
      List.mem_singleton, Option.some.injEq, eq_comm (a := r)]
    exact or_comm
  apply h.write hl hl' hu _ _ hlisted
  · intro hsame
    simp at hsame
  · simp [modifyRange, he, hlist, SegmentArgs.requestedRange, pure, Except.pure]

theorem Follows.update (h : Follows nb live seen parts) (hl : live.Proper)
    (he : args.event = .update) {old : Interval} (ho : live args.segmentRangeId = some old)
    (hl' : (live.apply args).Proper)
    (hu : ∀ old new, old ≠ some new → isUpdated old new = true) :
    ∃ nb', updateUcvniRange isUpdated nb args = .ok nb' ∧
      Follows nb' (live.apply args) (insert args.segmentRangeId seen)
        (parts.filter (· ≠ old) ++ [args.interval]) := by
  have hrem := h.remove hl ho
  have hlisted (r : Interval) : r ∈ parts.filter (· ≠ old) ++ [args.interval] ↔
      ∃ id, live.apply args id = some r := by
    simp only [Segments.apply, he, exists_update_iff, List.mem_append, h.mem_remove hl ho r,
      List.mem_singleton, Option.some.injEq, eq_comm (a := r)]
    exact or_comm
  apply h.write hl hl' hu _ _ hlisted
  · -- an unchanged string means the new interval is the old one
    intro hp
    have hmem : old ∈ parts.filter (· ≠ old) ++ [args.interval] :=
      hp ▸ (h.listed old).mpr ⟨_, ho⟩
    have hold : old = args.interval := by simpa using hmem
    simp only [captureSegmentRangeInNotes, he, SegmentArgs.requestedRange, ← hold,
      ← h.noted _ _ ho, Function.update_eq_self]
  · simp [modifyRange, he, hrem, SegmentArgs.requestedRange, bind, Except.bind, pure, Except.pure]

theorem Follows.delete (h : Follows nb live seen parts) (hl : live.Proper)
    (he : args.event = .delete) {old : Interval} (ho : live args.segmentRangeId = some old)
    (hl' : (live.apply args).Proper)
    (hu : ∀ old new, old ≠ some new → isUpdated old new = true) :
    ∃ nb', updateUcvniRange isUpdated nb args = .ok nb' ∧
      Follows nb' (live.apply args) (insert args.segmentRangeId seen)
        (parts.filter (· ≠ old)) := by
  have hrem := h.remove hl ho
  have hlisted (r : Interval) :
      r ∈ parts.filter (· ≠ old) ↔ ∃ id, live.apply args id = some r := by
    simp only [Segments.apply, he, exists_update_iff, h.mem_remove hl ho r, reduceCtorEq,
      false_or]
  apply h.write hl hl' hu _ _ hlisted
  · intro hp
    have hmem : old ∈ parts.filter (· ≠ old) := hp ▸ (h.listed old).mpr ⟨_, ho⟩
    simp at hmem
  · simp [modifyRange, he, hrem, bind, Except.bind, pure, Except.pure]

theorem Follows.step (h : Follows nb live seen parts) (hl : live.Proper)
    (ha : args.Applies live) (hl' : (live.apply args).Proper)
    (hu : ∀ old new, old ≠ some new → isUpdated old new = true) :
    ∃ nb' parts', updateUcvniRange isUpdated nb args = .ok nb' ∧
      Follows nb' (live.apply args) (insert args.segmentRangeId seen) parts' := by
  unfold SegmentArgs.Applies at ha
  cases he : args.event with
  | create =>
    rw [he] at ha
    obtain ⟨nb', hok, hf⟩ := h.create hl he ha hl' hu
    exact ⟨nb', _, hok, hf⟩
  | update =>
    rw [he] at ha
    obtain ⟨old, ho⟩ := Option.ne_none_iff_exists'.mp ha
    obtain ⟨nb', hok, hf⟩ := h.update hl he ho hl' hu
    exact ⟨nb', _, hok, hf⟩
  | delete =>
    rw [he] at ha
    obtain ⟨old, ho⟩ := Option.ne_none_iff_exists'.mp ha
    obtain ⟨nb', hok, hf⟩ := h.delete hl he ho hl' hu
    exact ⟨nb', _, hok, hf⟩

/-! Whole runs. -/

/-- What the group and its notes promise about the live segment ranges. -/
structure Mirrors (nb : Nautobot) (live : Segments) (events : List SegmentArgs) : Prop where
  range : ∃ parts, parsedRanges nb.range = some parts ∧ WellFormed parts ∧
    ∀ v, Covers parts v ↔ ∃ id r, live id = some r ∧ r.1 ≤ v ∧ v ≤ r.2
  note : ∀ id r, live id = some r → nb.notes id = some (formatRange r)
  deleted : ∀ args ∈ events, args.event = .delete → live args.segmentRangeId = none →
    nb.notes args.segmentRangeId = none

/-- The live segment ranges after the events. -/
def liveAfter (events : List SegmentArgs) : Segments := events.foldl Segments.apply fun _ => none

theorem Follows.run (h : Follows nb live seen parts) (hl : live.Proper)
    (hu : ∀ old new, old ≠ some new → isUpdated old new = true) {events : List SegmentArgs}
    (hr : ProperRun live events) :
    ∃ nb' parts', handleEvents isUpdated nb events = .ok nb' ∧
      (events.foldl Segments.apply live).Proper ∧
      Follows nb' (events.foldl Segments.apply live)
        (seen ∪ {id | ∃ args ∈ events, args.segmentRangeId = id}) parts' := by
  induction events generalizing nb live seen parts with
  | nil => exact ⟨nb, parts, rfl, hl, by simpa using h⟩
  | cons args events ih =>
    obtain ⟨ha, hl', hr'⟩ := hr
    obtain ⟨nb₁, parts₁, hok, hf⟩ := h.step hl ha hl' hu
    obtain ⟨nb', parts', hrun, hproper, hf'⟩ := ih hf hl' hr'
    refine ⟨nb', parts', ?_, hproper, ?_⟩
    · simp only [handleEvents, hok, bind, Except.bind, hrun]
    · have hseen : insert args.segmentRangeId seen ∪ {id | ∃ a ∈ events, a.segmentRangeId = id} =
          seen ∪ {id | ∃ a ∈ args :: events, a.segmentRangeId = id} := by
        ext id
        simp only [Set.mem_union, Set.mem_insert_iff, Set.mem_ofPred_eq, List.mem_cons,
          exists_eq_or_imp, eq_comm (a := id)]
        tauto
      rw [← hseen]
      exact hf'

theorem Follows.mirrors (h : Follows nb live seen parts) (hl : live.Proper)
    {events : List SegmentArgs} (hs : ∀ args ∈ events, args.segmentRangeId ∈ seen) :
    Mirrors nb live events := by
  have hpos := h.positive hl
  refine ⟨⟨parts, parsedRanges_join hpos h.text, fun r hr => (hpos r hr).2, fun v => ?_⟩, h.noted,
    fun args hm _ hn => h.cleared _ (hs args hm) hn⟩
  simp only [Covers, h.listed]
  constructor
  · rintro ⟨r, ⟨id, hid⟩, hv⟩
    exact ⟨id, r, hid, hv⟩
  · rintro ⟨id, r, hid, hv⟩
    exact ⟨r, ⟨id, hid⟩, hv⟩

/-- Every run of applicable events from an empty range goes through, and leaves the group
and the notes mirroring the live segment ranges. `handleEvents` stops at the first exception,
so the statement covers the state after each event of a longer run. -/
theorem handleEvents_mirrors (isUpdated : Option Text → Text → Bool)
    (hu : ∀ old new, old ≠ some new → isUpdated old new = true) (start : Nautobot)
    (hstart : start.range = none ∨ start.range = some []) (events : List SegmentArgs)
    (hr : ProperRun (fun _ => none) events) :
    ∃ nb, handleEvents isUpdated start events = .ok nb ∧ Mirrors nb (liveAfter events) events := by
  have hinit : Follows start (fun _ => none) ∅ [] := by
    refine ⟨?_, by simp, by simp, by simp⟩
    rcases hstart with h | h <;> simp [h, join]
  have hl : Segments.Proper fun _ => none := ⟨by simp, by simp⟩
  obtain ⟨nb, parts, hok, hproper, hf⟩ := hinit.run hl hu hr
  exact ⟨nb, hok, hf.mirrors hproper fun args hm => Or.inr ⟨args, hm, rfl⟩⟩

/-- The first range moves onto part of its old interval while a second one is live, and the
second one goes away. -/
def moveAndDelete : List SegmentArgs :=
  [⟨.create, "a", 10, 20⟩, ⟨.create, "b", 30, 40⟩, ⟨.update, "a", 15, 25⟩, ⟨.delete, "b", 30, 40⟩]

def twoSegments (a b : Option Interval) : Segments := fun id =>
  if id = "a" then a else if id = "b" then b else none

theorem twoSegments_proper {a b : Option Interval} (ha : ∀ r, a = some r → 0 < r.1 ∧ r.1 ≤ r.2)
    (hb : ∀ r, b = some r → 0 < r.1 ∧ r.1 ≤ r.2)
    (hab : ∀ r s, a = some r → b = some s → r.2 < s.1) : (twoSegments a b).Proper := by
  constructor
  · intro id r h
    unfold twoSegments at h
    split_ifs at h
    · exact ha r h
    · exact hb r h
  · intro i j r s hi hj hij
    unfold twoSegments at hi hj
    split_ifs at hi hj with h1 h2 h3 h4 h5
    · exact absurd (h1.trans h2.symm) hij
    · exact Or.inl (hab r s hi hj)
    · exact Or.inr (hab s r hj hi)
    · exact absurd (h4.trans (by assumption : j = "b").symm) hij

theorem handleEvents_mirrors_moveAndDelete :
    ∃ nb, handleEvents (fun old new => decide (old ≠ some new)) ⟨none, fun _ => none⟩
        moveAndDelete = .ok nb ∧ Mirrors nb (liveAfter moveAndDelete) moveAndDelete := by
  apply handleEvents_mirrors _ (fun old new h => by simpa using h) _ (Or.inl rfl)
  have h1 : Segments.apply (fun _ => none) ⟨.create, "a", 10, 20⟩ =
      twoSegments (some (10, 20)) none := by
    funext id
    simp [Segments.apply, twoSegments, SegmentArgs.interval, Function.update_apply]
  have h2 : (twoSegments (some (10, 20)) none).apply ⟨.create, "b", 30, 40⟩ =
      twoSegments (some (10, 20)) (some (30, 40)) := by
    funext id
    simp only [Segments.apply, twoSegments, SegmentArgs.interval, Function.update_apply]
    split_ifs <;> simp_all
  have h3 : (twoSegments (some (10, 20)) (some (30, 40))).apply ⟨.update, "a", 15, 25⟩ =
      twoSegments (some (15, 25)) (some (30, 40)) := by
    funext id
    simp only [Segments.apply, twoSegments, SegmentArgs.interval, Function.update_apply]
    split_ifs <;> rfl
  have h4 : (twoSegments (some (15, 25)) (some (30, 40))).apply ⟨.delete, "b", 30, 40⟩ =
      twoSegments (some (15, 25)) none := by
    funext id
    simp only [Segments.apply, twoSegments, Function.update_apply]
    split_ifs <;> simp_all
  simp only [ProperRun, moveAndDelete, h1, h2, h3, h4]
  refine ⟨rfl, twoSegments_proper ?_ ?_ ?_, rfl, twoSegments_proper ?_ ?_ ?_, ?_,
    twoSegments_proper ?_ ?_ ?_, ?_, twoSegments_proper ?_ ?_ ?_, trivial⟩
  all_goals simp [SegmentArgs.Applies, twoSegments]

end Understack.Workflows.Ucvni
