import Understack.Lib.Intervals
import Understack.Lib.PyText
import Mathlib.Algebra.Group.Int.Defs

/-! The configured VNI ranges of `l3_router/understack_vni_db.py`. -/
namespace Understack.Neutron.Vni
open PyText Intervals

/-- `MIN_VXLAN_VNI` and `MAX_VXLAN_VNI` of neutron-lib. -/
def minVni : ℤ := 1

def maxVni : ℤ := 2 ^ 24 - 1

abbrev RouterId := String

inductive VniError where
  | invalidRange (entry : Text) (reason : Text)
  | notInRange (vni : ℤ) (ranges : Text)
  | inUse (vni : ℤ) (routerId : Option RouterId)
  | routerHasVni (routerId : RouterId) (existingVni requestedVni : ℤ)
  | noAvailable (ranges : Text)
  deriving DecidableEq, Repr

def formatVniRanges (ranges : List Interval) : Text :=
  join ',' (ranges.map fun r => ofInt r.1 ++ ':' :: ofInt r.2)

/-- One turn of the loop of `parse_vni_ranges`. -/
def parseVniRange (entry : Text) : Except VniError Interval :=
  let entry := strip entry
  if entry = [] then .error (.invalidRange entry "empty range".toList)
  else
    let bounds := (splitOnce ':' entry).getD (entry, entry)
    match int? bounds.1, int? bounds.2 with
    | some start, some stop =>
      if start > stop then
        .error (.invalidRange entry "range start must be less than or equal to end".toList)
      else if start < minVni ∨ stop > maxVni then
        .error (.invalidRange entry
          ("range must be within ".toList ++ ofInt minVni ++ ':' :: ofInt maxVni))
      else .ok (start, stop)
    | _, _ => .error (.invalidRange entry "range bounds must be integers".toList)

def parseEntries : List Text → Except VniError (List Interval)
  | [] => .ok []
  | entry :: entries => do
    let range ← parseVniRange entry
    let ranges ← parseEntries entries
    return range :: ranges

def mergeRanges (ranges : List Interval) : List Interval := mergeSorted ranges

def parseVniRanges (vniRanges : List Text) : Except VniError (List Interval) := do
  let parsed ← parseEntries vniRanges
  if parsed = [] then
    throw (.invalidRange (join ',' vniRanges) "at least one range is required".toList)
  return mergeRanges parsed

/-- The id lies in the interval of one of the configured entries. -/
def Configured (vniRanges : List Text) (vni : ℤ) : Prop :=
  ∃ entry ∈ vniRanges, ∃ range, parseVniRange entry = .ok range ∧ range.1 ≤ vni ∧ vni ≤ range.2

theorem parseEntries_mem {entries : List Text} {ranges : List Interval}
    (h : parseEntries entries = .ok ranges) :
    ∀ r ∈ ranges, ∃ entry ∈ entries, parseVniRange entry = .ok r := by
  induction entries generalizing ranges with
  | nil =>
    simp only [parseEntries, Except.ok.injEq] at h
    simp [← h]
  | cons entry entries ih =>
    cases he : parseVniRange entry with
    | error e => simp [parseEntries, he, bind, Except.bind] at h
    | ok range =>
      cases hr : parseEntries entries with
      | error e => simp [parseEntries, he, hr, bind, Except.bind] at h
      | ok rest =>
        have hcons : range :: rest = ranges := by
          simpa [parseEntries, he, hr, bind, Except.bind, pure, Except.pure] using h
        subst hcons
        intro r hm
        rcases List.mem_cons.mp hm with rfl | hm
        · exact ⟨entry, by simp, he⟩
        · obtain ⟨e, hmem, hparse⟩ := ih hr r hm
          exact ⟨e, by simp [hmem], hparse⟩

theorem parseVniRanges_configured {vniRanges : List Text} {ranges : List Interval}
    (h : parseVniRanges vniRanges = .ok ranges) {vni : ℤ} (hv : Covers ranges vni) :
    Configured vniRanges vni := by
  cases hp : parseEntries vniRanges with
  | error e => simp [parseVniRanges, hp, bind, Except.bind] at h
  | ok parsed =>
    by_cases hnil : parsed = []
    · simp [parseVniRanges, hp, hnil, bind, Except.bind, throw, throwThe, MonadExceptOf.throw] at h
    · have hm : mergeRanges parsed = ranges := by
        simpa [parseVniRanges, hp, hnil, bind, Except.bind, pure, Except.pure] using h
      rw [← hm] at hv
      obtain ⟨r, hr, h1, h2⟩ := covers_of_mergeSorted hv
      obtain ⟨entry, hmem, hparse⟩ := parseEntries_mem hp r hr
      exact ⟨entry, hmem, r, hparse, h1, h2⟩

end Understack.Neutron.Vni
