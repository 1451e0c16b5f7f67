import Understack.Lib.Paging
import Understack.Lib.PyText
import Mathlib.Algebra.Ring.Nat

/-! The listing of a collection of Nautobot page by page. -/
namespace Understack.Nautobotop.Paginated
open PyText Paging

def defaultPageSize : ℤ := 1000

/-- The conversion to `int32`, and the result of its arithmetic. -/
def int32 (n : ℤ) : ℤ := Int.bmod n (2 ^ 32)

/-- The text of an error and the body of the response. -/
structure CallError where
  error : Text
  responseBody : Text
  deriving DecidableEq

/-- A call by its number in the run, with limit and offset: the results of the page and the total
count, or an error. -/
abbrev PaginatedListCall (T : Type) := ℕ → ℤ → ℤ → Except CallError (List T × ℤ)

/-- The arguments of a call of `reportFunc`. -/
structure Report where
  key : Text
  line : List Text
  deriving DecidableEq

structure Listing (T : Type) where
  results : List T
  reports : List Report
  deriving DecidableEq

variable {T : Type}

def reportOf (operationName : Text) (additionalParams : List Text) (err : CallError) : Report :=
  ⟨operationName,
    ["failed to execute paginated API call".toList, "operation".toList, operationName,
      "error".toList, err.error, "response_body".toList, err.responseBody] ++ additionalParams⟩

/-- The loop of `PaginatedList` from a call on; none when the fuel runs out. -/
def listFrom (apiCall : PaginatedListCall T) (operationName : Text) (additionalParams : List Text) :
    ℕ → ℕ → List T → ℤ → Option (Listing T)
  | 0, _, _, _ => none
  | fuel + 1, call, allResults, offset =>
    match apiCall call defaultPageSize offset with
    | .error err => some ⟨allResults, [reportOf operationName additionalParams err]⟩
    | .ok (results, totalCount) =>
      let allResults := allResults ++ results
      if totalCount ≤ int32 allResults.length ∨ results.length = 0 then some ⟨allResults, []⟩
      else
        listFrom apiCall operationName additionalParams fuel (call + 1) allResults
          (int32 (offset + defaultPageSize))

def paginatedList (apiCall : PaginatedListCall T) (operationName : Text)
    (additionalParams : List Text) (fuel : ℕ) : Option (Listing T) :=
  listFrom apiCall operationName additionalParams fuel 0 [] 0

def Returns (apiCall : PaginatedListCall T) (operationName : Text) (additionalParams : List Text)
    (listing : Listing T) : Prop :=
  ∃ fuel, paginatedList apiCall operationName additionalParams fuel = some listing

/-- A server with at most `cap` items on a page, whose calls fail as `failure` says. -/
def serve (items : List T) (cap : ℕ) (failure : ℕ → Option CallError) : PaginatedListCall T :=
  fun call limit offset =>
    match failure call with
    | some err => .error err
    | none => .ok (page items (min limit.toNat cap) offset.toNat, items.length)

/-- The whole list without failing calls, a prefix of it otherwise. -/
structure WholeOrPrefix (items : List T) (failure : ℕ → Option CallError) (listing : Listing T) :
    Prop where
  whole : (∀ call, failure call = none) → listing = ⟨items, []⟩
  unreported : listing.reports = [] → listing.results = items
  isPrefix : listing.results <+: items

variable {items : List T} {cap : ℕ} {failure : ℕ → Option CallError} {operationName : Text}
  {additionalParams : List Text}

theorem int32_of_lt {n : ℕ} (h : n < 2 ^ 31) : int32 n = n :=
  Int.bmod_eq_of_le (by omega) (by omega)

/-- What the first `n` calls collect. -/
def collected (items : List T) (cap n : ℕ) : List T := firstPages items (min 1000 cap) 1000 n

theorem length_collected_le (items : List T) (cap n : ℕ) :
    (collected items cap n).length ≤ items.length :=
  Nat.le_trans (length_firstPages_le (Nat.min_le_left 1000 cap) n) (Nat.min_le_right _ _)

/-- How the loop ends at call `n`: the call fails, or it is the last that is needed. -/
inductive EndsAt (items : List T) (cap : ℕ) (failure : ℕ → Option CallError) (operationName : Text)
    (additionalParams : List Text) (n : ℕ) : Listing T → Prop where
  | failed {err : CallError} (hfailure : failure n = some err) :
    EndsAt items cap failure operationName additionalParams n
      ⟨collected items cap n, [reportOf operationName additionalParams err]⟩
  | done (hlen : items.length ≤ (collected items cap (n + 1)).length ∨ items.length ≤ 1000 * n) :
    EndsAt items cap failure operationName additionalParams n ⟨collected items cap (n + 1), []⟩

section Step
variable {apiCall : PaginatedListCall T} {fuel call : ℕ} {allResults results : List T}
  {offset totalCount : ℤ}

theorem listFrom_error {err : CallError} (h : apiCall call defaultPageSize offset = .error err) :
    listFrom apiCall operationName additionalParams (fuel + 1) call allResults offset =
      some ⟨allResults, [reportOf operationName additionalParams err]⟩ := by
  rw [listFrom, h]

theorem listFrom_last (h : apiCall call defaultPageSize offset = .ok (results, totalCount))
    (hlast : totalCount ≤ int32 (allResults ++ results).length ∨ results = []) :
    listFrom apiCall operationName additionalParams (fuel + 1) call allResults offset =
      some ⟨allResults ++ results, []⟩ := by
  rw [listFrom, h]
  exact if_pos (hlast.imp_right List.length_eq_zero_iff.mpr)

theorem listFrom_next (h : apiCall call defaultPageSize offset = .ok (results, totalCount))
    (hmore : int32 (allResults ++ results).length < totalCount) (hne : results ≠ []) :
    listFrom apiCall operationName additionalParams (fuel + 1) call allResults offset =
      listFrom apiCall operationName additionalParams fuel (call + 1) (allResults ++ results)
        (int32 (offset + defaultPageSize)) := by
  rw [listFrom, h]
  exact if_neg (not_or.mpr ⟨Int.not_le.mpr hmore, mt List.length_eq_zero_iff.mp hne⟩)

end Step

theorem serve_ok (items : List T) (cap : ℕ) {n : ℕ} (h : failure n = none) :
    serve items cap failure n defaultPageSize ↑(1000 * n) =
      .ok (page items (min 1000 cap) (1000 * n), (items.length : ℤ)) := by
  rw [serve, h]
  rfl

theorem serve_error {n : ℕ} {offset : ℤ} {err : CallError} (h : failure n = some err) :
    serve items cap failure n defaultPageSize offset = .error err := by
  rw [serve, h]

/-- One call of the loop: it ends there, or goes on with the next page. -/
theorem listFrom_step (failure : ℕ → Option CallError) (operationName : Text)
    (additionalParams : List Text) (hlen : items.length + 1000 < 2 ^ 31) (hcap : 1 ≤ cap) (n : ℕ) :
    (∃ listing, EndsAt items cap failure operationName additionalParams n listing ∧ ∀ fuel,
      listFrom (serve items cap failure) operationName additionalParams (fuel + 1) n
        (collected items cap n) ↑(1000 * n) = some listing) ∨
    1000 * n < items.length ∧ ∀ fuel,
      listFrom (serve items cap failure) operationName additionalParams (fuel + 1) n
        (collected items cap n) ↑(1000 * n) =
      listFrom (serve items cap failure) operationName additionalParams fuel (n + 1)
        (collected items cap (n + 1)) ↑(1000 * (n + 1)) := by
  cases hfailure : failure n with
  | some err =>
    exact Or.inl ⟨_, .failed hfailure, fun fuel => listFrom_error (serve_error hfailure)⟩
  | none =>
    have hcall := serve_ok items cap hfailure
    have hpage : collected items cap n ++ page items (min 1000 cap) (1000 * n) =
        collected items cap (n + 1) := (firstPages_succ n).symm
    have hlength := length_collected_le items cap (n + 1)
    have hint : int32 (collected items cap (n + 1)).length = (collected items cap (n + 1)).length :=
      int32_of_lt (by omega)
    have hempty : page items (min 1000 cap) (1000 * n) = [] ↔ items.length ≤ 1000 * n :=
      page_eq_nil_iff (by omega)
    by_cases hstop : items.length ≤ (collected items cap (n + 1)).length ∨ items.length ≤ 1000 * n
    · refine Or.inl ⟨_, .done hstop, fun fuel => ?_⟩
      rw [← hpage]
      refine listFrom_last hcall ?_
      rw [hpage, hint]
      exact hstop.imp Int.ofNat_le.mpr hempty.mpr
    · rw [not_or, Nat.not_le, Nat.not_le] at hstop
      refine Or.inr ⟨hstop.2, fun fuel => ?_⟩
      have hoffset : int32 (↑(1000 * n) + defaultPageSize) = ↑(1000 * (n + 1)) :=
        int32_of_lt (n := 1000 * (n + 1)) (by omega)
      rw [← hoffset, ← hpage]
      refine listFrom_next hcall ?_ fun hnil => ?_
      · rw [hpage, hint]
        exact Int.ofNat_lt.mpr hstop.1
      · exact absurd (hempty.mp hnil) (by omega)

/-- Whatever the loop returns, it ended at some call. -/
theorem endsAt_of_listFrom (hlen : items.length + 1000 < 2 ^ 31) (hcap : 1 ≤ cap) {fuel n : ℕ}
    {listing : Listing T}
    (h : listFrom (serve items cap failure) operationName additionalParams fuel n
      (collected items cap n) ↑(1000 * n) = some listing) :
    ∃ k, EndsAt items cap failure operationName additionalParams k listing := by
  induction fuel generalizing n with
  | zero => cases h
  | succ fuel ih =>
    obtain ⟨listing', hends, hrun⟩ | ⟨-, hrun⟩ := listFrom_step failure
      operationName additionalParams hlen hcap n
    · rw [hrun fuel, Option.some.injEq] at h
      exact ⟨n, h ▸ hends⟩
    · rw [hrun fuel] at h
      exact ih h

/-- The offset passes the end of the list, so that the loop returns. -/
theorem exists_listFrom (failure : ℕ → Option CallError) (operationName : Text)
    (additionalParams : List Text) (hlen : items.length + 1000 < 2 ^ 31) (hcap : 1 ≤ cap)
    {fuel n : ℕ} (hn : n ≤ items.length) (hfuel : items.length < n + fuel) :
    ∃ listing, listFrom (serve items cap failure) operationName additionalParams fuel n
      (collected items cap n) ↑(1000 * n) = some listing := by
  induction fuel generalizing n with
  | zero => omega
  | succ fuel ih =>
    obtain ⟨listing, -, hrun⟩ | ⟨hmore, hrun⟩ := listFrom_step failure
      operationName additionalParams hlen hcap n
    · exact ⟨listing, hrun fuel⟩
    · rw [hrun fuel]
      exact ih (by omega) (by omega)

theorem exists_returns (failure : ℕ → Option CallError) (operationName : Text)
    (additionalParams : List Text) (hlen : items.length + 1000 < 2 ^ 31) (hcap : 1 ≤ cap) :
    ∃ listing, Returns (serve items cap failure) operationName additionalParams listing := by
  have hfuel : items.length < 0 + (items.length + 1) := by omega
  obtain ⟨listing, hlisting⟩ := exists_listFrom failure operationName additionalParams hlen hcap
    (Nat.zero_le items.length) hfuel
  exact ⟨listing, _, hlisting⟩

theorem Returns.endsAt (hlen : items.length + 1000 < 2 ^ 31) (hcap : 1 ≤ cap)
    {listing : Listing T}
    (h : Returns (serve items cap failure) operationName additionalParams listing) :
    ∃ k, EndsAt items cap failure operationName additionalParams k listing := by
  obtain ⟨fuel, hfuel⟩ := h
  exact endsAt_of_listFrom (n := 0) hlen hcap hfuel

theorem EndsAt.results_of_unreported {k : ℕ} {listing : Listing T}
    (h : EndsAt items cap failure operationName additionalParams k listing)
    (hreports : listing.reports = []) : listing.results = collected items cap (k + 1) := by
  cases h with
  | failed => exact (List.cons_ne_nil _ _ hreports).elim
  | done => rfl

theorem complete_iff : Complete items (min 1000 cap) 1000 ↔ 1000 ≤ cap ∨ items.length ≤ cap := by
  rw [Complete]
  omega

/-- The end of a run over complete pages. -/
theorem EndsAt.wholeOrPrefix {k : ℕ} {listing : Listing T}
    (h : EndsAt items cap failure operationName additionalParams k listing)
    (hcomplete : Complete items (min 1000 cap) 1000) : WholeOrPrefix items failure listing := by
  have hsize : min 1000 cap ≤ 1000 := Nat.min_le_left 1000 cap
  cases h with
  | failed hfailure =>
    refine ⟨fun hnone => ?_, fun hreports => (List.cons_ne_nil _ _ hreports).elim,
      hcomplete.isPrefix hsize k⟩
    rw [hnone k] at hfailure
    cases hfailure
  | done hlen =>
    have hwhole : collected items cap (k + 1) = items := by
      obtain hlen | hlen := hlen
      · exact (hcomplete.isPrefix hsize (k + 1)).eq_of_length_le hlen
      · exact hcomplete.eq_of_le hsize hlen
    rw [hwhole]
    exact ⟨fun _ => rfl, fun _ => rfl, List.prefix_rfl⟩

/-- The listing is the whole list, and a prefix of it when a call fails, exactly when the server
admits pages of the requested size or has the whole list on the first page. -/
theorem listing_whole_iff (items : List T) (hlen : items.length + 1000 < 2 ^ 31) {cap : ℕ}
    (hcap : 1 ≤ cap) (operationName : Text) (additionalParams : List Text) :
    (∀ failure : ℕ → Option CallError,
      (∃ listing, Returns (serve items cap failure) operationName additionalParams listing) ∧
        ∀ listing, Returns (serve items cap failure) operationName additionalParams listing →
          WholeOrPrefix items failure listing) ↔
      1000 ≤ cap ∨ items.length ≤ cap := by
  rw [← complete_iff]
  constructor
  · intro h
    obtain ⟨⟨listing, hreturns⟩, hwhole⟩ := h fun _ => none
    obtain rfl := (hwhole listing hreturns).whole fun _ => rfl
    obtain ⟨k, hends⟩ := hreturns.endsAt hlen hcap
    exact complete_of_eq (Nat.min_le_left 1000 cap) (hends.results_of_unreported rfl).symm
  · intro hcomplete failure
    refine ⟨exists_returns failure operationName additionalParams hlen hcap, fun listing h => ?_⟩
    obtain ⟨k, hends⟩ := h.endsAt hlen hcap
    exact hends.wholeOrPrefix hcomplete

theorem three_items_listed :
    Returns (serve [1, 2, 3] 3 fun _ => none) "ListAllVlans".toList [] ⟨[1, 2, 3], []⟩ := by
  have hcap : 1000 ≤ 3 ∨ [1, 2, 3].length ≤ 3 := by decide
  obtain ⟨⟨listing, hreturns⟩, hwhole⟩ := (listing_whole_iff [1, 2, 3] (by decide) (by decide)
    "ListAllVlans".toList []).mpr hcap fun _ => none
  exact (hwhole listing hreturns).whole (fun _ => rfl) ▸ hreturns

/-- With one item on a page the second request asks for the items from the thousandth on. -/
theorem second_item_lost :
    Returns (serve [1, 2, 3] 1 fun _ => none) "ListAllVlans".toList [] ⟨[1], []⟩ ∧
      ¬WholeOrPrefix [1, 2, 3] (fun _ => none) ⟨[1], []⟩ := by
  refine ⟨⟨2, by decide⟩, fun h => ?_⟩
  exact absurd (h.whole fun _ => rfl) (by decide)

end Understack.Nautobotop.Paginated
