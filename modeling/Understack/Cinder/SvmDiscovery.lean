import Mathlib.Data.List.Dedup
import Mathlib.Data.List.Induction
import Understack.Lib.PyText

/-! Which SVM libraries the driver holds: `do_setup` and `check_for_setup_error` at the start, then
one refresh at each tick of a looping call. The two parts treat an SVM that cannot be set up
differently, and a looping call whose function raises never runs again. -/
namespace Understack.Cinder
open PyText

/-- What one pass over the cluster meets: the names listed, or none where the listing raises, and
for each SVM whether its library's `do_setup` and `check_for_setup_error` return. -/
structure Pass where
  listing : Option (List Text)
  doSetup : Text → Bool
  checkSetup : Text → Bool

/-- The setup of a library succeeds as a whole. -/
def Pass.sets (o : Pass) (svm : Text) : Bool := o.doSetup svm && o.checkSetup svm

/-- The names of the loaded libraries, and whether the looping call is running. -/
structure Discovery where
  libraries : List Text
  looping : Bool
  deriving DecidableEq

/-- The loop of `do_setup`: the libraries after it, and whether it ends without an exception. -/
def setupLoop (ok : Text → Bool) : List Text → List Text → List Text × Bool
  | libs, [] => (libs, true)
  | libs, svm :: svms =>
    if svm ∈ libs then setupLoop ok libs svms
    else if ok svm then setupLoop ok (libs ++ [svm]) svms
    else (libs, false)

def doSetup (o : Pass) (libs : List Text) : List Text × Bool :=
  match o.listing with
  | some svms => setupLoop o.doSetup libs svms
  | none => (libs, false)

def checkForSetupError (interval : ℤ) (o : Pass) (d : Discovery) : Discovery where
  libraries := d.libraries.filter o.checkSetup
  looping := d.looping || decide (0 < interval)

/-- The start of the backend; an exception of `do_setup` leaves it there. -/
def startUp (interval : ℤ) (o : Pass) : Discovery :=
  match doSetup o [] with
  | (libs, true) => checkForSetupError interval o ⟨libs, false⟩
  | (libs, false) => ⟨libs, false⟩

/-- `_actual_refresh_svm_libraries`; no libraries where it raises. -/
def refreshSvmLibraries (o : Pass) (libs : List Text) : Option (List Text) :=
  match o.listing with
  | none => none
  | some svms =>
    let kept := libs.filter (· ∈ svms)
    let newSvms := svms.dedup.filter (· ∉ libs)
    some (newSvms.foldl (fun libs svm => if o.sets svm then libs ++ [svm] else libs) kept)

/-- An interval of the looping call. -/
def tick (d : Discovery) (o : Pass) : Discovery :=
  if d.looping then
    match refreshSvmLibraries o d.libraries with
    | some libs => ⟨libs, true⟩
    | none => ⟨d.libraries, false⟩
  else d

/-- The driver after its start and some intervals. -/
def discover (interval : ℤ) (start : Pass) (ticks : List Pass) : Discovery :=
  ticks.foldl tick (startUp interval start)

/-- The SVM is in the last listing that succeeded, and its setup has succeeded since it last
appeared there. The passes are given with the last one first. -/
def Settled : List Pass → Text → Prop
  | [], _ => False
  | o :: past, svm =>
    match o.listing with
    | none => Settled past svm
    | some svms => svm ∈ svms ∧ (o.sets svm = true ∨ Settled past svm)

instance Settled.decidable : ∀ passes svm, Decidable (Settled passes svm)
  | [], _ => instDecidableFalse
  | o :: past, svm =>
    have := Settled.decidable past svm
    match h : o.listing with
    | none => decidable_of_iff (Settled past svm) (by simp [Settled, h])
    | some svms =>
      decidable_of_iff (svm ∈ svms ∧ (o.sets svm = true ∨ Settled past svm)) (by simp [Settled, h])

theorem setupLoop_eq (ok : Text → Bool) (libs svms : List Text) (h : ∀ s ∈ svms, ok s = true) :
    (setupLoop ok libs svms).2 = true ∧
      ∀ s, s ∈ (setupLoop ok libs svms).1 ↔ s ∈ libs ∨ s ∈ svms := by
  induction svms generalizing libs with
  | nil => simp [setupLoop]
  | cons svm svms ih =>
    have hrest : ∀ s ∈ svms, ok s = true := fun s hs => h s (List.mem_cons_of_mem svm hs)
    have hsvm : ok svm = true := h svm List.mem_cons_self
    by_cases hmem : svm ∈ libs
    · obtain ⟨hok, hiff⟩ := ih libs hrest
      simp only [setupLoop, if_pos hmem]
      refine ⟨hok, fun s => ?_⟩
      rw [hiff, List.mem_cons]
      constructor
      · rintro (hs | hs)
        · exact Or.inl hs
        · exact Or.inr (Or.inr hs)
      · rintro (hs | rfl | hs)
        · exact Or.inl hs
        · exact Or.inl hmem
        · exact Or.inr hs
    · obtain ⟨hok, hiff⟩ := ih (libs ++ [svm]) hrest
      simp only [setupLoop, if_neg hmem, hsvm, if_true]
      refine ⟨hok, fun s => ?_⟩
      rw [hiff, List.mem_append, List.mem_singleton, List.mem_cons, or_assoc]

theorem addLoop_eq (ok : Text → Bool) (libs svms : List Text) :
    svms.foldl (fun libs svm => if ok svm then libs ++ [svm] else libs) libs =
      libs ++ svms.filter ok := by
  induction svms generalizing libs with
  | nil => simp
  | cons svm svms ih =>
    rw [List.foldl_cons, ih]
    by_cases hok : ok svm = true
    · simp [hok]
    · simp [hok]

theorem mem_startUp (interval : ℤ) {start : Pass} {svms : List Text}
    (hlisting : start.listing = some svms) (hsetup : ∀ s ∈ svms, start.doSetup s = true) :
    (startUp interval start).looping = decide (0 < interval) ∧
      ∀ s, s ∈ (startUp interval start).libraries ↔ Settled [start] s := by
  obtain ⟨hok, hiff⟩ := setupLoop_eq start.doSetup [] svms hsetup
  have hstart : startUp interval start =
      checkForSetupError interval start ⟨(setupLoop start.doSetup [] svms).1, false⟩ := by
    unfold startUp
    simp only [doSetup, hlisting]
    split
    · next libs heq => rw [heq]
    · next libs heq =>
      rw [heq] at hok
      cases hok
  rw [hstart]
  refine ⟨Bool.false_or _, fun s => ?_⟩
  simp only [checkForSetupError, List.mem_filter, hiff, List.not_mem_nil, false_or, Settled,
    hlisting, Pass.sets, Bool.and_eq_true, or_false]
  constructor
  · rintro ⟨hs, hcheck⟩
    exact ⟨hs, hsetup s hs, hcheck⟩
  · rintro ⟨hs, -, hcheck⟩
    exact ⟨hs, hcheck⟩

/-- An interval whose listing succeeds brings the libraries of a running loop up to date, whatever
becomes of the single SVMs. -/
theorem tick_settled {d : Discovery} {o : Pass} {past : List Pass} (hloop : d.looping = true)
    (hlisting : o.listing.isSome = true) (hd : ∀ s, s ∈ d.libraries ↔ Settled past s) :
    (tick d o).looping = true ∧ ∀ s, s ∈ (tick d o).libraries ↔ Settled (o :: past) s := by
  obtain ⟨svms, hsvms⟩ := Option.isSome_iff_exists.mp hlisting
  simp only [tick, hloop, if_true, refreshSvmLibraries, hsvms, addLoop_eq, Settled, true_and]
  intro s
  simp only [List.mem_append, List.mem_filter, List.mem_dedup, decide_eq_true_eq, hd]
  constructor
  · rintro (⟨hpast, hs⟩ | ⟨⟨hs, -⟩, hsets⟩)
    · exact ⟨hs, Or.inr hpast⟩
    · exact ⟨hs, Or.inl hsets⟩
  · rintro ⟨hs, hsets | hpast⟩
    · by_cases hpast : Settled past s
      · exact Or.inl ⟨hpast, hs⟩
      · exact Or.inr ⟨⟨hs, hpast⟩, hsets⟩
    · exact Or.inl ⟨hpast, hs⟩

theorem discover_settled {interval : ℤ} {start : Pass} {svms : List Text} {ticks : List Pass}
    (hinterval : 0 < interval) (hlisting : start.listing = some svms)
    (hsetup : ∀ s ∈ svms, start.doSetup s = true)
    (hticks : ∀ o ∈ ticks, o.listing.isSome = true) :
    (discover interval start ticks).looping = true ∧
      ∀ s, s ∈ (discover interval start ticks).libraries ↔
        Settled (ticks.reverse ++ [start]) s := by
  induction ticks using List.reverseRecOn with
  | nil =>
    obtain ⟨hloop, hiff⟩ := mem_startUp interval hlisting hsetup
    exact ⟨hloop.trans (decide_eq_true hinterval), hiff⟩
  | append_singleton ticks o ih =>
    obtain ⟨hloop, hiff⟩ := ih fun p hp => hticks p (List.mem_append_left _ hp)
    have ho := hticks o (List.mem_append_right _ (List.mem_singleton_self o))
    have hstep := tick_settled hloop ho hiff
    simpa [discover, List.foldl_append, List.reverse_append] using hstep

/-- A history of the driver: its start, and the intervals after it, of which there are some only
where a positive discovery interval is configured. -/
structure History where
  interval : ℤ
  start : Pass
  ticks : List Pass
  timer : ticks ≠ [] → 0 < interval

/-- In every history in which the first listing succeeds, every SVM listed there survives
`do_setup`, and no later listing fails, the driver holds after the start and after every interval
the libraries of the listed SVMs whose setup has succeeded since they appeared. -/
theorem loaded_iff_settled (h : History) {svms : List Text}
    (hlisting : h.start.listing = some svms) (hsetup : ∀ s ∈ svms, h.start.doSetup s = true)
    (hticks : ∀ o ∈ h.ticks, o.listing.isSome = true) :
    ∀ pre, pre <+: h.ticks → ∀ s, s ∈ (discover h.interval h.start pre).libraries ↔
      Settled (pre.reverse ++ [h.start]) s := by
  intro pre hpre
  by_cases hnil : pre = []
  · subst hnil
    exact (mem_startUp h.interval hlisting hsetup).2
  · have hne : h.ticks ≠ [] := by
      intro hempty
      rw [hempty] at hpre
      exact hnil (List.prefix_nil.mp hpre)
    have hpreTicks : ∀ o ∈ pre, o.listing.isSome = true := fun o ho => hticks o (hpre.subset ho)
    exact (discover_settled (h.timer hne) hlisting hsetup hpreTicks).2

/-- `os-a` fails its check at the start and is set up at the first interval, at which `os-b` has
gone and `os-c` fails. -/
def recoveringHistory : History where
  interval := 300
  start := ⟨some ["os-a".toList, "os-b".toList], fun _ => true, fun s => s == "os-b".toList⟩
  ticks := [⟨some ["os-a".toList, "os-c".toList], fun s => s == "os-a".toList, fun _ => true⟩]
  timer := by decide

theorem loaded_iff_settled_recovering :
    "os-a".toList ∈ (discover 300 recoveringHistory.start recoveringHistory.ticks).libraries ∧
    "os-c".toList ∉ (discover 300 recoveringHistory.start recoveringHistory.ticks).libraries := by
  have hrun := loaded_iff_settled recoveringHistory rfl (by decide) (by decide)
    recoveringHistory.ticks (List.prefix_refl _)
  constructor
  · exact (hrun "os-a".toList).mpr (by decide)
  · exact fun hc => absurd ((hrun "os-c".toList).mp hc) (by decide)

/-- An SVM that raises in `do_setup` at the start keeps the one after it from being loaded, and
after a listing that failed at one interval an SVM that appears at the next is never loaded. -/
theorem loaded_not_settled :
    let svms := ["os-a".toList, "os-b".toList]
    let badStart : Pass := ⟨some svms, fun s => s == "os-b".toList, fun _ => true⟩
    let start : Pass := ⟨some ["os-a".toList], fun _ => true, fun _ => true⟩
    let failed : Pass := ⟨none, fun _ => true, fun _ => true⟩
    let full : Pass := ⟨some svms, fun _ => true, fun _ => true⟩
    (Settled [badStart] "os-b".toList ∧
      "os-b".toList ∉ (discover 300 badStart []).libraries) ∧
    Settled [full, failed, start] "os-b".toList ∧
      "os-b".toList ∉ (discover 300 start [failed, full]).libraries := by
  decide

end Understack.Cinder
