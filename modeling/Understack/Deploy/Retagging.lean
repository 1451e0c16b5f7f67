import Understack.Deploy.ImageSet

/-! Which contents `replaceImageTags` retags as it ought to: the maximal runs that are references,
and nothing else. -/
namespace Understack.Deploy
open PyText Regexp TokenRuns

/-- The base of a run that is a reference as a whole. -/
def referenceBase (run : Text) : Option Text :=
  ((captures imageBaseRe tagRe run).find? fun u => u.2.2 = []).map Prod.fst

theorem referenceBase_eq_some {run b : Text} : referenceBase run = some b ↔
    imageBaseRe.Lang b ∧ ∃ t, tagRe.Lang t ∧ run = b ++ t := by
  have hmem {x : Text × Text × Text} (hx : x ∈ captures imageBaseRe tagRe run) (hr : x.2.2 = []) :
      imageBaseRe.Lang x.1 ∧ tagRe.Lang x.2.1 ∧ run = x.1 ++ x.2.1 := by
    obtain ⟨hb, ht, hrun⟩ := mem_captures.mp hx
    rw [hr, List.append_nil] at hrun
    exact ⟨hb, ht, hrun⟩
  rw [referenceBase, Option.map_eq_some_iff]
  constructor
  · rintro ⟨x, hx, rfl⟩
    obtain ⟨hb, ht, hrun⟩ := hmem (List.mem_of_find?_eq_some hx)
      (by simpa using List.find?_some hx)
    exact ⟨hb, _, ht, hrun⟩
  · rintro ⟨hb, t, ht, hrun⟩
    have hcapture : (b, t, []) ∈ captures imageBaseRe tagRe run :=
      mem_captures.mpr ⟨hb, ht, by rw [List.append_nil, hrun]⟩
    cases hfind : (captures imageBaseRe tagRe run).find? fun u => u.2.2 = [] with
    | none => exact absurd (List.find?_eq_none.mp hfind _ hcapture) (by simp)
    | some x =>
      obtain ⟨hb', ht', hrun'⟩ := hmem (List.mem_of_find?_eq_some hfind)
        (by simpa using List.find?_some hfind)
      exact ⟨x, rfl, base_unique hb' ht' hb ht (hrun'.symm.trans hrun)⟩

/-! What retagging ought to do. -/

def rewriteRun (tag : Text → Tag) (run : Text) : Text :=
  match referenceBase run with
  | some b => b ++ (tag b).text
  | none => run

/-- Every reference gets the tag of its base; all else stays. -/
def retag (tag : Text → Tag) (content : Text) : Text :=
  mapRuns isTokenChar (rewriteRun tag) content

/-- The retagging of a content, and of what came of it. -/
structure Retags (content : Text) (version : Version) (noDigest : Bool)
    (resolveDigest : Text → Option Digest) (cache : DigestCache) : Prop where
  exact : (replaceImageTags version noDigest resolveDigest content cache).1 =
    retag (newTag version noDigest (digestOf resolveDigest cache)) content
  again : ∀ cache', digestOf resolveDigest cache' = digestOf resolveDigest cache →
    (replaceImageTags version noDigest resolveDigest
      (replaceImageTags version noDigest resolveDigest content cache).1 cache').1 =
        (replaceImageTags version noDigest resolveDigest content cache).1

/-- A text of the form `<prefix>/understack/<path>:vX.Y.Z…`, where the path may have blanks, quotes
and line feeds. -/
def BeginsTagged (s : Text) : Prop :=
  ∃ b m x, imageBaseRe.Lang b ∧ IsVersion m ∧ m <+: x ∧ s = b ++ ':' :: x

/-- Nothing of the form of a tagged image begins in a run that is not a reference. -/
def OnlyReferences (content : Text) : Prop :=
  ∀ u ∈ runs isTokenChar content, referenceBase u.1 = none → ¬ BeginsTagged (u.1 ++ u.2)

theorem results_eq_nil_iff {s : Text} : imageTagRe.results s = [] ↔ ¬ BeginsTagged s := by
  rw [results_eq_nil]
  constructor
  · rintro h ⟨b, m, x, hb, hm, ⟨y, rfl⟩, rfl⟩
    refine h (b ++ ':' :: m) ⟨b, _, hb, tagRe_iff.mpr ⟨m, [], hm, .inl rfl, ?_⟩, rfl⟩ ⟨y, by simp⟩
    rw [List.append_nil]
  · rintro h - ⟨b, t, hb, ht, rfl⟩ ⟨y, rfl⟩
    obtain ⟨m, d, hm, -, rfl⟩ := tagRe_iff.mp ht
    exact h ⟨b, m, m ++ (d ++ y), hb, hm, List.prefix_append _ _, by simp⟩

theorem not_beginsTagged_of_ends {z : Text} (hz : Ends isTokenChar z) : ¬ BeginsTagged z := by
  rintro ⟨b, m, x, hb, -, -, rfl⟩
  obtain ⟨p, q, ⟨hne, hp⟩, -, -, rfl⟩ := imageBaseRe_iff.mp hb
  obtain ⟨c, p, rfl⟩ := List.exists_cons_of_ne_nil hne
  have hc := hp c List.mem_cons_self
  rw [hz c rfl] at hc
  cases hc

/-- What begins in a run begins at the start of it. -/
theorem BeginsTagged.extend {w s : Text} (hw : ∀ c ∈ w, isTokenChar c = true)
    (h : BeginsTagged s) : BeginsTagged (w ++ s) := by
  obtain ⟨b, m, x, hb, hm, hpre, rfl⟩ := h
  obtain ⟨p, q, ⟨hne, hp⟩, hq, hcolon, rfl⟩ := imageBaseRe_iff.mp hb
  refine ⟨w ++ (p ++ ("/understack/".toList ++ q)), m, x, ?_, hm, hpre, by simp⟩
  refine imageBaseRe_iff.mpr ⟨w ++ p, q, ⟨by simp [hne], fun c hc => ?_⟩, hq, hcolon, by simp⟩
  rcases List.mem_append.mp hc with hc | hc
  · exact hw c hc
  · exact hp c hc

/-! A pass over one run. -/

section

variable {tag : Text → Tag} {u z : Text}

theorem rewriteMatch_reference {b t : Text} (hb : imageBaseRe.Lang b) (ht : tagRe.Lang t)
    (hrun : ∀ c ∈ b ++ t, isTokenChar c = true) :
    rewriteMatch tag (b ++ t) = b ++ (tag b).text := by
  rw [rewriteMatch, submatch_reference hb ht hrun, Option.getD_some]

theorem substitute_run (hu : ∀ c ∈ u, isTokenChar c = true) (hz : Ends isTokenChar z)
    (h : referenceBase u = none → ¬ BeginsTagged (u ++ z)) :
    substitute imageTagRe (rewriteMatch tag) (u ++ z) =
      rewriteRun tag u ++ substitute imageTagRe (rewriteMatch tag) z := by
  rw [rewriteRun]
  cases href : referenceBase u with
  | none =>
    refine substitute_copy _ fun w hw ⟨v, hv⟩ => results_eq_nil_iff.mpr fun hbegins => ?_
    refine h href ?_
    rw [← hv, List.append_assoc]
    exact hbegins.extend fun c hc => hu c (hv ▸ List.mem_append_left _ hc)
  | some b =>
    obtain ⟨hb, t, ht, rfl⟩ := referenceBase_eq_some.mp href
    have hne : b ++ t ≠ [] := by
      obtain ⟨m, d, -, -, rfl⟩ := tagRe_iff.mp ht
      simp
    rw [substitute_match _ (first_result hb ht hu hz) hne, rewriteMatch_reference hb ht hu]

theorem substitute_cons {c : Char} (hc : isTokenChar c = false) (s : Text) :
    substitute imageTagRe (rewriteMatch tag) (c :: s) =
      c :: substitute imageTagRe (rewriteMatch tag) s := by
  refine substitute_copy (u := [c]) _ fun w hw hsuf => results_eq_nil_iff.mpr ?_
  rcases List.suffix_cons_iff.mp hsuf with rfl | hnil
  · exact not_beginsTagged_of_ends (ends_cons.mpr hc)
  · exact absurd (List.suffix_nil.mp hnil) hw

theorem rewriteRun_nil : rewriteRun tag [] = [] := rfl

theorem retag_cons {c : Char} (hc : isTokenChar c = false) (s : Text) :
    retag tag (c :: s) = c :: retag tag s :=
  mapRuns_cons (u := []) (by simp) hc s

theorem retag_run (hu : ∀ c ∈ u, isTokenChar c = true) (hz : Ends isTokenChar z) :
    retag tag (u ++ z) = rewriteRun tag u ++ retag tag z := by
  cases z with
  | nil => rw [List.append_nil, retag, mapRuns_of_all hu, retag, mapRuns_nil, rewriteRun_nil,
      List.append_nil]
  | cons c s => rw [retag_cons (ends_cons.mp hz), retag, mapRuns_cons hu (ends_cons.mp hz), retag]

theorem ends_retag (hz : Ends isTokenChar z) : Ends isTokenChar (retag tag z) := by
  cases z with
  | nil => exact ends_nil
  | cons c s =>
    rw [retag_cons (ends_cons.mp hz)]
    exact ends_cons.mpr (ends_cons.mp hz)

theorem onlyReferences_nil : OnlyReferences [] := by
  intro v hv _
  rw [List.mem_singleton.mp hv]
  exact not_beginsTagged_of_ends ends_nil

theorem onlyReferences_cons {c : Char} (hc : isTokenChar c = false) (s : Text) :
    OnlyReferences (c :: s) ↔ OnlyReferences s := by
  have hruns : runs isTokenChar (c :: s) = ([], c :: s) :: runs isTokenChar s :=
    runs_cons (u := []) (by simp) hc s
  rw [OnlyReferences, hruns, List.forall_mem_cons, OnlyReferences, and_iff_right_iff_imp]
  exact fun _ _ => not_beginsTagged_of_ends (ends_cons.mpr hc)

theorem onlyReferences_run (hu : ∀ c ∈ u, isTokenChar c = true) (hz : Ends isTokenChar z) :
    OnlyReferences (u ++ z) ↔
      (referenceBase u = none → ¬ BeginsTagged (u ++ z)) ∧ OnlyReferences z := by
  cases z with
  | nil =>
    rw [List.append_nil, OnlyReferences, runs_of_all hu, List.forall_mem_singleton,
      List.append_nil]
    exact (and_iff_left onlyReferences_nil).symm
  | cons c s =>
    have hc := ends_cons.mp hz
    rw [onlyReferences_cons hc, OnlyReferences, runs_cons hu hc, List.forall_mem_cons,
      OnlyReferences]

theorem substitute_eq_retag {s : Text} (h : OnlyReferences s) :
    substitute imageTagRe (rewriteMatch tag) s = retag tag s := by
  induction s using runs_induction (p := isTokenChar) with
  | nil => rfl
  | cons c s hc ih =>
    rw [substitute_cons hc, retag_cons hc, ih ((onlyReferences_cons hc s).mp h)]
  | run u z hu hz ih =>
    obtain ⟨hrun, hrest⟩ := (onlyReferences_run hu hz).mp h
    rw [substitute_run hu hz hrun, retag_run hu hz, ih hrest]

/-! A second pass. -/

theorem rewriteRun_chars (hu : ∀ c ∈ u, isTokenChar c = true) :
    ∀ c ∈ rewriteRun tag u, isTokenChar c = true := by
  rw [rewriteRun]
  cases href : referenceBase u with
  | none => exact hu
  | some b =>
    obtain ⟨-, t, -, rfl⟩ := referenceBase_eq_some.mp href
    intro c hc
    rcases List.mem_append.mp hc with hc | hc
    · exact hu c (List.mem_append_left _ hc)
    · exact (tagRe_chars (tag b).lang hc).1

theorem referenceBase_rewriteRun : referenceBase (rewriteRun tag u) = referenceBase u := by
  rw [rewriteRun]
  cases href : referenceBase u with
  | none => exact href
  | some b =>
    exact referenceBase_eq_some.mpr ⟨(referenceBase_eq_some.mp href).1, _, (tag b).lang, rfl⟩

theorem rewriteRun_rewriteRun : rewriteRun tag (rewriteRun tag u) = rewriteRun tag u := by
  rw [rewriteRun, referenceBase_rewriteRun, rewriteRun]
  cases referenceBase u <;> rfl

theorem retag_retag (s : Text) : retag tag (retag tag s) = retag tag s := by
  induction s using runs_induction (p := isTokenChar) with
  | nil => rfl
  | cons c s hc ih => rw [retag_cons hc, retag_cons hc, ih]
  | run u z hu hz ih =>
    rw [retag_run hu hz, retag_run (rewriteRun_chars hu) (ends_retag hz), rewriteRun_rewriteRun, ih]

/-! The first colon of a content, which decides what begins in a run before it. -/

/-- How a content and the retagged one go on at their first colon. -/
inductive FirstColon (tag : Text → Tag) : Text → Text → Prop
  | none {s : Text} (h : ':' ∉ s) : FirstColon tag s s
  | kept {a x y : Text} (ha : ':' ∉ a) (h : ∀ m, IsVersion m → (m <+: x ↔ m <+: y)) :
      FirstColon tag (a ++ ':' :: x) (a ++ ':' :: y)
  | replaced {a b m x y : Text} (ha : ':' ∉ a ++ b) (hm : IsVersion m) (hx : m <+: x)
      (hy : Ends isTokenChar y) :
      FirstColon tag ((a ++ b) ++ ':' :: x) ((a ++ b) ++ ((tag b).text ++ y))

theorem FirstColon.prepend {w s s' : Text} (hw : ':' ∉ w) (h : FirstColon tag s s') :
    FirstColon tag (w ++ s) (w ++ s') := by
  have happend {a : Text} (ha : ':' ∉ a) : ':' ∉ w ++ a := fun hmem =>
    (List.mem_append.mp hmem).elim hw ha
  cases h with
  | none h => exact .none (happend h)
  | kept ha h =>
    rw [← List.append_assoc, ← List.append_assoc]
    exact .kept (happend ha) h
  | @replaced a b m x y ha hm hx hy =>
    have hall : ':' ∉ (w ++ a) ++ b := by
      rw [List.append_assoc]
      exact happend ha
    simpa only [List.append_assoc] using @FirstColon.replaced tag (w ++ a) b m x y hall hm hx hy

theorem IsVersion.prefix_iff {m k y y' : Text} (hm : IsVersion m) (hy : Ends isTokenChar y)
    (hy' : Ends isTokenChar y') : m <+: k ++ y ↔ m <+: k ++ y' := by
  have hchars : ∀ c ∈ m, isTokenChar c = true := fun c hc => (hm.chars hc).1
  rw [hy.prefix_append_iff hchars, hy'.prefix_append_iff hchars]

/-- A version does not go on beyond a slash. -/
theorem IsVersion.prefix_iff_of_slash {m k : Text} (hm : IsVersion m) (hk : '/' ∈ k) (y y' : Text) :
    m <+: k ++ y ↔ m <+: k ++ y' := by
  obtain ⟨k₁, k₂, rfl⟩ := List.append_of_mem hk
  have hchars : ∀ c ∈ m, (c != '/') = true := fun c hc => bne_iff_ne.mpr (hm.chars hc).2
  have hends (y : Text) : Ends (fun c => c != '/') ('/' :: k₂ ++ y) := ends_cons.mpr rfl
  rw [List.append_assoc, List.append_assoc, (hends y).prefix_append_iff hchars,
    (hends y').prefix_append_iff hchars]

theorem firstColon_run (hu : ∀ c ∈ u, isTokenChar c = true) (hcolon : ':' ∈ u)
    (hz : Ends isTokenChar z) {z' : Text} (hz' : Ends isTokenChar z') :
    FirstColon tag (u ++ z) (rewriteRun tag u ++ z') := by
  obtain ⟨a, v, rfl, ha⟩ := List.eq_append_cons_of_mem hcolon
  rw [rewriteRun]
  cases href : referenceBase (a ++ ':' :: v) with
  | none =>
    rw [List.append_assoc, List.append_assoc]
    exact .kept ha fun m hm => hm.prefix_iff hz hz'
  | some b =>
    obtain ⟨hb, t, ht, hrun⟩ := referenceBase_eq_some.mp href
    obtain ⟨m, d, hm, -, rfl⟩ := tagRe_iff.mp ht
    have hsame (hab : a = b) (hv : v = m ++ d) :
        FirstColon tag ((a ++ ':' :: v) ++ z) ((b ++ (tag b).text) ++ z') := by
      subst hab hv
      rw [List.append_assoc, List.append_assoc]
      exact .replaced (a := []) ha hm ⟨d ++ z, (List.append_assoc _ _ _).symm⟩ hz'
    rcases List.append_eq_append_iff.mp hrun with ⟨w, hw, hv⟩ | ⟨w, hw, hv⟩
    · cases w with
      | nil => exact hsame (by rw [hw, List.append_nil]) (List.cons.inj hv).2
      | cons c w =>
        -- the colon belongs to the base, so a slash comes before the tag
        obtain rfl : ':' = c := (List.cons.inj hv).1
        have hvw : v = w ++ ':' :: (m ++ d) := (List.cons.inj hv).2
        have hslash : '/' ∈ w := by
          by_contra hmem
          exact colon_notMem_suffix hb hw (by simpa using hmem) List.mem_cons_self
        subst hw
        rw [hvw]
        simp only [List.append_assoc, List.cons_append]
        exact .kept ha fun m' hm' => hm'.prefix_iff_of_slash hslash _ _
    · cases w with
      | nil => exact hsame (by rw [hw, List.append_nil]) (List.cons.inj hv).2.symm
      | cons c w =>
        obtain ⟨rfl, -⟩ := List.cons.inj hv
        exact absurd (by simp [hw]) ha

theorem firstColon_retag (tag : Text → Tag) (s : Text) : FirstColon tag s (retag tag s) := by
  induction s using runs_induction (p := isTokenChar) with
  | nil => exact .none List.not_mem_nil
  | cons c s hc ih =>
    have hcolon : ':' ∉ [c] := fun hmem => by
      rw [← List.mem_singleton.mp hmem] at hc
      exact absurd hc (by decide)
    rw [retag_cons hc]
    exact ih.prepend hcolon
  | run u z hu hz ih =>
    rw [retag_run hu hz]
    by_cases hcolon : ':' ∈ u
    · exact firstColon_run hu hcolon hz (ends_retag hz)
    · have href : referenceBase u = none := by
        refine Option.eq_none_iff_forall_ne_some.mpr fun b hb => hcolon ?_
        obtain ⟨-, t, ht, rfl⟩ := referenceBase_eq_some.mp hb
        obtain ⟨m, d, -, -, rfl⟩ := tagRe_iff.mp ht
        exact List.mem_append_right _ List.mem_cons_self
      rw [rewriteRun, href]
      exact ih.prepend hcolon

theorem colon_inj {a a' x x' : Text} (ha : ':' ∉ a) (ha' : ':' ∉ a')
    (h : a ++ ':' :: x = a' ++ ':' :: x') : a = a' ∧ x = x' := by
  have hsplit := splitOnce_append (b := x) ha
  rw [h, splitOnce_append ha'] at hsplit
  simpa [eq_comm] using hsplit

theorem FirstColon.forward {s s' a x : Text} (h : FirstColon tag s s') (ha : ':' ∉ a)
    (hs : s = a ++ ':' :: x) :
    (∃ y, s' = a ++ ':' :: y ∧ ∀ m, IsVersion m → (m <+: x ↔ m <+: y)) ∨
      ∃ a' b y, a = a' ++ b ∧ Ends isTokenChar y ∧ s' = a ++ ((tag b).text ++ y) := by
  cases h with
  | none h => exact absurd (by simp [hs]) h
  | kept ha' h =>
    obtain ⟨rfl, rfl⟩ := colon_inj ha' ha hs
    exact .inl ⟨_, rfl, h⟩
  | replaced ha' hm hx hy =>
    obtain ⟨rfl, rfl⟩ := colon_inj ha' ha hs
    exact .inr ⟨_, _, _, rfl, hy, rfl⟩

theorem FirstColon.backward {s s' a m x : Text} (h : FirstColon tag s s') (ha : ':' ∉ a)
    (hs : s' = a ++ ':' :: x) (hm : IsVersion m) (hx : m <+: x) :
    ∃ m' y, IsVersion m' ∧ m' <+: y ∧ s = a ++ ':' :: y := by
  cases h with
  | none h => exact absurd (by simp [hs]) h
  | kept ha' h =>
    obtain ⟨rfl, rfl⟩ := colon_inj ha' ha hs
    exact ⟨m, _, hm, (h m hm).mpr hx, rfl⟩
  | replaced ha' hm' hx' hy =>
    obtain ⟨rfl, -⟩ := colon_inj ha' ha hs
    exact ⟨_, _, hm', hx', rfl⟩

/-- A tagged image that begins in a run has its tag there, or at the first colon after it. -/
theorem tag_place {b x : Text} (hu : ∀ c ∈ u, isTokenChar c = true) (hz : Ends isTokenChar z)
    (hb : imageBaseRe.Lang b) (h : u ++ z = b ++ ':' :: x) :
    (∃ y, u = b ++ ':' :: y ∧ x = y ++ z) ∨ ∃ a, ':' ∉ a ∧ b = u ++ a ∧ z = a ++ ':' :: x := by
  have hfirst {y : Text} (hy : z = ':' :: y) : False := by
    have hc := hz ':' (by rw [hy]; rfl)
    exact absurd hc (by decide)
  rcases List.append_eq_append_iff.mp h with ⟨a, rfl, ha⟩ | ⟨w, rfl, hw⟩
  · refine .inr ⟨a, fun hcolon => ?_, rfl, ha⟩
    obtain ⟨p, q, ⟨-, hp⟩, -, hq, hpq⟩ := imageBaseRe_iff.mp hb
    have hk : ∀ c ∈ p ++ "/understack/".toList, isTokenChar c = true := by
      intro c hc
      rcases List.mem_append.mp hc with hc | hc
      · exact hp c hc
      · exact understack_chars hc
    have hends : Ends isTokenChar a := by
      cases a with
      | nil => exact ends_nil
      | cons c a => exact ends_cons.mpr (hz c (by rw [ha]; rfl))
    obtain ⟨w, rfl⟩ := (hends.prefix_append_iff hk).mp ⟨q, by rw [hpq, List.append_assoc]⟩
    have hwa : q = w ++ a := by simpa using hpq.symm
    exact hq (hwa ▸ List.mem_append_right _ hcolon)
  · cases w with
    | nil => exact (hfirst hw.symm).elim
    | cons c w =>
      obtain ⟨rfl, rfl⟩ := List.cons.inj hw
      exact .inl ⟨w, rfl, rfl⟩

/-- Retagging brings up nothing that begins in the run before. -/
theorem BeginsTagged.of_retag (hu : ∀ c ∈ u, isTokenChar c = true) (hz : Ends isTokenChar z)
    (h : BeginsTagged (u ++ retag tag z)) : BeginsTagged (u ++ z) := by
  obtain ⟨b, m, x, hb, hm, hx, heq⟩ := h
  rcases tag_place hu (ends_retag hz) hb heq with ⟨y, rfl, rfl⟩ | ⟨a, ha, rfl, hcolon⟩
  · refine ⟨b, m, y ++ z, hb, hm, (hm.prefix_iff (ends_retag hz) hz).mp hx, ?_⟩
    rw [List.append_assoc, List.cons_append]
  · obtain ⟨m', y, hm', hy, rfl⟩ := (firstColon_retag tag z).backward ha hcolon hm hx
    exact ⟨u ++ a, m', y, hb, hm', hy, (List.append_assoc _ _ _).symm⟩

theorem onlyReferences_retag {s : Text} (h : OnlyReferences s) : OnlyReferences (retag tag s) := by
  induction s using runs_induction (p := isTokenChar) with
  | nil => exact h
  | cons c s hc ih =>
    rw [retag_cons hc, onlyReferences_cons hc]
    exact ih ((onlyReferences_cons hc s).mp h)
  | run u z hu hz ih =>
    obtain ⟨hrun, hrest⟩ := (onlyReferences_run hu hz).mp h
    rw [retag_run hu hz, onlyReferences_run (rewriteRun_chars hu) (ends_retag hz),
      referenceBase_rewriteRun]
    refine ⟨fun href hbegins => hrun href ?_, ih hrest⟩
    rw [rewriteRun, href] at hbegins
    exact hbegins.of_retag hu hz

/-! A content with something else of the form of a tagged image. -/

/-- A version that begins otherwise. -/
def otherVersion (n : Text) : Version :=
  if n.head? = some '1' then ⟨"2.0.0".toList, by decide⟩ else ⟨"1.0.0".toList, by decide⟩

theorem not_prefix_otherVersion {n : Text} (hn : numberRe.Lang n) (y : Text) :
    ¬ 'v' :: n <+: (otherVersion n).text ++ y := by
  obtain ⟨d, n', rfl, -⟩ := numberRe_head hn
  rintro ⟨x, hx⟩
  rw [otherVersion, List.head?_cons] at hx
  split at hx
  · next h =>
    obtain rfl : d = '1' := Option.some.inj h
    exact absurd (List.cons.inj (List.cons.inj hx).2).1 (by decide)
  · next h =>
    exact h (congrArg some (List.cons.inj (List.cons.inj hx).2).1)

/-- The digests of a registry that has one image only. -/
def onlyDigest (ref : Text) : Text → Option Digest :=
  fun other => if other = ref then some ⟨['0'], by decide⟩ else none

theorem stray_rewritten (hu : ∀ c ∈ u, isTokenChar c = true) (hz : Ends isTokenChar z)
    (href : referenceBase u = none) (h : BeginsTagged (u ++ z)) :
    ∃ version digests, substitute imageTagRe (rewriteMatch (newTag version false digests)) (u ++ z) ≠
      retag (newTag version false digests) (u ++ z) := by
  obtain ⟨⟨found, r⟩, l, hl⟩ := List.exists_cons_of_ne_nil fun hnil => results_eq_nil_iff.mp hnil h
  have hhead : (imageTagRe.results (u ++ z)).head? = some (found, r) := by rw [hl, List.head?_cons]
  obtain ⟨⟨b₀, t₀, hb₀, ht₀, hfound₀⟩, hs⟩ := mem_results.mp (List.mem_of_head? hhead)
  have hmem : (b₀, t₀, []) ∈ captures imageBaseRe tagRe found :=
    mem_captures.mpr ⟨hb₀, ht₀, by rw [List.append_nil, hfound₀]⟩
  obtain ⟨⟨b, t, r'⟩, l', hl'⟩ := List.exists_cons_of_ne_nil (List.ne_nil_of_mem hmem)
  have hcapture : (captures imageBaseRe tagRe found).head? = some (b, t, r') := by
    rw [hl', List.head?_cons]
  obtain ⟨hb, ht, hfound⟩ := mem_captures.mp (List.mem_of_head? hcapture)
  obtain ⟨-, d, ⟨n, hn, rfl⟩, -, rfl⟩ := tagRe_iff.mp ht
  refine ⟨otherVersion n, onlyDigest (b ++ ':' :: (otherVersion n).text), ?_⟩
  generalize htag : newTag (otherVersion n) false _ = tag
  have hversion (b' : Text) : (tag b').version = otherVersion n := by rw [← htag, newTag]
  have hcode : substitute imageTagRe (rewriteMatch tag) (u ++ z) =
      b ++ ((tag b).text ++ substitute imageTagRe (rewriteMatch tag) r) := by
    have hne : found ≠ [] := by
      rw [hfound]
      simp
    rw [substitute_match _ hhead hne, rewriteMatch, submatch_of_head hcapture, Option.getD_some,
      List.append_assoc]
  have hspec : retag tag (u ++ z) = u ++ retag tag z := by
    rw [retag_run hu hz, rewriteRun, href]
  have hsplit : u ++ z = b ++ ':' :: ('v' :: n ++ (d ++ (r' ++ r))) := by
    rw [hs, hfound]
    simp
  have hm : IsVersion ('v' :: n) := ⟨n, hn, rfl⟩
  -- the code writes another version where the content keeps this one
  have hkept {y : Text} (hy : 'v' :: n <+: y)
      (heq : b ++ ((tag b).text ++ substitute imageTagRe (rewriteMatch tag) r) = b ++ ':' :: y) :
      False := by
    rw [List.append_cancel_left_eq, Tag.text, List.cons_append, List.cons_append, hversion,
      List.append_assoc] at heq
    exact not_prefix_otherVersion hn _ ((List.cons.inj heq).2 ▸ hy)
  rw [hcode, hspec]
  intro heq
  rcases tag_place hu hz hb hsplit with ⟨y, hy, hyz⟩ | ⟨a, ha, hba, hza⟩
  · refine hkept (y := y ++ retag tag z) ?_ (by rw [heq, hy, List.append_assoc, List.cons_append])
    exact (hm.prefix_iff hz (ends_retag hz)).mp (hyz ▸ List.prefix_append _ _)
  · rcases (firstColon_retag tag z).forward ha hza with ⟨y, hy, hiff⟩ | ⟨a', b', y, hab, hends, hy⟩
    · refine hkept (y := y) ((hiff _ hm).mp (List.prefix_append _ _)) ?_
      rw [heq, hy, hba, List.append_assoc]
    · -- only the base that spans the two runs has a digest
      have hlt : b'.length < b.length := by
        have hne : u ≠ [] := by
          rintro rfl
          exact not_beginsTagged_of_ends hz h
        have hpos := List.length_pos_iff.mpr hne
        rw [hba, hab, List.length_append, List.length_append]
        omega
      have hne : b' ++ ':' :: (otherVersion n).text ≠ b ++ ':' :: (otherVersion n).text := by
        rw [Ne, List.append_left_inj]
        exact fun hbb => absurd hlt (by rw [hbb]; exact lt_irrefl _)
      rw [hy, ← List.append_assoc u, ← hba, List.append_cancel_left_eq, ← htag] at heq
      simp only [newTag, Tag.text, onlyDigest, if_neg hne, Bool.false_eq_true, if_false, if_true,
        Option.map_some, Option.map_none, Option.getD_some, Option.getD_none, List.append_nil,
        List.append_assoc, List.append_cancel_left_eq] at heq
      have hat := hends '@' (by rw [← heq]; rfl)
      exact absurd hat (by decide)

theorem onlyReferences_of_substitute {s : Text}
    (h : ∀ version digests, substitute imageTagRe (rewriteMatch (newTag version false digests)) s =
      retag (newTag version false digests) s) : OnlyReferences s := by
  induction s using runs_induction (p := isTokenChar) with
  | nil => exact onlyReferences_nil
  | cons c s hc ih =>
    refine (onlyReferences_cons hc s).mpr (ih fun version digests => ?_)
    have hcons := h version digests
    rw [substitute_cons hc, retag_cons hc] at hcons
    exact (List.cons.inj hcons).2
  | run u z hu hz ih =>
    have hrun : referenceBase u = none → ¬ BeginsTagged (u ++ z) := by
      intro href hbegins
      obtain ⟨version, digests, hne⟩ := stray_rewritten hu hz href hbegins
      exact hne (h version digests)
    refine (onlyReferences_run hu hz).mpr ⟨hrun, ih fun version digests => ?_⟩
    have happend := h version digests
    rw [substitute_run hu hz hrun, retag_run hu hz, List.append_cancel_left_eq] at happend
    exact happend

end

/-- A content is retagged as it ought to be, whatever the version and the digests, exactly when
nothing of the form of a tagged image begins in a run that is not a reference. -/
theorem retags_iff (content : Text) :
    (∀ version noDigest resolveDigest cache,
      Retags content version noDigest resolveDigest cache) ↔ OnlyReferences content := by
  constructor
  · intro h
    refine onlyReferences_of_substitute fun version digests => ?_
    have hexact := (h version false digests []).exact
    rwa [(replaceImageTags_eq version false digests content []).1] at hexact
  · intro h version noDigest resolveDigest cache
    have hexact := (replaceImageTags_eq version noDigest resolveDigest content cache).1
    rw [substitute_eq_retag h] at hexact
    refine ⟨hexact, fun cache' hcache => ?_⟩
    rw [(replaceImageTags_eq version noDigest resolveDigest _ cache').1, hcache, hexact,
      substitute_eq_retag (onlyReferences_retag h), retag_retag]

/-- A page of the repository, and below it an image of another. -/
def pageAndImage : Text := "- https://git/understack/docs\n- nginx:v1.25.0".toList

theorem other_image_retagged :
    ¬ ∀ version noDigest resolveDigest cache,
      Retags pageAndImage version noDigest resolveDigest cache := by
  intro h
  have hexact := (h ⟨"2.0.0".toList, by decide⟩ true (fun _ => none) []).exact
  revert hexact
  decide

end Understack.Deploy
