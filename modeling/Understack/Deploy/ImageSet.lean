import Understack.Lib.Json
import Understack.Lib.PyText
import Understack.Lib.Regexp
import Understack.Lib.TokenRuns

/-! `cmd/deploy/image_set.go` of understackctl: the image references in a file are brought to a
version, with the digests that a registry gives. -/
namespace Understack.Deploy
open PyText Regexp TokenRuns

/-! `imageTagRe`, in its parts. -/

/-- The class of all characters but whitespace and quotes. -/
def isTokenChar (c : Char) : Bool := !([9, 10, 12, 13, 32, 34, 39].contains c.toNat)

def isHexChar (c : Char) : Bool := c.isDigit || ('a' ≤ c && c ≤ 'f')

def imageBaseRe : Re Char :=
  .seq (.plus isTokenChar) (.seq (.lit "/understack/".toList) (.plus fun c => c != ':'))

def digitsRe : Re Char := .plus Char.isDigit

def numberRe : Re Char :=
  .seq digitsRe (.seq (.lit ['.']) (.seq digitsRe (.seq (.lit ['.']) digitsRe)))

def digestRe : Re Char := .opt (.seq (.lit "@sha256:".toList) (.plus isHexChar))

def tagRe : Re Char := .seq (.lit ":v".toList) (.seq numberRe digestRe)

def imageTagRe : Re Char := .seq imageBaseRe tagRe

/-- A version `vX.Y.Z`. -/
structure Version where
  number : Text
  form : numberRe.Lang number

def Version.text (v : Version) : Text := 'v' :: v.number

/-- A digest `sha256:<hex>`, as the registry's client returns it. -/
structure Digest where
  hex : Text
  form : (Re.plus isHexChar).Lang hex

def Digest.text (d : Digest) : Text := "sha256:".toList ++ d.hex

/-- The digests found so far; a lookup that failed is stored as none. -/
abbrev DigestCache := List (Text × Option Digest)

section

variable (version : Version) (noDigest : Bool) (resolveDigest : Text → Option Digest)

/-- The function that `ReplaceAllStringFunc` is given. -/
def replaceImageTag (found : Text) (digestCache : DigestCache) : Text × DigestCache :=
  let imageBase := (submatch imageBaseRe tagRe found).getD []
  let newRef := imageBase ++ ':' :: version.text
  if noDigest then (newRef, digestCache)
  else match digestCache.lookup newRef with
    | some none => (newRef, digestCache)
    | some (some digest) => (newRef ++ '@' :: digest.text, digestCache)
    | none => match resolveDigest newRef with
      | none => (newRef, PyDict.put newRef none digestCache)
      | some digest => (newRef ++ '@' :: digest.text, PyDict.put newRef (some digest) digestCache)

def replaceImageTags (content : Text) (digestCache : DigestCache) : Text × DigestCache :=
  replaceFrom imageTagRe (replaceImageTag version noDigest resolveDigest) 0 content digestCache

end

/-! The new tags, without the cache. -/

structure Tag where
  version : Version
  digest : Option Digest

def Tag.text (t : Tag) : Text :=
  ':' :: t.version.text ++ (t.digest.map fun d => '@' :: d.text).getD []

/-- What is known of a reference, or will be. -/
def digestOf (resolveDigest : Text → Option Digest) (digestCache : DigestCache) (ref : Text) :
    Option Digest :=
  (digestCache.lookup ref).getD (resolveDigest ref)

def newTag (version : Version) (noDigest : Bool) (digests : Text → Option Digest)
    (imageBase : Text) : Tag :=
  ⟨version, if noDigest then none else digests (imageBase ++ ':' :: version.text)⟩

/-- A match with its tag replaced. -/
def rewriteMatch (tag : Text → Tag) (found : Text) : Text :=
  let imageBase := (submatch imageBaseRe tagRe found).getD []
  imageBase ++ (tag imageBase).text

/-- The cache changes no digest, and no answer. -/
theorem replaceImageTag_eq {version : Version} {noDigest : Bool}
    {resolveDigest digests : Text → Option Digest} (found : Text) {cache : DigestCache}
    (h : digestOf resolveDigest cache = digests) :
    (replaceImageTag version noDigest resolveDigest found cache).1 =
        rewriteMatch (newTag version noDigest digests) found ∧
      digestOf resolveDigest (replaceImageTag version noDigest resolveDigest found cache).2 =
        digests := by
  subst h
  rw [replaceImageTag, rewriteMatch]
  generalize (submatch imageBaseRe tagRe found).getD [] = imageBase
  dsimp only [newTag, Tag.text]
  rw [← List.append_assoc]
  generalize imageBase ++ ':' :: version.text = newRef
  have hput (d : Option Digest) (hd : digestOf resolveDigest cache newRef = d) :
      digestOf resolveDigest (PyDict.put newRef d cache) = digestOf resolveDigest cache := by
    funext ref
    by_cases href : ref = newRef
    · rw [href, hd, digestOf, PyDict.lookup_put_self, Option.getD_some]
    · rw [digestOf, PyDict.lookup_put_of_ne _ _ href, digestOf]
  cases noDigest with
  | true => simp
  | false =>
    cases hc : cache.lookup newRef with
    | some d => cases d <;> simp [digestOf, hc]
    | none =>
      have hdigest : digestOf resolveDigest cache newRef = resolveDigest newRef := by
        rw [digestOf, hc, Option.getD_none]
      cases hd : resolveDigest newRef with
      | none => simp [hd, hdigest, hput none (hdigest.trans hd)]
      | some d => simp [hd, hdigest, hput (some d) (hdigest.trans hd)]

theorem replaceImageTags_eq (version : Version) (noDigest : Bool)
    (resolveDigest : Text → Option Digest) (content : Text) (cache : DigestCache) :
    (replaceImageTags version noDigest resolveDigest content cache).1 =
        substitute imageTagRe
          (rewriteMatch (newTag version noDigest (digestOf resolveDigest cache))) content ∧
      digestOf resolveDigest (replaceImageTags version noDigest resolveDigest content cache).2 =
        digestOf resolveDigest cache :=
  replaceFrom_eq (e := imageTagRe)
    (I := fun c => digestOf resolveDigest c = digestOf resolveDigest cache)
    (fun found _ h => replaceImageTag_eq found h) rfl 0 content

/-! The form of a tag. -/

theorem token_of_isHexChar {c : Char} (h : isHexChar c = true) :
    isTokenChar c = true ∧ c ≠ '/' := by
  have hrange : 48 ≤ c.toNat := by
    rcases Bool.or_eq_true _ _ |>.mp h with hd | hx
    · exact (isDigit_range hd).1
    · have hle := of_decide_eq_true (Bool.and_eq_true _ _ |>.mp hx).1
      have hnat : 97 ≤ c.toNat := hle
      omega
  constructor
  · have hne : c.toNat ∉ [9, 10, 12, 13, 32, 34, 39] := by
      simp only [List.mem_cons, List.not_mem_nil, or_false]
      omega
    simpa [isTokenChar] using hne
  · rintro rfl
    exact absurd hrange (by decide)

theorem token_of_isDigit {c : Char} (h : c.isDigit = true) : isTokenChar c = true ∧ c ≠ '/' :=
  token_of_isHexChar (by rw [isHexChar, h, Bool.true_or])

theorem numberRe_chars {n : Text} (h : numberRe.Lang n) :
    ∀ c ∈ n, c.isDigit = true ∨ c = '.' := by
  obtain ⟨x, -, hx, ⟨-, -, rfl, ⟨y, -, hy, ⟨-, z, rfl, hz, rfl⟩, rfl⟩, rfl⟩, rfl⟩ := h
  intro c hc
  simp only [List.mem_append, List.mem_singleton] at hc
  rcases hc with hc | hc | hc | hc | hc
  · exact .inl (hx.2 c hc)
  · exact .inr hc
  · exact .inl (hy.2 c hc)
  · exact .inr hc
  · exact .inl (hz.2 c hc)

theorem numberRe_head {n : Text} (h : numberRe.Lang n) :
    ∃ d n', n = d :: n' ∧ d.isDigit = true := by
  obtain ⟨x, y, ⟨hne, hx⟩, -, rfl⟩ := h
  obtain ⟨d, x, rfl⟩ := List.exists_cons_of_ne_nil hne
  exact ⟨d, x ++ y, rfl, hx d List.mem_cons_self⟩

/-- The texts `vX.Y.Z`. -/
def IsVersion (m : Text) : Prop := ∃ n, numberRe.Lang n ∧ m = 'v' :: n

theorem IsVersion.chars {m : Text} (h : IsVersion m) {c : Char} (hc : c ∈ m) :
    isTokenChar c = true ∧ c ≠ '/' := by
  obtain ⟨n, hn, rfl⟩ := h
  rcases List.mem_cons.mp hc with rfl | hc
  · exact ⟨by decide, by decide⟩
  · rcases numberRe_chars hn c hc with hd | rfl
    · exact token_of_isDigit hd
    · exact ⟨by decide, by decide⟩

theorem Version.isVersion (v : Version) : IsVersion v.text := ⟨v.number, v.form, rfl⟩

theorem digestRe_cases {d : Text} (h : digestRe.Lang d) :
    d = [] ∨ ∃ x : Digest, d = '@' :: x.text := by
  rcases h with h | ⟨-, x, rfl, hx, rfl⟩
  · exact .inl h
  · exact .inr ⟨⟨x, hx⟩, rfl⟩

theorem tagRe_iff {t : Text} :
    tagRe.Lang t ↔ ∃ m d, IsVersion m ∧ digestRe.Lang d ∧ t = ':' :: (m ++ d) := by
  constructor
  · rintro ⟨-, -, rfl, ⟨n, d, hn, hd, rfl⟩, rfl⟩
    exact ⟨'v' :: n, d, ⟨n, hn, rfl⟩, hd, rfl⟩
  · rintro ⟨-, d, ⟨n, hn, rfl⟩, hd, rfl⟩
    exact ⟨_, _, rfl, ⟨n, d, hn, hd, rfl⟩, rfl⟩

theorem Tag.lang (t : Tag) : tagRe.Lang t.text := by
  refine tagRe_iff.mpr ⟨t.version.text, _, t.version.isVersion, ?_, rfl⟩
  cases t.digest with
  | none => exact .inl rfl
  | some d => exact .inr ⟨_, d.hex, rfl, d.form, rfl⟩

theorem tagRe_chars {t : Text} (h : tagRe.Lang t) {c : Char} (hc : c ∈ t) :
    isTokenChar c = true ∧ c ≠ '/' := by
  obtain ⟨m, d, hm, hd, rfl⟩ := tagRe_iff.mp h
  rcases List.mem_cons.mp hc with rfl | hc
  · exact ⟨by decide, by decide⟩
  rcases List.mem_append.mp hc with hc | hc
  · exact hm.chars hc
  rcases digestRe_cases hd with rfl | ⟨x, rfl⟩
  · exact absurd hc List.not_mem_nil
  · have hmem : c ∈ "@sha256:".toList ++ x.hex := hc
    rcases List.mem_append.mp hmem with hlit | hhex
    · have hall : ("@sha256:".toList.all fun e => isTokenChar e && e != '/') = true := rfl
      simpa using List.all_eq_true.mp hall c hlit
    · exact token_of_isHexChar (x.form.2 c hhex)

/-! What the matcher prefers. -/

theorem first_number {n z : Text} (h : numberRe.Lang n) (hz : ∀ c ∈ z.head?, c.isDigit = false) :
    (numberRe.results (n ++ z)).head? = some (n, z) := by
  obtain ⟨a, -, ⟨hane, ha⟩, ⟨-, -, rfl, ⟨b, -, ⟨hbne, hb⟩, ⟨-, c, rfl, ⟨hcne, hc⟩, rfl⟩, rfl⟩, rfl⟩,
    rfl⟩ := h
  simp only [List.append_assoc]
  have hdot (s : Text) : ∀ e ∈ (['.'] ++ s).head?, e.isDigit = false := by
    rintro e ⟨⟩
    decide
  exact first_seq (first_plus hane ha (hdot _)) (first_seq (first_lit _ _)
    (first_seq (first_plus hbne hb (hdot _)) (first_seq (first_lit _ _) (first_plus hcne hc hz))))

theorem first_digest {d z : Text} (h : digestRe.Lang d) (hz : Ends isTokenChar z) :
    (digestRe.results (d ++ z)).head? = some (d, z) := by
  rcases h with rfl | ⟨-, x, rfl, ⟨hne, hx⟩, rfl⟩
  · refine first_opt_of_nil (results_eq_nil.mpr ?_)
    rintro - ⟨-, x, rfl, -, rfl⟩ ⟨r, hr⟩
    have hat : isTokenChar '@' = false := hz '@' (by rw [List.nil_append] at hr; rw [← hr]; rfl)
    exact absurd hat (by decide)
  · rw [List.append_assoc]
    refine first_opt (first_seq (first_lit _ _) (first_plus hne hx fun c hc => ?_))
    by_contra hhex
    have htoken := (token_of_isHexChar (Bool.not_eq_false _ |>.mp hhex)).1
    rw [hz c hc] at htoken
    cases htoken

theorem first_tag {t z : Text} (h : tagRe.Lang t) (hz : Ends isTokenChar z) :
    (tagRe.results (t ++ z)).head? = some (t, z) := by
  obtain ⟨-, -, rfl, ⟨n, d, hn, hd, rfl⟩, rfl⟩ := h
  simp only [List.append_assoc]
  refine first_seq (first_lit _ _) (first_seq (first_number hn ?_) (first_digest hd hz))
  intro c hc
  rcases digestRe_cases hd with rfl | ⟨x, rfl⟩
  · by_contra hdigit
    have htoken := (token_of_isDigit (Bool.not_eq_false _ |>.mp hdigit)).1
    rw [hz c hc] at htoken
    cases htoken
  · cases hc
    decide

/-! The base of an image. -/

theorem suffix_of_notMem {a w k q : Text} (h : a ++ w = k ++ '/' :: q) (hw : '/' ∉ w) :
    ∃ q', q = q' ++ w := by
  rcases List.append_eq_append_iff.mp h with ⟨c, -, rfl⟩ | ⟨c, rfl, hc⟩
  · simp at hw
  · cases c with
    | nil =>
      rw [List.nil_append] at hc
      simp [← hc] at hw
    | cons e c => exact ⟨c, (List.cons.inj hc).2⟩

theorem imageBaseRe_iff {b : Text} : imageBaseRe.Lang b ↔
    ∃ p q, (p ≠ [] ∧ ∀ c ∈ p, isTokenChar c = true) ∧ q ≠ [] ∧ ':' ∉ q ∧
      b = p ++ ("/understack/".toList ++ q) := by
  have hcolon (q : Text) : (∀ c ∈ q, (c != ':') = true) ↔ ':' ∉ q := by
    simp only [bne_iff_ne]
    exact ⟨fun h hq => h _ hq rfl, fun h c hc heq => h (heq ▸ hc)⟩
  constructor
  · rintro ⟨p, -, hp, ⟨-, q, rfl, ⟨hne, hq⟩, rfl⟩, rfl⟩
    exact ⟨p, q, hp, hne, (hcolon q).mp hq, rfl⟩
  · rintro ⟨p, q, hp, hne, hq, rfl⟩
    exact ⟨p, _, hp, ⟨_, q, rfl, ⟨hne, (hcolon q).mpr hq⟩, rfl⟩, rfl⟩

/-- A colon of a base stands before a slash. -/
theorem colon_notMem_suffix {b a w : Text} (hb : imageBaseRe.Lang b) (h : b = a ++ w)
    (hw : '/' ∉ w) : ':' ∉ w := by
  obtain ⟨p, q, -, -, hq, rfl⟩ := imageBaseRe_iff.mp hb
  have hslash : a ++ w = (p ++ "/understack".toList) ++ '/' :: q := by
    rw [← h, List.append_assoc]
    rfl
  obtain ⟨q', rfl⟩ := suffix_of_notMem hslash hw
  exact fun hmem => hq (List.mem_append_right _ hmem)

theorem understack_chars {c : Char} (hc : c ∈ "/understack/".toList) : isTokenChar c = true :=
  List.all_eq_true.mp (rfl : "/understack/".toList.all isTokenChar = true) c hc

theorem base_unique {b b' t t' : Text} (hb : imageBaseRe.Lang b) (ht : tagRe.Lang t)
    (hb' : imageBaseRe.Lang b') (ht' : tagRe.Lang t') (h : b ++ t = b' ++ t') : b = b' := by
  -- what the longer base has more would begin with the colon of the other tag
  have hlonger {b b' t t' w : Text} (hb' : imageBaseRe.Lang b') (ht : tagRe.Lang t)
      (hw : b' = b ++ w) (htw : t = w ++ t') : b = b' := by
    obtain ⟨m, d, -, -, rfl⟩ := tagRe_iff.mp ht
    cases w with
    | nil => rw [hw, List.append_nil]
    | cons c w =>
      obtain ⟨rfl, -⟩ := List.cons.inj htw
      have hslash : '/' ∉ ':' :: w := fun hmem =>
        (tagRe_chars ht (htw ▸ List.mem_append_left _ hmem)).2 rfl
      exact absurd List.mem_cons_self (colon_notMem_suffix hb' hw hslash)
  rcases List.append_eq_append_iff.mp h with ⟨w, hw, htw⟩ | ⟨w, hw, htw⟩
  · exact hlonger hb' ht hw htw
  · exact (hlonger hb ht' hw htw).symm

theorem first_path {q t z : Text} (hne : q ≠ []) (hq : ':' ∉ q) (ht : tagRe.Lang t)
    (hz : Ends isTokenChar z) :
    (captures (.plus fun c => c != ':') tagRe (q ++ (t ++ z))).head? = some (q, t, z) := by
  have hall : ∀ c ∈ q, (c != ':') = true := by
    intro c hc
    rw [bne_iff_ne]
    exact fun heq => hq (heq ▸ hc)
  refine head?_flatMap (first_plus hne hall ?_) ?_
  · obtain ⟨m, d, -, -, rfl⟩ := tagRe_iff.mp ht
    rintro c ⟨⟩
    rfl
  · rw [List.head?_map, first_tag ht hz, Option.map_some]

theorem captures_no_path {t z : Text} (ht : tagRe.Lang t) :
    captures (.plus fun c => c != ':') tagRe (t ++ z) = [] := by
  obtain ⟨m, d, -, -, rfl⟩ := tagRe_iff.mp ht
  rfl

theorem captures_understack (b c : Re Char) (w : Text) (s : Text) :
    captures (.seq (.lit w) b) c (w ++ s) = (captures b c s).map fun u => (w ++ u.1, u.2) := by
  rw [captures_seq, Re.results, if_pos (List.prefix_append _ _), List.flatMap_singleton,
    List.drop_left]

/-- In a run that is a reference the matcher finds the base and the whole tag. -/
theorem first_capture {b t z : Text} (hb : imageBaseRe.Lang b) (ht : tagRe.Lang t)
    (hrun : ∀ c ∈ b ++ t, isTokenChar c = true) (hz : Ends isTokenChar z) :
    (captures imageBaseRe tagRe ((b ++ t) ++ z)).head? = some (b, t, z) := by
  obtain ⟨p, q, hp, hne, hq, rfl⟩ := imageBaseRe_iff.mp hb
  rw [imageBaseRe, captures_seq]
  have hmem : (p, "/understack/".toList ++ (q ++ (t ++ z))) ∈
      (Re.plus isTokenChar).results ((p ++ ("/understack/".toList ++ q) ++ t) ++ z) :=
    mem_results.mpr ⟨hp, by simp only [List.append_assoc]⟩
  refine head?_flatMap_plus hmem ?_ ?_
  · rw [captures_understack, List.map_map, List.head?_map, first_path hne hq ht hz]
    rfl
  · intro p' r' hmem' hlen
    obtain ⟨⟨-, hp'⟩, heq⟩ := mem_results.mp hmem'
    by_cases hlit : "/understack/".toList <+: r'
    · obtain ⟨r, rfl⟩ := hlit
      -- the literal ends in the run, before the tag, and after the first prefix
      have hk : ∀ c ∈ p' ++ "/understack/".toList, isTokenChar c = true := by
        intro c hc
        rcases List.mem_append.mp hc with hc | hc
        · exact hp' c hc
        · exact understack_chars hc
      have hpre : p' ++ "/understack/".toList <+: (p ++ ("/understack/".toList ++ q) ++ t) ++ z :=
        ⟨r, by rw [heq, List.append_assoc]⟩
      obtain ⟨w, hw⟩ := (hz.prefix_append_iff hk).mp hpre
      have hslash : (p ++ ("/understack/".toList ++ q)) ++ t =
          (p' ++ "/understack".toList) ++ '/' :: w := by
        rw [← hw, List.append_assoc, List.append_assoc]
        rfl
      obtain ⟨q', rfl⟩ := suffix_of_notMem hslash fun h => (tagRe_chars ht h).2 rfl
      have hbase : p ++ ("/understack/".toList ++ q) = p' ++ ("/understack/".toList ++ q') := by
        rw [← List.append_assoc, List.append_left_inj] at hw
        rw [← hw, List.append_assoc]
      have hr : r = q' ++ (t ++ z) := by
        rw [← hw] at heq
        simpa using heq.symm
      rw [hr, captures_understack, List.map_map]
      rcases eq_or_ne q' [] with rfl | hne'
      · exact .inl (by rw [List.nil_append, captures_no_path ht, List.map_nil])
      · have hq' : ':' ∉ q' := by
          have hsuf : q <:+ p ++ ("/understack/".toList ++ q) :=
            (List.suffix_append _ _).trans (List.suffix_append _ _)
          have hsuf' : q' <:+ p ++ ("/understack/".toList ++ q) :=
            hbase ▸ (List.suffix_append _ _).trans (List.suffix_append _ _)
          have hle : q'.length ≤ q.length := by
            have hlength := congrArg List.length hbase
            simp only [List.length_append] at hlength
            omega
          obtain ⟨x, rfl⟩ := List.suffix_of_suffix_length_le hsuf' hsuf hle
          exact fun hmem => hq (List.mem_append_right _ hmem)
        refine .inr ?_
        rw [List.head?_map, first_path hne' hq' ht hz, hbase]
        rfl
    · refine .inl ?_
      rw [captures_seq, Re.results, if_neg hlit, List.flatMap_nil, List.map_nil]

theorem first_result {b t z : Text} (hb : imageBaseRe.Lang b) (ht : tagRe.Lang t)
    (hrun : ∀ c ∈ b ++ t, isTokenChar c = true) (hz : Ends isTokenChar z) :
    (imageTagRe.results ((b ++ t) ++ z)).head? = some (b ++ t, z) := by
  rw [imageTagRe, results_seq, List.head?_map, first_capture hb ht hrun hz]
  rfl

theorem submatch_reference {b t : Text} (hb : imageBaseRe.Lang b) (ht : tagRe.Lang t)
    (hrun : ∀ c ∈ b ++ t, isTokenChar c = true) :
    submatch imageBaseRe tagRe (b ++ t) = some b := by
  have h := first_capture hb ht hrun ends_nil
  rw [List.append_nil] at h
  exact submatch_of_head h

end Understack.Deploy
