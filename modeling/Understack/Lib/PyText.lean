import Mathlib.Data.List.Basic
import Mathlib.Data.Int.Notation
import Mathlib.Tactic.Common

/-! Text as the sequence of its code points, with the Python string operations used by
the models: stripping, splitting, joining, and the two directions of decimal integers. -/
namespace PyText

abbrev Text := List Char

instance : LawfulBEq Text := inferInstance

/-- The characters for which `str.isspace` holds. -/
def spacePoints : List ℕ :=
  [0x9, 0xa, 0xb, 0xc, 0xd, 0x1c, 0x1d, 0x1e, 0x1f, 0x20, 0x85, 0xa0, 0x1680, 0x2000, 0x2001,
    0x2002, 0x2003, 0x2004, 0x2005, 0x2006, 0x2007, 0x2008, 0x2009, 0x200a, 0x2028, 0x2029,
    0x202f, 0x205f, 0x3000]

def isSpace (c : Char) : Bool := spacePoints.contains c.toNat

/-- `s.strip(chars)` for the characters of a predicate. -/
def stripChars (p : Char → Bool) (s : Text) : Text := ((s.dropWhile p).reverse.dropWhile p).reverse

def strip (s : Text) : Text := stripChars isSpace s

/-- What `int(s)` strips, which leaves the separators U+001C to U+001F. -/
def isIntSpace (c : Char) : Bool :=
  isSpace c && !(decide (0x1c ≤ c.toNat) && decide (c.toNat ≤ 0x1f))

/-- Code points of the zeros of the Unicode decimal digit blocks, each ten characters long. -/
def decimalZeros : List ℕ :=
  [0x30, 0x660, 0x6f0, 0x7c0, 0x966, 0x9e6, 0xa66, 0xae6, 0xb66, 0xbe6, 0xc66, 0xce6, 0xd66,
    0xde6, 0xe50, 0xed0, 0xf20, 0x1040, 0x1090, 0x17e0, 0x1810, 0x1946, 0x19d0, 0x1a80, 0x1a90,
    0x1b50, 0x1bb0, 0x1c40, 0x1c50, 0xa620, 0xa8d0, 0xa900, 0xa9d0, 0xa9f0, 0xaa50, 0xabf0,
    0xff10, 0x104a0, 0x10d30, 0x11066, 0x110f0, 0x11136, 0x111d0, 0x112f0, 0x11450, 0x114d0,
    0x11650, 0x116c0, 0x11730, 0x118e0, 0x11950, 0x11c50, 0x11d50, 0x11da0, 0x16a60, 0x16ac0,
    0x16b50, 0x1d7ce, 0x1d7d8, 0x1d7e2, 0x1d7ec, 0x1d7f6, 0x1e140, 0x1e2f0, 0x1e950, 0x1fbf0]

/-- A decimal digit of any script as the ASCII digit of the same value. -/
def asciiDigit (c : Char) : Char :=
  match decimalZeros.find? (fun z => decide (z ≤ c.toNat) && decide (c.toNat ≤ z + 9)) with
  | some z => Char.ofNat (0x30 + (c.toNat - z))
  | none => c

/-- `str.isdecimal` of one character, and `\d` of a pattern on text. -/
def isDecimal (c : Char) : Bool :=
  decimalZeros.any fun z => decide (z ≤ c.toNat) && decide (c.toNat ≤ z + 9)

/-- `int(s)` of a text of decimal digits. -/
def decimalValue (s : Text) : ℕ := Nat.ofDigitChars 10 (s.map asciiDigit) 0

/-- Digits in groups separated by single underscores. -/
def unsigned? (s : Text) : Option ℕ :=
  let groups := s.splitOn '_'
  if groups.all (fun g => !g.isEmpty && g.all Char.isDigit) then
    some (Nat.ofDigitChars 10 groups.flatten 0)
  else none

/-- `int(s)`; `none` where Python raises `ValueError`. -/
def int? (s : Text) : Option ℤ :=
  match stripChars isIntSpace (s.map asciiDigit) with
  | '-' :: r => (unsigned? r).map fun n : ℕ => -(n : ℤ)
  | '+' :: r => (unsigned? r).map fun n : ℕ => (n : ℤ)
  | r => (unsigned? r).map fun n : ℕ => (n : ℤ)

/-- `str(n)` for an integer. -/
def ofInt : ℤ → Text
  | .ofNat n => Nat.toDigits 10 n
  | .negSucc n => '-' :: Nat.toDigits 10 (n + 1)

/-- `s.split(c)`. -/
def split (c : Char) (s : Text) : List Text := s.splitOn c

/-- `c.join(parts)`. -/
def join (c : Char) (parts : List Text) : Text := [c].intercalate parts

/-- `s.split(c, 1)` when it yields two parts. -/
def splitOnce (c : Char) : Text → Option (Text × Text)
  | [] => none
  | x :: xs => if x = c then some ([], xs) else (splitOnce c xs).map fun p => (x :: p.1, p.2)

/-- `s.rsplit(c, 1)` when it yields two parts. -/
def rsplitOnce (c : Char) (s : Text) : Option (Text × Text) :=
  (splitOnce c s.reverse).map fun p => (p.2.reverse, p.1.reverse)

/-- `sub in s`. -/
def isIn (sub : Text) : Text → Bool
  | [] => sub.isEmpty
  | x :: xs => sub.isPrefixOf (x :: xs) || isIn sub xs

theorem split_join {c : Char} {parts : List Text} (hne : parts ≠ [])
    (hc : ∀ p ∈ parts, c ∉ p) : split c (join c parts) = parts :=
  List.splitOn_intercalate c hc hne

theorem split_join_flatMap {c : Char} {parts : List Text} (hne : parts ≠ []) :
    split c (join c parts) = parts.flatMap (split c) := by
  induction parts with
  | nil => exact (hne rfl).elim
  | cons p ps ih =>
    cases ps with
    | nil => simp [join]
    | cons q qs =>
      rw [join, List.intercalate_cons_cons, List.flatMap_cons, ← ih (List.cons_ne_nil q qs)]
      simp only [List.append_assoc, List.singleton_append]
      exact List.splitOn_append_cons_self p _

theorem join_split (c : Char) (s : Text) : join c (split c s) = s := List.intercalate_splitOn c

theorem notMem_of_mem_split {c : Char} {s p : Text} (h : p ∈ split c s) : c ∉ p := by
  induction s generalizing p with
  | nil =>
    obtain rfl := List.mem_singleton.mp h
    simp
  | cons x xs ih =>
    rw [split, List.splitOn_cons_eq_if_modifyHead] at h
    split at h
    · rcases List.mem_cons.mp h with rfl | h
      · simp
      · exact ih h
    next hx =>
      cases hparts : xs.splitOn c with
      | nil => simp [hparts] at h
      | cons q qs =>
        rw [hparts, List.modifyHead_cons] at h
        have hq : ∀ p ∈ q :: qs, c ∉ p := fun p hp => ih (by rwa [split, hparts])
        rcases List.mem_cons.mp h with rfl | h
        · simp only [List.mem_cons, not_or]
          exact ⟨fun he => hx (by simp [he]), hq q (by simp)⟩
        · exact hq p (by simp [h])

theorem join_eq_nil {c : Char} {parts : List Text} (hp : ∀ p ∈ parts, p ≠ []) :
    join c parts = [] ↔ parts = [] := by
  constructor
  · intro h
    cases parts with
    | nil => rfl
    | cons p ps =>
      cases ps with
      | nil => exact absurd (by simpa [join] using h) (hp p (by simp))
      | cons q qs => simp [join, List.intercalate_cons_cons] at h
  · rintro rfl
    rfl

theorem splitOnce_append {c : Char} {a b : Text} (ha : c ∉ a) :
    splitOnce c (a ++ c :: b) = some (a, b) := by
  induction a with
  | nil => simp [splitOnce]
  | cons x xs ih =>
    have hx : x ≠ c := fun h => ha (by simp [h])
    simp [splitOnce, hx, ih (fun h => ha (by simp [h]))]

theorem splitOnce_append_right {c : Char} {a b : Text} (hb : c ∉ b) :
    splitOnce c (a ++ b) = (splitOnce c a).map fun p => (p.1, p.2 ++ b) := by
  induction a with
  | nil =>
    induction b with
    | nil => rfl
    | cons y ys ih =>
      have hy : y ≠ c := fun h => hb (by simp [h])
      have hrest := ih fun h => hb (by simp [h])
      simp only [List.nil_append, splitOnce] at hrest ⊢
      simp [hy, hrest]
  | cons x xs ih =>
    by_cases hx : x = c
    · simp [splitOnce, hx]
    · simp [splitOnce, hx, ih, Function.comp_def]

/-! Decimal digits are fixed points of the digit map and are not spaces. -/

theorem isDigit_range {c : Char} (h : c.isDigit = true) : 48 ≤ c.toNat ∧ c.toNat ≤ 57 := by
  simp only [Char.isDigit, Bool.and_eq_true, decide_eq_true_eq, ge_iff_le,
    UInt32.le_iff_toNat_le] at h
  exact h

theorem asciiDigit_of_isDigit {c : Char} (h : c.isDigit = true) : asciiDigit c = c := by
  obtain ⟨h1, h2⟩ := isDigit_range h
  have hf : decimalZeros.find? (fun z => decide (z ≤ c.toNat) && decide (c.toNat ≤ z + 9)) =
      some 0x30 := by
    simp only [decimalZeros, List.find?_cons]
    rw [show (decide (0x30 ≤ c.toNat) && decide (c.toNat ≤ 0x30 + 9)) = true by simp; omega]
  simp only [asciiDigit, hf]
  rw [show 0x30 + (c.toNat - 0x30) = c.toNat by omega, Char.ofNat_toNat]

theorem isSpace_of_isDigit {c : Char} (h : c.isDigit = true) : isSpace c = false := by
  obtain ⟨h1, h2⟩ := isDigit_range h
  simp only [isSpace, spacePoints, List.contains_eq_mem, decide_eq_false_iff_not, List.mem_cons,
    List.not_mem_nil, or_false, not_or]
  omega

theorem isIntSpace_of_not_isSpace {c : Char} (h : isSpace c = false) : isIntSpace c = false := by
  rw [isIntSpace, h, Bool.false_and]

theorem stripChars_eq_self {p : Char → Bool} {s : Text} (h : ∀ c ∈ s, p c = false) :
    stripChars p s = s := by
  have key (l : Text) (hl : ∀ c ∈ l, p c = false) : l.dropWhile p = l := by
    cases l with
    | nil => rfl
    | cons x xs => simp [hl x (by simp)]
  rw [stripChars, key s h, key s.reverse (by simpa using h), List.reverse_reverse]

theorem strip_eq_self {s : Text} (h : ∀ c ∈ s, isSpace c = false) : strip s = s :=
  stripChars_eq_self h

theorem unsigned?_of_digits {s : Text} (hne : s ≠ []) (h : ∀ c ∈ s, c.isDigit = true) :
    unsigned? s = some (Nat.ofDigitChars 10 s 0) := by
  have hu : '_' ∉ s := fun hm => by simpa using h _ hm
  have hs : s.splitOn '_' = [s] := by
    have h1 : ∀ p ∈ [s], '_' ∉ p := by simpa using hu
    simpa [split, join] using split_join (by simp) h1
  have hall : s.all Char.isDigit = true := by simpa using h
  simp [unsigned?, hs, hall, hne]

theorem asciiDigit_isDigit {c : Char} (h : isDecimal c = true) :
    (asciiDigit c).isDigit = true := by
  obtain ⟨z, hf⟩ : ∃ z, decimalZeros.find?
      (fun z => decide (z ≤ c.toNat) && decide (c.toNat ≤ z + 9)) = some z := by
    rw [← Option.isSome_iff_exists, List.find?_isSome]
    simpa [isDecimal] using h
  have hz := List.find?_some hf
  simp only [Bool.and_eq_true, decide_eq_true_eq] at hz
  have hten : ∀ k, k ≤ 9 → (Char.ofNat (0x30 + k)).isDigit = true := by decide
  simp only [asciiDigit, hf]
  exact hten _ (by omega)

theorem asciiDigit_cases (c : Char) : asciiDigit c = c ∨ (asciiDigit c).isDigit = true := by
  by_cases h : isDecimal c = true
  · exact Or.inr (asciiDigit_isDigit h)
  · have hf : decimalZeros.find? (fun z => decide (z ≤ c.toNat) && decide (c.toNat ≤ z + 9)) =
        none := by
      rw [List.find?_eq_none]
      simpa [isDecimal] using h
    exact Or.inl (by simp only [asciiDigit, hf])

theorem mem_of_mem_stripChars {p : Char → Bool} {s : Text} {c : Char} (h : c ∈ stripChars p s) :
    c ∈ s := by
  rw [stripChars, List.mem_reverse] at h
  have h := List.dropWhile_subset _ h
  rw [List.mem_reverse] at h
  exact List.dropWhile_subset _ h

/-- Without a minus sign the text is not read as a negative integer. -/
theorem nonneg_of_int? {s : Text} {z : ℤ} (h : int? s = some z) (hs : '-' ∉ s) : 0 ≤ z := by
  have hdash : '-' ∉ stripChars isIntSpace (s.map asciiDigit) := fun hm => by
    obtain ⟨c, hc, he⟩ := List.mem_map.mp (mem_of_mem_stripChars hm)
    rcases asciiDigit_cases c with hself | hdigit
    · rw [← hself, he] at hc
      exact hs hc
    · rw [he] at hdigit
      exact absurd hdigit (by decide)
  unfold int? at h
  split at h
  next r hr => exact absurd (by simp [hr]) hdash
  all_goals
    obtain ⟨n, -, rfl⟩ := Option.map_eq_some_iff.mp h
    exact Int.natCast_nonneg n

theorem isDecimal_of_isDigit {c : Char} (h : c.isDigit = true) : isDecimal c = true := by
  obtain ⟨h1, h2⟩ := isDigit_range h
  simp only [isDecimal, List.any_eq_true, Bool.and_eq_true, decide_eq_true_eq]
  exact ⟨0x30, by decide, h1, by omega⟩

/-- A nonempty text of decimal digits of any script is read as an integer. -/
theorem int?_of_decimal {s : Text} (hne : s ≠ []) (h : ∀ c ∈ s, isDecimal c = true) :
    int? s = some (decimalValue s : ℤ) := by
  have hdig : ∀ c ∈ s.map asciiDigit, c.isDigit = true := by
    intro c hc
    obtain ⟨d, hd, rfl⟩ := List.mem_map.mp hc
    exact asciiDigit_isDigit (h d hd)
  have hstrip : stripChars isIntSpace (s.map asciiDigit) = s.map asciiDigit :=
    stripChars_eq_self fun c hc => isIntSpace_of_not_isSpace (isSpace_of_isDigit (hdig c hc))
  have hu := unsigned?_of_digits (by simpa using hne) hdig
  unfold int?
  rw [hstrip]
  split
  · next r hr => exact absurd (hdig '-' (by rw [hr]; simp)) (by decide)
  · next r hr => exact absurd (hdig '+' (by rw [hr]; simp)) (by decide)
  · rw [hu]; rfl

theorem toDigits_isDigit {n : ℕ} {c : Char} (h : c ∈ Nat.toDigits 10 n) : c.isDigit = true :=
  Nat.isDigit_of_mem_toDigits (by decide) (by decide) h

theorem map_asciiDigit_toDigits (n : ℕ) :
    (Nat.toDigits 10 n).map asciiDigit = Nat.toDigits 10 n := by
  conv_rhs => rw [← List.map_id (Nat.toDigits 10 n)]
  exact List.map_congr_left fun c hc => asciiDigit_of_isDigit (toDigits_isDigit hc)

theorem decimalValue_toDigits (n : ℕ) : decimalValue (Nat.toDigits 10 n) = n := by
  rw [decimalValue, map_asciiDigit_toDigits, Nat.ofDigitChars_ten_toDigits]

theorem unsigned?_toDigits (n : ℕ) : unsigned? (Nat.toDigits 10 n) = some n := by
  rw [unsigned?_of_digits Nat.toDigits_ne_nil fun c hc => toDigits_isDigit hc,
    Nat.ofDigitChars_ten_toDigits]

theorem int?_toDigits (n : ℕ) : int? (Nat.toDigits 10 n) = some (n : ℤ) := by
  have hdec : ∀ c ∈ Nat.toDigits 10 n, isDecimal c = true := by
    intro c hc
    exact isDecimal_of_isDigit (toDigits_isDigit hc)
  rw [int?_of_decimal Nat.toDigits_ne_nil hdec, decimalValue_toDigits]

theorem int?_neg_toDigits (n : ℕ) : int? ('-' :: Nat.toDigits 10 n) = some (-(n : ℤ)) := by
  have hs : stripChars isIntSpace (('-' :: Nat.toDigits 10 n).map asciiDigit) =
      '-' :: Nat.toDigits 10 n := by
    rw [List.map_cons, map_asciiDigit_toDigits, show asciiDigit '-' = '-' by decide]
    apply stripChars_eq_self
    intro c hc
    rcases List.mem_cons.mp hc with rfl | hc
    · decide
    · exact isIntSpace_of_not_isSpace (isSpace_of_isDigit (toDigits_isDigit hc))
  unfold int?
  rw [hs]
  simp [unsigned?_toDigits]

/-- `int(str(z)) == z`. -/
@[simp] theorem int?_ofInt (z : ℤ) : int? (ofInt z) = some z := by
  cases z with
  | ofNat n => exact int?_toDigits n
  | negSucc n => exact int?_neg_toDigits (n + 1)

theorem ofInt_ne_nil (z : ℤ) : ofInt z ≠ [] := by
  cases z with
  | ofNat n => exact Nat.toDigits_ne_nil
  | negSucc n => simp [ofInt]

theorem mem_ofInt {z : ℤ} {c : Char} (h : c ∈ ofInt z) : c.isDigit = true ∨ c = '-' := by
  cases z with
  | ofNat n => exact Or.inl (toDigits_isDigit h)
  | negSucc n =>
    rcases List.mem_cons.mp h with rfl | h
    · exact Or.inr rfl
    · exact Or.inl (toDigits_isDigit h)

theorem mem_ofInt_of_nonneg {z : ℤ} (hz : 0 ≤ z) {c : Char} (h : c ∈ ofInt z) :
    c.isDigit = true := by
  obtain ⟨n, rfl⟩ := Int.eq_ofNat_of_zero_le hz
  exact toDigits_isDigit h

end PyText
