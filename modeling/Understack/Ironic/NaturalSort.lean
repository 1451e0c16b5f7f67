import Understack.Lib.PySort
import Understack.Lib.PyText
import Mathlib.Data.Char
import Mathlib.Data.Sum.Order
import Mathlib.Algebra.Order.Ring.Int

/-! The natural order of switch names of `inspect_hook_update_baremetal_ports.py`. -/
namespace Understack.Ironic.BaremetalPorts
open PyText PySort

/-- Code points with `str.isdigit` that are no decimal digits, as first and last of each block. -/
def otherDigits : List (ℕ × ℕ) :=
  [(0xb2, 0xb3), (0xb9, 0xb9), (0x1369, 0x1371), (0x19da, 0x19da), (0x2070, 0x2070),
    (0x2074, 0x2079), (0x2080, 0x2089), (0x2460, 0x2468), (0x2474, 0x247c), (0x2488, 0x2490),
    (0x24ea, 0x24ea), (0x24f5, 0x24fd), (0x24ff, 0x24ff), (0x2776, 0x277e), (0x2780, 0x2788),
    (0x278a, 0x2792), (0x10a40, 0x10a43), (0x10e60, 0x10e68), (0x11052, 0x1105a),
    (0x1f100, 0x1f10a)]

/-- `part.isdigit()`. -/
def isdigit (part : Text) : Bool :=
  !part.isEmpty && part.all fun c =>
    isDecimal c || otherDigits.any fun block => block.1 ≤ c.toNat && c.toNat ≤ block.2

/-- `re.split(r"(\d+)", value)`: texts and runs of digits in turn, from a text to a text. -/
def splitDigits : Text → List Text
  | [] => [[]]
  | c :: cs =>
    match isDecimal c, splitDigits cs with
    | true, [] :: digits :: rest => [] :: (c :: digits) :: rest
    | true, parts => [] :: [c] :: parts
    | false, text :: rest => (c :: text) :: rest
    | false, [] => [[c]]

inductive Part where
  | number (n : ℤ)
  | text (s : Text)
  deriving DecidableEq, Repr

inductive SortError where
  /-- `int(part)` of a text that is no integer. -/
  | valueError (part : Text)
  /-- `<` between `int` and `str`. -/
  | typeError (left right : Part)
  /-- The first of no names. -/
  | indexError
  deriving DecidableEq, Repr

def partOf (part : Text) : Except SortError Part :=
  if isdigit part then
    match int? part with
    | some n => .ok (.number n)
    | none => .error (.valueError part)
  else .ok (.text part)

def naturalSortKey (value : Text) : Except SortError (List Part) :=
  (splitDigits value).mapM partOf

def Part.lt : Part → Part → Except SortError Bool
  | .number m, .number n => .ok (decide (m < n))
  | .text s, .text t => .ok (decide (s < t))
  | left, right => .error (.typeError left right)

def keyLt : List Part → List Part → Except SortError Bool := listLt Part.lt

def naturalSortedSwitchNames (switchNames : List Text) : Except SortError (List Text) :=
  sortedBy naturalSortKey keyLt switchNames

/-! The shape of a split name. -/

/-- Texts without digits and runs of digits in turn. -/
def Alternates : List Text → Prop
  | [] => False
  | [text] => ∀ c ∈ text, isDecimal c = false
  | text :: digits :: rest =>
    (∀ c ∈ text, isDecimal c = false) ∧ (digits ≠ [] ∧ ∀ c ∈ digits, isDecimal c = true) ∧
      Alternates rest

theorem alternates_splitDigits (value : Text) : Alternates (splitDigits value) := by
  induction value with
  | nil => simp [splitDigits, Alternates]
  | cons c cs ih =>
    rw [splitDigits]
    split
    · next digits rest hc hparts =>
      rw [hparts] at ih
      obtain ⟨htext, ⟨-, hdigits⟩, hrest⟩ := ih
      exact ⟨htext, ⟨List.cons_ne_nil c digits, List.forall_mem_cons.mpr ⟨hc, hdigits⟩⟩, hrest⟩
    · next parts hc _ =>
      exact ⟨List.forall_mem_nil _, ⟨List.cons_ne_nil c [], by simpa using hc⟩, ih⟩
    · next text rest hc hparts =>
      rw [hparts] at ih
      cases rest with
      | nil => exact List.forall_mem_cons.mpr ⟨hc, ih⟩
      | cons digits rest => exact ⟨List.forall_mem_cons.mpr ⟨hc, ih.1⟩, ih.2⟩
    · next hc hparts =>
      rw [hparts] at ih
      exact ih.elim

theorem flatten_splitDigits (value : Text) : (splitDigits value).flatten = value := by
  induction value with
  | nil => rfl
  | cons c cs ih =>
    rw [splitDigits]
    split
    · next hparts =>
      rw [hparts] at ih
      simpa using ih
    · simpa using ih
    · next hparts =>
      rw [hparts] at ih
      simpa using ih
    · next hparts =>
      rw [hparts] at ih
      simpa using ih

def IsAscii (value : Text) : Prop := ∀ c ∈ value, c.toNat < 128

instance decidableIsAscii (value : Text) : Decidable (IsAscii value) :=
  List.decidableBAll (fun c : Char => c.toNat < 128) value

theorem isAscii_part {value part : Text} (h : IsAscii value) (hpart : part ∈ splitDigits value) :
    IsAscii part := by
  intro c hc
  apply h
  rw [← flatten_splitDigits value]
  exact List.mem_flatten.mpr ⟨part, hpart, hc⟩

/-! The keys of ASCII names. -/

theorem isdigit_of_digits {part : Text} (hne : part ≠ []) (h : ∀ c ∈ part, isDecimal c = true) :
    isdigit part = true := by
  simp only [isdigit, Bool.and_eq_true, List.all_eq_true, Bool.or_eq_true]
  exact ⟨by simpa using hne, fun c hc => Or.inl (h c hc)⟩

theorem isdigit_of_text {part : Text} (hascii : IsAscii part)
    (h : ∀ c ∈ part, isDecimal c = false) : isdigit part = false := by
  cases part with
  | nil => rfl
  | cons c cs =>
    have hc : c.toNat < 128 := hascii c List.mem_cons_self
    have hother : (otherDigits.any fun block => block.1 ≤ c.toNat && c.toNat ≤ block.2) = false := by
      simp only [otherDigits, List.any_eq_false, List.mem_cons, List.not_mem_nil, or_false,
        Bool.and_eq_true, decide_eq_true_eq]
      rintro block hblock ⟨hle, -⟩
      have hlow : 128 ≤ block.1 := by
        rcases hblock with rfl | rfl | rfl | rfl | rfl | rfl | rfl | rfl | rfl | rfl | rfl | rfl |
          rfl | rfl | rfl | rfl | rfl | rfl | rfl | rfl <;> decide
      omega
    simp [isdigit, h c List.mem_cons_self, hother]

/-- The key of a part of an ASCII name. -/
def part (s : Text) : Part :=
  if s ≠ [] ∧ s.all isDecimal then .number (decimalValue s) else .text s

theorem part_digits {s : Text} (hne : s ≠ []) (h : ∀ c ∈ s, isDecimal c = true) :
    part s = .number (decimalValue s) := if_pos ⟨hne, by simpa using h⟩

theorem part_text {s : Text} (h : ∀ c ∈ s, isDecimal c = false) : part s = .text s := by
  refine if_neg ?_
  rintro ⟨hne, hall⟩
  obtain ⟨c, hc⟩ := List.exists_mem_of_ne_nil s hne
  rw [List.all_eq_true] at hall
  simpa [h c hc] using hall c hc

theorem partOf_ascii {s : Text} (hascii : IsAscii s)
    (h : (∀ c ∈ s, isDecimal c = false) ∨ s ≠ [] ∧ ∀ c ∈ s, isDecimal c = true) :
    partOf s = .ok (part s) := by
  unfold partOf
  rcases h with htext | ⟨hne, hdigits⟩
  · rw [isdigit_of_text hascii htext, part_text htext]
    rfl
  · rw [isdigit_of_digits hne hdigits, int?_of_decimal hne hdigits, part_digits hne hdigits]
    rfl

theorem mem_join {sep c : Char} {parts : List Text} {p : Text} (hp : p ∈ parts) (hc : c ∈ p) :
    c ∈ join sep parts := by
  induction parts with
  | nil => cases hp
  | cons q rest ih =>
    cases rest with
    | nil =>
      rw [List.mem_singleton.mp hp] at hc
      simpa [join] using hc
    | cons r rest =>
      rw [join, List.intercalate_cons_cons, List.mem_append, List.mem_append]
      rcases List.mem_cons.mp hp with rfl | hp
      · exact Or.inl (Or.inl hc)
      · exact Or.inr (ih hp)

theorem exists_isDigit_of_unsigned? {s : Text} {n : ℕ} (h : unsigned? s = some n) :
    ∃ c ∈ s, c.isDigit = true := by
  unfold unsigned? at h
  dsimp only at h
  split_ifs at h with hgroups
  obtain ⟨g, hg⟩ := List.exists_mem_of_ne_nil _ (List.splitOn_ne_nil '_' s)
  have hdigits := List.all_eq_true.mp hgroups g hg
  rw [Bool.and_eq_true, List.all_eq_true] at hdigits
  obtain ⟨c, hc⟩ := List.exists_mem_of_ne_nil g (by simpa using hdigits.1)
  refine ⟨c, ?_, hdigits.2 c hc⟩
  rw [← @List.intercalate_splitOn Char s _ _ '_']
  exact mem_join hg hc

/-- A text with an integer value has a decimal digit. -/
theorem exists_isDecimal_of_int? {s : Text} {z : ℤ} (h : int? s = some z) :
    ∃ c ∈ s, isDecimal c = true := by
  have hstrip : ∃ c ∈ stripChars isIntSpace (s.map asciiDigit), c.isDigit = true := by
    unfold int? at h
    split at h
    all_goals
      obtain ⟨n, hn, -⟩ := Option.map_eq_some_iff.mp h
      obtain ⟨c, hc, hdigit⟩ := exists_isDigit_of_unsigned? hn
    · next r hr => exact ⟨c, by rw [hr]; exact List.mem_cons_of_mem _ hc, hdigit⟩
    · next r hr => exact ⟨c, by rw [hr]; exact List.mem_cons_of_mem _ hc, hdigit⟩
    · exact ⟨c, hc, hdigit⟩
  obtain ⟨d, hd, hdigit⟩ := hstrip
  obtain ⟨c, hc, rfl⟩ := List.mem_map.mp (mem_of_mem_stripChars hd)
  refine ⟨c, hc, ?_⟩
  by_contra hnot
  have hnone : decimalZeros.find? (fun z => decide (z ≤ c.toNat) && decide (c.toNat ≤ z + 9)) =
      none := by
    rw [List.find?_eq_none]
    simpa [isDecimal] using hnot
  simp only [asciiDigit, hnone] at hdigit
  exact hnot (isDecimal_of_isDigit hdigit)

/-- A part that is read is a number where it is a run of digits, else a text. -/
theorem partOf_eq_ok {s : Text} {p : Part}
    (h : (∀ c ∈ s, isDecimal c = false) ∨ s ≠ [] ∧ ∀ c ∈ s, isDecimal c = true)
    (hp : partOf s = .ok p) : p = part s := by
  unfold partOf at hp
  rcases h with htext | ⟨hne, hdigits⟩
  · rw [part_text htext]
    split_ifs at hp with hdigit
    · split at hp
      · next n hn =>
        obtain ⟨c, hc, hdecimal⟩ := exists_isDecimal_of_int? hn
        rw [htext c hc] at hdecimal
        cases hdecimal
      · cases hp
    · exact (Except.ok.inj hp).symm
  · rw [isdigit_of_digits hne hdigits, int?_of_decimal hne hdigits] at hp
    rw [part_digits hne hdigits]
    exact (Except.ok.inj hp).symm

theorem Alternates.text_or_digits {parts : List Text} (h : Alternates parts) :
    ∀ s ∈ parts, (∀ c ∈ s, isDecimal c = false) ∨ s ≠ [] ∧ ∀ c ∈ s, isDecimal c = true := by
  induction parts using Alternates.induct with
  | case1 => exact h.elim
  | case2 text =>
    intro s hs
    rw [List.mem_singleton.mp hs]
    exact Or.inl h
  | case3 text digits rest ih =>
    obtain ⟨htext, hdigits, hrest⟩ := h
    intro s hs
    rcases List.mem_cons.mp hs with rfl | hs
    · exact Or.inl htext
    · rcases List.mem_cons.mp hs with rfl | hs
      · exact Or.inr hdigits
      · exact ih hrest s hs

/-- The key of an ASCII name. -/
def keyOf (value : Text) : List Part := (splitDigits value).map part

theorem naturalSortKey_eq_ok {value : Text} {key : List Part}
    (h : naturalSortKey value = .ok key) : key = keyOf value := by
  have hparts := (alternates_splitDigits value).text_or_digits
  unfold naturalSortKey at h
  unfold keyOf
  generalize splitDigits value = parts at h hparts ⊢
  induction parts generalizing key with
  | nil =>
    cases h
    rfl
  | cons s parts ih =>
    rw [List.mapM_cons] at h
    obtain ⟨p, hp, h⟩ := Runs.bind_eq_ok h
    obtain ⟨rest, hrest, h⟩ := Runs.bind_eq_ok h
    cases h
    rw [List.map_cons, ih hrest fun t ht => hparts t (List.mem_cons_of_mem s ht),
      partOf_eq_ok (hparts s List.mem_cons_self) hp]

theorem naturalSortKey_ascii {value : Text} (h : IsAscii value) :
    naturalSortKey value = .ok (keyOf value) :=
  PySets.mapM_eq_ok fun s hs => partOf_ascii (isAscii_part h hs)
    ((alternates_splitDigits value).text_or_digits s hs)

/-! The order of the keys. -/

/-- Texts and numbers in turn. -/
def TextFirst : Bool → List Part → Prop
  | _, [] => True
  | true, .text _ :: rest => TextFirst false rest
  | false, .number _ :: rest => TextFirst true rest
  | _, _ => False

theorem Alternates.textFirst {parts : List Text} (h : Alternates parts) :
    TextFirst true (parts.map part) := by
  induction parts using Alternates.induct with
  | case1 => exact h.elim
  | case2 text =>
    rw [List.map_cons, part_text h]
    trivial
  | case3 text digits rest ih =>
    obtain ⟨htext, ⟨hne, hdigits⟩, hrest⟩ := h
    rw [List.map_cons, List.map_cons, part_text htext, part_digits hne hdigits]
    exact ih hrest

def Part.code : Part → ℤ ⊕ₗ Text
  | .number n => Sum.inlₗ n
  | .text s => Sum.inrₗ s

theorem code_injective : Function.Injective Part.code := by
  intro p q h
  cases p with
  | number m => cases q with
    | number n => exact congrArg Part.number (Sum.inl_injective (toLex.injective h))
    | text t => cases toLex.injective h
  | text s => cases q with
    | number n => cases toLex.injective h
    | text t => exact congrArg Part.text (Sum.inr_injective (toLex.injective h))

theorem TextFirst.lt_head {b : Bool} {p q : Part} {key key' : List Part}
    (h : TextFirst b (p :: key)) (h' : TextFirst b (q :: key')) :
    Part.lt p q = .ok (decide (p.code < q.code)) := by
  cases b <;> cases p <;> cases q <;> first
    | exact h.elim
    | exact h'.elim
    | simp [Part.lt, Part.code]

theorem TextFirst.tails {b : Bool} {p : Part} {key key' : List Part}
    (h : TextFirst b (p :: key)) (h' : TextFirst b (p :: key')) :
    ∃ b', TextFirst b' key ∧ TextFirst b' key' := by
  cases b <;> cases p <;> first
    | exact h.elim
    | exact ⟨_, h, h'⟩

/-- Comparing the keys of two names does not raise, as texts meet texts and numbers meet
numbers. -/
theorem keyLt_follows (b : Bool) :
    Follows keyLt (TextFirst b) (fun key => key.map Part.code) := by
  intro key key' hkey hkey'
  induction key generalizing b key' with
  | nil => cases key' <;> simp [keyLt, listLt]
  | cons p key ih =>
    cases key' with
    | nil => simp [keyLt, listLt]
    | cons q key' =>
      simp only [keyLt, listLt, List.map_cons, List.cons_lt_cons_iff]
      split_ifs with hpq
      · subst hpq
        obtain ⟨b', hrest, hrest'⟩ := hkey.tails hkey'
        rw [show listLt Part.lt key key' = _ from ih b' key' hrest hrest']
        simp
      · have hne : p.code ≠ q.code := fun h => hpq (code_injective h)
        rw [hkey.lt_head hkey']
        simp [hne]

theorem textFirst_keyOf (value : Text) : TextFirst true (keyOf value) :=
  (alternates_splitDigits value).textFirst

def orderOf (value : Text) : List (ℤ ⊕ₗ Text) := (keyOf value).map Part.code

theorem keyLt_keyOf (s t : Text) :
    keyLt (keyOf s) (keyOf t) = .ok (decide (orderOf s < orderOf t)) :=
  (keyLt_follows true _ _ (textFirst_keyOf s) (textFirst_keyOf t)).trans
    (congrArg Except.ok (decide_eq_decide.mpr Iff.rfl))

/-- Before it in the natural order. -/
def Precedes (s t : Text) : Prop :=
  ∃ key key', naturalSortKey s = .ok key ∧ naturalSortKey t = .ok key' ∧ keyLt key key' = .ok true

theorem precedes_iff {s t : Text} (hs : IsAscii s) (ht : IsAscii t) :
    Precedes s t ↔ orderOf s < orderOf t := by
  constructor
  · rintro ⟨key, key', hkey, hkey', hlt⟩
    cases (naturalSortKey_ascii hs).symm.trans hkey
    cases (naturalSortKey_ascii ht).symm.trans hkey'
    rw [keyLt_keyOf] at hlt
    exact of_decide_eq_true (Except.ok.inj hlt)
  · intro hlt
    refine ⟨_, _, naturalSortKey_ascii hs, naturalSortKey_ascii ht, ?_⟩
    rw [keyLt_keyOf, decide_eq_true hlt]

/-- The first of the sorted names precedes or equals all. -/
theorem naturalSortedSwitchNames_spec {names : List Text}
    (hkeys : ∀ s ∈ names, ∃ key, naturalSortKey s = .ok key) (hne : names ≠ []) :
    ∃ first rest, naturalSortedSwitchNames names = .ok (first :: rest) ∧ first ∈ names ∧
      ∀ s ∈ names, orderOf first ≤ orderOf s :=
  head_sortedBy (keyLt_follows true) (fun s hs => by
    obtain ⟨key, hkey⟩ := hkeys s hs
    rw [hkey, naturalSortKey_eq_ok hkey]) (fun s _ => textFirst_keyOf s) hne

/-! Names with equal keys. -/

/-- The name without the leading zeros of its runs of digits. -/
def withoutLeadingZeros (value : Text) : List Text :=
  (splitDigits value).map fun part => part.dropWhile (· = '0')

theorem isDigit_of_ascii {c : Char} (hascii : c.toNat < 128) (h : isDecimal c = true) :
    c.isDigit = true := by
  simp only [isDecimal, List.any_eq_true, Bool.and_eq_true, decide_eq_true_eq] at h
  obtain ⟨z, hz, hle, hge⟩ := h
  have hzero : z = 0x30 := by
    simp only [decimalZeros, List.mem_cons, List.not_mem_nil, or_false] at hz
    omega
  subst hzero
  simp only [Char.isDigit, Bool.and_eq_true, decide_eq_true_eq, ge_iff_le, UInt32.le_iff_toNat_le]
  exact ⟨hle, hge⟩

theorem ofDigitChars_concat (s : Text) (c : Char) :
    Nat.ofDigitChars 10 (s ++ [c]) 0 = 10 * Nat.ofDigitChars 10 s 0 + (c.toNat - 48) := by
  rw [Nat.ofDigitChars_append, Nat.ofDigitChars_cons, Nat.ofDigitChars_nil]
  rfl

theorem ofDigitChars_dropWhile (s : Text) :
    Nat.ofDigitChars 10 (s.dropWhile (· = '0')) 0 = Nat.ofDigitChars 10 s 0 := by
  induction s with
  | nil => rfl
  | cons c cs ih =>
    by_cases hc : c = '0'
    · subst hc
      rw [List.dropWhile_cons_of_pos (by simp), ih, Nat.ofDigitChars_cons]
      rfl
    · rw [List.dropWhile_cons_of_neg (by simpa using hc)]

theorem ofDigitChars_pos {s : Text} (hne : s ≠ []) (hdigits : ∀ c ∈ s, c.isDigit = true)
    (hhead : s.head? ≠ some '0') : 0 < Nat.ofDigitChars 10 s 0 := by
  cases s with
  | nil => exact (hne rfl).elim
  | cons c cs =>
    obtain ⟨hlow, -⟩ := isDigit_range (hdigits c List.mem_cons_self)
    have hzero : c.toNat ≠ 48 := by
      intro h
      apply hhead
      rw [List.head?_cons, ← Char.ofNat_toNat c, h]
    have hpow : 0 < 10 ^ cs.length := Nat.pow_pos (by decide)
    rw [Nat.ofDigitChars_cons, Nat.ofDigitChars_eq_ofDigitChars_zero, Nat.mul_zero, Nat.zero_add]
    have hchar : 0 < c.toNat - '0'.toNat := by
      rw [show '0'.toNat = 48 from rfl]
      omega
    have := Nat.mul_pos hpow hchar
    omega

/-- Runs of digits without leading zeros are determined by their values; the last digits are
compared first. -/
theorem eq_of_ofDigitChars_eq {s t : Text} (hs : ∀ c ∈ s, c.isDigit = true)
    (ht : ∀ c ∈ t, c.isDigit = true) (hs' : s.head? ≠ some '0') (ht' : t.head? ≠ some '0')
    (h : Nat.ofDigitChars 10 s 0 = Nat.ofDigitChars 10 t 0) : s = t := by
  induction s using List.reverseRecOn generalizing t with
  | nil =>
    by_contra hne
    have := ofDigitChars_pos (Ne.symm hne) ht ht'
    rw [← h, Nat.ofDigitChars_nil] at this
    omega
  | append_singleton s c ih =>
    induction t using List.reverseRecOn with
    | nil =>
      have := ofDigitChars_pos (by simp) hs hs'
      rw [h, Nat.ofDigitChars_nil] at this
      omega
    | append_singleton t d _ =>
      rw [ofDigitChars_concat, ofDigitChars_concat] at h
      obtain ⟨hc, hc'⟩ := isDigit_range (hs c (by simp))
      obtain ⟨hd, hd'⟩ := isDigit_range (ht d (by simp))
      have hchar : c = d := by
        rw [← Char.ofNat_toNat c, ← Char.ofNat_toNat d]
        congr 1
        omega
      have hhead {u : Text} {e : Char} (hu : (u ++ [e]).head? ≠ some '0') :
          u.head? ≠ some '0' := by
        intro hzero
        apply hu
        rw [List.head?_append, hzero]
        rfl
      rw [hchar, ih (fun e he => hs e (by simp [he])) (fun e he => ht e (by simp [he]))
        (hhead hs') (hhead ht') (by omega)]

theorem dropWhile_eq_of_part_eq {p q : Text} (hp : IsAscii p) (hq : IsAscii q)
    (h : part p = part q) : p.dropWhile (· = '0') = q.dropWhile (· = '0') := by
  unfold part at h
  split_ifs at h with hdp hdq
  · have hdigits {s : Text} (hascii : IsAscii s) (hs : s.all isDecimal = true) :
        ∀ c ∈ s, c.isDigit = true := fun c hc =>
      isDigit_of_ascii (hascii c hc) (List.all_eq_true.mp hs c hc)
    have hvalue {s : Text} (hs : ∀ c ∈ s, c.isDigit = true) :
        decimalValue s = Nat.ofDigitChars 10 (s.dropWhile (· = '0')) 0 := by
      rw [ofDigitChars_dropWhile, decimalValue,
        List.map_congr_left fun c hc => asciiDigit_of_isDigit (hs c hc), List.map_id']
    have hhead (s : Text) : (s.dropWhile (· = '0')).head? ≠ some '0' := by
      intro hzero
      have := List.head?_dropWhile_not (· = '0') s
      rw [hzero] at this
      simp at this
    have hpd := hdigits hp hdp.2
    have hqd := hdigits hq hdq.2
    have hint : (decimalValue p : ℤ) = decimalValue q := Part.number.inj h
    rw [hvalue hpd, hvalue hqd] at hint
    exact eq_of_ofDigitChars_eq (fun c hc => hpd c (List.dropWhile_subset _ hc))
      (fun c hc => hqd c (List.dropWhile_subset _ hc)) (hhead p) (hhead q) (Int.ofNat.inj hint)
  · rw [Part.text.inj h]

/-- Names with equal keys are equal up to leading zeros. -/
theorem withoutLeadingZeros_eq {s t : Text} (hs : IsAscii s) (ht : IsAscii t)
    (h : orderOf s = orderOf t) : withoutLeadingZeros s = withoutLeadingZeros t := by
  have hkeys : keyOf s = keyOf t := List.map_injective_iff.mpr code_injective h
  have hparts {p : Text} (hp : p ∈ splitDigits s) {q : Text} (hq : q ∈ splitDigits t)
      (hpq : part p = part q) := dropWhile_eq_of_part_eq (isAscii_part hs hp)
        (isAscii_part ht hq) hpq
  unfold keyOf at hkeys
  unfold withoutLeadingZeros
  generalize splitDigits s = ps at hkeys hparts ⊢
  generalize splitDigits t = qs at hkeys hparts ⊢
  induction ps generalizing qs with
  | nil =>
    cases qs with
    | nil => rfl
    | cons q qs => cases hkeys
  | cons p ps ih =>
    cases qs with
    | nil => cases hkeys
    | cons q qs =>
      obtain ⟨hpq, hrest⟩ := List.cons.inj hkeys
      rw [List.map_cons, List.map_cons, hparts List.mem_cons_self List.mem_cons_self hpq,
        ih qs hrest fun hp _ hq => hparts (List.mem_cons_of_mem p hp) (List.mem_cons_of_mem q hq)]

end Understack.Ironic.BaremetalPorts
