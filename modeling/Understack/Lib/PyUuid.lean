import Mathlib.Data.List.Induction
import Mathlib.Tactic.IntervalCases
import Understack.Lib.PyText

/-! `str.replace`, `int(s, 16)`, and the reading and writing of UUIDs by Python's `uuid.UUID`. -/
namespace PyText

theorem splitOnce_eq_some {c : Char} {s a b : Text} (h : splitOnce c s = some (a, b)) :
    s = a ++ c :: b := by
  induction s generalizing a with
  | nil => cases h
  | cons x s ih =>
    unfold splitOnce at h
    split_ifs at h with hx
    · cases h
      rw [hx]
      rfl
    · obtain ⟨p, hp, heq⟩ := Option.map_eq_some_iff.mp h
      cases heq
      rw [List.cons_append, ← ih hp]

theorem splitOnce_not_mem {c : Char} {s a b : Text} (h : splitOnce c s = some (a, b)) : c ∉ a := by
  induction s generalizing a with
  | nil => cases h
  | cons x s ih =>
    unfold splitOnce at h
    split_ifs at h with hx
    · cases h
      simp
    · obtain ⟨p, hp, heq⟩ := Option.map_eq_some_iff.mp h
      cases heq
      rw [List.mem_cons, not_or]
      exact ⟨fun hc => hx hc.symm, ih hp⟩

/-- The text after skipping some characters, with every occurrence of `old` replaced. -/
def replaceFrom (old new : Text) : ℕ → Text → Text
  | _, [] => []
  | k + 1, _ :: s => replaceFrom old new k s
  | 0, c :: s =>
    if old.isPrefixOf (c :: s) then new ++ replaceFrom old new (old.length - 1) s
    else c :: replaceFrom old new 0 s

/-- `s.replace(old, new)` for a nonempty `old`. -/
def replaceAll (old new s : Text) : Text := replaceFrom old new 0 s

/-- `s.removeprefix(p)`. -/
def removePrefix (p s : Text) : Text := if p.isPrefixOf s then s.drop p.length else s

theorem removePrefix_append (p s : Text) : removePrefix p (p ++ s) = s := by
  have hp : p.isPrefixOf (p ++ s) = true := by simp
  rw [removePrefix, if_pos hp, List.drop_left]

theorem replaceFrom_length (old new a b : Text) :
    replaceFrom old new a.length (a ++ b) = replaceFrom old new 0 b := by
  induction a with
  | nil => rfl
  | cons c a ih => exact ih

/-- Nothing happens where a character of `old` is missing. -/
theorem replaceAll_eq_self {old new s : Text} {c : Char} (hc : c ∈ old) (hs : c ∉ s) :
    replaceAll old new s = s := by
  induction s with
  | nil => rfl
  | cons x s ih =>
    have hnot : ¬old.isPrefixOf (x :: s) = true := by
      intro hp
      exact hs ((List.isPrefixOf_iff_prefix.mp hp).subset hc)
    rw [List.mem_cons, not_or] at hs
    rw [replaceAll, replaceFrom, if_neg hnot]
    exact congrArg (x :: ·) (ih hs.2)

/-- A text that ends in a mark occurs once where the mark does. -/
theorem replaceAll_mark {p a b : Text} {c : Char} (hp : c ∉ p) (ha : c ∉ a) (hb : c ∉ b) :
    replaceAll (p ++ [c]) [] (a ++ (p ++ [c]) ++ b) = a ++ b := by
  induction a with
  | nil =>
    have hself : replaceAll (p ++ [c]) [] b = b :=
      replaceAll_eq_self (List.mem_append_right p (List.mem_singleton_self c)) hb
    cases p with
    | nil =>
      simp only [replaceAll] at hself
      simp [replaceAll, replaceFrom]
      exact hself
    | cons x p =>
      have hpre : (x :: p ++ [c]).isPrefixOf (x :: (p ++ [c] ++ b)) = true := by
        rw [List.isPrefixOf_iff_prefix]
        exact ⟨b, by simp⟩
      have hlen : (x :: p ++ [c]).length - 1 = (p ++ [c]).length := by simp
      show replaceFrom (x :: p ++ [c]) [] 0 (x :: (p ++ [c] ++ b)) = b
      rw [replaceFrom, if_pos hpre, hlen, replaceFrom_length]
      exact hself
  | cons y a ih =>
    rw [List.mem_cons, not_or] at ha
    -- the mark of `old` would be found before the one that there is
    have hnot : ¬(p ++ [c]).isPrefixOf (y :: (a ++ (p ++ [c]) ++ b)) = true := by
      intro hpre
      obtain ⟨rest, hrest⟩ := List.isPrefixOf_iff_prefix.mp hpre
      have hleft : splitOnce c (p ++ c :: rest) = some (p, rest) := splitOnce_append hp
      have hmem : c ∉ y :: a ++ p := by
        simp only [List.cons_append, List.mem_cons, List.mem_append, not_or]
        exact ⟨ha.1, ha.2, hp⟩
      have hright : splitOnce c (y :: a ++ p ++ c :: b) = some (y :: a ++ p, b) :=
        splitOnce_append hmem
      have heq : p ++ c :: rest = y :: a ++ p ++ c :: b := by simpa using hrest
      rw [heq, hright] at hleft
      have hlen := congrArg List.length (Prod.mk.inj (Option.some.inj hleft)).1
      simp at hlen
      omega
    rw [replaceAll, List.cons_append, List.cons_append, replaceFrom, if_neg hnot]
    exact congrArg (y :: ·) (ih ha.2)

theorem length_replaceFrom_le (old : Text) (k : ℕ) (s : Text) :
    (replaceFrom old [] k s).length ≤ s.length := by
  induction s generalizing k with
  | nil => simp [replaceFrom]
  | cons c s ih =>
    cases k with
    | succ k => exact (ih k).trans (Nat.le_succ _)
    | zero =>
      unfold replaceFrom
      split_ifs
      · exact (ih _).trans (Nat.le_succ _)
      · exact Nat.succ_le_succ (ih 0)

/-- Removing a text that occurs makes the whole shorter. -/
theorem length_replaceAll_lt (old a b : Text) (hold : old ≠ []) :
    (replaceAll old [] (a ++ (old ++ b))).length < (a ++ (old ++ b)).length := by
  have hcut (c : Char) (s : Text) (hp : old.isPrefixOf (c :: s) = true) :
      (replaceAll old [] (c :: s)).length < (c :: s).length := by
    rw [replaceAll, replaceFrom, if_pos hp]
    exact Nat.lt_succ_of_le (length_replaceFrom_le old _ s)
  induction a with
  | nil =>
    obtain ⟨c, old', rfl⟩ := List.exists_cons_of_ne_nil hold
    apply hcut c (old' ++ b)
    rw [List.isPrefixOf_iff_prefix]
    exact List.prefix_append (c :: old') b
  | cons y a ih =>
    by_cases hp : old.isPrefixOf (y :: (a ++ (old ++ b))) = true
    · exact hcut y _ hp
    · rw [List.cons_append, replaceAll, replaceFrom, if_neg hp]
      exact Nat.succ_lt_succ ih

/-! Hexadecimal digits and `int(s, 16)`. -/

def hexDigit? (c : Char) : Option ℕ :=
  if 48 ≤ c.toNat ∧ c.toNat ≤ 57 then some (c.toNat - 48)
  else if 97 ≤ c.toNat ∧ c.toNat ≤ 102 then some (c.toNat - 87)
  else if 65 ≤ c.toNat ∧ c.toNat ≤ 70 then some (c.toNat - 55)
  else none

def isHexDigit (c : Char) : Bool := (hexDigit? c).isSome

/-- The number that a text of hexadecimal digits stands for. -/
def hexValue (s : Text) : ℕ := s.foldl (fun n c => 16 * n + (hexDigit? c).getD 0) 0

/-- Hexadecimal digits in groups separated by single underscores. -/
def unsignedHex? (s : Text) : Option ℕ :=
  let groups := s.splitOn '_'
  if groups.all (fun g => !g.isEmpty && g.all isHexDigit) then some (hexValue groups.flatten)
  else none

/-- The digits after a base specifier, which one underscore may follow. -/
def hexBody? : Text → Option ℕ
  | '0' :: 'x' :: '_' :: r => unsignedHex? r
  | '0' :: 'X' :: '_' :: r => unsignedHex? r
  | '0' :: 'x' :: r => unsignedHex? r
  | '0' :: 'X' :: r => unsignedHex? r
  | r => unsignedHex? r

/-- `int(s, 16)`; `none` where Python raises `ValueError`. -/
def hexInt? (s : Text) : Option ℤ :=
  match stripChars isIntSpace (s.map asciiDigit) with
  | '-' :: r => (hexBody? r).map fun n : ℕ => -(n : ℤ)
  | '+' :: r => (hexBody? r).map fun n : ℕ => (n : ℤ)
  | r => (hexBody? r).map fun n : ℕ => (n : ℤ)

/-- `'%x'` of a number below 16. -/
def hexChar (n : ℕ) : Char := if n < 10 then Char.ofNat (48 + n) else Char.ofNat (87 + n)

/-- `'%0kx' % n` for a number of at most `k` digits. -/
def hexPad : ℕ → ℕ → Text
  | 0, _ => []
  | k + 1, n => hexPad k (n / 16) ++ [hexChar (n % 16)]

/-- `UUID(t).int`; `none` where the constructor raises `ValueError`. -/
def uuid? (t : Text) : Option ℕ :=
  let bare := replaceAll "uuid:".toList [] (replaceAll "urn:".toList [] t)
  let hex := (stripChars (fun c => c == '\x7b' || c == '\x7d') bare).filter (· ≠ '-')
  if hex.length = 32 then
    match hexInt? hex with
    | some z => if 0 ≤ z ∧ z < 2 ^ 128 then some z.toNat else none
    | none => none
  else none

/-- `str(UUID(int=n))`. -/
def formatUuid (n : ℕ) : Text :=
  let hex := hexPad 32 n
  hex.take 8 ++ '-' :: (hex.drop 8).take 4 ++ '-' :: (hex.drop 12).take 4 ++
    '-' :: (hex.drop 16).take 4 ++ '-' :: hex.drop 20

theorem isHexDigit_range {c : Char} (h : isHexDigit c = true) :
    48 ≤ c.toNat ∧ c.toNat ≤ 57 ∨ 97 ≤ c.toNat ∧ c.toNat ≤ 102 ∨ 65 ≤ c.toNat ∧ c.toNat ≤ 70 := by
  unfold isHexDigit hexDigit? at h
  split_ifs at h with h1 h2 h3
  · exact Or.inl h1
  · exact Or.inr (Or.inl h2)
  · exact Or.inr (Or.inr h3)
  · cases h

/-- A character that is no hexadecimal digit is not among them. -/
theorem not_mem_of_hex {s : Text} (h : ∀ c ∈ s, isHexDigit c = true) {d : Char}
    (hd : isHexDigit d = false) : d ∉ s := by
  intro hm
  rw [h d hm] at hd
  cases hd

theorem asciiDigit_of_hex {c : Char} (h : isHexDigit c = true) : asciiDigit c = c := by
  rcases isHexDigit_range h with hdigit | hletter
  · apply asciiDigit_of_isDigit
    simp only [Char.isDigit, Bool.and_eq_true, decide_eq_true_eq, ge_iff_le,
      UInt32.le_iff_toNat_le]
    exact hdigit
  · have hf : decimalZeros.find?
        (fun z => decide (z ≤ c.toNat) && decide (c.toNat ≤ z + 9)) = none := by
      simp only [decimalZeros, List.find?_eq_none, List.mem_cons, List.not_mem_nil, or_false,
        Bool.and_eq_true, decide_eq_true_eq]
      omega
    simp only [asciiDigit, hf]

theorem isSpace_of_hex {c : Char} (h : isHexDigit c = true) : isSpace c = false := by
  have hrange := isHexDigit_range h
  simp only [isSpace, spacePoints, List.contains_eq_mem, decide_eq_false_iff_not, List.mem_cons,
    List.not_mem_nil, or_false, not_or]
  omega

theorem unsignedHex?_of_hex {s : Text} (hne : s ≠ []) (h : ∀ c ∈ s, isHexDigit c = true) :
    unsignedHex? s = some (hexValue s) := by
  have hu : '_' ∉ s := not_mem_of_hex h (by decide)
  have hs : s.splitOn '_' = [s] := by
    have h1 : ∀ p ∈ [s], '_' ∉ p := by simpa using hu
    simpa [split, join] using split_join (by simp) h1
  have hall : s.all isHexDigit = true := by simpa using h
  simp [unsignedHex?, hs, hall, hne]

/-- A nonempty text of hexadecimal digits is read as the number that it stands for. -/
theorem hexInt?_of_hex {s : Text} (hne : s ≠ []) (h : ∀ c ∈ s, isHexDigit c = true) :
    hexInt? s = some (hexValue s : ℤ) := by
  have hmap : s.map asciiDigit = s := by
    conv_rhs => rw [← List.map_id s]
    exact List.map_congr_left fun c hc => asciiDigit_of_hex (h c hc)
  have hstrip : stripChars isIntSpace s = s :=
    stripChars_eq_self fun c hc => isIntSpace_of_not_isSpace (isSpace_of_hex (h c hc))
  have hbody : hexBody? s = some (hexValue s) := by
    have hx : 'x' ∉ s := not_mem_of_hex h (by decide)
    have hX : 'X' ∉ s := not_mem_of_hex h (by decide)
    unfold hexBody?
    split
    · simp at hx
    · simp at hX
    · simp at hx
    · simp at hX
    · exact unsignedHex?_of_hex hne h
  unfold hexInt?
  rw [hmap, hstrip]
  split
  · next r => exact absurd (h '-' (by simp)) (by decide)
  · next r => exact absurd (h '+' (by simp)) (by decide)
  · rw [hbody]; rfl

theorem hexValue_append (a : Text) (c : Char) :
    hexValue (a ++ [c]) = 16 * hexValue a + (hexDigit? c).getD 0 := by
  simp [hexValue]

theorem hexValue_lt (s : Text) (h : ∀ c ∈ s, isHexDigit c = true) :
    hexValue s < 16 ^ s.length := by
  induction s using List.reverseRecOn with
  | nil => simp [hexValue]
  | append_singleton s c ih =>
    have hlt := ih fun d hd => h d (by simp [hd])
    have hc : (hexDigit? c).getD 0 < 16 := by
      have hrange := isHexDigit_range (h c (by simp))
      unfold hexDigit?
      split_ifs <;> simp <;> omega
    rw [hexValue_append, List.length_append, List.length_singleton, Nat.pow_succ]
    omega

theorem hexDigit?_hexChar {n : ℕ} (h : n < 16) : hexDigit? (hexChar n) = some n := by
  interval_cases n <;> decide

@[simp] theorem hexPad_length (k n : ℕ) : (hexPad k n).length = k := by
  induction k generalizing n with
  | zero => rfl
  | succ k ih => simp [hexPad, ih]

theorem isHexDigit_of_mem_hexPad {k n : ℕ} {c : Char} (h : c ∈ hexPad k n) :
    isHexDigit c = true := by
  induction k generalizing n with
  | zero => cases h
  | succ k ih =>
    rcases List.mem_append.mp h with h | h
    · exact ih h
    · rw [List.mem_singleton.mp h, isHexDigit, hexDigit?_hexChar (Nat.mod_lt n (by decide))]
      rfl

theorem hexValue_hexPad {k n : ℕ} (h : n < 16 ^ k) : hexValue (hexPad k n) = n := by
  induction k generalizing n with
  | zero => simp [hexPad, hexValue]; omega
  | succ k ih =>
    have hdiv : n / 16 < 16 ^ k := by
      rw [Nat.pow_succ] at h
      omega
    rw [hexPad, hexValue_append, ih hdiv, hexDigit?_hexChar (Nat.mod_lt n (by decide))]
    exact Nat.div_add_mod n 16

/-- A text that is 32 hexadecimal digits but for its dashes is read as a UUID, with or without
the dashes. -/
theorem uuid?_of_hex {t : Text} (hlen : (t.filter (· ≠ '-')).length = 32)
    (h : ∀ c ∈ t.filter (· ≠ '-'), isHexDigit c = true) :
    uuid? t = some (hexValue (t.filter (· ≠ '-'))) := by
  have hchar (c : Char) (hc : c ∈ t) : isHexDigit c = true ∨ c = '-' := by
    by_cases hd : c = '-'
    · exact Or.inr hd
    · exact Or.inl (h c (by simp [hc, hd]))
  have hout (d : Char) (hd : isHexDigit d = false) (hdash : d ≠ '-') : d ∉ t := by
    intro hm
    rcases hchar d hm with hhex | heq
    · rw [hhex] at hd
      cases hd
    · exact hdash heq
  have hu : 'u' ∉ t := hout 'u' (by decide) (by decide)
  have hbrace : ∀ c ∈ t, (c == '\x7b' || c == '\x7d') = false := by
    intro c hc
    have hopen : c ≠ '\x7b' := fun heq => hout '\x7b' (by decide) (by decide) (heq ▸ hc)
    have hclose : c ≠ '\x7d' := fun heq => hout '\x7d' (by decide) (by decide) (heq ▸ hc)
    simp [hopen, hclose]
  have hne : t.filter (· ≠ '-') ≠ [] := by
    intro hnil
    rw [hnil] at hlen
    cases hlen
  have hlt : hexValue (t.filter (· ≠ '-')) < 2 ^ 128 := by
    have := hexValue_lt _ h
    rw [hlen] at this
    exact this
  have hurn : replaceAll "urn:".toList [] t = t := replaceAll_eq_self (c := 'u') (by decide) hu
  have huuid : replaceAll "uuid:".toList [] t = t := replaceAll_eq_self (c := 'u') (by decide) hu
  simp only [uuid?, hurn, huuid, stripChars_eq_self hbrace, hlen, if_true, hexInt?_of_hex hne h]
  rw [if_pos ⟨by omega, by exact_mod_cast hlt⟩, Int.toNat_natCast]

theorem filter_formatUuid (n : ℕ) : (formatUuid n).filter (· ≠ '-') = hexPad 32 n := by
  have hkeep (s : Text) (hs : ∀ c ∈ s, c ∈ hexPad 32 n) : s.filter (· ≠ '-') = s := by
    rw [List.filter_eq_self]
    intro c hc
    have hne : c ≠ '-' := by
      rintro rfl
      exact absurd (isHexDigit_of_mem_hexPad (hs '-' hc)) (by decide)
    simpa using hne
  have hpart (i j : ℕ) : (((hexPad 32 n).drop i).take j).filter (· ≠ '-') =
      ((hexPad 32 n).drop i).take j :=
    hkeep _ fun c hc => List.mem_of_mem_drop (List.mem_of_mem_take hc)
  have hfirst : ((hexPad 32 n).take 8).filter (· ≠ '-') = (hexPad 32 n).take 8 :=
    hkeep _ fun c hc => List.mem_of_mem_take hc
  have hlast : ((hexPad 32 n).drop 20).filter (· ≠ '-') = (hexPad 32 n).drop 20 :=
    hkeep _ fun c hc => List.mem_of_mem_drop hc
  have hjoin (i j : ℕ) : ((hexPad 32 n).drop i).take j ++ (hexPad 32 n).drop (i + j) =
      (hexPad 32 n).drop i := by
    rw [← List.drop_drop]
    exact List.take_append_drop j _
  have hdash (s : Text) : ('-' :: s).filter (· ≠ '-') = s.filter (· ≠ '-') := by
    simp
  simp only [formatUuid, List.filter_append, hdash, hpart, hfirst, hlast]
  rw [List.append_assoc, List.append_assoc, List.append_assoc, hjoin 16 4, hjoin 12 4, hjoin 8 4,
    List.take_append_drop]

/-- `UUID(str(u)) == u`. -/
theorem uuid?_formatUuid {n : ℕ} (h : n < 2 ^ 128) : uuid? (formatUuid n) = some n := by
  have hlen : ((formatUuid n).filter (· ≠ '-')).length = 32 := by
    rw [filter_formatUuid, hexPad_length]
  have hhex : ∀ c ∈ (formatUuid n).filter (· ≠ '-'), isHexDigit c = true := by
    rw [filter_formatUuid]
    intro c hc
    exact isHexDigit_of_mem_hexPad hc
  rw [uuid?_of_hex hlen hhex, filter_formatUuid, hexValue_hexPad h]

end PyText
