import Understack.Lib.PyText
import Mathlib.Data.List.Nodup
import Mathlib.Data.List.TakeWhile

/-! Python dictionaries as lists of entries, JSON values, and the decoder `json.loads`. -/
namespace PyDict

variable {α β : Type*} [BEq α] [LawfulBEq α]

/-- `d[k] = v`: an existing key keeps its place, a new one is appended. -/
def put (k : α) (v : β) : List (α × β) → List (α × β)
  | [] => [(k, v)]
  | e :: d => if e.1 == k then (k, v) :: d else e :: put k v d

attribute [local simp] put

@[simp] theorem lookup_put_self (k : α) (v : β) (d : List (α × β)) :
    (put k v d).lookup k = some v := by
  induction d with
  | nil => simp [put]
  | cons e d ih =>
    obtain ⟨a, b⟩ := e
    by_cases ha : a = k
    · simp [put, ha]
    · have hk : (k == a) = false := beq_eq_false_iff_ne.mpr (Ne.symm ha)
      simp [put, ha, List.lookup_cons, hk, ih]

theorem lookup_put_of_ne {k k' : α} (v : β) (d : List (α × β)) (h : k' ≠ k) :
    (put k v d).lookup k' = d.lookup k' := by
  have hk : (k' == k) = false := beq_eq_false_iff_ne.mpr h
  induction d with
  | nil => simp [put, List.lookup_cons, hk]
  | cons e d ih =>
    obtain ⟨a, b⟩ := e
    by_cases ha : a = k
    · simp [put, ha, List.lookup_cons, hk]
    · simp [put, ha, List.lookup_cons, ih]

theorem mem_keys_put {k k' : α} {v : β} {d : List (α × β)} :
    k' ∈ (put k v d).map Prod.fst ↔ k' = k ∨ k' ∈ d.map Prod.fst := by
  induction d with
  | nil => simp [put]
  | cons e d ih =>
    by_cases he : e.1 = k
    · simp [put, he]
    · simp only [put, beq_iff_eq, he, if_false, List.map_cons, List.mem_cons, ih]
      tauto

theorem nodup_keys_put (k : α) (v : β) {d : List (α × β)} (h : (d.map Prod.fst).Nodup) :
    ((put k v d).map Prod.fst).Nodup := by
  induction d with
  | nil => simp [put]
  | cons e d ih =>
    obtain ⟨hn, hd⟩ := List.nodup_cons.mp h
    by_cases he : e.1 = k
    · subst he
      simpa only [put, BEq.rfl, if_true, List.map_cons] using List.nodup_cons.mpr ⟨hn, hd⟩
    · simp only [put, beq_iff_eq, he, if_false, List.map_cons]
      refine List.nodup_cons.mpr ⟨?_, ih hd⟩
      rw [mem_keys_put]
      exact fun hm => hm.elim he hn

theorem lookup_of_mem {d : List (α × β)} (h : (d.map Prod.fst).Nodup) {k : α} {v : β}
    (hm : (k, v) ∈ d) : d.lookup k = some v := by
  induction d with
  | nil => cases hm
  | cons e d ih =>
    obtain ⟨a, b⟩ := e
    obtain ⟨hn, hd⟩ := List.nodup_cons.mp h
    rcases List.mem_cons.mp hm with he | hm
    · cases he
      simp
    · have hne : k ≠ a := fun he => hn (List.mem_map.mpr ⟨(k, v), hm, he⟩)
      simp [List.lookup_cons, beq_eq_false_iff_ne.mpr hne, ih hd hm]

theorem mem_of_lookup {d : List (α × β)} {k : α} {v : β} (h : d.lookup k = some v) :
    (k, v) ∈ d := by
  obtain ⟨l, r, rfl, -⟩ := List.lookup_eq_some_iff.mp h
  simp

omit [LawfulBEq α] in
theorem mem_put {d : List (α × β)} {k : α} {v : β} {e : α × β} (h : e ∈ put k v d) :
    e = (k, v) ∨ e ∈ d := by
  induction d with
  | nil => exact Or.inl (List.mem_singleton.mp h)
  | cons a d ih =>
    unfold put at h
    split_ifs at h with ha
    · rcases List.mem_cons.mp h with h | h
      · exact Or.inl h
      · exact Or.inr (List.mem_cons_of_mem a h)
    · rcases List.mem_cons.mp h with h | h
      · exact Or.inr (h ▸ List.mem_cons_self)
      · exact (ih h).imp id (List.mem_cons_of_mem a)

theorem mem_put_of_ne {d : List (α × β)} {k k' : α} {v v' : β} (h : k' ≠ k) :
    (k', v') ∈ put k v d ↔ (k', v') ∈ d := by
  induction d with
  | nil => simp [put, h]
  | cons a d ih =>
    by_cases ha : a.1 = k
    · obtain ⟨b, c⟩ := a
      subst ha
      simp [put, h]
    · simp [put, ha, ih]

theorem mem_put_self {d : List (α × β)} (h : (d.map Prod.fst).Nodup) {k : α} {v v' : β} :
    (k, v') ∈ put k v d ↔ v' = v := by
  constructor
  · intro hm
    have hlookup := lookup_of_mem (nodup_keys_put k v h) hm
    rw [lookup_put_self] at hlookup
    exact (Option.some.inj hlookup).symm
  · rintro rfl
    exact mem_of_lookup (lookup_put_self k v' d)

/-- An entry that is there already changes nothing. -/
theorem put_of_lookup {d : List (α × β)} {k : α} {v : β} (h : d.lookup k = some v) :
    put k v d = d := by
  induction d with
  | nil => cases h
  | cons e d ih =>
    obtain ⟨a, b⟩ := e
    by_cases ha : a = k
    · subst ha
      rw [List.lookup_cons_self] at h
      cases h
      simp [put]
    · rw [List.lookup_cons, beq_eq_false_iff_ne.mpr (Ne.symm ha)] at h
      simp [put, ha, ih h]

theorem lookup_filter {d : List (α × β)} (h : (d.map Prod.fst).Nodup) (p : α × β → Bool) (k : α) :
    (d.filter p).lookup k = (d.lookup k).filter fun v => p (k, v) := by
  induction d with
  | nil => rfl
  | cons e d ih =>
    obtain ⟨a, b⟩ := e
    obtain ⟨hn, hd⟩ := List.nodup_cons.mp h
    by_cases ha : k = a
    · subst ha
      have hnone : d.lookup k = none := by
        rw [List.lookup_eq_none_iff]
        intro e he
        exact bne_iff_ne.mpr fun hk => hn (List.mem_map.mpr ⟨e, he, hk.symm⟩)
      rw [List.filter_cons, List.lookup_cons_self]
      split_ifs with hp
      · rw [List.lookup_cons_self, Option.filter_some, if_pos hp]
      · rw [ih hd, hnone, Option.filter_some, if_neg hp]
        rfl
    · rw [List.lookup_cons, beq_eq_false_iff_ne.mpr ha, ← ih hd, List.filter_cons]
      split_ifs
      · rw [List.lookup_cons, beq_eq_false_iff_ne.mpr ha]
      · rfl

theorem lookup_filter_key (d : List (α × β)) (q : α → Bool) (k : α) :
    (d.filter fun e => q e.1).lookup k = if q k then d.lookup k else none := by
  induction d with
  | nil => simp
  | cons e d ih =>
    obtain ⟨a, b⟩ := e
    rw [List.filter_cons, List.lookup_cons]
    by_cases ha : k = a
    · subst ha
      by_cases hq : q k = true
      · simp [hq]
      · simp [hq, ih]
    · rw [beq_eq_false_iff_ne.mpr ha, ← ih]
      split_ifs
      · rw [List.lookup_cons, beq_eq_false_iff_ne.mpr ha]
      · rfl

omit [LawfulBEq α] in
theorem lookup_map {γ : Type*} (f : β → γ) (d : List (α × β)) (k : α) :
    (d.map fun e => (e.1, f e.2)).lookup k = (d.lookup k).map f := by
  induction d with
  | nil => rfl
  | cons e d ih =>
    rw [List.map_cons, List.lookup_cons, List.lookup_cons, ih]
    cases k == e.1 <;> rfl

/-! Entries kept with a new value. -/

section
variable {γ : Type*} {d : List (α × β)}

omit [BEq α] [LawfulBEq α] in
theorem mem_keys_filterMap {f : α → β → Option γ} {k : α}
    (h : k ∈ (d.filterMap fun e => (f e.1 e.2).map fun c => (e.1, c)).map Prod.fst) :
    k ∈ d.map Prod.fst := by
  obtain ⟨e, he, rfl⟩ := List.mem_map.mp h
  obtain ⟨a, ha, hf⟩ := List.mem_filterMap.mp he
  obtain ⟨c, -, rfl⟩ := Option.map_eq_some_iff.mp hf
  exact List.mem_map_of_mem ha

omit [BEq α] [LawfulBEq α] in
theorem nodup_keys_filterMap (h : (d.map Prod.fst).Nodup) (f : α → β → Option γ) :
    ((d.filterMap fun e => (f e.1 e.2).map fun c => (e.1, c)).map Prod.fst).Nodup := by
  induction d with
  | nil => exact List.nodup_nil
  | cons e d ih =>
    obtain ⟨hn, hd⟩ := List.nodup_cons.mp h
    cases hf : f e.1 e.2 with
    | none => simpa [hf] using ih hd
    | some c =>
      rw [List.filterMap_cons_some (b := (e.1, c)) (by simp [hf]), List.map_cons]
      exact List.nodup_cons.mpr ⟨fun hm => hn (mem_keys_filterMap hm), ih hd⟩

theorem lookup_filterMap (h : (d.map Prod.fst).Nodup) (f : α → β → Option γ) (k : α) :
    (d.filterMap fun e => (f e.1 e.2).map fun c => (e.1, c)).lookup k =
      (d.lookup k).bind (f k) := by
  induction d with
  | nil => rfl
  | cons e d ih =>
    obtain ⟨a, b⟩ := e
    obtain ⟨hn, hd⟩ := List.nodup_cons.mp h
    by_cases ha : k = a
    · subst ha
      rw [List.lookup_cons_self, Option.bind_some]
      cases hf : f k b with
      | some c =>
        rw [List.filterMap_cons_some (b := (k, c)) (by simp [hf]), List.lookup_cons_self]
      | none =>
        rw [List.filterMap_cons_none (by simp [hf]), List.lookup_eq_none_iff]
        intro e he
        refine bne_iff_ne.mpr fun hk => hn (mem_keys_filterMap (f := f) ?_)
        exact List.mem_map.mpr ⟨e, he, hk.symm⟩
    · rw [List.lookup_cons, beq_eq_false_iff_ne.mpr ha, ← ih hd]
      cases hf : f a b with
      | some c =>
        rw [List.filterMap_cons_some (b := (a, c)) (by simp [hf]), List.lookup_cons,
          beq_eq_false_iff_ne.mpr ha]
      | none => rw [List.filterMap_cons_none (by simp [hf])]

end

/-- Of the values that are put one after the other, the last under a key counts. -/
theorem lookup_foldl_put {γ : Type*} [DecidableEq α] (key : γ → α) (val : γ → β) (l : List γ)
    (d : List (α × β)) (k : α) :
    (l.foldl (fun d c => put (key c) (val c) d) d).lookup k =
      ((l.reverse.find? fun c => key c = k).map val).or (d.lookup k) := by
  induction l generalizing d with
  | nil => rfl
  | cons c l ih =>
    rw [List.foldl_cons, ih, List.reverse_cons, List.find?_append]
    cases l.reverse.find? fun c => key c = k with
    | some e => rfl
    | none =>
      by_cases hc : key c = k
      · simp [hc]
      · simp [hc, lookup_put_of_ne _ _ (Ne.symm hc)]

/-- Values put under different keys are read back, and other keys are as before. -/
theorem lookup_foldl_put_of_nodup {l : List (α × β)} (h : (l.map Prod.fst).Nodup)
    (d : List (α × β)) (k : α) :
    (l.foldl (fun d e => put e.1 e.2 d) d).lookup k = (l.lookup k).or (d.lookup k) := by
  induction l generalizing d with
  | nil => rfl
  | cons e l ih =>
    obtain ⟨a, b⟩ := e
    obtain ⟨ha, hl⟩ := List.nodup_cons.mp h
    rw [List.foldl_cons, ih hl]
    by_cases hk : k = a
    · subst hk
      have hnone : l.lookup k = none := by
        rw [List.lookup_eq_none_iff]
        intro e he
        exact bne_iff_ne.mpr fun hk => ha (List.mem_map.mpr ⟨e, he, hk.symm⟩)
      simp [hnone]
    · rw [lookup_put_of_ne b d hk, List.lookup_cons, beq_eq_false_iff_ne.mpr hk]

theorem nodup_keys_foldl_put {γ : Type*} (key : γ → α) (val : γ → β) (l : List γ)
    {d : List (α × β)} (h : (d.map Prod.fst).Nodup) :
    ((l.foldl (fun d c => put (key c) (val c) d) d).map Prod.fst).Nodup := by
  induction l generalizing d with
  | nil => exact h
  | cons c l ih => exact ih (nodup_keys_put (key c) (val c) h)

end PyDict

namespace Json

open PyText

/-- What the decoder and Python's `==` need of floats: `float(literal)` and the comparison with
an integer. -/
class FloatOps (F : Type) where
  ofLiteral : Text → F
  eqInt : F → ℤ → Bool

/-- Floats as their literals, `str(float(z))` for an integer `z`. -/
instance : FloatOps Text where
  ofLiteral := id
  eqInt literal z := literal = ofInt z ++ ".0".toList

inductive Value (F : Type) where
  | null
  | bool (b : Bool)
  | int (z : ℤ)
  | float (x : F)
  | str (s : Text)
  | arr (elems : List (Value F))
  | obj (members : List (Text × Value F))

def isWs (c : Char) : Bool := c = ' ' || c = '\t' || c = '\n' || c = '\r'

def skipWs (s : Text) : Text := s.dropWhile isWs

def hexVal (c : Char) : Option ℕ :=
  if c.isDigit then some (c.toNat - 48)
  else if 'a' ≤ c ∧ c ≤ 'f' then some (c.toNat - 87)
  else if 'A' ≤ c ∧ c ≤ 'F' then some (c.toNat - 55)
  else none

def hex4 (a b c d : Char) : Option ℕ := do
  let x ← hexVal a
  let y ← hexVal b
  let z ← hexVal c
  let w ← hexVal d
  return ((x * 16 + y) * 16 + z) * 16 + w

def simpleEscapes : List (Char × ℕ) :=
  [('"', 34), ('\\', 92), ('/', 47), ('b', 8), ('f', 12), ('n', 10), ('r', 13), ('t', 9)]

/-- The code points and escapes of a string literal after its opening quote, up to the closing
one, and the text after it. -/
def scanUnits : Text → Option (List ℕ × Text)
  | [] => none
  | c :: rest =>
    if c = '"' then some ([], rest)
    else if c = '\\' then
      match rest with
      | [] => none
      | e :: tail =>
        if e = 'u' then
          match tail with
          | x :: y :: z :: w :: tail' =>
            (hex4 x y z w).bind fun u => (scanUnits tail').map fun p => (u :: p.1, p.2)
          | _ => none
        else
          (simpleEscapes.lookup e).bind fun u => (scanUnits tail).map fun p => (u :: p.1, p.2)
    else if c.toNat < 0x20 then none
    else (scanUnits rest).map fun p => (c.toNat :: p.1, p.2)

/-- Surrogate pairs joined; a lone surrogate is no `Char` and is read as U+0000. -/
def joinSurrogates : List ℕ → Text
  | [] => []
  | [u] => [Char.ofNat u]
  | hi :: lo :: us =>
    if 0xd800 ≤ hi ∧ hi ≤ 0xdbff ∧ 0xdc00 ≤ lo ∧ lo ≤ 0xdfff then
      Char.ofNat (0x10000 + (hi - 0xd800) * 0x400 + (lo - 0xdc00)) :: joinSurrogates us
    else Char.ofNat hi :: joinSurrogates (lo :: us)

def scanString (s : Text) : Option (Text × Text) :=
  (scanUnits s).map fun p => (joinSurrogates p.1, p.2)

section
variable {F : Type} [FloatOps F]

/-- `-?(0|[1-9]\d*)` as sign, digits and the text after them. -/
def scanDigits (s : Text) : Option (Text × Text) :=
  match s.takeWhile Char.isDigit with
  | [] => none
  | d :: ds => if d = '0' then some (['0'], s.tail) else some (d :: ds, s.dropWhile Char.isDigit)

/-- `(\.\d+)?` -/
def scanFraction (s : Text) : Text × Text :=
  match s with
  | '.' :: r =>
    if (r.takeWhile Char.isDigit).isEmpty then ([], s)
    else ('.' :: r.takeWhile Char.isDigit, r.dropWhile Char.isDigit)
  | _ => ([], s)

/-- `[-+]?` -/
def scanSign : Text → Text × Text
  | '-' :: r => (['-'], r)
  | '+' :: r => (['+'], r)
  | r => ([], r)

/-- `([eE][-+]?\d+)?` -/
def scanExponent (s : Text) : Text × Text :=
  match s with
  | [] => ([], s)
  | e :: r =>
    if (e = 'e' || e = 'E') && !((scanSign r).2.takeWhile Char.isDigit).isEmpty then
      (e :: (scanSign r).1 ++ (scanSign r).2.takeWhile Char.isDigit,
        (scanSign r).2.dropWhile Char.isDigit)
    else ([], s)

/-- A number after its sign. -/
def scanUnsigned (negative : Bool) (s : Text) : Option (Value F × Text) := do
  let (digits, r) ← scanDigits s
  let (fraction, r) := scanFraction r
  let (exponent, r) := scanExponent r
  if fraction.isEmpty && exponent.isEmpty then
    let n : ℤ := Nat.ofDigitChars 10 digits 0
    return (.int (if negative then -n else n), r)
  else
    let sign : Text := if negative then ['-'] else []
    return (.float (FloatOps.ofLiteral (sign ++ digits ++ fraction ++ exponent)), r)

def scanNumber : Text → Option (Value F × Text)
  | '-' :: r => scanUnsigned true r
  | r => scanUnsigned false r

def constants : List (Text × Value F) :=
  [("null".toList, .null), ("true".toList, .bool true), ("false".toList, .bool false),
    ("NaN".toList, .float (FloatOps.ofLiteral "NaN".toList)),
    ("Infinity".toList, .float (FloatOps.ofLiteral "Infinity".toList)),
    ("-Infinity".toList, .float (FloatOps.ofLiteral "-Infinity".toList))]

def scanConstant (s : Text) : Option (Value F × Text) :=
  (constants.find? fun e => e.1.isPrefixOf s).map fun e => (e.2, s.drop e.1.length)

/-- The elements of a nonempty array, up to the closing bracket. -/
def scanElems (value : Text → Option (Value F × Text)) : ℕ → Text → Option (List (Value F) × Text)
  | 0, _ => none
  | n + 1, s => do
    let (v, r) ← value s
    match skipWs r with
    | ']' :: r => return ([v], r)
    | ',' :: r =>
      let (vs, r) ← scanElems value n (skipWs r)
      return (v :: vs, r)
    | _ => none

/-- The members of a nonempty object, up to the closing brace. -/
def scanMembers (value : Text → Option (Value F × Text)) :
    ℕ → Text → Option (List (Text × Value F) × Text)
  | 0, _ => none
  | n + 1, s =>
    match s with
    | '"' :: r => do
      let (k, r) ← scanString r
      match skipWs r with
      | ':' :: r =>
        let (v, r) ← value (skipWs r)
        match skipWs r with
        | '}' :: r => return ([(k, v)], r)
        | ',' :: r =>
          let (ms, r) ← scanMembers value n (skipWs r)
          return ((k, v) :: ms, r)
        | _ => none
      | _ => none
    | _ => none

def scanArray (value : Text → Option (Value F × Text)) (s : Text) : Option (Value F × Text) :=
  match skipWs s with
  | ']' :: r => some (.arr [], r)
  | r => (scanElems value r.length r).map fun p => (.arr p.1, p.2)

/-- Of equal keys the last one wins. -/
def scanObject (value : Text → Option (Value F × Text)) (s : Text) : Option (Value F × Text) :=
  match skipWs s with
  | '}' :: r => some (.obj [], r)
  | r => (scanMembers value r.length r).map fun p =>
      (.obj (p.1.foldl (fun d e => PyDict.put e.1 e.2 d) []), p.2)

/-- `scan_once`; the first argument bounds the nesting depth. -/
def scanOnce : ℕ → Text → Option (Value F × Text)
  | 0, _ => none
  | _ + 1, [] => none
  | n + 1, c :: rest =>
    if c = '"' then (scanString rest).map fun p => (.str p.1, p.2)
    else if c = '{' then scanObject (scanOnce n) rest
    else if c = '[' then scanArray (scanOnce n) rest
    else (scanConstant (c :: rest)).orElse fun _ => scanNumber (c :: rest)

/-- `json.loads(s)`; `none` where Python raises `JSONDecodeError`. -/
def loads (s : Text) : Option (Value F) :=
  match scanOnce s.length (skipWs s) with
  | some (v, r) => if (skipWs r).isEmpty then some v else none
  | none => none

/-! A string literal is longer than the string it denotes. -/

theorem scanUnits_length {s : Text} {us : List ℕ} {r : Text} (h : scanUnits s = some (us, r)) :
    us.length + r.length < s.length := by
  fun_induction scanUnits s generalizing us r with
  | case1 => cases h
  | case2 rest =>
    cases h
    simp
  | case3 => cases h
  | case4 x y z w tail hq ih =>
    obtain ⟨u, -, h⟩ := Option.bind_eq_some_iff.mp h
    obtain ⟨p, hp, he⟩ := Option.map_eq_some_iff.mp h
    cases he
    have := ih hp
    simp only [List.length_cons]
    omega
  | case5 => cases h
  | case6 e tail he hq ih =>
    obtain ⟨u, -, h⟩ := Option.bind_eq_some_iff.mp h
    obtain ⟨p, hp, he⟩ := Option.map_eq_some_iff.mp h
    cases he
    have := ih hp
    simp only [List.length_cons]
    omega
  | case7 => cases h
  | case8 c rest h1 h2 h3 ih =>
    obtain ⟨p, hp, he⟩ := Option.map_eq_some_iff.mp h
    cases he
    have := ih hp
    simp only [List.length_cons]
    omega

theorem joinSurrogates_length (us : List ℕ) : (joinSurrogates us).length ≤ us.length := by
  fun_induction joinSurrogates us with
  | case1 => simp
  | case2 u => simp
  | case3 hi lo us h ih =>
    simp only [List.length_cons]
    omega
  | case4 hi lo us h ih =>
    simp only [List.length_cons] at ih ⊢
    omega

theorem scanString_length {s t r : Text} (h : scanString s = some (t, r)) :
    t.length < s.length := by
  obtain ⟨p, hp, he⟩ := Option.map_eq_some_iff.mp h
  cases he
  have h1 : p.1.length + p.2.length < s.length := scanUnits_length hp
  have h2 := joinSurrogates_length p.1
  omega

theorem scanUnsigned_ne_str {neg : Bool} {s t r : Text} :
    scanUnsigned (F := F) neg s ≠ some (.str t, r) := by
  intro h
  unfold scanUnsigned at h
  obtain ⟨p, -, h⟩ := Option.bind_eq_some_iff.mp h
  dsimp only at h
  split at h <;> cases h

theorem scanNumber_ne_str {s t r : Text} : scanNumber (F := F) s ≠ some (.str t, r) := by
  unfold scanNumber
  split
  · exact scanUnsigned_ne_str
  · exact scanUnsigned_ne_str

theorem scanConstant_ne_str {s t r : Text} : scanConstant (F := F) s ≠ some (.str t, r) := by
  intro h
  obtain ⟨e, he, h⟩ := Option.map_eq_some_iff.mp h
  have hm := List.mem_of_find?_eq_some he
  simp only [constants, List.mem_cons, List.not_mem_nil, or_false] at hm
  rcases hm with rfl | rfl | rfl | rfl | rfl | rfl <;> cases h

omit [FloatOps F] in
theorem scanArray_ne_str {value : Text → Option (Value F × Text)} {s t r : Text} :
    scanArray value s ≠ some (.str t, r) := by
  intro h
  unfold scanArray at h
  split at h
  · cases h
  · obtain ⟨p, -, h⟩ := Option.map_eq_some_iff.mp h
    cases h

omit [FloatOps F] in
theorem scanObject_ne_str {value : Text → Option (Value F × Text)} {s t r : Text} :
    scanObject value s ≠ some (.str t, r) := by
  intro h
  unfold scanObject at h
  split at h
  · cases h
  · obtain ⟨p, -, h⟩ := Option.map_eq_some_iff.mp h
    cases h

theorem scanOnce_str {n : ℕ} {s t r : Text} (h : scanOnce (F := F) n s = some (.str t, r)) :
    t.length < s.length := by
  cases n with
  | zero => cases h
  | succ n =>
    cases s with
    | nil => cases h
    | cons c rest =>
      simp only [scanOnce] at h
      split at h
      · obtain ⟨p, hp, he⟩ := Option.map_eq_some_iff.mp h
        cases he
        exact Nat.lt_succ_of_lt (scanString_length hp)
      · split at h
        · exact absurd h scanObject_ne_str
        · split at h
          · exact absurd h scanArray_ne_str
          · cases hc : scanConstant (F := F) (c :: rest) with
            | none =>
              rw [hc] at h
              exact absurd h scanNumber_ne_str
            | some p =>
              rw [hc] at h
              exact absurd (hc.trans h) scanConstant_ne_str

/-- No text decodes to the string that it is. -/
theorem loads_ne_self (s : Text) : loads (F := F) s ≠ some (.str s) := by
  intro h
  unfold loads at h
  split at h
  · next v r hs =>
    split at h
    · cases h
      have h1 := scanOnce_str hs
      have h2 : (skipWs s).length ≤ s.length := (List.dropWhile_suffix isWs).length_le
      omega
    · cases h
  · cases h

/-! Integer literals. -/

theorem toDigits_head {n : ℕ} (hn : 0 < n) {d : Char} {ds : Text}
    (h : Nat.toDigits 10 n = d :: ds) : d ≠ '0' := by
  have hsmall : ∀ m < 10, 0 < m → Nat.digitChar m ≠ '0' := by decide
  induction n using Nat.strongRecOn generalizing ds with
  | ind n ih =>
    by_cases hlt : n < 10
    · rw [Nat.toDigits_of_lt_base hlt] at h
      have hd : Nat.digitChar n = d := (List.cons.inj h).1
      subst hd
      exact hsmall n hlt hn
    · rw [Nat.toDigits_of_base_le (by decide) (by omega)] at h
      cases hq : Nat.toDigits 10 (n / 10) with
      | nil => exact absurd hq Nat.toDigits_ne_nil
      | cons d' ds' =>
        rw [hq] at h
        have hd : d' = d := (List.cons.inj h).1
        exact ih (n / 10) (by omega) (by omega) (hd ▸ hq)

theorem scanDigits_toDigits (n : ℕ) :
    scanDigits (Nat.toDigits 10 n) = some (Nat.toDigits 10 n, []) := by
  have hall : ∀ c ∈ Nat.toDigits 10 n, c.isDigit = true := fun c hc => toDigits_isDigit hc
  have htake : (Nat.toDigits 10 n).takeWhile Char.isDigit = Nat.toDigits 10 n :=
    List.takeWhile_eq_self_iff.mpr hall
  have hdrop : (Nat.toDigits 10 n).dropWhile Char.isDigit = [] :=
    List.dropWhile_eq_nil_iff.mpr hall
  unfold scanDigits
  rw [htake]
  split
  · next h => exact absurd h Nat.toDigits_ne_nil
  · next d ds h =>
    split
    · next hd =>
      -- only zero is written with a leading zero
      rcases Nat.eq_zero_or_pos n with rfl | hn
      · rfl
      · exact absurd hd (toDigits_head hn h)
    · rw [hdrop, h]

theorem scanUnsigned_toDigits (neg : Bool) (n : ℕ) :
    scanUnsigned (F := F) neg (Nat.toDigits 10 n) =
      some (.int (if neg then -(n : ℤ) else n), []) := by
  unfold scanUnsigned
  rw [scanDigits_toDigits]
  simp [scanFraction, scanExponent, Nat.ofDigitChars_ten_toDigits]

theorem scanNumber_ofInt (z : ℤ) : scanNumber (F := F) (ofInt z) = some (.int z, []) := by
  cases z with
  | ofNat n =>
    unfold scanNumber
    split
    · next r hr =>
      exact absurd (toDigits_isDigit (show '-' ∈ Nat.toDigits 10 n by
        rw [show Nat.toDigits 10 n = '-' :: r from hr]; simp)) (by decide)
    · exact scanUnsigned_toDigits false n
  | negSucc n => exact scanUnsigned_toDigits true (n + 1)

theorem not_constant_ofInt (z : ℤ) :
    ∀ e ∈ constants (F := F), e.1.isPrefixOf (ofInt z) = false := by
  intro e he
  -- every constant has a letter among its first two characters
  have hletter : ∃ c ∈ e.1, c.isDigit = false ∧ c ≠ '-' := by
    simp only [constants, List.mem_cons, List.not_mem_nil, or_false] at he
    rcases he with rfl | rfl | rfl | rfl | rfl | rfl
    · exact ⟨'n', by simp, by decide, by decide⟩
    · exact ⟨'t', by simp, by decide, by decide⟩
    · exact ⟨'f', by simp, by decide, by decide⟩
    · exact ⟨'N', by simp, by decide, by decide⟩
    · exact ⟨'I', by simp, by decide, by decide⟩
    · exact ⟨'I', by simp, by decide, by decide⟩
  obtain ⟨c, hc, hd, hm⟩ := hletter
  rw [← Bool.not_eq_true, List.isPrefixOf_iff_prefix]
  intro hp
  rcases mem_ofInt (hp.subset hc) with h | h
  · rw [h] at hd
    cases hd
  · exact hm h

theorem loads_ofInt (z : ℤ) : loads (F := F) (ofInt z) = some (.int z) := by
  have hconst : scanConstant (F := F) (ofInt z) = none := by
    rw [scanConstant, Option.map_eq_none_iff, List.find?_eq_none]
    intro e he
    simp [not_constant_ofInt z e he]
  cases hz : ofInt z with
  | nil => exact absurd hz (ofInt_ne_nil z)
  | cons c rest =>
    have hc : c.isDigit = true ∨ c = '-' := mem_ofInt (by rw [hz]; simp)
    have hsep (x : Char) (hx : x.isDigit = false ∧ x ≠ '-') : c ≠ x := by
      rintro rfl
      exact hc.elim (fun h => by simp [hx.1] at h) hx.2
    have hws : isWs c = false := by
      simp [isWs, hsep ' ' (by decide), hsep '\t' (by decide), hsep '\n' (by decide),
        hsep '\r' (by decide)]
    have hscan : scanOnce (F := F) (c :: rest).length (c :: rest) = some (.int z, []) := by
      simp only [List.length_cons, scanOnce, hsep '"' (by decide), hsep '{' (by decide),
        hsep '[' (by decide), if_false]
      rw [← hz, hconst]
      exact scanNumber_ofInt z
    unfold loads
    rw [show skipWs (c :: rest) = c :: rest by simp [skipWs, hws], hscan]
    rfl

/-- No JSON value starts with a letter other than those of the constants. -/
theorem loads_eq_none_of_head {c : Char} (rest : Text)
    (hletter : c.isDigit = false ∧ isWs c = false)
    (hc : c ∉ ['n', 'f', 't', 'N', 'I', '"', '{', '[', '-']) :
    loads (F := F) (c :: rest) = none := by
  simp only [List.mem_cons, List.not_mem_nil, or_false, not_or] at hc
  obtain ⟨hn, hf, ht, hN, hI, hquote, hbrace, hbracket, hminus⟩ := hc
  have hconst : scanConstant (F := F) (c :: rest) = none := by
    rw [scanConstant, Option.map_eq_none_iff, List.find?_eq_none]
    intro e he
    simp only [constants, List.mem_cons, List.not_mem_nil, or_false] at he
    rcases he with rfl | rfl | rfl | rfl | rfl | rfl <;>
      simp [List.isPrefixOf, Ne.symm hn, Ne.symm hf, Ne.symm ht, Ne.symm hN, Ne.symm hI,
        Ne.symm hminus]
  have hnumber : scanNumber (F := F) (c :: rest) = none := by
    unfold scanNumber
    split
    · next heq => exact absurd (List.cons.inj heq).1 hminus
    · simp [scanUnsigned, scanDigits, hletter.1]
  have hskip : skipWs (c :: rest) = c :: rest := by simp [skipWs, hletter.2]
  unfold loads
  rw [hskip, List.length_cons]
  simp [scanOnce, hquote, hbrace, hbracket, hconst, hnumber]

end

end Json
