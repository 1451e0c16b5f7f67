import Understack.Lib.Escapes
import Understack.Lib.Json

/-! JSON pointers and the `add` operation of JSON Patch, on the members of an object. -/
namespace Json

open PyText

/-- The reference token of a pointer; `none` at an invalid escape. -/
def unescape : Text → Option Text
  | [] => some []
  | c :: r =>
    if c = '~' then
      match r with
      | [] => none
      | d :: r' =>
        if d = '0' then (unescape r').map ('~' :: ·)
        else if d = '1' then (unescape r').map ('/' :: ·)
        else none
    else (unescape r).map (c :: ·)

/-- The reference tokens of a path that starts with a slash. -/
def pointer (path : Text) : Option (List Text) :=
  match split '/' path with
  | [] :: segments => segments.mapM unescape
  | _ => none

/-- `0|[1-9]\d*` -/
def arrayIndex (s : Text) : Option ℕ :=
  match scanDigits s with
  | some (ds, []) => some (Nat.ofDigitChars 10 ds 0)
  | _ => none

variable {F : Type}

/-- `add` at a pointer: an object member is set, an array element inserted. -/
def addAt (v : Value F) : List Text → Value F → Option (Value F)
  | [], _ => some v
  | k :: rest, .obj ms =>
    if rest.isEmpty then some (.obj (PyDict.put k v ms))
    else do
      let child ← ms.lookup k
      let child' ← addAt v rest child
      return .obj (PyDict.put k child' ms)
  | k :: rest, .arr xs =>
    if rest.isEmpty then
      if k = ['-'] then some (.arr (xs ++ [v]))
      else do
        let i ← arrayIndex k
        if i ≤ xs.length then some (.arr (xs.insertIdx i v)) else none
    else do
      let i ← arrayIndex k
      let child ← xs[i]?
      let child' ← addAt v rest child
      return .arr (xs.set i child')
  | _, _ => none

/-- `add` below the object with members `ms`, which stays an object. -/
def addMember (v : Value F) (segments : List Text) (ms : List (Text × Value F)) :
    Option (List (Text × Value F)) :=
  match addAt v segments (.obj ms) with
  | some (.obj ms') => some ms'
  | _ => none

def Value.isContainer : Value F → Bool
  | .arr _ => true
  | .obj _ => true
  | _ => false

@[simp] theorem addMember_singleton (v : Value F) (k : Text) (ms : List (Text × Value F)) :
    addMember v [k] ms = some (PyDict.put k v ms) := by
  simp [addMember, addAt]

theorem addAt_isContainer {v doc doc' : Value F} {k : Text} {rest : List Text}
    (h : addAt v (k :: rest) doc = some doc') : doc'.isContainer = true := by
  cases doc with
  | obj ms =>
    simp only [addAt] at h
    split at h
    · cases h
      rfl
    · obtain ⟨_, -, h⟩ := Option.bind_eq_some_iff.mp h
      obtain ⟨_, -, h⟩ := Option.bind_eq_some_iff.mp h
      cases h
      rfl
  | arr xs =>
    simp only [addAt] at h
    split at h
    · split at h
      · cases h
        rfl
      · obtain ⟨_, -, h⟩ := Option.bind_eq_some_iff.mp h
        split at h
        · cases h
          rfl
        · cases h
    · obtain ⟨_, -, h⟩ := Option.bind_eq_some_iff.mp h
      obtain ⟨_, -, h⟩ := Option.bind_eq_some_iff.mp h
      obtain ⟨_, -, h⟩ := Option.bind_eq_some_iff.mp h
      cases h
      rfl
  | null => cases h
  | bool b => cases h
  | int z => cases h
  | float x => cases h
  | str s => cases h

/-- A path of several tokens changes one member, which is a container afterwards. -/
theorem addMember_nested {v : Value F} {k k₂ : Text} {rest : List Text}
    {ms ms' : List (Text × Value F)} (h : addMember v (k :: k₂ :: rest) ms = some ms') :
    ∃ child, child.isContainer = true ∧ ms' = PyDict.put k child ms := by
  have he : addAt v (k :: k₂ :: rest) (.obj ms) =
      (ms.lookup k).bind fun child => (addAt v (k₂ :: rest) child).bind fun child' =>
        some (.obj (PyDict.put k child' ms)) := by
    rw [addAt]
    rfl
  rw [addMember, he] at h
  split at h
  · next ms₂ hadd =>
    obtain ⟨child, -, hadd⟩ := Option.bind_eq_some_iff.mp hadd
    obtain ⟨child', hchild, hadd⟩ := Option.bind_eq_some_iff.mp hadd
    cases hadd
    cases h
    exact ⟨child', addAt_isContainer hchild, rfl⟩
  · cases h

/-! Reading below objects. -/

def valueAt : List Text → Value F → Option (Value F)
  | [], v => some v
  | k :: rest, .obj ms => (ms.lookup k).bind (valueAt rest)
  | _ :: _, _ => none

def IsObjectAt (path : List Text) (doc : Value F) : Prop :=
  ∃ ms, valueAt path doc = some (.obj ms)

theorem valueAt_cons_obj (k : Text) (rest : List Text) (ms : List (Text × Value F)) :
    valueAt (k :: rest) (.obj ms) = (ms.lookup k).bind (valueAt rest) := by
  rw [valueAt]

theorem valueAt_put {k : Text} {rest : List Text} (v : Value F) (ms : List (Text × Value F)) :
    valueAt (k :: rest) (.obj (PyDict.put k v ms)) = valueAt rest v := by
  rw [valueAt_cons_obj, PyDict.lookup_put_self, Option.bind_some]

theorem valueAt_put_of_ne {k k' : Text} {rest : List Text} (v : Value F)
    (ms : List (Text × Value F)) (h : k' ≠ k) :
    valueAt (k' :: rest) (.obj (PyDict.put k v ms)) = valueAt (k' :: rest) (.obj ms) := by
  rw [valueAt_cons_obj, valueAt_cons_obj, PyDict.lookup_put_of_ne _ _ h]

/-- Neither path leads through the other. -/
def Apart (p q : List Text) : Prop := ¬ p <+: q ∧ ¬ q <+: p

theorem Apart.symm {p q : List Text} (h : Apart p q) : Apart q p := ⟨h.2, h.1⟩

instance (p q : List Text) : Decidable (Apart p q) := inferInstanceAs (Decidable (_ ∧ _))

/-- `add` of a member below an object: the member has the value, paths apart from it keep
theirs, and what was an object stays one. -/
theorem addAt_member (v : Value F) (k : Text) {parent : List Text} {doc : Value F}
    (h : IsObjectAt parent doc) :
    ∃ doc', addAt v (parent ++ [k]) doc = some doc' ∧ valueAt (parent ++ [k]) doc' = some v ∧
      (∀ q, Apart (parent ++ [k]) q → valueAt q doc' = valueAt q doc) ∧
      ∀ q, ¬ parent ++ [k] <+: q → IsObjectAt q doc → IsObjectAt q doc' := by
  obtain ⟨ms₀, h⟩ := h
  induction parent generalizing doc with
  | nil =>
    cases h
    have hput : addAt v [k] (.obj ms₀) = some (.obj (PyDict.put k v ms₀)) := by simp [addAt]
    have hother (c : Text) (q : List Text) (hc : ¬ [k] <+: c :: q) :
        valueAt (c :: q) (.obj (PyDict.put k v ms₀)) = valueAt (c :: q) (.obj ms₀) := by
      refine valueAt_put_of_ne _ _ fun hck => hc ?_
      rw [hck]
      exact List.cons_prefix_cons.mpr ⟨rfl, List.nil_prefix⟩
    refine ⟨_, hput, valueAt_put v ms₀, fun q hq => ?_, fun q hq ho => ?_⟩
    · cases q with
      | nil => exact absurd List.nil_prefix hq.2
      | cons c q => exact hother c q hq.1
    · cases q with
      | nil => exact ⟨_, rfl⟩
      | cons c q =>
        obtain ⟨ms, hm⟩ := ho
        exact ⟨ms, (hother c q hq).trans hm⟩
  | cons p parent ih =>
    cases doc with
    | obj ms =>
      rw [valueAt_cons_obj] at h
      obtain ⟨child, hchild, h⟩ := Option.bind_eq_some_iff.mp h
      obtain ⟨child', hadd, hval, hframe, hobj⟩ := ih h
      have hput : addAt v (p :: (parent ++ [k])) (.obj ms) =
          some (.obj (PyDict.put p child' ms)) := by
        have hne : (parent ++ [k]).isEmpty = false := by simp
        simp [addAt, hne, hchild, hadd]
      have hread (q : List Text) : valueAt (p :: q) (.obj ms) = valueAt q child := by
        rw [valueAt_cons_obj, hchild, Option.bind_some]
      have hstarts (q : List Text) : p :: (parent ++ [k]) <+: p :: q ↔ parent ++ [k] <+: q := by
        simp [List.cons_prefix_cons]
      refine ⟨_, hput, (valueAt_put child' ms).trans hval, fun q hq => ?_, fun q hq ho => ?_⟩
      · cases q with
        | nil => exact absurd List.nil_prefix hq.2
        | cons c q =>
          by_cases hc : c = p
          · subst hc
            have hapart : Apart (parent ++ [k]) q :=
              ⟨fun hp => hq.1 ((hstarts q).mpr hp),
                fun hp => hq.2 (List.cons_prefix_cons.mpr ⟨rfl, hp⟩)⟩
            rw [valueAt_put, hread]
            exact hframe q hapart
          · exact valueAt_put_of_ne _ _ hc
      · cases q with
        | nil => exact ⟨_, rfl⟩
        | cons c q =>
          by_cases hc : c = p
          · subst hc
            obtain ⟨m, hm⟩ := ho
            obtain ⟨m', hm'⟩ := hobj q (fun hp => hq ((hstarts q).mpr hp)) ⟨m, hread q ▸ hm⟩
            exact ⟨m', (valueAt_put child' ms).trans hm'⟩
          · obtain ⟨m, hm⟩ := ho
            exact ⟨m, (valueAt_put_of_ne _ _ hc).trans hm⟩
    | null => cases h
    | bool b => cases h
    | int z => cases h
    | float x => cases h
    | str s => cases h
    | arr xs => cases h

/-- `add` at several paths, none of which leads through another: each has its value afterwards. -/
theorem foldlM_addAt (doc : Value F) {ops : List (List Text × Value F)}
    (hne : ∀ op ∈ ops, op.1 ≠ []) (hobj : ∀ op ∈ ops, IsObjectAt op.1.dropLast doc)
    (hapart : ops.Pairwise fun a b => Apart a.1 b.1) :
    ∃ doc', ops.foldlM (fun doc op => addAt op.2 op.1 doc) doc = some doc' ∧
      (∀ op ∈ ops, valueAt op.1 doc' = some op.2) ∧
      ∀ q, (∀ op ∈ ops, Apart op.1 q) → valueAt q doc' = valueAt q doc := by
  induction ops generalizing doc with
  | nil => exact ⟨doc, rfl, by simp, fun _ _ => rfl⟩
  | cons op ops ih =>
    obtain ⟨hhead, htail⟩ := List.pairwise_cons.mp hapart
    have hlast := List.dropLast_append_getLast (hne op List.mem_cons_self)
    obtain ⟨doc₁, hadd, hval, hframe, hstay⟩ := addAt_member op.2
      (op.1.getLast (hne op List.mem_cons_self)) (hobj op List.mem_cons_self)
    rw [hlast] at hadd hval hframe hstay
    have hparents : ∀ b ∈ ops, IsObjectAt b.1.dropLast doc₁ := fun b hb =>
      hstay _ (fun hp => (hhead b hb).1 (hp.trans (List.dropLast_prefix b.1)))
        (hobj b (List.mem_cons_of_mem op hb))
    obtain ⟨doc', hrest, hvals, hkeep⟩ :=
      ih doc₁ (fun b hb => hne b (List.mem_cons_of_mem op hb)) hparents htail
    refine ⟨doc', ?_, ?_, fun q hq => ?_⟩
    · rw [List.foldlM_cons, hadd]
      exact hrest
    · intro b hb
      rcases List.mem_cons.mp hb with rfl | hb
      · rw [hkeep b.1 fun c hc => (hhead c hc).symm]
        exact hval
      · exact hvals b hb
    · rw [hkeep q fun b hb => hq b (List.mem_cons_of_mem op hb), hframe q (hq op List.mem_cons_self)]

/-- The characters that a pointer escapes, by the one after the tilde. -/
def pointerEscape (d : Char) : Option Char :=
  if d = '0' then some '~' else if d = '1' then some '/' else none

theorem unescape_eq_decode (s : Text) : unescape s = Escapes.decode '~' pointerEscape s := by
  fun_induction unescape s with
  | case1 => rfl
  | case2 => rfl
  | case3 r ih => simp [Escapes.decode, pointerEscape, ih]
  | case4 r h0 ih => simp [Escapes.decode, pointerEscape, ih]
  | case5 d r h0 h1 => simp [Escapes.decode, pointerEscape, h0, h1]
  | case6 c r hc ih =>
    rw [Escapes.decode.eq_def]
    simp [hc, ih]

theorem unescape_eq_self {s : Text} (h : '~' ∉ s) : unescape s = some s := by
  rw [unescape_eq_decode, Escapes.decode_eq_self h]

theorem unescape_length {s t : Text} (h : unescape s = some t) :
    t.length ≤ s.length ∧ ('~' ∈ s → t.length < s.length) :=
  Escapes.length_decode ((unescape_eq_decode s).symm.trans h)

end Json
