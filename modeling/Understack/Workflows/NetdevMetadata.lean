import Understack.Workflows.NetdevReconciler

/-! Metadata of a reused node: each key that differs is written as a text `field/key=value`,
which is cut at the first `=`, decoded as JSON where it can be, and applied at a JSON pointer.
The node ends with the requested values exactly when every such text survives the way. -/
namespace Understack.Workflows.Netdev

open PyText Json

/-! The text of one key. -/

theorem splitOnce_append_of_notMem {c : Char} {a : Text} (h : c ∉ a) (b : Text) :
    splitOnce c (a ++ b) = (splitOnce c b).map fun p => (a ++ p.1, p.2) := by
  induction a with
  | nil =>
    simp
  | cons x xs ih =>
    have hx : x ≠ c := fun hx => h (by simp [hx])
    simp [splitOnce, hx, ih (fun hm => h (by simp [hm])), Function.comp_def]

/-- The part before the first separator is the whole key only if the key has none. -/
theorem splitOnce_key {c : Char} {k v : Text} {p : Text × Text}
    (h : splitOnce c (k ++ c :: v) = some p) :
    p.1.length ≤ k.length ∧ (p.1.length = k.length → c ∉ k ∧ p.1 = k) := by
  induction k generalizing p with
  | nil =>
    simp only [List.nil_append, splitOnce, if_true] at h
    cases h
    simp
  | cons x xs ih =>
    by_cases hx : x = c
    · simp only [List.cons_append, splitOnce, hx, if_true] at h
      cases h
      simp
    · simp only [List.cons_append, splitOnce, hx, if_false] at h
      obtain ⟨q, hq, rfl⟩ := Option.map_eq_some_iff.mp h
      obtain ⟨hle, heq⟩ := ih hq
      refine ⟨Nat.succ_le_succ hle, fun hl => ?_⟩
      obtain ⟨hc, hp⟩ := heq (Nat.succ.inj hl)
      exact ⟨fun hm => (List.mem_cons.mp hm).elim (fun he => hx he.symm) hc, by rw [hp]⟩

theorem split_singleton {c : Char} {s t : Text} (h : split c s = [t]) : c ∉ s ∧ t = s := by
  constructor
  · intro hm
    obtain ⟨a, b, rfl⟩ := List.append_of_mem hm
    rw [split, List.splitOn_append_cons_self] at h
    have ha := List.length_pos_iff.mpr (List.splitOn_ne_nil c a)
    have hb := List.length_pos_iff.mpr (List.splitOn_ne_nil c b)
    have hl := congrArg List.length h
    simp only [List.length_append, List.length_singleton] at hl
    omega
  · have hi : [c].intercalate (s.splitOn c) = s := List.intercalate_splitOn c
    rw [show s.splitOn c = [t] from h] at hi
    simpa using hi

section
variable {F : Type} [FloatOps F]

/-- The pointer below the field and the value to which the text of a key comes down. -/
def keyWrite (e : Text × Scalar) : Option (List Text × Value F) :=
  (splitOnce '=' (e.1 ++ '=' :: e.2.format)).bind fun p =>
    ((split '/' p.1).mapM unescape).map fun segments => (segments, deserialize p.2)

def writeKey (ms : List (Text × Value F)) (e : Text × Scalar) :
    Option (List (Text × Value F)) :=
  (keyWrite e).bind fun w => addMember w.2 w.1 ms

def PlainKey (k : Text) : Prop := '=' ∉ k ∧ '/' ∉ k ∧ '~' ∉ k

instance (k : Text) : Decidable (PlainKey k) := inferInstanceAs (Decidable (_ ∧ _))

theorem keyWrite_plain {k : Text} (h : PlainKey k) (v : Scalar) :
    keyWrite (k, v) = some ([k], deserialize (F := F) v.format) := by
  obtain ⟨heq, hslash, htilde⟩ := h
  have hsplit : split '/' k = [k] := List.splitOn_eq_singleton hslash
  simp [keyWrite, splitOnce_append heq, hsplit, unescape_eq_self htilde]

theorem writeKey_plain {k : Text} (h : PlainKey k) (v : Scalar) (ms : List (Text × Value F)) :
    writeKey ms (k, v) = some (PyDict.put k (deserialize v.format) ms) := by
  rw [writeKey, keyWrite_plain h]
  exact addMember_singleton _ _ _

theorem mapM_unescape_singleton {segments : List Text} {t : Text}
    (h : segments.mapM unescape = some [t]) : ∃ s, segments = [s] ∧ unescape s = some t := by
  cases segments with
  | nil => cases h
  | cons s rest =>
    rw [List.mapM_cons] at h
    obtain ⟨a, ha, h⟩ := Option.bind_eq_some_iff.mp h
    obtain ⟨b, hb, h⟩ := Option.bind_eq_some_iff.mp h
    obtain ⟨rfl, rfl⟩ := List.cons.inj (Option.some.inj h)
    cases rest with
    | nil => exact ⟨s, rfl, ha⟩
    | cons x xs =>
      rw [List.mapM_cons] at hb
      obtain ⟨_, -, hb⟩ := Option.bind_eq_some_iff.mp hb
      obtain ⟨_, -, hb⟩ := Option.bind_eq_some_iff.mp hb
      cases hb

/-- A key that is not plain writes, if it writes a member at all, one with a shorter name. -/
theorem keyWrite_singleton {e : Text × Scalar} {t : Text} {x : Value F}
    (h : keyWrite e = some ([t], x)) : t.length ≤ e.1.length ∧
      (t.length = e.1.length → PlainKey e.1) := by
  obtain ⟨p, hp, h⟩ := Option.bind_eq_some_iff.mp h
  obtain ⟨segments, hs, he⟩ := Option.map_eq_some_iff.mp h
  cases he
  obtain ⟨s, hsegs, hu⟩ := mapM_unescape_singleton hs
  obtain ⟨hslash, rfl⟩ := split_singleton hsegs
  obtain ⟨hle, heq⟩ := splitOnce_key hp
  obtain ⟨hul, hlt⟩ := unescape_length hu
  refine ⟨hul.trans hle, fun hl => ?_⟩
  obtain ⟨hc, hk⟩ := heq (by omega)
  refine ⟨hc, hk ▸ hslash, fun hm => ?_⟩
  have := hlt (hk ▸ hm)
  omega

theorem keyWrite_ne_nil {e : Text × Scalar} {x : Value F} : keyWrite e ≠ some ([], x) := by
  intro h
  obtain ⟨p, -, h⟩ := Option.bind_eq_some_iff.mp h
  obtain ⟨segments, hs, he⟩ := Option.map_eq_some_iff.mp h
  cases he
  cases hsplit : split '/' p.1 with
  | nil => exact List.splitOn_ne_nil '/' p.1 hsplit
  | cons s rest =>
    rw [hsplit, List.mapM_cons] at hs
    obtain ⟨_, -, hs⟩ := Option.bind_eq_some_iff.mp hs
    obtain ⟨_, -, hs⟩ := Option.bind_eq_some_iff.mp hs
    cases hs

/-! Values. -/

/-- The value is read back from its text: an integer, or a string that is not JSON. -/
def Survives (F : Type) [FloatOps F] : Scalar → Prop
  | .null => False
  | .int _ => True
  | .str s => loads (F := F) s = none

theorem deserialize_eq_str (s : Text) : deserialize (F := F) s = .str s ↔ loads (F := F) s = none := by
  unfold deserialize
  cases h : loads (F := F) s with
  | none => simp
  | some v =>
    simp only [Option.getD_some, reduceCtorEq, iff_false]
    rintro rfl
    exact loads_ne_self s h

theorem deserialize_format (v : Scalar) :
    deserialize v.format = (v.toJson : Value F) ↔ Survives F v := by
  cases v with
  | null =>
    have hnone : deserialize (F := F) (Scalar.format .null) = .str "None".toList := rfl
    rw [hnone]
    simp [Scalar.toJson, Survives]
  | int z => simp [Scalar.format, deserialize, loads_ofInt, Scalar.toJson, Survives]
  | str s => exact deserialize_eq_str s

theorem equals_toJson (v : Scalar) : equals (some (v.toJson : Value F)) v = true := by
  cases v <;> simp [Scalar.toJson, equals]

omit [FloatOps F] in
theorem isContainer_toJson (v : Scalar) : (v.toJson : Value F).isContainer = false := by
  cases v <;> rfl

/-! The writes of all keys that differ. -/

def differing (stored : List (Text × Value F)) (wanted : Fields) : List (Text × Scalar) :=
  wanted.1.filter fun e => !equals (stored.lookup e.1) e.2

theorem mem_differing {stored : List (Text × Value F)} {wanted : Fields} {e : Text × Scalar} :
    e ∈ differing stored wanted ↔ e ∈ wanted.1 ∧ equals (stored.lookup e.1) e.2 = false := by
  simp [differing]

/-- A write whose pointer is not the member `k` itself does not make it a scalar. -/
theorem writeKey_keeps {k : Text} {v : Scalar} {ms ms' : List (Text × Value F)}
    {e : Text × Scalar} (hne : ∀ x, keyWrite e ≠ some ([k], (x : Value F)))
    (h : writeKey ms e = some ms') (hk : ms.lookup k ≠ some v.toJson) :
    ms'.lookup k ≠ some v.toJson := by
  obtain ⟨⟨segments, x⟩, hw, hadd⟩ := Option.bind_eq_some_iff.mp h
  dsimp only at hadd
  match segments, hw, hadd with
  | [], hw, _ => exact absurd hw keyWrite_ne_nil
  | [t], hw, hadd =>
    rw [addMember_singleton] at hadd
    cases hadd
    have htk : k ≠ t := fun htk => hne x (htk ▸ hw)
    rwa [PyDict.lookup_put_of_ne _ _ htk]
  | t :: t₂ :: rest, _, hadd =>
    obtain ⟨child, hcont, rfl⟩ := addMember_nested hadd
    by_cases htk : k = t
    · rw [htk, PyDict.lookup_put_self]
      intro he
      rw [Option.some.inj he, isContainer_toJson] at hcont
      cases hcont
    · rwa [PyDict.lookup_put_of_ne _ _ htk]

/-- A member that comes to hold a scalar was written by some key. -/
theorem exists_write {es : List (Text × Scalar)} {k : Text} {v : Scalar}
    {ms final : List (Text × Value F)} (h : es.foldlM writeKey ms = some final)
    (hms : ms.lookup k ≠ some v.toJson) (hfinal : final.lookup k = some v.toJson) :
    ∃ e ∈ es, ∃ x, keyWrite e = some ([k], (x : Value F)) := by
  induction es generalizing ms with
  | nil =>
    cases h
    exact absurd hfinal hms
  | cons e es ih =>
    rw [List.foldlM_cons] at h
    obtain ⟨ms', hw, h⟩ := Option.bind_eq_some_iff.mp h
    by_cases hne : ∀ x, keyWrite e ≠ some ([k], (x : Value F))
    · obtain ⟨e', he', hx⟩ := ih h (writeKey_keeps hne hw hms)
      exact ⟨e', List.mem_cons_of_mem e he', hx⟩
    · push Not at hne
      exact ⟨e, List.mem_cons_self, hne⟩

/-- If all wanted values are held in the end, every key written was plain: of the others the
longest could only have been written by a longer one. -/
theorem plain_of_held {wanted : Fields} {stored final : List (Text × Value F)}
    (h : (differing stored wanted).foldlM writeKey stored = some final)
    (hheld : ∀ e ∈ wanted.1, final.lookup e.1 = some e.2.toJson) :
    ∀ e ∈ differing stored wanted, PlainKey e.1 := by
  intro e he
  let bound := ((differing stored wanted).map Prod.fst).flatten.length
  have hbound : ∀ e ∈ differing stored wanted, e.1.length ≤ bound := fun e he =>
    (List.sublist_flatten_of_mem (List.mem_map_of_mem he)).length_le
  induction hm : bound - e.1.length using Nat.strong_induction_on generalizing e with
  | _ m ih =>
    obtain ⟨hew, hdiff⟩ := mem_differing.mp he
    have hstored : stored.lookup e.1 ≠ some e.2.toJson := by
      intro hs
      rw [hs, equals_toJson] at hdiff
      cases hdiff
    obtain ⟨e', he', x, hx⟩ := exists_write h hstored (hheld e hew)
    obtain ⟨hle, heq⟩ := keyWrite_singleton hx
    have hplain : PlainKey e'.1 := by
      by_cases hlen : e.1.length = e'.1.length
      · exact heq hlen
      · have hb := hbound e' he'
        exact ih (bound - e'.1.length) (by omega) e' he' rfl
    obtain ⟨k', v'⟩ := e'
    rw [keyWrite_plain hplain] at hx
    obtain ⟨hk, -⟩ := Prod.mk.inj (Option.some.inj hx)
    exact (List.cons.inj hk).1 ▸ hplain

/-- Plain keys are written one by one. -/
theorem lookup_of_plain {es : List (Text × Scalar)} {ms final : List (Text × Value F)}
    (hplain : ∀ e ∈ es, PlainKey e.1) (hnd : (es.map Prod.fst).Nodup)
    (h : es.foldlM writeKey ms = some final) :
    (∀ e ∈ es, final.lookup e.1 = some (deserialize e.2.format)) ∧
      ∀ k, k ∉ es.map Prod.fst → final.lookup k = ms.lookup k := by
  induction es generalizing ms with
  | nil =>
    cases h
    simp
  | cons e es ih =>
    obtain ⟨k, v⟩ := e
    rw [List.foldlM_cons, writeKey_plain (hplain _ List.mem_cons_self)] at h
    obtain ⟨hk, hnd⟩ := List.nodup_cons.mp hnd
    obtain ⟨hown, hother⟩ := ih (fun e he => hplain e (List.mem_cons_of_mem _ he)) hnd h
    constructor
    · intro e he
      rcases List.mem_cons.mp he with rfl | he
      · rw [hother _ hk, PyDict.lookup_put_self]
      · exact hown e he
    · intro k' hk'
      rw [List.map_cons, List.mem_cons, not_or] at hk'
      rw [hother k' hk'.2, PyDict.lookup_put_of_ne _ _ hk'.1]

/-- The stored value is already the requested one, or it differs and the text of the key and of
the value survive. -/
def RoundTrips (stored : Option (Value F)) (e : Text × Scalar) : Prop :=
  stored = some e.2.toJson ∨ equals stored e.2 = false ∧ PlainKey e.1 ∧ Survives F e.2

theorem held_iff_roundTrips {wanted : Fields} {stored final : List (Text × Value F)}
    (h : (differing stored wanted).foldlM writeKey stored = some final) :
    (∀ e ∈ wanted.1, final.lookup e.1 = some e.2.toJson) ↔
      ∀ e ∈ wanted.1, RoundTrips (stored.lookup e.1) e := by
  have hnd : ((differing stored wanted).map Prod.fst).Nodup :=
    (List.filter_sublist.map Prod.fst).nodup wanted.2
  have hsame (e : Text × Scalar) (he : e ∈ wanted.1)
      (heq : equals (stored.lookup e.1) e.2 = true) :
      e.1 ∉ (differing stored wanted).map Prod.fst := by
    intro hm
    obtain ⟨e', he', hk⟩ := List.mem_map.mp hm
    obtain ⟨hw, hd⟩ := mem_differing.mp he'
    rw [List.inj_on_of_nodup_map wanted.2 hw he hk, heq] at hd
    cases hd
  constructor
  · intro hheld e he
    obtain ⟨hown, hother⟩ := lookup_of_plain (plain_of_held h hheld) hnd h
    cases heq : equals (stored.lookup e.1) e.2 with
    | true =>
      exact Or.inl ((hother e.1 (hsame e he heq)).symm.trans (hheld e he))
    | false =>
      have hd := mem_differing.mpr ⟨he, heq⟩
      refine Or.inr ⟨heq, plain_of_held h hheld e hd, (deserialize_format e.2).mp ?_⟩
      exact Option.some.inj ((hown e hd).symm.trans (hheld e he))
  · intro hrt
    have hdiff (e : Text × Scalar) (he : e ∈ differing stored wanted) :
        PlainKey e.1 ∧ Survives F e.2 := by
      obtain ⟨hw, hd⟩ := mem_differing.mp he
      rcases hrt e hw with hs | ⟨-, hp, hv⟩
      · rw [hs, equals_toJson] at hd
        cases hd
      · exact ⟨hp, hv⟩
    obtain ⟨hown, hother⟩ := lookup_of_plain (fun e he => (hdiff e he).1) hnd h
    intro e he
    cases heq : equals (stored.lookup e.1) e.2 with
    | true =>
      rw [hother e.1 (hsame e he heq)]
      rcases hrt e he with hs | ⟨hd, -⟩
      · exact hs
      · rw [heq] at hd
        cases hd
    | false =>
      have hd := mem_differing.mpr ⟨he, heq⟩
      rw [hown e hd, (deserialize_format e.2).mpr (hdiff e hd).2]

/-! The patch. -/

theorem pointer_field {field k : Text} (hf : PlainKey field) :
    pointer ('/' :: (field ++ '/' :: k)) =
      ((split '/' k).mapM unescape).map fun segments => field :: segments := by
  have hsplit : split '/' ('/' :: (field ++ '/' :: k)) = [] :: field :: split '/' k := by
    rw [split, ← List.nil_append ('/' :: (field ++ '/' :: k)),
      List.splitOn_append_cons_self_of_not_mem (by simp),
      List.splitOn_append_cons_self_of_not_mem hf.2.1]
    rfl
  rw [pointer, hsplit]
  dsimp only
  rw [List.mapM_cons, unescape_eq_self hf.2.2]
  cases (split '/' k).mapM unescape <;> rfl

theorem attributeToOperation_field {field : Text} (hf : PlainKey field) (hne : field ≠ [])
    (k : Text) :
    attributeToOperation (F := F) (field ++ '/' :: k) =
      (splitOnce '=' k).map fun p => ('/' :: (field ++ '/' :: p.1), deserialize p.2) := by
  have hhead : (field ++ '/' :: k).head? ≠ some '/' := by
    cases field with
    | nil => exact absurd rfl hne
    | cons c cs =>
      intro h
      exact hf.2.1 (by simp [Option.some.inj h])
  have hnot : '=' ∉ '/' :: (field ++ ['/']) := by
    simpa using hf.1
  rw [attributeToOperation, if_neg hhead,
    show '/' :: (field ++ '/' :: k) = '/' :: (field ++ ['/']) ++ k by simp,
    splitOnce_append_of_notMem hnot]
  simp [Function.comp_def]

section
variable {field : Text} (get : Node F → List (Text × Value F))
  (set : Node F → List (Text × Value F) → Node F)

/-- The updates of one field write its keys, whichever part of the node the field is. -/
theorem patch_field (hf : PlainKey field) (hne : field ≠ [])
    (hadd : ∀ node segments v, Node.addOperation node (field :: segments) v =
      (addMember v segments (get node)).map (set node))
    (hself : ∀ node, set node (get node) = node)
    (hget : ∀ node ms, get (set node ms) = ms)
    (hset : ∀ node ms ms', set (set node ms) ms' = set node ms')
    {es : List (Text × Scalar)} {ops : Patch F}
    (h : argsArrayToPatch (es.map fun e => field ++ '/' :: (e.1 ++ '=' :: e.2.format)) = some ops)
    (node : Node F) :
    node.patch ops = (es.foldlM writeKey (get node)).map (set node) := by
  induction es generalizing ops node with
  | nil =>
    cases h
    exact congrArg some (hself node).symm
  | cons e es ih =>
    rw [argsArrayToPatch, List.map_cons, List.mapM_cons, attributeToOperation_field hf hne] at h
    obtain ⟨op, hop, h⟩ := Option.bind_eq_some_iff.mp h
    obtain ⟨q, hq, rfl⟩ := Option.map_eq_some_iff.mp hop
    obtain ⟨ops', hops, h⟩ := Option.bind_eq_some_iff.mp h
    cases h
    have hwrite : writeKey (get node) e = ((split '/' q.1).mapM unescape).bind fun segments =>
        addMember (deserialize q.2) segments (get node) := by
      rw [writeKey, keyWrite, hq, Option.bind_some]
      cases (split '/' q.1).mapM unescape <;> rfl
    have hrest := ih hops
    unfold Node.patch at hrest ⊢
    rw [List.foldlM_cons, List.foldlM_cons, hwrite, pointer_field hf]
    cases (split '/' q.1).mapM unescape with
    | none => rfl
    | some segments =>
      simp only [Option.map_some, Option.bind_some, hadd]
      cases addMember (deserialize q.2) segments (get node) with
      | none => rfl
      | some ms =>
        have hms := hrest (set node ms)
        rw [hget, show set (set node ms) = set node from funext (hset node ms)] at hms
        exact hms

end

end

end Understack.Workflows.Netdev
