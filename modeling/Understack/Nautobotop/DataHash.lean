import Understack.Nautobotop.Reconcile

/-! Which changes of the data of a resource the hash of `computeHash` shows. -/
namespace Understack.Nautobotop.Reconcile
open PyText Dag

/-- `SyncDecision`. -/
structure SyncDecision where
  shouldSync : Bool
  reason : Text
  statusMessage : Text
  requeueAfter : ℤ
  updateLastSyncTime : Bool
  deriving DecidableEq

def dataChanged : Text := "data changed".toList

/-- `shouldSync` with the whole of its decision. -/
def syncDecision (lastSyncedAt : Option ℤ) (syncInterval now : ℤ)
    (currentHash previousHash : Text) : SyncDecision :=
  let elapsed : SyncDecision :=
    ⟨true, "sync interval elapsed".toList, "Syncing due to elapsed interval".toList, syncInterval,
      false⟩
  if currentHash ≠ previousHash then
    ⟨true, dataChanged, "Syncing due to data changes".toList, syncInterval, false⟩
  else
    match lastSyncedAt with
    | some last =>
      if now - last < syncInterval then
        ⟨false, "sync interval not elapsed".toList, "Sync skipped - interval not elapsed".toList,
          syncInterval - (now - last), false⟩
      else elapsed
    | none => elapsed

theorem syncDecision_shouldSync (lastSyncedAt : Option ℤ) (syncInterval now : ℤ)
    (currentHash previousHash : Text) :
    (syncDecision lastSyncedAt syncInterval now currentHash previousHash).shouldSync =
      shouldSync lastSyncedAt syncInterval now currentHash previousHash := by
  unfold syncDecision shouldSync
  split_ifs
  · rfl
  · cases lastSyncedAt with
    | none => rfl
    | some last =>
      dsimp only
      split_ifs <;> rfl

/-! The lines of the text that is hashed. -/

/-- The keys of a ConfigMap. -/
def ValidKey (key : Text) : Prop :=
  key ≠ [] ∧ ∀ c ∈ key, c.isAlphanum = true ∨ c = '-' ∨ c = '_' ∨ c = '.'

instance decidableValidKey (key : Text) : Decidable (ValidKey key) :=
  @instDecidableAnd _ _ _ (List.decidableBAll
    (fun c : Char => c.isAlphanum = true ∨ c = '-' ∨ c = '_' ∨ c = '.') key)

/-- The entries in the order of their keys. -/
def entries (m : Data) : Data :=
  (sortStrings (m.map Prod.fst)).map fun k => (k, (m.lookup k).getD [])

/-- `key=value`. -/
def entryText (e : Text × Text) : Text := e.1 ++ '=' :: e.2

def linesOf (m : Data) : List Text := (entries m).flatMap fun e => split '\n' (entryText e)

/-- How many lines the values have, in the order of their keys. -/
def lineCounts (m : Data) : List ℕ := (entries m).map fun e => (split '\n' e.2).length

variable {m m' : Data} {sha : Sha256}

theorem ValidKey.notMem {key : Text} (h : ValidKey key) : '=' ∉ key ∧ '\n' ∉ key := by
  constructor
  · intro hmem
    exact absurd (h.2 '=' hmem) (by decide)
  · intro hmem
    exact absurd (h.2 '\n' hmem) (by decide)

theorem canonicalText_eq (m : Data) :
    canonicalText m = join '\n' ((entries m).map entryText) := by
  rw [canonicalText, entries, List.map_map]
  rfl

theorem entries_perm (hkeys : (m.map Prod.fst).Nodup) : (entries m).Perm m := by
  have hself : m.map (fun e => (e.1, (m.lookup e.1).getD [])) = m :=
    (List.map_congr_left fun e he => by
      rw [PyDict.lookup_of_mem hkeys (show (e.1, e.2) ∈ m from he)]
      rfl).trans (List.map_id m)
  have hperm := (sortStrings_perm (m.map Prod.fst)).map fun k => (k, (m.lookup k).getD [])
  rw [List.map_map] at hperm
  exact hperm.trans (List.Perm.of_eq hself)

/-- A key has no line break, so that an entry has the lines of its value. -/
theorem split_entryText {e : Text × Text} (h : '\n' ∉ e.1) :
    split '\n' (entryText e) = (split '\n' e.2).modifyHead fun line => e.1 ++ '=' :: line := by
  obtain ⟨key, value⟩ := e
  unfold entryText split
  dsimp only at h ⊢
  induction key with
  | nil =>
    rw [List.nil_append, List.splitOn_cons_eq_if_modifyHead, if_neg (by decide)]
    rfl
  | cons x key ih =>
    rw [List.mem_cons, not_or] at h
    rw [List.cons_append, List.splitOn_cons_eq_if_modifyHead,
      if_neg (by simpa using Ne.symm h.1), ih h.2, List.modifyHead_modifyHead]
    rfl

theorem length_split_entryText {e : Text × Text} (h : '\n' ∉ e.1) :
    (split '\n' (entryText e)).length = (split '\n' e.2).length := by
  rw [split_entryText h, List.length_modifyHead]

theorem entryText_inj {e e' : Text × Text} (h : '=' ∉ e.1) (h' : '=' ∉ e'.1)
    (htext : entryText e = entryText e') : e = e' := by
  have hsplit := splitOnce_append (b := e.2) h
  rw [show e.1 ++ '=' :: e.2 = e'.1 ++ '=' :: e'.2 from htext, splitOnce_append h'] at hsplit
  exact Prod.ext (congrArg Prod.fst (Option.some.inj hsplit)).symm
    (congrArg Prod.snd (Option.some.inj hsplit)).symm

/-! The maps, their entries and their texts. -/

theorem lookup_entries (hkeys : (m.map Prod.fst).Nodup) (key : Text) :
    (entries m).lookup key = m.lookup key := by
  have hperm := entries_perm hkeys
  have hkeys' : ((entries m).map Prod.fst).Nodup := (hperm.map Prod.fst).nodup_iff.mpr hkeys
  cases hlookup : m.lookup key with
  | some value =>
    exact PyDict.lookup_of_mem hkeys' (hperm.mem_iff.mpr (PyDict.mem_of_lookup hlookup))
  | none =>
    rw [List.lookup_eq_none_iff] at hlookup ⊢
    exact fun e he => hlookup e (hperm.mem_iff.mp he)

theorem entries_eq_iff (hkeys : (m.map Prod.fst).Nodup) (hkeys' : (m'.map Prod.fst).Nodup) :
    entries m = entries m' ↔ ∀ key, m.lookup key = m'.lookup key := by
  constructor
  · intro h key
    rw [← lookup_entries hkeys, h, lookup_entries hkeys']
  · intro h
    have hmem {m : Data} (hkeys : (m.map Prod.fst).Nodup) (key : Text) :
        key ∈ m.map Prod.fst ↔ ∃ value, m.lookup key = some value := by
      constructor
      · intro hkey
        obtain ⟨e, he, rfl⟩ := List.mem_map.mp hkey
        exact ⟨e.2, PyDict.lookup_of_mem hkeys he⟩
      · rintro ⟨value, hvalue⟩
        exact List.mem_map_of_mem (PyDict.mem_of_lookup hvalue)
    have hperm : (m.map Prod.fst).Perm (m'.map Prod.fst) :=
      (List.perm_ext_iff_of_nodup hkeys hkeys').mpr fun key => by
        rw [hmem hkeys, hmem hkeys', h]
    have hsorted : sortStrings (m.map Prod.fst) = sortStrings (m'.map Prod.fst) :=
      ((sortStrings_perm _).trans (hperm.trans (sortStrings_perm _).symm)).eq_of_sortedLE
        List.sortedLE_insertionSort List.sortedLE_insertionSort
    rw [entries, entries, hsorted]
    exact List.map_congr_left fun key _ => by rw [h]

theorem linesOf_eq_split (h : entries m ≠ []) : linesOf m = split '\n' (canonicalText m) := by
  rw [canonicalText_eq, split_join_flatMap (by simpa using h), linesOf, List.flatMap_map]

theorem entries_eq_nil_iff : entries m = [] ↔ canonicalText m = [] := by
  rw [canonicalText_eq, join_eq_nil, List.map_eq_nil_iff]
  intro p hp
  obtain ⟨e, -, rfl⟩ := List.mem_map.mp hp
  simp [entryText]

theorem linesOf_eq_nil_iff : linesOf m = [] ↔ entries m = [] := by
  constructor
  · intro h
    by_contra hne
    rw [linesOf_eq_split hne] at h
    exact List.splitOn_ne_nil _ _ h
  · intro h
    rw [linesOf, h]
    rfl

theorem canonicalText_eq_iff : canonicalText m = canonicalText m' ↔ linesOf m = linesOf m' := by
  by_cases h : entries m = []
  · have htext := entries_eq_nil_iff.mp h
    have hlines := linesOf_eq_nil_iff.mpr h
    rw [htext, hlines, @eq_comm _ [] (canonicalText m'), @eq_comm _ [] (linesOf m'),
      ← entries_eq_nil_iff, linesOf_eq_nil_iff]
  by_cases h' : entries m' = []
  · have htext := entries_eq_nil_iff.mp h'
    have hlines := linesOf_eq_nil_iff.mpr h'
    rw [htext, hlines, ← entries_eq_nil_iff, linesOf_eq_nil_iff]
  rw [linesOf_eq_split h, linesOf_eq_split h']
  refine ⟨congrArg _, fun hsplit => ?_⟩
  rw [← join_split '\n' (canonicalText m), hsplit, join_split]

theorem map_length_lines (hvalid : ∀ e ∈ entries m, ValidKey e.1) :
    ((entries m).map fun e => split '\n' (entryText e)).map List.length = lineCounts m := by
  rw [List.map_map, lineCounts]
  exact List.map_congr_left fun e he => length_split_entryText (hvalid e he).notMem.2

/-- The lines and how many of them each value has give the entries back. -/
theorem entries_eq_iff_lines (hvalid : ∀ e ∈ entries m, ValidKey e.1)
    (hvalid' : ∀ e ∈ entries m', ValidKey e.1) :
    entries m = entries m' ↔ linesOf m = linesOf m' ∧ lineCounts m = lineCounts m' := by
  constructor
  · intro h
    rw [linesOf, linesOf, lineCounts, lineCounts, h]
    exact ⟨rfl, rfl⟩
  · rintro ⟨hlines, hlengths⟩
    rw [← map_length_lines hvalid, ← map_length_lines hvalid'] at hlengths
    have hgroups := List.eq_iff_flatten_eq.mpr ⟨hlines, hlengths⟩
    have htexts : (entries m).map entryText = (entries m').map entryText := by
      have hjoin := congrArg (List.map (join '\n')) hgroups
      rw [List.map_map, List.map_map] at hjoin
      refine (List.map_congr_left fun e _ => ?_).trans
        (hjoin.trans (List.map_congr_left fun e _ => ?_))
      · exact (join_split '\n' (entryText e)).symm
      · exact join_split '\n' (entryText e)
    clear hgroups hlengths hlines
    generalize entries m = es at *
    generalize entries m' = es' at *
    induction es generalizing es' with
    | nil => simpa using htexts.symm
    | cons e es ih =>
      cases es' with
      | nil => cases htexts
      | cons e' es' =>
        rw [List.map_cons, List.map_cons, List.cons.injEq] at htexts
        obtain ⟨he, hes⟩ := List.forall_mem_cons.mp hvalid
        obtain ⟨he', hes'⟩ := List.forall_mem_cons.mp hvalid'
        rw [entryText_inj he.notMem.1 he'.notMem.1 htexts.1, ih hes es' hes' htexts.2]

/-! Values whose later lines are no entries. -/

/-- A line that could begin an entry. -/
def IsEntryLine (line : Text) : Prop := ∃ key value, ValidKey key ∧ line = entryText (key, value)

/-- Groups that begin at the elements with `P`, and nowhere else, are found again. -/
theorem eq_of_flatten_eq {α : Type*} {P : α → Prop} {gs gs' : List (List α)}
    (h : ∀ g ∈ gs, ∃ a t, g = a :: t ∧ P a ∧ ∀ b ∈ t, ¬ P b)
    (h' : ∀ g ∈ gs', ∃ a t, g = a :: t ∧ P a ∧ ∀ b ∈ t, ¬ P b)
    (hflat : gs.flatten = gs'.flatten) : gs = gs' := by
  classical
  induction gs generalizing gs' with
  | nil =>
    cases gs' with
    | nil => rfl
    | cons g' gs' =>
      obtain ⟨a, t, rfl, -⟩ := h' g' List.mem_cons_self
      cases hflat
  | cons g gs ih =>
    obtain ⟨⟨a, t, rfl, -, ht⟩, hgs⟩ := List.forall_mem_cons.mp h
    cases gs' with
    | nil => cases hflat
    | cons g' gs' =>
      obtain ⟨⟨a', t', rfl, -, ht'⟩, hgs'⟩ := List.forall_mem_cons.mp h'
      rw [List.flatten_cons, List.flatten_cons, List.cons_append, List.cons_append,
        List.cons.injEq] at hflat
      have hspan {t : List α} {gs : List (List α)} (ht : ∀ b ∈ t, ¬ P b)
          (hgs : ∀ g ∈ gs, ∃ a t, g = a :: t ∧ P a ∧ ∀ b ∈ t, ¬ P b) :
          (t ++ gs.flatten).takeWhile (fun b => decide (¬ P b)) = t := by
        rw [List.takeWhile_append_of_pos (by simpa using ht)]
        cases gs with
        | nil => simp
        | cons g gs =>
          obtain ⟨b, u, rfl, hb, -⟩ := hgs g List.mem_cons_self
          simp [hb]
      have htail : t = t' := by rw [← hspan ht hgs, hflat.2, hspan ht' hgs']
      subst htail
      rw [hflat.1, ih hgs hgs' (List.append_cancel_left hflat.2)]

/-- Between maps whose values have no later line like an entry, no change is missed. -/
theorem lineCounts_eq_of_plain (hvalid : ∀ e ∈ entries m, ValidKey e.1)
    (hvalid' : ∀ e ∈ entries m', ValidKey e.1)
    (hplain : ∀ e ∈ entries m, ∀ line ∈ (split '\n' e.2).tail, ¬ IsEntryLine line)
    (hplain' : ∀ e ∈ entries m', ∀ line ∈ (split '\n' e.2).tail, ¬ IsEntryLine line)
    (hlines : linesOf m = linesOf m') : lineCounts m = lineCounts m' := by
  have hgroups {m : Data} (hvalid : ∀ e ∈ entries m, ValidKey e.1)
      (hplain : ∀ e ∈ entries m, ∀ line ∈ (split '\n' e.2).tail, ¬ IsEntryLine line) :
      ∀ g ∈ (entries m).map fun e => split '\n' (entryText e),
        ∃ a t, g = a :: t ∧ IsEntryLine a ∧ ∀ b ∈ t, ¬ IsEntryLine b := by
    intro g hg
    obtain ⟨e, he, rfl⟩ := List.mem_map.mp hg
    obtain ⟨line, rest, hsplit⟩ := List.exists_cons_of_ne_nil (List.splitOn_ne_nil '\n' e.2)
    have hrest := hplain e he
    rw [split, hsplit] at hrest
    refine ⟨entryText (e.1, line), rest, ?_, ⟨e.1, line, hvalid e he, rfl⟩, hrest⟩
    rw [split_entryText (hvalid e he).notMem.2, split, hsplit]
    rfl
  have heq := eq_of_flatten_eq (hgroups hvalid hplain) (hgroups hvalid' hplain') hlines
  rw [← map_length_lines hvalid, heq, map_length_lines hvalid']

/-! Collisions of the hash. -/

/-- The hash tells `m` from `m'`, and a decision that finds the hash of the one recorded reports
the other as a change. -/
structure Detects (sha : Sha256) (m m' : Data) : Prop where
  hash : computeHash sha m = computeHash sha m' ↔ ∀ key, m.lookup key = m'.lookup key
  reported : (∃ key, m.lookup key ≠ m'.lookup key) → ∀ lastSyncedAt syncInterval now,
    syncDecision lastSyncedAt syncInterval now (computeHash sha m') (computeHash sha m) =
      ⟨true, dataChanged, "Syncing due to data changes".toList, syncInterval, false⟩

theorem detects_iff :
    Detects sha m m' ↔
      (computeHash sha m = computeHash sha m' ↔ ∀ key, m.lookup key = m'.lookup key) := by
  refine ⟨Detects.hash, fun hhash => ⟨hhash, ?_⟩⟩
  rintro ⟨key, hkey⟩ lastSyncedAt syncInterval now
  have hne : computeHash sha m' ≠ computeHash sha m := fun h => hkey (hhash.mp h.symm key)
  exact if_pos hne

theorem computeHash_eq (hempty : sha.hex [] = emptyHash) (m : Data) :
    computeHash sha m = sha.hex (canonicalText m) := by
  unfold computeHash
  split_ifs with hm
  · subst hm
    exact hempty.symm
  · rfl

theorem forall_entries {P : Text → Prop} (h : ∀ e ∈ m, P e.1) : ∀ e ∈ entries m, P e.1 := by
  intro e he
  obtain ⟨key, hkey, rfl⟩ := List.mem_map.mp he
  rw [(sortStrings_perm _).mem_iff] at hkey
  obtain ⟨e', he', rfl⟩ := List.mem_map.mp hkey
  exact h e' he'

/-- The hash misses the change between two maps that cut the same lines into different entries,
and no other. -/
theorem change_detected_iff (hkeys : (m.map Prod.fst).Nodup) (hkeys' : (m'.map Prod.fst).Nodup)
    (hvalid : ∀ e ∈ m, ValidKey e.1) (hvalid' : ∀ e ∈ m', ValidKey e.1)
    (hempty : sha.hex [] = emptyHash)
    (hsha : sha.hex (canonicalText m) = sha.hex (canonicalText m') →
      canonicalText m = canonicalText m') :
    Detects sha m m' ↔ (linesOf m = linesOf m' → lineCounts m = lineCounts m') := by
  have hhash : computeHash sha m = computeHash sha m' ↔ linesOf m = linesOf m' := by
    rw [computeHash_eq hempty, computeHash_eq hempty, ← canonicalText_eq_iff]
    exact ⟨hsha, congrArg sha.hex⟩
  rw [detects_iff, hhash, ← entries_eq_iff hkeys hkeys',
    entries_eq_iff_lines (forall_entries hvalid) (forall_entries hvalid')]
  exact ⟨fun h hlines => (h.mp hlines).2, fun h => ⟨fun hlines => ⟨hlines, h hlines⟩, And.left⟩⟩

/-- The two maps that the hash does not tell apart. -/
def twoLineValue : Data := [("a".toList, "1\nb=2".toList)]

def twoEntries : Data := [("a".toList, "1".toList), ("b".toList, "2".toList)]

/-- The hashes of the texts in the examples. -/
def textHashes : List (Text × Text) :=
  [([], emptyHash),
    ("a=1".toList,
      ("c22fea5d7428e5cf47ef6354c97c9223" ++ "c95d6dcdc3e0d2300ff79056b1ff3d85").toList),
    ("a=2".toList,
      ("d3043f41a0385109cbbaae1ea3c1c316" ++ "74886be47b073f40681f2ef6d2603c41").toList),
    ("a=1\nb=2".toList,
      ("55c420c0f44ea4c6c84414bc15c0a292" ++ "3ce2b03ae1e907fbcf20d131d735faff").toList)]

def textSha : Sha256 where
  hex s :=
    match textHashes.find? fun e => e.1 = s with
    | some e => if e.2.length = 64 then e.2 else List.replicate 64 '0'
    | none => List.replicate 64 '0'
  length := by
    intro s
    split
    · split_ifs with hlen
      · exact hlen
      · rfl
    · rfl

theorem changed_value_detected :
    Detects textSha [("a".toList, "1".toList)] [("a".toList, "2".toList)] := by
  have hempty : textSha.hex [] = emptyHash := by decide +kernel
  have hne : textSha.hex (canonicalText [("a".toList, "1".toList)]) ≠
      textSha.hex (canonicalText [("a".toList, "2".toList)]) := by decide +kernel
  exact (change_detected_iff (by decide) (by decide) (by decide) (by decide) hempty
    fun heq => (hne heq).elim).mpr (by decide)

/-- For every hash function, since the texts are the same. -/
theorem line_becomes_entry :
    (∀ e ∈ twoLineValue ++ twoEntries, ValidKey e.1) ∧
      twoLineValue.lookup "b".toList ≠ twoEntries.lookup "b".toList ∧
      ∀ sha : Sha256, computeHash sha twoLineValue = computeHash sha twoEntries ∧
        (syncDecision (some 0) 600 1 (computeHash sha twoEntries)
          (computeHash sha twoLineValue)).shouldSync = false := by
  refine ⟨by decide, by decide, fun sha => ?_⟩
  have htext : canonicalText twoLineValue = canonicalText twoEntries := by decide
  have hhash : computeHash sha twoLineValue = computeHash sha twoEntries := congrArg sha.hex htext
  refine ⟨hhash, ?_⟩
  rw [hhash, syncDecision_shouldSync, shouldSync, if_neg (not_not_intro rfl)]
  rfl

end Understack.Nautobotop.Reconcile
