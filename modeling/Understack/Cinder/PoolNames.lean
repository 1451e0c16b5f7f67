import Understack.Cinder.NetappDriver
import Understack.Workflows.Netapp

/-! Three writers and two readers of names: the storage workflow names a FlexVol after a volume
type, the driver qualifies it by its SVM and Cinder puts the result into a host; the driver reads
the type back from the FlexVol and the SVM back from the host. -/
namespace Understack.Cinder
open PyText

/-- A name of an SVM or of a FlexVol. -/
structure PlainName (name : Text) : Prop where
  nonempty : name ≠ []
  plus : '+' ∉ name
  hash : '#' ∉ name
  atSign : '@' ∉ name

/-- The part of a host before its pool, `host@backend`. -/
structure ServiceName (service : Text) : Prop where
  plus : '+' ∉ service
  hash : '#' ∉ service
  atSign : service.count '@' ≤ 1

/-- The libraries of a driver whose SVMs were listed by the cluster: each was created for the SVM
under whose name it is kept. -/
structure LoadedSvms where
  libs : Libraries
  keys : (libs.map Prod.fst).Nodup
  vserver : ∀ l ∈ libs, l.2.vserver = l.1
  svmNames : ∀ l ∈ libs, PlainName l.1
  flexvols : ∀ l ∈ libs, ∀ p ∈ l.2.pools,
    ∃ v, p.lookup "pool_name".toList = some (.text v) ∧ PlainName v

/-- The configured pattern captures all the text after `vol_`, in a group that takes part in
every match. -/
structure CapturesType (cfg : Config) : Prop where
  capture : ∀ x : Text, x ≠ [] → '\n' ∉ x → cfg.poolMatch ("vol_".toList ++ x) = some (some x)
  group : ∀ name : Text, cfg.poolMatch name ≠ some none

/-- A UUID in the spellings that an API gives: 32 hexadecimal digits of either case, with dashes
anywhere. -/
structure UuidText (t : Text) : Prop where
  length : (t.filter (· ≠ '-')).length = 32
  hex : ∀ c ∈ t.filter (· ≠ '-'), isHexDigit c = true

theorem uuidText_formatUuid (n : ℕ) : UuidText (formatUuid n) where
  length := by rw [filter_formatUuid, hexPad_length]
  hex := by
    rw [filter_formatUuid]
    intro c hc
    exact isHexDigit_of_mem_hexPad hc

/-- The name of a qualified pool tells the SVM and the FlexVol. -/
theorem qualified_name_inj {s s' v v' : Text} (hs : '+' ∉ s) (hs' : '+' ∉ s')
    (h : s ++ svmNameDelim :: v = s' ++ svmNameDelim :: v') : s = s' ∧ v = v' := by
  have hleft : splitOnce '+' (s ++ '+' :: v) = some (s, v) := splitOnce_append hs
  have hright : splitOnce '+' (s' ++ '+' :: v') = some (s', v') := splitOnce_append hs'
  have heq : s ++ '+' :: v = s' ++ '+' :: v' := h
  rw [heq, hright] at hleft
  cases hleft
  exact ⟨rfl, rfl⟩

/-- The host of a volume in a qualified pool leads to the library of the SVM, which sees the host
without the SVM's name. -/
theorem volumeToLibrary_qualified (x : ExtractHost) {libs : Libraries} {service s v : Text}
    {lib : Library} (hservice : ServiceName service) (hs : PlainName s) (hv : PlainName v)
    (hlib : libs.lookup s = some lib) (hvserver : lib.vserver = s) :
    volumeToLibrary x libs (service ++ '#' :: (s ++ svmNameDelim :: v)) =
      .ok (lib, service ++ '#' :: v) := by
  have hhash : '#' ∉ s ++ svmNameDelim :: v := by
    rw [List.mem_append, List.mem_cons, not_or, not_or]
    exact ⟨hs.hash, by decide, hv.hash⟩
  have hpool := x.of_pool hservice.hash hhash
  have hbefore : '+' ∉ service ++ ['#'] := by
    rw [List.mem_append, not_or]
    exact ⟨hservice.plus, by decide⟩
  have hshown : shownHost s (service ++ '#' :: (s ++ svmNameDelim :: v)) = service ++ '#' :: v := by
    simpa [shownHost, svmNameDelim] using
      replaceAll_mark (a := service ++ ['#']) hs.plus hbefore hv.plus
  rw [volumeToLibrary_ok_iff]
  exact ⟨s, ⟨v, hv.nonempty, hs.plus, hpool, hlib, hvserver⟩, hshown.symm⟩

/-- A FlexVol of the storage workflow carries the volume type that it was created for. -/
theorem volumeTypeId_volumeName {cfg : Config} (hcapture : CapturesType cfg) {t : Text}
    (ht : UuidText t) :
    volumeTypeId cfg (Workflows.Netapp.volumeName t) =
      .ok (formatUuid (hexValue (t.filter (· ≠ '-')))) := by
  have hne : t.filter (· ≠ '-') ≠ [] := by
    intro hnil
    have hlen := ht.length
    rw [hnil] at hlen
    cases hlen
  have hline : '\n' ∉ t.filter (· ≠ '-') := not_mem_of_hex ht.hex (by decide)
  have hbare : (t.filter (· ≠ '-')).filter (· ≠ '-') = t.filter (· ≠ '-') := by
    rw [List.filter_filter]
    simp
  have huuid : uuid? (t.filter (· ≠ '-')) = some (hexValue (t.filter (· ≠ '-'))) := by
    have hread := @uuid?_of_hex (t.filter (· ≠ '-'))
    rw [hbare] at hread
    exact hread ht.length ht.hex
  simp only [volumeTypeId, Workflows.Netapp.volumeName, hcapture.capture _ hne hline, huuid]

theorem volumeTypeId_total {cfg : Config} (hcapture : CapturesType cfg) (v : Text) :
    ∃ typeId, volumeTypeId cfg v = .ok typeId := by
  unfold volumeTypeId
  split
  · exact ⟨[], rfl⟩
  · next hnone => exact absurd hnone (hcapture.group v)
  · next rawId hraw =>
    cases uuid? rawId with
    | none => exact ⟨[], rfl⟩
    | some u => exact ⟨formatUuid u, rfl⟩

/-- The names of reported pools are distinct, a host that names one of them leads to its SVM and
FlexVol, and a FlexVol made for a volume type in a project's SVM is reported with that type and
project. -/
theorem pool_names_round_trip (cfg : Config) (x : ExtractHost) (svms : LoadedSvms)
    (filterFunction : Text) (hPrefixed : cfg.vserverPrefix = "os-".toList)
    (hcapture : CapturesType cfg) :
    (∀ l₁ ∈ svms.libs, ∀ l₂ ∈ svms.libs, ∀ p₁ ∈ l₁.2.pools, ∀ p₂ ∈ l₂.2.pools, ∀ q₁ q₂ : Dict,
      svmifyPool cfg filterFunction l₁.1 p₁ = .ok q₁ →
      svmifyPool cfg filterFunction l₂.1 p₂ = .ok q₂ →
      (q₁.lookup "pool_name".toList = q₂.lookup "pool_name".toList ↔
        l₁.1 = l₂.1 ∧ p₁.lookup "pool_name".toList = p₂.lookup "pool_name".toList)) ∧
    (∀ service : Text, ServiceName service → ∀ l ∈ svms.libs, ∀ p ∈ l.2.pools,
      ∃ (q : Dict) (v qualified : Text), svmifyPool cfg filterFunction l.1 p = .ok q ∧
        p.lookup "pool_name".toList = some (.text v) ∧
        q.lookup "pool_name".toList = some (.text qualified) ∧
        volumeToLibrary x svms.libs (service ++ '#' :: qualified) =
          .ok (l.2, service ++ '#' :: v)) ∧
    ∀ projectId t : Text, UuidText t → ∀ pool : Dict,
      pool.lookup "pool_name".toList = some (.text (Workflows.Netapp.volumeName t)) →
      ∃ (q : Dict) (u : ℕ),
        svmifyPool cfg filterFunction (Workflows.Netapp.svmName projectId) pool = .ok q ∧
        uuid? t = some u ∧
        q.lookup "netapp_volume_type_id".toList = some (.text (formatUuid u)) ∧
        q.lookup "netapp_project_id".toList = some (.text projectId) ∧
        ∀ n < 2 ^ 128, t = formatUuid n → formatUuid u = t := by
  refine ⟨?_, ?_, ?_⟩
  · intro l₁ hl₁ l₂ hl₂ p₁ hp₁ p₂ hp₂ q₁ q₂ h₁ h₂
    obtain ⟨v₁, _, hv₁, -, hq₁⟩ := svmifyPool_ok h₁
    obtain ⟨v₂, _, hv₂, -, hq₂⟩ := svmifyPool_ok h₂
    rw [hq₁.poolName, hq₂.poolName, hv₁, hv₂]
    constructor
    · intro heq
      injection heq with heq
      injection heq with heq
      obtain ⟨hsvm, hflex⟩ :=
        qualified_name_inj (svms.svmNames l₁ hl₁).plus (svms.svmNames l₂ hl₂).plus heq
      exact ⟨hsvm, by rw [hflex]⟩
    · rintro ⟨hsvm, hflex⟩
      injection hflex with hflex
      injection hflex with hflex
      rw [hsvm, hflex]
  · intro service hservice l hl p hp
    obtain ⟨v, hv, hplain⟩ := svms.flexvols l hl p hp
    obtain ⟨typeId, htype⟩ := volumeTypeId_total hcapture v
    obtain ⟨q, hq, hqualified⟩ := svmifyPool_qualified filterFunction l.1 hv htype
    have hlookup : svms.libs.lookup l.1 = some l.2 := PyDict.lookup_of_mem svms.keys hl
    exact ⟨q, v, _, hq, hv, hqualified.poolName,
      volumeToLibrary_qualified x hservice (svms.svmNames l hl) hplain hlookup (svms.vserver l hl)⟩
  · intro projectId t ht pool hpool
    have htype := volumeTypeId_volumeName hcapture ht
    obtain ⟨q, hq, hqualified⟩ :=
      svmifyPool_qualified filterFunction (Workflows.Netapp.svmName projectId) hpool htype
    have hread := uuid?_of_hex ht.length ht.hex
    refine ⟨q, _, hq, hread, hqualified.typeId, ?_, ?_⟩
    · rw [hqualified.projectId, hPrefixed, Workflows.Netapp.svmName, removePrefix_append]
    · intro n hn hcanonical
      rw [hcanonical, uuid?_formatUuid hn] at hread
      rw [hcanonical, ← Option.some.inj hread]

/-- The default prefix with the pattern `vol_(.+)`. -/
def volConfig : Config where
  vserverPrefix := "os-".toList
  baseFilter := none
  poolMatch name :=
    if "vol_".toList.isPrefixOf name && decide (4 < name.length) && decide ('\n' ∉ name) then
      some (some (name.drop 4))
    else none

theorem volConfig_captures : CapturesType volConfig where
  capture := by
    intro x hne hline
    have hlen : 0 < x.length := List.length_pos_iff.mpr hne
    have hcond : ("vol_".toList.isPrefixOf ("vol_".toList ++ x) &&
        decide (4 < ("vol_".toList ++ x).length) && decide ('\n' ∉ "vol_".toList ++ x)) = true := by
      simp [hlen, hline]
    simp only [volConfig, hcond, if_true]
    rfl
  group := by
    intro name h
    simp only [volConfig] at h
    split_ifs at h
    cases h

/-- Two SVMs with a FlexVol of one name. -/
def twoSvms : LoadedSvms where
  libs := [("os-a".toList, ⟨"os-a".toList, [[("pool_name".toList, .text "vol_1".toList)]]⟩),
    ("os-b".toList, ⟨"os-b".toList, [[("pool_name".toList, .text "vol_1".toList)]]⟩)]
  keys := by decide
  vserver := by decide
  svmNames := by
    intro l hl
    simp only [List.mem_cons, List.not_mem_nil, or_false] at hl
    rcases hl with rfl | rfl
    · exact ⟨by decide, by decide, by decide, by decide⟩
    · exact ⟨by decide, by decide, by decide, by decide⟩
  flexvols := by
    intro l hl p hp
    refine ⟨"vol_1".toList, ?_, by decide, by decide, by decide, by decide⟩
    simp only [List.mem_cons, List.not_mem_nil, or_false] at hl
    rcases hl with rfl | rfl
    · rw [List.mem_singleton.mp hp]
      decide
    · rw [List.mem_singleton.mp hp]
      decide

theorem pool_names_round_trip_two_svms :
    (∃ q qualified, svmifyPool volConfig [] "os-b".toList
        [("pool_name".toList, .text "vol_1".toList)] = .ok q ∧
      q.lookup "pool_name".toList = some (.text qualified) ∧
      volumeToLibrary extractHost twoSvms.libs ("cinder@netapp#".toList ++ qualified) =
        .ok (⟨"os-b".toList, [[("pool_name".toList, .text "vol_1".toList)]]⟩,
          "cinder@netapp#vol_1".toList)) ∧
    ∃ q, svmifyPool volConfig [] (Workflows.Netapp.svmName "a".toList)
        [("pool_name".toList, .text (Workflows.Netapp.volumeName (formatUuid 5)))] = .ok q ∧
      q.lookup "netapp_volume_type_id".toList = some (.text (formatUuid 5)) := by
  obtain ⟨-, hhost, htype⟩ :=
    pool_names_round_trip volConfig extractHost twoSvms [] rfl volConfig_captures
  have hservice : ServiceName "cinder@netapp".toList := ⟨by decide, by decide, by decide⟩
  constructor
  · obtain ⟨q, v, qualified, hq, hv, hname, hlib⟩ := hhost _ hservice
      ("os-b".toList, ⟨"os-b".toList, [[("pool_name".toList, .text "vol_1".toList)]]⟩)
      (by simp [twoSvms]) _ (List.mem_singleton_self _)
    cases hv
    exact ⟨q, qualified, hq, hname, hlib⟩
  · obtain ⟨q, u, hq, -, htypeId, -, hcanonical⟩ := htype "a".toList (formatUuid 5)
      (uuidText_formatUuid 5)
      [("pool_name".toList, .text (Workflows.Netapp.volumeName (formatUuid 5)))] rfl
    rw [hcanonical 5 (by decide) rfl] at htypeId
    exact ⟨q, hq, htypeId⟩

end Understack.Cinder
