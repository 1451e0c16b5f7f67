import Understack.Lib.PyText
import Mathlib.Data.List.DropRight

/-! Portgroup names: the check of `portgroup_name_middleware.py`, and the LAG interface name that
the event handler of `oslo_event/ironic_portgroup.py` reads from them. -/
namespace Understack.Ironic.Portgroup
open PyText

def portChannelMin : ℕ := 100

def portChannelMax : ℕ := 998

def separator : Text := "-port-channel".toList

/-- The text up to the place where `$` matches: the end, or a newline that ends the text. -/
def beforeEnd (s : Text) : Text := if s.getLast? = some '\n' then s.dropLast else s

/-- The digits at the end of the text, which is what the group of the pattern captures. -/
def trailingDigits (s : Text) : Text := (beforeEnd s).rtakeWhile isDecimal

/-- The node part and the number of a name that `PORTGROUP_NAME_PATTERN` matches. -/
def matchName (name : Text) : Option (Text × Text) :=
  let digits := trailingDigits name
  match ((beforeEnd name).rdropWhile isDecimal).dropSuffix? separator with
  | some node => if node ≠ [] ∧ '\n' ∉ node ∧ digits ≠ [] then some (node, digits) else none
  | none => none

def validatePortgroupName (name : Option Text) : Bool × Option Text :=
  let name := name.getD []
  if name = [] then
    (false, some "Portgroup name is required and cannot be empty.".toList)
  else
    match matchName name with
    | none =>
      (false, some ("Portgroup name '".toList ++ name ++ "' must match format ".toList ++
        "'\x7bnode_name\x7d-port-channel\x7b\x7bnumber\x7d\x7d' ".toList ++
        "(e.g., 'server01-port-channel100')".toList))
    | some (_, digits) =>
      let portChannelNum := decimalValue digits
      if ¬(portChannelMin ≤ portChannelNum ∧ portChannelNum ≤ portChannelMax) then
        (false, some ("Portgroup name '".toList ++ name ++
          "' has invalid port-channel number ".toList ++ ofInt portChannelNum ++
          ". Must be between ".toList ++ ofInt portChannelMin ++ " and ".toList ++
          ofInt portChannelMax ++ " (inclusive).".toList))
      else (true, none)

/-- The fields of the event that the handlers read. -/
structure IronicPortgroupEvent where
  uuid : Text
  name : Option Text
  nodeUuid : Text
  address : Option Text
  mode : Option Text
  deriving DecidableEq, Repr

/-- `name.split("_", 1)` has two parts whenever the name has an underscore, so the branches of
the source for other lengths are the last one. -/
def IronicPortgroupEvent.lagName (event : IronicPortgroupEvent) : Text :=
  let name := event.name.getD []
  if name = [] then event.uuid
  else
    match splitOnce '_' name with
    | some (_, interface) => interface
    | none => name

/-- What the pattern of the source says about a name: a node part without newlines, the
separator, digits, and possibly a final newline. -/
structure Matches (name node digits : Text) : Prop where
  node_ne : node ≠ []
  node_line : '\n' ∉ node
  digits_ne : digits ≠ []
  decimal : ∀ c ∈ digits, isDecimal c = true
  text : name = node ++ separator ++ digits ∨ name = node ++ separator ++ digits ++ ['\n']

theorem beforeEnd_append {s digits : Text} (hne : digits ≠ [])
    (hd : ∀ c ∈ digits, isDecimal c = true) :
    beforeEnd (s ++ digits) = s ++ digits ∧ beforeEnd (s ++ digits ++ ['\n']) = s ++ digits := by
  have hlast : (s ++ digits).getLast? ≠ some '\n' := by
    rw [List.getLast?_append_of_ne_nil _ hne]
    intro h
    exact absurd (hd _ (List.mem_of_getLast? h)) (by decide)
  constructor
  · rw [beforeEnd, if_neg hlast]
  · simp [beforeEnd]

theorem rtakeWhile_append {s digits : Text} (hs : ∀ h : s ≠ [], ¬ isDecimal (s.getLast h))
    (hd : ∀ c ∈ digits, isDecimal c = true) :
    (s ++ digits).rtakeWhile isDecimal = digits ∧ (s ++ digits).rdropWhile isDecimal = s := by
  induction digits using List.reverseRecOn with
  | nil =>
    rw [List.append_nil]
    exact ⟨List.rtakeWhile_eq_nil_iff.mpr hs, List.rdropWhile_eq_self_iff.mpr hs⟩
  | append_singleton ds c ih =>
    obtain ⟨h1, h2⟩ := ih fun x hx => hd x (by simp [hx])
    have hc : isDecimal c = true := hd c (by simp)
    rw [← List.append_assoc]
    exact ⟨by rw [List.rtakeWhile_concat_pos _ _ _ hc, h1],
      by rw [List.rdropWhile_concat_pos _ _ _ hc, h2]⟩

theorem separator_last (s : Text) (h : s ++ separator ≠ []) :
    ¬ isDecimal ((s ++ separator).getLast h) := by
  rw [List.getLast_append_of_ne_nil _ (by decide)]
  decide

/-- Whatever stands before the separator, the digits after it are those at the end. -/
theorem trailingDigits_eq {s name digits : Text} (hne : digits ≠ [])
    (hd : ∀ c ∈ digits, isDecimal c = true)
    (ht : name = s ++ separator ++ digits ∨ name = s ++ separator ++ digits ++ ['\n']) :
    trailingDigits name = digits ∧
      (beforeEnd name).rdropWhile isDecimal = s ++ separator := by
  have hb : beforeEnd name = s ++ separator ++ digits := by
    rcases ht with rfl | rfl
    · exact (beforeEnd_append hne hd).1
    · exact (beforeEnd_append hne hd).2
  rw [trailingDigits, hb]
  exact rtakeWhile_append (separator_last s) hd

theorem beforeEnd_eq (s : Text) : s = beforeEnd s ∨ s = beforeEnd s ++ ['\n'] := by
  by_cases h : s.getLast? = some '\n'
  · right
    rw [beforeEnd, if_pos h]
    exact (List.dropLast_append_getLast? _ h).symm
  · left
    rw [beforeEnd, if_neg h]

/-- The executable match is the pattern: it finds the node part and the digits of exactly the
names that have them. -/
theorem matchName_eq_some_iff {name node digits : Text} :
    matchName name = some (node, digits) ↔ Matches name node digits := by
  constructor
  · intro h
    simp only [matchName] at h
    split at h
    · next n hn =>
      obtain ⟨sep, hrest, hsep⟩ := List.dropSuffix?_eq_some_iff.mp hn
      obtain rfl : sep = separator := by simpa using hsep
      split_ifs at h with hif
      obtain ⟨hne, hline, hdig⟩ := hif
      simp only [Option.some.injEq, Prod.mk.injEq] at h
      obtain ⟨rfl, rfl⟩ := h
      have hbody : beforeEnd name = n ++ separator ++ trailingDigits name := by
        rw [← hrest, trailingDigits, List.rdropWhile_append_rtakeWhile]
      exact ⟨hne, hline, hdig, fun c hc => List.mem_rtakeWhile_imp hc,
        by rw [← hbody]; exact beforeEnd_eq name⟩
    · cases h
  · intro h
    obtain ⟨hdig, hrest⟩ := trailingDigits_eq h.digits_ne h.decimal h.text
    have hsuffix : (node ++ separator).dropSuffix? separator = some node :=
      List.dropSuffix?_eq_some_iff.mpr ⟨separator, rfl, by simp⟩
    simp only [matchName, hdig, hrest, hsuffix]
    rw [if_pos ⟨h.node_ne, h.node_line, h.digits_ne⟩]

/-- The port-channel number of a name that the pattern matches. -/
def portChannelNumber (name : Text) : ℕ := decimalValue (trailingDigits name)

theorem validatePortgroupName_accepts {name : Option Text}
    (h : (validatePortgroupName name).1 = true) :
    ∃ text node digits, name = some text ∧ Matches text node digits ∧
      portChannelNumber text = decimalValue digits ∧
      portChannelMin ≤ portChannelNumber text ∧ portChannelNumber text ≤ portChannelMax := by
  cases name with
  | none => simp [validatePortgroupName] at h
  | some text =>
    by_cases hnil : text = []
    · simp [validatePortgroupName, hnil] at h
    · cases hm : matchName text with
      | none => simp [validatePortgroupName, hnil, hm] at h
      | some p =>
        obtain ⟨node, digits⟩ := p
        have hmatch := matchName_eq_some_iff.mp hm
        have hnum : portChannelNumber text = decimalValue digits := by
          rw [portChannelNumber,
            (trailingDigits_eq hmatch.digits_ne hmatch.decimal hmatch.text).1]
        by_cases hr : portChannelMin ≤ decimalValue digits ∧ decimalValue digits ≤ portChannelMax
        · exact ⟨text, node, digits, rfl, hmatch, hnum, by rw [hnum]; exact hr.1,
            by rw [hnum]; exact hr.2⟩
        · simp [validatePortgroupName, hnil, hm, hr] at h

/-- The name keeps its separator and its digits: an underscore can only stand in the node
part. -/
theorem lagName_of_matches {event : IronicPortgroupEvent} {name node digits : Text}
    (hn : event.name = some name) (h : Matches name node digits) :
    ∃ rest, event.lagName = rest ++ separator ++ digits ∨
      event.lagName = rest ++ separator ++ digits ++ ['\n'] := by
  obtain ⟨tail, htail, hname⟩ : ∃ tail, (tail = [] ∨ tail = ['\n']) ∧
      name = node ++ (separator ++ digits ++ tail) := by
    rcases h.text with ht | ht
    · exact ⟨[], Or.inl rfl, by simp [ht]⟩
    · exact ⟨['\n'], Or.inr rfl, by simp [ht]⟩
  have hfree : '_' ∉ separator ++ digits ++ tail := by
    have h1 : '_' ∉ digits := fun hm => absurd (h.decimal _ hm) (by decide)
    have h2 : '_' ∉ separator := by decide
    rcases htail with rfl | rfl <;> simp [h1, h2]
  have hne : name ≠ [] := by
    intro hnil
    rw [hnil] at hname
    exact h.node_ne (List.append_eq_nil_iff.mp hname.symm).1
  obtain ⟨rest, hlag⟩ : ∃ rest, event.lagName = rest ++ (separator ++ digits ++ tail) := by
    simp only [IronicPortgroupEvent.lagName, hn, Option.getD_some, if_neg hne]
    rw [hname, splitOnce_append_right hfree]
    cases splitOnce '_' node with
    | none => exact ⟨node, rfl⟩
    | some p => exact ⟨p.2, rfl⟩
  use rest
  rcases htail with rfl | rfl
  · left; simpa using hlag
  · right; simpa using hlag

/-- The interface part of the documented format for a port-channel number. -/
def interfaceName (number : Text) : Text := "port-channel".toList ++ number

def IronicPortgroupEvent.number (event : IronicPortgroupEvent) : ℕ :=
  portChannelNumber (event.name.getD [])

theorem count_append_of_free {c : Char} (s : Text) {t : Text} (h : c ∉ t) :
    (s ++ t).count c = s.count c := by
  rw [List.count_append, List.count_eq_zero_of_not_mem h, Nat.add_zero]

theorem interfaceName_dashes {number : Text} (h : '-' ∉ number) :
    (interfaceName number).count '-' = 1 :=
  (count_append_of_free _ h).trans (by decide)

/-- The dash before the port channel survives the decoding, next to the one inside it. -/
theorem two_le_dashes {lag rest digits : Text}
    (h : lag = rest ++ separator ++ digits ∨ lag = rest ++ separator ++ digits ++ ['\n']) :
    2 ≤ lag.count '-' := by
  have hsep : separator.count '-' = 2 := by decide
  rcases h with rfl | rfl <;> simp only [List.count_append, hsep] <;> omega

/-- No accepted name decodes to the interface part of its format, with the digits of the name
or with the decimal form of their value; what the decoded names do keep is the number. -/
theorem lagName_ne_interfaceName {event : IronicPortgroupEvent}
    (h : (validatePortgroupName event.name).1 = true) :
    event.lagName ≠ interfaceName (ofInt event.number) ∧
    event.lagName ≠ interfaceName (trailingDigits (event.name.getD [])) ∧
    ∀ other : IronicPortgroupEvent, (validatePortgroupName other.name).1 = true →
      event.lagName = other.lagName → event.number = other.number := by
  obtain ⟨name, node, digits, hname, hmatch, hnum, -⟩ := validatePortgroupName_accepts h
  have hdigits := (trailingDigits_eq hmatch.digits_ne hmatch.decimal hmatch.text).1
  obtain ⟨rest, hlag⟩ := lagName_of_matches hname hmatch
  have hdash := two_le_dashes hlag
  constructor
  · intro heq
    have hfree : '-' ∉ ofInt event.number := by
      intro hm
      exact absurd (mem_ofInt_of_nonneg (Int.natCast_nonneg _) hm) (by decide)
    rw [heq, interfaceName_dashes hfree] at hdash
    omega
  constructor
  · intro heq
    have hfree : '-' ∉ digits := by
      intro hm
      exact absurd (hmatch.decimal _ hm) (by decide)
    simp only [hname, Option.getD_some, hdigits] at heq
    rw [heq, interfaceName_dashes hfree] at hdash
    omega
  · intro other ho heq
    obtain ⟨name', node', digits', hname', hmatch', hnum', -⟩ := validatePortgroupName_accepts ho
    obtain ⟨rest', hlag'⟩ := lagName_of_matches hname' hmatch'
    -- both decoded names end in the digits of the names they come from
    have h1 := (trailingDigits_eq hmatch.digits_ne hmatch.decimal hlag).1
    have h2 := (trailingDigits_eq hmatch'.digits_ne hmatch'.decimal hlag').1
    have hsame : digits = digits' := by rw [← h1, heq, h2]
    simp only [IronicPortgroupEvent.number, hname, hname', Option.getD_some, hnum, hnum', hsame]

/-- The event of a portgroup named as in the error message of the check. -/
def exampleEvent : IronicPortgroupEvent where
  uuid := "b3f1".toList
  name := some "server01-port-channel100".toList
  nodeUuid := "7c2e".toList
  address := none
  mode := none

theorem lagName_ne_interfaceName_example :
    (validatePortgroupName exampleEvent.name).1 = true ∧
    exampleEvent.lagName ≠ interfaceName (ofInt exampleEvent.number) := by
  have h : (validatePortgroupName exampleEvent.name).1 = true := by decide +kernel
  exact ⟨h, (lagName_ne_interfaceName h).1⟩

theorem lagName_not_decoded :
    ¬ ∀ event : IronicPortgroupEvent, (validatePortgroupName event.name).1 = true →
      event.lagName = interfaceName (ofInt event.number) := by
  intro h
  exact absurd (h exampleEvent (by decide +kernel)) (by decide +kernel)

end Understack.Ironic.Portgroup
