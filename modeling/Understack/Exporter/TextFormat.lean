import Understack.Exporter.NodeStore
import Understack.Lib.Escapes

/-! The Prometheus text format for gauges: lines of help, type and samples. A label value is a
quoted string with three escapes, a help text has two. -/
namespace Understack.Exporter.TextFormat
open PyText

def isBlank (c : Char) : Bool := c = ' ' || c = '\t'

def isLabelChar (c : Char) : Bool := c.isAlphanum || c = '_'

def isMetricChar (c : Char) : Bool := isLabelChar c || c = ':'

/-- Whether a text is a name with the given characters. -/
def isName (ok : Char → Bool) (s : Text) : Bool :=
  s.all ok && match s with
    | [] => false
    | c :: _ => !c.isDigit

def readName (ok : Char → Bool) (s : Text) : Option (Text × Text) :=
  if isName ok (s.takeWhile ok) then some (s.takeWhile ok, s.dropWhile ok) else none

def stripPrefix (p s : Text) : Option Text :=
  if p.isPrefixOf s then some (s.drop p.length) else none

/-- The rest of a string after its opening quote, up to the closing one. -/
def readQuoted : Text → Option (Text × Text)
  | [] => none
  | c :: rest =>
    if c = '"' then some ([], rest)
    else if c = '\\' then
      match rest with
      | [] => none
      | e :: rest =>
        if e = '\\' ∨ e = '"' then (readQuoted rest).map fun p => (e :: p.1, p.2)
        else if e = 'n' then (readQuoted rest).map fun p => ('\n' :: p.1, p.2)
        else none
    else (readQuoted rest).map fun p => (c :: p.1, p.2)

def unescapeHelp : Text → Option Text
  | [] => some []
  | c :: rest =>
    if c = '\\' then
      match rest with
      | [] => none
      | e :: rest =>
        if e = '\\' then (unescapeHelp rest).map ('\\' :: ·)
        else if e = 'n' then (unescapeHelp rest).map ('\n' :: ·)
        else none
    else (unescapeHelp rest).map (c :: ·)

/-- The text after the name of a help line; blanks before it separate. -/
def readHelp (s : Text) : Option Text := unescapeHelp (s.dropWhile isBlank)

def readLabel (s : Text) : Option ((String × Text) × Text) := do
  let (name, r) ← readName isLabelChar s
  let r ← stripPrefix "=\"".toList r
  let (value, r) ← readQuoted r
  return ((String.ofList name, value), r)

/-- Labels up to the closing brace; the number bounds how many there are. -/
def readLabels : ℕ → Text → Option (List (String × Text) × Text)
  | 0, _ => none
  | n + 1, s => do
    let (label, r) ← readLabel s
    match r with
    | '}' :: r => return ([label], r)
    | ',' :: r =>
      let (labels, r) ← readLabels n r
      return (label :: labels, r)
    | _ => none

def readLabelSet (s : Text) : Option (List (String × Text) × Text) :=
  match s with
  | '}' :: r => some ([], r)
  | _ => readLabels s.length s

def readDigits (s : Text) : Option ℕ :=
  if s ≠ [] ∧ s.all Char.isDigit then some (Nat.ofDigitChars 10 s 0) else none

/-- A sample value that is an integer. -/
def readValue : Text → Option ℤ
  | '-' :: r => (readDigits r).map fun n : ℕ => -(n : ℤ)
  | r => (readDigits r).map fun n : ℕ => (n : ℤ)

inductive Line where
  | help (name : Text) (help : Text)
  | type (name : Text)
  | sample (name : Text) (sample : Sample ℤ)

def readHelpLine (r : Text) : Option Line := do
  let (name, r) ← readName isMetricChar r
  let r ← stripPrefix [' '] r
  return .help name (← readHelp r)

def readTypeLine (r : Text) : Option Line := do
  let (name, r) ← readName isMetricChar r
  let r ← stripPrefix [' '] r
  if r = "gauge".toList then return .type name else none

def readSampleLine (s : Text) : Option Line := do
  let (name, r) ← readName isMetricChar s
  let r ← stripPrefix ['{'] r
  let (labels, r) ← readLabelSet r
  let r ← stripPrefix [' '] r
  return .sample name ⟨labels, ← readValue r⟩

def readLine (s : Text) : Option Line :=
  match stripPrefix "# HELP ".toList s with
  | some r => readHelpLine r
  | none =>
    match stripPrefix "# TYPE ".toList s with
    | some r => readTypeLine r
    | none => readSampleLine s

/-- A help line starts a family; the lines after it belong to the family. -/
def addLine (families : List (MetricFamily ℤ)) (line : Line) : Option (List (MetricFamily ℤ)) :=
  match line, families with
  | .help name help, fs => some (⟨String.ofList name, String.ofList help, []⟩ :: fs)
  | .type name, f :: fs => if f.name = String.ofList name then some (f :: fs) else none
  | .sample name s, f :: fs =>
    if f.name = String.ofList name then some ({ f with samples := f.samples ++ [s] } :: fs)
    else none
  | _, [] => none

/-- The lines of a text that ends with a line feed, or is empty. -/
def lines (s : Text) : Option (List Text) :=
  match (split '\n' s).reverse with
  | [] :: ls => some ls.reverse
  | _ => none

/-- One line of the text; the families read so far are in reverse. -/
def addText (families : List (MetricFamily ℤ)) (l : Text) : Option (List (MetricFamily ℤ)) :=
  (readLine l).bind (addLine families)

def parse (s : Text) : Option (List (MetricFamily ℤ)) :=
  (lines s).bind fun ls => (ls.foldlM addText []).map List.reverse

/-! Reading what is written. -/

theorem stripPrefix_append (p s : Text) : stripPrefix p (p ++ s) = some s := by
  rw [stripPrefix, if_pos (List.isPrefixOf_iff_prefix.mpr (List.prefix_append p s)),
    List.drop_left]

theorem stripPrefix_singleton (c : Char) (s : Text) : stripPrefix [c] (c :: s) = some s :=
  stripPrefix_append [c] s

theorem stripPrefix_of_head {c d : Char} {p s : Text} (h : c ≠ d) :
    stripPrefix (c :: p) (d :: s) = none := by
  rw [stripPrefix, if_neg]
  simp [List.isPrefixOf, h]

theorem readLine_help (r : Text) : readLine ("# HELP ".toList ++ r) = readHelpLine r := by
  rw [readLine, stripPrefix_append]

theorem readLine_type (r : Text) : readLine ("# TYPE ".toList ++ r) = readTypeLine r := by
  have hhelp : stripPrefix "# HELP ".toList ("# TYPE ".toList ++ r) = none := by
    rw [stripPrefix, if_neg]
    simp [List.isPrefixOf]
  rw [readLine, hhelp]
  dsimp only
  rw [stripPrefix_append]

theorem readLine_sample {c : Char} (hc : c ≠ '#') (r : Text) :
    readLine (c :: r) = readSampleLine (c :: r) := by
  have hhelp : stripPrefix "# HELP ".toList (c :: r) = none := stripPrefix_of_head hc.symm
  have htype : stripPrefix "# TYPE ".toList (c :: r) = none := stripPrefix_of_head hc.symm
  rw [readLine, hhelp]
  dsimp only
  rw [htype]

/-- A name ends at the first character that is not one of its own. -/
theorem readName_append {ok : Char → Bool} {name : Text} (hname : isName ok name = true) {c : Char}
    (hc : ok c = false) (rest : Text) :
    readName ok (name ++ c :: rest) = some (name, c :: rest) := by
  have hall : ∀ x ∈ name, ok x = true := by
    simp only [isName, Bool.and_eq_true] at hname
    exact List.all_eq_true.mp hname.1
  have htake : (name ++ c :: rest).takeWhile ok = name := by
    rw [List.takeWhile_append_of_pos hall, List.takeWhile_cons_of_neg (by simp [hc]),
      List.append_nil]
  have hdrop : (name ++ c :: rest).dropWhile ok = c :: rest := by
    rw [List.dropWhile_append_of_pos hall, List.dropWhile_cons_of_neg (by simp [hc])]
  rw [readName, htake, hdrop, if_pos hname]

theorem ne_nil_of_isName {ok : Char → Bool} {name : Text} (h : isName ok name = true) :
    name ≠ [] := by
  rintro rfl
  simp [isName] at h

/-- A name does not begin with a character that is not one of its own. -/
theorem head_of_isName {ok : Char → Bool} {name : Text} (h : isName ok name = true) :
    ∃ c cs, name = c :: cs ∧ ok c = true := by
  cases name with
  | nil => exact absurd rfl (ne_nil_of_isName h)
  | cons c cs =>
    simp only [isName, List.all_cons, Bool.and_eq_true] at h
    exact ⟨c, cs, rfl, h.1.1⟩

theorem lineFeed_notMem_of_isName {ok : Char → Bool} {name : Text} (h : isName ok name = true)
    (hok : ok '\n' = false) : '\n' ∉ name := by
  intro hm
  simp only [isName, Bool.and_eq_true] at h
  rw [List.all_eq_true.mp h.1 '\n' hm] at hok
  cases hok

theorem readDigits_toDigits (n : ℕ) : readDigits (Nat.toDigits 10 n) = some n := by
  have hall : (Nat.toDigits 10 n).all Char.isDigit = true :=
    List.all_eq_true.mpr fun c hc => toDigits_isDigit hc
  rw [readDigits, if_pos ⟨Nat.toDigits_ne_nil, hall⟩, Nat.ofDigitChars_ten_toDigits]

theorem readValue_ofInt (z : ℤ) : readValue (ofInt z) = some z := by
  cases z with
  | ofNat n =>
    have hdigits : ofInt (.ofNat n) = Nat.toDigits 10 n := rfl
    rw [hdigits]
    unfold readValue
    split
    · next r hr =>
      have hmem : '-' ∈ Nat.toDigits 10 n := by simp [hr]
      exact absurd (toDigits_isDigit hmem) (by decide)
    · rw [readDigits_toDigits]
      rfl
  | negSucc n =>
    have hdigits : ofInt (.negSucc n) = '-' :: Nat.toDigits 10 (n + 1) := rfl
    rw [hdigits, readValue, readDigits_toDigits]
    rfl

/-- The characters that a help text escapes, by the one after the backslash. -/
def helpEscape (e : Char) : Option Char :=
  if e = '\\' then some '\\' else if e = 'n' then some '\n' else none

theorem unescapeHelp_eq_decode (s : Text) :
    unescapeHelp s = Escapes.decode '\\' helpEscape s := by
  fun_induction unescapeHelp s with
  | case1 => rfl
  | case2 => rfl
  | case3 rest ih => simp [Escapes.decode, helpEscape, ih]
  | case4 rest hn ih => simp [Escapes.decode, helpEscape, ih]
  | case5 e rest hb hn => simp [Escapes.decode, helpEscape, hb, hn]
  | case6 c rest hc ih =>
    rw [Escapes.decode.eq_def]
    simp [hc, ih]

/-- A help text that a help line keeps: without backslashes, and not led by a blank. -/
def IsPlainHelp (s : Text) : Prop := '\\' ∉ s ∧ ∀ c ∈ s.head?, isBlank c = false

theorem readHelp_eq_self (s : Text) : readHelp s = some s ↔ IsPlainHelp s := by
  have hdrop : s.dropWhile isBlank = s ↔ ∀ c ∈ s.head?, isBlank c = false := by
    cases s with
    | nil => simp
    | cons c cs =>
      cases hc : isBlank c with
      | false => simp [hc]
      | true =>
        have hlen := (List.dropWhile_suffix isBlank (l := cs)).length_le
        have hne : cs.dropWhile isBlank ≠ c :: cs := by
          intro he
          rw [he, List.length_cons] at hlen
          omega
        simp [hc, hne]
  have hlen := (List.dropWhile_suffix isBlank (l := s)).length_le
  unfold readHelp IsPlainHelp
  constructor
  · intro h
    obtain ⟨hle, hlt⟩ := Escapes.length_decode ((unescapeHelp_eq_decode _).symm.trans h)
    have hself : s.dropWhile isBlank = s :=
      (List.dropWhile_suffix isBlank).eq_of_length (le_antisymm hlen hle)
    rw [hself] at hlt
    exact ⟨fun hm => absurd (hlt hm) (lt_irrefl _), hdrop.mp hself⟩
  · rintro ⟨hb, hhead⟩
    rw [hdrop.mpr hhead, unescapeHelp_eq_decode, Escapes.decode_eq_self hb]

theorem lines_flatMap {ls : List Text} (h : ∀ l ∈ ls, '\n' ∉ l) :
    lines (ls.flatMap (· ++ ['\n'])) = some ls := by
  have hsplit : split '\n' (ls.flatMap (· ++ ['\n'])) = ls ++ [[]] := by
    induction ls with
    | nil => rfl
    | cons l ls ih =>
      rw [List.flatMap_cons, List.append_assoc, List.singleton_append, split,
        List.splitOn_append_cons_self_of_not_mem (h l List.mem_cons_self)]
      exact congrArg (l :: ·) (ih fun l hl => h l (List.mem_cons_of_mem _ hl))
  rw [lines, hsplit]
  simp

end Understack.Exporter.TextFormat
