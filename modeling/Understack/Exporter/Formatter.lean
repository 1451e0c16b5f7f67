import Understack.Exporter.TextFormat

/-! `Render` of `formatter.go`. Label values are written as Go string literals, whose escapes are
more than the three of the text format. -/
namespace Understack.Exporter
open PyText TextFormat

/-- `strconv.IsPrint`; a line feed is not printable. -/
structure Printable where
  isPrint : Char → Bool
  lineFeed : isPrint '\n' = false

/-- `n` hexadecimal digits in lower case. -/
def hexDigits : ℕ → ℕ → Text
  | 0, _ => []
  | n + 1, v => hexDigits n (v / 16) ++ [Nat.digitChar (v % 16)]

/-- The control characters with an escape of their own. -/
def controlEscapes : List (ℕ × Char) :=
  [(7, 'a'), (8, 'b'), (12, 'f'), (10, 'n'), (13, 'r'), (9, 't'), (11, 'v')]

section
variable (P : Printable)

/-- `appendEscapedRune` of `strconv`, for a double-quoted literal. -/
def escapeRune (c : Char) : Text :=
  if c = '"' ∨ c = '\\' then ['\\', c]
  else if P.isPrint c then [c]
  else
    match controlEscapes.lookup c.toNat with
    | some e => ['\\', e]
    | none =>
      if c.toNat < 0x20 ∨ c.toNat = 0x7f then '\\' :: 'x' :: hexDigits 2 c.toNat
      else if c.toNat < 0x10000 then '\\' :: 'u' :: hexDigits 4 c.toNat
      else '\\' :: 'U' :: hexDigits 8 c.toNat

/-- `%q` -/
def quote (s : Text) : Text := '"' :: (s.flatMap (escapeRune P) ++ ['"'])

def renderLabel (l : String × Text) : Text := l.1.toList ++ '=' :: quote P l.2

def renderLabels (labels : List (String × Text)) : Text := join ',' (labels.map (renderLabel P))

/-- `%g` of an integer of at most six digits. -/
def formatG (z : ℤ) : Text := ofInt z

def helpLine (f : MetricFamily ℤ) : Text :=
  "# HELP ".toList ++ (f.name.toList ++ ' ' :: f.help.toList)

def typeLine (f : MetricFamily ℤ) : Text :=
  "# TYPE ".toList ++ (f.name.toList ++ " gauge".toList)

def sampleLine (name : String) (s : Sample ℤ) : Text :=
  name.toList ++ '{' :: (renderLabels P s.labels ++ '}' :: ' ' :: formatG s.value)

def renderFamily (f : MetricFamily ℤ) : List Text :=
  helpLine f :: typeLine f :: f.samples.map (sampleLine P f.name)

def render (families : List (MetricFamily ℤ)) : Text :=
  (families.flatMap (renderFamily P)).flatMap (· ++ ['\n'])

end

/-! A quoted value read back. -/

/-- The literal of the character is the one that the text format has for it. -/
def isLegible (P : Printable) (c : Char) : Bool :=
  c = '"' || c = '\\' || c = '\n' || P.isPrint c

section
variable (P : Printable)

theorem readQuoted_verbatim {c : Char} (hq : c ≠ '"') (hb : c ≠ '\\') (t : Text) :
    readQuoted (c :: t) = (readQuoted t).map fun p => (c :: p.1, p.2) := by
  rw [readQuoted.eq_def]
  simp [hq, hb]

theorem readQuoted_escape (e : Char) (t : Text) :
    readQuoted ('\\' :: e :: t) =
      if e = '\\' ∨ e = '"' then (readQuoted t).map fun p => (e :: p.1, p.2)
      else if e = 'n' then (readQuoted t).map fun p => ('\n' :: p.1, p.2) else none := by
  rw [readQuoted.eq_def]
  simp

theorem readQuoted_legible {c : Char} (h : isLegible P c = true) (t : Text) :
    readQuoted (escapeRune P c ++ t) = (readQuoted t).map fun p => (c :: p.1, p.2) := by
  unfold escapeRune
  by_cases hc : c = '"' ∨ c = '\\'
  · rw [if_pos hc, List.cons_append, List.singleton_append, readQuoted_escape, if_pos hc.symm]
  · obtain ⟨hq, hb⟩ := not_or.mp hc
    rw [if_neg hc]
    by_cases hp : P.isPrint c = true
    · rw [if_pos hp, List.singleton_append, readQuoted_verbatim hq hb]
    · have hn : c = '\n' := by simpa [isLegible, hq, hb, hp] using h
      subst hn
      rw [if_neg hp]
      exact readQuoted_escape 'n' t

/-- Every other escape of a Go literal is unknown to the format. -/
theorem readQuoted_illegible {c : Char} (h : isLegible P c = false) (t : Text) :
    readQuoted (escapeRune P c ++ t) = none := by
  simp only [isLegible, Bool.or_eq_false_iff, decide_eq_false_iff_not] at h
  obtain ⟨⟨⟨hq, hb⟩, hn⟩, hp⟩ := h
  have hunknown (e : Char) (u : Text) (he : e ≠ '\\' ∧ e ≠ '"' ∧ e ≠ 'n') :
      readQuoted ('\\' :: e :: u) = none := by
    rw [readQuoted_escape, if_neg (not_or.mpr ⟨he.1, he.2.1⟩), if_neg he.2.2]
  unfold escapeRune
  rw [if_neg (not_or.mpr ⟨hq, hb⟩), if_neg (by simp [hp])]
  split
  · next e he =>
    have hmem := PyDict.mem_of_lookup he
    have hten : c.toNat ≠ 10 := fun h10 => hn (Char.ext (UInt32.toNat_inj.mp h10))
    refine hunknown e t ?_
    simp only [controlEscapes, List.mem_cons, Prod.mk.injEq, List.not_mem_nil, or_false] at hmem
    rcases hmem with ⟨-, rfl⟩ | ⟨-, rfl⟩ | ⟨-, rfl⟩ | ⟨h10, -⟩ | ⟨-, rfl⟩ | ⟨-, rfl⟩ | ⟨-, rfl⟩
    · decide
    · decide
    · decide
    · exact absurd h10 hten
    · decide
    · decide
    · decide
  · split_ifs
    · exact hunknown 'x' _ (by decide)
    · exact hunknown 'u' _ (by decide)
    · exact hunknown 'U' _ (by decide)

theorem readQuoted_quote (s rest : Text) :
    readQuoted (s.flatMap (escapeRune P) ++ '"' :: rest) =
      if s.all (isLegible P) then some (s, rest) else none := by
  induction s with
  | nil =>
    rw [List.flatMap_nil, List.nil_append, readQuoted.eq_def]
    simp
  | cons c s ih =>
    rw [List.flatMap_cons, List.append_assoc, List.all_cons]
    cases hc : isLegible P c with
    | false => rw [readQuoted_illegible P hc, Bool.false_and, if_neg Bool.false_ne_true]
    | true =>
      rw [readQuoted_legible P hc, ih, Bool.true_and]
      split_ifs <;> rfl

theorem lineFeed_notMem_escapeRune (c : Char) : '\n' ∉ escapeRune P c := by
  have hhex (n v : ℕ) : '\n' ∉ hexDigits n v := by
    induction n generalizing v with
    | zero => simp [hexDigits]
    | succ n ih =>
      have hdigit : ∀ d < 16, '\n' ≠ Nat.digitChar d := by decide
      simp [hexDigits, ih, hdigit (v % 16) (Nat.mod_lt v (by omega))]
  have hcontrol : ∀ e ∈ controlEscapes, '\n' ≠ e.2 := by decide
  unfold escapeRune
  split
  · next h => rcases h with rfl | rfl <;> decide
  · split
    · next hp =>
      intro hm
      rw [← List.mem_singleton.mp hm, P.lineFeed] at hp
      cases hp
    · split
      · next e he => simpa using hcontrol _ (PyDict.mem_of_lookup he)
      · split_ifs
        · simpa using hhex 2 c.toNat
        · simpa using hhex 4 c.toNat
        · simpa using hhex 8 c.toNat

/-! Labels. -/

def ReadableLabel (l : String × Text) : Prop := isName isLabelChar l.1.toList = true

instance (l : String × Text) : Decidable (ReadableLabel l) := inferInstanceAs (Decidable (_ = _))

theorem readLabel_renderLabel {l : String × Text} (h : ReadableLabel l) (rest : Text) :
    readLabel (renderLabel P l ++ rest) =
      if l.2.all (isLegible P) then some (l, rest) else none := by
  have htext : renderLabel P l ++ rest = l.1.toList ++ '=' :: ("\"".toList ++
      (l.2.flatMap (escapeRune P) ++ '"' :: rest)) := by
    simp [renderLabel, quote]
  have hname : readName isLabelChar (l.1.toList ++ '=' :: ("\"".toList ++
      (l.2.flatMap (escapeRune P) ++ '"' :: rest))) = _ := readName_append h (by decide) _
  have hstrip : stripPrefix "=\"".toList ('=' :: ("\"".toList ++
      (l.2.flatMap (escapeRune P) ++ '"' :: rest))) = _ := stripPrefix_append "=\"".toList _
  rw [htext, readLabel, hname]
  simp only [Option.bind_eq_bind, Option.bind_some, hstrip, readQuoted_quote]
  split_ifs with hl
  · simp [String.ofList_toList]
  · rfl

theorem renderLabels_singleton (l : String × Text) : renderLabels P [l] = renderLabel P l := by
  simp [renderLabels, join]

theorem renderLabels_cons (l l' : String × Text) (ls : List (String × Text)) :
    renderLabels P (l :: l' :: ls) = renderLabel P l ++ ',' :: renderLabels P (l' :: ls) := by
  simp [renderLabels, join, List.intercalate_cons_cons]

/-- The labels are read back if every value is legible; otherwise the reader stops. -/
theorem readLabels_renderLabels {ls : List (String × Text)} (hne : ls ≠ [])
    (h : ∀ l ∈ ls, ReadableLabel l) (rest : Text) {n : ℕ} (hn : ls.length ≤ n) :
    readLabels n (renderLabels P ls ++ '}' :: rest) =
      if ls.all fun l => l.2.all (isLegible P) then some (ls, rest) else none := by
  induction ls generalizing n with
  | nil => exact absurd rfl hne
  | cons l ls ih =>
    cases n with
    | zero => cases hn
    | succ n =>
      have hl := h l List.mem_cons_self
      cases ls with
      | nil =>
        rw [renderLabels_singleton, readLabels, readLabel_renderLabel P hl]
        by_cases hv : l.2.all (isLegible P) = true
        · simp [hv]
        · simp [hv]
      | cons l' ls =>
        rw [renderLabels_cons, List.append_assoc, List.cons_append, readLabels,
          readLabel_renderLabel P hl, List.all_cons]
        have hrest := ih (List.cons_ne_nil l' ls) (fun x hx => h x (List.mem_cons_of_mem _ hx))
          (Nat.le_of_succ_le_succ hn)
        by_cases hv : l.2.all (isLegible P) = true
        · simp only [hv, if_true, Option.bind_eq_bind, Option.bind_some, hrest, Bool.true_and]
          split_ifs <;> rfl
        · simp only [hv, Bool.false_eq_true, if_false, Option.bind_eq_bind, Option.bind_none,
            Bool.false_and]

theorem length_le_renderLabels {ls : List (String × Text)} (h : ∀ l ∈ ls, ReadableLabel l) :
    ls.length ≤ (renderLabels P ls).length := by
  induction ls with
  | nil => simp
  | cons l ls ih =>
    obtain ⟨c, cs, hname, -⟩ := head_of_isName (h l List.mem_cons_self)
    cases ls with
    | nil => simp [renderLabels_singleton, renderLabel, hname]
    | cons l' ls =>
      have := ih fun x hx => h x (List.mem_cons_of_mem _ hx)
      rw [renderLabels_cons]
      simp only [List.length_append, List.length_cons] at this ⊢
      omega

theorem readLabelSet_renderLabels {ls : List (String × Text)} (h : ∀ l ∈ ls, ReadableLabel l)
    (rest : Text) :
    readLabelSet (renderLabels P ls ++ '}' :: rest) =
      if ls.all fun l => l.2.all (isLegible P) then some (ls, rest) else none := by
  cases ls with
  | nil => rfl
  | cons l ls =>
    have hread := readLabels_renderLabels P (List.cons_ne_nil l ls) h rest
      (n := (renderLabels P (l :: ls) ++ '}' :: rest).length)
      ((length_le_renderLabels P h).trans (by simp))
    -- the text begins with the first name, not with the closing brace
    obtain ⟨c, cs, hname, hok⟩ := head_of_isName (h l List.mem_cons_self)
    have hhead : ∃ t, renderLabels P (l :: ls) ++ '}' :: rest = c :: t := by
      cases ls with
      | nil => exact ⟨_, by rw [renderLabels_singleton, renderLabel, hname]; rfl⟩
      | cons l' ls => exact ⟨_, by rw [renderLabels_cons, renderLabel, hname]; rfl⟩
    have hbrace : c ≠ '}' := by
      rintro rfl
      exact absurd hok (by decide)
    obtain ⟨t, ht⟩ := hhead
    rw [← hread, ht, readLabelSet.eq_def]
    split
    · next r heq => exact absurd (List.cons.inj heq).1 hbrace
    · rfl

/-! Lines. -/

/-- What `Render` is given: valid names, help texts of one line, and small integers. -/
structure WellFormed (f : MetricFamily ℤ) : Prop where
  name : isName isMetricChar f.name.toList = true
  help : '\n' ∉ f.help.toList
  labels : ∀ s ∈ f.samples, ∀ l ∈ s.labels, ReadableLabel l
  values : ∀ s ∈ f.samples, s.value.natAbs < 1000

def isLegibleSample (s : Sample ℤ) : Bool := s.labels.all fun l => l.2.all (isLegible P)

theorem readLine_helpLine {f : MetricFamily ℤ} (h : WellFormed f) :
    readLine (helpLine f) = (readHelp f.help.toList).map (Line.help f.name.toList) := by
  have hname : readName isMetricChar (f.name.toList ++ ' ' :: f.help.toList) = _ :=
    readName_append h.name (by decide) _
  have hline : readLine (helpLine f) = readHelpLine (f.name.toList ++ ' ' :: f.help.toList) :=
    readLine_help _
  rw [hline, readHelpLine, hname]
  simp only [Option.bind_eq_bind, Option.bind_some, stripPrefix_singleton]
  cases readHelp f.help.toList <;> rfl

theorem readLine_typeLine {f : MetricFamily ℤ} (h : WellFormed f) :
    readLine (typeLine f) = some (.type f.name.toList) := by
  have hname : readName isMetricChar (f.name.toList ++ ' ' :: "gauge".toList) = _ :=
    readName_append h.name (by decide) _
  have hline : readLine (typeLine f) = readTypeLine (f.name.toList ++ " gauge".toList) :=
    readLine_type _
  rw [hline, show " gauge".toList = ' ' :: "gauge".toList from rfl, readTypeLine, hname]
  simp only [Option.bind_eq_bind, Option.bind_some, stripPrefix_singleton, if_true]
  rfl

theorem readLine_sampleLine {name : String} {s : Sample ℤ}
    (hname : isName isMetricChar name.toList = true) (hlabels : ∀ l ∈ s.labels, ReadableLabel l) :
    readLine (sampleLine P name s) =
      if isLegibleSample P s then some (.sample name.toList s) else none := by
  obtain ⟨c, cs, hcs, hok⟩ := head_of_isName hname
  have hhash : c ≠ '#' := by
    rintro rfl
    exact absurd hok (by decide)
  have hline : readLine (sampleLine P name s) = readSampleLine (sampleLine P name s) := by
    rw [sampleLine, hcs]
    exact readLine_sample hhash _
  have hread : readName isMetricChar (sampleLine P name s) = _ :=
    readName_append hname (by decide) _
  rw [hline, readSampleLine, hread]
  simp only [Option.bind_eq_bind, Option.bind_some, stripPrefix_singleton, readLabelSet_renderLabels P hlabels]
  unfold isLegibleSample
  split_ifs with hl
  · simp only [Option.bind_some, stripPrefix_singleton, formatG, readValue_ofInt]
    rfl
  · rfl

/-! The whole text. -/

/-- What a reader makes of the lines of a family. -/
def readFamily (f : MetricFamily ℤ) : Option (MetricFamily ℤ) :=
  (readHelp f.help.toList).bind fun help =>
    if f.samples.all (isLegibleSample P) then some { f with help := String.ofList help } else none

theorem foldlM_samples {g : MetricFamily ℤ} (hname : isName isMetricChar g.name.toList = true)
    {samples : List (Sample ℤ)} (h : ∀ s ∈ samples, ∀ l ∈ s.labels, ReadableLabel l)
    (fs : List (MetricFamily ℤ)) :
    (samples.map (sampleLine P g.name)).foldlM addText (g :: fs) =
      if samples.all (isLegibleSample P) then
        some ({ g with samples := g.samples ++ samples } :: fs) else none := by
  induction samples generalizing g with
  | nil => simp
  | cons s samples ih =>
    rw [List.map_cons, List.foldlM_cons, addText, readLine_sampleLine P hname
      (h s List.mem_cons_self), List.all_cons]
    by_cases hs : isLegibleSample P s = true
    · have hadd : addLine (g :: fs) (.sample g.name.toList s) =
          some ({ g with samples := g.samples ++ [s] } :: fs) := by
        rw [addLine, if_pos String.ofList_toList.symm]
      rw [if_pos hs, Option.bind_some, hadd, hs, Bool.true_and]
      have hrest := ih (g := { g with samples := g.samples ++ [s] }) hname
        fun s hs => h s (List.mem_cons_of_mem _ hs)
      rw [List.append_assoc] at hrest
      exact hrest
    · rw [if_neg hs, Option.bind_none, Bool.eq_false_iff.mpr hs, Bool.false_and]
      rfl

theorem foldlM_renderFamily {f : MetricFamily ℤ} (h : WellFormed f) (fs : List (MetricFamily ℤ)) :
    (renderFamily P f).foldlM addText fs = (readFamily P f).map (· :: fs) := by
  unfold renderFamily readFamily
  rw [List.foldlM_cons, addText, readLine_helpLine h]
  cases readHelp f.help.toList with
  | none => rfl
  | some help =>
    have htype : addText (⟨f.name, String.ofList help, []⟩ :: fs) (typeLine f) =
        some (⟨f.name, String.ofList help, []⟩ :: fs) := by
      rw [addText, readLine_typeLine h, Option.bind_some, addLine,
        if_pos String.ofList_toList.symm]
    have hhelp : ((some help).map (Line.help f.name.toList)).bind (addLine fs) =
        some (⟨f.name, String.ofList help, []⟩ :: fs) := by
      rw [Option.map_some, Option.bind_some, addLine, String.ofList_toList]
    have hsamples := foldlM_samples P (g := ⟨f.name, String.ofList help, []⟩) h.name h.labels fs
    rw [hhelp]
    simp only [Option.bind_eq_bind, Option.bind_some, List.foldlM_cons, htype, hsamples]
    split_ifs <;> rfl

theorem foldlM_render {families : List (MetricFamily ℤ)} (h : ∀ f ∈ families, WellFormed f)
    (fs : List (MetricFamily ℤ)) :
    (families.flatMap (renderFamily P)).foldlM addText fs =
      (families.mapM (readFamily P)).map fun l => l.reverse ++ fs := by
  induction families generalizing fs with
  | nil => rfl
  | cons f families ih =>
    rw [List.flatMap_cons, List.foldlM_append, foldlM_renderFamily P (h f List.mem_cons_self),
      List.mapM_cons]
    cases readFamily P f with
    | none => rfl
    | some g =>
      have hrest := ih (fun f hf => h f (List.mem_cons_of_mem _ hf)) (g :: fs)
      simp only [Option.map_some, Option.bind_eq_bind, Option.bind_some, hrest]
      cases families.mapM (readFamily P) <;> simp

theorem lineFeed_notMem_renderFamily {f : MetricFamily ℤ} (h : WellFormed f) :
    ∀ l ∈ renderFamily P f, '\n' ∉ l := by
  have hname : '\n' ∉ f.name.toList := lineFeed_notMem_of_isName h.name (by decide)
  have hlabel (l : String × Text) (hl : ReadableLabel l) : '\n' ∉ renderLabel P l := by
    have hn : '\n' ∉ l.1.toList := lineFeed_notMem_of_isName hl (by decide)
    simp [renderLabel, quote, hn, lineFeed_notMem_escapeRune]
  have hlabels (ls : List (String × Text)) (hls : ∀ l ∈ ls, ReadableLabel l) :
      '\n' ∉ renderLabels P ls := by
    induction ls with
    | nil => simp [renderLabels, join]
    | cons l ls ih =>
      cases ls with
      | nil => simpa [renderLabels_singleton] using hlabel l (hls l List.mem_cons_self)
      | cons l' ls =>
        rw [renderLabels_cons]
        simp [hlabel l (hls l List.mem_cons_self), ih fun x hx => hls x (List.mem_cons_of_mem _ hx)]
  have hvalue (z : ℤ) : '\n' ∉ formatG z := by
    intro hm
    rcases mem_ofInt hm with hd | hd <;> exact absurd hd (by decide)
  intro l hl
  rcases List.mem_cons.mp hl with rfl | hl
  · have hstart : '\n' ∉ "# HELP ".toList := by decide
    intro hm
    rcases List.mem_append.mp hm with hm | hm
    · exact hstart hm
    · simp [hname, h.help] at hm
  · rcases List.mem_cons.mp hl with rfl | hl
    · have hstart : '\n' ∉ "# TYPE ".toList := by decide
      have hend : '\n' ∉ " gauge".toList := by decide
      intro hm
      rcases List.mem_append.mp hm with hm | hm
      · exact hstart hm
      · exact (List.mem_append.mp hm).elim hname hend
    · obtain ⟨s, hs, rfl⟩ := List.mem_map.mp hl
      simp [sampleLine, hname, hlabels s.labels (h.labels s hs), hvalue]

theorem parse_render {families : List (MetricFamily ℤ)} (h : ∀ f ∈ families, WellFormed f) :
    parse (render P families) = families.mapM (readFamily P) := by
  have hlines : lines (render P families) = some (families.flatMap (renderFamily P)) := by
    refine lines_flatMap fun l hl => ?_
    obtain ⟨f, hf, hl⟩ := List.mem_flatMap.mp hl
    exact lineFeed_notMem_renderFamily P (h f hf) l hl
  rw [parse, hlines, Option.bind_some, foldlM_render P h, Option.map_map]
  cases families.mapM (readFamily P) <;> simp

/-- A family is read back if every label value is legible and the help text is plain. -/
theorem readFamily_eq_self (f : MetricFamily ℤ) :
    readFamily P f = some f ↔
      (∀ s ∈ f.samples, isLegibleSample P s = true) ∧ IsPlainHelp f.help.toList := by
  rw [← readHelp_eq_self, ← List.all_eq_true]
  unfold readFamily
  cases hh : readHelp f.help.toList with
  | none => simp
  | some help =>
    rw [Option.bind_some]
    split_ifs with hs
    · have heq : ({ f with help := String.ofList help } : MetricFamily ℤ) = f ↔
          help = f.help.toList := by
        constructor
        · intro he
          rw [← he, String.toList_ofList]
        · rintro rfl
          rw [String.ofList_toList]
      simp [heq, hs]
    · simp [hs]

theorem mapM_eq_self {α : Type} {f : α → Option α} (l : List α) :
    l.mapM f = some l ↔ ∀ a ∈ l, f a = some a := by
  induction l with
  | nil => simp
  | cons a l ih =>
    rw [List.mapM_cons, List.forall_mem_cons, ← ih]
    cases hf : f a with
    | none => simp
    | some b =>
      cases hm : l.mapM f with
      | none => simp
      | some m => simp

end

/-- A family that `Render` may be given. -/
structure ValidFamily where
  family : MetricFamily ℤ
  wellFormed : WellFormed family

/-- What is rendered is read back exactly when every character of a label value is printable, a
quote, a backslash or a line feed, and no help text has a backslash or begins with a blank. -/
theorem parse_render_iff (P : Printable) (families : List ValidFamily) :
    parse (render P (families.map ValidFamily.family)) =
        some (families.map ValidFamily.family) ↔
      ∀ f ∈ families, IsPlainHelp f.family.help.toList ∧
        ∀ s ∈ f.family.samples, ∀ l ∈ s.labels, ∀ c ∈ l.2,
          c = '"' ∨ c = '\\' ∨ c = '\n' ∨ P.isPrint c = true := by
  have hwell : ∀ f ∈ families.map ValidFamily.family, WellFormed f := by
    intro f hf
    obtain ⟨v, -, rfl⟩ := List.mem_map.mp hf
    exact v.wellFormed
  rw [parse_render P hwell, mapM_eq_self, List.forall_mem_map]
  refine forall_congr' fun f => forall_congr' fun _ => ?_
  rw [readFamily_eq_self, and_comm]
  simp [isLegibleSample, isLegible, or_assoc]

/-- `strconv.IsPrint` on ASCII. -/
def asciiPrintable : Printable where
  isPrint c := 0x20 ≤ c.toNat && c.toNat < 0x7f
  lineFeed := by decide

/-- The power state of a node whose name has a tab. -/
def tabbedName : ValidFamily where
  family := ⟨"ironic_node_power_state", "Current power state",
    [⟨[("node_name", "bay\t3".toList), ("power_state", "power on".toList)], 1⟩]⟩
  wellFormed := ⟨by decide, by decide, by decide, by decide⟩

/-- The tab is written as an escape that the text format does not have. -/
theorem tab_unreadable :
    parse (render asciiPrintable [tabbedName.family]) ≠ some [tabbedName.family] := by
  rw [parse_render asciiPrintable (by simpa using tabbedName.wellFormed), Ne, mapM_eq_self]
  intro h
  have hread := h tabbedName.family List.mem_cons_self
  rw [readFamily_eq_self] at hread
  exact absurd hread.1 (by decide)

end Understack.Exporter
