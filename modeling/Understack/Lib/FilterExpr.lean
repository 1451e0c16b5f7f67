import Mathlib.Data.List.Basic
import Understack.Lib.PyText

/-! Boolean filter expressions over comparisons: `and` binds tighter than `or`, and `or` tighter
than `? :`. The syntax trees have one type for each level of precedence. A text is read by a
scanner over its characters and a stack of the groups that are open; what joining a parenthesised
guard to the front of a text does to its tree is `graft`. -/
namespace FilterExpr
open PyText

inductive Cmp where
  | eq | ne | lt | le | gt | ge
  deriving DecidableEq, Repr

inductive Operand where
  | word (w : Text)
  | quoted (t : Text)
  deriving DecidableEq

mutual

inductive Factor where
  | compare (c : Cmp) (a b : Operand)
  | paren (e : Expr)
  | not (f : Factor)

inductive Conj where
  | one (f : Factor)
  | and (f : Factor) (c : Conj)

inductive Disj where
  | one (c : Conj)
  | or (c : Conj) (d : Disj)

inductive Expr where
  | one (d : Disj)
  | ite (d : Disj) (a b : Expr)

end

section Evaluation

variable (atom : Cmp → Operand → Operand → Option Bool)

mutual

/-- The value of an expression, none where a comparison that is evaluated has none. Both operands
of `and` and `or` are evaluated, and one branch of `? :`. -/
def Factor.eval : Factor → Option Bool
  | .compare c a b => atom c a b
  | .paren e => e.eval
  | .not f => f.eval.map (!·)

def Conj.eval : Conj → Option Bool
  | .one f => f.eval
  | .and f c => do
    let x ← f.eval
    let y ← c.eval
    some (x && y)

def Disj.eval : Disj → Option Bool
  | .one c => c.eval
  | .or c d => do
    let x ← c.eval
    let y ← d.eval
    some (x || y)

def Expr.eval : Expr → Option Bool
  | .one d => d.eval
  | .ite d a b => do
    let x ← d.eval
    if x then a.eval else b.eval

end

/-- The value of an expression whose leading conjunction has a further operand in front of it. -/
def Disj.evalGuarded (g : Option Bool) : Disj → Option Bool
  | .one c => do
    let x ← g
    let y ← c.eval atom
    some (x && y)
  | .or c d => do
    let x ← g
    let y ← c.eval atom
    let z ← d.eval atom
    some (x && y || z)

def Expr.evalGuarded (g : Option Bool) : Expr → Option Bool
  | .one d => d.evalGuarded atom g
  | .ite d a b => do
    let x ← d.evalGuarded atom g
    if x then a.eval atom else b.eval atom

end Evaluation

/-- The expression read from a text that `guard and` was put in front of. -/
def Disj.graft (g : Factor) : Disj → Disj
  | .one c => .one (.and g c)
  | .or c d => .or (.and g c) d

def Expr.graft (g : Factor) : Expr → Expr
  | .one d => .one (d.graft g)
  | .ite d a b => .ite (d.graft g) a b

theorem eval_graft (atom : Cmp → Operand → Operand → Option Bool) (g : Factor) (e : Expr) :
    (e.graft g).eval atom = e.evalGuarded atom (g.eval atom) := by
  have hdisj (d : Disj) : (d.graft g).eval atom = d.evalGuarded atom (g.eval atom) := by
    cases d with
    | one c => simp only [Disj.graft, Disj.eval, Conj.eval, Disj.evalGuarded]
    | or c d =>
      cases hg : g.eval atom with
      | none => simp [Disj.graft, Disj.eval, Conj.eval, Disj.evalGuarded, hg]
      | some x => simp [Disj.graft, Disj.eval, Conj.eval, Disj.evalGuarded, hg, Option.bind_assoc]
  cases e with
  | one d => simp only [Expr.graft, Expr.eval, Expr.evalGuarded, hdisj]
  | ite d a b => simp only [Expr.graft, Expr.eval, Expr.evalGuarded, hdisj]

/-- A guard in front of a guarded expression. -/
theorem evalGuarded_graft (atom : Cmp → Operand → Operand → Option Bool) (x : Option Bool)
    (g : Factor) (e : Expr) :
    (e.graft g).evalGuarded atom x =
      e.evalGuarded atom (do let a ← x; let b ← g.eval atom; some (a && b)) := by
  have hdisj (d : Disj) : (d.graft g).evalGuarded atom x =
      d.evalGuarded atom (do let a ← x; let b ← g.eval atom; some (a && b)) := by
    cases x with
    | none => cases d <;> simp [Disj.graft, Disj.evalGuarded]
    | some a =>
      cases hg : g.eval atom with
      | none => cases d <;> simp [Disj.graft, Disj.evalGuarded, Conj.eval, hg]
      | some b =>
        cases d <;>
          simp [Disj.graft, Disj.evalGuarded, Conj.eval, hg, Option.bind_assoc, Bool.and_assoc]
  cases e with
  | one d => simp only [Expr.graft, Expr.evalGuarded, hdisj]
  | ite d a b => simp only [Expr.graft, Expr.evalGuarded, hdisj]

/-- The leading conjunction, and what the expression comes to where that is false; none where there
is nothing else. -/
def Expr.alternative : Expr → Option (Conj × Expr)
  | .one (.one _) => none
  | .one (.or c d) => some (c, .one d)
  | .ite (.one c) _ b => some (c, b)
  | .ite (.or c d) a b => some (c, .ite d a b)

/-- The expression is true without its leading conjunction, which has some value. -/
def Expr.Bypassed (atom : Cmp → Operand → Operand → Option Bool) (e : Expr) : Prop :=
  ∃ c alt, e.alternative = some (c, alt) ∧ (c.eval atom).isSome ∧ alt.eval atom = some true

theorem Expr.not_bypassed {atom : Cmp → Operand → Operand → Option Bool} {e : Expr}
    (h : e.alternative = none) : ¬ e.Bypassed atom := by
  rintro ⟨c, alt, halt, -⟩
  rw [h] at halt
  cases halt

theorem evalGuarded_none (atom : Cmp → Operand → Operand → Option Bool) (e : Expr) :
    e.evalGuarded atom none = none := by
  cases e with
  | one d => cases d <;> rfl
  | ite d a b => cases d <;> rfl

/-- A true guard changes nothing. -/
theorem evalGuarded_true (atom : Cmp → Operand → Operand → Option Bool) (e : Expr) :
    e.evalGuarded atom (some true) = e.eval atom := by
  have hdisj (d : Disj) : d.evalGuarded atom (some true) = d.eval atom := by
    cases d with
    | one c => cases hc : c.eval atom <;> simp [Disj.evalGuarded, Disj.eval, hc]
    | or c d => cases hc : c.eval atom <;> simp [Disj.evalGuarded, Disj.eval, hc]
  cases e with
  | one d => simp only [Expr.evalGuarded, Expr.eval, hdisj]
  | ite d a b => simp only [Expr.evalGuarded, Expr.eval, hdisj]

/-- A false guard takes the leading conjunction out, and nothing else. -/
theorem evalGuarded_false_iff (atom : Cmp → Operand → Operand → Option Bool) (e : Expr) :
    e.evalGuarded atom (some false) = some true ↔ e.Bypassed atom := by
  -- what the guarded expression comes to where its leading conjunction has a value
  have hiff {c : Conj} {alt : Expr} (halt : e.alternative = some (c, alt))
      (heval : e.evalGuarded atom (some false) = (c.eval atom).bind fun _ => alt.eval atom) :
      e.evalGuarded atom (some false) = some true ↔ e.Bypassed atom := by
    rw [heval, Expr.Bypassed, halt, Option.bind_eq_some_iff]
    constructor
    · rintro ⟨x, hx, htrue⟩
      exact ⟨c, alt, rfl, Option.isSome_of_mem hx, htrue⟩
    · rintro ⟨c', alt', heq, hx, htrue⟩
      cases heq
      obtain ⟨x, hx⟩ := Option.isSome_iff_exists.mp hx
      exact ⟨x, hx, htrue⟩
  rcases e with (c | ⟨c, d⟩) | ⟨c | ⟨c, d⟩, a, b⟩
  · refine iff_of_false ?_ (Expr.not_bypassed rfl)
    cases hc : c.eval atom <;> simp [Expr.evalGuarded, Disj.evalGuarded, hc]
  · refine hiff rfl ?_
    cases hc : c.eval atom <;> simp [Expr.evalGuarded, Disj.evalGuarded, Expr.eval, hc]
  · refine hiff rfl ?_
    cases hc : c.eval atom <;> simp [Expr.evalGuarded, Disj.evalGuarded, hc]
  · refine hiff rfl ?_
    cases hc : c.eval atom <;> simp [Expr.evalGuarded, Disj.evalGuarded, Expr.eval, hc]

/-! Reading: characters to tokens, tokens to the items of the open groups, and the items of one
group to an expression. -/

/-- What stands between two parentheses, with inner groups already read. -/
inductive Item where
  | operand (o : Operand)
  | compare (c : Cmp)
  | and
  | or
  | not
  | ask
  | alt
  | group (e : Expr)

inductive Token where
  | opening
  | closing
  | item (i : Item)

def Item.isAnd : Item → Bool
  | .and => true
  | _ => false

def Item.isOr : Item → Bool
  | .or => true
  | _ => false

def factor : List Item → Option Factor
  | .not :: r => (factor r).map .not
  | [.group e] => some (.paren e)
  | [.operand a, .compare c, .operand b] => some (.compare c a b)
  | _ => none

section Chains

variable {α β : Type} (sep : Item → Bool) (part : List Item → Option α) (one : α → β)
  (more : α → β → β)

/-- Parts between separators; `acc` holds the items of the current part, the last one first. -/
def chain : List Item → List Item → Option β
  | acc, [] => (part acc.reverse).map one
  | acc, i :: r =>
    if sep i then do
      let a ← part acc.reverse
      let b ← chain [] r
      some (more a b)
    else chain (i :: acc) r

end Chains

def conjunction (items : List Item) : Option Conj := chain Item.isAnd factor .one .and [] items

def disjunction (items : List Item) : Option Disj := chain Item.isOr conjunction .one .or [] items

/-- The expressions that a list of items consists of when read from its end: a condition takes
the two that follow it as its branches, and a colon leaves what it ends to a condition before. -/
def branches : List Item → List Item → Option (List Expr)
  | acc, [] => do
    let d ← disjunction acc.reverse
    some [.one d]
  | acc, .ask :: r => do
    let d ← disjunction acc.reverse
    match ← branches [] r with
    | a :: b :: rest => some (.ite d a b :: rest)
    | _ => none
  | acc, .alt :: r => do
    let d ← disjunction acc.reverse
    let rest ← branches [] r
    some (.one d :: rest)
  | acc, i :: r => branches (i :: acc) r

def expression (items : List Item) : Option Expr :=
  match branches [] items with
  | some [e] => some e
  | _ => none

/-- The open groups, the innermost one first, each with its last item first. -/
abbrev Frames := List (List Item)

def parseStep : Frames → Token → Option Frames
  | frames, .opening => some ([] :: frames)
  | cur :: top :: frames, .closing =>
    (expression cur.reverse).map fun e => (.group e :: top) :: frames
  | cur :: frames, .item i => some ((i :: cur) :: frames)
  | _, _ => none

def parseTokens (ts : List Token) : Option Expr :=
  match ts.foldlM parseStep [[]] with
  | some [cur] => expression cur.reverse
  | _ => none

/-- What the scanner is in the middle of, texts with the last character first. -/
inductive Mode where
  | idle
  | word (w : Text)
  | quote (q : Char) (t : Text)
  | op (c : Char)

structure Scanner where
  tokens : List Token
  mode : Mode

def isWordChar (c : Char) : Bool := c.isAlphanum || c == '_' || c == '.'

def wordToken (w : Text) : Token :=
  if w.reverse = "and".toList then .item .and
  else if w.reverse = "or".toList then .item .or
  else if w.reverse = "not".toList then .item .not
  else .item (.operand (.word w.reverse))

def idleStep (ts : List Token) (c : Char) : Option Scanner :=
  if isWordChar c then some ⟨ts, .word [c]⟩
  else if c = '\x22' ∨ c = '\x27' then some ⟨ts, .quote c []⟩
  else if c = '(' then some ⟨.opening :: ts, .idle⟩
  else if c = ')' then some ⟨.closing :: ts, .idle⟩
  else if c = '?' then some ⟨.item .ask :: ts, .idle⟩
  else if c = ':' then some ⟨.item .alt :: ts, .idle⟩
  else if c = '=' ∨ c = '!' ∨ c = '<' ∨ c = '>' then some ⟨ts, .op c⟩
  else if isSpace c then some ⟨ts, .idle⟩
  else none

def twoCharOp (o c : Char) : Option Cmp :=
  if o = '<' ∧ c = '>' then some .ne
  else if c ≠ '=' then none
  else if o = '=' then some .eq
  else if o = '!' then some .ne
  else if o = '<' then some .le
  else if o = '>' then some .ge
  else none

def oneCharOp (o : Char) : Option Item :=
  if o = '<' then some (.compare .lt)
  else if o = '>' then some (.compare .gt)
  else if o = '!' then some .not
  else none

def scanStep (s : Scanner) (c : Char) : Option Scanner :=
  match s.mode with
  | .idle => idleStep s.tokens c
  | .word w =>
    if isWordChar c then some ⟨s.tokens, .word (c :: w)⟩
    else idleStep (wordToken w :: s.tokens) c
  | .quote q t =>
    if c = q then some ⟨.item (.operand (.quoted t.reverse)) :: s.tokens, .idle⟩
    else some ⟨s.tokens, .quote q (c :: t)⟩
  | .op o =>
    match twoCharOp o c with
    | some p => some ⟨.item (.compare p) :: s.tokens, .idle⟩
    | none => (oneCharOp o).bind fun i => idleStep (.item i :: s.tokens) c

def Scanner.finish (s : Scanner) : Option (List Token) :=
  match s.mode with
  | .idle => some s.tokens.reverse
  | .word w => some (wordToken w :: s.tokens).reverse
  | .quote _ _ => none
  | .op o => (oneCharOp o).map fun i => (.item i :: s.tokens).reverse

def scan (s : Text) : Option (List Token) :=
  (s.foldlM scanStep ⟨[], .idle⟩).bind Scanner.finish

def parse (s : Text) : Option Expr := (scan s).bind parseTokens

/-! A group and an `and` in front of the items join the leading conjunction, whatever follows. -/

theorem conjunction_guard (g : Expr) (items : List Item) :
    conjunction (.group g :: .and :: items) = (conjunction items).map (.and (.paren g)) := by
  cases h : conjunction items with
  | none =>
    rw [conjunction] at h
    simp [conjunction, chain, Item.isAnd, factor, h]
  | some c =>
    rw [conjunction] at h
    simp [conjunction, chain, Item.isAnd, factor, h]

theorem chain_guard (g : Expr) (acc items : List Item) :
    chain Item.isOr conjunction .one .or (acc ++ [.and, .group g]) items =
      (chain Item.isOr conjunction .one .or acc items).map (Disj.graft (.paren g)) := by
  have hpart (acc : List Item) : conjunction (acc ++ [Item.and, Item.group g]).reverse =
      (conjunction acc.reverse).map (.and (.paren g)) := by
    rw [← conjunction_guard]
    simp
  induction items generalizing acc with
  | nil =>
    simp only [chain, hpart, Option.map_map]
    rfl
  | cons i items ih =>
    cases hi : i.isOr with
    | true =>
      simp only [chain, hi, if_true, hpart]
      cases conjunction acc.reverse with
      | none => rfl
      | some c =>
        cases chain Item.isOr conjunction Disj.one Disj.or [] items with
        | none => rfl
        | some d => rfl
    | false =>
      simp only [chain, hi]
      exact ih (i :: acc)

theorem disjunction_guard (g : Expr) (acc : List Item) :
    disjunction (acc ++ [Item.and, Item.group g]).reverse =
      (disjunction acc.reverse).map (Disj.graft (.paren g)) := by
  have h := chain_guard g [] acc.reverse
  simpa [disjunction, chain, Item.isOr] using h

theorem branches_guard (g : Expr) (acc items : List Item) :
    branches (acc ++ [.and, .group g]) items =
      (branches acc items).map (List.modifyHead (Expr.graft (.paren g))) := by
  induction items generalizing acc with
  | nil =>
    simp only [branches, disjunction_guard]
    cases disjunction acc.reverse with
    | none => rfl
    | some d => rfl
  | cons i items ih =>
    cases i with
    | ask =>
      simp only [branches, disjunction_guard]
      cases disjunction acc.reverse with
      | none => rfl
      | some d =>
        cases branches [] items with
        | none => rfl
        | some rest =>
          rcases rest with _ | ⟨a, _ | ⟨b, rest⟩⟩
          · rfl
          · rfl
          · rfl
    | alt =>
      simp only [branches, disjunction_guard]
      cases disjunction acc.reverse with
      | none => rfl
      | some d =>
        cases branches [] items with
        | none => rfl
        | some rest => rfl
    | operand o => exact ih (.operand o :: acc)
    | compare c => exact ih (.compare c :: acc)
    | and => exact ih (.and :: acc)
    | or => exact ih (.or :: acc)
    | not => exact ih (.not :: acc)
    | group e => exact ih (.group e :: acc)

theorem expression_guard (g : Expr) (items : List Item) :
    expression (.group g :: .and :: items) = (expression items).map (Expr.graft (.paren g)) := by
  have h : branches [] (.group g :: .and :: items) =
      (branches [] items).map (List.modifyHead (Expr.graft (.paren g))) :=
    branches_guard g [] items
  rw [expression, h, expression]
  cases branches [] items with
  | none => rfl
  | some es =>
    rcases es with _ | ⟨e, _ | ⟨e', es⟩⟩
    · rfl
    · rfl
    · rfl

/-- Items put under everything that the outermost group holds. -/
def onBottom (under : List Item) : Frames → Frames
  | [] => []
  | [cur] => [cur ++ under]
  | cur :: top :: frames => cur :: onBottom under (top :: frames)

theorem parseStep_onBottom (under : List Item) (frames : Frames) (t : Token) (h : frames ≠ []) :
    parseStep (onBottom under frames) t = (parseStep frames t).map (onBottom under) := by
  obtain ⟨cur, frames, rfl⟩ := List.exists_cons_of_ne_nil h
  cases t with
  | opening => cases frames <;> rfl
  | item i => cases frames <;> rfl
  | closing =>
    rcases frames with _ | ⟨top, _ | ⟨top', frames⟩⟩
    · rfl
    · simp only [onBottom, parseStep, Option.map_map]
      rfl
    · simp only [onBottom, parseStep, Option.map_map]
      rfl

theorem parseStep_ne_nil {frames frames' : Frames} {t : Token}
    (h : parseStep frames t = some frames') : frames' ≠ [] := by
  unfold parseStep at h
  split at h
  · cases h
    simp
  · obtain ⟨e, -, rfl⟩ := Option.map_eq_some_iff.mp h
    simp
  · cases h
    simp
  · cases h

theorem parseAll_onBottom (under : List Item) (ts : List Token) (frames : Frames)
    (h : frames ≠ []) :
    ts.foldlM parseStep (onBottom under frames) =
      (ts.foldlM parseStep frames).map (onBottom under) := by
  induction ts generalizing frames with
  | nil => rfl
  | cons t ts ih =>
    simp only [List.foldlM_cons, parseStep_onBottom under frames t h]
    cases hstep : parseStep frames t with
    | none => rfl
    | some frames' => exact ih frames' (parseStep_ne_nil hstep)

/-- The tokens of a parenthesised guard and an `and` leave one group and the `and` behind. -/
def IsGuard (g : Expr) (ts : List Token) : Prop :=
  ts.foldlM parseStep [[]] = some [[.and, .group g]]

theorem parseTokens_guard {g : Expr} {guard : List Token} (hguard : IsGuard g guard)
    (ts : List Token) :
    parseTokens (guard ++ ts) = (parseTokens ts).map (Expr.graft (.paren g)) := by
  have hrun : (guard ++ ts).foldlM parseStep [[]] =
      (ts.foldlM parseStep [[]]).map (onBottom [.and, .group g]) := by
    rw [List.foldlM_append, hguard]
    exact parseAll_onBottom [.and, .group g] ts [[]] (by simp)
  rw [parseTokens, hrun, parseTokens]
  cases ts.foldlM parseStep [[]] with
  | none => rfl
  | some frames =>
    rcases frames with _ | ⟨cur, _ | ⟨top, frames⟩⟩
    · rfl
    · have h := expression_guard g cur.reverse
      simpa [onBottom] using h
    · cases frames <;> rfl

/-! What was scanned before a text does not change how the text is scanned. -/

/-- The scanner with tokens from before. -/
def Scanner.after (s : Scanner) (ts : List Token) : Scanner := ⟨s.tokens ++ ts, s.mode⟩

theorem idleStep_after (ts before : List Token) (c : Char) :
    idleStep (ts ++ before) c = (idleStep ts c).map (Scanner.after · before) := by
  unfold idleStep
  split_ifs <;> rfl

theorem scanStep_after (s : Scanner) (before : List Token) (c : Char) :
    scanStep (s.after before) c = (scanStep s c).map (Scanner.after · before) := by
  obtain ⟨ts, mode⟩ := s
  cases mode with
  | idle => exact idleStep_after ts before c
  | word w =>
    simp only [scanStep, Scanner.after]
    split_ifs
    · rfl
    · exact idleStep_after (wordToken w :: ts) before c
  | quote q t =>
    simp only [scanStep, Scanner.after]
    split_ifs
    · rfl
    · rfl
  | op o =>
    simp only [scanStep, Scanner.after]
    cases twoCharOp o c with
    | some p => rfl
    | none =>
      cases oneCharOp o with
      | none => rfl
      | some i => exact idleStep_after (.item i :: ts) before c

theorem scanAll_after (text : Text) (s : Scanner) (before : List Token) :
    text.foldlM scanStep (s.after before) =
      (text.foldlM scanStep s).map (Scanner.after · before) := by
  induction text generalizing s with
  | nil => rfl
  | cons c text ih =>
    simp only [List.foldlM_cons, scanStep_after]
    cases scanStep s c with
    | none => rfl
    | some s' => exact ih s'

theorem finish_after (s : Scanner) (before : List Token) :
    (s.after before).finish = s.finish.map (before.reverse ++ ·) := by
  obtain ⟨ts, mode⟩ := s
  cases mode with
  | idle => simp [Scanner.after, Scanner.finish]
  | word w => simp [Scanner.after, Scanner.finish]
  | quote q t => rfl
  | op o => simp [Scanner.after, Scanner.finish, Function.comp_def]

theorem scan_append {front : Text} {before : List Token}
    (hfront : front.foldlM scanStep ⟨[], .idle⟩ = some ⟨before, .idle⟩) (text : Text) :
    scan (front ++ text) = (scan text).map (before.reverse ++ ·) := by
  have hrun : (front ++ text).foldlM scanStep ⟨[], .idle⟩ =
      (text.foldlM scanStep ⟨[], .idle⟩).map (Scanner.after · before) := by
    rw [List.foldlM_append, hfront]
    exact scanAll_after text ⟨[], .idle⟩ before
  rw [scan, hrun, scan]
  cases text.foldlM scanStep ⟨[], .idle⟩ with
  | none => rfl
  | some s => exact finish_after s before

/-- A text behind a parenthesised guard and an `and` is read as before but for its leading
conjunction, which the guard joins. -/
theorem parse_guard {front : Text} {before : List Token} {g : Expr}
    (hfront : front.foldlM scanStep ⟨[], .idle⟩ = some ⟨before, .idle⟩)
    (hguard : IsGuard g before.reverse) (text : Text) :
    parse (front ++ text) = (parse text).map (Expr.graft (.paren g)) := by
  rw [parse, scan_append hfront, parse]
  cases scan text with
  | none => rfl
  | some ts => exact parseTokens_guard hguard ts

end FilterExpr
