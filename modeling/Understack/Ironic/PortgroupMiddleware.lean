import Understack.Ironic.PortgroupName
import Understack.Lib.Json
import Understack.Lib.Runs

/-! `PortgroupNameValidationMiddleware` before Ironic: it looks at the requests that name a
portgroup and lets Ironic store what passes. -/
namespace Understack.Ironic.Portgroup
open PyText Json

inductive Method where
  | post
  | patch
  | other
  deriving DecidableEq, Repr

/-- A request with its body as `json.loads` reads it, none for a malformed one; `created` is the id
under which Ironic stores what a `POST` creates. -/
structure Request (F : Type) where
  method : Method
  pathInfo : Text
  body : Option (Value F)
  created : Text

/-- What the middleware does with a request. An exception that it does not catch becomes an
internal server error. -/
inductive Verdict where
  | forwarded
  | badRequest (message : Text)
  | raised
  deriving DecidableEq

def rstripSlash (path : Text) : Text := path.rdropWhile (· == '/')

/-- The portgroup of a path that `^/v1/portgroups/[^/]+$` matches. -/
def portgroupId (path : Text) : Option Text :=
  match (rstripSlash path).dropPrefix? "/v1/portgroups/".toList with
  | some id => if id ≠ [] ∧ '/' ∉ id then some id else none
  | none => none

section Checks

variable {F : Type} [FloatOps F]

/-- `not v` for what `get` returns. -/
def isFalsy : Option (Value F) → Bool
  | none => true
  | some .null => true
  | some (.bool b) => !b
  | some (.int z) => z == 0
  | some (.float x) => FloatOps.eqInt x 0
  | some (.str s) => s.isEmpty
  | some (.arr elems) => elems.isEmpty
  | some (.obj members) => members.isEmpty

/-- `validate_portgroup_name` on any JSON value; the pattern takes nothing but text. -/
def validateValue (v : Option (Value F)) : Verdict :=
  match v with
  | some (.str name) =>
    match validatePortgroupName (some name) with
    | (true, _) => .forwarded
    | (false, message) => .badRequest (message.getD [])
  | v => if isFalsy v then .badRequest ((validatePortgroupName none).2.getD []) else .raised

def validateCreate (body : Option (Value F)) : Verdict :=
  match body with
  | none => .forwarded
  | some (.obj members) => validateValue (members.lookup "name".toList)
  | some _ => .raised

/-- `op.get("path") == "/name"` with the operation's name. -/
def nameOperation (members : List (Text × Value F)) : Option Text :=
  match members.lookup "path".toList, members.lookup "op".toList with
  | some (.str path), some (.str op) => if path = "/name".toList then some op else none
  | _, _ => none

def setsName (op : Text) : Bool := op == "add".toList || op == "replace".toList

def validateOps : List (Value F) → Verdict
  | [] => .forwarded
  | .obj members :: ops =>
    match nameOperation members with
    | some op =>
      if setsName op then
        match validateValue (members.lookup "value".toList) with
        | .forwarded => validateOps ops
        | verdict => verdict
      else validateOps ops
    | none => validateOps ops
  | _ :: _ => .raised

/-- Iterating over an empty object or string finds no operation, over any other no mapping. -/
def validatePatch (body : Option (Value F)) : Verdict :=
  match body with
  | none => .forwarded
  | some (.arr ops) => validateOps ops
  | some (.obj members) => if members.isEmpty then .forwarded else .raised
  | some (.str s) => if s.isEmpty then .forwarded else .raised
  | some _ => .raised

/-- `__call__`. -/
def middleware (req : Request F) : Verdict :=
  if !isIn "/portgroups".toList req.pathInfo then .forwarded
  else if req.method = .post ∧ rstripSlash req.pathInfo = "/v1/portgroups".toList then
    validateCreate req.body
  else if req.method = .patch ∧ (portgroupId req.pathInfo).isSome then
    validatePatch req.body
  else .forwarded

/-! Ironic behind the middleware. -/

/-- The names of the portgroups by id. -/
abbrev Store := List (Text × Option Text)

def textOf : Option (Value F) → Option Text
  | some (.str s) => some s
  | _ => none

/-- What an operation of a patch does to the name: nothing, or the name after it. -/
def nameEffect : Value F → Option (Option Text)
  | .obj members =>
    match nameOperation members with
    | some op =>
      if setsName op then some (textOf (members.lookup "value".toList))
      else if op = "remove".toList then some none
      else none
    | none => none
  | _ => none

/-- The name after the last operation of the patch on it, if there is one. -/
def lastName (ops : List (Value F)) : Option (Option Text) :=
  ops.foldl (fun last op => (nameEffect op).or last) none

def Store.create (s : Store) (id : Text) (name : Option Text) : Store :=
  if id ∈ s.map Prod.fst then s else s ++ [(id, name)]

def Store.patch (s : Store) (id : Text) (ops : List (Value F)) : Store :=
  s.map fun e => if e.1 = id then (e.1, ops.foldl (fun name op => (nameEffect op).getD name) e.2)
    else e

def ironic (s : Store) (req : Request F) : Store :=
  match req.method with
  | .post =>
    if rstripSlash req.pathInfo = "/v1/portgroups".toList then
      match req.body with
      | some (.obj members) => s.create req.created (textOf (members.lookup "name".toList))
      | _ => s
    else s
  | .patch =>
    match portgroupId req.pathInfo, req.body with
    | some id, some (.arr ops) => s.patch id ops
    | _, _ => s
  | .other => s

/-- A request on its way through the middleware. -/
def step (s : Store) (req : Request F) : Store :=
  if middleware req = .forwarded then ironic s req else s

/-- The name is text, a node part, the separator and a number in the range. -/
def ValidName (name : Option Text) : Prop :=
  ∃ node digits, name = some (node ++ separator ++ digits) ∧ node ≠ [] ∧ digits ≠ [] ∧
    (∀ c ∈ digits, isDecimal c = true) ∧
    portChannelMin ≤ decimalValue digits ∧ decimalValue digits ≤ portChannelMax

def AllValid (s : Store) : Prop := ∀ e ∈ s, ValidName e.2

/-- The text does not end a line. -/
def NoFinalNewline (name : Text) : Prop := name.getLast? ≠ some '\n'

/-- What a forwarded request must not do: create a name that ends in a newline, or patch a stored
portgroup so that the last operation on the name removes it or sets one that ends in a newline. -/
def Keeps (s : Store) (req : Request F) : Prop :=
  middleware req = .forwarded →
    match req.method with
    | .post =>
      rstripSlash req.pathInfo = "/v1/portgroups".toList → req.created ∉ s.map Prod.fst →
        ∀ members name, req.body = some (.obj members) →
          members.lookup "name".toList = some (.str name) → NoFinalNewline name
    | .patch =>
      ∀ id ops, portgroupId req.pathInfo = some id → id ∈ s.map Prod.fst →
        req.body = some (.arr ops) →
          lastName ops ≠ some none ∧ ∀ name, lastName ops = some (some name) → NoFinalNewline name
    | .other => True

/-- Among the names that the check accepts, the valid ones are those without a final newline. -/
theorem validName_iff_of_accepted {name : Text}
    (h : (validatePortgroupName (some name)).1 = true) :
    ValidName (some name) ↔ NoFinalNewline name := by
  have hlast {node digits : Text} (hne : digits ≠ []) (hd : ∀ c ∈ digits, isDecimal c = true) :
      NoFinalNewline (node ++ separator ++ digits) := by
    rw [NoFinalNewline, List.getLast?_append_of_ne_nil _ hne]
    intro hnl
    exact absurd (hd _ (List.mem_of_getLast? hnl)) (by decide)
  constructor
  · rintro ⟨node, digits, hname, -, hne, hd, -, -⟩
    cases hname
    exact hlast hne hd
  · intro hline
    obtain ⟨text, node, digits, htext, hmatch, hnum, hmin, hmax⟩ :=
      validatePortgroupName_accepts h
    cases htext
    rw [hnum] at hmin hmax
    rcases hmatch.text with rfl | rfl
    · exact ⟨node, digits, rfl, hmatch.node_ne, hmatch.digits_ne, hmatch.decimal, hmin, hmax⟩
    · exact absurd (by simp) hline

theorem validateValue_forwarded {v : Option (Value F)} (h : validateValue v = .forwarded) :
    ∃ name, v = some (.str name) ∧ (validatePortgroupName (some name)).1 = true := by
  unfold validateValue at h
  split at h
  · next name =>
    split at h
    · next hname => exact ⟨name, rfl, by rw [hname]⟩
    · cases h
  · split_ifs at h

/-- Every name that the operations of a forwarded patch set has been accepted. -/
theorem validateOps_forwarded {ops : List (Value F)} (h : validateOps ops = .forwarded)
    {op : Value F} (hop : op ∈ ops) {name : Text} (he : nameEffect op = some (some name)) :
    (validatePortgroupName (some name)).1 = true := by
  induction ops with
  | nil => cases hop
  | cons o ops ih =>
    unfold validateOps at h
    split at h
    · next heq => cases heq
    · next members ops' heq =>
      cases heq
      have hrest : validateOps ops = .forwarded := by
        split at h
        · split_ifs at h
          · split at h
            · exact h
            · next hv => exact absurd h hv
          · exact h
        · exact h
      rcases List.mem_cons.mp hop with rfl | hop
      · simp only [nameEffect] at he
        split at he
        · next o ho =>
          simp only [ho] at h
          split_ifs at he h with hsets hremove
          · split at h
            · next hv =>
              obtain ⟨n, hn, hvalid⟩ := validateValue_forwarded hv
              rw [hn] at he
              cases he
              exact hvalid
            · next hv => exact absurd h hv
          · cases he
        · cases he
      · exact ih hrest hop
    · cases h

omit [FloatOps F] in
theorem lastName_append (ops : List (Value F)) (last : Option (Option Text)) :
    ops.foldl (fun last op => (nameEffect op).or last) last = (lastName ops).or last := by
  unfold lastName
  induction ops generalizing last with
  | nil => rfl
  | cons op ops ih =>
    rw [List.foldl_cons, List.foldl_cons, ih, ih ((nameEffect op).or none), Option.or_none,
      Option.or_assoc]

omit [FloatOps F] in
/-- The operations of a patch leave the name that the last one on it sets. -/
theorem foldl_nameEffect (ops : List (Value F)) (name : Option Text) :
    ops.foldl (fun name op => (nameEffect op).getD name) name = (lastName ops).getD name := by
  induction ops generalizing name with
  | nil => rfl
  | cons op ops ih =>
    have hcons : lastName (op :: ops) = (lastName ops).or (nameEffect op) := by
      rw [lastName, List.foldl_cons, lastName_append, Option.or_none]
    rw [List.foldl_cons, ih, hcons]
    cases lastName ops with
    | none => rfl
    | some r => rfl

omit [FloatOps F] in
theorem mem_of_lastName {ops : List (Value F)} {name : Option Text}
    (h : lastName ops = some name) : ∃ op ∈ ops, nameEffect op = some name := by
  induction ops with
  | nil => cases h
  | cons op ops ih =>
    rw [lastName, List.foldl_cons, lastName_append, Option.or_none] at h
    cases hl : lastName ops with
    | none =>
      rw [hl] at h
      exact ⟨op, List.mem_cons_self, h⟩
    | some r =>
      rw [hl] at h
      obtain ⟨o, ho, he⟩ := ih (hl.trans h)
      exact ⟨o, List.mem_cons_of_mem op ho, he⟩

theorem isIn_append (a sub b : Text) : isIn sub (a ++ (sub ++ b)) = true := by
  induction a with
  | nil =>
    cases h : sub ++ b with
    | nil => simp [isIn, (List.append_eq_nil_iff.mp h).1]
    | cons c r =>
      have hp : sub.isPrefixOf (c :: r) = true := by
        rw [List.isPrefixOf_iff_prefix, ← h]
        exact List.prefix_append sub b
      simp [isIn, hp]
  | cons c a ih =>
    rw [List.cons_append, isIn, ih, Bool.or_true]

theorem isIn_of_rstripSlash {path : Text} (rest : Text)
    (h : rstripSlash path = "/v1/portgroups".toList ++ rest) :
    isIn "/portgroups".toList path = true := by
  have hpath : path = rstripSlash path ++ path.rtakeWhile (· == '/') :=
    (List.rdropWhile_append_rtakeWhile).symm
  rw [hpath, h]
  exact isIn_append "/v1".toList "/portgroups".toList (rest ++ path.rtakeWhile (· == '/'))

theorem middleware_create {req : Request F} (hmethod : req.method = .post)
    (hpath : rstripSlash req.pathInfo = "/v1/portgroups".toList) :
    middleware req = validateCreate req.body := by
  have hin : isIn "/portgroups".toList req.pathInfo = true :=
    isIn_of_rstripSlash [] (by rw [hpath, List.append_nil])
  simp only [middleware, hin, hmethod, hpath, and_self, if_true]
  rfl

theorem middleware_patch {req : Request F} {id : Text} (hmethod : req.method = .patch)
    (hid : portgroupId req.pathInfo = some id) :
    middleware req = validatePatch req.body := by
  have hin : isIn "/portgroups".toList req.pathInfo = true := by
    have hread := hid
    unfold portgroupId at hread
    split at hread
    · next rest hrest =>
      obtain ⟨pre, hpre, hsplit⟩ := List.dropPrefix?_eq_some_iff.mp hrest
      obtain rfl : pre = "/v1/portgroups/".toList := by simpa using hsplit
      exact isIn_of_rstripSlash ('/' :: rest) hpre
    · cases hread
  have hnot : ¬(Method.patch = Method.post ∧
      rstripSlash req.pathInfo = "/v1/portgroups".toList) := by
    rintro ⟨h, -⟩
    cases h
  simp only [middleware, hin, hmethod, hid, Option.isSome_some, and_self, if_true, if_neg hnot]
  rfl

theorem allValid_create {s : Store} (hs : AllValid s) (id : Text) (name : Option Text) :
    AllValid (s.create id name) ↔ (id ∉ s.map Prod.fst → ValidName name) := by
  by_cases hid : id ∈ s.map Prod.fst
  · simp only [Store.create, hid, not_true_eq_false, false_implies, iff_true]
    exact hs
  · simp only [Store.create, hid, not_false_eq_true, true_implies]
    constructor
    · intro h
      exact h (id, name) (List.mem_append_right s (List.mem_singleton_self _))
    · intro h e he
      rcases List.mem_append.mp he with he | he
      · exact hs e he
      · rw [List.mem_singleton.mp he]
        exact h

omit [FloatOps F] in
theorem allValid_patch {s : Store} (hs : AllValid s) (id : Text) (ops : List (Value F)) :
    AllValid (s.patch id ops) ↔
      (id ∈ s.map Prod.fst → ∀ name, lastName ops = some name → ValidName name) := by
  constructor
  · intro h hid name hlast
    obtain ⟨e, he, rfl⟩ := List.mem_map.mp hid
    have hpatched := h _ (List.mem_map_of_mem he)
    simp only [if_true, foldl_nameEffect, hlast] at hpatched
    exact hpatched
  · intro h e' he'
    obtain ⟨e, he, rfl⟩ := List.mem_map.mp he'
    by_cases hid : e.1 = id
    · simp only [if_pos hid, foldl_nameEffect]
      cases hlast : lastName ops with
      | none => exact hs e he
      | some name => exact h (List.mem_map.mpr ⟨e, he, hid⟩) name hlast
    · simp only [if_neg hid]
      exact hs e he

theorem allValid_ironic_post {s : Store} {req : Request F} (hs : AllValid s)
    (hmethod : req.method = .post) (hforwarded : middleware req = .forwarded) :
    AllValid (ironic s req) ↔ Keeps s req := by
  simp only [ironic, Keeps, hmethod, hforwarded, true_implies]
  by_cases hpath : rstripSlash req.pathInfo = "/v1/portgroups".toList
  · rw [middleware_create hmethod hpath] at hforwarded
    simp only [hpath, if_true, true_implies]
    cases hbody : req.body with
    | none => simpa using hs
    | some body =>
      rw [hbody] at hforwarded
      cases body with
      | obj members =>
        obtain ⟨name, hname, hvalid⟩ := validateValue_forwarded hforwarded
        simp only [allValid_create hs, hname, textOf, validName_iff_of_accepted hvalid,
          Option.some.injEq, Value.obj.injEq]
        constructor
        · intro h hid members' name' hmembers hname'
          subst hmembers
          rw [hname] at hname'
          cases hname'
          exact h hid
        · intro h hid
          exact h hid members name rfl hname
      | null => cases hforwarded
      | bool b => cases hforwarded
      | int z => cases hforwarded
      | float x => cases hforwarded
      | str t => cases hforwarded
      | arr elems => cases hforwarded
  · simp only [hpath, if_false, false_implies, iff_true]
    exact hs

/-- A name that forwarded operations leave is valid unless they cleared it or it ends its line. -/
theorem validName_iff_of_lastName {ops : List (Value F)} (h : validateOps ops = .forwarded)
    {name : Option Text} (hlast : lastName ops = some name) :
    ValidName name ↔ ∃ n, name = some n ∧ NoFinalNewline n := by
  cases name with
  | none =>
    constructor
    · rintro ⟨node, digits, hnone, -⟩
      cases hnone
    · rintro ⟨n, hn, -⟩
      cases hn
  | some n =>
    obtain ⟨op, hop, heffect⟩ := mem_of_lastName hlast
    rw [validName_iff_of_accepted (validateOps_forwarded h hop heffect)]
    simp

theorem allValid_ironic_patch {s : Store} {req : Request F} (hs : AllValid s)
    (hmethod : req.method = .patch) (hforwarded : middleware req = .forwarded) :
    AllValid (ironic s req) ↔ Keeps s req := by
  simp only [ironic, Keeps, hmethod, hforwarded, true_implies]
  cases hid : portgroupId req.pathInfo with
  | none => simpa using hs
  | some id =>
    rw [middleware_patch hmethod hid] at hforwarded
    cases hbody : req.body with
    | none => simpa using hs
    | some body =>
      rw [hbody] at hforwarded
      cases body with
      | arr ops =>
        rw [allValid_patch hs]
        constructor
        · intro h id' ops' hid' hmem hops
          cases hid'
          cases hops
          constructor
          · intro hnone
            obtain ⟨n, hn, -⟩ := (validName_iff_of_lastName hforwarded hnone).mp (h hmem none hnone)
            cases hn
          · intro n hn
            obtain ⟨m, hm, hline⟩ :=
              (validName_iff_of_lastName hforwarded hn).mp (h hmem (some n) hn)
            cases hm
            exact hline
        · intro h hmem name hlast
          obtain ⟨hremove, hline⟩ := h id ops rfl hmem rfl
          cases name with
          | none => exact absurd hlast hremove
          | some n =>
            exact (validName_iff_of_lastName hforwarded hlast).mpr ⟨n, rfl, hline n hlast⟩
      | null => simpa using hs
      | bool b => simpa using hs
      | int z => simpa using hs
      | float x => simpa using hs
      | str t => simpa using hs
      | obj members => simpa using hs

/-- A request keeps the names valid exactly when it does none of the two things that the
middleware lets through. -/
theorem allValid_step (s : Store) (req : Request F) (hs : AllValid s) :
    AllValid (step s req) ↔ Keeps s req := by
  by_cases hforwarded : middleware req = .forwarded
  · rw [step, if_pos hforwarded]
    cases hmethod : req.method with
    | post => exact allValid_ironic_post hs hmethod hforwarded
    | patch => exact allValid_ironic_patch hs hmethod hforwarded
    | other =>
      simp only [ironic, Keeps, hmethod, implies_true, iff_true]
      exact hs
  · rw [step, if_neg hforwarded]
    simp only [Keeps, hforwarded, false_implies, iff_true]
    exact hs

/-- The stored names are valid after every request of exactly the sequences in which no forwarded
request creates a name with a final newline or ends its changes to a stored name by removing it
or giving it a final newline. -/
theorem stored_names_valid_iff (reqs : List (Request F)) :
    (∀ pre, pre <+: reqs → AllValid (pre.foldl step [])) ↔
      Runs.Along step Keeps [] reqs := by
  have hempty : AllValid [] := by
    intro e he
    cases he
  exact Runs.Along.iff_invariant allValid_step hempty reqs

end Checks

/-- A portgroup is created with a good name and patched by the removal of its name; one is created
with a name that ends in a newline. -/
theorem stored_name_invalid :
    let post : Request Text := ⟨.post, "/v1/portgroups".toList,
      some (.obj [("name".toList, .str "a-port-channel100".toList)]), "1".toList⟩
    let patch : Request Text := ⟨.patch, "/v1/portgroups/1".toList,
      some (.arr [.obj [("op".toList, .str "remove".toList), ("path".toList, .str "/name".toList)]]),
      []⟩
    let postLine : Request Text := ⟨.post, "/v1/portgroups/".toList,
      some (.obj [("name".toList, .str "a-port-channel100\n".toList)]), "1".toList⟩
    ([post, patch].foldl step [] = [("1".toList, none)] ∧ ¬ValidName none) ∧
    [postLine].foldl step [] = [("1".toList, some "a-port-channel100\n".toList)] ∧
      ¬ValidName (some "a-port-channel100\n".toList) := by
  refine ⟨⟨by decide, ?_⟩, by decide, ?_⟩
  · rintro ⟨node, digits, hnone, -⟩
    cases hnone
  · intro hvalid
    exact (validName_iff_of_accepted (by decide)).mp hvalid (by decide)

end Understack.Ironic.Portgroup
