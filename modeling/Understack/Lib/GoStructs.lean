import Understack.Lib.Json

/-! How `encoding/json` fills the fields of a Go struct from the members of an object: names match
up to case, a later member overrides an earlier one, `null` resets a pointer and leaves a value. -/
namespace GoStructs
open PyText Json

variable {F : Type} {α : Type}

/-- Upper case of a character, exact where the result is an ASCII letter. -/
def foldChar (c : Char) : Char :=
  if 'a' ≤ c ∧ c ≤ 'z' then Char.ofNat (c.toNat - 32)
  else if c.toNat = 0x17f then 'S'
  else if c.toNat = 0x212a then 'K'
  else c

def foldName (name : Text) : Text := name.map foldChar

/-- The values of the members that go into the field of the name, in order. -/
def field (name : String) (members : List (Text × Value F)) : List (Value F) :=
  (members.filter fun m => foldName m.1 = foldName name.toList).map Prod.snd

/-- A field of type `string`; `none` where decoding reports an error. -/
def decodeString (values : List (Value F)) : Option Text :=
  values.foldlM (fun s v =>
    match v with
    | .str t => some t
    | .null => some s
    | _ => none) []

/-- A field of a pointer type. -/
def decodePointer (read : Value F → Option α) (values : List (Value F)) : Option (Option α) :=
  values.foldlM (fun _ v =>
    match v with
    | .null => some none
    | v => (read v).map some) none

def readString : Value F → Option Text
  | .str t => some t
  | _ => none

def readBool : Value F → Option Bool
  | .bool b => some b
  | _ => none

/-- The members that go into a field of a struct type: a second object is decoded into the same
struct. -/
def decodeStruct (values : List (Value F)) : Option (List (Text × Value F)) :=
  values.foldlM (fun ms v =>
    match v with
    | .obj members => some (ms ++ members)
    | .null => some ms
    | _ => none) []

/-- A document as `json.Unmarshal` decodes it into a struct. -/
def decodeDocument (parse : Text → Option (Value F)) (body : Text) :
    Option (List (Text × Value F)) := do
  let document ← parse body
  decodeStruct [document]

/-- What a member is to a pointer field. -/
def ofPointer (write : α → Value F) : Option α → Value F
  | none => .null
  | some a => write a

/-- A pointer field tells a value from the lack of one, but not `null` from a missing member. -/
theorem decodePointer_ofPointer {read : Value F → Option α} {write : α → Value F}
    (hread : ∀ a, decodePointer read [write a] = some (some a)) (carried : Option (Option α)) :
    decodePointer read (carried.map (ofPointer write)).toList = some carried.join := by
  rcases carried with _ | _ | a
  · rfl
  · rfl
  · exact hread a

theorem decodePointer_str (t : Text) :
    decodePointer readString [(Value.str t : Value F)] = some (some t) := rfl

end GoStructs
