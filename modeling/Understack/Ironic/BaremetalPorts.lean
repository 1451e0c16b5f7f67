import Understack.Ironic.NaturalSort
import Understack.Ironic.VlanGroupNames
import Understack.Lib.Grouping
import Mathlib.Data.Finset.Image

/-! The inspection hook of `inspect_hook_update_baremetal_ports.py`: the ports and the traits of a
node after an inspection with LLDP data. -/
namespace Understack.Ironic.BaremetalPorts
open PyText PySets VlanGroup

structure Interface where
  name : Text
  macAddress : Text
  deriving DecidableEq, Repr

/-- The values of `all_interfaces`, and the entries of `parsed_lldp` by interface name. -/
structure PluginData where
  allInterfaces : List Interface
  parsedLldp : List (Text × List (Text × Text))
  deriving DecidableEq, Repr

abbrev Link := List (Text × Text)

structure BaremetalPort where
  address : Text
  localLinkConnection : Option Link
  physicalNetwork : Option Text
  category : Option Text
  pxeEnabled : Bool
  deriving DecidableEq, Repr

structure Node where
  ports : List BaremetalPort
  traits : Finset Text
  deriving DecidableEq

/-- `str.lower`, `str.upper` of one character, and whether Ironic saves a port; when it does not
the hook logs the exception and goes on. -/
structure Env where
  lower : Text → Text
  upper : Char → Text
  save : BaremetalPort → Bool

inductive HookError where
  | keyError (key : Text)
  | naming (error : NamingError)
  | sort (error : SortError)
  deriving DecidableEq, Repr

def getItem (d : List (Text × Text)) (key : Text) : Except HookError Text :=
  match d.lookup key with
  | some value => .ok value
  | none => .error (.keyError key)

def normaliseSwitchName (lower : Text → Text) (name : Text) : Text :=
  let suffix := ".rackspace.net".toList
  let name := lower name
  if suffix.isSuffixOf name then name else name ++ suffix

/-- One entry of `parsed_lldp`. -/
def parseEntry (lower : Text → Text) (mac : List (Text × Text))
    (entry : Text × List (Text × Text)) : Except HookError InspectedPort := do
  let macAddress ← getItem mac entry.1
  let switchSystemName ← getItem entry.2 "switch_system_name".toList
  let switchChassisId ← getItem entry.2 "switch_chassis_id".toList
  let switchPortId ← getItem entry.2 "switch_port_id".toList
  return {
    macAddress
    name := entry.1
    switchSystemName := normaliseSwitchName lower switchSystemName
    switchPortId
    switchChassisId := lower switchChassisId }

def parsePluginData (lower : Text → Text) (data : PluginData) :
    Except HookError (List InspectedPort) :=
  let mac := data.allInterfaces.foldl (fun mac i => PyDict.put i.name i.macAddress mac) []
  data.parsedLldp.mapM (parseEntry lower mac)

def localLinkConnection (port : InspectedPort) : Link :=
  [("port_id".toList, port.switchPortId), ("switch_id".toList, port.switchChassisId),
    ("switch_info".toList, port.switchSystemName)]

/-- `==` of dictionaries. -/
def sameItems (d e : Link) : Bool :=
  d.length = e.length && e.all fun item => d.lookup item.1 = some item.2

def endsWithNetwork (group : Text) : Bool := "-network".toList.isSuffixOf group

/-- `s.split("-")[-1]`. -/
def lastPart (s : Text) : Text := (split '-' s).getLastD []

def setPortAttributes (save : BaremetalPort → Bool) (port : BaremetalPort)
    (inspectedPort : InspectedPort) (physicalNetwork : Option Text) (pxeEnabled : Bool) :
    BaremetalPort :=
  let category := (physicalNetwork.filter (· ≠ [])).map lastPart
  let new :=
    if (port.localLinkConnection.map fun link =>
        sameItems link (localLinkConnection inspectedPort)) = some true then port
    else { port with localLinkConnection := some (localLinkConnection inspectedPort) }
  let physicalNetwork := physicalNetwork.filter fun group => group = [] || endsWithNetwork group
  let new :=
    if new.physicalNetwork = physicalNetwork then new else { new with physicalNetwork }
  let new := if new.category = category then new else { new with category }
  let new := if new.pxeEnabled = pxeEnabled then new else { new with pxeEnabled }
  if save new then new else port

def clearPortAttributes (save : BaremetalPort → Bool) (port : BaremetalPort) : BaremetalPort :=
  let new := { port with
    localLinkConnection := some [], physicalNetwork := none, category := none, pxeEnabled := false }
  if save new then new else port

/-- The switches of each VLAN group with the suffix, with their entries. -/
def networkGroups (vlanGroups : List (Text × Text)) : List (Text × List (Text × Text)) :=
  Grouping.group Prod.snd (vlanGroups.filter fun entry => endsWithNetwork entry.2)

def firstSwitchName (entries : List (Text × Text)) : Except SortError Text := do
  match ← naturalSortedSwitchNames (entries.map Prod.fst) with
  | first :: _ => return first
  | [] => throw .indexError

def pxeSwitchNames (vlanGroups : List (Text × Text)) : Except SortError (List Text) :=
  collect (fun group => firstSwitchName group.2)
    ((networkGroups vlanGroups).filter fun group => group.2 ≠ [])

/-- The turn of one port. -/
def updatePort (save : BaremetalPort → Bool) (portsByMac : List (Text × InspectedPort))
    (vlanGroups : List (Text × Text)) (pxeSwitchNames : List Text) (port : BaremetalPort) :
    BaremetalPort :=
  match portsByMac.lookup port.address with
  | some inspectedPort =>
    setPortAttributes save port inspectedPort (vlanGroups.lookup inspectedPort.switchSystemName)
      (decide (inspectedPort.switchSystemName ∈ pxeSwitchNames))
  | none => clearPortAttributes save port

def updatePortAttrs (save : BaremetalPort → Bool) (ports : List BaremetalPort)
    (portsByMac : List (Text × InspectedPort)) (vlanGroups : List (Text × Text))
    (pxeSwitchNames : List Text) : List BaremetalPort :=
  ports.map (updatePort save portsByMac vlanGroups pxeSwitchNames)

/-- The upper case of a text is that of its characters in turn. -/
def traitName (upper : Char → Text) (vlanGroupName : Text) : Text :=
  "CUSTOM_".toList ++ lastPart (vlanGroupName.flatMap upper) ++ "_SWITCH".toList

def isUpperOrDigit (c : Char) : Bool := ('A' ≤ c && c ≤ 'Z') || ('0' ≤ c && c ≤ '9')

/-- The name between the two ends, when they do not overlap. -/
def traitBody? (name : Text) : Option Text :=
  if "CUSTOM_".toList.isPrefixOf name && "_SWITCH".toList.isSuffixOf (name.drop 7) then
    some ((name.drop 7).take (name.length - 14))
  else none

/-- `^CUSTOM_[A-Z0-9]+_SWITCH$`, where `$` is also before a final newline. -/
def isOurTrait (name : Text) : Bool :=
  let name := if name.getLast? = some '\n' then name.dropLast else name
  match traitBody? name with
  | some body => !body.isEmpty && body.all isUpperOrDigit
  | none => false

def setNodeTraits (upper : Char → Text) (existingTraits vlanGroups : Finset Text) : Finset Text :=
  let vlanGroupTraits := (vlanGroups.filter (· ≠ [])).image (traitName upper)
  let irrelevantExistingTraits := existingTraits.filter fun name => !isOurTrait name
  let requiredTraits := irrelevantExistingTraits ∪ vlanGroupTraits
  if existingTraits = requiredTraits then existingTraits else requiredTraits

/-- The call of the hook; nothing is written before it can raise no more. -/
def inspectHook (env : Env) (mapping : Mapping) (data : PluginData) (node : Node) :
    Except HookError Node := do
  let inspectedPorts ← parsePluginData env.lower data
  if inspectedPorts = [] then return node
  let portsByMac := inspectedPorts.foldl (fun d p => PyDict.put p.macAddress p d) []
  let vlanGroups ← (vlanGroupNames inspectedPorts mapping).mapError .naming
  let pxeSwitchNames ← (pxeSwitchNames vlanGroups).mapError .sort
  return {
    ports := updatePortAttrs env.save node.ports portsByMac vlanGroups pxeSwitchNames
    traits := setNodeTraits env.upper node.traits
      ((vlanGroups.map Prod.snd).filter (· ≠ [])).toFinset }

end Understack.Ironic.BaremetalPorts
