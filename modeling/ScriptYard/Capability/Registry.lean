import ScriptYard.Run.Error
import ScriptYard.Value.Basic

/-!
# Capabilities

A `CapabilityRegistry` maps names to capabilities, each of which is enabled or not. What carries
out the actions of a capability is its driver; the registry is the same whatever drivers are
(`δ`), and only decides whether a call reaches one (`CapabilityRegistry.reach`): there has to be a
capability of the name, and it has to be enabled.
-/

namespace ScriptYard

/-- What a capability says about itself. -/
structure CapabilityProfile where
  name : String
  version : String := "0.1.0"
  description : String := ""
  /-- The platforms it runs on. -/
  platforms : List String := []
  /-- The actions it has; none stands for any. -/
  actions : List String := []
deriving DecidableEq, Repr, Inhabited

/-- A capability: what it says about itself, what becomes of attempts to make it ready, and what
carries out its actions. -/
structure Capability (δ : Type) where
  /-- What it says about itself. -/
  profile : CapabilityProfile
  healthy : Bool := true
  /-- Why it cannot be made ready, if it cannot. -/
  initFault : Option CapabilityError := none
  /-- What carries out its actions. -/
  driver : δ

/-- Why a capability cannot be used, if making it ready fails. -/
def Capability.fault? {δ : Type} (c : Capability δ) : Option CapabilityError :=
  if c.healthy then c.initFault else some (.unavailable c.profile.name)

/-- A capability in a registry. -/
structure RegisteredCapability (δ : Type) where
  capability : Capability δ
  /-- Whether calls reach it. -/
  enabled : Bool

/-- Capabilities by name. -/
abbrev CapabilityRegistry (δ : Type) : Type := Fields (RegisteredCapability δ)

/-- What a list of capabilities shows of one. -/
structure CapabilityInfo where
  /-- What it says about itself. -/
  profile : CapabilityProfile
  /-- Whether calls reach it. -/
  enabled : Bool
deriving DecidableEq, Repr

/-- The object of an entry in a list of capabilities. -/
def CapabilityInfo.toValue (i : CapabilityInfo) : Value :=
  .object [("actions", .array (i.profile.actions.map .string)), ("description", .string i.profile.description),
    ("enabled", .bool i.enabled), ("name", .string i.profile.name),
    ("platforms", .array (i.profile.platforms.map .string)), ("version", .string i.profile.version)]

namespace CapabilityRegistry

variable {δ : Type}

/-- The registry with a capability under its name, in the place of any other. -/
def register (r : CapabilityRegistry δ) (c : Capability δ) : CapabilityRegistry δ :=
  Fields.insert r c.profile.name ⟨c, true⟩

/-- The registry without the capability of a name. -/
def unregister (r : CapabilityRegistry δ) (name : String) : CapabilityRegistry δ := Fields.erase r name

/-- The registry in which the capability of a name is enabled or not. -/
def setEnabled (r : CapabilityRegistry δ) (name : String) (enabled : Bool) :
    Except CapabilityError (CapabilityRegistry δ) :=
  match Fields.get? r name with
  | some e => .ok (Fields.insert r name { e with enabled := enabled })
  | none => .error (.notFound name)

/-- Whether calls reach the capability of a name. -/
def isEnabled (r : CapabilityRegistry δ) (name : String) : Bool :=
  match Fields.get? r name with
  | some e => e.enabled
  | none => false

/-- The list of the capabilities in the order of their names. -/
def list (r : CapabilityRegistry δ) : List CapabilityInfo :=
  r.map fun e => ⟨e.2.capability.profile, e.2.enabled⟩

def actionsOf? (r : CapabilityRegistry δ) (name : String) : Option (List String) :=
  (Fields.get? r name).map (·.capability.profile.actions)

/-- The actions of all capabilities by name. -/
def actions (r : CapabilityRegistry δ) : Fields (List String) :=
  r.map fun e => (e.1, e.2.capability.profile.actions)

/-- The driver that a call of a capability reaches. -/
def reach (r : CapabilityRegistry δ) (name : String) : Except CapabilityError δ :=
  match Fields.get? r name with
  | none => .error (.notFound name)
  | some e => if e.enabled then .ok e.capability.driver else .error (.disabled name)

/-- The registry with another driver for the capability of a name. -/
def setDriver (r : CapabilityRegistry δ) (name : String) (driver : δ) : CapabilityRegistry δ :=
  match Fields.get? r name with
  | some e => Fields.insert r name { e with capability := { e.capability with driver := driver } }
  | none => r

/-- The registry after all capabilities were made ready: those with which that failed are
disabled. -/
def initializeAll (r : CapabilityRegistry δ) : CapabilityRegistry δ :=
  r.map fun e => (e.1, if e.2.capability.fault?.isSome then { e.2 with enabled := false } else e.2)

end CapabilityRegistry

end ScriptYard
