import ScriptYard.Rehearsal.Script
import ScriptYard.Value.Lookup

/-!
# Descriptions of rehearsals

A rehearsal is described by a value (`Rehearsal.ofDescription`). Its field `capabilities` describes
capabilities by name: their `actions`, and under `responses` the replies by action; one that is `full`
says about itself what its other fields say, and announces when it is made ready and cleaned up. The
fields `matcher` and `ocr` list the replies of the image services, and `builtins` adds the shell.

What is written into the log of a rehearsal is a value again (`LogEntry.toValue`).
-/

namespace ScriptYard

/-- A described reply with an outcome. -/
def ScriptedReply.ofDescription {α : Type} (v : Value) (outcome : α) : ScriptedReply α :=
  ⟨v.natAt "delay_ms", v.isTrueAt "cancel", outcome⟩

/-- A described outcome. -/
def ScriptedOutcome.ofDescription (v : Value) : ScriptedOutcome :=
  if v.isTrueAt "echo" then .echo
  else match v.textAt? "err", v.textAt? "invalid" with
    | some reason, _ => .actionFailed reason
    | none, some reason => .invalidParams reason
    | none, none => .ok (v.field "ok")

/-- The described place of a match. -/
def TemplateMatch.ofDescription (v : Value) : TemplateMatch :=
  ⟨v.isTrueAt "found", v.intAt "x", v.intAt "y", v.intAt "width", v.intAt "height", v.floatAt "confidence"⟩

/-- A described image service, if its replies are listed under a name. -/
def ScriptedService.ofDescription {α : Type} (answer : Value → α) (v : Value) (name : String) :
    Option (ScriptedService α) :=
  match v.get? name with
  | some (.array replies) => some ⟨replies.map fun reply => .ofDescription reply (
      match reply.textAt? "err" with
      | some reason => .error reason
      | none => .ok (answer reply)), 0⟩
  | _ => none

def RehearsalDriver.shellCapability : Capability RehearsalDriver where
  profile := ShellCapability.profile
  driver := .shell

/-- A described capability. -/
def RehearsalDriver.capability (name : String) (v : Value) : Capability RehearsalDriver :=
  let responses := (v.fieldsAt "responses").map fun r =>
    (r.1, (match r.2 with | .array items => items | _ => []).map fun reply =>
      ScriptedReply.ofDescription reply (.ofDescription reply))
  let driver := ScriptedDriver.mk responses []
  let profile : CapabilityProfile := { name := name, actions := v.textsAt "actions" }
  if v.isTrueAt "full" then
    { profile := { profile with
        version := v.textAt "version"
        description := v.textAt "description"
        platforms := v.textsAt "platforms" }
      healthy := v.get? "healthy" != some (.bool false)
      initFault := (v.textAt? "init_error").map (.initializationFailed name)
      driver := .scripted (driver true) }
  else { profile := profile, driver := .scripted (driver false) }

/-- The registry with one more described capability, which may be disabled. -/
def Rehearsal.registerDescribed (r : CapabilityRegistry RehearsalDriver) (name : String) (v : Value) :
    CapabilityRegistry RehearsalDriver :=
  let r := r.register (RehearsalDriver.capability name v)
  if v.get? "enabled" == some (.bool false) then (r.setEnabled name false).toOption.getD r else r

/-- A described rehearsal. -/
def Rehearsal.ofDescription (v : Value) : Rehearsal where
  capabilities := (v.fieldsAt "capabilities").foldl (fun r c => registerDescribed r c.1 c.2)
    (if v.isTrueAt "builtins" then .register [] RehearsalDriver.shellCapability else [])
  matcher := ScriptedService.ofDescription .ofDescription v "matcher"
  reader := ScriptedService.ofDescription (·.textAt "text") v "ocr"

namespace LogEntry

/-- The object of an entry. -/
def toValue : LogEntry → Value
  | .called moment capability action params => .object [("at", .nat moment),
      ("call", .string (capability ++ "." ++ action)), ("params", .object params)]
  | .matched moment image template threshold => .object [("at", .nat moment),
      ("match", .array [.string image, .string template, .float threshold])]
  | .read moment image region => .object [("at", .nat moment), ("ocr", .string image),
      ("region", match region with
        | some r => .array [.int r.x, .int r.y, .int r.width, .int r.height]
        | none => .null)]
  | .initialized capability => .object [("initialize", .string capability)]
  | .cleanedUp capability => .object [("cleanup", .string capability)]

/-- What the entry is about: the name of the capability, or of an image service. -/
def source : LogEntry → String
  | .called _ capability _ _ => capability
  | .matched .. => "$match"
  | .read .. => "$ocr"
  | .initialized capability | .cleanedUp capability => capability

end LogEntry

end ScriptYard
