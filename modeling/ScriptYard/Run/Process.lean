import ScriptYard.Run.Error
import ScriptYard.Script.Action
import ScriptYard.Script.Variables

/-!
# Processes

What a script does is a `Process`: a tree of requests to the world around it, each followed by what
comes next for every reply. A process asks whether its run is cancelled, looks at and sets
variables, notes progress, and cancels its own run; none of this takes time. It waits for the world
in two places only: where it calls a capability or an image service (`Request`), and where it
sleeps, from which a cancellation wakes it early.

Processes are sequenced by `Process.bind`. Nothing here says how the world replies; a process fixes
only the order of what is asked and done.
-/

namespace ScriptYard

/-- Where a template was found in an image. -/
structure TemplateMatch where
  found : Bool
  /-- The horizontal place. -/
  x : Int
  /-- The vertical place. -/
  y : Int
  width : Int
  height : Int
  /-- How sure the match is. -/
  confidence : Finite64
deriving DecidableEq, Repr

/-- The object of a match. -/
def TemplateMatch.toValue (m : TemplateMatch) : Value :=
  .object [("confidence", .float m.confidence), ("found", .bool m.found), ("height", .int m.height),
    ("width", .int m.width), ("x", .int m.x), ("y", .int m.y)]

/-- A call that a run makes. -/
inductive Request where
  | invoke (capability action : String) (params : Fields Value)
  /-- Looks for a template in an image. -/
  | matchTemplate (image template : String) (threshold : Finite64)
  /-- Reads the text of an image or a part of it. -/
  | readText (image : String) (region : Option Region)
deriving DecidableEq, Repr

/-- What a call gives when it succeeds. -/
def Request.Answer : Request → Type
  | .invoke .. => Value
  | .matchTemplate .. => TemplateMatch
  | .readText .. => String

/-- What a call comes back with. -/
abbrev Request.Reply (r : Request) : Type := Except CapabilityError r.Answer

/-- What is left to do of a run that ends with an `α`. -/
inductive Process (α : Type) where
  /-- Nothing. -/
  | done (result : α)
  /-- Asks whether the run is cancelled. -/
  | poll (next : Bool → Process α)
  /-- Cancels the run. -/
  | cancel (next : Process α)
  /-- Notes that the run makes progress. -/
  | touch (next : Process α)
  | look (next : Variables → Process α)
  /-- Sets a variable. -/
  | assign (name : String) (value : Value) (next : Process α)
  /-- Makes a call and waits for its reply. -/
  | call (request : Request) (next : request.Reply → Process α)
  /-- Sleeps; the answer tells whether the time has passed, which it has not when a cancellation
  ended the sleep. -/
  | sleep (time : Span) (next : Bool → Process α)

namespace Process

variable {α β : Type}

/-- One process, then another that depends on its result. -/
def bind (p : Process α) (f : α → Process β) : Process β :=
  match p with
  | .done a => f a
  | .poll k => .poll (fun b => bind (k b) f)
  | .cancel k => .cancel (bind k f)
  | .touch k => .touch (bind k f)
  | .look k => .look (fun vars => bind (k vars) f)
  | .assign name value k => .assign name value (bind k f)
  | .call r k => .call r (fun reply => bind (k reply) f)
  | .sleep time k => .sleep time (fun passed => bind (k passed) f)

instance : Monad Process where
  pure := .done
  bind := bind

/-- Whether the run is cancelled. -/
def isCancelled : Process Bool := .poll .done

def cancelRun : Process Unit := .cancel (.done ())

/-- Notes that the run makes progress. -/
def noteProgress : Process Unit := .touch (.done ())

def vars : Process Variables := .look .done

/-- Sets a variable. -/
def set (name : String) (value : Value) : Process Unit := .assign name value (.done ())

/-- Makes a call. -/
def request (r : Request) : Process r.Reply := .call r .done

/-- Sleeps for a time; one of no length is only a look at the cancellation. The answer tells whether
the run may go on. -/
def pause (time : Span) : Process Bool :=
  if time = .zero then .poll (fun cancelled => .done (!cancelled)) else .sleep time .done

end Process

end ScriptYard
