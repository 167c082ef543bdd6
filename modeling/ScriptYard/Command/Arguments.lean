/-!
# Arguments of a program

A `Grammar` lists the options that arguments may use and the places for plain arguments; some plain
arguments may be commands, behind which another grammar holds. `Grammar.read` goes through the
arguments from left to right.

An option has a long name behind two hyphens and perhaps a letter behind one. Its value follows it,
as the next argument or in the same one; several letters may share an argument. Behind two hyphens
alone there are no more options. An option that has its value counts only when the reading goes on
or ends, so an unfit value in front of a command is found after the faults behind the command.
-/

namespace ScriptYard

/-- Why arguments do not ask for anything to be done. -/
inductive UsageFault where
  /-- They ask for help. -/
  | help
  /-- They ask for the version. -/
  | version
  /-- They do not fit. -/
  | unfit
deriving DecidableEq, Repr, Inhabited

/-- How an option is used. -/
inductive OptionUse where
  /-- Without a value, once. -/
  | switch
  /-- With a value, once. -/
  | once
  /-- With a value, any number of times. -/
  | often
  /-- It asks for help. -/
  | help
  /-- It asks for the version. -/
  | version
deriving DecidableEq, Repr, Inhabited

/-- Whether a value belongs to the option. -/
def OptionUse.takesValue : OptionUse → Bool
  | .once | .often => true
  | .switch | .help | .version => false

structure OptionRule where
  /-- The long name. -/
  name : String
  letter : Option Char := none
  /-- How it is used. -/
  use : OptionUse
  /-- Which values fit. -/
  fits : String → Bool := fun _ => true

/-- A place for a plain argument. -/
structure PlaceRule where
  name : String
  /-- Which arguments fit. -/
  fits : String → Bool := fun _ => true

/-- The rules of arguments. -/
structure Grammar where
  options : List OptionRule
  /-- The places, all of which are to be filled, in order. -/
  places : List PlaceRule := []
  commands : List String := []

/-- How far arguments have been read. -/
structure LineReading where
  /-- The options and places that were given, with their values, in order. -/
  given : List (String × String) := []
  /-- The last option, if it does not count yet, and its value, if it has one already. -/
  held : Option (OptionRule × Option String) := none
  /-- The places that are still empty. -/
  places : List PlaceRule := []
  /-- Whether there are no more options. -/
  plain : Bool := false

namespace LineReading

/-- Whether an option or place was given. -/
def has (r : LineReading) (name : String) : Bool := r.given.any (·.1 == name)

/-- The values of an option or place. -/
def values (r : LineReading) (name : String) : List String := (r.given.filter (·.1 == name)).map (·.2)

/-- The value of an option or place. -/
def value? (r : LineReading) (name : String) : Option String := (r.values name).head?

/-- Whether the next argument is the value of an option, if it is none itself. -/
def awaitsValue (r : LineReading) : Bool :=
  match r.held with
  | some (_, none) => true
  | _ => false

/-- The reading after an option counted. -/
def record (r : LineReading) (o : OptionRule) (value : String) : Except UsageFault LineReading :=
  if o.fits value && (o.use = .often || !r.has o.name) then
    .ok { r with given := r.given ++ [(o.name, value)] }
  else .error .unfit

/-- The reading after the last option counted. -/
def settle (r : LineReading) : Except UsageFault LineReading :=
  match r.held with
  | none => .ok r
  | some (_, none) => .error .unfit
  | some (o, some value) => { r with held := none }.record o value

/-- The reading after an option without a value. -/
def mark (r : LineReading) (o : OptionRule) : Except UsageFault LineReading := do
  let r ← r.settle
  match o.use with
  | .help => throw .help
  | .version => throw .version
  | _ => r.record o ""

/-- The reading after an option whose value stands in the same argument, or else in the next one. -/
def take (r : LineReading) (o : OptionRule) (value : Option String) : Except UsageFault LineReading := do
  let r ← r.settle
  match value with
  | some v => r.record o v
  | none => return { r with held := some (o, none) }

/-- The reading after an option by its long name, perhaps with a value behind an equals sign. -/
def long (g : Grammar) (r : LineReading) (cs : List Char) : Except UsageFault LineReading :=
  let name := String.ofList (cs.takeWhile (· != '='))
  let value := match cs.dropWhile (· != '=') with
    | _ :: v => some (String.ofList v)
    | [] => none
  match g.options.find? (·.name == name) with
  | none => .error .unfit
  | some o =>
    if o.use.takesValue then r.take o value
    else if value.isSome then .error .unfit
    else r.mark o

/-- The reading after options by their letters; what stands behind the letter of an option with a
value is the value. -/
def letters (g : Grammar) (r : LineReading) : List Char → Except UsageFault LineReading
  | [] => .ok r
  | c :: rest =>
    match g.options.find? (·.letter == some c) with
    | none => .error .unfit
    | some o =>
      if o.use.takesValue then
        r.take o (match rest with
          | [] => none
          | '=' :: v => some (String.ofList v)
          | v => some (String.ofList v))
      else do letters g (← r.mark o) rest

/-- The reading after a plain argument. -/
def fill (r : LineReading) (arg : String) : Except UsageFault LineReading := do
  let r ← r.settle
  match r.places with
  | [] => throw .unfit
  | p :: rest => if p.fits arg then return { r with given := r.given ++ [(p.name, arg)], places := rest } else throw .unfit

/-- The reading after one more argument. -/
def step (g : Grammar) (r : LineReading) (arg : String) : Except UsageFault LineReading :=
  if r.plain then r.fill arg
  else match arg.toList with
    | ['-', '-'] => .ok { r with plain := true }
    | '-' :: '-' :: cs => r.long g cs
    | '-' :: c :: cs => r.letters g (c :: cs)
    | _ => match r.held with
      | some (o, none) => .ok { r with held := some (o, some arg) }
      | _ => r.fill arg

/-- The reading at its end. -/
def finish (r : LineReading) : Except UsageFault LineReading := do
  let r ← r.settle
  if r.places.isEmpty then return r else throw .unfit

end LineReading

namespace Grammar

/-- Reads arguments up to a command, if there is one. The answer has the command and the arguments
behind it. -/
def readFrom (g : Grammar) (r : LineReading) :
    List String → Except UsageFault (LineReading × Option (String × List String))
  | [] => .ok (r, none)
  | arg :: rest =>
    if !r.plain && !r.awaitsValue && g.commands.contains arg then .ok (r, some (arg, rest))
    else do g.readFrom (← r.step g arg) rest

/-- Reads arguments up to a command, if there is one. -/
def read (g : Grammar) (args : List String) : Except UsageFault (LineReading × Option (String × List String)) :=
  g.readFrom { places := g.places } args

end Grammar

end ScriptYard
