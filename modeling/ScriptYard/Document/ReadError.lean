/-!
# Why a document is refused

Reading a document can fail in its notation or in its contents, and of two faults the one that
comes first in the document is reported. A fault inside an action names the kind of the action,
as the document spells it, and so on outward for nested actions.
-/

namespace ScriptYard

/-- Why a document, or a part of one, cannot be read. -/
inductive ReadError where
  /-- A required field is absent. -/
  | missingField (name : String)
  /-- A name stands where one of a fixed set of names is expected. -/
  | unknownVariant (name : String)
  /-- A field is given twice. -/
  | duplicateField (name : String)
  /-- Arrays and objects are nested too deeply. -/
  | tooDeep
  /-- A value of another type, size or length than the place allows. -/
  | wrongValue
  /-- The text breaks the notation, or holds what values cannot hold. -/
  | malformed
  /-- A fault inside an action of this kind. -/
  | inAction (kind : String) (cause : ReadError)
deriving DecidableEq, Repr, Inhabited

namespace ReadError

/-- The text of the error. -/
def message : ReadError → String
  | .missingField name => "missing field `" ++ name ++ "`"
  | .unknownVariant name => "unknown variant `" ++ name ++ "`"
  | .duplicateField name => "duplicate field `" ++ name ++ "`"
  | .tooDeep => "recursion limit exceeded"
  | .wrongValue => "invalid value"
  | .malformed => "malformed"
  | .inAction kind cause => "invalid '" ++ kind ++ "' action: " ++ cause.message

end ReadError

end ScriptYard
