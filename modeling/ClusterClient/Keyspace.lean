import ClusterClient.Execution.Outcome

/-!
# Keyspace names

The keyspace of a session is switched with a `USE` statement, which takes no markers, so the name
goes into the text. `checkKeyspaceName` admits exactly the names of one to 48 ASCII letters, digits
and underscores; the first illegal character is the complaint even of a name that is too long.
-/

namespace ClusterClient

/-- Why a name is no keyspace name. -/
inductive BadKeyspaceName where
  | empty
  | tooLong (name : String) (length : Nat)
  | illegalCharacter (name : String) (character : Char)
  deriving DecidableEq, Repr

/-- The text of a refused name. -/
def BadKeyspaceName.message : BadKeyspaceName → String
  | .empty => "Empty keyspace name"
  | .tooLong name length =>
    "Keyspace name '" ++ name ++ "' has " ++ length.repr ++ " characters, at most 48 are allowed"
  | .illegalCharacter name character =>
    "Keyspace name '" ++ name ++ "' contains '" ++ character.toString ++
      "'; only ASCII letters, digits and '_' are allowed"

/-- Whether a character may stand in a keyspace name: an ASCII letter, digit or underscore. -/
def isKeyspaceChar (c : Char) : Bool :=
  c.isAlphanum || c = '_'

/-- How long a keyspace name may be. -/
def maxKeyspaceName : Nat := 48

/-- Refuses what is no keyspace name. -/
def checkKeyspaceName (name : String) : Except BadKeyspaceName Unit :=
  if name = "" then .error .empty
  else
    match name.toList.find? (!isKeyspaceChar ·) with
    | some c => .error (.illegalCharacter name c)
    | none => if maxKeyspaceName < name.length then .error (.tooLong name name.length) else .ok ()

/-- The statement that switches to a keyspace; a case-sensitive name is quoted. -/
def useText (name : String) (caseSensitive : Bool) : String :=
  if caseSensitive then "USE \"" ++ name ++ "\"" else "USE " ++ name

/-- Why a keyspace could not be switched to. -/
inductive UseKeyspaceError where
  | badName (cause : BadKeyspaceName)
  | execution (error : ExecutionError)
  /-- The node answered with something else than a switch of the keyspace. -/
  | notSet

/-- The text of an error. -/
def UseKeyspaceError.message : UseKeyspaceError → String
  | .badName cause => cause.message
  | .execution error => error.message
  | .notSet => "USE statement did not switch the keyspace"

end ClusterClient
