/-
# Errors of the collection store and of evaluation
-/

import MusicCollections.Expression.Parser
import MusicCollections.Files.Basic

namespace MusicCollections

/-- Why a name cannot name a collection. -/
inductive NameFault where
  | empty
  | padded
  | comment
  | all
  | separator
  | reserved
  | operator
  deriving DecidableEq, Repr

def NameFault.reason : NameFault → String
  | .empty => "name is empty"
  | .padded => "name has leading or trailing whitespace"
  | .comment => "name starts with `#`, which marks a comment line"
  | .all => "`all` always means every track"
  | .separator => "name contains one of = : \" ( ) or a line break"
  | .reserved => "name contains a reserved character"
  | .operator => "name is an operator keyword"

inductive StoreError where
  /-- Collections that refer to each other in a ring; the last is the first. -/
  | cycle (path : List String)
  | unreadable (path : Path) (cause : IoError)
  | unwritable (path : Path) (cause : IoError)
  | invalidName (name : String) (fault : NameFault)
  | invalidExpression (name : String) (cause : SyntaxError)
  | multilineExpression (name : String)
  | notFound (name : String)
  deriving DecidableEq, Repr

def StoreError.message : StoreError → String
  | .cycle path => "collection cycle: " ++ Text.join " -> " path
  | .unreadable path cause => "cannot read collections file " ++ path ++ ": " ++ cause.message
  | .unwritable path cause => "cannot write collections file " ++ path ++ ": " ++ cause.message
  | .invalidName name fault =>
    "invalid collection name " ++ Text.quoted name ++ ": " ++ fault.reason
  | .invalidExpression name cause =>
    "collection `" ++ name ++ "` has an invalid expression: " ++ cause.message
  | .multilineExpression name => "collection `" ++ name ++ "` has a line break in its expression"
  | .notFound name => "no collection named `" ++ name ++ "`"

/-- Why an expression selects no tracks. -/
inductive EvalError where
  | unknownReference (name : String)
  | store (e : StoreError)
  deriving DecidableEq, Repr

def EvalError.message : EvalError → String
  | .unknownReference name => "unknown reference `" ++ name ++ "`: not a playlist or collection"
  | .store e => e.message

end MusicCollections
