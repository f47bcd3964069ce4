/-
# Collection expressions

One language addresses every group of tracks:

    artist:"Miles Davis" AND NOT (road OR live)

An expression is a name, a tag filter, or others put together.  A name is `all`,
a stored playlist or a named collection.  Groups stand for the parentheses of
the text; they mean what they hold, and `collapse` removes them.
-/

import MusicCollections.Dictionary
import MusicCollections.Tag

namespace MusicCollections

inductive Expression where
  /-- `all`, a stored playlist or a named collection. -/
  | ref (name : String)
  /-- The tracks whose value of the tag matches the pattern. -/
  | filter (tag : Tag) (pattern : String)
  | complement (e : Expression)
  | both (left right : Expression)
  | either (left right : Expression)
  /-- An expression in parentheses. -/
  | group (e : Expression)
  deriving DecidableEq, Repr

namespace Expression

/-- The name that every track of the catalog belongs to. -/
def allName : String := "all"

/-- The expression without its groups. -/
def collapse : Expression → Expression
  | .ref name => .ref name
  | .filter tag pattern => .filter tag pattern
  | .complement e => .complement e.collapse
  | .both l r => .both l.collapse r.collapse
  | .either l r => .either l.collapse r.collapse
  | .group e => e.collapse

/-- The names that stand in the expression other than `all`, in order and with
repetitions. -/
def namesIn : Expression → List String
  | .ref name => if name = allName then [] else [name]
  | .filter _ _ => []
  | .complement e | .group e => e.namesIn
  | .both l r | .either l r => l.namesIn ++ r.namesIn

/-- The names that the expression refers to, `all` apart. -/
def references (e : Expression) : NameSet := NameSet.ofList e.namesIn

end Expression

end MusicCollections
