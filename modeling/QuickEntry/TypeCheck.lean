/-! Which connectors may be joined: type tags, or no restriction. -/

namespace QuickEntry

/-- The types that a connector takes. -/
inductive TypeCheck where
  /-- Every type. -/
  | any
  /-- The types with one of these tags. -/
  | oneOf (tags : List String)
deriving DecidableEq, Repr, Inhabited

namespace TypeCheck

/-- Two connectors may be joined if they share a tag or one of them takes everything. -/
def accepts : TypeCheck → TypeCheck → Bool
  -- An empty list of tags takes nothing but a connector that takes everything.
  | oneOf mine, oneOf theirs => mine.any theirs.contains
  | _, _ => true

/-- Whether a check lists a tag; a check without restriction lists none. -/
def includes : TypeCheck → String → Bool
  | any, _ => false
  | oneOf tags, tag => tags.contains tag

end TypeCheck

end QuickEntry
