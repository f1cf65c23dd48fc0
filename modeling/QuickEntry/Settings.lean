import QuickEntry.Json.Decoder
import QuickEntry.Text.Digits

/-! What can be tuned: how far a new block looks for a place, and the limits of a session. -/

namespace QuickEntry

/-- How far a new block may look for a place. -/
structure Reach where
  /-- How many levels above the selection an expression may look for a free socket. -/
  levels : Nat := 1
  /-- An expression may look beyond a socket for statements. -/
  throughStatementSockets : Bool := false
  /-- An expression may go into a block that has no output itself. -/
  intoStatements : Bool := false
  /-- How many levels any search may climb. -/
  maxClimb : Nat := 64
deriving DecidableEq, Repr

/-- The settings of a session. -/
structure Settings where
  /-- How many options a query offers at most. -/
  maxMatches : Nat := 100
  /-- How many steps can be undone at most. -/
  historyDepth : Nat := 200
  reach : Reach := {}
deriving DecidableEq, Repr

namespace Reach

/-- The reach as JSON. -/
def toJson (r : Reach) : Json :=
  .object [("value_reattach_depth", .nat r.levels),
    ("reattach_through_statement_sockets", .bool r.throughStatementSockets),
    ("reattach_into_statements", .bool r.intoStatements), ("max_walk_depth", .nat r.maxClimb)]

/-- Read a reach; what is not given keeps its default. -/
def decoder : Json.Decoder Reach :=
  .record ["value_reattach_depth", "reattach_through_statement_sockets",
      "reattach_into_statements", "max_walk_depth"] fun m => do
    let usual : Reach := {}
    return {
      levels := ← m.withDefault "value_reattach_depth" (.nat Text.maxWord) usual.levels
      throughStatementSockets := ←
        m.withDefault "reattach_through_statement_sockets" .bool usual.throughStatementSockets
      intoStatements := ← m.withDefault "reattach_into_statements" .bool usual.intoStatements
      maxClimb := ← m.withDefault "max_walk_depth" (.nat Text.maxWord) usual.maxClimb }

end Reach

namespace Settings

/-- The settings as JSON. -/
def toJson (s : Settings) : Json :=
  .object [("max_matches", .nat s.maxMatches), ("history_depth", .nat s.historyDepth),
    ("connect", s.reach.toJson)]

/-- Read settings; what is not given keeps its default. -/
def decoder : Json.Decoder Settings :=
  .record ["max_matches", "history_depth", "connect"] fun m => do
    let usual : Settings := {}
    return {
      maxMatches := ← m.withDefault "max_matches" (.nat Text.maxWord) usual.maxMatches
      historyDepth := ← m.withDefault "history_depth" (.nat Text.maxWord) usual.historyDepth
      reach := ← m.withDefault "connect" Reach.decoder usual.reach }

end Settings

end QuickEntry
