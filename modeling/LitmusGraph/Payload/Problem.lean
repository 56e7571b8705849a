import LitmusGraph.Json.Display

/-!
# Problems of a payload

`Payload.Problem` says in what way a value is no list of executions: what was found where something
else belongs, and inside which execution and event.

Embedded are the texts of `ExecutionFormatError` as `parse_executions` and its helpers raise it, with
what `parse_executions` and `_parse_execution` put in front of a problem that lies inside.
-/

namespace LitmusGraph

namespace Payload

/-- What an object with required members stands for. -/
inductive Owner where
  /-- An execution or an event. -/
  | executionOrEvent
  /-- A set. -/
  | set
  /-- A relation. -/
  | relation
deriving DecidableEq

/-- In what way a value is no list of executions. -/
inductive Problem where
  /-- The whole value is no list. -/
  | notExecutions (found : Json)
  /-- An execution or event is no object. -/
  | notObject (found : Json)
  /-- A set is no object. -/
  | notSet (found : Json)
  /-- A relation is no object. -/
  | notRelation (found : Json)
  /-- A required member is missing. -/
  | missing (owner : Owner) (key : Text)
  /-- A field is no list. -/
  | notList (field : Text) (found : Json)
  /-- A field is no string. -/
  | notString (field : Text) (found : Json)
  /-- A field is no whole number. -/
  | notInteger (field : Text) (found : Json)
  /-- An edge of a relation is no pair. -/
  | notPair (relation : Text) (found : Json)
  /-- The problem lies inside an event. -/
  | inEvent (index : Nat) (problem : Problem)
  /-- The problem lies inside an execution. -/
  | inExecution (index : Nat) (problem : Problem)

namespace Problem

/-- The text of the problem. -/
def message : Problem → Text
  | notExecutions found => "Expected a list of executions, got " ++ found.kindName
  | notObject found => "Expected an object, got " ++ found.kindName
  | notSet found => "Invalid set: " ++ found.display
  | notRelation found => "Invalid relation: " ++ found.display
  | missing .executionOrEvent key => "Missing required key: " ++ key.quoted
  | missing .set key => "Set missing required key: " ++ key.quoted
  | missing .relation key => "Relation missing required key: " ++ key.quoted
  | notList field found => "Field '" ++ field ++ "' must be a list, got " ++ found.kindName
  | notString field found => "Field '" ++ field ++ "' must be a string, got " ++ found.display
  | notInteger field found => "Field '" ++ field ++ "' must be an integer, got " ++ found.display
  | notPair relation found =>
    "Edge of relation '" ++ relation ++ "' is not a pair: " ++ found.display
  | inEvent index problem => "event " ++ Text.ofNat index ++ ": " ++ problem.message
  | inExecution index problem => "Execution " ++ Text.ofNat index ++ ": " ++ problem.message

end Problem

end Payload

end LitmusGraph
