import RecordSql.Builder.Aggregate
import RecordSql.Builder.Batch

/-!
# Requests and their log

Every statement that a builder can be asked for, as one type, and the line that the log gets for
each of them: a note of the statement that was built, or a warning of why it was refused.
-/

namespace RecordSql

/-- What a builder can be asked for. -/
inductive Request where
  | select (e : Entity) (l : Option Listing)
  | count (e : Entity) (l : Option Listing)
  | selectByKey (e : Entity)
  | selectByExample (e : Entity) (combinator : Combinator)
  | insert (e : Entity)
  | update (e : Entity)
  | updateProperties (e : Entity) (names : List String)
  | delete (e : Entity)
  | aggregate (e : Entity) (a : Aggregation) (source : AggregateSource)
  | batch (steps : List BatchStep)

/-- Answers a request with a statement in pieces. What is written along with a sink is its text. -/
def Builder.run (b : Builder) : Request → Checked Statement
  | .select e l => b.select e l
  | .count e l => b.count e l
  | .selectByKey e => b.selectByKey e
  | .selectByExample e combinator => b.selectByExample e combinator
  | .insert e => b.insert e
  | .update e => b.update e
  | .updateProperties e names => b.updateProperties e names
  | .delete e => b.delete e
  | .aggregate e a source => b.aggregate e a source
  | .batch steps => b.batch steps

/-! ## Log -/

/-- How much a line of the log matters. -/
inductive LogLevel where
  | debug
  | warn
  deriving DecidableEq, Repr

/-- The word for a level. -/
def LogLevel.word : LogLevel → String
  | .debug => "DEBUG"
  | .warn => "WARN"

/-- A line of the log. -/
structure LogLine where
  level : LogLevel
  message : String
  deriving DecidableEq, Repr

/-- The words for a request: those for its statement, and those for its refusal. -/
structure RequestWords where
  statement : String
  refusal : String

/-- The words for a request about one entity. -/
def RequestWords.about (operation : String) (e : Entity) : RequestWords :=
  ⟨s!"{operation} statement for '{e.table}' ", s!"{operation} for '{e.table}'"⟩

/-- The words for a request. -/
def Request.words : Request → RequestWords
  | .select e _ => .about "select" e
  | .count e _ => .about "count" e
  | .selectByKey e => .about "select_by_key" e
  | .selectByExample e _ => .about "select_by_example" e
  | .insert e => .about "insert" e
  | .update e => .about "update" e
  | .updateProperties e _ => .about "update_properties" e
  | .delete e => .about "delete" e
  | .aggregate e _ _ => .about "aggregate" e
  | .batch steps =>
    ⟨s!"batch statement with {steps.length} steps ", s!"batch of {steps.length} steps"⟩

/-- The line that the log gets for the answer to a request. -/
def Builder.logLine (b : Builder) (r : Request) (answer : Checked Statement) : LogLine :=
  match answer with
  | .ok s =>
    ⟨.debug, s!"Built {r.words.statement}({b.dialect.name} dialect, " ++
      s!"{s.parameters.length} parameters)"⟩
  | .error e =>
    ⟨.warn, s!"Rejected {r.words.refusal} ({b.dialect.name} dialect): {e.message} [{e.kind}]"⟩

end RecordSql
