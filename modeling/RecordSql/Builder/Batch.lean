import RecordSql.Builder.Write

/-!
# Batches

Inserts, updates and deletes that run together or not at all. Every insert with a numeric key keeps
the key of its row in a variable; a **link** puts that variable into a later step, in place of the
value of a field.

A link has to lead back to an insert whose key is kept, and to name a field of its own entity.
-/

namespace RecordSql

/-- A field that takes the key of an earlier step. -/
structure KeyLink where
  field : String
  step : Nat
  deriving DecidableEq, Repr

/-- One step of a batch. -/
structure BatchStep where
  operation : BatchOperation
  entity : Entity
  links : List KeyLink

namespace BatchStep

/-- Whether the step is an insert whose key fits a variable. -/
def capturesKey (step : BatchStep) : Bool :=
  step.operation = .insert &&
    match step.entity.key? with
    | some key => key.dataType = .integer || key.dataType = .decimal
    | none => false

end BatchStep

/-- The variables that keep keys, by the number of their step. -/
abbrev KeyVariables := List (Nat × String)

namespace Builder

/-- The variables of the steps from a number on, when `count` have been given out. -/
def keyVariablesFrom (d : Dialect) (step count : Nat) : List BatchStep → KeyVariables
  | [] => []
  | s :: rest =>
    if s.capturesKey then
      (step, d.batchVariable count) :: keyVariablesFrom d (step + 1) (count + 1) rest
    else keyVariablesFrom d (step + 1) count rest

/-- The variables of a batch. -/
def keyVariables (b : Builder) (steps : List BatchStep) : KeyVariables :=
  keyVariablesFrom b.dialect 0 0 steps

/-- Passes a link of the step `index` that leads back to a key that is kept. -/
def checkLink (steps : List BatchStep) (keyed : KeyVariables) (index : Nat) (link : KeyLink) :
    Except EntityFault Unit :=
  if index ≤ link.step then .error (.linkNotBackward index link.step)
  else
    match steps[link.step]? with
    | none => .error (.linkNotBackward index link.step)
    | some source =>
      if source.operation ≠ .insert then
        .error (.linkToNoInsert index link.step source.operation)
      else
        match source.entity.key? with
        | none => .error (.linkToNoKey index link.step source.entity.table)
        | some key =>
          if (keyed.lookup link.step).isSome then .ok ()
          else .error (.linkToOtherKey key.name source.entity.table key.dataType)

/-- Passes the links of all steps. -/
def checkLinks (steps : List BatchStep) (keyed : KeyVariables) : Except EntityFault Unit :=
  steps.zipIdx.forM fun (step, index) => step.links.forM (checkLink steps keyed index)

/-- Adds the variable of a link to those of its step; the last link of a field counts. -/
def addLink (keyed : KeyVariables) (index : Nat) (e : Entity) (links : Links)
    (link : KeyLink) : Except EntityFault Links :=
  match e.field? link.field with
  | none => .error (.linkToUnknownField index link.field e.table)
  | some _ =>
    match keyed.lookup link.step with
    | some name => .ok ((link.field, name) :: links)
    | none => .ok links

/-- The statement of one step. -/
def stepBody (b : Builder) (keyed : KeyVariables) (step : BatchStep) (index : Nat) :
    Checked Sql := do
  Checked.ofEntity step.entity.check
  let links ← Checked.ofEntity (step.links.foldlM (addLink keyed index step.entity) [])
  match step.operation with
  | .insert =>
    let handling :=
      match keyed.lookup index with
      | some name => .capture name
      | none => .omit
    b.insertBody step.entity links handling
  | .update => b.updateBody step.entity none links
  | .delete => b.deleteBody step.entity links

/-- The variable of a key with the parameter that hands it out, where there is one. -/
def batchVariable (b : Builder) (name : String) : BatchVariable :=
  ⟨name, if b.dialect.returnsKeyInParameter then some [.bind (.output .integer)] else none⟩

/-- The statement of a batch. -/
def batchBody (b : Builder) (steps : List BatchStep) : Checked Sql := do
  if steps.isEmpty then .error (.invalidEntity .emptyBatch)
  let keyed := b.keyVariables steps
  Checked.ofEntity (checkLinks steps keyed)
  let fragments ← steps.zipIdx.mapM fun (step, index) => b.stepBody keyed step index
  pure (b.dialect.batch ⟨keyed.map fun (_, name) => b.batchVariable name, fragments⟩)

/-- One statement that runs every step in order. -/
def batch (b : Builder) (steps : List BatchStep) : Checked Statement := do
  let sql ← b.batchBody steps
  b.finish sql

end Builder

end RecordSql
