import RecordSql.Builder.Batch
import RecordSql.Writer.Rows

/-!
# Batches as they are written

The statements of `Builder.Batch`. All steps of a batch are written along with one sink, one after
the other, so each goes on with the numbers where the step before it stopped. The parameters that
hand the keys out are bound behind all steps.
-/

namespace RecordSql.Builder

/-- Writes one step. -/
def writeStep (b : Builder) (keyed : KeyVariables) (step : BatchStep) (index : Nat) :
    Writing String := do
  let _ ← Writing.check (Checked.ofEntity step.entity.check)
  let links ← Writing.check
    (Checked.ofEntity (step.links.foldlM (addLink keyed index step.entity) []))
  match step.operation with
  | .insert =>
    let handling :=
      match keyed.lookup index with
      | some name => .capture name
      | none => .omit
    b.writeInsert step.entity links handling
  | .update => b.writeUpdate step.entity none links
  | .delete => b.writeDelete step.entity links

/-- Writes all steps. -/
def writeSteps (b : Builder) (steps : List BatchStep) : Writing (List String) :=
  steps.zipIdx.mapM fun (step, index) => b.writeStep (b.keyVariables steps) step index

/-- Writes a variable, with the parameter that hands it out where there is one. -/
def writeVariable (b : Builder) (name : String) : Writing WrittenVariable :=
  if b.dialect.returnsKeyInParameter then do
    let output ← Writing.bindOutput .integer
    pure ⟨name, some output⟩
  else pure ⟨name, none⟩

/-- Writes a batch. -/
def writeBatch (b : Builder) (steps : List BatchStep) : Writing String := do
  if steps.isEmpty then Writing.check (.error (.invalidEntity .emptyBatch))
  let keyed := b.keyVariables steps
  let _ ← Writing.check (Checked.ofEntity (checkLinks steps keyed))
  let fragments ← b.writeSteps steps
  let keyVariables ← (keyed.map Prod.snd).mapM b.writeVariable
  pure (b.dialect.writeBatch ⟨keyVariables, fragments⟩)

end RecordSql.Builder
