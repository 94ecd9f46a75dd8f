import RecordSql.Builder.Request
import RecordSql.Writer.Aggregate
import RecordSql.Writer.Batch

/-!
# Answers

A request is answered by writing its statement along with an empty sink. Whether the statement needs
the symmetric key is what the sink says at the end, not what is found in the text.

The lists of pieces in `Builder` say what every answer consists of. They are the view to reason
about, and an answer is their text and their parameters.
-/

namespace RecordSql.Builder

/-- Finishes a statement, with the key management that it needs. -/
def finishText (b : Builder) (text : String) (σ : Sink) : Checked Answer :=
  if σ.usesEncryption then
    match b.config.encryption with
    | none => .error (.keysMissing none)
    | some keys => do
      let text ← b.dialect.writeWithKeys text keys
      pure ⟨text, σ.parameters⟩
  else .ok ⟨text, σ.parameters⟩

/-- Writes a statement about an entity that passes its check. -/
def writeAbout (e : Entity) (body : Writing String) : Writing String := do
  let _ ← Writing.check (Checked.ofEntity e.check)
  body

/-- Writes the statement of a request. -/
def writeBody (b : Builder) : Request → Writing String
  | .select e l => writeAbout e (b.writeSelect e l)
  | .count e l => writeAbout e (b.writeCount e l)
  | .selectByKey e => writeAbout e (b.writeSelectByKey e)
  | .selectByExample e combinator => writeAbout e (b.writeSelectByExample e combinator)
  | .insert e => writeAbout e (b.writeInsert e [] .return)
  | .update e => writeAbout e (b.writeUpdate e none [])
  | .updateProperties e names => writeAbout e (b.writeUpdate e (some names) [])
  | .delete e => writeAbout e (b.writeDelete e [])
  | .aggregate e a source => writeAbout e (b.writeAggregate e a source)
  | .batch steps => b.writeBatch steps

/-- Answers a request. -/
def answer (b : Builder) (r : Request) : Checked Answer := do
  let (text, σ) ← (b.writeBody r).run (.new b.dialect)
  b.finishText text σ

end RecordSql.Builder
