import RecordSql.Proofs.OwnedValues
import RecordSql.Proofs.WrittenRows

/-!
# Which links reach their field

A link puts the key of an earlier step in place of the value of a field. Whether it gets there is
decided twice, and neither time is anything refused.

* The links of a step are looked up by the name of the field, and the last link of a name is the
  one that is found. A link with another one of its field behind it is replaced.
* An operation looks links up for the fields that it owns: an insert for those that it may fill, an
  update for those that it may set and for the key, a delete for the key. A link of any other field
  is passed, and then nothing asks for it.

A fragment **gives** values to fields: the values of an insert, the assignments and the comparison
of an update, the comparison of a delete. What is given is read off the fragment, a field is given a
variable just when its link was looked up, and every link that can be looked up is.
-/

namespace RecordSql

open Checked

/-- The comparison that picks the row of a key. -/
def Written.comparison (w : Written) : Sql :=
  [.column .root w.field.columnName, .text " = "] ++ w.value

namespace Builder

variable {b : Builder} {e : Entity} {links : Links} {steps : List BatchStep} {step : BatchStep}
  {i : Nat} {sql : Sql} {s : Statement}

/-- A fragment that inserts a row of an entity and keeps its key in a variable. -/
def KeepsKeyIn (b : Builder) (e : Entity) (name : String) (fragment : Sql) : Prop :=
  ∃ key parts, e.key? = some key ∧
    fragment = b.dialect.insert parts (.capture [.name key.columnName] name)

/-! ## What is given -/

/-- The step that a link leads to keeps its key in the variable of the link. -/
theorem keepsKeyIn_stepBody (hi : steps[i]? = some step) (hcaptures : step.Captures)
    (hback : ∀ link ∈ step.links, LeadsBack steps i link)
    (h : b.stepBody (b.keyVariables steps) step i = .ok sql) :
    b.KeepsKeyIn step.entity (b.variableOf steps i) sql := by
  have hkept : (b.keyVariables steps).lookup i = some (b.variableOf steps i) :=
    lookup_keyVariables.2 ⟨⟨step, hi, hcaptures⟩, rfl⟩
  obtain ⟨hop, key, hkey, _⟩ := hcaptures
  obtain ⟨_, _, h⟩ := (stepBody_linked hback).1 h
  rw [hop] at h
  dsimp only at h
  obtain ⟨entries, _, _, rfl⟩ := insertBody_eq_ok.1 h
  have hcapture : b.keyReturn step.entity (handlingOf ((b.keyVariables steps).lookup i)) =
      .capture [.name key.columnName] (b.variableOf steps i) := by
    simp only [hkept, handlingOf, keyReturn, hkey]
  rw [hcapture]
  exact ⟨key, _, hkey, rfl⟩

end Builder

end RecordSql
