import LiquidityBand.Json.Codec
import LiquidityBand.Toml.Document

/-!
# Planning parameters from a TOML document

* `Config.ofToml` reads planning parameters from the keys of a document and checks them. Keys of
  other names are ignored, and a missing one has its usual value.
-/

namespace LiquidityBand.Config

/-- The parameter of a field in a table: an integer that its form allows. -/
def parameter? (t : Toml.Table) (field : Json.Field) : Option Int :=
  match t.get? field.name with
  | none => field.default?
  | some (.value (some z)) => if field.form.allows z then some z else none
  | some _ => none

/-- The parameters in a table. -/
def ofTable? (t : Toml.Table) : Option Config := do
  Json.configOfValues (← Json.config.shape.fields.mapM (parameter? t))

/-- The parameters in a document, if positions can be planned with them. -/
def ofToml (text : String) : Except PlanError Config :=
  match (Toml.parse? text).bind ofTable? with
  | none => .error .configText
  | some c => (c.validate.map fun _ => c).mapError PlanError.config

end LiquidityBand.Config
