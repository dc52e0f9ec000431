import Pageweave.Proofs.Value.Fields
import Pageweave.Site
/-!
# What a context gives for a key

A context has three layers: what a request says of itself, the values that it brings along, and the model over both. A
key gives what the topmost layer has that knows it, and no layer knows other keys than its own. A model without values
leaves the layers below as they are.
-/
namespace Pageweave

variable {r : Request} {model : Value} {c : Context}

/-- What a request says of itself: the path, the headers, and the token if there is one. -/
def Request.ambient? (r : Request) (key : String) : Option Value :=
  if key = Names.requestPathKey then some (.string (if r.path = "" then "/" else r.path))
  else if key = Names.htmxKey then some r.htmx.toValue
  else if key = Names.tokenKey then r.token.map .string
  else none

/-- The fields of an object. -/
def Value.fields : Value → Fields
  | .object fields => fields
  | _ => []

/-- The model itself under its own key, if there are no fields to spread and it is not null. -/
def Value.whole? (model : Value) (key : String) : Option Value :=
  match model with
  | .object _ => none
  | .null => none
  | v => if key = Names.modelKey then some v else none

namespace Context

theorem get?_ofRequest (values : r.values.Ordered) (key : String) :
    Fields.get? key (ofRequest r) = (Fields.get? key r.values).or (r.ambient? key) := by
  have apart : Names.requestPathKey ≠ Names.htmxKey ∧ Names.requestPathKey ≠ Names.tokenKey ∧
      Names.htmxKey ≠ Names.tokenKey := by decide
  obtain ⟨path_htmx, path_token, htmx_token⟩ := apart
  unfold ofRequest Request.ambient? Request.shownPath
  rw [values.get?_merge]
  congr 1
  by_cases path : key = Names.requestPathKey
  · subst path
    cases r.token <;> simp [Fields.get?_insert, path_htmx, path_token]
  by_cases htmx : key = Names.htmxKey
  · subst htmx
    cases r.token <;> simp [Fields.get?_insert, Ne.symm path_htmx, htmx_token]
  cases r.token <;> simp [Fields.get?_insert, path, htmx]

theorem get?_mergeValue (fields : model.fields.Ordered) (c : Context) (key : String) :
    Fields.get? key (c.mergeValue model) =
      ((Fields.get? key model.fields).or (model.whole? key)).or (Fields.get? key c) := by
  cases model with
  | object fs =>
    have merged := Fields.Ordered.get?_merge fields key c
    simpa [mergeValue, Value.fields, Value.whole?] using merged
  | null => rfl
  | bool | number | string | array =>
    simp only [mergeValue, Fields.get?_insert, Value.fields, Value.whole?, Fields.get?_nil, Option.none_or]
    split <;> rfl

theorem ordered_ofRequest (r : Request) : Fields.Ordered (ofRequest r) := by
  refine Fields.Ordered.merge ?_ r.values
  have ambient := Fields.ordered_nil.insert Names.requestPathKey (.string r.shownPath)
  cases r.token with
  | none => exact ambient.insert _ _
  | some token => exact (ambient.insert _ _).insert _ _

theorem ordered_mergeValue (ordered : Fields.Ordered c) (model : Value) : Fields.Ordered (c.mergeValue model) := by
  cases model with
  | object fs => exact ordered.merge fs
  | null => exact ordered
  | bool | number | string | array => exact ordered.insert _ _

theorem mergeModel_value (model : Value) (c : Context) : mergeModel (.value model) c = (.ok (), c.mergeValue model) := rfl

theorem mergeModel_failing (text : String) (c : Context) :
    mergeModel (.failing text) c = (.error (.invalidModel (Model.reason text)), c) := rfl

end Context
end Pageweave
