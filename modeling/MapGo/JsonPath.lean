import MapGo.Json

/-! Paths into JSON values, by the keys of objects and the positions of arrays. -/
namespace MapGo.Json

inductive Step where
  | key (name : String)
  | index (position : Nat)
  deriving DecidableEq, Repr

def child : Json → Step → Option Json
  | .object entries, .key name => entries.lookup name
  | .array items, .index position => items[position]?
  | _, _ => none

/-- The value at the end of a path. -/
def follow (value : Json) (path : List Step) : Option Json := path.foldlM child value

variable {value node : Json} {path : List Step} {step : Step}

@[simp] theorem follow_nil : value.follow [] = some value := rfl

@[simp] theorem follow_cons : value.follow (step :: path) =
    (value.child step).bind fun next => next.follow path := rfl

/-- What children inherit, every value on a path has. -/
theorem follow_inherits {P : Json → Prop}
    (inherits : ∀ value step next, P value → value.child step = some next → P next)
    (start : P value) (found : value.follow path = some node) : P node := by
  induction path generalizing value with
  | nil =>
      obtain rfl := Option.some.inj found
      exact start
  | cons step rest ih =>
      obtain ⟨next, entered, onward⟩ := Option.bind_eq_some_iff.mp (follow_cons ▸ found)
      exact ih (inherits value step next start entered) onward

end MapGo.Json
