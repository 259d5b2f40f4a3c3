import Weave.Text.Basic

/-!
# Log events

What a run reports beside its result.

## Main definitions

* `Weave.Level`, `Weave.Event`.
-/

namespace Weave

/-- How serious an event is. -/
inductive Level where
  | info
  | warn
  | error
  deriving Repr, DecidableEq

/-- The name of a level. -/
def Level.name : Level → String
  | .info => "info"
  | .warn => "warn"
  | .error => "error"

/-- A message with named details. -/
structure Event where
  level : Level
  message : Text
  details : List (String × Text) := []
  deriving Repr, DecidableEq

end Weave
