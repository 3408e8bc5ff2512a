import Reckoner.Standard.Trigonometry

/-!
# The standard functions
-/

namespace Reckoner
namespace Standard

open Trigonometry

/-- The functions of one number: their names, the arguments that they admit, and what they do. -/
def functions : List (String × (Number → Bool) × (Library → Number → Calc Number)) :=
  let any : Number → Bool := fun _ => true
  [("abs", any, fun _ number => pure number.abs),
    ("exp", any, fun _ => Elementary.exp),
    ("ln", fun number => 0 < number.signum, fun _ => Elementary.ln),
    ("sqrt", fun number => 0 ≤ number.signum, fun _ => Elementary.sqrt),
    ("sin", any, sin),
    ("cos", any, cos),
    ("tan", any, tan),
    ("sec", any, sec),
    ("csc", any, csc),
    ("cot", any, cot),
    ("arcsin", withinUnit, arcsin),
    ("arccos", withinUnit, arccos),
    ("arctan", any, arctan),
    ("arcsec", outsideUnit, arcsec),
    ("arccsc", outsideUnit, arccsc),
    ("arccot", any, arccot)]

end Standard
end Reckoner
