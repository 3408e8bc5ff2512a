import Reckoner.Proofs.Standard.Pi
import Reckoner.Proofs.Standard.Precise

/-!
# Angles that the sine is worked out for

The sine has a series for angles of at most a quarter turn.  Whole turns are taken off an angle
before, as many as a rounded quotient counts, and what is left is folded.  The quotient has 65
digits: an angle of fewer turns than that is reduced as it should, and beyond, what is left may
be any number of turns.
-/

namespace Reckoner
namespace Trigonometry

open Elementary Run Decimal

/-! ## Reducing an angle -/

open Standard

end Trigonometry
end Reckoner
