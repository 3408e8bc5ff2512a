import Reckoner.Proofs.Evaluation.Completion
import Reckoner.Proofs.Evaluation.Factorials
import Reckoner.Proofs.Standard.AgreeingRegistry

/-!
# Standard calculations that complete

A calculation that completes gives a result with the standard registry, whatever has been evaluated
before.  The values that are kept in between are the factorials and the logarithm of two.
-/

namespace Reckoner
namespace Standard

open Run

variable {α : Type}

/-- With the standard registry and without cancellation a calculation gives a value under every
limit that is large enough, whatever earlier evaluations have left in the caches. -/
def Gives (run : Calc α) (value : α) : Prop :=
  ∃ bound, ∀ limit ≥ bound, ∀ caches, Fills caches →
    ∃ after, run limit ⟨.never, caches⟩ = (.ok value, ⟨.never, after⟩)

/-- What completes from sound caches gives a good value after every evaluation, if evaluations
leave such caches. -/
theorem gives_of_sound
    {sound : Caches → Prop}
    {run : Calc α}
    {good : α → Prop}
    (filled : ∀ caches, Fills caches → sound caches)
    (completes : Completes sound run good) :
    ∃ value, good value ∧ Gives run value := by
  obtain ⟨value, holds, bound, runs⟩ := completes
  refine ⟨value, holds, bound, fun limit above caches fills => ?_⟩
  obtain ⟨after, -, same⟩ := runs limit above caches (filled caches fills)
  exact ⟨after, same⟩

/-- What completes from caches whose tables are in order gives a good value after every
evaluation. -/
theorem gives_of_completes
    {run : Calc α}
    {good : α → Prop}
    (completes : Completes Caches.AreTables run good) :
    ∃ value, good value ∧ Gives run value :=
  gives_of_sound (fun _ fills => fills.keeps.1) completes

theorem gives_of_completes_eq
    {run : Calc α}
    {value : α}
    (completes : Completes Caches.AreTables run (· = value)) :
    Gives run value := by
  obtain ⟨_, rfl, gives⟩ := gives_of_completes completes
  exact gives

/-- What is kept of pi makes no difference to a steady calculation that completes without it. -/
theorem completes_keeps
    {run : Calc α}
    {good : α → Prop}
    (steady : Steady (registry.Keeps Caches.AreTables) run)
    (completes : Completes Caches.AreTables run good) :
    Completes (registry.Keeps Caches.AreTables) run good := by
  obtain ⟨value, holds, bound, runs⟩ := completes
  obtain ⟨_, -, same⟩ := runs bound le_rfl .empty Caches.areTables_empty
  have obtained : Obtains (registry.Keeps Caches.AreTables) run value :=
    ⟨bound, ⟨.never, .empty⟩, registry.keeps_empty Caches.areTables_empty, by rw [same]⟩
  exact ⟨value, holds, obtained.settles steady⟩

open Nat in
/-- The table of factorials gives exact factorials. -/
theorem completes_factorial (number : Nat) :
    Completes Caches.AreTables (Calc.factorial .precise number)
      (· = .precise (.ofInt (number ! : Nat))) :=
  .factorial Caches.guards_areTables.toGuardsFactorials (Caches.factorialOf_precise number)

/-- The logarithm of two is kept when its series has given it once. -/
theorem completes_lnTwo
    {kind : NumberKind}
    {good : Number → Prop}
    (completes : Completes Caches.AreTables (Elementary.lnTwoSeries kind) good) :
    Completes Caches.AreTables (Elementary.lnTwo kind) good := by
  rw [Elementary.lnTwo_eq_remember]
  exact completes.remember ⟨.empty, Caches.areTables_empty⟩
    (Elementary.remembers_lnTwo Caches.guards_areTables kind)

end Standard
end Reckoner
