import Reckoner.Proofs.Expr.Reordering

/-!
# Reading inside something larger

Tokens that are read alone are read in the same way above whatever has been placed and waits
already, if an operand is due there and nothing that arrives makes the tokens waiting there be
placed.  So much holds inside an open parenthesis and behind an operator that binds most loosely.
-/

namespace Reckoner
namespace Precedences

variable {precedences : Precedences}

/-- A reordering above what another one has placed and keeps waiting. -/
def Reordering.over (state ground : Reordering) : Reordering :=
  ⟨state.placed ++ ground.placed, state.waiting ++ ground.waiting,
    state.previous.or ground.previous⟩

/-- An operand is due, and no operator that arrives makes anything that waits be placed. -/
structure Reordering.IsGround (precedences : Precedences) (ground : Reordering) : Prop where
  expects : precedences.expectsOperand ground.previous = true
  stays : ∀ {name arriving}, precedences.specs.find? name = some arriving → ∀ placed,
    precedences.placeTighter arriving placed ground.waiting = .ok (placed, ground.waiting)

/-- Behind an opening parenthesis or a comma, everything below the parenthesis is left alone. -/
theorem isGround_openParen
    {previous : Option Token}
    (expects : precedences.expectsOperand previous = true)
    (opening : String)
    (placed waiting : List Token) :
    Reordering.IsGround precedences ⟨placed, ⟨.openParen, opening⟩ :: waiting, previous⟩ where
  expects := expects
  stays _ _ := rfl

section Over

variable {ground state next : Reordering}

theorem Reordering.IsGround.placeTighter
    (isGround : ground.IsGround precedences)
    {name : String}
    {arriving : OperatorSpec}
    (found : precedences.specs.find? name = some arriving)
    {placed waiting : List Token}
    {result : List Token × List Token}
    (placing : precedences.placeTighter arriving placed waiting = .ok result) :
    precedences.placeTighter arriving (placed ++ ground.placed) (waiting ++ ground.waiting) =
      .ok (result.1 ++ ground.placed, result.2 ++ ground.waiting) := by
  induction waiting generalizing placed with
  | nil =>
      obtain rfl := Except.ok.inj placing
      exact isGround.stays found _
  | cons top waiting hypothesis =>
      rw [Precedences.placeTighter] at placing
      rw [List.cons_append, Precedences.placeTighter]
      split at placing
      next =>
        split at placing
        next => cases placing
        next =>
          split at placing
          next stays =>
            obtain rfl := Except.ok.inj placing
            exact if_pos stays
          next moves =>
            rw [if_neg moves]
            exact hypothesis placing
      next => exact hypothesis placing
      next =>
        obtain rfl := Except.ok.inj placing
        rfl

/-- A parenthesis that is closed or continued was opened above the ground, and is still there. -/
theorem placeInside_over
    (ground : Reordering)
    {placed waiting : List Token}
    {result : List Token × List Token}
    (placing : placeInside placed waiting = .ok result) :
    placeInside (placed ++ ground.placed) (waiting ++ ground.waiting) =
        .ok (result.1 ++ ground.placed, result.2 ++ ground.waiting) ∧
      result.2 ≠ [] := by
  induction waiting generalizing placed with
  | nil => cases placing
  | cons top waiting hypothesis =>
      rw [placeInside] at placing
      rw [List.cons_append, placeInside]
      split at placing
      next opens =>
        obtain rfl := Except.ok.inj placing
        exact ⟨if_pos opens, List.cons_ne_nil _ _⟩
      next closed =>
        rw [if_neg closed]
        exact hypothesis placing

/-- Above the ground a sign is told from a difference as it is at the start. -/
theorem Reordering.IsGround.resolve
    (isGround : ground.IsGround precedences)
    (previous : Option Token)
    (token : Token) :
    precedences.resolve (previous.or ground.previous) token =
      precedences.resolve previous token := by
  cases previous with
  | some last => rfl
  | none =>
      have starts : precedences.expectsOperand none = true := rfl
      rw [Option.none_or, Precedences.resolve, Precedences.resolve, isGround.expects, starts]

theorem Reordering.IsGround.shift
    (isGround : ground.IsGround precedences)
    {token : Token}
    (step : precedences.shift state token = .ok next) :
    precedences.shift (state.over ground) token = .ok (next.over ground) := by
  unfold Precedences.shift at step ⊢
  cases tokenKind : token.kind with
  | number | «variable» | function mode | openParen | functionEnd | any | whitespace =>
      simp only [tokenKind] at step ⊢
      obtain rfl := Except.ok.inj step
      rfl
  | operator tokenMode =>
      simp only [tokenKind] at step ⊢
      have same : precedences.resolve (state.over ground).previous token =
          precedences.resolve state.previous token :=
        isGround.resolve state.previous token
      rw [same]
      cases found : precedences.spec (precedences.resolve state.previous token).lexeme with
      | error failure => simp [found] at step
      | ok arriving =>
          simp only [found] at step ⊢
          cases fixity : arriving.fixity with
          | after | before =>
              simp only [fixity] at step ⊢
              obtain rfl := Except.ok.inj step
              rfl
          | between =>
              simp only [fixity] at step ⊢
              split at step
              next => cases step
              next placed waiting placing =>
                obtain rfl := Except.ok.inj step
                have placingOver := isGround.placeTighter (spec_eq_ok_iff.1 found) placing
                simp only [Reordering.over, placingOver]
                rfl
  | closeParen =>
      simp only [tokenKind] at step ⊢
      split at step
      next => cases step
      next placed waiting placing =>
        obtain rfl := Except.ok.inj step
        obtain ⟨placingOver, nonempty⟩ := placeInside_over ground placing
        simp only [Reordering.over, placingOver, List.tail_append_of_ne_nil nonempty]
        rfl
  | comma =>
      simp only [tokenKind] at step ⊢
      split at step
      next => cases step
      next placed waiting placing =>
        obtain rfl := Except.ok.inj step
        obtain ⟨placingOver, _⟩ := placeInside_over ground placing
        simp only [Reordering.over, placingOver]
        rfl

/-- Tokens that can be taken in alone can be taken in above the ground, which stays as it is. -/
theorem Reordering.IsGround.shiftAll
    (isGround : ground.IsGround precedences)
    {tokens : List Token}
    (shifts : precedences.shiftAll state tokens = .ok next) :
    precedences.shiftAll (state.over ground) tokens = .ok (next.over ground) := by
  induction tokens generalizing state with
  | nil =>
      obtain rfl := Except.ok.inj shifts
      rfl
  | cons token rest hypothesis =>
      rw [Precedences.shiftAll] at shifts ⊢
      split at shifts
      next => cases shifts
      next middle step =>
        rw [isGround.shift step]
        exact hypothesis shifts

end Over

end Precedences
end Reckoner
