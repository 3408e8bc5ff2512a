import Reckoner.Proofs.Expr.Arrangement
import Reckoner.Proofs.Expr.Embedding

/-!
# Operators behind calls

Inside a call every argument is read as it is read alone.  The function itself waits until
something behind the call makes it be placed, and an operator that follows its operand does not:
it is placed at once.  So such an operator behind a call belongs to the last argument of the
call, and is missing its operand if there are no arguments.
-/

namespace Reckoner
namespace Precedences

open Reckoner.Expr

variable {precedences : Precedences}

/-! ## Arguments -/

/-- Whatever is placed at the end of the tokens is placed by the end of the parentheses as well. -/
theorem placeInside_of_placeRest
    {placed waiting reversed : List Token}
    (placing : placeRest placed waiting = .ok reversed)
    (opening : String)
    (before below : List Token) :
    placeInside (placed ++ before) (waiting ++ ⟨.openParen, opening⟩ :: below) =
      .ok (reversed ++ before, ⟨.openParen, opening⟩ :: below) := by
  induction waiting generalizing placed with
  | nil =>
      obtain rfl := Except.ok.inj placing
      rfl
  | cons top waiting hypothesis =>
      rw [placeRest] at placing
      split at placing
      next applied =>
        have closed : top.kind ≠ .openParen := by
          intro opens
          rw [opens] at applied
          cases applied
        rw [List.cons_append, placeInside, if_neg closed]
        exact hypothesis placing
      next => cases placing

/-- What a comma or a closing parenthesis places behind tokens that are read alone is their tree. -/
theorem shiftAll_argument
    {tokens : List Token}
    {tree : Expr}
    {previous : Option Token}
    (parses : precedences.parse tokens = .ok tree)
    (expects : precedences.expectsOperand previous = true)
    (opening : String)
    (placed waiting : List Token) :
    ∃ state reversed,
      precedences.shiftAll ⟨placed, ⟨.openParen, opening⟩ :: waiting, previous⟩ tokens = .ok state ∧
        placeInside state.placed state.waiting =
          .ok (reversed ++ placed, ⟨.openParen, opening⟩ :: waiting) ∧
        tree.Fits precedences ∧ reversed.map Token.bare = tree.postorder.reverse := by
  obtain ⟨reversed, reorders, fits, same⟩ := parse_eq_ok_iff.1 parses
  unfold reversePostfix at reorders
  split at reorders
  next => cases reorders
  next state shifts =>
    have isGround := isGround_openParen expects opening placed waiting
    refine ⟨_, reversed, isGround.shiftAll shifts, ?_, fits, same⟩
    exact placeInside_of_placeRest reorders opening placed waiting

/-- Arguments of which each is read alone are placed one after the other by the end of the call. -/
theorem shiftAll_arguments
    {arguments : List (List Token)}
    {trees : List Expr}
    {previous : Option Token}
    (reads : List.Forall₂ (fun tokens tree => precedences.parse tokens = .ok tree) arguments trees)
    (expects : precedences.expectsOperand previous = true)
    (opening comma closing : String)
    (placed waiting rest : List Token) :
    ∃ reversed,
      precedences.shiftAll ⟨placed, ⟨.openParen, opening⟩ :: waiting, previous⟩
          ([⟨.comma, comma⟩].intercalate arguments ++ ⟨.closeParen, closing⟩ :: rest) =
        precedences.shiftAll ⟨reversed ++ placed, waiting, some ⟨.closeParen, closing⟩⟩ rest ∧
      FitsAll precedences trees ∧ reversed.map Token.bare = (postorderAll trees).reverse := by
  induction reads generalizing previous placed with
  | nil => exact ⟨[], rfl, trivial, rfl⟩
  | @cons first tree others behind parses later hypothesis =>
      obtain ⟨state, reversed, shifts, places, fits, same⟩ :=
        shiftAll_argument parses expects opening placed waiting
      cases later with
      | nil =>
          have closes : precedences.shift state ⟨.closeParen, closing⟩ =
              .ok ⟨reversed ++ placed, waiting, some ⟨.closeParen, closing⟩⟩ := by
            simp only [shift, places, List.tail_cons]
          refine ⟨reversed, ?_, ⟨fits, trivial⟩, by simp [postorderAll, same]⟩
          rw [List.intercalate_singleton, shiftAll_append shifts, shiftAll_cons closes]
      | cons _ _ =>
          have separates : precedences.shift state ⟨.comma, comma⟩ =
              .ok ⟨reversed ++ placed, ⟨.openParen, opening⟩ :: waiting, some ⟨.comma, comma⟩⟩ := by
            simp only [shift, places]
          have separated : precedences.expectsOperand (some ⟨.comma, comma⟩) = true := rfl
          obtain ⟨further, shiftsFurther, fitsFurther, sameFurther⟩ :=
            hypothesis separated (reversed ++ placed)
          refine ⟨further ++ reversed, ?_, ⟨fits, fitsFurther⟩, ?_⟩
          · rw [List.intercalate_cons_cons, List.append_assoc, List.append_assoc,
              shiftAll_append shifts, List.singleton_append, shiftAll_cons separates, shiftsFurther,
              List.append_assoc]
          · simp [postorderAll, same, sameFurther]

/-! ## Calls -/

/-- The tokens of a call with an operator behind it. -/
def trailedCall
    (mode operatorMode : Mode)
    (name opening comma closing operator : String)
    (arguments : List (List Token)) : List Token :=
  ⟨.function mode, name⟩ :: ⟨.openParen, opening⟩ ::
    ([⟨.comma, comma⟩].intercalate arguments ++
      [⟨.closeParen, closing⟩, ⟨.operator operatorMode, operator⟩])

section TrailedCall

variable {operator : String} {arguments : List (List Token)} {trees : List Expr}

/-- The function waits until the end, and so comes behind the operator. -/
theorem reversePostfix_trailedCall
    (after : precedences.fixity? operator = some .after)
    (reads : List.Forall₂ (fun tokens tree => precedences.parse tokens = .ok tree) arguments trees)
    (mode operatorMode : Mode)
    (name opening comma closing : String) :
    ∃ reversed,
      precedences.reversePostfix
          (trailedCall mode operatorMode name opening comma closing operator arguments) =
        .ok (⟨.function mode, name⟩ :: ⟨.operator operatorMode, operator⟩ ::
          (reversed ++ [.functionEnd])) ∧
      FitsAll precedences trees ∧ reversed.map Token.bare = (postorderAll trees).reverse := by
  have opened : precedences.expectsOperand (some ⟨.openParen, opening⟩) = true := rfl
  have closed : precedences.expectsOperand (some ⟨.closeParen, closing⟩) = false := rfl
  obtain ⟨reversed, shifts, fits, same⟩ := shiftAll_arguments reads opened opening comma closing
    [.functionEnd] [⟨.function mode, name⟩] [⟨.operator operatorMode, operator⟩]
  refine ⟨reversed, ?_, fits, same⟩
  rw [reversePostfix, trailedCall, shiftAll_cons rfl, shiftAll_cons rfl, shifts,
    shiftAll_cons (shift_after after closed _ _)]
  rfl

/-- An operator that follows its operand belongs to the last argument of the call in front of it;
behind a call without arguments it has no operand. -/
theorem parse_trailedCall
    (after : precedences.fixity? operator = some .after)
    (reads : List.Forall₂ (fun tokens tree => precedences.parse tokens = .ok tree) arguments trees)
    (mode operatorMode : Mode)
    (name opening comma closing : String) :
    precedences.parse
        (trailedCall mode operatorMode name opening comma closing operator arguments) =
      if trees = [] then .error (.missingOperand operator)
      else .ok (.call mode name (trees.modifyLast (.unary operatorMode operator .after))) := by
  obtain ⟨reversed, reorders, fits, same⟩ :=
    reversePostfix_trailedCall after reads mode operatorMode name opening comma closing
  cases trees using List.reverseRecOn with
  | nil =>
      obtain rfl : reversed = [] := List.map_eq_nil_iff.1 same
      obtain ⟨spec, known, fixity⟩ := fixity?_eq_some_iff.1 after
      have missing : precedences.buildReversed
          [⟨.function mode, name⟩, ⟨.operator operatorMode, operator⟩, .functionEnd] =
            .error (.missingOperand operator) := by
        simp [buildReversed, construct, constructArguments, constructOperand, known, fixity,
          Token.functionEnd]
      unfold trailedCall at reorders ⊢
      simp only [parse, reorders]
      exact missing
  | append_singleton front last _ =>
      have fitsLast : FitsAll precedences [.unary operatorMode operator .after last] :=
        ⟨⟨after, by decide, (fitsAll_append_iff.1 fits).2.1⟩, trivial⟩
      rw [if_neg (by simp), List.modifyLast_concat]
      refine parse_eq_ok_iff.2 ⟨_, reorders, ?_, ?_⟩
      · exact fitsAll_append_iff.2 ⟨(fitsAll_append_iff.1 fits).1, fitsLast⟩
      · rw [postorderAll_append, postorderAll, postorderAll, List.append_nil] at same
        simp [postorder, postorderAll, postorderAll_append, same, Token.bare_eq_iff]

end TrailedCall

/-- In `f(x, 1+2)!` the operator takes the sum, and not the call. -/
theorem parse_trailedCall_sum :
    sums.fixity? "!" = some .after ∧
      List.Forall₂ (fun tokens tree => sums.parse tokens = .ok tree)
        [[⟨.variable, "x"⟩], [⟨.number, "1"⟩, ⟨.operator .value, "+"⟩, ⟨.number, "2"⟩]]
        [.variable "x", .binary .value "+" (.number "1") (.number "2")] ∧
      sums.parse (trailedCall .tree .value "f" "(" "," ")" "!"
          [[⟨.variable, "x"⟩], [⟨.number, "1"⟩, ⟨.operator .value, "+"⟩, ⟨.number, "2"⟩]]) =
        .ok (.call .tree "f" [.variable "x",
          .unary .value "!" .after (.binary .value "+" (.number "1") (.number "2"))]) := by
  have after : sums.fixity? "!" = some .after := by decide
  have plus : sums.fixity? "+" = some .between := by decide
  have reads : List.Forall₂ (fun tokens tree => sums.parse tokens = .ok tree)
      [[⟨.variable, "x"⟩], [⟨.number, "1"⟩, ⟨.operator .value, "+"⟩, ⟨.number, "2"⟩]]
      [.variable "x", .binary .value "+" (.number "1") (.number "2")] :=
    .cons (parse_eq_ok_iff.2 ⟨_, rfl, trivial, rfl⟩)
      (.cons (parse_eq_ok_iff.2 ⟨_, rfl, ⟨plus, trivial, trivial⟩, rfl⟩) .nil)
  exact ⟨after, reads, parse_trailedCall after reads .tree .value "f" "(" "," ")"⟩

/-- Neither `f(1)!` nor `f()!` is read as the operator applied to the call. -/
theorem parse_trailedCall_misread :
    sums.fixity? "!" = some .after ∧
      sums.parse [⟨.number, "1"⟩] = .ok (.number "1") ∧
      sums.parse (trailedCall .value .value "f" "(" "," ")" "!" [[⟨.number, "1"⟩]]) ≠
        .ok (.unary .value "!" .after (.call .value "f" [.number "1"])) ∧
      sums.parse (trailedCall .value .value "f" "(" "," ")" "!" []) ≠
        .ok (.unary .value "!" .after (.call .value "f" [])) := by
  have after : sums.fixity? "!" = some .after := by decide
  refine ⟨after, parse_eq_ok_iff.2 ⟨_, rfl, trivial, rfl⟩, ?_, ?_⟩
  · have inside : sums.parse (trailedCall .value .value "f" "(" "," ")" "!" [[⟨.number, "1"⟩]]) =
        .ok (.call .value "f" [.unary .value "!" .after (.number "1")]) :=
      parse_eq_ok_iff.2 ⟨_, rfl, ⟨⟨after, by decide, trivial⟩, trivial⟩, rfl⟩
    rw [inside]
    simp
  · intro parses
    obtain ⟨_, reorders, _, same⟩ := parse_eq_ok_iff.1 parses
    obtain rfl := Except.ok.inj reorders
    exact absurd same (by decide)

end Precedences
end Reckoner
