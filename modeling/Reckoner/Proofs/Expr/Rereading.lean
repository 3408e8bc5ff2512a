import Reckoner.Proofs.Expr.Reordering
import Reckoner.Proofs.Expr.Writing

/-!
# Reading a tree as it is rendered

The rendering of a tree puts every operator with one operand behind it, those too that are read in
front of it.  When the tokens of a rendering are read, such an operator still waits for an operand
although its own has been placed already.  As long as no operator arrives that binds tighter, it is
placed in time, and the tree comes out.  Otherwise it takes the whole of what follows along.
-/

namespace Reckoner

open Token

namespace Expr

/-- Whether the root of a tree is an operator in front of its operand. -/
def isLed : Expr → Bool
  | .unary _ _ .before _ => true
  | _ => false

/-- The operator or function of a tree that still waits when the tokens of the rendering have been
read. -/
def pending : Expr → List Token
  | .unary mode operator .before _ => [⟨.operator mode, operator⟩]
  | .call mode name _ => [⟨.function mode, name⟩]
  | _ => []

/-- The token with which the rendering of a tree ends. -/
def finish : Expr → Token
  | .number text => ⟨.number, text⟩
  | .variable name => ⟨.variable, name⟩
  | .unary mode operator _ _ => ⟨.operator mode, operator⟩
  | .binary .. | .call .. => closing

end Expr

namespace Precedences

/-- Whether the operator that waits behind a left operand takes an arriving one along. -/
def overtakes (precedences : Precedences) (left : Expr) (arriving : String) : Bool :=
  match left with
  | .unary _ waiting .before _ =>
      match precedences.specs.find? waiting, precedences.specs.find? arriving with
      | some outer, some inner => Absorbs (some outer.precedence) inner
      | _, _ => false
  | _ => false

end Precedences

namespace Expr

/-- Apply an operator not to a left operand but below the operator at its root. -/
def extend (mode : Mode) (operator : String) (right : Expr) : (left : Expr) → Expr
  | .unary outer name fixity operand =>
      .unary outer name fixity (.binary mode operator operand right)
  | left => .binary mode operator left right

mutual

/-- The tree that is read from the rendering of a tree. -/
def reread (precedences : Precedences) : Expr → Expr
  | .number text => .number text
  | .variable name => .variable name
  | .binary mode operator left right =>
      if precedences.overtakes left operator then
        extend mode operator (right.reread precedences) (left.reread precedences)
      else .binary mode operator (left.reread precedences) (right.reread precedences)
  | .unary mode operator fixity operand =>
      .unary mode operator fixity (operand.reread precedences)
  | .call mode name arguments => .call mode name (rereadAll precedences arguments)

/-- The trees that are read from the renderings of several trees. -/
def rereadAll (precedences : Precedences) : List Expr → List Expr
  | [] => []
  | first :: rest => first.reread precedences :: rereadAll precedences rest

end

/-- The postfix order of what has been placed when the tokens of the rendering have been read. -/
def settled (precedences : Precedences) : Expr → List Token
  | .unary _ _ .before operand => (operand.reread precedences).postorder
  | .call _ _ arguments => functionEnd :: postorderAll (rereadAll precedences arguments)
  | tree => (tree.reread precedences).postorder

/-- Read again, a tree has what settles first and what stays pending behind it. -/
theorem postorder_reread (precedences : Precedences) (tree : Expr) :
    (tree.reread precedences).postorder = tree.settled precedences ++ tree.pending := by
  match tree with
  | .number _ | .variable _ | .binary .. => simp [settled, pending]
  | .unary _ _ .between _ | .unary _ _ .after _ => simp [settled, pending]
  | .unary _ _ .before _ | .call .. => simp [settled, pending, reread, postorder]

mutual

/-- Whether a `-` between two operands follows an operator that is rendered behind its operand, so
that it looks like a sign. -/
def HidesMinus : Expr → Prop
  | .number _ => False
  | .variable _ => False
  | .binary _ operator left right =>
      (operator = "-" ∧ left.isLed = true) ∨ left.HidesMinus ∨ right.HidesMinus
  | .unary _ _ _ operand => operand.HidesMinus
  | .call _ _ arguments => HidesMinusAmong arguments

/-- Whether a `-` looks like a sign in some of several trees. -/
def HidesMinusAmong : List Expr → Prop
  | [] => False
  | first :: rest => first.HidesMinus ∨ HidesMinusAmong rest

end

mutual

/-- Whether some operator is taken along by the one behind its left operand. -/
def Regroups (precedences : Precedences) : Expr → Prop
  | .number _ => False
  | .variable _ => False
  | .binary _ operator left right =>
      precedences.overtakes left operator = true ∨ left.Regroups precedences ∨
        right.Regroups precedences
  | .unary _ _ _ operand => operand.Regroups precedences
  | .call _ _ arguments => RegroupsAmong precedences arguments

/-- Whether some operator of several trees is taken along. -/
def RegroupsAmong (precedences : Precedences) : List Expr → Prop
  | [] => False
  | first :: rest => first.Regroups precedences ∨ RegroupsAmong precedences rest

end

end Expr

namespace Precedences

open Reckoner.Expr

variable {precedences : Precedences}

/-! ## Taking in a rendering -/

theorem placeInside_closed
    {upper : List Token}
    (closed : ∀ token ∈ upper, token.kind ≠ .openParen)
    (placed waiting : List Token) :
    placeInside placed (upper ++ opening :: waiting) =
      .ok (upper.reverse ++ placed, opening :: waiting) := by
  induction upper generalizing placed with
  | nil => rfl
  | cons top upper hypothesis =>
      rw [List.cons_append, placeInside, if_neg (closed top List.mem_cons_self),
        hypothesis fun token member => closed token (List.mem_cons_of_mem _ member)]
      simp

/-- No parenthesis is pending. -/
theorem kind_ne_of_mem_pending {tree : Expr} : ∀ token ∈ tree.pending, token.kind ≠ .openParen := by
  intro token member
  unfold pending at member
  split at member
  next =>
    obtain rfl := List.mem_singleton.1 member
    simp
  next =>
    obtain rfl := List.mem_singleton.1 member
    simp
  next => cases member

/-- Behind a rendering an operand is expected exactly if the tree is led by an operator. -/
theorem expectsOperand_finish
    {tree : Expr}
    (fits : tree.Fits precedences)
    (notLed : tree.isLed = false) :
    precedences.expectsOperand (some tree.finish) = false := by
  match tree, fits with
  | .number _, _ | .variable _, _ | .binary .., _ | .call .., _ => rfl
  | .unary mode operator .after operand, ⟨found, _⟩ =>
      obtain ⟨spec, known, fixity⟩ := Option.map_eq_some_iff.1 found
      rw [finish, expectsOperand_operator known, fixity]
      rfl
  | .unary _ _ .between _, ⟨_, beside, _⟩ => exact absurd rfl beside

/-- Behind a tree that shows its minus, an operator is read as it is. -/
theorem resolve_finish
    {tree : Expr}
    {operator : String}
    (fits : tree.Fits precedences)
    (shown : ¬(operator = "-" ∧ tree.isLed = true))
    (mode : Mode) :
    precedences.resolve (some tree.finish) ⟨.operator mode, operator⟩ =
      ⟨.operator mode, operator⟩ := by
  by_cases led : tree.isLed = true
  · have other : operator ≠ "-" := fun minus => shown ⟨minus, led⟩
    simp [resolve, other]
  · exact resolve_eq_self (expectsOperand_finish fits (Bool.eq_false_iff.2 led)) _

/-- An arriving operator leaves what waits behind a left operand if it is taken along, and places it
otherwise. -/
theorem placeTighter_pending
    {left : Expr}
    {arriving : String}
    {spec : OperatorSpec}
    (fits : left.Fits precedences)
    (known : precedences.specs.find? arriving = some spec)
    (placed waiting : List Token) :
    precedences.placeTighter spec placed (left.pending ++ opening :: waiting) =
      if precedences.overtakes left arriving then .ok (placed, left.pending ++ opening :: waiting)
      else .ok (left.pending.reverse ++ placed, opening :: waiting) := by
  match left, fits with
  | .number _, _ | .variable _, _ | .binary .., _ | .call .., _ => rfl
  | .unary _ _ .after _, _ | .unary _ _ .between _, _ => rfl
  | .unary mode operator .before operand, ⟨found, _, _⟩ =>
      obtain ⟨outer, knownOuter, _⟩ := Option.map_eq_some_iff.1 found
      simp only [pending, overtakes, knownOuter, known, List.cons_append, List.nil_append,
        placeTighter, spec_eq_ok_iff.2 knownOuter, decide_eq_true_eq]
      rfl

theorem shiftAll_opening (placed waiting rest : List Token) (previous : Option Token) :
    precedences.shiftAll ⟨placed, waiting, previous⟩ (opening :: rest) =
      precedences.shiftAll ⟨placed, opening :: waiting, some opening⟩ rest :=
  shiftAll_cons rfl

/-- A closing parenthesis places everything back to its partner. -/
theorem shiftAll_closing
    {upper : List Token}
    (closed : ∀ token ∈ upper, token.kind ≠ .openParen)
    (placed waiting rest : List Token)
    (previous : Option Token) :
    precedences.shiftAll ⟨placed, upper ++ opening :: waiting, previous⟩ (closing :: rest) =
      precedences.shiftAll ⟨upper.reverse ++ placed, waiting, some closing⟩ rest := by
  refine shiftAll_cons ?_
  simp only [shift, closing, placeInside_closed closed, List.tail_cons]

/-- A comma places everything back to the open parenthesis. -/
theorem shiftAll_separator
    {upper : List Token}
    (closed : ∀ token ∈ upper, token.kind ≠ .openParen)
    (placed waiting rest : List Token)
    (previous : Option Token) :
    precedences.shiftAll ⟨placed, upper ++ opening :: waiting, previous⟩ (separator :: rest) =
      precedences.shiftAll ⟨upper.reverse ++ placed, opening :: waiting, some separator⟩ rest := by
  refine shiftAll_cons ?_
  simp only [shift, separator, placeInside_closed closed]

/-- An operator between two operands, behind the rendering of the left one. -/
theorem shiftAll_between
    {left : Expr}
    {mode : Mode}
    {operator : String}
    (fits : left.Fits precedences)
    (between : precedences.fixity? operator = some .between)
    (shown : ¬(operator = "-" ∧ left.isLed = true))
    (placed waiting rest : List Token) :
    precedences.shiftAll ⟨(left.settled precedences).reverse ++ placed,
        left.pending ++ opening :: waiting, some left.finish⟩ (⟨.operator mode, operator⟩ :: rest) =
      if precedences.overtakes left operator then
        precedences.shiftAll ⟨(left.settled precedences).reverse ++ placed,
          (⟨.operator mode, operator⟩ :: left.pending) ++ opening :: waiting,
          some ⟨.operator mode, operator⟩⟩ rest
      else
        precedences.shiftAll ⟨(left.reread precedences).postorder.reverse ++ placed,
          [⟨.operator mode, operator⟩] ++ opening :: waiting,
          some ⟨.operator mode, operator⟩⟩ rest := by
  obtain ⟨spec, known, fixity⟩ := Option.map_eq_some_iff.1 between
  have tighter := placeTighter_pending fits known
    ((left.settled precedences).reverse ++ placed) waiting
  split
  next overtakes =>
    rw [if_pos overtakes] at tighter
    refine shiftAll_cons ?_
    simp only [shift, resolve_finish fits shown mode, spec_eq_ok_iff.2 known, fixity, tighter,
      List.cons_append]
  next stays =>
    rw [if_neg stays] at tighter
    refine shiftAll_cons ?_
    simp only [shift, resolve_finish fits shown mode, spec_eq_ok_iff.2 known, fixity, tighter,
      postorder_reread, List.reverse_append, List.append_assoc, List.singleton_append]

/-- Only a leading operator can be overtaken. -/
theorem isLed_of_overtakes
    {left : Expr}
    {arriving : String}
    (overtakes : precedences.overtakes left arriving = true) :
    left.isLed = true := by
  unfold Precedences.overtakes at overtakes
  split at overtakes
  next => rfl
  next => cases overtakes

theorem settled_binary
    (mode : Mode)
    (operator : String)
    (left right : Expr) :
    (Expr.binary mode operator left right).settled precedences =
      ((Expr.binary mode operator left right).reread precedences).postorder := rfl

/-- What is taken over goes below the leading operator. -/
theorem postorder_extend
    {left : Expr}
    (led : left.isLed = true)
    (mode : Mode)
    (operator : String)
    (right : Expr) :
    (extend mode operator right (left.reread precedences)).postorder =
      left.settled precedences ++ right.postorder ++
          ⟨.operator mode, operator⟩ :: left.pending := by
  match left, led with
  | .unary _ _ .before _, _ => simp [reread, extend, settled, pending, postorder]

mutual

/-- Taking in the tokens of the rendering of a tree. -/
theorem shiftAll_written (placed waiting rest : List Token) (previous : Option Token) :
    ∀ tree : Expr, tree.Fits precedences → ¬tree.HidesMinus →
      precedences.shiftAll ⟨placed, waiting, previous⟩ (tree.written ++ rest) =
        precedences.shiftAll ⟨(tree.settled precedences).reverse ++ placed,
          tree.pending ++ waiting, some tree.finish⟩ rest
  | .number text, _, _ => shiftAll_cons rfl
  | .variable name, _, _ => shiftAll_cons rfl
  | .binary mode operator left right, ⟨between, fitsLeft, fitsRight⟩, shown => by
      simp only [HidesMinus, not_or] at shown
      obtain ⟨shownHere, shownLeft, shownRight⟩ := shown
      rw [written_binary_append, shiftAll_opening, shiftAll_written _ _ _ _ left fitsLeft shownLeft,
        shiftAll_between fitsLeft between shownHere]
      have joined (upper : List Token) : right.pending ++ (upper ++ opening :: waiting) =
          (right.pending ++ upper) ++ opening :: waiting :=
        (List.append_assoc _ _ _).symm
      split
      -- the operator waits on top of the one in front of the left operand, and is placed before it
      next overtakes =>
        have closed : ∀ token ∈ right.pending ++ ⟨.operator mode, operator⟩ :: left.pending,
            token.kind ≠ .openParen :=
          List.forall_mem_append.2 ⟨kind_ne_of_mem_pending,
            List.forall_mem_cons.2 ⟨by simp, kind_ne_of_mem_pending⟩⟩
        rw [shiftAll_written _ _ _ _ right fitsRight shownRight, joined, shiftAll_closing closed,
          settled_binary, reread, if_pos overtakes,
          postorder_extend (isLed_of_overtakes overtakes), postorder_reread]
        simp [pending, finish]
      -- the left operand is complete when the operator arrives
      next stays =>
        have closed : ∀ token ∈ right.pending ++ [⟨.operator mode, operator⟩],
            token.kind ≠ .openParen :=
          List.forall_mem_append.2 ⟨kind_ne_of_mem_pending, List.forall_mem_singleton.2 (by simp)⟩
        rw [shiftAll_written _ _ _ _ right fitsRight shownRight, joined, shiftAll_closing closed,
          settled_binary, reread, if_neg stays, postorder, postorder_reread _ right]
        simp [pending, finish]
  | .unary mode operator fixity operand, ⟨found, beside, fits⟩, shown => by
      obtain ⟨spec, known, same⟩ := Option.map_eq_some_iff.1 found
      have reads : precedences.resolve (some closing) ⟨.operator mode, operator⟩ =
          ⟨.operator mode, operator⟩ :=
        resolve_eq_self rfl _
      rw [written_unary_append, shiftAll_opening, shiftAll_written _ _ _ _ operand fits shown,
        shiftAll_closing kind_ne_of_mem_pending]
      cases fixity with
      | between => exact absurd rfl beside
      | before =>
          have step (before : List Token) :
              precedences.shift ⟨before, waiting, some closing⟩ ⟨.operator mode, operator⟩ =
                .ok ⟨before, ⟨.operator mode, operator⟩ :: waiting,
                  some ⟨.operator mode, operator⟩⟩ := by
            simp only [shift, reads, spec_eq_ok_iff.2 known, same]
          rw [shiftAll_cons (step _)]
          simp [settled, postorder_reread _ operand, pending, finish]
      | after =>
          have step (before : List Token) :
              precedences.shift ⟨before, waiting, some closing⟩ ⟨.operator mode, operator⟩ =
                .ok ⟨⟨.operator mode, operator⟩ :: before, waiting,
                  some ⟨.operator mode, operator⟩⟩ := by
            simp only [shift, reads, spec_eq_ok_iff.2 known, same]
          rw [shiftAll_cons (step _)]
          simp [settled, reread, postorder, postorder_reread _ operand, pending, finish]
  | .call mode name arguments, fits, shown => by
      have step : precedences.shift ⟨placed, waiting, previous⟩ ⟨.function mode, name⟩ =
          .ok ⟨functionEnd :: placed, ⟨.function mode, name⟩ :: waiting,
            some ⟨.function mode, name⟩⟩ := rfl
      rw [written_call_append, shiftAll_cons step, shiftAll_opening,
        shiftAll_writtenAll _ _ _ _ arguments fits shown]
      simp [settled, pending, finish]

/-- Taking in the arguments of a call up to the parenthesis that closes it. -/
theorem shiftAll_writtenAll (placed waiting rest : List Token) (previous : Option Token) :
    ∀ trees : List Expr, FitsAll precedences trees → ¬HidesMinusAmong trees →
      precedences.shiftAll ⟨placed, opening :: waiting, previous⟩
          (writeAll (fun _ => false) trees ++ closing :: rest) =
        precedences.shiftAll ⟨(postorderAll (rereadAll precedences trees)).reverse ++ placed,
          waiting, some closing⟩ rest
  | [], _, _ => shiftAll_cons rfl
  | [last], ⟨fits, _⟩, shown => by
      simp only [HidesMinusAmong, or_false] at shown
      rw [writeAll, ← written, shiftAll_written _ _ _ _ last fits shown,
        shiftAll_closing kind_ne_of_mem_pending]
      simp [rereadAll, postorderAll, postorder_reread]
  | first :: next :: others, ⟨fits, fitsOthers⟩, shown => by
      rw [HidesMinusAmong, not_or] at shown
      rw [writeAll_cons_append, ← written,
        shiftAll_written _ _ _ _ first fits shown.1, shiftAll_separator kind_ne_of_mem_pending,
        shiftAll_writtenAll _ _ _ _ (next :: others) fitsOthers shown.2]
      have settledAll : postorderAll (rereadAll precedences (first :: next :: others)) =
          (first.settled precedences ++ first.pending) ++
            postorderAll (rereadAll precedences (next :: others)) := by
        rw [rereadAll, postorderAll, postorder_reread]
      rw [settledAll]
      simp

end

mutual

/-- A tree that fits still does when it is read again. -/
theorem fits_reread :
    ∀ tree : Expr, tree.Fits precedences → (tree.reread precedences).Fits precedences
  | .number _, _ => trivial
  | .variable _, _ => trivial
  | .binary mode operator left right, ⟨between, fitsLeft, fitsRight⟩ => by
      have rereadLeft := fits_reread left fitsLeft
      have rereadRight := fits_reread right fitsRight
      rw [reread]
      split
      next overtakes =>
        match left, isLed_of_overtakes overtakes, rereadLeft with
        | .unary _ _ .before operand, _, ⟨found, beside, fits⟩ =>
            exact ⟨found, beside, between, fits, rereadRight⟩
      next => exact ⟨between, rereadLeft, rereadRight⟩
  | .unary _ _ _ operand, ⟨found, beside, fits⟩ => ⟨found, beside, fits_reread operand fits⟩
  | .call _ _ arguments, fits => fitsAll_reread arguments fits

theorem fitsAll_reread : ∀ trees : List Expr,
    FitsAll precedences trees → FitsAll precedences (rereadAll precedences trees)
  | [], _ => trivial
  | first :: rest, ⟨fits, others⟩ => ⟨fits_reread first fits, fitsAll_reread rest others⟩

end

/-- The tokens of a rendering are read as the tree, regrouped where an operator takes the next one
along. -/
theorem parse_written
    {tree : Expr}
    (fits : tree.Fits precedences)
    (shown : ¬tree.HidesMinus) :
    precedences.parse tree.written = .ok (tree.reread precedences) := by
  have shifts := shiftAll_written [] [] [] none tree fits shown
  simp only [List.append_nil, shiftAll] at shifts
  have rest : placeRest (tree.settled precedences).reverse tree.pending =
      .ok (tree.reread precedences).postorder.reverse := by
    rw [postorder_reread]
    cases tree with
    | number | «variable» | binary => simp [pending, placeRest]
    | unary _ _ fixity =>
        cases fixity <;> simp [pending, placeRest, TokenKind.isOperator, TokenKind.isFunction]
    | call => simp [pending, placeRest, TokenKind.isOperator, TokenKind.isFunction]
  refine parse_eq_ok_iff.2
    ⟨(tree.reread precedences).postorder.reverse, ?_, fits_reread tree fits, ?_⟩
  · rw [reversePostfix, shifts]
    exact rest
  · rw [List.map_reverse, map_bare_postorder]

/-! ## When a rendering is read as its tree -/

/-- A tree that is overtaken is never the one that was written. -/
theorem extend_ne_binary
    {left : Expr}
    (led : left.isLed = true)
    (mode : Mode)
    (operator : String)
    (right : Expr)
    (tree : Expr × Expr) :
    extend mode operator right (left.reread precedences) ≠
      .binary mode operator tree.1 tree.2 := by
  match left, led with
  | .unary _ _ .before _, _ => simp [reread, extend]

mutual

/-- A tree comes out of its rendering if and only if nothing is regrouped. -/
theorem reread_eq_self_iff : ∀ tree : Expr,
    tree.reread precedences = tree ↔ ¬tree.Regroups precedences
  | .number _ => by simp [reread, Regroups]
  | .variable _ => by simp [reread, Regroups]
  | .binary mode operator left right => by
      rw [reread, Regroups, not_or, not_or]
      split
      next overtakes =>
        have moved : extend mode operator (right.reread precedences) (left.reread precedences) ≠
            .binary mode operator left right :=
          extend_ne_binary (isLed_of_overtakes overtakes) _ _ _ (left, right)
        exact ⟨fun same => absurd same moved, fun stays => absurd overtakes stays.1⟩
      next stays =>
        rw [Expr.binary.injEq, reread_eq_self_iff left, reread_eq_self_iff right]
        simp [stays]
  | .unary mode operator fixity operand => by
      rw [reread, Regroups, Expr.unary.injEq, reread_eq_self_iff operand]
      simp
  | .call mode name arguments => by
      rw [reread, Regroups, Expr.call.injEq, rereadAll_eq_self_iff arguments]
      simp

/-- Arguments are read as written exactly when none regroups. -/
theorem rereadAll_eq_self_iff : ∀ trees : List Expr,
    rereadAll precedences trees = trees ↔ ¬RegroupsAmong precedences trees
  | [] => by simp [rereadAll, RegroupsAmong]
  | first :: rest => by
      rw [rereadAll, RegroupsAmong, List.cons.injEq, reread_eq_self_iff first,
        rereadAll_eq_self_iff rest, not_or]

end

/-- Whether a token is an operator that may be read as a sign. -/
def isDash (token : Token) : Bool :=
  token.kind.isOperator && token.lexeme == "-"

/-- Reading changes nothing, or there are fewer dashes afterwards. -/
theorem countP_isDash_readAll (previous : Option Token) (tokens : List Token) :
    precedences.readAll previous tokens = tokens ∨
      (precedences.readAll previous tokens).countP isDash < tokens.countP isDash := by
  have dashes (previous : Option Token) (tokens : List Token) :
      (precedences.readAll previous tokens).countP isDash ≤ tokens.countP isDash := by
    induction tokens generalizing previous with
    | nil => exact Nat.le_refl 0
    | cons token rest hypothesis =>
        rw [readAll, List.countP_cons, List.countP_cons]
        refine Nat.add_le_add (hypothesis _) ?_
        rcases precedences.readAfter_eq_or previous token with same | ⟨_, _, sign⟩
        · rw [same]
        · simp [sign, isDash, negation]
  induction tokens generalizing previous with
  | nil => exact Or.inl rfl
  | cons token rest hypothesis =>
      rw [readAll, List.countP_cons, List.countP_cons]
      rcases precedences.readAfter_eq_or previous token with same | ⟨dash, operator, sign⟩
      · rw [same]
        rcases hypothesis (some token) with fixed | fewer
        · exact Or.inl (by rw [fixed])
        · exact Or.inr (by omega)
      · have before : isDash token = true := by simp [isDash, dash, operator]
        have after : isDash (precedences.readAfter previous token) = false := by
          simp [sign, isDash, negation]
        have others := dashes (some (precedences.readAfter previous token)) rest
        rw [before, after]
        exact Or.inr (by simp; omega)

/-- Tokens that are read with nothing lost are read as they are. -/
theorem readAll_eq_self_of_perm
    {previous : Option Token}
    {tokens : List Token}
    (kept : (tokens.filter isContent).Perm
      ((precedences.readAll previous tokens).filter isContent)) :
    precedences.readAll previous tokens = tokens := by
  have content (tokens : List Token) :
      (tokens.filter isContent).countP isDash = tokens.countP isDash := by
    rw [List.countP_filter]
    refine List.countP_congr fun token _ => ?_
    unfold isDash isContent TokenKind.isOperator
    grind
  have same := kept.countP_eq isDash
  rw [content, content] at same
  rcases precedences.countP_isDash_readAll previous tokens with fixed | fewer
  · exact fixed
  · omega

theorem readAll_cons_eq_self_iff
    {previous : Option Token}
    {token : Token}
    {rest : List Token} :
    precedences.readAll previous (token :: rest) = token :: rest ↔
      precedences.readAfter previous token = token ∧
        precedences.readAll (some token) rest = rest := by
  rw [readAll, List.cons.injEq]
  exact and_congr_right fun same => by rw [same]

/-- A dash behind a tree that is led by an operator is read as a sign. -/
theorem not_isLed_of_readAfter
    {tree : Expr}
    (fits : tree.Fits precedences)
    {mode : Mode}
    (same : precedences.readAfter (some tree.finish) ⟨.operator mode, "-"⟩ =
      ⟨.operator mode, "-"⟩) :
    tree.isLed = false := by
  match tree, fits with
  | .number _, _ | .variable _, _ | .binary .., _ | .call .., _ => rfl
  | .unary _ _ .after _, _ | .unary _ _ .between _, _ => rfl
  | .unary _ operator .before _, ⟨found, _, _⟩ =>
      obtain ⟨spec, known, fixity⟩ := Option.map_eq_some_iff.1 found
      simp [readAfter, TokenKind.isOperator, resolve, finish, expectsOperand_operator known, fixity,
        negation] at same

mutual

/-- If no token of a rendering is read as a sign, then none looks like one. -/
theorem not_hidesMinus_of_readAll (previous : Option Token) (rest : List Token) : ∀ tree : Expr,
    tree.Fits precedences →
      precedences.readAll previous (tree.written ++ rest) = tree.written ++ rest →
        ¬tree.HidesMinus ∧ precedences.readAll (some tree.finish) rest = rest
  | .number _, _, same => ⟨id, (readAll_cons_eq_self_iff.1 same).2⟩
  | .variable _, _, same => ⟨id, (readAll_cons_eq_self_iff.1 same).2⟩
  | .binary mode operator left right, ⟨_, fitsLeft, fitsRight⟩, same => by
      rw [written_binary_append, readAll_cons_eq_self_iff] at same
      obtain ⟨shownLeft, sameOperator⟩ := not_hidesMinus_of_readAll _ _ left fitsLeft same.2
      obtain ⟨asItIs, sameRight⟩ := readAll_cons_eq_self_iff.1 sameOperator
      obtain ⟨shownRight, sameRest⟩ := not_hidesMinus_of_readAll _ _ right fitsRight sameRight
      refine ⟨?_, (readAll_cons_eq_self_iff.1 sameRest).2⟩
      rintro (⟨rfl, led⟩ | hiddenLeft | hiddenRight)
      · rw [not_isLed_of_readAfter fitsLeft asItIs] at led
        cases led
      · exact shownLeft hiddenLeft
      · exact shownRight hiddenRight
  | .unary mode operator fixity operand, ⟨_, _, fits⟩, same => by
      rw [written_unary_append, readAll_cons_eq_self_iff] at same
      obtain ⟨shown, sameRest⟩ := not_hidesMinus_of_readAll _ _ operand fits same.2
      exact ⟨shown, (readAll_cons_eq_self_iff.1 (readAll_cons_eq_self_iff.1 sameRest).2).2⟩
  | .call mode name arguments, fits, same => by
      rw [written_call_append, readAll_cons_eq_self_iff, readAll_cons_eq_self_iff] at same
      exact not_hidesMinusAmong_of_readAll _ _ arguments fits same.2.2

theorem not_hidesMinusAmong_of_readAll (previous : Option Token) (rest : List Token) :
    ∀ trees : List Expr, FitsAll precedences trees →
      precedences.readAll previous (writeAll (fun _ => false) trees ++ closing :: rest) =
          writeAll (fun _ => false) trees ++ closing :: rest →
        ¬HidesMinusAmong trees ∧ precedences.readAll (some closing) rest = rest
  | [], _, same => ⟨id, (readAll_cons_eq_self_iff.1 same).2⟩
  | [last], ⟨fits, _⟩, same => by
      rw [writeAll, ← written] at same
      obtain ⟨shown, sameRest⟩ := not_hidesMinus_of_readAll _ _ last fits same
      refine ⟨?_, (readAll_cons_eq_self_iff.1 sameRest).2⟩
      rintro (hidden | none)
      · exact shown hidden
      · exact none
  | first :: next :: others, ⟨fits, fitsOthers⟩, same => by
      rw [writeAll_cons_append, ← written] at same
      obtain ⟨shown, sameSeparator⟩ := not_hidesMinus_of_readAll _ _ first fits same
      obtain ⟨shownOthers, sameRest⟩ := not_hidesMinusAmong_of_readAll _ _ (next :: others)
        fitsOthers (readAll_cons_eq_self_iff.1 sameSeparator).2
      refine ⟨?_, sameRest⟩
      rintro (hidden | hiddenOthers)
      · exact shown hidden
      · exact shownOthers hiddenOthers

end

/-- The tokens of a rendering are read as the tree if and only if no operator is taken for a sign
and none is taken along by the one in front of it. -/
theorem parse_written_eq_self_iff
    {tree : Expr}
    (fits : tree.Fits precedences) :
    precedences.parse tree.written = .ok tree ↔
      ¬tree.HidesMinus ∧ ¬tree.Regroups precedences := by
  constructor
  · intro parses
    obtain ⟨_, _, content⟩ := keeps_of_parse parses
    have same : precedences.readAll none tree.written = tree.written :=
      readAll_eq_self_of_perm ((perm_write tree).symm.trans content)
    have shown : ¬tree.HidesMinus :=
      (not_hidesMinus_of_readAll none [] tree fits (by simpa using same)).1
    have read := parse_written fits shown
    rw [parses, Except.ok.injEq] at read
    exact ⟨shown, (reread_eq_self_iff tree).1 read.symm⟩
  · rintro ⟨shown, stays⟩
    rw [parse_written fits shown, (reread_eq_self_iff tree).2 stays]

end Precedences
end Reckoner
