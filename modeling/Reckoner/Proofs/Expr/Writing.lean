import Reckoner.Proofs.Expr.Conservation

/-!
# Trees as they are written

A tree is written with parentheses around every operator and its operands.  Where an operator with
one operand stands is a matter of choice: the order in which the tree is read back puts it on the
side that its fixity says, and the rendering puts it behind its operand in any case.
-/

namespace Reckoner
namespace Token

/-- The parenthesis in front of a group. -/
def opening : Token :=
  ⟨.openParen, "("⟩

/-- The parenthesis behind a group. -/
def closing : Token :=
  ⟨.closeParen, ")"⟩

/-- What stands between two arguments. -/
def separator : Token :=
  ⟨.comma, ","⟩

@[simp] theorem isContent_opening : opening.isContent = false := rfl

@[simp] theorem isContent_closing : closing.isContent = false := rfl

@[simp] theorem isContent_separator : separator.isContent = false := rfl

@[simp] theorem isContent_operator (mode : Mode) (operator : String) :
    isContent ⟨.operator mode, operator⟩ = true := rfl

@[simp] theorem isContent_function (mode : Mode) (name : String) :
    isContent ⟨.function mode, name⟩ = true := rfl

end Token

open Token

namespace Expr

mutual

/-- The tokens of a tree with parentheses around every operator; an operator with one operand stands
in front of it if `leads` says so of its fixity. -/
def write (leads : Fixity → Bool) : Expr → List Token
  | .number text => [⟨.number, text⟩]
  | .variable name => [⟨.variable, name⟩]
  | .binary mode operator left right =>
      opening :: (left.write leads ++ ⟨.operator mode, operator⟩ ::
          (right.write leads ++ [closing]))
  | .unary mode operator fixity operand =>
      if leads fixity then ⟨.operator mode, operator⟩ :: opening ::
          (operand.write leads ++ [closing])
      else opening :: (operand.write leads ++ [closing, ⟨.operator mode, operator⟩])
  | .call mode name arguments =>
      ⟨.function mode, name⟩ :: opening :: (writeAll leads arguments ++ [closing])

/-- The tokens of the arguments of a call. -/
def writeAll (leads : Fixity → Bool) : List Expr → List Token
  | [] => []
  | [last] => last.write leads
  | first :: next :: rest => first.write leads ++ separator :: writeAll leads (next :: rest)

end

/-- The tokens of a tree in the order in which they are read. -/
def inorder (tree : Expr) : List Token :=
  tree.write (· = .before)

/-- The tokens of the rendering of a tree, in which no operator stands in front of its operand. -/
def written (tree : Expr) : List Token :=
  tree.write fun _ => false

theorem written_binary_append
    (mode : Mode)
    (operator : String)
    (left right : Expr)
    (rest : List Token) :
    (binary mode operator left right).written ++ rest =
      opening :: (left.written ++ ⟨.operator mode, operator⟩ ::
        (right.written ++ closing :: rest)) := by
  simp [written, write]

theorem written_unary_append
    (mode : Mode)
    (operator : String)
    (fixity : Fixity)
    (operand : Expr)
    (rest : List Token) :
    (unary mode operator fixity operand).written ++ rest =
      opening :: (operand.written ++ closing :: ⟨.operator mode, operator⟩ :: rest) := by
  simp [written, write]

theorem written_call_append
    (mode : Mode)
    (name : String)
    (arguments : List Expr)
    (rest : List Token) :
    (call mode name arguments).written ++ rest =
      ⟨.function mode, name⟩ :: opening ::
        (writeAll (fun _ => false) arguments ++ closing :: rest) := by
  simp [written, write]

theorem writeAll_cons_append
    (leads : Fixity → Bool)
    (first next : Expr)
    (others : List Expr)
    (rest : List Token) :
    writeAll leads (first :: next :: others) ++ rest =
      first.write leads ++ separator :: (writeAll leads (next :: others) ++ rest) := by
  simp [writeAll]

variable {leads : Fixity → Bool}

mutual

/-- Writing a tree in one order or the other takes the same numbers, variables, functions and
operators. -/
theorem count_write (token : Token) : ∀ tree : Expr,
    ((tree.write leads).filter isContent).count token =
      (tree.postorder.filter isContent).count token
  | .number _ => rfl
  | .variable _ => rfl
  | .binary mode operator left right => by
      simp only [write, postorder, List.filter_append, List.filter_cons, List.filter_nil,
        isContent_opening, isContent_closing, isContent_operator, Bool.false_eq_true, ↓reduceIte,
        List.count_append, List.count_cons, List.count_nil, count_write token left,
        count_write token right]
      omega
  | .unary mode operator fixity operand => by
      rw [write]
      split
      next =>
        simp only [postorder, List.filter_append, List.filter_cons, List.filter_nil,
          isContent_opening, isContent_closing, isContent_operator, Bool.false_eq_true, ↓reduceIte,
          List.count_append, List.count_cons, List.count_nil, count_write token operand]
        omega
      next =>
        simp only [postorder, List.filter_append, List.filter_cons, List.filter_nil,
          isContent_opening, isContent_closing, isContent_operator, Bool.false_eq_true, ↓reduceIte,
          List.count_append, count_write token operand]
  | .call mode name arguments => by
      simp only [write, postorder, List.filter_append, List.filter_cons, List.filter_nil,
        isContent_opening, isContent_closing, isContent_function, isContent_functionEnd,
        Bool.false_eq_true, ↓reduceIte, List.count_append, List.count_cons, List.count_nil,
        count_writeAll token arguments]
      omega

/-- Written arguments have the content of their postorders. -/
theorem count_writeAll (token : Token) : ∀ trees : List Expr,
    ((writeAll leads trees).filter isContent).count token =
      ((postorderAll trees).filter isContent).count token
  | [] => rfl
  | [last] => by simp [writeAll, postorderAll, count_write token last]
  | first :: next :: rest => by
      rw [writeAll, postorderAll, List.filter_append, List.count_append, List.filter_append,
        List.count_append, count_write token first, List.filter_cons_of_neg (by simp),
        count_writeAll token (next :: rest)]

end

mutual

/-- Whatever does not become a node in what is written is a parenthesis or a comma. -/
theorem mem_of_mem_write
    {token : Token}
    (blank : token.isContent = false) : ∀ tree : Expr,
      token ∈ tree.write leads → token ∈ [opening, closing, separator]
  | .number _, member => by
      obtain rfl := List.mem_singleton.1 member
      cases blank
  | .variable _, member => by
      obtain rfl := List.mem_singleton.1 member
      cases blank
  | .binary mode operator left right, member => by
      simp only [write, List.mem_cons, List.mem_append, List.not_mem_nil, or_false] at member
      rcases member with rfl | inLeft | rfl | inRight | rfl
      · simp
      · exact mem_of_mem_write blank left inLeft
      · cases blank
      · exact mem_of_mem_write blank right inRight
      · simp
  | .unary mode operator fixity operand, member => by
      rw [write] at member
      split at member
      next =>
        simp only [List.mem_cons, List.mem_append, List.not_mem_nil, or_false] at member
        rcases member with rfl | rfl | inside | rfl
        · cases blank
        · simp
        · exact mem_of_mem_write blank operand inside
        · simp
      next =>
        simp only [List.mem_cons, List.mem_append, List.not_mem_nil, or_false] at member
        rcases member with rfl | inside | rfl | rfl
        · simp
        · exact mem_of_mem_write blank operand inside
        · simp
        · cases blank
  | .call mode name arguments, member => by
      simp only [write, List.mem_cons, List.mem_append, List.not_mem_nil, or_false] at member
      rcases member with rfl | rfl | inside | rfl
      · cases blank
      · simp
      · exact mem_of_mem_writeAll blank arguments inside
      · simp

/-- What is written beyond the content are parentheses and separators. -/
theorem mem_of_mem_writeAll
    {token : Token}
    (blank : token.isContent = false) : ∀ trees : List Expr,
      token ∈ writeAll leads trees → token ∈ [opening, closing, separator]
  | [last], member => mem_of_mem_write blank last member
  | first :: next :: rest, member => by
      rw [writeAll, List.mem_append, List.mem_cons] at member
      rcases member with inFirst | rfl | later
      · exact mem_of_mem_write blank first inFirst
      · simp
      · exact mem_of_mem_writeAll blank (next :: rest) later

end

/-- A written tree has the content of its postorder. -/
theorem perm_write (tree : Expr) :
    (tree.postorder.filter isContent).Perm ((tree.write leads).filter isContent) :=
  List.perm_iff_count.2 fun token => (count_write token tree).symm

end Expr
end Reckoner
