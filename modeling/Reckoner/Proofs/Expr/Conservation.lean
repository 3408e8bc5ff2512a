import Reckoner.Proofs.Expr.Postorder

/-!
# What reordering keeps

Reordering drops parentheses and commas and adds marks.  Everything else it only moves: the numbers,
variables, functions and operators that come out are the ones that went in, every sign being read as
the negation.  Operators in front of their operand or between two operands may end up in another
place.  All other tokens stay in their order, a mark standing for the function whose arguments it
opens.
-/

namespace Reckoner

/-- Whether a token becomes a node of a tree. -/
def Token.isContent (token : Token) : Bool :=
  match token.kind with
  | .number | .variable | .operator _ | .function _ => true
  | _ => false

@[simp] theorem Token.isContent_functionEnd : Token.functionEnd.isContent = false := rfl

theorem Token.bare_of_isContent
    {token : Token}
    (content : token.isContent = true) :
    token.bare = token := by
  refine (bare_eq_iff ?_).2 rfl
  intro marked
  simp [isContent, marked] at content

/-- Dropping the text of marks touches no content. -/
theorem Token.isContent_bare (token : Token) : token.bare.isContent = token.isContent := by
  by_cases marked : token.kind = .functionEnd
  · simp [bare, marked, isContent, functionEnd]
  · rw [(bare_eq_iff marked).2 rfl]

namespace Precedences

variable {precedences : Precedences}

/-! ## Tokens as they are read -/

/-- A token as it is read after `previous`. -/
def readAfter (precedences : Precedences) (previous : Option Token) (token : Token) : Token :=
  if token.kind.isOperator then precedences.resolve previous token else token

/-- Tokens as they are read one after the other, the first of them after `previous`. -/
def readAll (precedences : Precedences) : (previous : Option Token) → List Token → List Token
  | _, [] => []
  | previous, token :: rest =>
      let read := precedences.readAfter previous token
      read :: readAll precedences (some read) rest

/-- A token is read as itself unless it is a sign, which is an operator and stays one. -/
theorem readAfter_eq_or (previous : Option Token) (token : Token) :
    precedences.readAfter previous token = token ∨
      (token.lexeme = "-" ∧ token.kind.isOperator = true ∧
        precedences.readAfter previous token = ⟨.operator .value, negation⟩) := by
  unfold readAfter resolve
  grind

/-- Reading tokens one after the other only turns some of them into signs. -/
theorem mem_or_eq_of_mem_readAll
    {previous : Option Token}
    {tokens : List Token}
    {token : Token}
    (member : token ∈ precedences.readAll previous tokens) :
    token ∈ tokens ∨ token = ⟨.operator .value, negation⟩ := by
  induction tokens generalizing previous with
  | nil => cases member
  | cons first rest hypothesis =>
      rcases List.mem_cons.1 member with rfl | later
      · rcases precedences.readAfter_eq_or previous first with same | ⟨_, _, sign⟩
        · rw [same]
          exact Or.inl List.mem_cons_self
        · exact Or.inr sign
      · exact (hypothesis later).imp_left (List.mem_cons_of_mem first)

/-- Reading tokens leaves as many that become nodes. -/
theorem countP_isContent_readAll (previous : Option Token) (tokens : List Token) :
    (precedences.readAll previous tokens).countP Token.isContent =
      tokens.countP Token.isContent := by
  have same (previous : Option Token) (token : Token) :
      (precedences.readAfter previous token).isContent = token.isContent := by
    rcases precedences.readAfter_eq_or previous token with same | ⟨_, operator, sign⟩
    · rw [same]
    · rw [sign]
      unfold TokenKind.isOperator at operator
      unfold Token.isContent
      grind
  induction tokens generalizing previous with
  | nil => rfl
  | cons token rest hypothesis =>
      rw [readAll, List.countP_cons, List.countP_cons, hypothesis, same]

/-! ## Order -/

/-- Whether a token keeps its place among the others that do. -/
def staysPut (precedences : Precedences) (token : Token) : Bool :=
  match token.kind with
  | .number | .variable | .function _ => true
  | .operator _ => precedences.fixity? token.lexeme == some .after
  | _ => false

/-- The tokens that keep their place among tokens in postfix order given last to first, each
function at its mark.  `pending` are the functions whose marks are still to come, latest first. -/
def backbone (precedences : Precedences) : (pending tokens : List Token) → List Token
  | _, [] => []
  | pending, token :: rest =>
      match token.kind with
      | .function _ => backbone precedences (token :: pending) rest
      | .functionEnd => pending.head?.toList ++ backbone precedences pending.tail rest
      | _ =>
          if precedences.staysPut token then token :: backbone precedences pending rest
          else backbone precedences pending rest

theorem backbone_function
    {token : Token}
    (function : token.kind.isFunction = true)
    (pending rest : List Token) :
    precedences.backbone pending (token :: rest) =
      precedences.backbone (token :: pending) rest := by
  rw [backbone]
  split
  next => rfl
  next kind => simp [kind, TokenKind.isFunction] at function
  next other _ =>
    unfold TokenKind.isFunction at function
    split at function
    next mode kind => exact absurd kind (other mode)
    next => cases function

theorem backbone_functionEnd
    {mark : Token}
    (marked : mark.kind = .functionEnd)
    (function : Token)
    (pending rest : List Token) :
    precedences.backbone (function :: pending) (mark :: rest) =
      function :: precedences.backbone pending rest := by
  simp [backbone, marked]

/-- A token that is neither a function nor a mark counts if it keeps its place. -/
theorem backbone_cons
    {token : Token}
    (notFunction : token.kind.isFunction = false)
    (unmarked : token.kind ≠ .functionEnd)
    (pending rest : List Token) :
    precedences.backbone pending (token :: rest) =
      [token].filter precedences.staysPut ++ precedences.backbone pending rest := by
  rw [backbone]
  split
  next kind => simp [kind, TokenKind.isFunction] at notFunction
  next kind => exact absurd kind unmarked
  next =>
    split
    next stays => simp [stays]
    next moves => simp [moves]

theorem backbone_map_bare (pending tokens : List Token) :
    precedences.backbone pending (tokens.map Token.bare) =
      precedences.backbone pending tokens := by
  induction tokens generalizing pending with
  | nil => rfl
  | cons token rest hypothesis =>
      by_cases marked : token.kind = .functionEnd
      · simp [backbone, marked, Token.bare, hypothesis, Token.functionEnd]
      · rw [List.map_cons, (Token.bare_eq_iff marked).2 rfl]
        simp only [backbone, hypothesis]

/-! ## Nesting -/

/-- How many parentheses are open after a token, if it may stand where so many are: a comma has to
stand inside parentheses, and a closing one needs its opening one. -/
def nest (depth : Nat) (token : Token) : Option Nat :=
  match token.kind with
  | .openParen => some (depth + 1)
  | .closeParen => if depth = 0 then none else some (depth - 1)
  | .comma => if depth = 0 then none else some depth
  | _ => some depth

/-- Every parenthesis has its partner, and every comma stands inside a pair. -/
def IsNested (tokens : List Token) : Prop :=
  tokens.foldlM nest 0 = some 0

instance (tokens : List Token) : Decidable (IsNested tokens) :=
  inferInstanceAs (Decidable (_ = _))

/-- Reading a minus as a sign leaves the nesting alone. -/
theorem nest_readAfter (depth : Nat) (previous : Option Token) (token : Token) :
    nest depth (precedences.readAfter previous token) = nest depth token := by
  rcases precedences.readAfter_eq_or previous token with same | ⟨_, operator, negated⟩
  · rw [same]
  · rw [negated]
    unfold nest
    cases kind : token.kind <;> simp_all [TokenKind.isOperator]

theorem foldlM_nest_readAll (depth : Nat) (previous : Option Token) (tokens : List Token) :
    (precedences.readAll previous tokens).foldlM nest depth = tokens.foldlM nest depth := by
  induction tokens generalizing depth previous with
  | nil => rfl
  | cons token rest hypothesis =>
      simp only [readAll, List.foldlM_cons, nest_readAfter, hypothesis]

/-! ## One step -/

/-- A token that can wait: an open parenthesis, a function, or an operator that does not follow its
operand. -/
def MayWait (precedences : Precedences) (token : Token) : Prop :=
  match token.kind with
  | .openParen | .function _ => True
  | .operator _ => precedences.fixity? token.lexeme ≠ some .after
  | _ => False

theorem mayWait_openParen (precedences : Precedences) (opening : String) :
    precedences.MayWait ⟨.openParen, opening⟩ := trivial

/-- What waits, other than a function, is moved. -/
theorem MayWait.staysPut
    {token : Token}
    (waits : precedences.MayWait token)
    (notFunction : token.kind.isFunction = false) :
    precedences.staysPut token = false := by
  unfold MayWait at waits
  unfold Precedences.staysPut
  cases kind : token.kind <;> simp_all [TokenKind.isFunction]

theorem MayWait.kind_ne
    {token : Token}
    (waits : precedences.MayWait token) :
    token.kind ≠ .functionEnd := by
  intro kind
  simp [MayWait, kind] at waits

/-- Whether a token opens a parenthesis. -/
def isOpening (token : Token) : Bool :=
  token.kind == .openParen

/-- A state that holds everything that has been taken in, which is given as it was read. -/
structure Keeps (precedences : Precedences) (taken : List Token) (state : Reordering) : Prop where
  waits : ∀ token ∈ state.waiting, precedences.MayWait token
  order : precedences.backbone (state.waiting.filter (·.kind.isFunction)) state.placed =
    (taken.filter precedences.staysPut).reverse
  content : ((state.waiting ++ state.placed).filter Token.isContent).Perm
    (taken.filter Token.isContent)
  nesting : taken.foldlM nest 0 = some (state.waiting.countP isOpening)

theorem keeps_start (precedences : Precedences) : precedences.Keeps [] ⟨[], [], none⟩ where
  waits := by simp
  order := rfl
  content := .refl _
  nesting := rfl

/-- A waiting operator or function is placed. -/
theorem Keeps.place
    {taken placed waiting : List Token}
    {top : Token}
    {previous : Option Token}
    (keeps : precedences.Keeps taken ⟨placed, top :: waiting, previous⟩)
    (closed : top.kind ≠ .openParen) :
    precedences.Keeps taken ⟨top :: placed, waiting, previous⟩ where
  waits token member := keeps.waits token (List.mem_cons_of_mem _ member)
  order := by
    have order := keeps.order
    have waits := keeps.waits top List.mem_cons_self
    cases function : top.kind.isFunction with
    | true =>
        rw [backbone_function function, ← order]
        simp [function]
    | false =>
        rw [backbone_cons function waits.kind_ne, ← order]
        simp [function, waits.staysPut function]
  content := by
    refine List.Perm.trans (List.Perm.filter _ ?_) keeps.content
    exact List.perm_middle
  nesting := by
    have opening : isOpening top = false := by simpa [isOpening] using closed
    rw [keeps.nesting]
    simp [opening]

/-- Placing tighter operators loses nothing. -/
theorem Keeps.placeTighter
    {taken placed waiting : List Token}
    {previous : Option Token}
    {arriving : OperatorSpec}
    {result : List Token × List Token}
    (keeps : precedences.Keeps taken ⟨placed, waiting, previous⟩)
    (placing : precedences.placeTighter arriving placed waiting = .ok result) :
    precedences.Keeps taken ⟨result.1, result.2, previous⟩ := by
  induction waiting generalizing placed with
  | nil =>
      rw [Precedences.placeTighter] at placing
      obtain rfl := Except.ok.inj placing
      exact keeps
  | cons top waiting hypothesis =>
      rw [Precedences.placeTighter] at placing
      split at placing
      next kind =>
        split at placing
        next => cases placing
        next =>
          split at placing
          next =>
            obtain rfl := Except.ok.inj placing
            exact keeps
          next => exact hypothesis (keeps.place (by simp [kind])) placing
      next kind => exact hypothesis (keeps.place (by simp [kind])) placing
      next =>
        obtain rfl := Except.ok.inj placing
        exact keeps

/-- Closing a parenthesis loses nothing. -/
theorem Keeps.placeInside
    {taken placed waiting : List Token}
    {previous : Option Token}
    {result : List Token × List Token}
    (keeps : precedences.Keeps taken ⟨placed, waiting, previous⟩)
    (placing : Precedences.placeInside placed waiting = .ok result) :
    precedences.Keeps taken ⟨result.1, result.2, previous⟩ ∧
      ∃ opening below, result.2 = opening :: below ∧ opening.kind = .openParen := by
  induction waiting generalizing placed with
  | nil => cases placing
  | cons top waiting hypothesis =>
      rw [Precedences.placeInside] at placing
      split at placing
      next kind =>
        obtain rfl := Except.ok.inj placing
        exact ⟨keeps, top, waiting, rfl, kind⟩
      next closed => exact hypothesis (keeps.place closed) placing

/-- Placing the rest loses nothing. -/
theorem Keeps.placeRest
    {taken placed waiting reversed : List Token}
    {previous : Option Token}
    (keeps : precedences.Keeps taken ⟨placed, waiting, previous⟩)
    (placing : Precedences.placeRest placed waiting = .ok reversed) :
    precedences.Keeps taken ⟨reversed, [], previous⟩ := by
  induction waiting generalizing placed with
  | nil =>
      obtain rfl := Except.ok.inj placing
      exact keeps
  | cons top waiting hypothesis =>
      rw [Precedences.placeRest] at placing
      split at placing
      next applied =>
        refine hypothesis (keeps.place ?_) placing
        intro kind
        simp [kind, TokenKind.isOperator, TokenKind.isFunction] at applied
      next => cases placing

/-- One more token among those that are held. -/
theorem content_snoc
    {taken held more : List Token}
    {token : Token}
    (content : (held.filter Token.isContent).Perm (taken.filter Token.isContent))
    (added : (more.filter Token.isContent).Perm ((token :: held).filter Token.isContent)) :
    (more.filter Token.isContent).Perm ((taken ++ [token]).filter Token.isContent) := by
  refine added.trans ?_
  rw [← List.singleton_append, List.filter_append, List.filter_append]
  exact List.perm_append_comm.trans (content.append_right _)

theorem foldlM_nest_snoc
    {taken : List Token}
    {depth : Nat}
    (nesting : taken.foldlM nest 0 = some depth)
    (token : Token) :
    (taken ++ [token]).foldlM nest 0 = nest depth token := by
  rw [List.foldlM_append, nesting]
  simp

/-- A token that is placed at once. -/
theorem Keeps.placeNow
    {taken placed waiting : List Token}
    {token : Token}
    {before : Option Token}
    (keeps : precedences.Keeps taken ⟨placed, waiting, before⟩)
    (stays : precedences.staysPut token = true)
    (notFunction : token.kind.isFunction = false)
    (after : Option Token) :
    precedences.Keeps (taken ++ [token]) ⟨token :: placed, waiting, after⟩ where
  waits := keeps.waits
  order := by
    have unmarked : token.kind ≠ .functionEnd := by
      intro kind
      simp [staysPut, kind] at stays
    rw [backbone_cons notFunction unmarked, keeps.order]
    simp [stays]
  content := content_snoc keeps.content (List.perm_middle.filter _)
  nesting := by
    rw [foldlM_nest_snoc keeps.nesting]
    unfold nest
    cases kind : token.kind <;> simp_all [staysPut]

/-- A token that has to wait and is not a function. -/
theorem Keeps.wait
    {taken placed waiting : List Token}
    {token : Token}
    {before : Option Token}
    (keeps : precedences.Keeps taken ⟨placed, waiting, before⟩)
    (waits : precedences.MayWait token)
    (notFunction : token.kind.isFunction = false)
    (after : Option Token) :
    precedences.Keeps (taken ++ [token]) ⟨placed, token :: waiting, after⟩ where
  waits := by
    intro other member
    rcases List.mem_cons.1 member with rfl | earlier
    · exact waits
    · exact keeps.waits other earlier
  order := by
    have order := keeps.order
    simpa [notFunction, waits.staysPut notFunction] using order
  content := content_snoc keeps.content (.refl _)
  nesting := by
    rw [foldlM_nest_snoc keeps.nesting]
    unfold nest
    cases kind : token.kind <;> simp_all [MayWait, isOpening, TokenKind.isFunction]

/-- A function, which waits while its mark is placed. -/
theorem Keeps.call
    {taken placed waiting : List Token}
    {token : Token}
    {before : Option Token}
    (keeps : precedences.Keeps taken ⟨placed, waiting, before⟩)
    (function : token.kind.isFunction = true)
    (after : Option Token) :
    precedences.Keeps (taken ++ [token]) ⟨.functionEnd :: placed, token :: waiting, after⟩ where
  waits := by
    intro other member
    rcases List.mem_cons.1 member with rfl | earlier
    · cases kind : other.kind <;> simp_all [TokenKind.isFunction, MayWait]
    · exact keeps.waits other earlier
  order := by
    have order := keeps.order
    have stays : precedences.staysPut token = true := by
      cases kind : token.kind <;> simp_all [TokenKind.isFunction, staysPut]
    have functions : (token :: waiting).filter (·.kind.isFunction) =
        token :: waiting.filter (·.kind.isFunction) :=
      List.filter_cons_of_pos function
    rw [functions, backbone_functionEnd rfl, order]
    simp [stays]
  content := content_snoc keeps.content (by simp [List.filter_cons])
  nesting := by
    rw [foldlM_nest_snoc keeps.nesting]
    unfold nest
    cases kind : token.kind <;> simp_all [TokenKind.isFunction, isOpening]

/-- A token that is neither placed nor waits. -/
theorem Keeps.skip
    {taken placed waiting : List Token}
    {token : Token}
    {before : Option Token}
    (keeps : precedences.Keeps taken ⟨placed, waiting, before⟩)
    (moves : precedences.staysPut token = false)
    (dropped : token.isContent = false)
    (nesting : nest (waiting.countP isOpening) token = some (waiting.countP isOpening))
    (after : Option Token) :
    precedences.Keeps (taken ++ [token]) ⟨placed, waiting, after⟩ where
  waits := keeps.waits
  order := by simpa [moves] using keeps.order
  content := by simpa [dropped] using keeps.content
  nesting := by rw [foldlM_nest_snoc keeps.nesting, nesting]

/-- A closing parenthesis whose partner is on top. -/
theorem Keeps.close
    {taken placed waiting : List Token}
    {opening : Token}
    {before : Option Token}
    (keeps : precedences.Keeps taken ⟨placed, opening :: waiting, before⟩)
    (opens : opening.kind = .openParen)
    (closing : String)
    (after : Option Token) :
    precedences.Keeps (taken ++ [⟨.closeParen, closing⟩]) ⟨placed, waiting, after⟩ where
  waits token member := keeps.waits token (List.mem_cons_of_mem _ member)
  order := by
    have order := keeps.order
    simpa [opens, TokenKind.isFunction, staysPut] using order
  content := by
    have content := keeps.content
    simpa [Token.isContent, opens] using content
  nesting := by
    rw [foldlM_nest_snoc keeps.nesting]
    simp [nest, isOpening, opens]

/-- What a step keeps when it takes in an operator. -/
theorem Keeps.shift_operator
    {taken placed waiting : List Token}
    {mode : Mode}
    {operator : String}
    {previous : Option Token}
    {next : Reordering}
    (keeps : precedences.Keeps taken ⟨placed, waiting, previous⟩)
    (shifts : precedences.shift ⟨placed, waiting, previous⟩ ⟨.operator mode, operator⟩ = .ok next) :
    precedences.Keeps (taken ++ [precedences.readAfter previous ⟨.operator mode, operator⟩]) next ∧
      next.previous = some (precedences.readAfter previous ⟨.operator mode, operator⟩) := by
  obtain ⟨mode, operator, same⟩ : ∃ other name,
      precedences.readAfter previous ⟨.operator mode, operator⟩ = ⟨.operator other, name⟩ := by
    rcases precedences.readAfter_eq_or previous ⟨.operator mode, operator⟩ with same | ⟨_, _, same⟩
    · exact ⟨_, _, same⟩
    · exact ⟨_, _, same⟩
  have resolved : precedences.resolve previous _ = _ := same
  rw [same]
  rw [Precedences.shift] at shifts
  simp only [resolved] at shifts
  split at shifts
  next => cases shifts
  next spec known =>
    have fixity : precedences.fixity? operator = some spec.fixity :=
      fixity?_eq_some_iff.2 ⟨spec, known, rfl⟩
    split at shifts
    next after =>
      obtain rfl := Except.ok.inj shifts
      exact ⟨keeps.placeNow (by simp [staysPut, fixity, after]) rfl _, rfl⟩
    next before =>
      obtain rfl := Except.ok.inj shifts
      exact ⟨keeps.wait (by simp [MayWait, fixity, before]) rfl _, rfl⟩
    next between =>
      split at shifts
      next => cases shifts
      next placing =>
        obtain rfl := Except.ok.inj shifts
        have placed := keeps.placeTighter placing
        exact ⟨placed.wait (by simp [MayWait, fixity, between]) rfl _, rfl⟩

/-- What a step keeps. -/
theorem Keeps.shift
    {taken : List Token}
    {state next : Reordering}
    {token : Token}
    (keeps : precedences.Keeps taken state)
    (shifts : precedences.shift state token = .ok next) :
    precedences.Keeps (taken ++ [precedences.readAfter state.previous token]) next ∧
      next.previous = some (precedences.readAfter state.previous token) := by
  obtain ⟨placed, waiting, previous⟩ := state
  obtain ⟨kind, lexeme⟩ := token
  cases kind with
  | number | «variable» =>
      obtain rfl := Except.ok.inj shifts
      exact ⟨keeps.placeNow rfl rfl _, rfl⟩
  | function mode =>
      obtain rfl := Except.ok.inj shifts
      exact ⟨keeps.call rfl _, rfl⟩
  | operator mode => exact keeps.shift_operator shifts
  | openParen =>
      obtain rfl := Except.ok.inj shifts
      exact ⟨keeps.wait (precedences.mayWait_openParen lexeme) rfl _, rfl⟩
  | closeParen =>
      simp only [Precedences.shift] at shifts
      split at shifts
      next => cases shifts
      next placing =>
        obtain rfl := Except.ok.inj shifts
        obtain ⟨placed, opening, below, rfl, opens⟩ := keeps.placeInside placing
        exact ⟨placed.close opens _ _, rfl⟩
  | comma =>
      simp only [Precedences.shift] at shifts
      split at shifts
      next => cases shifts
      next placing =>
        obtain rfl := Except.ok.inj shifts
        obtain ⟨placed, opening, below, rfl, opens⟩ := keeps.placeInside placing
        have inside : nest ((opening :: below).countP isOpening) ⟨.comma, lexeme⟩ =
            some ((opening :: below).countP isOpening) := by
          simp [nest, isOpening, opens]
        exact ⟨placed.skip rfl rfl inside _, rfl⟩
  | functionEnd | any | whitespace =>
      obtain rfl := Except.ok.inj shifts
      exact ⟨keeps.skip rfl rfl rfl _, rfl⟩

/-! ## Whole runs -/

/-- A run of shifts loses nothing. -/
theorem Keeps.shiftAll
    {taken : List Token}
    {state final : Reordering}
    {tokens : List Token}
    (keeps : precedences.Keeps taken state)
    (shifts : precedences.shiftAll state tokens = .ok final) :
    precedences.Keeps (taken ++ precedences.readAll state.previous tokens) final := by
  induction tokens generalizing taken state with
  | nil =>
      obtain rfl := Except.ok.inj shifts
      simpa [readAll] using keeps
  | cons token rest hypothesis =>
      rw [Precedences.shiftAll] at shifts
      split at shifts
      next => cases shifts
      next next step =>
        obtain ⟨kept, previous⟩ := keeps.shift step
        have all := hypothesis kept shifts
        rw [previous, List.append_assoc, List.singleton_append] at all
        exact all

/-- Reordering loses nothing. -/
theorem keeps_of_reversePostfix
    {tokens reversed : List Token}
    (reorders : precedences.reversePostfix tokens = .ok reversed) :
    ∃ previous, precedences.Keeps (precedences.readAll none tokens) ⟨reversed, [], previous⟩ := by
  unfold reversePostfix at reorders
  split at reorders
  next => cases reorders
  next final shifts =>
    have kept := precedences.keeps_start.shiftAll shifts
    exact ⟨_, kept.placeRest reorders⟩

/-! ## Trees -/

/-- A parse is a reordering and the tree of its postorder. -/
theorem parse_eq_ok_iff {tokens : List Token} {tree : Expr} :
    precedences.parse tokens = .ok tree ↔
      ∃ reversed, precedences.reversePostfix tokens = .ok reversed ∧ tree.Fits precedences ∧
        reversed.map Token.bare = tree.postorder.reverse := by
  have builds (reversed : List Token) : precedences.buildReversed reversed = .ok tree ↔
      tree.Fits precedences ∧ reversed.map Token.bare = tree.postorder.reverse := by
    rw [buildReversed_eq_ok_iff, constructs_iff]
    simp [Expr.Spells]
  unfold parse
  split
  next =>
    have nothing : tree.postorder ≠ [] := by cases tree <;> simp [Expr.postorder]
    simp [reversePostfix, Precedences.shiftAll, Precedences.placeRest, nothing]
  next =>
    split
    next failed => simp [failed]
    next reordered => simp [reordered, builds]

/-- Tokens that are read as a tree are nested properly.  The tokens that keep their place come out
in the tree as they went in, and all other numbers, variables, functions and operators come out as
often as they went in. -/
theorem keeps_of_parse
    {tokens : List Token}
    {tree : Expr}
    (parses : precedences.parse tokens = .ok tree) :
    IsNested tokens ∧
      precedences.backbone [] tree.postorder.reverse =
        ((precedences.readAll none tokens).filter precedences.staysPut).reverse ∧
      (tree.postorder.filter Token.isContent).Perm
        ((precedences.readAll none tokens).filter Token.isContent) := by
  obtain ⟨reversed, reorders, _, same⟩ := parse_eq_ok_iff.1 parses
  obtain ⟨previous, keeps⟩ := keeps_of_reversePostfix reorders
  refine ⟨?_, ?_, ?_⟩
  · have nesting := keeps.nesting
    rwa [foldlM_nest_readAll] at nesting
  · rw [← same, backbone_map_bare]
    exact keeps.order
  · have content := keeps.content
    have bare : Token.isContent ∘ Token.bare = Token.isContent := funext Token.isContent_bare
    have kept : (reversed.filter Token.isContent).map Token.bare =
        (tree.postorder.filter Token.isContent).reverse := by
      rw [← List.filter_reverse, ← same, List.filter_map, bare]
    have unmarked : (reversed.filter Token.isContent).map Token.bare =
        reversed.filter Token.isContent := by
      calc
        _ = (reversed.filter Token.isContent).map id :=
          List.map_congr_left fun token member =>
            Token.bare_of_isContent (List.mem_filter.1 member).2
        _ = _ := List.map_id _
    rw [unmarked] at kept
    rw [← List.reverse_reverse (tree.postorder.filter Token.isContent), ← kept]
    exact (List.reverse_perm _).trans (by simpa using content)

end Precedences
end Reckoner
