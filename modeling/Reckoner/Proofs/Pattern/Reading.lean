import Reckoner.Pattern.Reading
import Reckoner.Proofs.Pattern.Dialect

/-!
# Reading follows the dialect

Reading a source succeeds exactly on the sources of the dialect, and the regular expression read
stands for the language that the source denotes.  The functions that read are first described by
what each step of a successful reading does; everything else is proved from these descriptions.

A reader that succeeds gives what it has found and what it has left, together with a bound on the
length of what is left.  The bound matters to recursion only; everything else about a successful
reading is said by `Leaves`.
-/

open scoped Computability

namespace Reckoner

section

variable {ε α τ : Type} {within : List τ → Prop}

/-- Reading has found a value and leaves the rest. -/
def Leaves
    (result : Except ε (α × { rest : List τ // within rest }))
    (found : α)
    (rest : List τ) : Prop :=
  ∃ bound, result = .ok (found, ⟨rest, bound⟩)

@[simp] theorem not_leaves_error {failure : ε} {found : α} {rest : List τ} :
    ¬Leaves (.error failure : Except ε (α × { rest : List τ // within rest })) found rest := by
  rintro ⟨_, same⟩
  cases same

@[simp] theorem leaves_ok_iff {found given : α} {rest left : List τ} {bound : within left} :
    Leaves (.ok (given, ⟨left, bound⟩) : Except ε (α × { rest : List τ // within rest })) found
      rest ↔ given = found ∧ left = rest := by
  constructor
  · rintro ⟨_, same⟩
    simpa using same
  · rintro ⟨rfl, rfl⟩
    exact ⟨bound, rfl⟩

end

namespace Regex

open Dialect

/-! ## Steps of a successful reading -/

/-- A character of a class is read from the front of a source and leaves the rest. -/
def ReadsMember
    (unclosed : PatternFault)
    (source : List Char)
    (character : Char)
    (rest : List Char) : Prop :=
  Leaves (readMember unclosed source) character rest

/-- A class is read from the front of a source and leaves the rest. -/
def ReadsClass
    (total : Nat)
    (unclosed : PatternFault)
    (members : List Step)
    (source : List Char)
    (found : List Step)
    (rest : List Char) : Prop :=
  Leaves (readClass total unclosed members source) found rest

/-- A group is read from the front of a source and leaves the rest. -/
def ReadsGroup
    (total : Nat)
    (opened : Option Nat)
    (group : Partial)
    (source : List Char)
    (found : Option Regex)
    (rest : List Char) : Prop :=
  Leaves (readGroup total opened group source) found rest

/-- A member of a class is a literal at the front. -/
theorem readsMember_iff
    {unclosed : PatternFault}
    {source rest : List Char}
    {character : Char} :
    ReadsMember unclosed source character rest ↔
      ∃ literal, Literal literal character ∧ source = literal ++ rest := by
  unfold ReadsMember
  constructor
  · intro read
    unfold readMember at read
    split at read
    next => simp at read
    next => simp at read
    next escaped tail =>
      obtain ⟨rfl, rfl⟩ := leaves_ok_iff.1 read
      exact ⟨_, .escaped escaped, rfl⟩
    next plain tail notLast notEscape =>
      obtain ⟨rfl, rfl⟩ := leaves_ok_iff.1 read
      refine ⟨_, .plain ?_, rfl⟩
      rintro rfl
      cases tail with
      | nil => exact notLast rfl rfl
      | cons second rest => exact notEscape second rest rfl rfl
  · rintro ⟨literal, reads, rfl⟩
    cases reads with
    | escaped => simp [readMember]
    | plain unescaped => simp [readMember, unescaped]

section Class

variable {total : Nat} {unclosed : PatternFault} {members found : List Step}
  {rest tail : List Char}

/-- A class does not end with the source. -/
theorem not_readsClass_nil : ¬ReadsClass total unclosed members [] found rest := by
  unfold ReadsClass
  simp [readClass]

theorem readsClass_close_iff :
    ReadsClass total unclosed members (']' :: tail) found rest ↔
      members.reverse = found ∧ tail = rest := by
  unfold ReadsClass
  simp [readClass]

/-- A dash joins the last member with the next one. -/
theorem readsClass_dash_iff :
    ReadsClass total unclosed members ('-' :: tail) found rest ↔
      ∃ low earlier high after, members = .exactly low :: earlier ∧
        ReadsMember unclosed tail high after ∧ low ≤ high ∧
        ReadsClass total unclosed (.between low high :: earlier) after found rest := by
  unfold ReadsClass ReadsMember
  constructor
  · intro read
    unfold readClass at read
    simp only at read
    split at read
    next low earlier =>
      split at read
      next => simp at read
      next high after _ member =>
        split at read
        next => simp at read
        next ordered =>
          split at read
          next => simp at read
          next final _ later =>
            obtain ⟨rfl, rfl⟩ := leaves_ok_iff.1 read
            exact ⟨low, earlier, high, after, rfl, ⟨_, member⟩, Char.not_lt.1 ordered, _, later⟩
    next => simp at read
  · rintro ⟨low, earlier, high, after, rfl, ⟨short, member⟩, ordered, shorter, later⟩
    rw [readClass]
    simp [member, Char.not_lt.2 ordered, later]

/-- Another character in a class is a member of its own. -/
theorem readsClass_literal_iff
    {first : Char}
    (not_close : first ≠ ']')
    (not_dash : first ≠ '-') :
    ReadsClass total unclosed members (first :: tail) found rest ↔
      ∃ character after, ReadsMember unclosed (first :: tail) character after ∧
        ReadsClass total unclosed (.exactly character :: members) after found rest := by
  unfold ReadsClass ReadsMember
  rw [readClass]
  · rcases readMember unclosed (first :: tail) with _ | ⟨character, after, short⟩
    · simp
    · rcases later : readClass total unclosed (.exactly character :: members) after with
        _ | ⟨_, _, _⟩
      · simp [later]
      · simp [later]
  · exact not_close
  · exact not_dash

end Class

section Group

variable {total : Nat} {opened : Option Nat} {group : Partial} {found : Option Regex}
  {rest tail : List Char}

/-- At the end of the source the outermost group closes. -/
theorem readsGroup_nil_iff :
    ReadsGroup total opened group [] found rest ↔
      opened = none ∧ group.close (.emptyAlternative total) = .ok found ∧ rest = [] := by
  unfold ReadsGroup
  cases opened with
  | some position => simp [readGroup]
  | none =>
      rw [readGroup]
      cases group.close (.emptyAlternative total) with
      | error fault => simp [bind, Except.bind]
      | ok result => simp [bind, Except.bind, pure, Except.pure, eq_comm]

/-- A closing parenthesis closes a group that was opened. -/
theorem readsGroup_close_iff :
    ReadsGroup total opened group (')' :: tail) found rest ↔
      opened.isSome = true ∧
        group.close (.emptyAlternative (total - tail.length)) = .ok found ∧ tail = rest := by
  unfold ReadsGroup
  cases opened with
  | none => simp [readGroup]
  | some position =>
      rw [readGroup]
      cases group.close (.emptyAlternative (total - tail.length)) with
      | error fault => simp [bind, Except.bind]
      | ok result => simp [bind, Except.bind, pure, Except.pure]

/-- A bar ends the branch, which must not be empty. -/
theorem readsGroup_bar_iff :
    ReadsGroup total opened group ('|' :: tail) found rest ↔
      tail ≠ [] ∧ ∃ branch, group.branch? = some branch ∧
        ReadsGroup total opened ⟨branch :: group.alternatives, [], none⟩ tail found rest := by
  unfold ReadsGroup
  rw [readGroup]
  cases group.branch? with
  | none => simp
  | some branch =>
      by_cases empty : tail = []
      · simp [empty]
      rcases later : readGroup total opened ⟨branch :: group.alternatives, [], none⟩ tail with
        _ | ⟨_, _, _⟩
      · simp [later, empty]
      · simp [later, empty]

/-- An opening parenthesis reads a group and pushes it as an atom. -/
theorem readsGroup_open_iff :
    ReadsGroup total opened group ('(' :: tail) found rest ↔
      ∃ inner after,
        ReadsGroup total (some (total - (tail.length + 1))) .empty tail (some inner) after ∧
          ReadsGroup total opened (group.push inner) after found rest := by
  unfold ReadsGroup
  rw [readGroup]
  rcases readGroup total (some (total - (tail.length + 1))) .empty tail with
    _ | ⟨_ | inner, after, _⟩
  · simp
  · simp
  · rcases later : readGroup total opened (group.push inner) after with _ | ⟨_, _, _⟩
    · simp [later]
    · simp [later]

/-- An opening bracket reads a class and pushes it as an atom. -/
theorem readsGroup_class_iff :
    ReadsGroup total opened group ('[' :: tail) found rest ↔
      ∃ member members after,
        ReadsClass total (.unclosedClass (total - (tail.length + 1))) [] tail (member :: members)
          after ∧
          ReadsGroup total opened (group.push (ofClass (member :: members))) after found rest := by
  unfold ReadsGroup ReadsClass
  rw [readGroup]
  rcases readClass total (.unclosedClass (total - (tail.length + 1))) [] tail with
    _ | ⟨_ | ⟨member, members⟩, after, _⟩
  · simp
  · simp
  · rcases later : readGroup total opened (group.push (ofClass (member :: members))) after with
      _ | ⟨_, _, _⟩
    · simp [later]
    · simp [later]

theorem readsGroup_anything_iff :
    ReadsGroup total opened group ('.' :: tail) found rest ↔
      ReadsGroup total opened (group.push (.single .anything)) tail found rest := by
  unfold ReadsGroup
  rw [readGroup]
  rcases readGroup total opened (group.push (.single .anything)) tail with _ | ⟨_, _, _⟩
  · simp
  · simp

/-- A backslash pushes the next character as it is. -/
theorem readsGroup_escape_iff :
    ReadsGroup total opened group ('\\' :: tail) found rest ↔
      ∃ character after, tail = character :: after ∧
        ReadsGroup total opened (group.push (.single (.exactly character))) after found rest := by
  unfold ReadsGroup
  cases tail with
  | nil => simp [readGroup]
  | cons character after =>
      rw [readGroup]
      rcases later : readGroup total opened (group.push (.single (.exactly character))) after with
        _ | ⟨_, _, _⟩
      · simp [later]
      · simp [later]

/-- A quantifier applies to the last atom, once. -/
theorem readsGroup_quantifier_iff
    {character : Char}
    {quantify : Regex → Regex}
    (known : quantifier? character = some quantify) :
    ReadsGroup total opened group (character :: tail) found rest ↔
      ∃ item, group.current = some item ∧
        ReadsGroup total opened ⟨group.alternatives, quantify item :: group.items, none⟩ tail
          found rest := by
  unfold ReadsGroup
  rw [readGroup]
  · rw [known]
    cases group.current with
    | none => simp
    | some item =>
        rcases later : readGroup total opened
          ⟨group.alternatives, quantify item :: group.items, none⟩ tail with _ | ⟨_, _, _⟩
        · simp [later]
        · simp [later]
  all_goals
    intros
    subst_vars
    simp [quantifier?] at known

/-- Any other character is pushed as itself. -/
theorem readsGroup_plain_iff
    {character : Char}
    (unreserved : character ∉ reserved) :
    ReadsGroup total opened group (character :: tail) found rest ↔
      ReadsGroup total opened (group.push (.single (.exactly character))) tail found rest := by
  have known : quantifier? character = none := by
    simp only [reserved, List.mem_cons, not_or] at unreserved
    simp [quantifier?, unreserved]
  unfold ReadsGroup
  rw [readGroup]
  · rw [known]
    rcases readGroup total opened (group.push (.single (.exactly character))) tail with
      _ | ⟨_, _, _⟩
    · simp
    · simp
  all_goals
    intros
    subst_vars
    simp [reserved] at unreserved

end Group

/-! ## Languages of what has been read -/

/-- The sequence of reversed items is the product of their languages in order. -/
theorem language_foldl_sequence (earlier : List Regex) (last : Regex) :
    (earlier.foldl (fun later item => .sequence item later) last).language =
      (earlier.reverse.map language).prod * last.language := by
  induction earlier generalizing last with
  | nil => simp
  | cons item earlier hypothesis =>
      rw [List.foldl_cons, hypothesis, language_sequence, List.reverse_cons, List.map_append,
        List.prod_append, List.map_singleton, List.prod_singleton, mul_assoc]

/-- The items of a sequence stand for texts in a row. -/
theorem language_of_ofReversedItems?
    {items : List Regex}
    {branch : Regex}
    (same : ofReversedItems? items = some branch) :
    branch.language = (items.reverse.map language).prod := by
  cases items with
  | nil => simp [ofReversedItems?] at same
  | cons last earlier =>
      rw [ofReversedItems?, Option.some.injEq] at same
      rw [← same, language_foldl_sequence, List.reverse_cons, List.map_append, List.prod_append,
        List.map_singleton, List.prod_singleton]

/-- The members of a class are alternatives. -/
theorem languageOfAny_map_single (members : List Step) :
    languageOfAny (members.map .single) = (members.map Step.language).sum := by
  induction members with
  | nil => rw [List.map_nil, List.map_nil, languageOfAny_nil, List.sum_nil]
  | cons member members hypothesis =>
      rw [List.map_cons, List.map_cons, languageOfAny_cons, hypothesis, List.sum_cons,
        language_single]

/-- A class stands for the texts of its members. -/
theorem language_ofClass {members : List Step} (nonempty : members ≠ []) :
    (ofClass members).language = (members.map Step.language).sum := by
  match members with
  | [member] => simp [ofClass]
  | first :: second :: rest =>
      rw [ofClass, language_choice, languageOfAny_map_single]
      simp

/-! ## What is read belongs to the dialect -/

/-- The items of an alternative that have been read, last to first, and their source. -/
inductive FinishedItems : List Char → List Regex → Prop
  | nil : FinishedItems [] []
  | snoc {before source : List Char} {earlier : List Regex} {regex : Regex}
      (finished : FinishedItems before earlier)
      (item : Item source regex.language) :
      FinishedItems (before ++ source) (regex :: earlier)

/-- The alternatives of a group that have been read, last to first, and their source, which ends
with a bar. -/
inductive FinishedAlternatives : List Char → List Regex → Prop
  | nil : FinishedAlternatives [] []
  | snoc {before source : List Char} {earlier : List Regex} {regex : Regex}
      (finished : FinishedAlternatives before earlier)
      (sequence : Sequence source regex.language) :
      FinishedAlternatives (before ++ (source ++ ['|'])) (regex :: earlier)

/-- What has been read of a group, and its source. -/
def Covers (before : List Char) (group : Partial) : Prop :=
  ∃ alternatives items current, before = alternatives ++ (items ++ current) ∧
    FinishedAlternatives alternatives group.alternatives ∧ FinishedItems items group.items ∧
    match group.current with
    | none => current = []
    | some regex => Atom current regex.language

theorem Covers.empty : Covers [] .empty :=
  ⟨[], [], [], rfl, .nil, .nil, rfl⟩

/-- Finished items make a sequence. -/
theorem FinishedItems.sequence
    {source : List Char}
    {items : List Regex}
    {branch : Regex}
    (finished : FinishedItems source items)
    (same : ofReversedItems? items = some branch) :
    Sequence source branch.language := by
  induction finished generalizing branch with
  | nil => simp [ofReversedItems?] at same
  | @snoc before source earlier regex finished item hypothesis =>
      have language := language_of_ofReversedItems? same
      rw [List.reverse_cons, List.map_append, List.prod_append, List.map_singleton,
        List.prod_singleton] at language
      rw [language]
      cases earlier with
      | nil =>
          cases finished
          rw [List.reverse_nil, List.map_nil, List.prod_nil, one_mul]
          exact .last item
      | cons last rest =>
          obtain ⟨prior, priorSame⟩ : ∃ prior, ofReversedItems? (last :: rest) = some prior :=
            ⟨_, rfl⟩
          rw [← language_of_ofReversedItems? priorSame]
          exact (hypothesis priorSame).snoc item

/-- Finished branches and the last one make the alternatives. -/
theorem FinishedAlternatives.alternatives
    {before source : List Char}
    {branches : List Regex}
    {language : Language Char}
    (finished : FinishedAlternatives before branches)
    (alternatives : Alternatives source language) :
    Alternatives (before ++ source) (languageOfAny branches.reverse + language) := by
  induction finished generalizing source language with
  | nil =>
      rw [List.reverse_nil, languageOfAny_nil, zero_add]
      exact alternatives
  | @snoc before first earlier regex finished sequence hypothesis =>
      have inner := hypothesis (.more sequence alternatives)
      rw [List.reverse_cons, languageOfAny_append, languageOfAny_cons, languageOfAny_nil, add_zero,
        add_assoc]
      simpa using inner

/-- Everything pending is a sequence of items. -/
theorem Covers.split
    {before : List Char}
    {group : Partial}
    (covers : Covers before group) :
    ∃ alternatives items, before = alternatives ++ items ∧
      FinishedAlternatives alternatives group.alternatives ∧
      FinishedItems items (group.current.toList ++ group.items) := by
  obtain ⟨alternatives, items, current, rfl, finished, read, last⟩ := covers
  refine ⟨alternatives, items ++ current, rfl, finished, ?_⟩
  cases pending : group.current with
  | none =>
      rw [pending] at last
      rw [last, List.append_nil]
      exact read
  | some regex =>
      rw [pending] at last
      exact .snoc read (.once last)

/-- A pushed atom extends what the group covers. -/
theorem Covers.push
    {before source : List Char}
    {group : Partial}
    {regex : Regex}
    (covers : Covers before group)
    (atom : Atom source regex.language) :
    Covers (before ++ source) (group.push regex) := by
  obtain ⟨alternatives, items, rfl, finished, read⟩ := covers.split
  exact ⟨alternatives, items, source, List.append_assoc _ _ _, finished, read, atom⟩

/-- A quantifier extends what the group covers. -/
theorem Covers.quantify
    {before : List Char}
    {group : Partial}
    {item : Regex}
    {character : Char}
    {quantify : Regex → Regex}
    (covers : Covers before group)
    (current : group.current = some item)
    (known : quantifier? character = some quantify) :
    Covers (before ++ [character]) ⟨group.alternatives, quantify item :: group.items, none⟩ := by
  obtain ⟨alternatives, items, last, rfl, finished, read, atom⟩ := covers
  rw [current] at atom
  have quantified : Item (last ++ [character]) (quantify item).language := by
    unfold quantifier? at known
    split at known <;> simp only [Option.some.injEq, reduceCtorEq] at known <;> subst known
    · exact language_oneOrMore item ▸ .oneOrMore atom
    · exact language_zeroOrMore item ▸ .zeroOrMore atom
    · exact language_zeroOrOne item ▸ .zeroOrOne atom
  exact ⟨alternatives, items ++ (last ++ [character]), [], by simp, finished,
    .snoc read quantified, rfl⟩

/-- A bar extends what the group covers. -/
theorem Covers.bar
    {before : List Char}
    {group : Partial}
    {branch : Regex}
    (covers : Covers before group)
    (same : group.branch? = some branch) :
    Covers (before ++ ['|']) ⟨branch :: group.alternatives, [], none⟩ := by
  obtain ⟨alternatives, items, rfl, finished, read⟩ := covers.split
  exact ⟨alternatives ++ (items ++ ['|']), [], [], by simp,
    .snoc finished (read.sequence same), .nil, rfl⟩

/-- The source of a whole group, which is empty when nothing was read. -/
def Stands (source : List Char) : Option Regex → Prop
  | none => source = []
  | some regex => Alternatives source regex.language

/-- A group that closes stands for all that it covers. -/
theorem Covers.close
    {before : List Char}
    {group : Partial}
    {fault : PatternFault}
    {found : Option Regex}
    (covers : Covers before group)
    (closed : group.close fault = .ok found) :
    Stands before found := by
  obtain ⟨alternatives, items, rfl, finished, read⟩ := covers.split
  unfold Partial.close Partial.branch? at closed
  split at closed
  next noAlternatives =>
    rw [noAlternatives] at finished
    cases finished
    rw [Except.ok.injEq] at closed
    rw [List.nil_append, ← closed]
    cases same : ofReversedItems? (group.current.toList ++ group.items) with
    | none =>
        cases pending : group.current.toList ++ group.items with
        | nil =>
            rw [pending] at read
            cases read
            rfl
        | cons last earlier => simp [pending, ofReversedItems?] at same
    | some branch => exact .last (read.sequence same)
  next => simp at closed
  next branch same _ =>
    rw [Except.ok.injEq] at closed
    rw [← closed]
    have whole := finished.alternatives (.last (read.sequence same))
    rw [Stands, language_choice, languageOfAny_append, languageOfAny_cons, languageOfAny_nil,
      add_zero]
    exact whole

/-- The source of a member of a class and the step as which it is read. -/
inductive Spells : List Char → Step → Prop
  | exactly {source : List Char} {character : Char}
      (leading : Leading source character) :
      Spells source (.exactly character)
  | between {source last : List Char} {low high : Char}
      (leading : Leading source low)
      (literal : Literal last high)
      (ordered : low ≤ high) :
      Spells (source ++ '-' :: last) (.between low high)

/-- A member of a class is a step that its text spells. -/
theorem member_iff_spells {source : List Char} {language : Language Char} :
    Member source language ↔ ∃ step, Spells source step ∧ step.language = language := by
  constructor
  · rintro (leading | ⟨leading, literal, ordered⟩)
    · exact ⟨_, .exactly leading, Step.language_exactly _⟩
    · exact ⟨_, .between leading literal ordered, Step.language_between _ _⟩
  · rintro ⟨_, spells, rfl⟩
    cases spells with
    | exactly leading =>
        rw [Step.language_exactly]
        exact .exactly leading
    | between leading literal ordered =>
        rw [Step.language_between]
        exact .between leading literal ordered

/-- The members of a class that have been read, last to first, and their source. -/
inductive FinishedMembers : List Char → List Step → Prop
  | nil : FinishedMembers [] []
  | snoc {before source : List Char} {earlier : List Step} {step : Step}
      (finished : FinishedMembers before earlier)
      (spells : Spells source step) :
      FinishedMembers (before ++ source) (step :: earlier)

theorem FinishedMembers.members
    {source : List Char}
    {members : List Step}
    (finished : FinishedMembers source members)
    (nonempty : members ≠ []) :
    Members source (members.reverse.map Step.language).sum := by
  induction finished with
  | nil => exact absurd rfl nonempty
  | @snoc before source earlier step finished spells hypothesis =>
      have member := member_iff_spells.2 ⟨step, spells, rfl⟩
      rw [List.reverse_cons, List.map_append, List.sum_append, List.map_singleton,
        List.sum_singleton]
      cases earlier with
      | nil =>
          cases finished
          rw [List.reverse_nil, List.map_nil, List.sum_nil, zero_add]
          exact .last member
      | cons last rest => exact (hypothesis (by simp)).snoc member

theorem leading_of_append
    {first character : Char}
    {literal tail rest : List Char}
    (reads : Literal literal character)
    (same : first :: tail = literal ++ rest)
    (not_close : first ≠ ']')
    (not_dash : first ≠ '-') :
    Leading literal character := by
  refine ⟨reads, ?_, ?_⟩
  · rintro rfl
    exact not_close (List.cons.inj same).1
  · rintro rfl
    exact not_dash (List.cons.inj same).1

/-- What is read as a class is spelled by finished members and a bracket. -/
theorem finishedMembers_of_readsClass
    {total : Nat}
    {unclosed : PatternFault}
    {members found : List Step}
    {before source rest : List Char}
    (reads : ReadsClass total unclosed members source found rest)
    (finished : FinishedMembers before members) :
    ∃ read, source = read ++ ']' :: rest ∧ FinishedMembers (before ++ read) found.reverse := by
  induction length : source.length using Nat.strong_induction_on
    generalizing before source members with
  | _ length hypothesis =>
      subst length
      cases source with
      | nil => exact absurd reads not_readsClass_nil
      | cons first tail =>
          by_cases isClose : first = ']'
          · subst isClose
            obtain ⟨rfl, rfl⟩ := readsClass_close_iff.1 reads
            exact ⟨[], rfl, by simpa using finished⟩
          by_cases isDash : first = '-'
          · subst isDash
            obtain ⟨low, earlier, high, after, rfl, member, ordered, later⟩ :=
              readsClass_dash_iff.1 reads
            obtain ⟨literal, literalReads, rfl⟩ := readsMember_iff.1 member
            have shorter : after.length < ('-' :: (literal ++ after)).length := by
              simp only [List.length_cons, List.length_append]
              omega
            obtain _ | ⟨finished, ⟨leading⟩⟩ := finished
            obtain ⟨read, rfl, whole⟩ := hypothesis after.length shorter later
              (.snoc finished (.between leading literalReads ordered)) rfl
            exact ⟨'-' :: (literal ++ read), by simp, by simpa using whole⟩
          · obtain ⟨character, after, member, later⟩ :=
              (readsClass_literal_iff isClose isDash).1 reads
            have shorter := member.1
            obtain ⟨literal, literalReads, same⟩ := readsMember_iff.1 member
            have leading := leading_of_append literalReads same isClose isDash
            obtain ⟨read, rfl, whole⟩ := hypothesis after.length shorter later
              (.snoc finished (.exactly leading)) rfl
            exact ⟨literal ++ read, by rw [same, List.append_assoc], by simpa using whole⟩

/-- What follows the inside of a group: its closing parenthesis and the rest, or nothing at all
where the whole source is the group. -/
def Follows : Option Nat → List Char → List Char → Prop
  | none, tail, rest => tail = [] ∧ rest = []
  | some _, tail, rest => tail = ')' :: rest

theorem unreserved_of_quantifier?
    {character : Char}
    (unknown : quantifier? character = none)
    (others : character ∉ [')', '|', '(', '[', '.', '\\']) :
    character ∉ reserved := by
  have different : character ≠ '+' ∧ character ≠ '*' ∧ character ≠ '?' := by
    refine ⟨?_, ?_, ?_⟩ <;>
      · rintro rfl
        simp [quantifier?] at unknown
  simp only [List.mem_cons, not_or] at others
  simp [reserved, others, different]

/-- One step of a successful reading: unless the group is closed, a piece of the source extends the
group and the rest is read from there.  What a nested group takes is known from its own reading. -/
theorem Covers.advance
    {total : Nat}
    {opened : Option Nat}
    {group : Partial}
    {found : Option Regex}
    {first : Char}
    {before tail rest : List Char}
    (covers : Covers before group)
    (reads : ReadsGroup total opened group (first :: tail) found rest)
    (not_close : first ≠ ')')
    (nested : ∀ position inner after,
      ReadsGroup total (some position) .empty tail (some inner) after →
        ∃ read, tail = read ++ ')' :: after ∧ Alternatives read inner.language) :
    ∃ piece after larger, first :: tail = piece ++ after ∧ piece ≠ [] ∧
      Covers (before ++ piece) larger ∧ ReadsGroup total opened larger after found rest := by
  by_cases isBar : first = '|'
  · subst isBar
    obtain ⟨_, branch, same, later⟩ := readsGroup_bar_iff.1 reads
    exact ⟨['|'], tail, _, rfl, by simp, covers.bar same, later⟩
  by_cases isOpen : first = '('
  · subst isOpen
    obtain ⟨inner, after, inside, later⟩ := readsGroup_open_iff.1 reads
    obtain ⟨read, same, alternatives⟩ := nested _ inner after inside
    exact ⟨'(' :: read ++ [')'], after, _, by simp [same], by simp,
      covers.push (.group alternatives), later⟩
  by_cases isClass : first = '['
  · subst isClass
    obtain ⟨member, members, after, inside, later⟩ := readsGroup_class_iff.1 reads
    obtain ⟨read, same, finished⟩ := finishedMembers_of_readsClass inside .nil
    have classMembers := finished.members (by simp)
    rw [List.reverse_reverse, ← language_ofClass (by simp)] at classMembers
    exact ⟨'[' :: read ++ [']'], after, _, by simp [same], by simp,
      covers.push (.members classMembers), later⟩
  by_cases isAnything : first = '.'
  · subst isAnything
    have atom : Atom ['.'] (single .anything).language := by
      rw [language_single, Step.language_anything]
      exact .anything
    exact ⟨['.'], tail, _, rfl, by simp, covers.push atom, readsGroup_anything_iff.1 reads⟩
  by_cases isEscape : first = '\\'
  · subst isEscape
    obtain ⟨character, after, rfl, later⟩ := readsGroup_escape_iff.1 reads
    have atom : Atom ['\\', character] (single (.exactly character)).language := by
      rw [language_single, Step.language_exactly]
      exact .escaped character
    exact ⟨['\\', character], after, _, rfl, by simp, covers.push atom, later⟩
  cases known : quantifier? first with
  | some quantify =>
      obtain ⟨item, current, later⟩ := (readsGroup_quantifier_iff known).1 reads
      exact ⟨[first], tail, _, rfl, by simp, covers.quantify current known, later⟩
  | none =>
      have unreserved : first ∉ reserved := unreserved_of_quantifier? known (by simp_all)
      have atom : Atom [first] (single (.exactly first)).language := by
        rw [language_single, Step.language_exactly]
        exact .plain unreserved
      exact ⟨[first], tail, _, rfl, by simp, covers.push atom,
        (readsGroup_plain_iff unreserved).1 reads⟩

/-- What is read as a group stands for the text that was read. -/
theorem stands_of_readsGroup
    {total : Nat}
    {opened : Option Nat}
    {group : Partial}
    {found : Option Regex}
    {before source rest : List Char}
    (reads : ReadsGroup total opened group source found rest)
    (covers : Covers before group) :
    ∃ read tail, source = read ++ tail ∧ Follows opened tail rest ∧
      Stands (before ++ read) found := by
  induction length : source.length using Nat.strong_induction_on
    generalizing before source group opened found rest with
  | _ length hypothesis =>
      subst length
      cases source with
      | nil =>
          obtain ⟨rfl, closed, rfl⟩ := readsGroup_nil_iff.1 reads
          exact ⟨[], [], rfl, ⟨rfl, rfl⟩, by simpa using covers.close closed⟩
      | cons first tail =>
          by_cases isClose : first = ')'
          · subst isClose
            obtain ⟨isOpened, closed, rfl⟩ := readsGroup_close_iff.1 reads
            obtain ⟨position, rfl⟩ := Option.isSome_iff_exists.1 isOpened
            exact ⟨[], ')' :: tail, rfl, rfl, by simpa using covers.close closed⟩
          · have nested : ∀ position inner after,
                ReadsGroup total (some position) .empty tail (some inner) after →
                  ∃ read, tail = read ++ ')' :: after ∧ Alternatives read inner.language := by
              intro position inner after inside
              obtain ⟨read, _, same, rfl, stands⟩ :=
                hypothesis tail.length (by simp) inside .empty rfl
              exact ⟨read, same, stands⟩
            obtain ⟨piece, after, larger, same, nonempty, covers, later⟩ :=
              covers.advance reads isClose nested
            have shorter : after.length < (first :: tail).length := by
              rw [same, List.length_append]
              have := List.length_pos_of_ne_nil nonempty
              omega
            obtain ⟨read, final, rest_eq, follows, stands⟩ :=
              hypothesis after.length shorter later covers rfl
            exact ⟨piece ++ read, final, by rw [same, rest_eq, List.append_assoc], follows,
              by simpa using stands⟩

/-! ## Sources of the dialect are read -/

theorem readsClass_of_leading
    {source : List Char}
    {character : Char}
    (leading : Leading source character)
    {total : Nat}
    {unclosed : PatternFault}
    {members found : List Step}
    {rest final : List Char}
    (later : ReadsClass total unclosed (.exactly character :: members) rest found final) :
    ReadsClass total unclosed members (source ++ rest) found final := by
  obtain ⟨literal, not_close, not_dash⟩ := leading
  have member : ReadsMember unclosed (source ++ rest) character rest :=
    readsMember_iff.2 ⟨source, literal, rfl⟩
  cases literal with
  | escaped => exact (readsClass_literal_iff (by simp) (by simp)).2 ⟨character, rest, member, later⟩
  | plain _ =>
      refine (readsClass_literal_iff ?_ ?_).2 ⟨character, rest, member, later⟩
      · rintro rfl
        exact not_close rfl
      · rintro rfl
        exact not_dash rfl

/-- A class goes on behind a step that the text spells. -/
theorem readsClass_of_spells
    {source : List Char}
    {step : Step}
    (spells : Spells source step)
    {total : Nat}
    {unclosed : PatternFault}
    {members found : List Step}
    {rest final : List Char}
    (later : ReadsClass total unclosed (step :: members) rest found final) :
    ReadsClass total unclosed members (source ++ rest) found final := by
  cases spells with
  | exactly leading => exact readsClass_of_leading leading later
  | @between source last low high leading literal ordered =>
      rw [List.append_assoc]
      apply readsClass_of_leading leading
      exact readsClass_dash_iff.2
        ⟨low, members, high, rest, rfl, readsMember_iff.2 ⟨last, literal, rfl⟩, ordered, later⟩

/-- The members of a class are read up to whatever follows. -/
theorem reads_of_members
    {source : List Char}
    {language : Language Char}
    (members : Members source language) :
    ∃ steps : List Step, steps ≠ [] ∧ (steps.map Step.language).sum = language ∧
      ∀ {total : Nat} {unclosed : PatternFault} {earlier found : List Step}
        {rest final : List Char},
        ReadsClass total unclosed (steps.reverse ++ earlier) rest found final →
          ReadsClass total unclosed earlier (source ++ rest) found final := by
  induction members with
  | last member =>
      obtain ⟨step, spells, rfl⟩ := member_iff_spells.1 member
      exact ⟨[step], by simp, by simp, readsClass_of_spells spells⟩
  | more member _ hypothesis =>
      obtain ⟨step, spells, rfl⟩ := member_iff_spells.1 member
      obtain ⟨steps, _, rfl, reads⟩ := hypothesis
      refine ⟨step :: steps, by simp, by rw [List.map_cons, List.sum_cons], ?_⟩
      intro total unclosed earlier found rest final later
      rw [List.append_assoc]
      apply readsClass_of_spells spells
      apply reads
      simpa using later

/-- What has been read of the current alternative, last to first. -/
def Partial.pending (group : Partial) : List Regex :=
  group.current.toList ++ group.items

/-- Reading a source leads from one state of a group to another, whatever follows. -/
def LeadsTo (source : List Char) (group larger : Partial) : Prop :=
  ∀ total opened rest found final, ReadsGroup total opened larger rest found final →
    ReadsGroup total opened group (source ++ rest) found final

/-- Texts that lead from group to group lead on when joined. -/
theorem LeadsTo.append
    {first second : List Char}
    {group middle larger : Partial}
    (leads : LeadsTo first group middle)
    (further : LeadsTo second middle larger) :
    LeadsTo (first ++ second) group larger := by
  intro total opened rest found final later
  rw [List.append_assoc]
  exact leads _ _ _ _ _ (further _ _ _ _ _ later)

theorem leadsTo_quantified
    {source : List Char}
    {regex : Regex}
    {character : Char}
    {quantify : Regex → Regex}
    (leads : ∀ group, LeadsTo source group (group.push regex))
    (known : quantifier? character = some quantify)
    (group : Partial) :
    ∃ larger : Partial, larger.alternatives = group.alternatives ∧
      larger.pending = quantify regex :: group.pending ∧
      LeadsTo (source ++ [character]) group larger := by
  refine ⟨⟨group.alternatives, quantify regex :: group.pending, none⟩, rfl, rfl, ?_⟩
  apply (leads group).append
  intro total opened rest found final later
  exact (readsGroup_quantifier_iff known).2 ⟨regex, rfl, later⟩

/-- The items of an alternative make up its branch. -/
theorem exists_branch {regexes : List Regex} (nonempty : regexes ≠ []) :
    ∃ branch, ofReversedItems? regexes.reverse = some branch ∧
      branch.language = (regexes.map language).prod := by
  obtain ⟨branch, same⟩ : ∃ branch, ofReversedItems? regexes.reverse = some branch := by
    cases reversed : regexes.reverse with
    | nil => exact absurd (List.reverse_eq_nil_iff.1 reversed) nonempty
    | cons last earlier => exact ⟨_, rfl⟩
  refine ⟨branch, same, ?_⟩
  rw [language_of_ofReversedItems? same, List.reverse_reverse]

/-- A group closes with the alternatives before the last one and the last one. -/
theorem close_eq_ok
    {group : Partial}
    {earlier : List Regex}
    {last : Regex}
    (alternatives : group.alternatives = earlier.reverse)
    (branch : group.branch? = some last) :
    ∃ regex : Regex, regex.language = languageOfAny (earlier ++ [last]) ∧
      ∀ fault, group.close fault = .ok (some regex) := by
  unfold Partial.close
  cases earlier with
  | nil => exact ⟨last, by simp, fun _ => by simp [alternatives, branch]⟩
  | cons first rest =>
      refine ⟨.choice (first :: rest ++ [last]), language_choice _, fun _ => ?_⟩
      rw [alternatives, branch]
      cases reversed : (first :: rest).reverse with
      | nil => simp at reversed
      | cons final others => simp [← reversed]

mutual

/-- An atom of the dialect leads to a group with this atom pushed. -/
theorem leadsTo_of_atom
    {source : List Char}
    {language : Language Char} :
    Atom source language → ∃ regex : Regex, regex.language = language ∧
      ∀ group, LeadsTo source group (group.push regex)
  | .group alternatives => by
      obtain ⟨earlier, last, rfl, leads⟩ := leadsTo_of_alternatives alternatives
      obtain ⟨larger, finished, branch, leads⟩ := leads []
      rw [List.append_nil] at finished
      obtain ⟨regex, same, closes⟩ := close_eq_ok finished branch
      refine ⟨regex, same, ?_⟩
      intro group total opened rest found final later
      rw [List.append_assoc]
      refine readsGroup_open_iff.2 ⟨regex, rest, ?_, later⟩
      exact leads _ _ _ _ _ (readsGroup_close_iff.2 ⟨rfl, closes _, rfl⟩)
  | .anything => by
      refine ⟨.single .anything, by rw [language_single, Step.language_anything], ?_⟩
      intro group total opened rest found final later
      exact readsGroup_anything_iff.2 later
  | .escaped character => by
      refine ⟨.single (.exactly character), by rw [language_single, Step.language_exactly], ?_⟩
      intro group total opened rest found final later
      exact readsGroup_escape_iff.2 ⟨character, rest, rfl, later⟩
  | .members members => by
      obtain ⟨steps, nonempty, rfl, reads⟩ := reads_of_members members
      refine ⟨ofClass steps, language_ofClass nonempty, ?_⟩
      intro group total opened rest found final later
      cases steps with
      | nil => exact absurd rfl nonempty
      | cons step others =>
          rw [List.append_assoc]
          refine readsGroup_class_iff.2 ⟨step, others, rest, reads ?_, later⟩
          exact readsClass_close_iff.2 ⟨by simp, rfl⟩
  | .plain unreserved => by
      refine ⟨.single (.exactly _), by rw [language_single, Step.language_exactly], ?_⟩
      intro group total opened rest found final later
      exact (readsGroup_plain_iff unreserved).2 later

/-- An item of the dialect leads to a group with this item pending. -/
theorem leadsTo_of_item
    {source : List Char}
    {language : Language Char} :
    Item source language → ∃ regex : Regex, regex.language = language ∧
      ∀ group, ∃ larger : Partial, larger.alternatives = group.alternatives ∧
        larger.pending = regex :: group.pending ∧ LeadsTo source group larger
  | .once atom => by
      obtain ⟨regex, same, leads⟩ := leadsTo_of_atom atom
      exact ⟨regex, same, fun group => ⟨group.push regex, rfl, rfl, leads group⟩⟩
  | .oneOrMore atom => by
      obtain ⟨regex, rfl, leads⟩ := leadsTo_of_atom atom
      exact ⟨.oneOrMore regex, language_oneOrMore regex, leadsTo_quantified leads rfl⟩
  | .zeroOrMore atom => by
      obtain ⟨regex, rfl, leads⟩ := leadsTo_of_atom atom
      exact ⟨.zeroOrMore regex, language_zeroOrMore regex, leadsTo_quantified leads rfl⟩
  | .zeroOrOne atom => by
      obtain ⟨regex, rfl, leads⟩ := leadsTo_of_atom atom
      exact ⟨.zeroOrOne regex, language_zeroOrOne regex, leadsTo_quantified leads rfl⟩

/-- A sequence of the dialect leads to a group with its items pending. -/
theorem leadsTo_of_sequence
    {source : List Char}
    {language : Language Char} :
    Sequence source language → ∃ regexes : List Regex, regexes ≠ [] ∧
      (regexes.map Regex.language).prod = language ∧
      ∀ group, ∃ larger : Partial, larger.alternatives = group.alternatives ∧
        larger.pending = regexes.reverse ++ group.pending ∧ LeadsTo source group larger
  | .last item => by
      obtain ⟨regex, rfl, leads⟩ := leadsTo_of_item item
      exact ⟨[regex], by simp, by simp, leads⟩
  | .more item items => by
      obtain ⟨regex, rfl, leads⟩ := leadsTo_of_item item
      obtain ⟨regexes, _, rfl, further⟩ := leadsTo_of_sequence items
      refine ⟨regex :: regexes, by simp, by rw [List.map_cons, List.prod_cons], fun group => ?_⟩
      obtain ⟨middle, same, pending, first⟩ := leads group
      obtain ⟨larger, kept, all, second⟩ := further middle
      exact ⟨larger, kept.trans same, by simp [all, pending], first.append second⟩

/-- Alternatives of the dialect lead to a group with all but the last finished. -/
theorem leadsTo_of_alternatives
    {source : List Char}
    {language : Language Char} :
    Alternatives source language → ∃ (earlier : List Regex) (last : Regex),
      languageOfAny (earlier ++ [last]) = language ∧
      ∀ finished, ∃ larger : Partial, larger.alternatives = earlier.reverse ++ finished ∧
        larger.branch? = some last ∧ LeadsTo source ⟨finished, [], none⟩ larger
  | .last items => by
      obtain ⟨regexes, nonempty, rfl, leads⟩ := leadsTo_of_sequence items
      obtain ⟨branch, same, language⟩ := exists_branch nonempty
      refine ⟨[], branch, by simp [language], fun finished => ?_⟩
      obtain ⟨larger, kept, pending, leads⟩ := leads ⟨finished, [], none⟩
      refine ⟨larger, kept, ?_, leads⟩
      rw [← same, Partial.branch?, ← List.append_nil regexes.reverse]
      exact congrArg ofReversedItems? pending
  | .more items alternatives => by
      obtain ⟨regexes, nonempty, rfl, leads⟩ := leadsTo_of_sequence items
      obtain ⟨branch, same, language⟩ := exists_branch nonempty
      obtain ⟨earlier, last, rfl, further⟩ := leadsTo_of_alternatives alternatives
      refine ⟨branch :: earlier, last, by rw [List.cons_append, languageOfAny_cons, language],
        fun finished => ?_⟩
      obtain ⟨middle, kept, pending, first⟩ := leads ⟨finished, [], none⟩
      obtain ⟨larger, all, final, second⟩ := further (branch :: finished)
      refine ⟨larger, by simp [all], final, ?_⟩
      apply first.append
      intro total opened rest found final later
      refine readsGroup_bar_iff.2 ⟨by simp [alternatives.ne_nil], branch, ?_, ?_⟩
      · rw [← same, Partial.branch?, ← List.append_nil regexes.reverse]
        exact congrArg ofReversedItems? pending
      · rw [kept]
        exact second _ _ _ _ _ later

end

/-- The whole source is read as a group that is never closed. -/
theorem read_eq_ok_iff_readsGroup {source : String} {regex : Option Regex} :
    read source = .ok regex ↔
      ∃ rest, ReadsGroup source.toList.length none .empty source.toList regex rest := by
  unfold read ReadsGroup
  cases readGroup source.toList.length none .empty source.toList with
  | error fault => simp
  | ok result =>
      obtain ⟨found, rest, bound⟩ := result
      simp

/-- What is read belongs to the dialect and stands for the language that its source denotes. -/
theorem denotes_of_read
    {source : String}
    {regex : Option Regex}
    (reads : read source = .ok regex) :
    Denotes source.toList (languageOfOption regex) := by
  obtain ⟨rest, reads⟩ := read_eq_ok_iff_readsGroup.1 reads
  obtain ⟨read, _, same, ⟨rfl, _⟩, stands⟩ := stands_of_readsGroup reads .empty
  rw [List.append_nil] at same
  rw [same]
  cases regex with
  | none =>
      obtain rfl : read = [] := stands
      exact .empty
  | some regex => exact .alternatives stands

/-- Every source of the dialect can be read, as the language that it denotes. -/
theorem read_of_denotes
    {source : String}
    {language : Language Char}
    (denotes : Denotes source.toList language) :
    ∃ regex, read source = .ok regex ∧ languageOfOption regex = language := by
  simp only [read_eq_ok_iff_readsGroup]
  generalize source.toList.length = total
  generalize source.toList = characters at denotes ⊢
  cases denotes with
  | empty => exact ⟨none, ⟨[], readsGroup_nil_iff.2 ⟨rfl, rfl, rfl⟩⟩, rfl⟩
  | alternatives alternatives =>
      obtain ⟨earlier, last, rfl, leads⟩ := leadsTo_of_alternatives alternatives
      obtain ⟨larger, finished, branch, leads⟩ := leads []
      rw [List.append_nil] at finished
      obtain ⟨regex, same, closes⟩ := close_eq_ok finished branch
      refine ⟨some regex, ⟨[], ?_⟩, same⟩
      rw [← List.append_nil characters]
      exact leads _ _ _ _ _ (readsGroup_nil_iff.2 ⟨rfl, closes _, rfl⟩)

end Regex
end Reckoner
