import Reckoner.Proofs.Standard.Rereading
import Reckoner.Proofs.Standard.SteadyRegistry
import Reckoner.Session

/-!
# Histories

A session that has served requests differs from a new one in its caches and in its bindings.  The
bindings are those that the successful calculations have made, and what the caches hold never shows:
evaluations that failed, that were cancelled or whose bindings were not taken over leave no trace.
-/

namespace Reckoner

open Run Registry

namespace Session

/-! ## Requests -/

/-- What a session is asked for. -/
inductive Request
  /-- Read and evaluate a text and take over the bindings. -/
  | calculate (text : String)
  /-- Evaluate an expression, which may be cancelled at any check, and leave the bindings. -/
  | evaluate (tree : Expr) (cancellation : Cancellation)
  deriving DecidableEq

/-- A request that is not cancelled. -/
def Request.undisturbed : Request → Request
  | .calculate text => .calculate text
  | .evaluate tree _ => .evaluate tree .never

/-- What a session answers: the value of a text, or that of an expression with the bindings that it
was evaluated to. -/
inductive Answer
  | value (number : Number)
  | evaluated (result : Evaluated)
  deriving DecidableEq

/-- Serve a request. -/
def serve (limit : Nat) (session : Session) : Request → Except Stop Answer × Session
  | .calculate text =>
      match session.calculate limit text none with
      | (outcome, after) => (outcome.map .value, after)
  | .evaluate tree cancellation =>
      match session.evaluate limit tree cancellation with
      | (outcome, after) => (outcome.map .evaluated, after)

/-- Serve requests one after the other, each under a limit of its own. -/
def serveAll : Session → List (Nat × Request) → Session
  | session, [] => session
  | session, (limit, request) :: rest => serveAll (session.serve limit request).2 rest

/-- The text of a request that is calculated successfully. -/
def success (limit : Nat) (session : Session) : Request → List String
  | .calculate text =>
      match (session.calculate limit text none).1 with
      | .ok _ => [text]
      | .error _ => []
  | .evaluate _ _ => []

/-- The texts among requests that are calculated successfully, in order. -/
def successes : Session → List (Nat × Request) → List String
  | _, [] => []
  | session, (limit, request) :: rest =>
      session.success limit request ++ successes (session.serve limit request).2 rest

/-- Calculate texts one after the other. -/
def replay (limit : Nat) (session : Session) (texts : List String) : Session :=
  texts.foldl (fun current text => (current.calculate limit text none).2) session

/-- What one session answers to a request another one answers, too, if it is not cancelled and has
enough time, and they have the same bindings then. -/
def Foretells (first second : Session) (request : Request) : Prop :=
  ∀ limit, IsAnswer (first.serve limit request).1 →
    ∃ bound, ∀ longer ≥ bound,
      (second.serve longer request.undisturbed).1 = (first.serve limit request).1 ∧
      (second.serve longer request.undisturbed).2.context = (first.serve limit request).2.context

/-! ## Sessions that differ in their caches -/

variable {sound : Caches → Prop} {session : Session}

@[simp] theorem keepCaches_registry_caches (session : Session) :
    session.keepCaches session.registry.caches = session := rfl

/-- A session with steady registrations and sound caches. -/
structure IsSound (sound : Caches → Prop) (session : Session) : Prop where
  steady : session.registry.IsSteady sound
  held : sound session.registry.caches

/-- A session with other sound caches is sound. -/
theorem IsSound.keepCaches
    {caches : Caches}
    (isSound : session.IsSound sound)
    (held : sound caches) :
    (session.keepCaches caches).IsSound sound :=
  ⟨isSound.steady.withCaches caches, held⟩

/-- Sessions that differ in their caches come to one outcome, and to sessions that differ in their
caches. -/
def Settles
    (sound : Caches → Prop)
    (session : Session)
    {α : Type}
    (serving : Nat → Session → Except Stop α × Session)
    (outcome : Except Stop α)
    (final : Session) : Prop :=
  ∃ bound, ∀ limit ≥ bound, ∀ caches, sound caches → ∃ after, sound after ∧
    serving limit (session.keepCaches caches) = (outcome, final.keepCaches after)

theorem Settles.map
    {α β : Type}
    {serving : Nat → Session → Except Stop α × Session}
    {outcome : Except Stop α}
    {final : Session}
    (settles : Settles sound session serving outcome final)
    (function : α → β) :
    Settles sound session
      (fun limit current => ((serving limit current).1.map function, (serving limit current).2))
      (outcome.map function) final := by
  obtain ⟨bound, settled⟩ := settles
  refine ⟨bound, fun limit beyond caches held => ?_⟩
  obtain ⟨after, heldAfter, same⟩ := settled limit beyond caches held
  refine ⟨after, heldAfter, ?_⟩
  simp only [same]

/-- An evaluation leaves a session behind that has other caches. -/
theorem IsSound.exists_evaluate_eq
    (isSound : session.IsSound sound)
    (limit : Nat)
    (tree : Expr)
    (cancellation : Cancellation) :
    ∃ caches, sound caches ∧
      (session.evaluate limit tree cancellation).2 = session.keepCaches caches :=
  ⟨_, (isSound.steady.evaluate isSound.held limit session.context tree cancellation).1, rfl⟩

/-- An evaluation that answers settles, whatever the caches hold. -/
theorem IsSound.settles_evaluate
    {limit : Nat}
    {tree : Expr}
    {cancellation : Cancellation}
    (isSound : session.IsSound sound)
    (answers : IsAnswer (session.evaluate limit tree cancellation).1) :
    Settles sound session (fun limit current => current.evaluate limit tree .never)
      (session.evaluate limit tree cancellation).1
      (session.evaluate limit tree cancellation).2 := by
  obtain ⟨bound, settled⟩ :=
    (isSound.steady.evaluate isSound.held limit session.context tree cancellation).2 answers
  refine ⟨bound, fun longer beyond caches held => ?_⟩
  obtain ⟨after, heldAfter, leaves⟩ :=
    (isSound.keepCaches held).exists_evaluate_eq longer tree .never
  exact ⟨after, heldAfter, Prod.ext (settled longer beyond caches held) leaves⟩

/-! ## Calculations -/

theorem calculateBy_of_parse_eq_ok
    {text : String}
    {tree : Expr}
    (parses : session.parse text = .ok tree)
    (limit : Nat)
    (deadline : Option Deadline) :
    session.calculateBy limit text deadline =
      conclude (session.evaluateBy limit tree deadline) := by
  rw [calculateBy, calculateWith, parses]

theorem calculateBy_of_parse_eq_error
    {text : String}
    {failure : Failure}
    (fails : session.parse text = .error failure)
    (limit : Nat)
    (deadline : Option Deadline) :
    session.calculateBy limit text deadline = (.error (.failed failure), session) := by
  rw [calculateBy, calculateWith, fails]

theorem calculate_of_parse_eq_ok
    {text : String}
    {tree : Expr}
    (parses : session.parse text = .ok tree)
    (limit : Nat) :
    session.calculate limit text none = conclude (session.evaluate limit tree .never) :=
  calculateBy_of_parse_eq_ok parses limit none

theorem calculate_of_parse_eq_error
    {text : String}
    {failure : Failure}
    (fails : session.parse text = .error failure)
    (limit : Nat) :
    session.calculate limit text none = (.error (.failed failure), session) :=
  calculateBy_of_parse_eq_error fails limit none

/-- Whether it is cancelled by a deadline or not, a calculation leaves sound caches behind. -/
theorem IsSound.calculateBy
    (isSound : session.IsSound sound)
    (limit : Nat)
    (text : String)
    (deadline : Option Deadline) :
    (session.calculateBy limit text deadline).2.IsSound sound := by
  cases parses : session.parse text with
  | error failure =>
      rw [calculateBy_of_parse_eq_error parses]
      exact isSound
  | ok tree =>
      have leaves : ∃ caches, sound caches ∧
          (session.evaluateBy limit tree deadline).2 = session.keepCaches caches := by
        cases deadline <;> exact isSound.exists_evaluate_eq limit tree _
      obtain ⟨caches, held, leaves⟩ := leaves
      rw [calculateBy_of_parse_eq_ok parses]
      rcases ran : session.evaluateBy limit tree deadline with ⟨stop | result, after⟩
      · obtain rfl : after = session.keepCaches caches := by rw [← leaves, ran]
        exact isSound.keepCaches held
      · obtain rfl : after = session.keepCaches caches := by rw [← leaves, ran]
        exact ⟨isSound.steady.withCaches caches, held⟩

/-- A calculation that fails leaves a session behind that has other caches. -/
theorem IsSound.exists_keepCaches_eq
    {limit : Nat}
    {text : String}
    {stop : Stop}
    (isSound : session.IsSound sound)
    (fails : (session.calculate limit text none).1 = .error stop) :
    ∃ caches, sound caches ∧
      (session.calculate limit text none).2 = session.keepCaches caches := by
  cases parses : session.parse text with
  | error failure =>
      rw [calculate_of_parse_eq_error parses]
      exact ⟨session.registry.caches, isSound.held, rfl⟩
  | ok tree =>
      obtain ⟨caches, held, leaves⟩ := isSound.exists_evaluate_eq limit tree .never
      rw [calculate_of_parse_eq_ok parses] at fails ⊢
      rcases ran : session.evaluate limit tree .never with ⟨other | result, after⟩
      · refine ⟨caches, held, ?_⟩
        rw [← leaves, ran]
        rfl
      · rw [ran] at fails
        cases fails

/-- A calculation that answers settles, whatever the caches hold. -/
theorem IsSound.settles_calculate
    {limit : Nat}
    {text : String}
    (isSound : session.IsSound sound)
    (answers : IsAnswer (session.calculate limit text none).1) :
    Settles sound session (fun limit current => current.calculate limit text none)
      (session.calculate limit text none).1 (session.calculate limit text none).2 := by
  cases parses : session.parse text with
  | error failure =>
      rw [calculate_of_parse_eq_error parses]
      refine ⟨0, fun longer _ caches held => ⟨caches, held, ?_⟩⟩
      have fails : (session.keepCaches caches).parse text = .error failure := parses
      exact calculate_of_parse_eq_error fails longer
  | ok tree =>
      rw [calculate_of_parse_eq_ok parses] at answers ⊢
      have answersBefore : IsAnswer (session.evaluate limit tree .never).1 := by
        rcases ran : session.evaluate limit tree .never with ⟨stop | result, after⟩
        · rw [ran] at answers
          exact answers.of_error
        · exact isAnswer_ok result
      obtain ⟨bound, settled⟩ := isSound.settles_evaluate answersBefore
      refine ⟨bound, fun longer beyond caches held => ?_⟩
      obtain ⟨after, heldAfter, same⟩ := settled longer beyond caches held
      refine ⟨after, heldAfter, ?_⟩
      have succeeds : (session.keepCaches caches).parse text = .ok tree := parses
      refine (calculate_of_parse_eq_ok succeeds longer).trans ((congrArg conclude same).trans ?_)
      rcases session.evaluate limit tree .never with ⟨_ | _, _⟩ <;> rfl

/-! ## Requests and histories -/

theorem isAnswer_map_iff
    {α β : Type}
    {outcome : Except Stop α}
    (function : α → β) :
    IsAnswer (outcome.map function) ↔ IsAnswer outcome := by
  cases outcome <;> simp [IsAnswer, Except.map]

/-- Serving a request leaves the session sound. -/
theorem IsSound.serve
    (isSound : session.IsSound sound)
    (limit : Nat)
    (request : Request) :
    (session.serve limit request).2.IsSound sound := by
  cases request with
  | calculate text => exact isSound.calculateBy limit text none
  | evaluate tree cancellation =>
      obtain ⟨caches, held, leaves⟩ := isSound.exists_evaluate_eq limit tree cancellation
      exact leaves ▸ isSound.keepCaches held

/-- A request that is answered settles, whatever the caches hold. -/
theorem IsSound.settles_serve
    {limit : Nat}
    {request : Request}
    (isSound : session.IsSound sound)
    (answers : IsAnswer (session.serve limit request).1) :
    Settles sound session (fun limit current => current.serve limit request.undisturbed)
      (session.serve limit request).1 (session.serve limit request).2 := by
  cases request with
  | calculate text =>
      exact (isSound.settles_calculate ((isAnswer_map_iff _).1 answers)).map Answer.value
  | evaluate tree cancellation =>
      exact (isSound.settles_evaluate ((isAnswer_map_iff _).1 answers)).map Answer.evaluated

/-- A session with other sound caches foretells the answer. -/
theorem IsSound.foretells
    {caches : Caches}
    (isSound : session.IsSound sound)
    (held : sound caches)
    (request : Request) :
    Foretells session (session.keepCaches caches) request := by
  intro limit answers
  obtain ⟨bound, settled⟩ := isSound.settles_serve answers
  refine ⟨bound, fun longer beyond => ?_⟩
  obtain ⟨after, _, same⟩ := settled longer beyond caches held
  have same : (session.keepCaches caches).serve longer request.undisturbed = _ := same
  rw [same]
  exact ⟨rfl, rfl⟩

theorem IsSound.serveAll
    (isSound : session.IsSound sound)
    (history : List (Nat × Request)) :
    (session.serveAll history).IsSound sound := by
  induction history generalizing session with
  | nil => exact isSound
  | cons entry rest hypothesis => exact hypothesis (isSound.serve entry.1 entry.2)

/-- A session that calculates again what another one has calculated successfully follows it,
except for the caches. -/
def Follows (sound : Caches → Prop) (session final : Session) (texts : List String) : Prop :=
  ∃ bound, ∀ limit ≥ bound, ∀ caches, sound caches → ∃ after, sound after ∧
    (session.keepCaches caches).replay limit texts = final.keepCaches after

theorem follows_nil
    {caches : Caches} :
    Follows sound session (session.keepCaches caches) [] :=
  ⟨0, fun _ _ caches held => ⟨caches, held, rfl⟩⟩

/-- Histories that follow one another make one. -/
theorem Follows.append
    {middle final : Session}
    {first second : List String}
    (before : Follows sound session middle first)
    (behind : Follows sound middle final second) :
    Follows sound session final (first ++ second) := by
  obtain ⟨firstBound, followed⟩ := before
  obtain ⟨secondBound, followedOn⟩ := behind
  refine ⟨max firstBound secondBound, fun limit beyond caches held => ?_⟩
  obtain ⟨between, heldBetween, same⟩ := followed limit (by omega) caches held
  obtain ⟨after, heldAfter, last⟩ := followedOn limit (by omega) between heldBetween
  refine ⟨after, heldAfter, ?_⟩
  rw [replay, List.foldl_append]
  exact (congrArg (fun current => replay limit current second) same).trans last

theorem IsSound.follows_serve
    (isSound : session.IsSound sound)
    (limit : Nat)
    (request : Request) :
    Follows sound session (session.serve limit request).2 (session.success limit request) := by
  cases request with
  | evaluate tree cancellation =>
      obtain ⟨caches, _, leaves⟩ := isSound.exists_evaluate_eq limit tree cancellation
      have served : (session.serve limit (.evaluate tree cancellation)).2 =
          session.keepCaches caches := leaves
      rw [served]
      exact follows_nil
  | calculate text =>
      cases outcome : (session.calculate limit text none).1 with
      | error stop =>
          obtain ⟨caches, _, leaves⟩ := isSound.exists_keepCaches_eq outcome
          have served :
              (session.serve limit (.calculate text)).2 = session.keepCaches caches := leaves
          rw [served, success, outcome]
          exact follows_nil
      | ok value =>
          have answers : IsAnswer (session.calculate limit text none).1 :=
            outcome ▸ isAnswer_ok value
          obtain ⟨bound, settled⟩ := isSound.settles_calculate answers
          rw [success, outcome]
          refine ⟨bound, fun longer beyond caches held => ?_⟩
          obtain ⟨after, heldAfter, same⟩ := settled longer beyond caches held
          exact ⟨after, heldAfter, congrArg Prod.snd same⟩

/-- To calculate again what has been calculated successfully leads to the same session, except
for the caches. -/
theorem IsSound.follows_serveAll
    (isSound : session.IsSound sound)
    (history : List (Nat × Request)) :
    Follows sound session (session.serveAll history) (session.successes history) := by
  induction history generalizing session with
  | nil => exact ⟨0, fun _ _ caches held => ⟨caches, held, rfl⟩⟩
  | cons entry rest hypothesis =>
      exact (isSound.follows_serve entry.1 entry.2).append
        (hypothesis (isSound.serve entry.1 entry.2))

/-! ## New sessions -/

/-- The plugins that a new session lets register. -/
def chosen (configuration : Configuration) : List Installed :=
  (PluginManager.empty.add Standard.plugin).eligible configuration.disabled.names

theorem chosen_eq (configuration : Configuration) :
    chosen configuration =
      if configuration.disabled.names.contains Standard.pluginId then []
      else [⟨0, Standard.plugin⟩] := by
  have plugins : (PluginManager.empty.add Standard.plugin).plugins = [⟨0, Standard.plugin⟩] := rfl
  have named : Standard.plugin.id = Standard.pluginId := rfl
  rw [chosen, PluginManager.eligible, plugins, List.filter_cons, List.filter_nil, named]
  cases configuration.disabled.names.contains Standard.pluginId <;> rfl

/-- A new session has the standard registry unless its plugin is disabled. -/
theorem registry_new (configuration : Configuration) :
    (new configuration).registry =
      if configuration.disabled.names.contains Standard.pluginId then
        Registry.empty.rebuildPromotions .byName
      else Standard.registry := by
  have filled : (new configuration).registry =
      ((chosen configuration).foldl
        (fun registry (installed : Installed) => installed.plugin.enable registry)
          Registry.empty).rebuildPromotions .byName := rfl
  rw [filled, chosen_eq]
  cases configuration.disabled.names.contains Standard.pluginId with
  | true => rfl
  | false =>
      rw [if_neg Bool.false_ne_true, if_neg Bool.false_ne_true, List.foldl_cons, List.foldl_nil]
      rfl

/-- There is a property of caches that makes new sessions sound. -/
theorem exists_isSound_new (configuration : Configuration) :
    ∃ sound, (new configuration).IsSound sound := by
  cases left : configuration.disabled.names.contains Standard.pluginId with
  | true =>
      have registry : (new configuration).registry = Registry.empty.rebuildPromotions .byName := by
        rw [registry_new, left]
        rfl
      refine ⟨fun _ => True, ?_, trivial⟩
      rw [registry]
      exact contains_empty.rebuildPromotions
  | false =>
      have registry : (new configuration).registry = Standard.registry := by
        rw [registry_new, left]
        rfl
      refine ⟨Standard.registry.Keeps Caches.AreTables, ?_, ?_⟩
      · rw [registry]
        exact Standard.isSteady_registry
      · rw [registry]
        exact Standard.registry.keeps_empty Caches.areTables_empty

/-- After any requests a session answers as a new one does that has only calculated again what
has been calculated successfully before, and has the same bindings: neither caches nor
evaluations that failed, were cancelled or were not taken over show in answers. -/
theorem foretells_replay (configuration : Configuration) (history : List (Nat × Request)) :
    ∃ bound, ∀ limit ≥ bound,
      let used := (new configuration).serveAll history
      let fresh := (new configuration).replay limit ((new configuration).successes history)
      fresh.context = used.context ∧
        ∀ request, Foretells used fresh request ∧ Foretells fresh used request := by
  obtain ⟨sound, isSound⟩ := exists_isSound_new configuration
  have isSoundUsed := isSound.serveAll history
  obtain ⟨bound, followed⟩ := isSound.follows_serveAll history
  refine ⟨bound, fun limit beyond => ?_⟩
  obtain ⟨caches, held, same⟩ := followed limit beyond _ isSound.held
  rw [keepCaches_registry_caches] at same
  intro used fresh
  obtain same : fresh = used.keepCaches caches := same
  rw [same]
  exact ⟨rfl, fun request => ⟨isSoundUsed.foretells held request,
    (isSoundUsed.keepCaches held).foretells isSoundUsed.held request⟩⟩

theorem grammar_rebuildPromotions
    (registry : Registry)
    (order : Traversal NumberImplementation) :
    (registry.rebuildPromotions order).grammar = registry.grammar := rfl

theorem parse_new_assignment : (new .default).parse "x=3" =
    .ok (.binary .tree "=" (.variable "x") (.number "3")) := by
  have announced : (new .default).reader =
      Reader.base.follow [.enabled ⟨0, Standard.plugin⟩,
        .announced (.load Standard.registry.grammar)] := rfl
  have loaded : (new .default).reader = Standard.reader := by
    rw [announced, Standard.registry, grammar_rebuildPromotions]
    rfl
  have isNumber : Tokenizer.IsToken Standard.grammar ⟨.number, "3"⟩ := by
    refine Tokenizer.isToken_number Standard.orderly ?_ (by decide)
    refine Language.mem_mul.2 ⟨['3'], ?_, [], Or.inl rfl, rfl⟩
    refine Language.mem_kstar.2 ⟨[['3']], rfl, ?_⟩
    simp only [List.mem_singleton, forall_eq]
    exact ⟨'3', by decide, by decide, rfl⟩
  have areTokens : ∀ token ∈ [⟨.variable, "x"⟩, ⟨.operator .tree, "="⟩, ⟨.number, "3"⟩],
      Tokenizer.IsToken Standard.grammar token := by
    simp only [List.forall_mem_cons, List.not_mem_nil, false_implies, implies_true, and_true]
    exact ⟨Tokenizer.isToken_of_isKnown Standard.orderly (by decide),
      Tokenizer.isToken_of_isKnown Standard.orderly (by decide), isNumber⟩
  rw [Session.parse, loaded]
  refine (Reader.parse_eq_of_spelling Standard.orderly areTokens (by decide) (by decide)
    (by decide)).trans ?_
  exact Precedences.parse_eq_ok_iff.2 ⟨_, rfl, ⟨by decide, trivial, trivial⟩, rfl⟩

/-- One calculation that succeeds, an assignment that is not taken over, and a factorial that is
cancelled while it is worked out. -/
def interrupted : List (Nat × Request) :=
  [(9, .calculate "x=3"),
    (9, .evaluate (.binary .tree "=" (.variable "y") (.number "1")) .never),
    (9, .evaluate (.unary .value "!" .after (.number "5")) (.after 6))]

/-- The cancelled factorial leaves a table behind, and yet a new session that has only calculated
`x=3` gives the same factorial of `x`. -/
theorem foretells_replay_interrupted :
    ((new .default).serveAll interrupted).registry.caches.factorials.fast.size = 5 ∧
      (new .default).successes interrupted = ["x=3"] ∧
      ∃ bound, ∀ limit ≥ bound, ∃ longest, ∀ longer ≥ longest,
        (((new .default).replay limit ["x=3"]).serve longer
          (.evaluate (.unary .value "!" .after (.variable "x")) .never)).1 =
        .ok (.evaluated ⟨.ofInt .fast 6,
          (Context.withImplementation "naive").setVariable "x" (.ofInt .fast 3)⟩) := by
  have calculated := calculate_of_parse_eq_ok parse_new_assignment 9
  have successes : (new .default).successes interrupted = ["x=3"] := by
    have succeeds : (conclude ((new .default).evaluate 9
        (.binary .tree "=" (.variable "x") (.number "3")) .never)).1 = .ok (.ofInt .fast 3) := by
      decide +kernel
    simp only [interrupted, Session.successes, success, calculated, succeeds, List.append_nil]
  have size : ((new .default).serveAll interrupted).registry.caches.factorials.fast.size = 5 := by
    simp only [interrupted, serveAll, Session.serve, calculated]
    decide +kernel
  have answer : (((new .default).serveAll interrupted).serve 9
      (.evaluate (.unary .value "!" .after (.variable "x")) .never)).1 =
      .ok (.evaluated ⟨.ofInt .fast 6,
        (Context.withImplementation "naive").setVariable "x" (.ofInt .fast 3)⟩) := by
    simp only [interrupted, serveAll, Session.serve, calculated]
    decide +kernel
  refine ⟨size, successes, ?_⟩
  obtain ⟨bound, follows⟩ := foretells_replay .default interrupted
  refine ⟨bound, fun limit beyond => ?_⟩
  obtain ⟨longest, same⟩ := ((follows limit beyond).2 _).1 9 (answer ▸ isAnswer_ok _)
  rw [successes, answer] at same
  exact ⟨longest, fun longer beyond => (same longer beyond).1⟩

end Session
end Reckoner
