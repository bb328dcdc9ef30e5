import Mathlib.Tactic.Common
import TokenStream.Invocation

/-!
# Which prompt a session gets

The options of a session are read from the first to the last.  Each that chooses a prompt replaces
what was chosen before it, and the first that does not ends the reading with a fault.  So of the
prompts the last counts, and of the faults the first.

Reading begins with the prompt of the environment, or with the default if there is none, and from
then on a prompt that was chosen is as good as one of the environment.  This is why the options may
be read in two parts (`Command.promptFrom_append`).
-/

namespace TokenStream

namespace Command

variable (prompt : String)

/-! ## Reading options -/

/-- An option that chooses a prompt replaces the one chosen before it. -/
lemma promptFrom_cons_of_prompt (chosen : String) (rest : List String) :
    promptFrom prompt ((promptOption ++ chosen) :: rest) = promptFrom chosen rest := by
  rw [promptFrom, Text.after?_eq_some_iff.2 rfl]

/-- Any other option ends the reading. -/
lemma promptFrom_cons_of_ne {option : String} (h : ∀ chosen, option ≠ promptOption ++ chosen)
    (rest : List String) :
    promptFrom prompt (option :: rest) = .error (.unknownOption option) := by
  have hnone : Text.after? promptOption option = none :=
    Option.eq_none_iff_forall_not_mem.2 fun chosen hchosen =>
      h chosen (Text.after?_eq_some_iff.1 hchosen)
  rw [promptFrom, hnone]

/-- Induction over the options of a session: the first chooses a prompt, or nothing behind it is
read. -/
@[elab_as_elim]
theorem induction_on_options {motive : List String → Prop} (nil : motive [])
    (prompt : ∀ chosen rest, motive rest → motive ((promptOption ++ chosen) :: rest))
    (unknown : ∀ option rest, (∀ chosen, option ≠ promptOption ++ chosen) →
      motive (option :: rest))
    (options : List String) : motive options := by
  induction options with
  | nil => exact nil
  | cons option rest ih =>
    by_cases h : ∃ chosen, option = promptOption ++ chosen
    · obtain ⟨chosen, rfl⟩ := h
      exact prompt chosen rest ih
    · exact unknown option rest fun chosen hchosen => h ⟨chosen, hchosen⟩

/-- What is chosen by some options is what the options behind them begin with. -/
theorem promptFrom_append (xs ys : List String) :
    promptFrom prompt (xs ++ ys) =
      match promptFrom prompt xs with
      | .error fault => .error fault
      | .ok chosen => promptFrom chosen ys := by
  induction xs using induction_on_options generalizing prompt with
  | nil => rfl
  | prompt chosen rest ih =>
    rw [List.cons_append, promptFrom_cons_of_prompt, promptFrom_cons_of_prompt, ih]
  | unknown option rest h =>
    rw [List.cons_append, promptFrom_cons_of_ne prompt h, promptFrom_cons_of_ne prompt h]

/-- Of several prompts the last is chosen. -/
theorem promptFrom_map (prompts : List String) :
    promptFrom prompt (prompts.map (promptOption ++ ·)) = .ok (prompts.getLast?.getD prompt) := by
  induction prompts generalizing prompt with
  | nil => rfl
  | cons chosen prompts ih =>
    rw [List.map_cons, promptFrom_cons_of_prompt, ih, List.getLast?_cons, Option.getD_some]

/-- Behind an option that chooses no prompt nothing counts, and before it no prompt does. -/
lemma promptFrom_of_unknown {option : String} (h : ∀ chosen, option ≠ promptOption ++ chosen)
    (prompts rest : List String) :
    promptFrom prompt (prompts.map (promptOption ++ ·) ++ option :: rest) =
      .error (.unknownOption option) := by
  rw [promptFrom_append, promptFrom_map]
  exact promptFrom_cons_of_ne _ h rest

/-- Options all choose prompts, or there is a first that does not. -/
lemma options_cases (options : List String) :
    (∃ prompts : List String, options = prompts.map (promptOption ++ ·)) ∨
      ∃ (prompts : List String) (option : String) (rest : List String),
        options = prompts.map (promptOption ++ ·) ++ option :: rest ∧
          ∀ chosen, option ≠ promptOption ++ chosen := by
  induction options using induction_on_options with
  | nil => exact Or.inl ⟨[], rfl⟩
  | prompt chosen rest ih =>
    rcases ih with ⟨prompts, rfl⟩ | ⟨prompts, option, behind, rfl, h⟩
    · exact Or.inl ⟨chosen :: prompts, rfl⟩
    · exact Or.inr ⟨chosen :: prompts, option, behind, rfl, h⟩
  | unknown option rest h => exact Or.inr ⟨[], option, rest, rfl, h⟩

theorem promptFrom_eq_ok_iff {options : List String} {chosen : String} :
    promptFrom prompt options = .ok chosen ↔
      ∃ prompts : List String, options = prompts.map (promptOption ++ ·) ∧
        chosen = prompts.getLast?.getD prompt := by
  constructor
  · intro h
    rcases options_cases options with ⟨prompts, rfl⟩ | ⟨prompts, option, rest, rfl, hoption⟩
    · rw [promptFrom_map] at h
      exact ⟨prompts, rfl, (Except.ok.inj h).symm⟩
    · rw [promptFrom_of_unknown prompt hoption] at h
      cases h
  · rintro ⟨prompts, rfl, rfl⟩
    exact promptFrom_map prompt prompts

theorem promptFrom_eq_error_iff {options : List String} {fault : UsageFault} :
    promptFrom prompt options = .error fault ↔
      ∃ (prompts : List String) (option : String) (rest : List String),
        options = prompts.map (promptOption ++ ·) ++ option :: rest ∧
          (∀ chosen, option ≠ promptOption ++ chosen) ∧ fault = .unknownOption option := by
  constructor
  · intro h
    rcases options_cases options with ⟨prompts, rfl⟩ | ⟨prompts, option, rest, rfl, hoption⟩
    · rw [promptFrom_map] at h
      cases h
    · rw [promptFrom_of_unknown prompt hoption] at h
      exact ⟨prompts, option, rest, rfl, hoption, (Except.error.inj h).symm⟩
  · rintro ⟨prompts, option, rest, rfl, hoption, rfl⟩
    exact promptFrom_of_unknown prompt hoption prompts rest

/-! ## Argument lists -/

section Repl

variable (environment : Option String) (options : List String)

lemma ofArguments_repl : ofArguments environment ("repl" :: options) =
    (promptFrom (environment.getD Session.defaultPrompt) options).map .session := by
  rw [ofArguments]

lemma ofArguments_repl_eq_ok_iff {prompt : String} :
    ofArguments environment ("repl" :: options) = .ok (.session prompt) ↔
      promptFrom (environment.getD Session.defaultPrompt) options = .ok prompt := by
  rw [ofArguments_repl]
  cases promptFrom (environment.getD Session.defaultPrompt) options <;> simp [Except.map]

lemma ofArguments_repl_eq_error_iff {fault : UsageFault} :
    ofArguments environment ("repl" :: options) = .error fault ↔
      promptFrom (environment.getD Session.defaultPrompt) options = .error fault := by
  rw [ofArguments_repl]
  cases promptFrom (environment.getD Session.defaultPrompt) options <;> simp [Except.map]

end Repl

/-- Only a session looks at the environment. -/
lemma ofArguments_of_ne {first : String} (h : first ≠ "repl") (rest : List String)
    (environment other : Option String) :
    ofArguments environment (first :: rest) = ofArguments other (first :: rest) := by
  unfold ofArguments
  split <;> simp_all

end Command

/-- How the prompt of a session is found.  Options that are read in two parts are read with what the
first part has chosen in place of the environment, unless the first part is at fault.  A session
gets a prompt exactly if all its options choose one, and then it is that of the last option, or else
that of the environment, or else the default; otherwise the first option that chooses none is named.
For any other command the environment makes no difference. -/
theorem prompt_of_options :
    (∀ (environment : Option String) (xs ys : List String),
      let whole := Command.ofArguments environment ("repl" :: (xs ++ ys))
      match Command.ofArguments environment ("repl" :: xs) with
      | .error fault => whole = .error fault
      | .ok (.session prompt) => whole = Command.ofArguments (some prompt) ("repl" :: ys)
      | .ok _ => False) ∧
    (∀ (environment : Option String) (options : List String) (prompt : String),
      Command.ofArguments environment ("repl" :: options) = .ok (.session prompt) ↔
        ∃ prompts : List String, options = prompts.map ("--prompt=" ++ ·) ∧
          prompt = (prompts.getLast?.or environment).getD ">> ") ∧
    (∀ (environment : Option String) (options : List String) (fault : UsageFault),
      Command.ofArguments environment ("repl" :: options) = .error fault ↔
        ∃ (prompts : List String) (option : String) (rest : List String),
          options = prompts.map ("--prompt=" ++ ·) ++ option :: rest ∧
            (∀ prompt, option ≠ "--prompt=" ++ prompt) ∧ fault = .unknownOption option ∧
            fault.message = "unknown repl option '" ++ option ++ "'") ∧
    ∀ (first : String) (rest : List String) (environment other : Option String), first ≠ "repl" →
      Command.ofArguments environment (first :: rest) =
        Command.ofArguments other (first :: rest) := by
  refine ⟨fun environment xs ys => ?_, fun environment options prompt => ?_,
    fun environment options fault => ?_, fun first rest environment other h =>
      Command.ofArguments_of_ne h rest environment other⟩
  · intro whole
    have hwhole : whole = _ := Command.ofArguments_repl environment (xs ++ ys)
    rw [hwhole, Command.ofArguments_repl, Command.promptFrom_append]
    cases Command.promptFrom (environment.getD Session.defaultPrompt) xs with
    | error fault => rfl
    | ok prompt => exact (Command.ofArguments_repl (some prompt) ys).symm
  · rw [Command.ofArguments_repl_eq_ok_iff, Command.promptFrom_eq_ok_iff]
    simp only [Option.getD_or]
    rfl
  · rw [Command.ofArguments_repl_eq_error_iff, Command.promptFrom_eq_error_iff]
    constructor
    · rintro ⟨prompts, option, rest, hoptions, hoption, rfl⟩
      exact ⟨prompts, option, rest, hoptions, hoption, rfl, rfl⟩
    · rintro ⟨prompts, option, rest, hoptions, hoption, hfault, -⟩
      exact ⟨prompts, option, rest, hoptions, hoption, hfault⟩

-- the last option begins with the mark of a prompt twice, and the environment is overruled
example : Command.ofArguments (some "$ ") ["repl", "--prompt=a", "--prompt=--prompt="] =
    .ok (.session "--prompt=") := by
  cbv

/-- The listing of a file, which takes no prompt. -/
theorem prompt_of_options_lex :
    "lex" ≠ "repl" ∧ Command.ofArguments (some "$ ") ["lex", "--prompt=a"] =
      Command.ofArguments none ["lex", "--prompt=a"] := by
  have hne : "lex" ≠ "repl" := by decide
  obtain ⟨-, -, -, hother⟩ := prompt_of_options
  exact ⟨hne, hother "lex" ["--prompt=a"] (some "$ ") none hne⟩

end TokenStream
