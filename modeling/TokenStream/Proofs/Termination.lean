import TokenStream.Proofs.Attainable
import TokenStream.Proofs.Failures
import TokenStream.Proofs.Walks

/-!
# Pulling comes to an end

Every pull that yields a token takes up at least one byte that is no blank (`Cursor.Moves`), and a
pull that yields none has met the end of the text, where all further pulls stay.  So a loop that
pulls until nothing is left needs at most one pull more than there are such bytes ahead, whatever it
does with what it pulls (`Loop.within_eq`).

Scanning a text into a list, collecting its tokens, and listing them on a sink are such loops.  The
listing may stop before the end of the text, with the first line that the sink refuses; what it has
done by then is what the script of the listing does on that sink (`Listing.fold_writing`).
-/

namespace TokenStream

namespace Cursor

variable {c after : Cursor} {lexeme : Lexeme}

/-- The next token, where the end of the text counts as one, and the cursor behind it. -/
def nextToken (c : Cursor) : Token × Cursor :=
  ((c.pull.1.map Lexeme.token).getD Token.endOfInput, c.pull.2)

/-- The cursor behind `n` pulls from the start of a text, those at its end included. -/
def afterPulls (source : String) : Nat → Cursor
  | 0 => { source }
  | n + 1 => (afterPulls source n).pull.2

/-- The number of bytes ahead that are no blanks. -/
def solid (c : Cursor) : Nat := c.ahead.countP fun b => !isBlank b

/-- What a pull that yields a lexeme does to the cursor. -/
structure Moves (c after : Cursor) : Prop where
  source_eq : after.source = c.source
  position_lt : c.position < after.position
  position_le : after.position ≤ c.source.utf8ByteSize
  solid_lt : after.solid < c.solid

/-! ## One pull -/

lemma length_ahead (c : Cursor) : c.ahead.length = c.source.utf8ByteSize - c.position := by
  rw [ahead, List.length_drop, Text.length_bytes]

end Cursor

/-- The end of a text is no token that could be spelled. -/
lemma Spells.isEndOfInput_eq_false {bs : List UInt8} {t : Token} (h : Spells bs t) :
    t.isEndOfInput = false := by
  have hwell := Token.wellFormed_iff.2 ⟨bs, h⟩
  rw [Token.isEndOfInput, beq_eq_false_iff_ne]
  intro hkind
  rw [Token.WellFormed, hkind] at hwell
  exact hwell

/-- A spelling has no blank in it, and it is not empty. -/
lemma Segment.countP_bytes_pos (p : Segment) : 0 < p.bytes.countP fun b => !isBlank b := by
  obtain ⟨b, more, hb⟩ := List.exists_cons_of_ne_nil p.spells.ne_nil
  have hmem : b ∈ p.spelling := by simp [hb]
  rw [List.countP_pos_iff]
  refine ⟨b, List.mem_append_right _ hmem, ?_⟩
  rw [(p.spells.classes_of_mem hmem).1]
  rfl

namespace Cursor

variable {c after : Cursor} {lexeme : Lexeme}

lemma nextToken_of_some (h : c.pull = (some lexeme, after)) :
    c.nextToken = (lexeme.token, after) := by
  rw [nextToken, h]
  rfl

lemma nextToken_of_none (h : c.pull = (none, after)) :
    c.nextToken = (Token.endOfInput, after) := by
  rw [nextToken, h]
  rfl

/-- A pull that yields a lexeme makes progress. -/
theorem pull_some (h : c.pull = (some lexeme, after)) :
    ¬ Blank c.ahead ∧ lexeme.token.isEndOfInput = false ∧ c.Moves after := by
  rcases c.pull_cases with ⟨-, hpull⟩ | ⟨p, rest, hahead, hpull⟩
  · simp [hpull] at h
  · obtain ⟨hlexeme, rfl⟩ := Prod.mk.inj (hpull.symm.trans h)
    obtain rfl := Option.some.inj hlexeme
    have hsolid := p.countP_bytes_pos
    have hlength := congrArg List.length hahead
    rw [length_ahead, List.length_append] at hlength
    have hbytes := List.length_pos_iff.2 p.bytes_ne_nil
    refine ⟨fun hblank => ?_, p.spells.isEndOfInput_eq_false, ⟨rfl, ?_, ?_, ?_⟩⟩
    · obtain ⟨b, hb, hnot⟩ := List.countP_pos_iff.1 hsolid
      rw [hblank b (hahead ▸ List.mem_append_left _ hb)] at hnot
      exact Bool.false_ne_true hnot
    · simp only [advance]
      omega
    · simp only [advance]
      omega
    · rw [solid, solid, ahead_advance_of_append hahead, hahead, List.countP_append]
      omega

/-- A pull that yields nothing has found blanks only, and meets the end of the text. -/
theorem pull_none (hc : c.position ≤ c.source.utf8ByteSize) (h : c.pull = (none, after)) :
    Blank c.ahead ∧ after = finish c.source := by
  rcases c.pull_cases with ⟨hblank, hpull⟩ | ⟨p, rest, -, hpull⟩
  · obtain ⟨-, rfl⟩ := Prod.mk.inj (hpull.symm.trans h)
    refine ⟨hblank, ?_⟩
    simp only [advance, finish, length_ahead, Cursor.mk.injEq, true_and]
    omega
  · simp [hpull] at h

/-- All that asking for the next token can do inside a text: take up something, or find blanks only
and meet the end. -/
theorem nextToken_cases (hc : c.position ≤ c.source.utf8ByteSize) :
    (Blank c.ahead ∧ c.nextToken = (Token.endOfInput, finish c.source)) ∨
      (¬ Blank c.ahead ∧ c.nextToken.1.isEndOfInput = false ∧ c.Moves c.nextToken.2) := by
  rcases hpull : c.pull with ⟨_ | lexeme, after⟩
  · obtain ⟨hblank, rfl⟩ := pull_none hc hpull
    exact Or.inl ⟨hblank, nextToken_of_none hpull⟩
  · rw [nextToken_of_some hpull]
    exact Or.inr (pull_some hpull)

/-! ## Many pulls -/

lemma afterPulls_spec (source : String) (n : Nat) :
    (afterPulls source n).source = source ∧
      (afterPulls source n).position ≤ source.utf8ByteSize := by
  induction n with
  | zero => exact ⟨rfl, Nat.zero_le _⟩
  | succ n ih =>
    obtain ⟨hsource, hposition⟩ := ih
    rcases nextToken_cases (by rwa [hsource]) with ⟨-, hnext⟩ | ⟨-, -, hmoves⟩
    · have hafter : afterPulls source (n + 1) = finish (afterPulls source n).source :=
        congrArg Prod.snd hnext
      rw [hafter, hsource]
      exact ⟨rfl, Nat.le_refl _⟩
    · exact ⟨hmoves.source_eq.trans hsource,
        hmoves.position_le.trans_eq (congrArg String.utf8ByteSize hsource)⟩

/-- Once they have met the end of the text, all pulls stay there. -/
lemma afterPulls_of_finish {source : String} {n : Nat}
    (h : (afterPulls source n).nextToken.2 = finish source) (m : Nat) :
    afterPulls source (n + 1 + m) = finish source := by
  induction m with
  | zero => exact h
  | succ m ih => rw [← Nat.add_assoc, afterPulls, ih, pull_finish]

end Cursor

/-- A request for a token is a single pull. -/
lemma Request.pull_token (c : Cursor) : Request.token.pull c = (c.pull.1.toList, c.pull.2) := by
  rcases hpull : c.pull with ⟨_ | lexeme, after⟩ <;> simp [pull, Cursor.pullUpTo, hpull]

/-- It is answered with the next token. -/
lemma Request.answer_token (c : Cursor) :
    Request.token.answer (Request.token.pull c).1 = .token c.nextToken.1 := by
  rw [pull_token]
  cases hpull : c.pull.1 <;> simp [answer, Cursor.nextToken, hpull]

/-! ## Loops -/

/-- A loop over what can be pulled.  The body takes up a lexeme, and either goes on with a new state
or stops with a result; when nothing is left, the loop is finished. -/
structure Loop (σ ρ : Type) where
  body : σ → Lexeme → Except ρ σ
  finish : σ → ρ

namespace Loop

variable {σ ρ : Type} (loop : Loop σ ρ)

/-- The result of a loop with no more than `n` pulls, if it ends within them. -/
def within : Nat → σ → Cursor → Option ρ
  | 0, _, _ => none
  | n + 1, state, c =>
    match c.pull with
    | (none, _) => some (loop.finish state)
    | (some lexeme, after) =>
      match loop.body state lexeme with
      | .error result => some result
      | .ok state => within n state after

/-- The result of a loop over the given lexemes. -/
def fold : σ → List Lexeme → ρ
  | state, [] => loop.finish state
  | state, lexeme :: rest =>
    match loop.body state lexeme with
    | .error result => result
    | .ok state => fold state rest

/-- A loop ends within one pull more than there are bytes ahead that are no blanks, and its result
is that over all that can be pulled. -/
theorem within_eq {n : Nat} {c : Cursor} (hn : c.solid < n) (state : σ) :
    loop.within n state c = some (loop.fold state c.drain.1) := by
  induction n generalizing c state with
  | zero => exact absurd hn (Nat.not_lt_zero _)
  | succ n ih =>
    rcases hpull : c.pull with ⟨_ | lexeme, after⟩
    · rw [within, hpull, Cursor.drain_of_pull_none hpull]
      rfl
    · have hsolid := (Cursor.pull_some hpull).2.2.solid_lt
      rw [within, hpull, Cursor.drain_of_pull_some hpull, fold]
      cases hbody : loop.body state lexeme with
      | error result => simp only [hbody]
      | ok state =>
        simp only [hbody]
        exact ih (by omega) state

lemma fold_cons_of_ok {state next : σ} {lexeme : Lexeme} (h : loop.body state lexeme = .ok next)
    (rest : List Lexeme) : loop.fold state (lexeme :: rest) = loop.fold next rest := by
  rw [fold, h]

lemma fold_cons_of_error {state : σ} {lexeme : Lexeme} {result : ρ}
    (h : loop.body state lexeme = .error result) (rest : List Lexeme) :
    loop.fold state (lexeme :: rest) = result := by
  rw [fold, h]

/-- Collects tokens, and some more behind the last. -/
def collecting (closing : List Token) : Loop (List Token) (List Token) where
  body ts lexeme := .ok (ts ++ [lexeme.token])
  finish ts := ts ++ closing

lemma fold_collecting (closing ts : List Token) (ls : List Lexeme) :
    (collecting closing).fold ts ls = ts ++ ls.map Lexeme.token ++ closing := by
  induction ls generalizing ts with
  | nil => rw [List.map_nil, List.append_nil]; rfl
  | cons lexeme ls ih =>
    rw [fold_cons_of_ok _ rfl, ih, List.map_cons, List.append_assoc ts, List.singleton_append]

end Loop

/-! ## Listings -/

/-- A sink that has failed sees nothing of what follows. -/
lemma Sink.perform_append_of_fault {sink : Sink} {as : List Action} {fault : OutputFault}
    (h : (sink.perform as).fault = some fault) (bs : List Action) :
    sink.perform (as ++ bs) = sink.perform as := by
  have hfits : ¬ sink.Fits as := by
    intro hfits
    rw [perform_of_fits hfits, perform_unlimited] at h
    exact absurd h (by simp)
  obtain ⟨done, action, rest, rfl, hdone, hfirst⟩ := exists_not_fits hfits
  rw [List.append_assoc, List.cons_append, perform_of_not_fits hdone hfirst,
    perform_of_not_fits hdone hfirst]

namespace Listing

variable (source : String) (sink : Sink)

/-- The run of a listing that has come so far, with `count` tokens written. -/
def runSoFar (actions : List Action) (count : Nat) : Run Nat :=
  ({ actions, outcome := .ok count } : Script Nat).run sink

/-- Writes one token after the other to a sink, until nothing is left or the sink refuses a line.
The state is what has been done and the number of tokens written. -/
def writing : Loop (List Action × Nat) (Run Nat) where
  body done lexeme :=
    let actions := done.1 ++ line "" source lexeme
    match (sink.perform actions).fault with
    | some _ => .error (runSoFar sink actions done.2)
    | none => .ok (actions, done.2 + 1)
  finish done := runSoFar sink done.1 done.2

/-- Writing line by line does what the script of all lines does on the sink. -/
theorem fold_writing (ls : List Lexeme) (actions : List Action) (count : Nat) :
    (writing source sink).fold (actions, count) ls =
      runSoFar sink (actions ++ ls.flatMap (line "" source)) (count + ls.length) := by
  induction ls generalizing actions count with
  | nil => simp [Loop.fold, writing]
  | cons lexeme ls ih =>
    rw [List.flatMap_cons, ← List.append_assoc]
    cases hfault : (sink.perform (actions ++ line "" source lexeme)).fault with
    | some fault =>
      have hbody : (writing source sink).body (actions, count) lexeme =
          .error (runSoFar sink (actions ++ line "" source lexeme) count) := by
        simp only [writing, hfault]
      have hseen := Sink.perform_append_of_fault hfault (ls.flatMap (line "" source))
      rw [Loop.fold_cons_of_error _ hbody]
      simp only [runSoFar, Script.run, hseen, hfault]
    | none =>
      have hbody : (writing source sink).body (actions, count) lexeme =
          .ok (actions ++ line "" source lexeme, count + 1) := by
        simp only [writing, hfault]
      rw [Loop.fold_cons_of_ok _ hbody, ih, List.length_cons, Nat.add_assoc, Nat.add_comm 1]

end Listing

/-! ## The end of a text -/

lemma isEndOfInput_eq_false_of_mem {source : String} {t : Token} (h : t ∈ tokens source) :
    t.isEndOfInput = false := by
  obtain ⟨bs, hspells⟩ := exists_spells_of_mem h
  exact hspells.isEndOfInput_eq_false

/-- The end of a text is marked once. -/
lemma countP_isEndOfInput (source : String) :
    (tokenize source).countP Token.isEndOfInput = 1 := by
  have hnone : (tokens source).countP Token.isEndOfInput = 0 :=
    List.countP_eq_zero.2 fun t ht => by simp [isEndOfInput_eq_false_of_mem ht]
  rw [tokenize, List.countP_append, hnone]
  rfl

/-- Pulling comes to an end.  Wherever a number of pulls has led, the next one either takes up
something, and stops further on inside the text, or it finds only blanks ahead, yields the end of
the text, and stops there for good.  So any loop over what can be pulled ends within one pull more
than the text has bytes that are no blanks: among them scanning a text, collecting its tokens, and
listing them on any sink.  What is scanned has one end, behind all tokens. -/
theorem pulling_ends (source : String) :
    let start : Cursor := { source }
    let pulls := (Text.bytes source).countP (fun b => !isBlank b) + 1
    (∀ n,
      let c := Cursor.afterPulls source n
      let t := c.nextToken.1
      let after := c.nextToken.2
      Request.token.answer (Request.token.pull c).1 = .token t ∧
        (Request.token.pull c).2 = after ∧
        c.position ≤ source.utf8ByteSize ∧
        (t.isEndOfInput = true ↔
          ∀ b ∈ (Text.bytes source).drop c.position, isBlank b = true) ∧
        if t.isEndOfInput then
          after.position = source.utf8ByteSize ∧
            ∀ m, (Cursor.afterPulls source (n + 1 + m)).position = source.utf8ByteSize ∧
              (Cursor.afterPulls source (n + 1 + m)).nextToken.1 = Token.endOfInput
        else c.position < after.position ∧ after.position ≤ source.utf8ByteSize) ∧
      (∀ (σ ρ : Type) (loop : Loop σ ρ) (state : σ),
        loop.within pulls state start = some (loop.fold state (lexemes source))) ∧
      (Loop.collecting [Token.endOfInput]).within pulls [] start = some (tokenize source) ∧
      (Loop.collecting []).within pulls [] start = some (tokens source) ∧
      (∀ sink, (Listing.writing source sink).within pulls ([], 0) start =
        some ((Listing.script source).run sink)) ∧
      (tokenize source).countP Token.isEndOfInput = 1 ∧
      (tokenize source).getLast? = some Token.endOfInput := by
  intro start pulls
  have hloop : ∀ (σ ρ : Type) (loop : Loop σ ρ) (state : σ),
      loop.within pulls state start = some (loop.fold state (lexemes source)) :=
    fun σ ρ loop state => loop.within_eq (Nat.lt_succ_self _) state
  refine ⟨fun n => ?_, hloop, ?_, ?_, fun sink => ?_, countP_isEndOfInput source, ?_⟩
  · intro c t after
    obtain ⟨hsource, hposition⟩ : c.source = source ∧ c.position ≤ source.utf8ByteSize :=
      Cursor.afterPulls_spec source n
    have hahead : c.ahead = (Text.bytes source).drop c.position := by rw [Cursor.ahead, hsource]
    refine ⟨Request.answer_token c, Request.pull_token c ▸ rfl, hposition, ?_⟩
    rw [← hahead]
    rcases c.nextToken_cases (by rwa [hsource]) with ⟨hblank, hnext⟩ | ⟨hblank, hnot, hmoves⟩
    · have hend : t.isEndOfInput = true := congrArg (Token.isEndOfInput ∘ Prod.fst) hnext
      have hafter : after = Cursor.finish source := by
        rw [← hsource]
        exact congrArg Prod.snd hnext
      refine ⟨iff_of_true hend hblank, ?_⟩
      rw [if_pos hend, hafter]
      refine ⟨rfl, fun m => ?_⟩
      rw [Cursor.afterPulls_of_finish hafter,
        Cursor.nextToken_of_none (Cursor.pull_finish source)]
      exact ⟨rfl, rfl⟩
    · have hgoes : ¬ t.isEndOfInput = true := Bool.eq_false_iff.1 hnot
      refine ⟨iff_of_false hgoes hblank, ?_⟩
      rw [if_neg hgoes]
      exact ⟨hmoves.position_lt, hsource ▸ hmoves.position_le⟩
  · rw [hloop, Loop.fold_collecting]
    rfl
  · rw [hloop, Loop.fold_collecting, List.append_nil]
    rfl
  · rw [hloop, Listing.fold_writing]
    simp [Listing.runSoFar, Listing.script, Listing.actions, Listing.count]
  · rw [tokenize, List.getLast?_concat]

end TokenStream
