import Mathlib.Tactic.Common
import TokenStream.Proofs.Scan
import TokenStream.Token.Walk

/-!
# Walks see one stream

However the tokens of a text are asked for, all that matters of what has been asked is how many
tokens have been consumed, and whether the end of the text has been met (`Progress`).  The two are
not the same: behind the last token there may be blanks, which are passed over only by the request
that meets the end.

A cursor that has made some progress (`Cursor.Stands`) has exactly the remaining tokens in front of
it, and pulling keeps this up (`Cursor.pullUpTo_of_stands`).  So a walk, with all the places that it
marks and returns to, is a course through the numbers of tokens (`walk_run`).
-/

namespace TokenStream

/-- How far the tokens of a text have been consumed. -/
inductive Progress where
  /-- So many tokens are consumed, and the end of the text has not been met. -/
  | behind (consumed : Nat)
  /-- The end of the text has been met. -/
  | ended
  deriving DecidableEq, Repr

namespace Progress

variable (source : String)

/-- The number of tokens consumed, which is all of them at the end. -/
def consumed : Progress → Nat
  | behind n => n
  | ended => (tokens source).length

/-- The byte offset that has been reached: that behind the last token consumed, and the end of the
text once it has been met. -/
def position : Progress → Nat
  | behind n => (((lexemes source).take n).getLast?.map (·.span.stop)).getD 0
  | ended => source.utf8ByteSize

/-- What a request is answered with. -/
def answer (p : Progress) : Request → Answer
  | .token => .token ((tokenize source)[p.consumed source]?.getD Token.endOfInput)
  | .next => .maybe (tokens source)[p.consumed source]?
  | .nth n => .maybe (tokens source)[p.consumed source + n]?
  | .rest => .tokens ((tokens source).drop (p.consumed source))
  | .count => .number ((tokens source).length - p.consumed source)

/-- What lies between two stages of progress. -/
def between (p q : Progress) : List Lexeme :=
  ((lexemes source).take (q.consumed source)).drop (p.consumed source)

/-- Consuming `n` more tokens, or meeting the end if there are fewer. -/
def consume (n : Nat) : Progress → Progress
  | behind m => if m + n ≤ (tokens source).length then behind (m + n) else ended
  | ended => ended

/-- The progress after a request. -/
def after (p : Progress) : Request → Progress
  | .token | .next => p.consume source 1
  | .nth n => p.consume source (n + 1)
  | .rest | .count => ended

end Progress

/-- What a request is answered with when the end of the text has been met. -/
def Request.answerAtEnd : Request → Answer
  | token => .token Token.endOfInput
  | next | nth _ => .maybe none
  | rest => .tokens []
  | count => .number 0

/-- A walk, told by its progress and the progress at the place marked last. -/
structure Course where
  here : Progress := .behind 0
  mark : Progress := .behind 0
  deriving DecidableEq, Repr

namespace Course

/-- One step: what it shows, and the course after it. -/
def step (source : String) (c : Course) : Walk.Step → Walk.Outcome × Course
  | .ask r =>
    let there := c.here.after source r
    (⟨some (c.here.answer source r), c.here.between source there, there.position source⟩,
      { c with here := there })
  | .save => (⟨none, [], c.here.position source⟩, { c with mark := c.here })
  | .restore => (⟨none, [], c.mark.position source⟩, { c with here := c.mark })

/-- What the steps of a course show, one after the other. -/
def run (source : String) (c : Course) : List Walk.Step → List Walk.Outcome
  | [] => []
  | s :: rest =>
    let (outcome, next) := c.step source s
    outcome :: next.run source rest

end Course

/-! ## Cursors that have made some progress -/

/-- The cursor at the end of a text. -/
def Cursor.finish (source : String) : Cursor := { source, position := source.utf8ByteSize }

/-- The cursor has made the progress `p` through the tokens of a text. -/
structure Cursor.Stands (source : String) (p : Progress) (c : Cursor) : Prop where
  position_eq : c.position = p.position source
  consumed_le : p.consumed source ≤ (tokens source).length
  drain_eq : c.drain = ((lexemes source).drop (p.consumed source), Cursor.finish source)

lemma length_tokens (source : String) : (tokens source).length = (lexemes source).length := by
  simp [tokens]

namespace Cursor

variable {source : String} {c : Cursor}

/-- Draining consumes all tokens and stops at the end. -/
lemma drain_start (source : String) :
    drain { source } = (lexemes source, finish source) := by
  obtain ⟨ps, tail, h⟩ := exists_reads (Text.bytes source)
  have hdrain := drain_of_reads (c := { source }) h rfl
  rw [lexemes, hdrain]
  simp [advance, finish, Text.length_bytes]

lemma stands_start (source : String) : Stands source (.behind 0) { source } :=
  ⟨rfl, Nat.zero_le _, drain_start source⟩

lemma pull_finish (source : String) : (finish source).pull = (none, finish source) := by
  have hahead : (finish source).ahead = [] := by
    simp [ahead, finish, Text.length_bytes]
  have hblank : Blank (finish source).ahead := by simp [hahead, Blank]
  rw [pull_of_blank hblank, hahead]
  rfl

lemma stands_finish (source : String) : Stands source .ended (finish source) := by
  refine ⟨rfl, Nat.le_refl _, ?_⟩
  rw [drain_of_pull_none (pull_finish source), Progress.consumed, length_tokens, List.drop_length]

lemma position_behind_succ {k : Nat} (hk : k < (lexemes source).length) :
    (Progress.behind (k + 1)).position source = (lexemes source)[k].span.stop := by
  rw [Progress.position, List.take_add_one, List.getElem?_eq_getElem hk, Option.toList_some,
    List.getLast?_concat]
  rfl

/-- One pull in front of the token number `k`. -/
lemma pull_of_lt {k : Nat} (h : Stands source (.behind k) c) (hk : k < (lexemes source).length) :
    ∃ after, c.pull = (some (lexemes source)[k], after) ∧
      Stands source (.behind (k + 1)) after := by
  have hdrain : c.drain =
      ((lexemes source)[k] :: (lexemes source).drop (k + 1), finish source) := by
    rw [h.drain_eq, ← List.drop_eq_getElem_cons hk]
    rfl
  rcases hpull : c.pull with ⟨_ | lexeme, after⟩
  · rw [drain_of_pull_none hpull] at hdrain
    exact absurd (Prod.mk.inj hdrain).1 (List.cons_ne_nil _ _).symm
  · rw [drain_of_pull_some hpull] at hdrain
    obtain ⟨hcons, hfinish⟩ := Prod.mk.inj hdrain
    obtain ⟨hlexeme, hrest⟩ := List.cons.inj hcons
    obtain ⟨-, -, -, hstop, -⟩ := pull_eq_some hpull
    refine ⟨after, by rw [hlexeme], ?_, ?_, Prod.ext hrest hfinish⟩
    · rw [position_behind_succ hk, ← hlexeme, hstop]
    · rw [length_tokens]
      exact hk

/-- A pull behind all tokens meets the end. -/
lemma pull_of_all {p : Progress} (h : Stands source p c)
    (hall : (lexemes source).length ≤ p.consumed source) : c.pull = (none, finish source) := by
  have hdrain : c.drain = ([], finish source) := by
    rw [h.drain_eq, List.drop_eq_nil_of_le hall]
  rcases hpull : c.pull with ⟨_ | lexeme, after⟩
  · rw [drain_of_pull_none hpull] at hdrain
    rw [(Prod.mk.inj hdrain).2]
  · rw [drain_of_pull_some hpull] at hdrain
    exact absurd (Prod.mk.inj hdrain).1 (List.cons_ne_nil _ _)

lemma pullUpTo_of_all {p : Progress} (h : Stands source p c)
    (hall : (lexemes source).length ≤ p.consumed source) (n : Nat) :
    c.pullUpTo (n + 1) = ([], finish source) := by
  rw [pullUpTo, pull_of_all h hall]

/-- Pulling several times from behind `k` tokens yields those that follow, as far as there are any,
and meets the end if there are not enough. -/
lemma pullUpTo_of_behind {k : Nat} (h : Stands source (.behind k) c) (n : Nat) :
    ∃ after, c.pullUpTo n = (((lexemes source).drop k).take n, after) ∧
      Stands source ((Progress.behind k).consume source n) after := by
  induction n generalizing k c with
  | zero =>
    have hk : k ≤ (tokens source).length := h.consumed_le
    refine ⟨c, rfl, ?_⟩
    rwa [Progress.consume, if_pos (by omega), Nat.add_zero]
  | succ n ih =>
    by_cases hk : k < (lexemes source).length
    · obtain ⟨next, hpull, hnext⟩ := pull_of_lt h hk
      obtain ⟨after, hrest, hafter⟩ := ih hnext
      refine ⟨after, ?_, ?_⟩
      · simp only [pullUpTo, hpull, hrest]
        rw [List.drop_eq_getElem_cons hk, List.take_succ_cons]
      · rw [Progress.consume] at hafter ⊢
        rwa [show k + (n + 1) = k + 1 + n by omega]
    · have hall : (lexemes source).length ≤ k := Nat.le_of_not_lt hk
      refine ⟨finish source, ?_, ?_⟩
      · rw [pullUpTo_of_all h hall, List.drop_eq_nil_of_le hall, List.take_nil]
      · rw [Progress.consume, if_neg (by rw [length_tokens]; omega)]
        exact stands_finish source

/-- The same from any progress, if at least one token is asked for. -/
theorem pullUpTo_of_stands {p : Progress} (h : Stands source p c) (n : Nat) :
    ∃ after, c.pullUpTo (n + 1) =
        (((lexemes source).drop (p.consumed source)).take (n + 1), after) ∧
      Stands source (p.consume source (n + 1)) after := by
  cases p with
  | behind k => exact pullUpTo_of_behind h (n + 1)
  | ended =>
    have hall : (lexemes source).length ≤ Progress.ended.consumed source :=
      (length_tokens source).ge
    refine ⟨finish source, ?_, stands_finish source⟩
    rw [pullUpTo_of_all h hall, List.drop_eq_nil_of_le hall, List.take_nil]

end Cursor

/-! ## Requests -/

section Requests

variable {source : String}

lemma getElem?_tokenize (source : String) (k : Nat) :
    (tokenize source)[k]?.getD Token.endOfInput = (tokens source)[k]?.getD Token.endOfInput := by
  rw [tokenize, List.getElem?_append]
  split
  · rfl
  · rename_i hk
    rw [List.getElem?_eq_none (Nat.le_of_not_lt hk), List.getElem?_singleton]
    split <;> rfl

namespace Progress

lemma between_ended (p : Progress) :
    p.between source ended = (lexemes source).drop (p.consumed source) := by
  rw [between, consumed, length_tokens, List.take_length]

lemma between_consume (p : Progress) (n : Nat) : p.between source (p.consume source n) =
    ((lexemes source).drop (p.consumed source)).take n := by
  cases p with
  | behind k =>
    rw [consume]
    split
    · rw [between, consumed, consumed, List.drop_take, Nat.add_sub_cancel_left]
    · rename_i hk
      rw [between_ended, List.take_of_length_le]
      rw [length_tokens] at hk
      rw [consumed, List.length_drop]
      omega
  | ended =>
    have hnil : (lexemes source).drop (ended.consumed source) = [] :=
      List.drop_eq_nil_of_le (length_tokens source).ge
    rw [consume, between_ended, hnil, List.take_nil]

end Progress

/-- A request is answered from what lies between the progress before and after it. -/
lemma Request.answer_between (source : String) (p : Progress) (r : Request) :
    r.answer (p.between source (p.after source r)) = p.answer source r := by
  have hrest : (p.between source .ended).map Lexeme.token =
      (tokens source).drop (p.consumed source) := by
    rw [Progress.between_ended, List.map_drop, tokens]
  have htaken : ∀ n, (p.between source (p.consume source n)).map Lexeme.token =
      ((tokens source).drop (p.consumed source)).take n := by
    intro n
    rw [Progress.between_consume, List.map_take, List.map_drop, tokens]
  have hfirst : (((tokens source).drop (p.consumed source)).take 1).head? =
      (tokens source)[p.consumed source]? := by
    rw [List.head?_take, if_neg Nat.one_ne_zero, List.head?_drop]
  cases r with
  | token =>
    rw [Progress.after, Request.answer, htaken, hfirst, Progress.answer, getElem?_tokenize]
  | next => rw [Progress.after, Request.answer, htaken, hfirst, Progress.answer]
  | nth n =>
    rw [Progress.after, Request.answer, htaken, List.getElem?_take_of_succ, List.getElem?_drop,
      Progress.answer]
  | rest => rw [Progress.after, Request.answer, hrest, Progress.answer]
  | count => rw [Progress.after, Request.answer, hrest, List.length_drop, Progress.answer]

open Cursor in
/-- A request pulls what lies between the progress before and after it. -/
lemma Request.pull_of_stands {p : Progress} {c : Cursor} (h : Stands source p c) (r : Request) :
    ∃ after, r.pull c = (p.between source (p.after source r), after) ∧
      Stands source (p.after source r) after := by
  have hdrain : c.drain = (p.between source .ended, finish source) := by
    rw [h.drain_eq, Progress.between_ended]
  have hpull : ∀ n, ∃ after,
      c.pullUpTo (n + 1) = (p.between source (p.consume source (n + 1)), after) ∧
        Stands source (p.consume source (n + 1)) after := by
    intro n
    rw [Progress.between_consume]
    exact pullUpTo_of_stands h n
  cases r with
  | token | next => exact hpull 0
  | nth n => exact hpull n
  | rest | count => exact ⟨finish source, hdrain, stands_finish source⟩

end Requests

/-! ## Walks -/

/-- A walk and a course that have come equally far. -/
structure Walk.Follows (source : String) (w : Walk) (c : Course) : Prop where
  here : w.cursor.Stands source c.here
  mark : w.mark.Stands source c.mark

namespace Walk

variable {source : String}

/-- A step shows the same on both, and takes both equally far. -/
lemma Follows.step {w : Walk} {c : Course} (h : w.Follows source c) (s : Step) :
    (w.step s).1 = (c.step source s).1 ∧ (w.step s).2.Follows source (c.step source s).2 := by
  cases s with
  | ask r =>
    obtain ⟨cursor, hpull, hafter⟩ := Request.pull_of_stands h.here r
    have hanswer := Request.answer_between source c.here r
    simp only [Walk.step, Course.step, hpull, hanswer, hafter.position_eq, true_and]
    exact ⟨hafter, h.mark⟩
  | save => exact ⟨by rw [Walk.step, Course.step, h.here.position_eq], h.here, h.here⟩
  | restore => exact ⟨by rw [Walk.step, Course.step, h.mark.position_eq], h.mark, h.mark⟩

lemma Follows.run {w : Walk} {c : Course} (h : w.Follows source c) (steps : List Step) :
    w.run steps = c.run source steps := by
  induction steps generalizing w c with
  | nil => rfl
  | cons s rest ih =>
    obtain ⟨houtcome, hafter⟩ := h.step s
    show (w.step s).1 :: (w.step s).2.run rest =
      (c.step source s).1 :: (c.step source s).2.run source rest
    rw [houtcome, ih hafter]

end Walk

/-- A walk shows what the course shows that begins with nothing consumed.  Once the end is met, a
request finds nothing more, and the walk stays at the end of the text.  The offsets of a course are
those of the tokens: its lexemes lie in the text as the segments of a reading do. -/
theorem walk_run (source : String) (steps : List Walk.Step) :
    (Walk.start source).run steps = ({} : Course).run source steps ∧
      (∀ r, Progress.ended.answer source r = r.answerAtEnd ∧
        Progress.ended.after source r = .ended ∧
        Progress.ended.position source = source.utf8ByteSize) ∧
      ∃ ps tail, Reads (Text.bytes source) ps tail ∧ lexemes source = layout 0 ps := by
  have hstart : (Walk.start source).Follows source {} :=
    ⟨Cursor.stands_start source, Cursor.stands_start source⟩
  obtain ⟨ps, tail, hreads⟩ := exists_reads (Text.bytes source)
  refine ⟨hstart.run steps, fun r => ⟨?_, ?_, rfl⟩, ps, tail, hreads, lexemes_of_reads hreads⟩
  · cases r <;> simp [Progress.answer, Progress.consumed, Request.answerAtEnd, getElem?_tokenize]
  · cases r <;> rfl

end TokenStream
