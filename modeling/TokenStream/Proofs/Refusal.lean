import TokenStream.Invocation
import TokenStream.Proofs.Sessions

/-!
# Sinks that refuse

A sink that accepts only so many bytes, or fails at one of its flushes, carries actions out as long
as they fit (`Sink.Fits`).  What it has seen when the first does not is what a sink that accepts
everything has seen of the actions before, and the part of that action that it still accepted
(`Sink.perform_of_fits`, `Sink.perform_of_not_fits`).  So nothing of the output is lost or changed
but its end, and it makes no difference in which pieces a text is written (`Sink.perform_writes`).

Of the flushes, those succeed that come before the limit is passed.  A script says where in its
output they are (`flushOffsets`); in a session they are the ends of its prompts
(`Session.flushOffsets_script`).
-/

namespace TokenStream

namespace Sink

/-! ## Single actions -/

/-- The sink after one more action, if that action succeeds. -/
def after? (sink : Sink) : Action → Option Sink
  | .write text => sink.accept? (Text.bytes text).length
  | .flush => sink.flush?
  | .record _ => some sink

/-- What is wrong with an action that does not succeed. -/
def faultOf (sink : Sink) : Action → OutputFault
  | .flush => .flushFailed
  | .write _ | .record _ => sink.refusal

/-- A sink carries out all of some actions: their output is no longer than its capacity, and their
flushes come before the one that fails. -/
structure Fits (sink : Sink) (actions : List Action) : Prop where
  output_le : ∀ n ∈ sink.capacity, (actions.flatMap Action.output).length ≤ n
  flushes_le : ∀ k ∈ sink.failingFlush, actions.count .flush ≤ k

variable {sink after : Sink} {action : Action} {rest : List Action}

/-- What an action that succeeds does to a sink. -/
lemma after?_eq_some (h : sink.after? action = some after) :
    after.capacity = sink.capacity.map (· - action.output.length) ∧
      (∀ n ∈ sink.capacity, action.output.length ≤ n) ∧
      after.failingFlush = sink.failingFlush.map (· - [action].count .flush) ∧
      (∀ k ∈ sink.failingFlush, [action].count .flush ≤ k) ∧ after.refusal = sink.refusal := by
  obtain ⟨capacity, refusal, failingFlush⟩ := sink
  cases action with
  | write text =>
    cases capacity with
    | none => cases h; simp
    | some n =>
      simp only [after?, accept?, Option.ite_none_right_eq_some, Option.some.injEq] at h
      obtain ⟨hn, rfl⟩ := h
      simpa [Action.output] using hn
  | flush =>
    rcases failingFlush with _ | _ | k
    · cases h; simp [Action.output]
    · exact absurd h (by simp [after?, flush?])
    · cases h; simp [Action.output]
  | record entry => cases h; simp [Action.output]

lemma after?_eq_none (h : sink.after? action = none) : ¬ sink.Fits [action] := by
  intro hfits
  obtain ⟨capacity, refusal, failingFlush⟩ := sink
  cases action with
  | write text =>
    cases capacity with
    | none => exact absurd h (by simp [after?, accept?])
    | some n =>
      have hn := hfits.output_le n rfl
      simp only [List.flatMap_singleton, Action.output] at hn
      exact absurd h (by simp [after?, accept?, hn])
  | flush =>
    rcases failingFlush with _ | _ | k
    · exact absurd h (by simp [after?, flush?])
    · have := hfits.flushes_le 0 rfl
      simp at this
    · exact absurd h (by simp [after?, flush?])
  | record entry => exact absurd h (by simp [after?])

lemma perform_cons_of_some (h : sink.after? action = some after) :
    sink.perform (action :: rest) =
      let seen := after.perform rest
      { output := action.output ++ seen.output
        flushes := seen.flushes + [action].count .flush
        log := action.entry?.toList ++ seen.log
        fault := seen.fault } := by
  cases action with
  | write text =>
    have h' : sink.accept? (Text.bytes text).length = some after := h
    simp [perform, h', Action.output, Action.entry?]
  | flush =>
    have h' : sink.flush? = some after := h
    simp [perform, h', Action.output, Action.entry?]
  | record entry =>
    obtain rfl := Option.some.inj h
    simp [perform, Action.output, Action.entry?]

lemma perform_cons_of_none (h : sink.after? action = none) :
    sink.perform (action :: rest) =
      { output := sink.accepted action.output, fault := some (sink.faultOf action) } := by
  cases action with
  | write text =>
    have h' : sink.accept? (Text.bytes text).length = none := h
    simp [perform, h', Action.output, faultOf]
  | flush =>
    have h' : sink.flush? = none := h
    cases hcap : sink.capacity <;> simp [perform, h', Action.output, faultOf, accepted, hcap]
  | record entry => exact absurd h (by simp [after?])

lemma accepted_append (h : sink.after? action = some after) (bytes : List UInt8) :
    sink.accepted (action.output ++ bytes) = action.output ++ after.accepted bytes := by
  obtain ⟨hcapacity, hle, -⟩ := after?_eq_some h
  cases hcap : sink.capacity with
  | none => simp [accepted, hcapacity, hcap]
  | some n =>
    have hn := hle n hcap
    simp [accepted, hcapacity, hcap, List.take_append, List.take_of_length_le hn]

/-! ## What fits -/

lemma fits_nil (sink : Sink) : sink.Fits [] :=
  ⟨by simp, by simp⟩

lemma Fits.of_append (as : List Action) {bs : List Action} (h : sink.Fits (as ++ bs)) :
    sink.Fits as := by
  constructor
  · intro n hn
    have := h.output_le n hn
    rw [List.flatMap_append, List.length_append] at this
    omega
  · intro k hk
    have := h.flushes_le k hk
    rw [List.count_append] at this
    omega

/-- Whether an action that succeeds fits together with others is up to the sink behind it. -/
lemma fits_cons_iff (h : sink.after? action = some after) :
    sink.Fits (action :: rest) ↔ after.Fits rest := by
  obtain ⟨hcapacity, hle, hfailing, hlt, -⟩ := after?_eq_some h
  have hcount : (action :: rest).count .flush = [action].count .flush + rest.count .flush := by
    rw [← List.count_append, List.singleton_append]
  constructor
  · intro hfits
    constructor
    · intro m hm
      obtain ⟨n, hn, rfl⟩ := Option.map_eq_some_iff.1 (hcapacity ▸ hm)
      have := hfits.output_le n hn
      rw [List.flatMap_cons, List.length_append] at this
      omega
    · intro m hm
      obtain ⟨k, hk, rfl⟩ := Option.map_eq_some_iff.1 (hfailing ▸ hm)
      have := hfits.flushes_le k hk
      omega
  · intro hfits
    constructor
    · intro n hn
      have hn' := hle n hn
      have := hfits.output_le (n - action.output.length) (by rw [hcapacity, hn]; rfl)
      rw [List.flatMap_cons, List.length_append]
      omega
    · intro k hk
      have hk' := hlt k hk
      have := hfits.flushes_le (k - [action].count .flush) (by rw [hfailing, hk]; rfl)
      omega

/-- What does not fit as a whole fits up to a first action. -/
lemma exists_not_fits {actions : List Action} (h : ¬ sink.Fits actions) :
    ∃ done action rest, actions = done ++ action :: rest ∧ sink.Fits done ∧
      ¬ sink.Fits (done ++ [action]) := by
  induction actions using List.reverseRecOn with
  | nil => exact absurd (fits_nil sink) h
  | append_singleton actions action ih =>
    by_cases hfits : sink.Fits actions
    · exact ⟨actions, action, [], rfl, hfits, h⟩
    · obtain ⟨done, first, rest, rfl, hdone, hfirst⟩ := ih hfits
      exact ⟨done, first, rest ++ [action], by simp, hdone, hfirst⟩

/-! ## Runs -/

/-- What fits is seen as by a sink that accepts everything. -/
theorem perform_of_fits {actions : List Action} (h : sink.Fits actions) :
    sink.perform actions = unlimited.perform actions := by
  rw [perform_unlimited]
  induction actions generalizing sink with
  | nil => rfl
  | cons action rest ih =>
    cases hafter : sink.after? action with
    | none => exact absurd (Fits.of_append [action] h) (after?_eq_none hafter)
    | some after =>
      rw [perform_cons_of_some hafter, ih ((fits_cons_iff hafter).1 h)]
      cases action <;> simp [Action.output, Action.entry?, List.filterMap_cons]

/-- The first action that does not fit ends the run, and of its output as much is accepted as there
was room for. -/
theorem perform_of_not_fits {done : List Action} (hdone : sink.Fits done)
    (hfirst : ¬ sink.Fits (done ++ [action])) :
    sink.perform (done ++ action :: rest) =
      { output := sink.accepted ((done ++ [action]).flatMap Action.output)
        flushes := done.count .flush
        log := done.filterMap Action.entry?
        fault := some (sink.faultOf action) } := by
  induction done generalizing sink with
  | nil =>
    cases hafter : sink.after? action with
    | none => simp [perform_cons_of_none hafter]
    | some after => exact absurd ((fits_cons_iff hafter).2 (fits_nil after)) hfirst
  | cons first done ih =>
    cases hafter : sink.after? first with
    | none => exact absurd (Fits.of_append [first] hdone) (after?_eq_none hafter)
    | some after =>
      have hfault : after.faultOf action = sink.faultOf action := by
        obtain ⟨-, -, -, -, hrefusal⟩ := after?_eq_some hafter
        cases action <;> simp [faultOf, hrefusal]
      rw [List.cons_append, fits_cons_iff hafter] at hfirst
      rw [List.cons_append, perform_cons_of_some hafter,
        ih ((fits_cons_iff hafter).1 hdone) hfirst, List.cons_append, List.flatMap_cons,
        accepted_append hafter, hfault]
      cases first <;> simp [Action.entry?, List.filterMap_cons]

/-- A sink that accepts `n` bytes and refuses all others. -/
def limited (n : Nat) (refusal : OutputFault) : Sink := { capacity := some n, refusal }

lemma fits_limited_iff {n : Nat} {refusal : OutputFault} {actions : List Action} :
    (limited n refusal).Fits actions ↔ (actions.flatMap Action.output).length ≤ n := by
  constructor
  · intro h
    exact h.output_le n rfl
  · intro h
    refine ⟨fun m hm => ?_, by simp [limited]⟩
    obtain rfl := Option.some.inj hm
    exact h

lemma faultOf_limited {n : Nat} {refusal : OutputFault} {done : List Action} {action : Action}
    (hdone : (limited n refusal).Fits done)
    (hfirst : ¬ (limited n refusal).Fits (done ++ [action])) :
    (limited n refusal).faultOf action = refusal := by
  cases action with
  | write text | record entry => rfl
  | flush =>
    rw [fits_limited_iff] at hdone hfirst
    exact absurd hdone (by simpa [Action.output] using hfirst)

/-- The sink, if its flush number `k` fails. -/
def failingAt (sink : Sink) (k : Nat) : Sink := { sink with failingFlush := some k }

lemma fits_failingAt_iff {n k : Nat} {refusal : OutputFault} {actions : List Action} :
    ((limited n refusal).failingAt k).Fits actions ↔
      (limited n refusal).Fits actions ∧ actions.count .flush ≤ k := by
  constructor
  · intro h
    exact ⟨⟨h.output_le, by simp [limited]⟩, h.flushes_le k rfl⟩
  · rintro ⟨hfits, hle⟩
    refine ⟨hfits.output_le, fun m hm => ?_⟩
    obtain rfl : k = m := Option.some.inj hm
    exact hle

/-! ## Pieces of a text -/

lemma perform_write_append (sink : Sink) (a b : String) (rest : List Action) :
    sink.perform (.write (a ++ b) :: rest) = sink.perform (.write a :: .write b :: rest) := by
  obtain ⟨capacity, refusal, failingFlush⟩ := sink
  cases capacity with
  | none => simp [perform, accept?, Text.bytes_append]
  | some n =>
    simp only [perform, accept?, accepted, Text.bytes_append, List.length_append]
    by_cases ha : (Text.bytes a).length ≤ n
    · by_cases hb : (Text.bytes b).length ≤ n - (Text.bytes a).length
      · have hab : (Text.bytes a).length + (Text.bytes b).length ≤ n := by omega
        simp [ha, hb, hab, Nat.sub_sub]
      · -- the limit lies in the second piece
        have hab : ¬ (Text.bytes a).length + (Text.bytes b).length ≤ n := by omega
        simp [ha, hb, hab, List.take_append, List.take_of_length_le ha]
    · have hab : ¬ (Text.bytes a).length + (Text.bytes b).length ≤ n := by omega
      simp [ha, hab, List.take_append_of_le_length (Nat.le_of_not_le ha)]

lemma perform_write_empty (sink : Sink) (rest : List Action) :
    sink.perform (.write "" :: rest) = sink.perform rest := by
  have hempty : Text.bytes "" = [] := rfl
  obtain ⟨capacity, refusal, failingFlush⟩ := sink
  cases capacity <;> simp [perform, accept?, hempty]

/-- It makes no difference to any sink in which pieces a text is written, empty ones included. -/
theorem perform_writes (sink : Sink) (texts : List String) (rest : List Action) :
    sink.perform (texts.map .write ++ rest) =
      sink.perform (.write (String.join texts) :: rest) := by
  induction texts generalizing sink with
  | nil => rw [String.join_nil, perform_write_empty, List.map_nil, List.nil_append]
  | cons text texts ih =>
    rw [String.join_cons, perform_write_append, List.map_cons, List.cons_append]
    cases hafter : sink.after? (.write text) with
    | none => rw [perform_cons_of_none hafter, perform_cons_of_none hafter]
    | some after => rw [perform_cons_of_some hafter, perform_cons_of_some hafter, ih]

end Sink

/-! ## Where flushes stand -/

/-- The offsets in the output of some actions at which the output is flushed. -/
def flushOffsets : List Action → List Nat
  | [] => []
  | action :: rest =>
    (if action = .flush then [0] else []) ++ (flushOffsets rest).map (action.output.length + ·)

section FlushOffsets

variable {actions : List Action}

lemma flushOffsets_append (as bs : List Action) :
    flushOffsets (as ++ bs) =
      flushOffsets as ++ (flushOffsets bs).map ((as.flatMap Action.output).length + ·) := by
  induction as with
  | nil => simp [flushOffsets]
  | cons action as ih =>
    rw [List.cons_append, flushOffsets, flushOffsets, ih, List.map_append, List.map_map,
      List.append_assoc, List.flatMap_cons, List.length_append]
    simp [Function.comp_def, Nat.add_assoc]

lemma length_flushOffsets (actions : List Action) :
    (flushOffsets actions).length = actions.count .flush := by
  induction actions with
  | nil => rfl
  | cons action rest ih =>
    rw [flushOffsets, List.length_append, List.length_map, ih, List.count_cons]
    by_cases h : action = .flush <;> simp [h, Nat.add_comm]

lemma flushOffsets_of_count (h : actions.count .flush = 0) : flushOffsets actions = [] := by
  rwa [← length_flushOffsets, List.length_eq_zero_iff] at h

lemma le_of_mem_flushOffsets {e : Nat} (h : e ∈ flushOffsets actions) :
    e ≤ (actions.flatMap Action.output).length := by
  induction actions generalizing e with
  | nil => simp [flushOffsets] at h
  | cons action rest ih =>
    rw [List.flatMap_cons, List.length_append]
    rcases List.mem_append.1 h with h | h
    · obtain rfl : e = 0 := by
        by_contra hne
        split at h <;> simp [hne] at h
      exact Nat.zero_le _
    · obtain ⟨e, he, rfl⟩ := List.mem_map.1 h
      exact Nat.add_le_add_left (ih he) _

/-- The actions before a flush. -/
lemma exists_flush {k e : Nat} (h : (flushOffsets actions)[k]? = some e) :
    ∃ before rest, actions = before ++ .flush :: rest ∧ before.count .flush = k ∧
      (before.flatMap Action.output).length = e := by
  induction actions generalizing k e with
  | nil => simp [flushOffsets] at h
  | cons action rest ih =>
    rw [flushOffsets] at h
    by_cases hflush : action = .flush
    · subst hflush
      cases k with
      | zero =>
        obtain rfl : 0 = e := by simpa using h
        exact ⟨[], rest, rfl, rfl, rfl⟩
      | succ k =>
        have h' : (flushOffsets rest)[k]? = some e := by simpa [Action.output] using h
        obtain ⟨before, after, rfl, hcount, hlen⟩ := ih h'
        exact ⟨.flush :: before, after, rfl, by simp [hcount], by simp [Action.output, hlen]⟩
    · rw [if_neg hflush, List.nil_append, List.getElem?_map] at h
      obtain ⟨e, he, rfl⟩ := Option.map_eq_some_iff.1 h
      obtain ⟨before, after, rfl, hcount, hlen⟩ := ih he
      exact ⟨action :: before, after, rfl, by simp [hflush, hcount], by simp [hlen]⟩

/-- Up to the action that passes a limit, the flushes are those that do not lie behind it. -/
lemma countP_flushOffsets {done rest : List Action} {action : Action} {n : Nat}
    (hdone : (done.flatMap Action.output).length ≤ n)
    (hfirst : n < ((done ++ [action]).flatMap Action.output).length) :
    (flushOffsets (done ++ action :: rest)).countP (· ≤ n) = done.count .flush := by
  have hbefore : ∀ e ∈ flushOffsets done, decide (e ≤ n) = true := by
    intro e he
    have := le_of_mem_flushOffsets he
    exact decide_eq_true (by omega)
  -- the action that passes the limit is a write
  have hwrite : flushOffsets (done ++ [action]) = flushOffsets done := by
    have hflush : action ≠ .flush := by
      rintro rfl
      have hsame : (done ++ [Action.flush]).flatMap Action.output = done.flatMap Action.output := by
        simp [Action.output]
      rw [hsame] at hfirst
      omega
    simp [flushOffsets_append, flushOffsets, hflush]
  have hbehind : ∀ e ∈ (flushOffsets rest).map
      (((done ++ [action]).flatMap Action.output).length + ·), ¬ decide (e ≤ n) = true := by
    intro e he
    obtain ⟨e, -, rfl⟩ := List.mem_map.1 he
    simp only [decide_eq_true_eq]
    omega
  have hsplit : done ++ action :: rest = done ++ [action] ++ rest := by simp
  rw [hsplit, flushOffsets_append, hwrite, List.countP_append, List.countP_eq_length.2 hbefore,
    List.countP_eq_zero.2 hbehind, length_flushOffsets, Nat.add_zero]

end FlushOffsets

/-! ## Scripts on a limited sink -/

namespace Script

variable {α : Type}

/-- Where a sink accepts only some number of bytes, a script is cut: with enough room it runs as on
a sink that accepts everything, and otherwise the output ends at the limit and the run with the
fault of the sink. -/
def CutAtLimit (script : Script α) : Prop :=
  ∀ (n : Nat) (refusal : OutputFault),
    let full := script.run Sink.unlimited
    let run := script.run (Sink.limited n refusal)
    if full.output.length ≤ n then run.result = full.result ∧ run.output = full.output
    else run.result = .error (.output refusal) ∧ run.output = full.output.take n

variable (script : Script α) {n : Nat} {refusal : OutputFault}

theorem cutAtLimit : script.CutAtLimit := by
  intro n refusal full run
  by_cases hfits : (Sink.limited n refusal).Fits script.actions
  · have hle : full.output.length ≤ n := by
      simpa [full, run_unlimited] using Sink.fits_limited_iff.1 hfits
    rw [if_pos hle]
    simp only [full, run, Script.run, Sink.perform_of_fits hfits, and_self]
  · obtain ⟨done, action, rest, hactions, hdone, hfirst⟩ := Sink.exists_not_fits hfits
    have hfull : full.output = (done ++ [action]).flatMap Action.output ++
        rest.flatMap Action.output := by
      simp [full, run_unlimited, hactions]
    have hlt : n < ((done ++ [action]).flatMap Action.output).length :=
      Nat.lt_of_not_le (mt Sink.fits_limited_iff.2 hfirst)
    have hnot : ¬ full.output.length ≤ n := by
      rw [hfull, List.length_append]
      omega
    rw [if_neg hnot]
    simp only [run, Script.run, hactions, Sink.perform_of_not_fits hdone hfirst,
      Sink.faultOf_limited hdone hfirst, hfull, true_and]
    rw [List.take_append_of_le_length hlt.le]
    rfl

/-- The flushes that succeed are those that come before the limit is passed. -/
theorem flushes_run_limited : (script.run (Sink.limited n refusal)).flushes =
    (flushOffsets script.actions).countP (· ≤ n) := by
  by_cases hfits : (Sink.limited n refusal).Fits script.actions
  · have hall : ∀ e ∈ flushOffsets script.actions, decide (e ≤ n) = true := by
      intro e he
      have := le_of_mem_flushOffsets he
      have := Sink.fits_limited_iff.1 hfits
      exact decide_eq_true (by omega)
    rw [List.countP_eq_length.2 hall, length_flushOffsets, Script.run, Sink.perform_of_fits hfits,
      Sink.perform_unlimited]
  · obtain ⟨done, action, rest, hactions, hdone, hfirst⟩ := Sink.exists_not_fits hfits
    rw [Script.run, hactions, Sink.perform_of_not_fits hdone hfirst]
    rw [Sink.fits_limited_iff] at hdone hfirst
    exact (countP_flushOffsets hdone (Nat.lt_of_not_le hfirst)).symm

variable {k : Nat}

/-- Where a flush that fails is reached, it ends the run there. -/
theorem run_failingAt {e : Nat} (he : (flushOffsets script.actions)[k]? = some e) (hle : e ≤ n) :
    let run := script.run ((Sink.limited n refusal).failingAt k)
    run.output = (script.run Sink.unlimited).output.take e ∧ run.flushes = k ∧
      run.result = .error (.output .flushFailed) := by
  intro run
  obtain ⟨before, rest, hactions, hcount, hlen⟩ := exists_flush he
  have hbefore : ((Sink.limited n refusal).failingAt k).Fits before :=
    Sink.fits_failingAt_iff.2 ⟨Sink.fits_limited_iff.2 (by omega), by omega⟩
  have hflush : ¬ ((Sink.limited n refusal).failingAt k).Fits (before ++ [.flush]) := by
    intro hfits
    have hle := (Sink.fits_failingAt_iff.1 hfits).2
    rw [List.count_append, hcount, List.count_singleton_self] at hle
    omega
  have houtput : (before ++ [Action.flush]).flatMap Action.output =
      before.flatMap Action.output := by
    simp [Action.output]
  have hrun : run = script.run ((Sink.limited n refusal).failingAt k) := rfl
  rw [Script.run, hactions, Sink.perform_of_not_fits hbefore hflush, houtput] at hrun
  rw [hrun, run_unlimited, hactions, List.flatMap_append, ← hlen, List.take_left]
  exact ⟨List.take_of_length_le (by omega), hcount, rfl⟩

/-- A flush that is not reached cannot fail. -/
theorem run_failingAt_of_lt (h : ∀ e ∈ (flushOffsets script.actions)[k]?, n < e) :
    script.run ((Sink.limited n refusal).failingAt k) = script.run (Sink.limited n refusal) := by
  -- what does not pass the limit has not more than `k` flushes
  have hfits : ∀ done rest, script.actions = done ++ rest → (Sink.limited n refusal).Fits done →
      ((Sink.limited n refusal).failingAt k).Fits done := by
    intro done rest hactions hdone
    refine Sink.fits_failingAt_iff.2 ⟨hdone, ?_⟩
    by_contra hlt
    rw [← length_flushOffsets, Nat.not_le] at hlt
    have hget : (flushOffsets script.actions)[k]? = some (flushOffsets done)[k] := by
      rw [hactions, flushOffsets_append, List.getElem?_append_left hlt,
        List.getElem?_eq_getElem hlt]
    have hn := h _ hget
    have hle := le_of_mem_flushOffsets (List.getElem_mem hlt)
    have hdone' := Sink.fits_limited_iff.1 hdone
    omega
  by_cases hall : (Sink.limited n refusal).Fits script.actions
  · have hall' := hfits _ [] (List.append_nil _).symm hall
    rw [Script.run, Script.run, Sink.perform_of_fits hall, Sink.perform_of_fits hall']
  · obtain ⟨done, action, rest, hactions, hdone, hfirst⟩ := Sink.exists_not_fits hall
    have hfirst' : ¬ ((Sink.limited n refusal).failingAt k).Fits (done ++ [action]) := fun h' =>
      hfirst (Sink.fits_failingAt_iff.1 h').1
    rw [Script.run, Script.run, hactions, Sink.perform_of_not_fits hdone hfirst,
      Sink.perform_of_not_fits (hfits _ _ hactions hdone) hfirst']
    cases action <;> rfl

end Script

/-! ## Sessions -/

namespace Session

variable (prompt : String)

/-- All that a session over some pieces shows up to and including its prompt number `i`. -/
def shownThrough (pieces : List (List UInt8)) (i : Nat) : List UInt8 :=
  (pieces.take i).flatMap (fun piece => Text.bytes prompt ++ rendering piece) ++ Text.bytes prompt

lemma shownThrough_cons (piece : List UInt8) (pieces : List (List UInt8)) (i : Nat) :
    shownThrough prompt (piece :: pieces) (i + 1) =
      Text.bytes prompt ++ rendering piece ++ shownThrough prompt pieces i := by
  simp [shownThrough]

/-- A session shows the same through a prompt whether or not it goes on. -/
lemma shownThrough_prefix (pieces : List (List UInt8)) {i k : Nat} (h : i ≤ k) :
    shownThrough prompt pieces i <+: shownThrough prompt pieces k := by
  induction pieces generalizing i k with
  | nil => simp [shownThrough]
  | cons piece pieces ih =>
    cases k with
    | zero =>
      obtain rfl := Nat.le_zero.1 h
      exact List.prefix_rfl
    | succ k =>
      rw [shownThrough_cons]
      cases i with
      | zero =>
        have hzero : shownThrough prompt (piece :: pieces) 0 = Text.bytes prompt := rfl
        rw [hzero, List.append_assoc]
        exact List.prefix_append ..
      | succ i =>
        rw [shownThrough_cons, List.prefix_append_right_inj]
        exact ih (Nat.le_of_succ_le_succ h)

lemma output_converse (failure : Option String) (pieces : List (List UInt8)) :
    (converse prompt failure pieces).actions.flatMap Action.output =
      shownThrough prompt pieces (pieces.takeWhile Input.isText).length := by
  rw [(converse_spec prompt failure pieces).1, shownThrough,
    ← List.prefix_iff_eq_take.1 (List.takeWhile_prefix Input.isText)]

lemma flushes_run_unlimited (input : Input) :
    ((script prompt input).run Sink.unlimited).flushes =
      (input.pieces.takeWhile Input.isText).length + 1 := by
  rw [Script.run_unlimited]
  exact (converse_spec prompt input.failure input.pieces).2.1

lemma flushOffsets_opening : flushOffsets (opening prompt) = [(Text.bytes prompt).length] := by
  simp [opening, flushOffsets, Action.output]

/-- A session flushes its output at the end of every prompt. -/
theorem flushOffsets_converse (failure : Option String) (pieces : List (List UInt8)) :
    flushOffsets (converse prompt failure pieces).actions =
      (List.range ((pieces.takeWhile Input.isText).length + 1)).map
        fun i => (shownThrough prompt pieces i).length := by
  induction pieces using Input.induction_on_texts with
  | nil =>
    obtain ⟨-, hcount⟩ := ending_spec failure
    simp only [converse, Script.after, flushOffsets_append, flushOffsets_opening,
      flushOffsets_of_count hcount]
    rfl
  | notText piece rest htext =>
    rw [converse_cons_of_not_text prompt failure htext]
    simp [Script.after, Script.fail, flushOffsets_opening, htext, shownThrough]
  | text line rest ih =>
    rw [converse_cons_of_text, List.takeWhile_cons_of_pos (Input.isText_bytes line),
      List.length_cons, List.range_succ_eq_map]
    simp only [Script.after, flushOffsets_append, flushOffsets_opening, ih,
      flushOffsets_of_count (count_flush_answer line), List.map_nil, List.append_nil,
      List.map_map, List.map_cons, List.singleton_append, List.flatMap_append, output_opening,
      output_answer]
    congr 1
    refine List.map_congr_left fun i _ => ?_
    simp [shownThrough_cons, rendering_bytes, Nat.add_assoc]

/-- The flushes of a session stand at the ends of its prompts. -/
theorem flushOffsets_script (input : Input) :
    flushOffsets (script prompt input).actions =
      (List.range ((script prompt input).run Sink.unlimited).flushes).map
        fun i => (shownThrough prompt input.pieces i).length := by
  rw [flushes_run_unlimited]
  exact flushOffsets_converse prompt input.failure input.pieces

/-- A session ends with its last prompt, and what it shows through the prompts before is where its
output begins. -/
lemma output_eq_shownThrough (input : Input) :
    let full := (script prompt input).run Sink.unlimited
    let through := shownThrough prompt input.pieces
    full.output = through (full.flushes - 1) ∧
      ∀ i < full.flushes, full.output.take (through i).length = through i := by
  intro full through
  have houtput : full.output = through (full.flushes - 1) := by
    rw [flushes_run_unlimited, Nat.add_sub_cancel]
    exact (congrArg Run.output (Script.run_unlimited _)).trans
      (output_converse prompt input.failure input.pieces)
  refine ⟨houtput, fun i hi => ?_⟩
  have hle := shownThrough_prefix prompt input.pieces (Nat.le_sub_one_of_lt hi)
  rw [houtput]
  exact (List.prefix_iff_eq_take.1 hle).symm

end Session

/-- What becomes of a run on a sink that accepts `n` bytes in all.  It is immaterial in which
pieces a text is written.  A listing, the listing of a file, a session and whatever is asked for are
cut at the limit, and nothing else happens to them.  In a session those flushes succeed that follow
a prompt within the limit; a flush that fails ends the session behind its prompt, if the session
gets there, and has no effect otherwise. -/
theorem run_on_limited_sink :
    (∀ (sink : Sink) (texts : List String) (rest : List Action),
      sink.perform (texts.map .write ++ rest) =
        sink.perform (.write (String.join texts) :: rest)) ∧
    (∀ source, (Listing.script source).CutAtLimit) ∧
    (∀ path content, (FileListing.script path content).CutAtLimit) ∧
    (∀ invocation : Invocation, invocation.script.CutAtLimit) ∧
    ∀ (prompt : String) (input : Input),
      let script := Session.script prompt input
      let full := script.run Sink.unlimited
      let through := Session.shownThrough prompt input.pieces
      script.CutAtLimit ∧ full.output = through (full.flushes - 1) ∧
      (∀ i < full.flushes, full.output.take (through i).length = through i) ∧
      ∀ (n : Nat) (refusal : OutputFault),
        let cut := script.run (Sink.limited n refusal)
        cut.flushes = (List.range full.flushes).countP (fun i => (through i).length ≤ n) ∧
        ∀ k,
          let run := script.run ((Sink.limited n refusal).failingAt k)
          if k < full.flushes ∧ (through k).length ≤ n then
            run.result = .error (.output .flushFailed) ∧ run.output = through k ∧ run.flushes = k
          else run = cut := by
  refine ⟨Sink.perform_writes, fun _ => Script.cutAtLimit _, fun _ _ => Script.cutAtLimit _,
    fun _ => Script.cutAtLimit _, fun prompt input => ?_⟩
  intro script full through
  obtain ⟨houtput, hthrough⟩ := Session.output_eq_shownThrough prompt input
  have hoffsets : flushOffsets script.actions =
      (List.range full.flushes).map fun i => (through i).length :=
    Session.flushOffsets_script prompt input
  refine ⟨Script.cutAtLimit _, houtput, hthrough, fun n refusal => ?_⟩
  intro cut
  constructor
  · have hcut : cut.flushes = (flushOffsets script.actions).countP (· ≤ n) :=
      Script.flushes_run_limited script
    rw [hcut, hoffsets, List.countP_map]
    rfl
  · intro k run
    split
    · rename_i h
      have hget : (flushOffsets script.actions)[k]? = some (through k).length := by
        simp [hoffsets, h.1]
      obtain ⟨hout, hflushes, hresult⟩ := Script.run_failingAt script hget h.2
      exact ⟨hresult, hout.trans (hthrough k h.1), hflushes⟩
    · rename_i h
      refine Script.run_failingAt_of_lt script fun e he => ?_
      rw [hoffsets, List.getElem?_map] at he
      obtain ⟨i, hi, rfl⟩ := Option.map_eq_some_iff.1 he
      obtain ⟨hk, rfl⟩ := List.getElem?_eq_some_iff.1 hi
      rw [List.length_range] at hk
      rw [List.getElem_range]
      by_contra hle
      exact h ⟨hk, Nat.le_of_not_lt hle⟩

/-- A session over one line and a last one that lacks its line feed reaches its third prompt.  It is
cut inside its first line, and it ends behind its second prompt if the flush there fails. -/
theorem run_on_limited_sink_third_prompt :
    let input : Input := { bytes := Text.bytes "fn\n=" }
    let script := Session.script ">> " input
    let full := script.run Sink.unlimited
    let through := Session.shownThrough ">> " input.pieces
    let cut := script.run (Sink.limited 10 .closed)
    let failing := script.run ((Sink.limited 40 .closed).failingAt 1)
    (2 < full.flushes ∧ full.output.take (through 2).length = through 2) ∧
      (10 < full.output.length ∧ cut.result = .error (.output .closed) ∧
        cut.output = Text.bytes ">> \x7bType:F" ∧ cut.flushes = 1) ∧
      ((1 < full.flushes ∧ (through 1).length ≤ 40) ∧
        failing.result = .error (.output .flushFailed) ∧
        failing.output = Text.bytes ">> \x7bType:FUNCTION Literal:fn\x7d\n>> " ∧
        failing.flushes = 1) := by
  intro input script full through cut failing
  obtain ⟨-, -, -, -, hsession⟩ := run_on_limited_sink
  obtain ⟨hcutAtLimit, houtput, hbegins, hlimited⟩ := hsession ">> " input
  have hlines : (input.pieces.takeWhile Input.isText).length = 2 := by cbv
  have hflushes : full.flushes = 3 := by
    rw [show full.flushes = _ from Session.flushes_run_unlimited ">> " input, hlines]
  have hpieces : input.pieces = [Text.bytes "fn\n", Text.bytes "="] := by cbv
  -- what is shown for the two lines
  have hfeed : Blank (Text.bytes "\n") := List.forall_mem_singleton.2 rfl
  have hfirst : tokens "fn\n" = [⟨.keywordFn, "fn"⟩] :=
    (tokens_append_of_blank (a := "fn") hfeed).trans (tokens_of_spells (Spells.fixed rfl))
  have hsecond : tokens "=" = [⟨.assign, "="⟩] := tokens_of_spells (Spells.fixed rfl)
  have hthrough : through 1 = Text.bytes ">> \x7bType:FUNCTION Literal:fn\x7d\n>> " := by
    simp only [through]
    rw [hpieces, Session.shownThrough_cons, Session.rendering_bytes, hfirst]
    decide
  have hlast : through 2 =
      Text.bytes ">> \x7bType:FUNCTION Literal:fn\x7d\n>> \x7bType:= Literal:=\x7d\n>> " := by
    simp only [through]
    rw [hpieces, Session.shownThrough_cons, Session.shownThrough_cons, Session.rendering_bytes,
      Session.rendering_bytes, hfirst, hsecond]
    decide
  have hfull : full.output = through 2 := by
    rw [show full.output = through (full.flushes - 1) from houtput, hflushes]
  have hthird : 2 < full.flushes := hflushes ▸ by decide
  have hlt : 10 < full.output.length := by
    rw [hfull, hlast]
    decide
  have hfails : 1 < full.flushes ∧ (through 1).length ≤ 40 :=
    ⟨hflushes ▸ by decide, hthrough ▸ by decide⟩
  have hcut := hcutAtLimit 10 .closed
  obtain ⟨hcutFlushes, -⟩ := hlimited 10 .closed
  have hfailing := (hlimited 40 .closed).2 1
  rw [if_neg (Nat.not_le.2 hlt)] at hcut
  rw [if_pos hfails] at hfailing
  obtain ⟨hcutResult, hcutOutput⟩ := hcut
  obtain ⟨hresult, hshown, hcount⟩ := hfailing
  refine ⟨⟨hthird, hbegins 2 hthird⟩, ⟨hlt, hcutResult, ?_, ?_⟩, hfails, hresult, ?_, hcount⟩
  · rw [hcutOutput, hfull, hlast]
    decide
  · -- of the three prompts only the first ends within the limit
    have hshort : ∀ i ∈ List.range 3,
        decide ((through i).length ≤ 10) = true ↔ decide (i = 0) = true := by
      simp only [List.forall_mem_cons, List.range, List.range.loop, hthrough, hlast]
      decide
    rw [hcutFlushes, hflushes, List.countP_congr hshort]
    rfl
  · exact hshown.trans hthrough

end TokenStream
