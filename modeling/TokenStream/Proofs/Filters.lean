import Mathlib.Data.List.Induction
import Mathlib.Tactic.Common
import TokenStream.Log.Filter

/-!
# Filters

One directive decides about a target: of those that cover it the one with the longest text, and of
several with that text the last (`deciding?_eq_some_iff`).  Where none covers it nothing is shown.

A filter can be written down if no target in it contains a comma or an equals sign, and what is
written is read back (`ofText_text`).
-/

namespace TokenStream

namespace Filter

/-! ## The deciding directive -/

/-- The directive covers the target; none before it that does has a longer text, and none behind
it has a text as long. -/
def Decides (filter : Filter) (target : String) (d : Directive) : Prop :=
  ∃ before after, filter.directives = before ++ d :: after ∧ d.covers target = true ∧
    (∀ b ∈ before, b.covers target = true → b.target.length ≤ d.target.length) ∧
    ∀ a ∈ after, a.covers target = true → a.target.length < d.target.length

variable {filter : Filter} {ds : List Directive} {target : String} {d e : Directive}

namespace Decides

lemma length_le (h : filter.Decides target d) {c : Directive} (hc : c ∈ filter.directives)
    (hcovers : c.covers target = true) : c.target.length ≤ d.target.length := by
  obtain ⟨before, after, hsplit, -, hbefore, hafter⟩ := h
  rw [hsplit, List.mem_append, List.mem_cons] at hc
  rcases hc with hc | rfl | hc
  · exact hbefore c hc hcovers
  · exact Nat.le_refl _
  · exact Nat.le_of_lt (hafter c hc hcovers)

/-- At most one directive decides. -/
lemma unique (hd : filter.Decides target d) (he : filter.Decides target e) : d = e := by
  obtain ⟨before, after, hsplit, hcovers, hbefore, hafter⟩ := hd
  obtain ⟨before', after', hsplit', hcovers', hbefore', hafter'⟩ := he
  rcases List.append_eq_append_iff.1 (hsplit.symm.trans hsplit') with
    ⟨between, rfl, h⟩ | ⟨between, rfl, h⟩
  · cases between with
    | nil => exact (List.cons.inj h).1
    | cons x between =>
      -- the one in front is no longer than the other, and longer
      obtain ⟨rfl, rfl⟩ := List.cons.inj h
      have hlt := hafter e (by simp) hcovers'
      have hle := hbefore' d (by simp) hcovers
      omega
  · cases between with
    | nil => exact (List.cons.inj h).1.symm
    | cons x between =>
      obtain ⟨rfl, rfl⟩ := List.cons.inj h
      have hlt := hafter' d (by simp) hcovers
      have hle := hbefore e (by simp) hcovers'
      omega

/-- The last directive decides if it is as long as all before it that cover the target. -/
lemma last (hcovers : e.covers target = true)
    (hbefore : ∀ b ∈ ds, b.covers target = true → b.target.length ≤ e.target.length) :
    Decides ⟨ds ++ [e]⟩ target e :=
  ⟨ds, [], rfl, hcovers, hbefore, by simp⟩

/-- A further directive leaves the decision as it is unless it covers the target with a text as
long. -/
lemma concat (h : Decides ⟨ds⟩ target d)
    (he : e.covers target = true → e.target.length < d.target.length) :
    Decides ⟨ds ++ [e]⟩ target d := by
  obtain ⟨before, after, hsplit, hcovers, hbefore, hafter⟩ := h
  obtain rfl : ds = before ++ d :: after := hsplit
  refine ⟨before, after ++ [e], by simp, hcovers, hbefore, ?_⟩
  simpa [or_imp, forall_and] using ⟨hafter, he⟩

end Decides

lemma deciding?_concat (ds : List Directive) (e : Directive) (target : String) :
    deciding? ⟨ds ++ [e]⟩ target =
      if e.covers target = true then
        match deciding? ⟨ds⟩ target with
        | none => some e
        | some b => if b.target.length ≤ e.target.length then some e else some b
      else deciding? ⟨ds⟩ target := by
  simp only [deciding?, List.filter_append, List.foldl_append]
  by_cases he : e.covers target = true <;> simp only [he, List.filter_cons] <;> rfl

/-- Either nothing covers the target and nothing is found, or what is found decides. -/
lemma deciding?_spec (ds : List Directive) (target : String) :
    (deciding? ⟨ds⟩ target = none ∧ ∀ d ∈ ds, ¬ d.covers target = true) ∨
      ∃ d, deciding? ⟨ds⟩ target = some d ∧ Decides ⟨ds⟩ target d := by
  induction ds using List.reverseRecOn with
  | nil => exact Or.inl ⟨rfl, List.forall_mem_nil _⟩
  | append_singleton ds e ih =>
    rw [deciding?_concat]
    by_cases he : e.covers target = true
    · rw [if_pos he]
      rcases ih with ⟨hnone, hds⟩ | ⟨b, hsome, hb⟩
      · rw [hnone]
        exact Or.inr ⟨e, rfl, Decides.last he fun c hc hcovers => absurd hcovers (hds c hc)⟩
      · rw [hsome]
        by_cases hle : b.target.length ≤ e.target.length
        · exact Or.inr ⟨e, if_pos hle,
            Decides.last he fun c hc hcovers => Nat.le_trans (hb.length_le hc hcovers) hle⟩
        · exact Or.inr ⟨b, if_neg hle, hb.concat fun _ => Nat.lt_of_not_le hle⟩
    · rw [if_neg he]
      rcases ih with ⟨hnone, hds⟩ | ⟨b, hsome, hb⟩
      · exact Or.inl ⟨hnone, by simpa [or_imp, forall_and, he] using hds⟩
      · exact Or.inr ⟨b, hsome, hb.concat fun hcovers => absurd hcovers he⟩

theorem deciding?_eq_some_iff : filter.deciding? target = some d ↔ filter.Decides target d := by
  rcases deciding?_spec filter.directives target with ⟨hnone, hds⟩ | ⟨b, hsome, hb⟩
  · have hnot : ¬ filter.Decides target d := by
      rintro ⟨before, after, hsplit, hcovers, -⟩
      exact hds d (by simp [hsplit]) hcovers
    simp [hnone, hnot]
  · rw [hsome, Option.some.injEq]
    constructor
    · rintro rfl
      exact hb
    · exact hb.unique

/-- The directive that decides about a target lets a level through. -/
def Passes (filter : Filter) (target : String) (level : Level) : Prop :=
  ∃ d, filter.Decides target d ∧ d.threshold.admits level = true

theorem shows_iff {level : Level} :
    filter.shows target level = true ↔ filter.Passes target level := by
  simp only [Passes, ← deciding?_eq_some_iff, shows]
  cases filter.deciding? target with
  | none => simp
  | some d => simp

instance (filter : Filter) (target : String) (level : Level) :
    Decidable (filter.Passes target level) :=
  decidable_of_iff _ shows_iff

@[simp]
lemma decide_passes (filter : Filter) (target : String) (level : Level) :
    decide (filter.Passes target level) = filter.shows target level := by
  rw [Bool.eq_iff_iff, decide_eq_true_iff, shows_iff]

/-- The longer text decides, wherever it stands. -/
example : (ofText "monkeyc::repl=debug,monkeyc=off").shows "monkeyc::repl" .debug = true := by
  decide

end Filter

/-! ## Filters as texts -/

lemma Text.parts_intercalate {separator : Char} (parts : List String) (hne : parts ≠ [])
    (h : ∀ part ∈ parts, separator ∉ part.toList) :
    Text.parts separator (String.intercalate (String.singleton separator) parts) = parts := by
  have hsplit : List.splitOn separator ([separator].intercalate (parts.map String.toList)) =
      parts.map String.toList :=
    List.splitOn_intercalate separator (List.forall_mem_map.2 h) (by simpa using hne)
  rw [Text.parts, String.toList_intercalate, String.toList_singleton, hsplit, List.map_map]
  simp

namespace Threshold

/-- The word for a threshold. -/
def name : Threshold → String
  | off => "off"
  | upTo .error => "error"
  | upTo .warn => "warn"
  | upTo .info => "info"
  | upTo .debug => "debug"
  | upTo .trace => "trace"

lemma ofName?_name (t : Threshold) : ofName? t.name = some t := by
  rcases t with - | l
  · rfl
  · cases l <;> rfl

lemma not_mem_name {t : Threshold} {c : Char} (h : c = ',' ∨ c = '=') : c ∉ t.name.toList := by
  rcases h with rfl | rfl <;> rcases t with - | (- | - | - | - | -) <;> decide

end Threshold

/-- A directive as it can be written down: a threshold, for the targets that begin with a text or
for all. -/
structure WrittenDirective where
  target : Option String
  threshold : Threshold
  comma_not_mem : ∀ x ∈ target, ',' ∉ x.toList
  equals_not_mem : ∀ x ∈ target, '=' ∉ x.toList

namespace WrittenDirective

/-- What is meant. -/
def directive (d : WrittenDirective) : Directive := ⟨d.target.getD "", d.threshold⟩

/-- What is written. -/
def text (d : WrittenDirective) : String :=
  match d.target with
  | none => d.threshold.name
  | some target => target ++ "=" ++ d.threshold.name

lemma comma_not_mem_text (d : WrittenDirective) : ',' ∉ d.text.toList := by
  obtain ⟨target, threshold, hcomma, -⟩ := d
  have hname : ',' ∉ threshold.name.toList := Threshold.not_mem_name (Or.inl rfl)
  cases target with
  | none => exact hname
  | some target => simp [text, hname, hcomma]

lemma ofText?_text (d : WrittenDirective) : Directive.ofText? d.text = some d.directive := by
  obtain ⟨target, threshold, -, hequals⟩ := d
  have hname : '=' ∉ threshold.name.toList := Threshold.not_mem_name (Or.inr rfl)
  cases target with
  | none =>
    have hparts : Text.parts '=' threshold.name = [threshold.name] :=
      Text.parts_intercalate [threshold.name] (by simp) (by simpa using hname)
    simp [text, directive, Directive.ofText?, hparts, Threshold.ofName?_name]
  | some target =>
    have hparts : Text.parts '=' (target ++ "=" ++ threshold.name) = [target, threshold.name] :=
      Text.parts_intercalate [target, threshold.name] (by simp)
        (by simpa using ⟨hequals target rfl, hname⟩)
    simp [text, directive, Directive.ofText?, hparts, Threshold.ofName?_name]

end WrittenDirective

namespace Filter

/-- Directives as they are written down. -/
def text (ds : List WrittenDirective) : String :=
  String.intercalate "," (ds.map WrittenDirective.text)

/-- The filter that is meant by directives. -/
def ofWritten (ds : List WrittenDirective) : Filter := ⟨ds.map WrittenDirective.directive⟩

theorem ofText_text (ds : List WrittenDirective) : ofText (text ds) = ofWritten ds := by
  by_cases hnil : ds = []
  · subst hnil
    decide
  · have hparts : Text.parts ',' (text ds) = ds.map WrittenDirective.text :=
      Text.parts_intercalate _ (by simpa using hnil)
        (List.forall_mem_map.2 fun d _ => d.comma_not_mem_text)
    have hread : Directive.ofText? ∘ WrittenDirective.text = some ∘ WrittenDirective.directive :=
      funext WrittenDirective.ofText?_text
    rw [ofText, hparts, List.filterMap_map, hread, List.filterMap_eq_map, ofWritten]

end Filter

end TokenStream
