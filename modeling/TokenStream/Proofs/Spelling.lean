import TokenStream.Proofs.Encoding
import TokenStream.Token.Lexeme

/-!
# How tokens are spelled

`Spells bs t` says that the bytes `bs`, taken by themselves, spell the token `t`.  The kinds that
are always written alike spell themselves, an identifier is a run of letters that is not reserved,
a number is a run of digits, and a byte that has no other use spells an illegal token.

Which byte a spelling contains tells the kind of its token up to the choice of a symbol: letters
occur in words only, digits in numbers only, blanks nowhere.  And whether a spelling could go on
with one more byte depends on the kind alone (`Kind.continues`), for a symbol goes on only if it
is a single equals sign or exclamation mark.
-/

namespace TokenStream

/-- The bytes that are symbols by themselves. -/
def symbolBytes : List UInt8 :=
  ['=', '!', '+', '-', '*', '/', '<', '>', ',', ';', '(', ')', '{', '}'].map Char.toUInt8

/-- A byte that is neither blank nor part of a word, a number or a symbol. -/
def isIllegal (b : UInt8) : Bool :=
  !(isBlank b || isLetter b || isDigit b || symbolBytes.contains b)

/-- The bytes `bs` spell the token `t`. -/
inductive Spells : List UInt8 → Token → Prop
  | fixed {kind : Kind} {x : String} (h : kind.spelling? = some x) : Spells (Text.bytes x) ⟨kind, x⟩
  | ident {x : String} (hne : x ≠ "") (hletters : ∀ b ∈ Text.bytes x, isLetter b = true)
      (hfn : x ≠ "fn") (hlet : x ≠ "let") : Spells (Text.bytes x) ⟨.ident, x⟩
  | int {x : String} (hne : x ≠ "") (hdigits : ∀ b ∈ Text.bytes x, isDigit b = true) :
      Spells (Text.bytes x) ⟨.int, x⟩
  | illegal {b : UInt8} {c : Char} (h : isIllegal b = true) (hc : c.toNat = b.toNat) :
      Spells [b] ⟨.illegal, String.singleton c⟩

namespace Kind

/-- The kinds of words, reserved or not. -/
def isWord (kind : Kind) : Bool := kind == .ident || kind.isKeyword

/-- Whether a token of this kind would have been read on over the byte `b`. -/
def continues (kind : Kind) (b : UInt8) : Bool :=
  match kind with
  | ident | keywordFn | keywordLet => isLetter b
  | int => isDigit b
  | assign | bang => b == '='.toUInt8
  | _ => false

lemma continues_iff {kind : Kind} {b : UInt8} : kind.continues b = true ↔
    (kind.isWord = true ∧ isLetter b = true) ∨ (kind = .int ∧ isDigit b = true) ∨
      ((kind = .assign ∨ kind = .bang) ∧ b = '='.toUInt8) := by
  cases kind <;> simp [continues, isWord, isKeyword]

/-- No token is read on over the first of some bytes, nor over the end of the text. -/
def Stops (kind : Kind) (rest : List UInt8) : Prop :=
  ∀ b, rest.head? = some b → kind.continues b = false

lemma stops_nil (kind : Kind) : kind.Stops [] := by
  simp [Stops]

lemma stops_cons {kind : Kind} {b : UInt8} {rest : List UInt8} :
    kind.Stops (b :: rest) ↔ kind.continues b = false := by
  simp [Stops]

lemma not_stops_iff {kind : Kind} {rest : List UInt8} :
    ¬ kind.Stops rest ↔ ∃ b, rest.head? = some b ∧ kind.continues b = true := by
  simp [Stops]

/-- Only the first byte counts. -/
lemma stops_append {kind : Kind} {rest : List UInt8} (h : rest ≠ []) (more : List UInt8) :
    kind.Stops (rest ++ more) ↔ kind.Stops rest := by
  cases rest with
  | nil => exact absurd rfl h
  | cons b rest => rw [List.cons_append, stops_cons, stops_cons]

/-- The sentinel continues nothing, so looking one byte ahead is enough. -/
lemma Stops.next {kind : Kind} {rest : List UInt8} (h : kind.Stops rest) :
    kind.continues (rest.head?.getD Text.sentinel) = false := by
  cases rest with
  | nil => cases kind <;> rfl
  | cons b rest => exact stops_cons.1 h

end Kind

/-! ## Classes of bytes -/

lemma classes_of_isLetter (b : UInt8) : isLetter b = true →
    b < 128 ∧ isBlank b = false ∧ isDigit b = false ∧ b ∉ symbolBytes := by
  rw [isLetter_iff]
  revert b
  decide +kernel

lemma classes_of_isDigit (b : UInt8) : isDigit b = true →
    b < 128 ∧ isBlank b = false ∧ isLetter b = false ∧ b ∉ symbolBytes := by
  rw [isDigit_iff]
  revert b
  decide +kernel

lemma isIllegal_iff {b : UInt8} : isIllegal b = true ↔
    isBlank b = false ∧ isLetter b = false ∧ isDigit b = false ∧ b ∉ symbolBytes := by
  simp [isIllegal, and_assoc]

/-- A blank continues no token. -/
lemma continues_of_isBlank (kind : Kind) {b : UInt8} (h : isBlank b = true) :
    kind.continues b = false := by
  have hblank : isLetter b = false ∧ isDigit b = false ∧ (b == '='.toUInt8) = false := by
    rw [isBlank_iff] at h
    revert b
    decide +kernel
  cases kind <;> simp [Kind.continues, hblank]

/-! ## Symbols -/

namespace Kind

lemma ofByte?_eq_none_iff (b : UInt8) : ofByte? b = none ↔ b ∉ symbolBytes := by
  revert b
  apply Text.forall_byte
  decide +kernel

/-- A byte that is a symbol spells it. -/
lemma spelling?_of_ofByte? (b : UInt8) :
    ∀ kind ∈ ofByte? b, kind.spelling?.map Text.bytes = some [b] ∧ kind.isKeyword = false := by
  revert b
  apply Text.forall_byte
  decide +kernel

lemma symbol?_eq_none_iff {b next : UInt8} : symbol? b next = none ↔ b ∉ symbolBytes := by
  rw [symbol?, Option.map_eq_none_iff, ofByte?_eq_none_iff]

lemma exists_symbol?_eq_some {b : UInt8} (h : b ∈ symbolBytes) (next : UInt8) :
    ∃ kind width, symbol? b next = some (kind, width) := by
  have hsome : symbol? b next ≠ none := fun hnone => symbol?_eq_none_iff.1 hnone h
  obtain ⟨⟨kind, width⟩, hread⟩ := Option.ne_none_iff_exists'.1 hsome
  exact ⟨kind, width, hread⟩

/-- A one-byte symbol stands alone exactly where it would not be read on. -/
lemma withNext?_eq_none_iff {single : Kind} {x : String} {next : UInt8}
    (hx : single.spelling? = some x) (hkey : single.isKeyword = false) :
    single.withNext? next = none ↔ single.continues next = false := by
  cases single <;> simp_all [spelling?, isKeyword, withNext?, continues]

/-- Where it is read on, both bytes spell a symbol that goes no further. -/
lemma withNext?_eq_some {single double : Kind} {x : String} {next : UInt8}
    (hx : single.spelling? = some x) (h : single.withNext? next = some double) :
    next ≠ Text.sentinel ∧ ∃ y, double.spelling? = some y ∧
      Text.bytes y = Text.bytes x ++ [next] ∧ ∀ c, double.continues c = false := by
  have hnext : next = '='.toUInt8 := by
    by_contra hne
    simp [withNext?, hne] at h
  subst hnext
  cases single <;> simp only [withNext?, beq_self_eq_true, if_true, reduceCtorEq,
    Option.some.injEq] at h <;> subst h <;> obtain rfl := Option.some.inj hx
  · exact ⟨by decide, "==", rfl, by decide, fun _ => rfl⟩
  · exact ⟨by decide, "!=", rfl, by decide, fun _ => rfl⟩

/-- What is read as a symbol is the spelling of one: the first byte alone, where it would not be
read on, or both bytes. -/
lemma symbol?_eq_some {b next : UInt8} {kind : Kind} {width : Nat}
    (h : symbol? b next = some (kind, width)) :
    ∃ x, kind.spelling? = some x ∧
      (Text.bytes x = [b] ∧ width = 1 ∧ kind.continues next = false ∨
        Text.bytes x = [b, next] ∧ width = 2 ∧ next ≠ Text.sentinel ∧
          ∀ c, kind.continues c = false) := by
  obtain ⟨single, hsingle, hw⟩ := Option.map_eq_some_iff.1 h
  obtain ⟨hspell, hkey⟩ := spelling?_of_ofByte? b single hsingle
  obtain ⟨x, hx, hbytes⟩ := Option.map_eq_some_iff.1 hspell
  cases hdouble : single.withNext? next with
  | none =>
    rw [hdouble] at hw
    obtain ⟨rfl, rfl⟩ := Prod.mk.inj hw
    exact ⟨x, hx, Or.inl ⟨hbytes, rfl, (withNext?_eq_none_iff hx hkey).1 hdouble⟩⟩
  | some double =>
    rw [hdouble] at hw
    obtain ⟨rfl, rfl⟩ := Prod.mk.inj hw
    obtain ⟨hnext, y, hy, hyb, hstop⟩ := withNext?_eq_some hx hdouble
    exact ⟨y, hy, Or.inr ⟨by simp [hyb, hbytes], rfl, hnext, hstop⟩⟩

lemma symbol?_of_ofByte? {b next : UInt8} {kind : Kind} (h : ofByte? b = some kind)
    (hstop : kind.continues next = false) : symbol? b next = some (kind, 1) := by
  obtain ⟨hspell, hkey⟩ := spelling?_of_ofByte? b kind h
  obtain ⟨x, hx, -⟩ := Option.map_eq_some_iff.1 hspell
  simp [symbol?, h, (withNext?_eq_none_iff hx hkey).2 hstop]

/-- The spelling of a symbol is read as that symbol, where it would not be read on. -/
lemma symbol?_of_spelling {kind : Kind} {x : String} {rest : List UInt8}
    (hx : kind.spelling? = some x) (hkey : kind.isKeyword = false) (hstop : kind.Stops rest) :
    ∃ b more, Text.bytes x = b :: more ∧
      symbol? b ((more ++ rest).head?.getD Text.sentinel) = some (kind, (Text.bytes x).length) := by
  have hnext := hstop.next
  cases kind <;> simp only [spelling?, isKeyword, reduceCtorEq, Option.some.injEq] at hx hkey <;>
    subst hx
  case equal => exact ⟨'='.toUInt8, ['='.toUInt8], rfl, rfl⟩
  case notEqual => exact ⟨'!'.toUInt8, ['='.toUInt8], rfl, rfl⟩
  all_goals exact ⟨_, [], rfl, symbol?_of_ofByte? rfl hnext⟩

end Kind

/-! ## Spellings and the bytes in them -/

namespace Spells

variable {bs : List UInt8} {t : Token} {b : UInt8}

lemma classes_of_fixed (kind : Kind) (x : String) (h : kind.spelling? = some x) : x ≠ "" ∧
    ∀ b ∈ Text.bytes x, isBlank b = false ∧ isLetter b = kind.isWord ∧ isDigit b = false := by
  have hall : x ≠ "" ∧ (Text.bytes x).all fun b =>
      isBlank b == false && (isLetter b == kind.isWord && isDigit b == false) := by
    cases kind <;> simp only [Kind.spelling?, reduceCtorEq, Option.some.injEq] at h <;>
      subst h <;> exact ⟨by decide, rfl⟩
  simpa using hall

lemma ne_nil (h : Spells bs t) : bs ≠ [] := by
  cases h with
  | fixed h => exact Text.bytes_ne_nil (classes_of_fixed _ _ h).1
  | ident hne | int hne => exact Text.bytes_ne_nil hne
  | illegal => simp

/-- The bytes of a spelling tell the class of its token. -/
lemma classes_of_mem (h : Spells bs t) (hb : b ∈ bs) :
    isBlank b = false ∧ isLetter b = t.kind.isWord ∧ isDigit b = (t.kind == .int) := by
  cases h with
  | @fixed kind x h =>
    obtain ⟨hblank, hletter, hdigit⟩ := (classes_of_fixed kind x h).2 b hb
    have hkind : (kind == .int) = false := by
      rw [beq_eq_false_iff_ne]
      rintro rfl
      simp [Kind.spelling?] at h
    exact ⟨hblank, hletter, by rw [hdigit, hkind]⟩
  | ident hne hletters =>
    obtain ⟨-, hblank, hdigit, -⟩ := classes_of_isLetter b (hletters b hb)
    exact ⟨hblank, by rw [hletters b hb]; rfl, by rw [hdigit]; rfl⟩
  | int hne hdigits =>
    obtain ⟨-, hblank, hletter, -⟩ := classes_of_isDigit b (hdigits b hb)
    exact ⟨hblank, by rw [hletter]; rfl, by rw [hdigits b hb]; rfl⟩
  | illegal h =>
    obtain rfl := List.mem_singleton.1 hb
    obtain ⟨hblank, hletter, hdigit, -⟩ := isIllegal_iff.1 h
    exact ⟨hblank, by rw [hletter]; rfl, by rw [hdigit]; rfl⟩

/-- Except for illegal bytes, a token is spelled by its text. -/
lemma eq_bytes_text (h : Spells bs t) (hkind : t.kind ≠ .illegal) : bs = Text.bytes t.text := by
  cases h with
  | fixed | ident | int => rfl
  | illegal => exact absurd rfl hkind

lemma text_ne_empty (h : Spells bs t) : t.text ≠ "" := by
  cases h with
  | fixed hx => exact (classes_of_fixed _ _ hx).1
  | ident hne | int hne => exact hne
  | illegal => simp

end Spells

end TokenStream
