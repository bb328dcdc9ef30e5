import TokenStream.Proofs.Lines
import TokenStream.Proofs.Transcript

/-!
# Reading a listing back

What a listing shows determines the tokens: they can be read off its bytes again
(`listing_unambiguous`).

The text of a token is shown as it is, and may be a brace or nearly any other character, so the
bytes are not taken apart by looking for the marks between the parts of a line.  The one thing that
no token contains is a line feed.  So the listing is cut behind its line feeds first, which gives
back the lines of the tokens; in each of them the kind ends at the first space, for no name of a
kind contains one, and the text is all that is left up to the brace that closes the line.
-/

namespace TokenStream

/-- What precedes `ending`, if the text ends with it. -/
def Text.before? (ending source : String) : Option String :=
  if ending.toList.isSuffixOf source.toList then
    some (String.ofList (source.toList.take (source.toList.length - ending.toList.length)))
  else none

lemma Text.before?_eq_some_iff {ending source front : String} :
    before? ending source = some front ↔ source = front ++ ending := by
  unfold before?
  rw [← String.toList_inj, String.toList_append, Option.ite_none_right_eq_some,
    List.isSuffixOf_iff_suffix, Option.some.injEq]
  constructor
  · rintro ⟨⟨more, hmore⟩, rfl⟩
    simp [← hmore]
  · intro h
    refine ⟨⟨front.toList, h.symm⟩, ?_⟩
    rw [h, List.length_append, Nat.add_sub_cancel, List.take_left, String.ofList_toList]

/-! ## Reading a token -/

namespace Kind

/-- The kind with the given name. -/
def ofName? (name : String) : Option Kind := all.find? fun kind => kind.name == name

lemma name_of_ofName? {name : String} {kind : Kind} (h : ofName? name = some kind) :
    kind.name = name := by
  rw [ofName?] at h
  have hname := List.find?_some h
  exact beq_iff_eq.1 hname

lemma ofName?_eq_some_iff {name : String} {kind : Kind} :
    ofName? name = some kind ↔ name = kind.name := by
  constructor
  · intro h
    exact (name_of_ofName? h).symm
  · rintro rfl
    have hsome : (ofName? kind.name).isSome := by
      rw [ofName?, List.find?_isSome]
      exact ⟨kind, mem_all kind, beq_self_eq_true _⟩
    obtain ⟨other, hother⟩ := Option.isSome_iff_exists.1 hsome
    rw [hother, name_injective (name_of_ofName? hother)]

/-- In the name of a kind there is neither a space nor a line feed. -/
lemma not_mem_name (kind : Kind) : ' ' ∉ kind.name.toList ∧ '\n' ∉ kind.name.toList := by
  cases kind <;> decide

end Kind

namespace Token

/-- The token that is shown like this.  The kind ends at the first space, the text at the end. -/
def ofDisplay? (shown : String) : Option Token := do
  let named ← Text.after? "\x7bType:" shown
  let kind ← Kind.ofName? (String.ofList (named.toList.takeWhile (· != ' ')))
  let literal ← Text.after? (kind.name ++ " Literal:") named
  let text ← Text.before? "\x7d" literal
  return ⟨kind, text⟩

/-- Every token is read back from what it shows, and nothing else shows a token. -/
theorem ofDisplay?_eq_some_iff {shown : String} {t : Token} :
    ofDisplay? shown = some t ↔ shown = t.display := by
  simp only [ofDisplay?, Option.bind_eq_bind, Option.bind_eq_some_iff, Text.after?_eq_some_iff,
    Text.before?_eq_some_iff, Kind.ofName?_eq_some_iff, Option.pure_def, Option.some.injEq]
  constructor
  · rintro ⟨named, rfl, kind, -, literal, rfl, text, rfl, rfl⟩
    simp [display, String.append_assoc]
  · rintro rfl
    refine ⟨t.kind.name ++ " Literal:" ++ t.text ++ "\x7d", by simp [display, String.append_assoc],
      t.kind, ?_, t.text ++ "\x7d", by simp [String.append_assoc], t.text, rfl, rfl⟩
    have hspace : ∀ c ∈ t.kind.name.toList, (c != ' ') = true := by
      intro c hc
      rw [bne_iff_ne]
      rintro rfl
      exact t.kind.not_mem_name.1 hc
    have hname : (t.kind.name ++ " Literal:" ++ t.text ++ "\x7d").toList.takeWhile (· != ' ')
        = t.kind.name.toList := by
      simp only [String.toList_append, List.append_assoc]
      rw [List.takeWhile_append_of_pos hspace]
      simp
    rw [hname, String.ofList_toList]

end Token

/-! ## Reading lines -/

namespace Input

/-- Lines without further line feeds are what their bytes are cut into. -/
lemma splitLines_flatMap {bodies : List String} (h : ∀ body ∈ bodies, '\n' ∉ body.toList) :
    splitLines (bodies.flatMap fun body => Text.bytes (body ++ "\n"))
      = bodies.map fun body => Text.bytes (body ++ "\n") := by
  have hlast : ∀ body, Text.bytes (body ++ "\n") = Text.bytes body ++ [lineFeed] := fun body =>
    Text.bytes_append body "\n"
  symm
  refine lineCut_iff.1 ⟨by rw [List.flatMap_def], ?_, ?_, ?_⟩
  · intro p hp
    obtain ⟨body, -, rfl⟩ := List.mem_map.1 hp
    simp [hlast]
  · intro p hp
    obtain ⟨body, hbody, rfl⟩ := List.mem_map.1 hp
    rw [hlast, List.dropLast_concat, Text.mem_bytes_iff (by decide)]
    exact h body hbody
  · intro p hp
    obtain ⟨body, -, rfl⟩ := List.mem_map.1 (List.dropLast_subset _ hp)
    rw [hlast, List.getLast?_concat]

end Input

namespace Listing

/-- The token on a line that begins with `indent`. -/
def tokenOf? (indent : String) (line : List UInt8) : Option Token := do
  let text ← Text.ofBytes? line
  let body ← Text.before? "\n" text
  let shown ← Text.after? indent body
  Token.ofDisplay? shown

lemma tokenOf?_eq_some_iff {indent : String} {line : List UInt8} {t : Token} :
    tokenOf? indent line = some t ↔ line = Text.bytes (indent ++ t.display ++ "\n") := by
  simp only [tokenOf?, Option.bind_eq_bind, Option.bind_eq_some_iff, Text.ofBytes?_eq_some_iff,
    Text.after?_eq_some_iff, Text.before?_eq_some_iff, Token.ofDisplay?_eq_some_iff]
  constructor
  · rintro ⟨_, rfl, _, rfl, _, rfl, rfl⟩
    rfl
  · rintro rfl
    exact ⟨_, rfl, _, rfl, _, rfl, rfl⟩

/-- The tokens on some lines, each of which begins with `indent`. -/
def tokensOf? (indent : String) (lines : List (List UInt8)) : Option (List Token) :=
  lines.mapM (tokenOf? indent)

lemma tokensOf?_lines (indent : String) (ts : List Token) :
    tokensOf? indent (ts.map fun t => Text.bytes (indent ++ t.display ++ "\n")) = some ts := by
  induction ts with
  | nil => rfl
  | cons t ts ih =>
    have ht : tokenOf? indent (Text.bytes (indent ++ t.display ++ "\n")) = some t :=
      tokenOf?_eq_some_iff.2 rfl
    rw [tokensOf?] at ih ⊢
    rw [List.map_cons, List.mapM_cons, ht, ih]
    rfl

/-- The tokens that a listing shows. -/
def decode? (output : List UInt8) : Option (List Token) :=
  tokensOf? "" (Input.splitLines output)

end Listing

/-- The tokens that the listing of a file shows, which are on the lines between its header and the
last line. -/
def FileListing.decode? (path : String) (output : List UInt8) : Option (List Token) :=
  let behind := output.drop (Text.bytes (header path)).length
  Listing.tokensOf? "  " (Input.splitLines behind).dropLast

/-! ## No line feed in a token -/

/-- The text of a token that a text spells contains no line feed. -/
lemma Spells.not_mem_text {bs : List UInt8} {t : Token} (h : Spells bs t) :
    '\n' ∉ t.text.toList := by
  by_cases hkind : t.kind = .illegal
  · -- the text is the character with the value of a byte that is not blank
    cases h with
    | @illegal b c h hc =>
      rw [String.toList_singleton, List.mem_singleton]
      rintro rfl
      obtain rfl : b = Input.lineFeed := UInt8.toNat_inj.1 hc.symm
      exact absurd h (by decide)
    | fixed h =>
      obtain rfl := hkind
      exact absurd h (by simp [Kind.spelling?])
    | ident | int => exact absurd hkind (by simp)
  · intro hmem
    have hfeed : Input.lineFeed ∈ bs := by
      rw [h.eq_bytes_text hkind]
      exact (Text.mem_bytes_iff (by decide)).2 hmem
    exact absurd (h.classes_of_mem hfeed).1 (by decide)

lemma not_mem_text_of_mem_tokens {source : String} {t : Token} (h : t ∈ tokens source) :
    '\n' ∉ t.text.toList := by
  obtain ⟨bs, hspells⟩ := exists_spells_of_mem h
  exact hspells.not_mem_text

/-- Nor does what it shows. -/
lemma Token.not_mem_display {t : Token} (h : '\n' ∉ t.text.toList) :
    '\n' ∉ t.display.toList := by
  simp [display, h, t.kind.not_mem_name.2]

/-- The last line of the listing of a file contains none but its own. -/
lemma FileListing.exists_summary (n : Nat) :
    ∃ body, '\n' ∉ body.toList ∧ summary n = body ++ "\n" := by
  refine ⟨toString n ++ " tokens", ?_, by rw [summary, String.append_assoc]; rfl⟩
  rw [String.toList_append, List.mem_append, not_or]
  refine ⟨fun hmem => ?_, by decide⟩
  rw [Nat.toString_eq_repr, Nat.repr_eq_ofList_toDigits, String.toList_ofList] at hmem
  exact absurd (Nat.isDigit_of_mem_toDigits (by decide) (by decide) hmem) (by decide)

/-! ## What listings show -/

namespace Listing

/-- The lines of tokens and some lines behind them are what their bytes are cut into. -/
lemma splitLines_tokenLines (source : String) {indent : String} {more : List String}
    (hindent : '\n' ∉ indent.toList) (hmore : ∀ body ∈ more, '\n' ∉ body.toList) :
    Input.splitLines (tokenLines indent (tokens source)
        ++ more.flatMap fun body => Text.bytes (body ++ "\n")) =
      ((tokens source).map fun t => Text.bytes (indent ++ t.display ++ "\n"))
        ++ more.map fun body => Text.bytes (body ++ "\n") := by
  have hbodies : ∀ body ∈ (tokens source).map (fun t => indent ++ t.display) ++ more,
      '\n' ∉ body.toList := by
    intro body hbody
    rcases List.mem_append.1 hbody with hbody | hbody
    · obtain ⟨t, ht, rfl⟩ := List.mem_map.1 hbody
      rw [String.toList_append, List.mem_append, not_or]
      exact ⟨hindent, Token.not_mem_display (not_mem_text_of_mem_tokens ht)⟩
    · exact hmore body hbody
  have hsplit := Input.splitLines_flatMap hbodies
  rw [List.flatMap_append, List.map_append, List.flatMap_map, List.map_map] at hsplit
  exact hsplit

lemma decode?_output (source : String) :
    decode? ((script source).run Sink.unlimited).output = some (tokens source) := by
  have hmore : ∀ body ∈ ([] : List String), '\n' ∉ body.toList := by simp
  have hsplit := splitLines_tokenLines source (by decide : '\n' ∉ "".toList) hmore
  simp only [List.flatMap_nil, List.map_nil, List.append_nil] at hsplit
  rw [decode?, output_script, hsplit, tokensOf?_lines]

/-- There is one line feed for each token. -/
lemma count_lineFeed_output (source : String) :
    ((script source).run Sink.unlimited).output.count Input.lineFeed = (tokens source).length := by
  have hline : ∀ t ∈ tokens source, (List.count Input.lineFeed ∘
      fun t => Text.bytes ("" ++ t.display ++ "\n")) t = 1 := by
    intro t ht
    show (Text.bytes ("" ++ t.display ++ "\n")).count Input.lineFeed = 1
    have hnot : Input.lineFeed ∉ Text.bytes ("" ++ t.display) := by
      rw [Text.mem_bytes_iff (by decide), String.empty_append]
      exact Token.not_mem_display (not_mem_text_of_mem_tokens ht)
    rw [Text.bytes_append, List.count_append, List.count_eq_zero.2 hnot]
    rfl
  rw [output_script, tokenLines, List.count_flatMap,
    List.map_congr_left (g := fun _ => 1) hline]
  simp

end Listing

lemma FileListing.decode?_output (path source : String) :
    decode? path ((script path (.ok source)).run Sink.unlimited).output = some (tokens source) := by
  obtain ⟨last, hlast, hsummary⟩ := exists_summary (tokens source).length
  have hmore : ∀ body ∈ [last], '\n' ∉ body.toList := by
    intro body hbody
    rwa [List.mem_singleton.1 hbody]
  have hsplit := Listing.splitLines_tokenLines source (by decide : '\n' ∉ "  ".toList) hmore
  rw [List.flatMap_singleton, List.map_singleton, ← hsummary] at hsplit
  rw [decode?, output_script, List.append_assoc, List.drop_left]
  show Listing.tokensOf? "  " (Input.splitLines _).dropLast = _
  rw [hsplit, List.dropLast_concat, Listing.tokensOf?_lines]

/-- What depends on the tokens of a text alone and can be read back tells texts apart exactly by
their tokens. -/
lemma output_eq_iff {output : String → List UInt8} {read : List UInt8 → Option (List Token)}
    (hread : ∀ source, read (output source) = some (tokens source))
    (htokens : ∀ s t, tokens s = tokens t → output s = output t) (s t : String) :
    output s = output t ↔ tokenize s = tokenize t := by
  rw [tokenize, tokenize, List.append_left_inj]
  constructor
  · intro h
    have hs := hread s
    rw [h, hread t] at hs
    exact (Option.some.inj hs).symm
  · exact htokens s t

/-- What a listing shows, of a text or of the file at a path, can be read back: the tokens from its
bytes, and their number, which it yields, from its line feeds.  So two texts have the same listing
exactly if they have the same tokens. -/
theorem listing_unambiguous :
    (∀ source : String,
      let run := (Listing.script source).run Sink.unlimited
      Listing.decode? run.output = some (tokens source) ∧
        run.result = .ok (run.output.count Input.lineFeed)) ∧
    (∀ s t : String,
      ((Listing.script s).run Sink.unlimited).output =
        ((Listing.script t).run Sink.unlimited).output ↔ tokenize s = tokenize t) ∧
    (∀ path source : String, FileListing.decode? path
      ((FileListing.script path (.ok source)).run Sink.unlimited).output = some (tokens source)) ∧
    ∀ path s t : String,
      ((FileListing.script path (.ok s)).run Sink.unlimited).output =
        ((FileListing.script path (.ok t)).run Sink.unlimited).output ↔
          tokenize s = tokenize t := by
  refine ⟨fun source => ⟨Listing.decode?_output source, ?_⟩,
    output_eq_iff Listing.decode?_output fun s t h => ?_, FileListing.decode?_output,
    fun path => output_eq_iff (FileListing.decode?_output path) fun s t h => ?_⟩
  · rw [Listing.count_lineFeed_output, Script.run_unlimited, Listing.script, Listing.count_eq]
  · rw [Listing.output_script, Listing.output_script, h]
  · rw [FileListing.output_script, FileListing.output_script, h]

end TokenStream
