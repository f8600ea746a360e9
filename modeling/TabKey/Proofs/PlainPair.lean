import TabKey.Proofs.RoundTrip

/-! A pair behind plain text, with plain text inside. Whatever follows it on the line, a first trigger enters it and a
second one leaves it. -/
namespace TabKey

def Text.Plain (c : Char) : Prop := c ≠ '\\' ∧ ∀ d ∈ Delimiter.all, c ∉ d.opener ∧ c ∉ d.closer

instance (c : Char) : Decidable (Text.Plain c) := inferInstanceAs (Decidable (_ ∧ _))

/-- One line: plain text, a pair of the table with plain text inside, and any text after it. -/
structure PlainPair where
  delimiter : Delimiter
  before : List Char
  content : List Char
  after : List Char
  plain_before : ∀ c ∈ before, Text.Plain c
  plain_content : ∀ c ∈ content, Text.Plain c
  /-- Two quotes next to each other may be the first of three. -/
  content_ne_nil : delimiter.kind = .string → delimiter.opener.length = 1 → content ≠ []

namespace Text.Plain
variable {c : Char} {cs : List Char}

theorem not_mem_opener (h : Plain c) (d : Delimiter) : c ∉ d.opener := (h.2 d d.mem_all).1

theorem not_mem_closer (h : Plain c) (d : Delimiter) : c ∉ d.closer := (h.2 d d.mem_all).2

theorem isBracket_eq_false (h : Plain c) : Lexeme.isBracket c = false := by
  rw [Lexeme.isBracket_eq_false, Option.eq_none_iff_forall_ne_some, Option.eq_none_iff_forall_ne_some]
  refine ⟨fun d hd => h.not_mem_opener d ?_, fun d hd => h.not_mem_closer d ?_⟩
  · rw [(Delimiter.ofOpener?_eq_some.mp hd).2]
    exact List.mem_singleton_self c
  · rw [(Delimiter.ofCloser?_eq_some.mp hd).2]
    exact List.mem_singleton_self c

theorem backslash_not_mem (h : ∀ c ∈ cs, Plain c) : '\\' ∉ cs := fun hback => (h _ hback).1 rfl

end Text.Plain

namespace PlainPair
open Text (Plain bare)
variable (pair : PlainPair)

def line : List Char :=
  pair.before ++ (pair.delimiter.opener ++ (pair.content ++ (pair.delimiter.closer ++ pair.after)))

def document : Document := ⟨[pair.line]⟩

def inner : Nat := pair.before.length + pair.delimiter.opener.length

def outer : Nat := pair.inner + pair.content.length + pair.delimiter.closer.length

@[simp] theorem line_document : pair.document.line 0 = pair.line := rfl

@[simp] theorem glyphs_document : pair.document.glyphs 0 = Text.glyphs pair.line := rfl

theorem inner_le_length : pair.inner ≤ pair.line.length := by
  simp only [inner, line, List.length_append]
  omega

private theorem line_eq_front :
    pair.line = (pair.before ++ pair.delimiter.opener) ++ (pair.content ++ (pair.delimiter.closer ++ pair.after)) := by
  rw [line, List.append_assoc]

private theorem line_eq_filled : pair.line =
    (pair.before ++ pair.delimiter.opener ++ pair.content) ++ (pair.delimiter.closer ++ pair.after) := by
  rw [line_eq_front, List.append_assoc (_ ++ _)]

theorem backslash_not_mem_filled : '\\' ∉ pair.before ++ pair.delimiter.opener ++ pair.content := by
  rw [List.mem_append, List.mem_append]
  rintro ((hback | hback) | hback)
  · exact Plain.backslash_not_mem pair.plain_before hback
  · exact pair.delimiter.backslash_not_mem_opener hback
  · exact Plain.backslash_not_mem pair.plain_content hback

theorem stands_opener : Token.Stands pair.line pair.before.length pair.delimiter.opener :=
  Token.stands_append _ _ (Plain.backslash_not_mem pair.plain_before)

theorem stands_closer : Token.Stands pair.line (pair.inner + pair.content.length) pair.delimiter.closer := by
  have hstands := Token.stands_append pair.delimiter.closer pair.after pair.backslash_not_mem_filled
  rwa [← line_eq_filled, List.length_append, List.length_append] at hstands

variable {pair} {token : List Char} {col : Nat}

/-- The text before holds no token. -/
theorem before_length_le_of_stands (h : Token.Stands pair.line col token) (hne : token ≠ [])
    (htoken : ∀ c, Plain c → c ∉ token) : pair.before.length ≤ col := by
  rw [line, ← List.nil_append pair.before, List.append_assoc] at h
  have hle := h.le_of_not_mem hne (fun c hc => htoken c (pair.plain_before c hc)) (Nat.zero_le col)
  rwa [List.length_nil, Nat.zero_add] at hle

/-- The text inside holds no token. -/
theorem content_length_le_of_stands (h : Token.Stands pair.line col token) (hne : token ≠ [])
    (htoken : ∀ c, Plain c → c ∉ token) (hcol : pair.inner ≤ col) : pair.inner + pair.content.length ≤ col := by
  rw [line_eq_front] at h
  have hle := h.le_of_not_mem hne (fun c hc => htoken c (pair.plain_content c hc))
    (by rwa [List.length_append])
  rwa [List.length_append] at hle

/-- No longer opener stands where the pair opens: it would reach into the text inside. -/
theorem opener_length_le {d : Delimiter} (h : Token.Stands pair.line pair.before.length d.opener) :
    d.opener.length ≤ pair.delimiter.opener.length := by
  by_contra hlonger
  have hlt : pair.delimiter.opener.length < d.opener.length := Nat.lt_of_not_le hlonger
  have hsingle : pair.delimiter.kind = .string ∧ pair.delimiter.opener.length = 1 := by
    have htable : ∀ d ∈ Delimiter.all, ∀ d' ∈ Delimiter.all, d.opener <+: d'.opener →
        d.opener.length < d'.opener.length → d.kind = .string ∧ d.opener.length = 1 := by decide
    have hpre := List.prefix_of_prefix_length_le pair.stands_opener.1 h.1 hlt.le
    exact htable _ (Delimiter.mem_all _) d d.mem_all hpre hlt
  have htail := h.drop d.backslash_not_mem_opener hlt
  have hempty := content_length_le_of_stands htail (by simpa using hlt)
    (fun c hc hmem => hc.not_mem_opener d (List.mem_of_mem_drop hmem)) (Nat.le_refl _)
  have hnil : pair.content = [] := List.eq_nil_of_length_eq_zero (by rw [inner] at hempty; omega)
  exact pair.content_ne_nil hsingle.1 hsingle.2 hnil

variable (pair)

theorem complete : PairAhead.Complete pair.line pair.before.length pair.delimiter :=
  ⟨pair.stands_opener, _, Nat.le_add_right _ _, pair.stands_closer⟩

/-- From the text before, the pair is the one ahead. -/
theorem pairAhead (hcol : col ≤ pair.before.length) :
    PairAhead.find? pair.line col = some ⟨pair.delimiter, pair.before.length⟩ := by
  have hstart : min col pair.line.length ≤ pair.before.length := (Nat.min_le_left _ _).trans hcol
  obtain ⟨⟨d, column⟩, hfound⟩ : ∃ ahead, PairAhead.find? pair.line col = some ahead :=
    Option.ne_none_iff_exists'.mp fun hnone =>
      PairAhead.find?_eq_none_iff.mp hnone _ hstart _ pair.complete
  obtain ⟨hleast, hcomplete, hlongest⟩ := PairAhead.leftmost_longest_of_find? hfound
  have hcolumn : column = pair.before.length := Nat.le_antisymm (hleast.2 ⟨hstart, _, pair.complete⟩)
    (before_length_le_of_stands hcomplete.1 d.opener_ne_nil fun c hc => hc.not_mem_opener d)
  subst hcolumn
  have hlen := opener_length_le hcomplete.1
  have hopener : d.opener = pair.delimiter.opener :=
    (List.prefix_of_prefix_length_le hcomplete.1.1 pair.stands_opener.1 hlen).eq_of_length_le
      (hlongest _ pair.complete)
  rw [hfound, Delimiter.opener_injective hopener]

/-- In the text before, the caret is in no pair. -/
theorem opener?_before (window : Nat) (hcol : col ≤ pair.before.length) :
    Enclosure.opener? pair.document window ⟨0, col⟩ = none := by
  have hglyphs : (Text.glyphs pair.line).take col = bare (pair.before.take col) := by
    rw [line, Text.glyphs_append _ (Plain.backslash_not_mem pair.plain_before),
      List.take_append_of_le_length (by simpa [bare] using hcol), Text.take_bare]
  have hplain : ∀ c ∈ (pair.before.take col).reverse, Plain c := fun c hc =>
    pair.plain_before c (List.mem_of_mem_take (List.mem_reverse.mp hc))
  have hwalk : Enclosure.openerBefore true 0 0 (bare ((pair.before.take col).reverse ++ [])) = .past 0 :=
    Enclosure.openerBefore_inert 0 [] (fun c hc => (hplain c hc).isBracket_eq_false)
      fun _ c hc q _ => (hplain c hc).not_mem_opener q
  rw [List.append_nil] at hwalk
  simp only [Enclosure.opener?, glyphs_document, hglyphs, Text.reverse_bare, hwalk]
  cases window <;> rfl

/-- The quote read right before the text inside is the opener: a longer one would begin in the text before. -/
theorem quoteBefore?_inner (hkind : pair.delimiter.kind = .string) :
    Token.quoteBefore? ((Text.glyphs pair.line).take pair.inner).reverse = some pair.delimiter := by
  have hends : Token.endsAt pair.delimiter.opener ((Text.glyphs pair.line).take pair.inner).reverse :=
    pair.stands_opener.endsAt pair.delimiter.opener_ne_nil
  have hwidth : ((Text.glyphs pair.line).take pair.inner).reverse.length = pair.inner := by
    rw [List.length_reverse, Text.length_take_glyphs pair.inner_le_length]
  obtain ⟨q, hquote, hpre, -⟩ := Token.exists_quoteBefore? (Delimiter.mem_quotes_iff.mpr hkind) hends
  have hqends := (Token.quoteBefore?_eq_some hquote).2
  have hroom := Token.length_le_of_endsAt hqends
  rw [hwidth] at hroom
  have hstands : Token.Stands pair.line (pair.inner - q.opener.length) q.opener :=
    Token.stands_of_endsAt List.suffix_rfl hqends (by omega)
  have hle := before_length_le_of_stands hstands q.opener_ne_nil fun c hc => hc.not_mem_opener q
  rw [inner] at hle hroom
  have hopener : pair.delimiter.opener = q.opener := hpre.eq_of_length_le (by omega)
  rw [hquote, Delimiter.opener_injective hopener]

theorem rfind?_before : Token.rfind? pair.line pair.before.length pair.delimiter.opener = none := by
  rw [Option.eq_none_iff_forall_ne_some]
  intro partner hpartner
  obtain ⟨hstands, hstop⟩ := Token.rfind?_eq_some hpartner
  have hle := before_length_le_of_stands hstands pair.delimiter.opener_ne_nil
    fun c hc => hc.not_mem_opener pair.delimiter
  have hpos := List.length_pos_iff.mpr pair.delimiter.opener_ne_nil
  omega

/-- Right after the opener, the caret is in the pair. -/
theorem opener?_inner (window : Nat) : Enclosure.opener? pair.document window ⟨0, pair.inner⟩ =
    some (pair.delimiter, ⟨0, pair.before.length⟩) := by
  cases hkind : pair.delimiter.kind with
  | structural => exact Enclosure.opener?_of_bracket hkind pair.stands_opener
  | string =>
    have hwalk := Enclosure.openerBefore_take_of_quote 0 (pair.quoteBefore?_inner hkind) pair.inner_le_length
    have hstart : pair.inner - pair.delimiter.opener.length = pair.before.length := Nat.add_sub_cancel _ _
    rw [hstart, rfind?_before] at hwalk
    simp only [Enclosure.opener?, glyphs_document, hwalk]

theorem find?_closer : Token.find? pair.line pair.inner pair.delimiter.closer =
    some (pair.inner + pair.content.length) :=
  Token.find?_eq_of_first pair.stands_closer (Nat.le_add_right _ _) pair.delimiter.closer_ne_nil
    fun _ hle hstands => content_length_le_of_stands hstands pair.delimiter.closer_ne_nil
      (fun _ hc => hc.not_mem_closer pair.delimiter) hle

/-- The walk to the right comes through the text inside to the closer. -/
theorem closerAfter_inner (hkind : pair.delimiter.kind = .structural) :
    Enclosure.closerAfter pair.delimiter 0 0 pair.inner ((Text.glyphs pair.line).drop pair.inner) =
      .hit pair.outer := by
  have hafter : (Text.glyphs pair.line).drop pair.inner =
      bare pair.content ++ Text.glyphs (pair.delimiter.closer ++ pair.after) := by
    have hfront : pair.inner = (bare (pair.before ++ pair.delimiter.opener)).length := by
      simp [bare, inner]
    rw [line_eq_filled, Text.glyphs_append _ pair.backslash_not_mem_filled, bare, List.map_append, List.append_assoc,
      ← bare, hfront, List.drop_left]
    rfl
  have hstands : Token.Stands (pair.delimiter.closer ++ pair.after) 0 pair.delimiter.closer :=
    Token.stands_append pair.delimiter.closer pair.after List.not_mem_nil
  have hbegins := hstands.beginsAt pair.delimiter.closer_ne_nil
  rw [List.drop_zero] at hbegins
  rw [hafter, Enclosure.closerAfter_inert hkind 0 pair.inner _
      (fun c hc => (pair.plain_content c hc).isBracket_eq_false)
      fun c hc q _ => (pair.plain_content c hc).not_mem_opener q,
    Enclosure.closerAfter_of_beginsAt hkind hbegins]
  rfl

/-- The pair is left behind its own closer. -/
theorem closer?_inner (window : Nat) :
    Enclosure.closer? pair.document pair.delimiter window ⟨0, pair.inner⟩ = some ⟨0, pair.outer⟩ := by
  have hcol : min pair.inner pair.line.length = pair.inner := Nat.min_eq_left pair.inner_le_length
  cases hkind : pair.delimiter.kind with
  | string =>
    obtain ⟨n, hn, hplace⟩ := Option.map_eq_some_iff.mp pair.find?_closer
    simp only [Enclosure.closer?, hkind, line_document, glyphs_document, hcol, hn, Option.map_some, hplace, outer]
  | structural =>
    simp only [Enclosure.closer?, hkind, line_document, glyphs_document, hcol, pair.closerAfter_inner hkind]

theorem enclosure?_inner (window : Nat) : Enclosure.find? pair.document window ⟨0, pair.inner⟩ =
    some ⟨⟨0, pair.before.length⟩, ⟨0, pair.outer⟩, pair.delimiter.kind⟩ := by
  rw [Enclosure.find?, Enclosure.within?, opener?_inner]
  simp only [closer?_inner, Option.map_some]

theorem enclosure?_before (window : Nat) (hcol : col ≤ pair.before.length) :
    Enclosure.find? pair.document window ⟨0, col⟩ = none := by
  rw [Enclosure.find?, Enclosure.within?, pair.opener?_before _ hcol]

end PlainPair

/-- Behind a character that is no white space, a first trigger goes right behind the opener and a second one right
behind the closer, whatever the settings and whatever follows the pair. -/
theorem Outcome.jumpInto_jumpOut_plainPair (pair : PlainPair) {col : Nat} (hcol : col ≤ pair.before.length)
    (hink : ∃ c ∈ pair.before.take col, Text.isSpace c = false) {settings settings' : Settings}
    (henable : settings.enable) (henable' : settings'.enable) :
    ofTrigger settings (some ⟨pair.document, .caret ⟨0, col⟩⟩) = .performed (.jumpInto ⟨0, pair.inner⟩) ∧
      ofTrigger settings' (some ⟨pair.document, .caret ⟨0, pair.inner⟩⟩) = .performed (.jumpOut ⟨0, pair.outer⟩) := by
  have hstart {place : Nat} (hplace : col ≤ place) :
      pair.document.atContentStart ⟨0, place⟩ = false := by
    obtain ⟨c, hc, hspace⟩ := hink
    have hfront : pair.before.take col = pair.line.take col := by
      rw [PlainPair.line, List.take_append_of_le_length hcol]
    rw [hfront] at hc
    exact List.all_eq_false.mpr ⟨c, (List.take_prefix_take_left hplace).subset hc, by simpa using hspace⟩
  have hinner : col ≤ pair.inner := Nat.le_trans hcol (Nat.le_add_right _ _)
  constructor
  · refine ofTrigger_eq_performed.mpr ⟨henable, ?_⟩
    rw [Document.situation_caret]
    apply Situation.decide_of_entry? rfl rfl rfl
    · exact hstart (Nat.le_refl _)
    · simp only [Situation.exit?, pair.enclosure?_before _ hcol, Option.map_none]
    · change ((PairAhead.find? pair.line col).bind fun ahead => some (⟨0, ahead.inner⟩ : Position)) =
        some ⟨0, pair.inner⟩
      rw [pair.pairAhead hcol]
      rfl
  · refine ofTrigger_eq_performed.mpr ⟨henable', ?_⟩
    rw [Document.situation_caret]
    apply Situation.decide_of_exit? rfl rfl rfl
    · exact hstart hinner
    · simp only [Situation.exit?, pair.enclosure?_inner, Option.map_some]

def PlainPair.cluttered : PlainPair where
  delimiter := .double
  before := ['f', ' ']
  content := ['a']
  after := ['"', '"', '(', '\\', ']', '\x27', '{', '<']
  plain_before := List.forall_mem_cons.mpr ⟨by decide, List.forall_mem_singleton.mpr (by decide)⟩
  plain_content := List.forall_mem_singleton.mpr (by decide)
  content_ne_nil := by decide

theorem Outcome.jumpInto_jumpOut_cluttered :
    let doc : Document := ⟨[['f', ' ', '"', 'a', '"', '"', '"', '(', '\\', ']', '\x27', '{', '<']]⟩
    let settings' : Settings := { eagerJumpOut := true, searchLines := 0 }
    1 ≤ PlainPair.cluttered.before.length ∧ (∃ c ∈ PlainPair.cluttered.before.take 1, Text.isSpace c = false) ∧
      ofTrigger {} (some ⟨doc, .caret ⟨0, 1⟩⟩) = .performed (.jumpInto ⟨0, 3⟩) ∧
      ofTrigger settings' (some ⟨doc, .caret ⟨0, 3⟩⟩) = .performed (.jumpOut ⟨0, 5⟩) := by
  intro doc settings'
  have hcol : 1 ≤ PlainPair.cluttered.before.length := by decide
  have hink : ∃ c ∈ PlainPair.cluttered.before.take 1, Text.isSpace c = false := ⟨'f', by decide, rfl⟩
  exact ⟨hcol, hink, jumpInto_jumpOut_plainPair PlainPair.cluttered hcol hink rfl rfl⟩

end TabKey
