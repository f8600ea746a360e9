import TabKey.Proofs.Around
import TabKey.Proofs.Enclosure.Exact
import TabKey.Proofs.Progress

/-! Leaving nested pairs. Triggers one after another take the caret out of the pairs around it, from the inside out,
and none leaves a pair after that. -/
namespace TabKey

namespace Text

def lexemes (text : List Char) : List (List Lexeme) := (rows text).map fun r => r.content.map .char

def brackets (text : List Char) : List Mark := Lexeme.marksFrom (lexemes text) 0 (lexemes text).length

/-- Neither quotes nor escapes, every bracket closed by its own kind, and no two ends of a pair more than 50 rows
apart. -/
structure WellNested (text : List Char) : Prop where
  plain : ∀ c ∈ text, c ∉ Lexeme.reserved
  nested : Mark.Nested (brackets text)
  near : ∀ d o c, Mark.Matched (brackets text) d o c → c.row ≤ o.row + 50

end Text

theorem Lexeme.Tidy.of_chars {cs : List Char} (h : ∀ c ∈ cs, c ∉ reserved) : Tidy (cs.map char) where
  plain := by
    intro x hx c hc
    obtain ⟨c', hc', rfl⟩ := List.mem_map.mp hx
    rw [content, List.mem_singleton] at hc
    exact hc ▸ h c' hc'
  apart := by
    apply List.Pairwise.isChain
    apply List.pairwise_map.mpr
    exact List.pairwise_of_forall fun _ _ h => Bool.false_ne_true h.1

namespace Text.WellNested
variable {text : List Char} {p o c : Position} {d : Delimiter} {window : Nat}

def listing (h : WellNested text) : Listing where
  lines := lexemes text
  tidy := by
    intro line hline
    obtain ⟨r, hr, rfl⟩ := List.mem_map.mp hline
    apply Lexeme.Tidy.of_chars
    intro c hc
    apply h.plain
    rw [← unrows_rows text]
    exact List.mem_flatMap.mpr ⟨r, hr, List.mem_append_left _ hc⟩
  nested := h.nested

theorem document_listing (h : WellNested text) : h.listing.document = .ofText text := by
  simp [listing, Listing.document, Document.ofText, lexemes, Function.comp_def]

theorem literal_not_mem (h : WellNested text) (row : Nat) (content : List Char) :
    Lexeme.literal content ∉ h.listing.line row := by
  rw [Listing.line, Lexeme.lineAt, show h.listing.lines = lexemes text from rfl, lexemes, List.getElem?_map]
  cases (rows text)[row]? with
  | none => exact List.not_mem_nil
  | some r => simp

theorem not_inside (h : WellNested text) (row col : Nat) : ¬ Lexeme.Inside (h.listing.line row) col := by
  rintro ⟨left, content, right, hline, -⟩
  exact h.literal_not_mem row content (hline ▸ by simp)

theorem quietAbove (h : WellNested text) (row : Nat) : h.listing.QuietAbove row := by
  intro r _ content hmem
  exact absurd hmem (h.literal_not_mem r content)

/-- A position of the text parts its row between two lexemes. -/
theorem exists_split (h : WellNested text) (hin : InBounds text p) :
    ∃ left right, h.listing.line p.row = left ++ right ∧ (Lexeme.render left).length = p.col := by
  apply Lexeme.exists_split ?_ (h.not_inside p.row p.col)
  rw [← Listing.document_line, h.document_listing, Document.line_ofText]
  exact hin.2

theorem find?_of_innermost (h : WellNested text) (hwindow : 50 ≤ window) (hin : InBounds text p)
    (hinner : Mark.Innermost (brackets text) p d o c) :
    Enclosure.find? (.ofText text) window p = some ⟨o, c.next, .structural⟩ := by
  obtain ⟨left, right, hsplit, hcol⟩ := h.exists_split hin
  have hnear := h.near d o c hinner.matched
  have hbefore := hinner.opener_before
  have hafter := hinner.closer_after
  rw [Position.lt_def] at hbefore
  rw [Position.le_def] at hafter
  rw [Enclosure.find?, show min window Enclosure.maxWindow = 50 from Nat.min_eq_right hwindow,
    ← h.document_listing]
  exact Listing.within?_of_innermost hsplit hcol (h.quietAbove p.row) hinner (by omega) (by omega)

theorem find?_eq_none (h : WellNested text) (hin : InBounds text p)
    (hnone : ∀ d o c, ¬ Mark.Around (brackets text) p d o c) :
    Enclosure.find? (.ofText text) window p = none := by
  obtain ⟨left, right, hsplit, hcol⟩ := h.exists_split hin
  rw [Enclosure.find?, ← h.document_listing]
  apply Listing.within?_eq_none hsplit hcol (h.quietAbove p.row)
  intro d o c hmatched hbefore hafter
  exact hnone d o c ⟨hmatched, hbefore, hafter⟩

end Text.WellNested

/-- Right behind a pair there is its closer, so the caret is not in the margin. -/
theorem Document.atContentStart_closed {doc : Document} {window : Nat} {p : Position} {e : Enclosure}
    (h : Enclosure.find? doc window p = some e) : doc.atContentStart e.closed = false := by
  have hvisible : ∀ d : Delimiter, d.closer.all Text.isSpace = false := by
    intro d
    cases d <;> decide
  obtain ⟨d, -, hclosed, -⟩ := Enclosure.find?_eq_some h
  obtain ⟨⟨start, hcol, ⟨hcloser, -⟩, -⟩, -⟩ := Enclosure.closer?_eq_some hclosed
  obtain ⟨c, hmem, hc⟩ := List.all_eq_false.mp (hvisible d)
  have hline : (doc.line e.closed.row).take e.closed.col = (doc.line e.closed.row).take start ++ d.closer := by
    rw [hcol, List.take_add, ← List.prefix_iff_eq_take.mp hcloser]
  rw [atContentStart, hline, Text.isBlank, List.all_eq_false]
  exact ⟨c, List.mem_append_right _ hmem, hc⟩

namespace Buffer
variable {b : Buffer} {p o c : Position} {d : Delimiter} {settings : Settings}
  {pairs : List (Delimiter × Position × Position)}

structure PeelingAt (b : Buffer) (p : Position) (pairs : List (Delimiter × Position × Position)) : Prop where
  wellNested : Text.WellNested b.text
  caret : b.selection = .caret p
  inBounds : Text.InBounds b.text p
  behindMargin : (Document.ofText b.text).atContentStart p = false
  peels : Mark.Peels (Text.brackets b.text) p pairs

/-- One trigger leaves the innermost pair. -/
theorem PeelingAt.trigger_pair (h : b.PeelingAt p ((d, o, c) :: pairs)) (henable : settings.enable)
    (hwindow : 50 ≤ settings.searchLines) :
    (b.trigger settings).1 = .performed (.jumpOut c.next) ∧ (b.trigger settings).2.text = b.text ∧
      (b.trigger settings).2.PeelingAt c.next pairs := by
  cases h.peels with
  | pair hinner hrest =>
    have hfind := h.wellNested.find?_of_innermost hwindow h.inBounds hinner
    have hdecide : ((Document.ofText b.text).situation (.caret p) settings).decide settings =
        .jumpOut c.next := by
      rw [Document.situation_caret]
      apply Situation.decide_of_exit? rfl rfl rfl
      · exact h.behindMargin
      · rw [Situation.exit?, hfind]
        rfl
    have hjump : (b.trigger settings).1 = .performed (.jumpOut c.next) := by
      rw [outcome_of_caret h.caret]
      exact Outcome.ofTrigger_eq_performed.mpr ⟨henable, hdecide⟩
    obtain ⟨q, htext, hselection, hbounds, rfl, -⟩ := takes_of_performed h.caret h.inBounds hjump rfl
    refine ⟨hjump, htext, htext ▸ h.wellNested, hselection, htext ▸ hbounds, ?_, htext ▸ hrest⟩
    rw [htext]
    exact Document.atContentStart_closed hfind

/-- With no pair left no trigger leaves one. -/
theorem PeelingAt.trigger_nil (h : b.PeelingAt p []) (target : Position) :
    (b.trigger settings).1 ≠ .performed (.jumpOut target) := by
  intro hjump
  rw [outcome_of_caret h.caret] at hjump
  obtain ⟨e, hfind, -⟩ := Outcome.closed_of_jumpOut hjump
  cases h.peels with
  | none hnone =>
    rw [h.wellNested.find?_eq_none h.inBounds hnone] at hfind
    cases hfind

/-- As many triggers as there are pairs, or fewer, leave that many of them. -/
theorem PeelingAt.afterTriggers {presses : List Settings} (h : b.PeelingAt p pairs)
    (hpresses : ∀ s ∈ presses, s.enable ∧ 50 ≤ s.searchLines) (hlength : presses.length ≤ pairs.length) :
    (b.afterTriggers presses).text = b.text ∧
      ∃ q, (b.afterTriggers presses).PeelingAt q (pairs.drop presses.length) := by
  induction presses generalizing b p pairs with
  | nil => exact ⟨rfl, p, h⟩
  | cons settings presses ih =>
    obtain ⟨⟨henable, hwindow⟩, hrest⟩ := List.forall_mem_cons.mp hpresses
    cases pairs with
    | nil => cases hlength
    | cons pair pairs =>
      obtain ⟨d, o, c⟩ := pair
      obtain ⟨-, htext, hnext⟩ := h.trigger_pair henable hwindow
      obtain ⟨htext', hq⟩ := ih hnext hrest (Nat.le_of_succ_le_succ hlength)
      exact ⟨htext'.trans htext, hq⟩

/-- In a properly nested text, triggers take a caret behind the margin out of the pairs around it one after the
other, from the inside out and each time right behind the closer; one trigger more leaves no pair. -/
theorem leaves_pairs_in_turn (htext : Text.WellNested b.text) (hcaret : b.selection = .caret p)
    (hin : Text.InBounds b.text p)
    (hmargin : ∃ c ∈ (Text.rowContent b.text p.row).take p.col, Text.isSpace c = false) :
    ∃ pairs : List (Delimiter × Position × Position),
      (pairs.Pairwise fun inner outer => outer.2.1 < inner.2.1 ∧ inner.2.2 < outer.2.2) ∧
      (∀ d o c, (d, o, c) ∈ pairs ↔ Mark.Around (Text.brackets b.text) p d o c) ∧
      ∀ (presses : List Settings) (settings : Settings),
        (∀ s ∈ settings :: presses, s.enable ∧ 50 ≤ s.searchLines) →
          (∀ d o c, pairs[presses.length]? = some (d, o, c) →
            ((b.afterTriggers presses).trigger settings).1 = .performed (.jumpOut c.next) ∧
            ((b.afterTriggers presses).trigger settings).2.selection = .caret c.next ∧
            ((b.afterTriggers presses).trigger settings).2.text = b.text) ∧
          (presses.length = pairs.length → ∀ target,
            ((b.afterTriggers presses).trigger settings).1 ≠ .performed (.jumpOut target)) := by
  have hsorted := Listing.sorted_marks htext.listing
  obtain ⟨pairs, hpeels⟩ := Mark.exists_peels htext.nested hsorted p
  have hstart : b.PeelingAt p pairs := by
    refine ⟨htext, hcaret, hin, ?_, hpeels⟩
    obtain ⟨c, hmem, hc⟩ := hmargin
    rw [Document.atContentStart, Document.line_ofText, Text.isBlank, List.all_eq_false]
    exact ⟨c, hmem, by simp [hc]⟩
  refine ⟨pairs, hpeels.pairwise htext.nested hsorted, fun d o c => hpeels.mem_iff htext.nested hsorted, ?_⟩
  intro presses settings hsettings
  obtain ⟨⟨henable, hwindow⟩, hpresses⟩ := List.forall_mem_cons.mp hsettings
  constructor
  · intro d o c hpair
    obtain ⟨hlt, hget⟩ := List.getElem?_eq_some_iff.mp hpair
    obtain ⟨hsame, q, hpeeling⟩ := hstart.afterTriggers hpresses hlt.le
    rw [List.drop_eq_getElem_cons hlt, hget] at hpeeling
    obtain ⟨hjump, hsame', hnext⟩ := hpeeling.trigger_pair henable hwindow
    exact ⟨hjump, hnext.caret, hsame'.trans hsame⟩
  · intro hlength target
    obtain ⟨-, q, hpeeling⟩ := hstart.afterTriggers hpresses hlength.le
    rw [hlength, List.drop_length] at hpeeling
    exact hpeeling.trigger_nil target

def twoPairs : Buffer where
  text := ['(', 'x', '[', 'y', ']', '\n', ')']
  selection := .caret ⟨0, 4⟩
  indent := {}

theorem leaves_pairs_in_turn_twoPairs :
    Text.WellNested twoPairs.text ∧ twoPairs.selection = .caret ⟨0, 4⟩ ∧ Text.InBounds twoPairs.text ⟨0, 4⟩ ∧
      (∃ c ∈ (Text.rowContent twoPairs.text 0).take 4, Text.isSpace c = false) ∧
      (twoPairs.trigger {}).1 = .performed (.jumpOut ⟨0, 5⟩) ∧
      ∃ pairs : List (Delimiter × Position × Position),
        (pairs.Pairwise fun inner outer => outer.2.1 < inner.2.1 ∧ inner.2.2 < outer.2.2) ∧
        (∀ d o c, (d, o, c) ∈ pairs ↔ Mark.Around (Text.brackets twoPairs.text) ⟨0, 4⟩ d o c) ∧
        ∀ (presses : List Settings) (settings : Settings),
          (∀ s ∈ settings :: presses, s.enable ∧ 50 ≤ s.searchLines) →
            (∀ d o c, pairs[presses.length]? = some (d, o, c) →
              ((twoPairs.afterTriggers presses).trigger settings).1 = .performed (.jumpOut c.next) ∧
              ((twoPairs.afterTriggers presses).trigger settings).2.selection = .caret c.next ∧
              ((twoPairs.afterTriggers presses).trigger settings).2.text = twoPairs.text) ∧
            (presses.length = pairs.length → ∀ target,
              ((twoPairs.afterTriggers presses).trigger settings).1 ≠ .performed (.jumpOut target)) := by
  have htext : Text.WellNested twoPairs.text := by
    refine ⟨by simp [twoPairs, Lexeme.reserved], ?_, ?_⟩
    · exact show Mark.Nested (⟨⟨0, 0⟩, .paren, true⟩ ::
        (⟨⟨0, 2⟩, .bracket, true⟩ :: ([] ++ ⟨⟨0, 4⟩, .bracket, false⟩ :: []) ++ ⟨⟨1, 0⟩, .paren, false⟩ :: [])) from
        .pair (.pair .nil .nil) .nil
    · rintro d o c ⟨before, inner, after, hms, -⟩
      have hrows : ∀ m ∈ Text.brackets twoPairs.text, m.place.row ≤ 1 := by decide
      have hrow : c.row ≤ 1 := hrows ⟨c, d, false⟩ (by simp [hms])
      omega
  have hin : Text.InBounds twoPairs.text ⟨0, 4⟩ := by decide
  have hmargin : ∃ c ∈ (Text.rowContent twoPairs.text 0).take 4, Text.isSpace c = false :=
    ⟨'(', by decide, by decide⟩
  have hcaret : twoPairs.selection = .caret ⟨0, 4⟩ := rfl
  have hjump : (twoPairs.trigger {}).1 = .performed (.jumpOut ⟨0, 5⟩) := by
    rw [outcome_of_caret hcaret, Outcome.ofTrigger_eq_performed, Document.situation_caret]
    decide
  exact ⟨htext, hcaret, hin, hmargin, hjump, leaves_pairs_in_turn htext hcaret hin hmargin⟩

end Buffer

end TabKey
