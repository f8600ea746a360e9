import TabKey.Proofs.Caret
import TabKey.Proofs.Enclosure.Sound
import TabKey.Proofs.Growth

namespace TabKey

namespace Text
variable {text : List Char} {p q : Position}

def lastPosition (text : List Char) : Position :=
  ⟨rowCount text - 1, (rowContent text (rowCount text - 1)).length⟩

theorem inBounds_lastPosition (text : List Char) : InBounds text (lastPosition text) :=
  ⟨Nat.sub_lt (rowCount_pos text) Nat.one_pos, Nat.le_refl _⟩

theorem le_lastPosition (h : InBounds text p) : p ≤ lastPosition text := by
  obtain ⟨hrow, hcol⟩ := h
  rcases Nat.lt_or_ge p.row (rowCount text - 1) with hlt | hge
  · exact .inl hlt
  · have hlast : p.row = rowCount text - 1 := Nat.le_antisymm (Nat.le_sub_one_of_lt hrow) hge
    rw [hlast] at hcol
    exact .inr ⟨hlast, hcol⟩

theorem eq_lastPosition_of_offsetOf (h : InBounds text p) (hoffset : text.length ≤ offsetOf text p) :
    p = lastPosition text := by
  rcases Position.lt_or_eq_of_le (le_lastPosition h) with hlt | heq
  · have hlt' := offsetOf_lt_offsetOf h (inBounds_lastPosition text) hlt
    have hle := offsetOf_le_length text (lastPosition text)
    omega
  · exact heq

structure Next (text : List Char) (p q : Position) : Prop where
  lt : p < q
  inBounds : InBounds text q
  least : ∀ r, InBounds text r → p < r → q ≤ r

/-- `q` lies after `p`, unless both are the end of the text. -/
def Onward (text : List Char) (p q : Position) : Prop :=
  p < q ∨ (p = lastPosition text ∧ q = lastPosition text)

/-- The place in a run of positions that go on counts the characters passed, short of the end of the text. -/
private theorem offsetOf_of_onward {carets : List Position} (hp : InBounds text p)
    (hcarets : ∀ c ∈ carets, InBounds text c) (h : (p :: carets).IsChain (Onward text)) {i : Nat}
    (hq : (p :: carets)[i]? = some q) (hne : q ≠ lastPosition text) :
    p ≠ lastPosition text ∧ offsetOf text p + i ≤ offsetOf text q := by
  induction i generalizing p carets with
  | zero =>
    obtain rfl := Option.some.inj hq
    exact ⟨hne, Nat.le_refl _⟩
  | succ i ih =>
    cases carets with
    | nil => cases hq
    | cons c carets =>
      obtain ⟨honward, hrest⟩ := List.isChain_cons_cons.mp h
      have hc := hcarets c List.mem_cons_self
      obtain ⟨hnext, hle⟩ := ih hc (fun c hc => hcarets c (List.mem_cons_of_mem _ hc)) hrest hq
      rcases honward with hlt | ⟨-, hlast⟩
      · have hstep := offsetOf_lt_offsetOf hp hc hlt
        refine ⟨?_, by omega⟩
        rintro rfl
        exact Position.not_lt_of_le (le_lastPosition hc) hlt
      · exact absurd hlast hnext

/-- No such run is longer than the text before it reaches the end. -/
theorem eq_lastPosition_of_onward {carets : List Position} (hp : InBounds text p)
    (hcarets : ∀ c ∈ carets, InBounds text c) (h : (p :: carets).IsChain (Onward text)) {i : Nat}
    (hq : (p :: carets)[i]? = some q) (hi : text.length ≤ i) : q = lastPosition text := by
  by_contra hne
  obtain ⟨-, hle⟩ := offsetOf_of_onward hp hcarets h hq hne
  have hbounds : InBounds text q := by
    rcases List.mem_cons.mp (List.mem_of_getElem? hq) with rfl | hmem
    · exact hp
    · exact hcarets q hmem
  exact hne (eq_lastPosition_of_offsetOf hbounds (by omega))

end Text

namespace Action

def movesCaret : Action → Bool
  | jumpOut _ | jumpInto _ | moveCaretRight => true
  | _ => false

def Takes (text : List Char) (p q : Position) : Action → Prop
  | jumpOut target | jumpInto target => q = target ∧ p < q
  | moveCaretRight => Text.Next text p q ∨ (p = Text.lastPosition text ∧ q = p)
  | _ => False

theorem Takes.onward {text : List Char} {p q : Position} {action : Action} (h : action.Takes text p q) :
    Text.Onward text p q := by
  cases action with
  | jumpOut target => exact .inl h.2
  | jumpInto target => exact .inl h.2
  | moveCaretRight =>
    rcases h with hnext | ⟨hlast, rfl⟩
    · exact .inl hnext.lt
    · exact .inr ⟨hlast, hlast⟩
  | _ => exact h.elim

end Action

namespace Document
variable {text : List Char} {p : Position}

theorem line_ofText (text : List Char) (row : Nat) : (ofText text).line row = Text.rowContent text row := by
  simp [ofText, line, Text.rowContent]

theorem lineCount_ofText (text : List Char) : (ofText text).lineCount = Text.rowCount text := by
  simp [ofText, lineCount, Text.rowCount]

theorem onLine_of_inBounds (h : Text.InBounds text p) : (ofText text).onLine p = p := by
  rw [onLine, line_ofText, Nat.min_eq_left h.2]

/-- A token that stands on a row of a text ends at a position of the text. -/
theorem inBounds_of_stands {row start : Nat} {token : List Char}
    (h : Token.Stands ((ofText text).line row) start token) (hne : token ≠ []) :
    Text.InBounds text ⟨row, start + token.length⟩ := by
  constructor
  · rw [← lineCount_ofText]
    exact Enclosure.row_lt_of_stands h hne
  · rw [← line_ofText]
    exact h.length_le hne

/-- From a position of the text the end of the pair around it lies ahead. -/
theorem lt_closed {window : Nat} {e : Enclosure} (hin : Text.InBounds text p)
    (h : Enclosure.find? (ofText text) window p = some e) :
    Text.InBounds text e.closed ∧ p < e.closed := by
  obtain ⟨d, -, hclosed, -⟩ := Enclosure.find?_eq_some h
  obtain ⟨⟨start, hcol, hstands, hafter⟩, -⟩ := Enclosure.closer?_eq_some hclosed
  have hend : e.closed = ⟨e.closed.row, start + d.closer.length⟩ := by rw [← hcol]
  have hpos := List.length_pos_iff.mpr d.closer_ne_nil
  rw [onLine_of_inBounds hin] at hafter
  rw [hend]
  refine ⟨inBounds_of_stands hstands d.closer_ne_nil, ?_⟩
  rcases hafter with hlt | ⟨hrow, hle⟩
  · exact .inl hlt
  · exact .inr ⟨hrow, by simp only at hle ⊢; omega⟩

/-- So does the inside of the pair ahead. -/
theorem lt_inner {ahead : PairAhead} (hin : Text.InBounds text p)
    (h : PairAhead.find? ((ofText text).line p.row) p.col = some ahead) :
    Text.InBounds text ⟨p.row, ahead.inner⟩ ∧ p < ⟨p.row, ahead.inner⟩ := by
  obtain ⟨hopener, -⟩ := PairAhead.find?_eq_some h
  obtain ⟨hle, hstands⟩ := Token.find?_eq_some hopener
  have hpos := List.length_pos_iff.mpr ahead.delimiter.opener_ne_nil
  rw [line_ofText, Nat.min_eq_left hin.2] at hle
  refine ⟨inBounds_of_stands hstands ahead.delimiter.opener_ne_nil, .inr ⟨rfl, ?_⟩⟩
  show p.col < ahead.column + ahead.delimiter.opener.length
  omega

end Document

namespace Buffer
variable {b : Buffer} {p : Position}

/-- The successor of a position is the next one, and the end of the text has none. -/
theorem successor_of_inBounds {text : List Char} (h : Text.InBounds text p) :
    Text.Next text p (successor text p) ∨ (p = Text.lastPosition text ∧ successor text p = p) := by
  rw [successor, Text.clamp_of_inBounds h]
  by_cases hcol : p.col < (Text.rowContent text p.row).length
  · rw [if_pos hcol]
    refine .inl ⟨.inr ⟨rfl, Nat.lt_succ_self _⟩, ⟨h.1, hcol⟩, ?_⟩
    intro r hr hlt
    rcases hlt with hrow | ⟨hrow, hlt⟩
    · exact .inl hrow
    · exact .inr ⟨hrow, hlt⟩
  · have hend : p.col = (Text.rowContent text p.row).length := Nat.le_antisymm h.2 (Nat.le_of_not_lt hcol)
    rw [if_neg hcol]
    by_cases hrow : p.row + 1 < Text.rowCount text
    · rw [if_pos hrow]
      refine .inl ⟨.inl (Nat.lt_succ_self _), ⟨hrow, Nat.zero_le _⟩, ?_⟩
      intro r hr hlt
      rcases hlt with hbelow | ⟨hsame, hpast⟩
      · rcases Nat.lt_or_eq_of_le hbelow with hlt | heq
        · exact .inl hlt
        · exact .inr ⟨heq, Nat.zero_le _⟩
      · have hle := hr.2
        rw [← hsame] at hle
        omega
    · rw [if_neg hrow]
      have hlast : p.row = Text.rowCount text - 1 := by
        have := h.1
        omega
      refine .inr ⟨?_, rfl⟩
      rw [Text.lastPosition, ← hlast, ← hend]

theorem setCursor_of_inBounds {target : Position} (h : Text.InBounds b.text target) (reveal : Reveal) :
    b.setCursor target reveal = { b with selection := .caret target, reveal := some reveal } := by
  rw [setCursor, Text.clamp_of_inBounds h]

/-- One trigger. Whatever the text and the settings, each of the three actions takes the caret to a place of its
own in the text and changes nothing else that a trigger looks at. -/
theorem takes_of_performed {settings : Settings} {action : Action} (hcaret : b.selection = .caret p)
    (hin : Text.InBounds b.text p) (h : (b.trigger settings).1 = .performed action)
    (hmove : action.movesCaret) :
    ∃ q, (b.trigger settings).2.text = b.text ∧ (b.trigger settings).2.selection = .caret q ∧
      Text.InBounds b.text q ∧ action.Takes b.text p q := by
  have houtcome := (outcome_of_caret hcaret settings).symm.trans h
  rw [trigger_of_performed h]
  cases action with
  | jumpOut target =>
    obtain ⟨e, he, rfl⟩ := Outcome.closed_of_jumpOut houtcome
    obtain ⟨hbounds, hlt⟩ := Document.lt_closed hin he
    refine ⟨e.closed, rfl, ?_, hbounds, rfl, hlt⟩
    exact congrArg selection (setCursor_of_inBounds hbounds _)
  | jumpInto target =>
    obtain ⟨ahead, hahead, rfl⟩ := Outcome.inner_of_jumpInto houtcome
    obtain ⟨hbounds, hlt⟩ := Document.lt_inner hin hahead
    refine ⟨_, rfl, ?_, hbounds, rfl, hlt⟩
    exact congrArg selection (setCursor_of_inBounds hbounds _)
  | moveCaretRight =>
    refine ⟨successor b.text p, rfl, ?_, inBounds_successor p, successor_of_inBounds hin⟩
    show b.moveCursorRight.selection = _
    rw [moveCursorRight, hcaret]
    simp [Selection.map, Selection.caret, Span.isCaret, Span.caret]
  | _ => cases hmove

def Moves (b b' : Buffer) : Prop :=
  ∃ settings action, (b.trigger settings).1 = .performed action ∧ action.movesCaret ∧
    (b.trigger settings).2 = b'

/-- A run of such triggers goes on and on through one text. -/
theorem exists_carets_of_moves {bs : List Buffer} (hcaret : b.selection = .caret p)
    (hin : Text.InBounds b.text p) (hrun : (b :: bs).IsChain Moves) :
    ∃ carets, bs.map selection = carets.map .caret ∧ (∀ b' ∈ bs, b'.text = b.text) ∧
      (∀ q ∈ carets, Text.InBounds b.text q) ∧ (p :: carets).IsChain (Text.Onward b.text) := by
  induction bs generalizing b p with
  | nil => exact ⟨[], rfl, nofun, nofun, .singleton p⟩
  | cons b' bs ih =>
    obtain ⟨⟨settings, action, hperformed, hmove, rfl⟩, hrest⟩ := List.isChain_cons_cons.mp hrun
    obtain ⟨q, htext, hselection, hbounds, htakes⟩ := takes_of_performed hcaret hin hperformed hmove
    obtain ⟨carets, hcarets, htexts, hall, hchain⟩ := ih hselection (htext ▸ hbounds) hrest
    rw [htext] at htexts hall hchain
    refine ⟨q :: carets, ?_, ?_, ?_, .cons_cons htakes.onward hchain⟩
    · rw [List.map_cons, hselection, hcarets, List.map_cons]
    · exact List.forall_mem_cons.mpr ⟨htext, htexts⟩
    · exact List.forall_mem_cons.mpr ⟨hbounds, hall⟩

/-- A trigger that jumps takes a single caret to its target, which lies ahead, and one that moves the caret on
takes it to the next position. So the carets of a run of such triggers strictly increase until the end of the
text, and are there after at most as many triggers as the text has characters. -/
theorem onward_of_moves (hcaret : b.selection = .caret p) (hin : Text.InBounds b.text p) :
    (∀ settings action, (b.trigger settings).1 = .performed action → action.movesCaret →
      ∃ q, (b.trigger settings).2.text = b.text ∧ (b.trigger settings).2.selection = .caret q ∧
        Text.InBounds b.text q ∧ action.Takes b.text p q) ∧
    ∀ bs : List Buffer, (b :: bs).IsChain Moves →
      ∃ carets, bs.map selection = carets.map .caret ∧ (∀ b' ∈ bs, b'.text = b.text) ∧
        (∀ q ∈ carets, Text.InBounds b.text q) ∧ (p :: carets).IsChain (Text.Onward b.text) ∧
        ∀ i q, (p :: carets)[i]? = some q → b.text.length ≤ i → q = Text.lastPosition b.text := by
  constructor
  · intro settings action h hmove
    exact takes_of_performed hcaret hin h hmove
  · intro bs hrun
    obtain ⟨carets, hselections, htexts, hall, hchain⟩ := exists_carets_of_moves hcaret hin hrun
    refine ⟨carets, hselections, htexts, hall, hchain, ?_⟩
    intro i q hq hi
    exact Text.eq_lastPosition_of_onward hin hall hchain hq hi

def onePair : Buffer where
  text := ['(', ')']
  selection := .caret ⟨0, 1⟩
  indent := {}

/-- Out of the only pair, and then no further. -/
theorem onward_of_moves_onePair :
    let out : Buffer := { onePair with selection := .caret ⟨0, 2⟩, reveal := some .centerIfOutside }
    onePair.selection = .caret ⟨0, 1⟩ ∧ Text.InBounds onePair.text ⟨0, 1⟩ ∧
      (onePair.trigger {}).1 = .performed (.jumpOut ⟨0, 2⟩) ∧ (out.trigger {}).1 = .performed .moveCaretRight ∧
      [onePair, out, out].IsChain Moves ∧
      ∃ carets, [out, out].map selection = carets.map .caret ∧ (∀ b' ∈ [out, out], b'.text = onePair.text) ∧
        (∀ q ∈ carets, Text.InBounds onePair.text q) ∧
        (⟨0, 1⟩ :: carets).IsChain (Text.Onward onePair.text) ∧
        ∀ i q, ((⟨0, 1⟩ :: carets : List Position))[i]? = some q → onePair.text.length ≤ i →
          q = Text.lastPosition onePair.text := by
  intro out
  have hcaret : onePair.selection = .caret ⟨0, 1⟩ := rfl
  have hin : Text.InBounds onePair.text ⟨0, 1⟩ := by decide
  have hout : (onePair.trigger {}).1 = .performed (.jumpOut ⟨0, 2⟩) := by
    rw [outcome_of_caret hcaret, Outcome.ofTrigger_eq_performed, Document.situation_caret]
    decide
  have hstay : (out.trigger {}).1 = .performed .moveCaretRight := by
    rw [outcome_of_caret (p := ⟨0, 2⟩) rfl, Outcome.ofTrigger_eq_performed, Document.situation_caret]
    decide
  have hrun : [onePair, out, out].IsChain Moves :=
    .cons_cons ⟨{}, _, hout, rfl, trigger_of_performed hout⟩
      (.cons_cons ⟨{}, _, hstay, rfl, trigger_of_performed hstay⟩ (.singleton out))
  exact ⟨hcaret, hin, hout, hstay, hrun, (onward_of_moves hcaret hin).2 [out, out] hrun⟩

end Buffer

end TabKey
