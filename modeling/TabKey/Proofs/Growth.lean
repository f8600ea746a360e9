import TabKey.Proofs.Decision
import TabKey.Proofs.Indentation
import TabKey.Proofs.Insertion
import TabKey.Proofs.Padding
import TabKey.Proofs.SharedRow

/-! Triggers put whole units into a text and do nothing else to it, however many there are. -/
namespace TabKey

namespace Text

private theorem forall₂_mapIdx_indentBy (unit : List Char) (depth : Nat → Nat) (rs : List Row) :
    List.Forall₂ (Row.Padded unit) rs (rs.mapIdx fun row => Row.indentBy unit (depth row)) := by
  induction rs generalizing depth with
  | nil => exact .nil
  | cons r rs ih =>
    rw [List.mapIdx_cons]
    exact .cons ⟨rfl, (Padded.refl _).pad_replicate _⟩ (ih fun row => depth (row + 1))

end Text

namespace Buffer
variable {b b' : Buffer} {depth : Nat → Nat} {row : Nat}

/-- What triggers may make of a buffer: whole units put in, every span in bounds. -/
structure Grown (b b' : Buffer) : Prop where
  indent : b'.indent = b.indent
  rows : Text.RowsPadded b.indent.unit b.text b'.text
  bounds : b'.selection.InBounds b'.text

theorem Grown.trans {b'' : Buffer} (h : Grown b b') (h' : Grown b' b'') : Grown b b'' := by
  obtain ⟨n, c, -, hunit⟩ := b.indent.unit_eq_replicate
  refine ⟨h'.indent.trans h.indent, h.rows.trans hunit ?_, h'.bounds⟩
  rw [← h.indent]
  exact h'.rows

/-- Rows that each gain some units leave room for places that move no further than their row's content. -/
private theorem inBounds_indented {old new unit : List Char}
    (hrows : Text.rows new = (Text.rows old).mapIdx fun row r => r.indentBy unit (depth row)) {p p' : Position}
    (hp : Text.InBounds old p) (hrow : p'.row = p.row) (hcol : p'.col ≤ p.col + depth p.row * unit.length) :
    Text.InBounds new p' := by
  obtain ⟨r, hr, hle⟩ := Text.inBounds_iff.mp hp
  rw [Text.inBounds_iff, Text.Within, hrows, hrow, List.getElem?_mapIdx, hr]
  refine ⟨_, rfl, hcol.trans ?_⟩
  rw [Text.Row.length_indentBy]
  omega

theorem indentLines_grown (h : b.selection.InBounds b.text) : Grown b b.indentLines := by
  refine ⟨indent_indentLines b, ?_, ?_⟩
  · rw [Text.RowsPadded, rows_indentLines]
    exact Text.forall₂_mapIdx_indentBy _ b.depth _
  · rw [selection_indentLines]
    apply h.map
    intro p hp
    exact inBounds_indented (rows_indentLines b) hp (pushed_row ..) (pushed_col_le _ _ p)

/-- Carets that share a row keep one unit of those they put in. -/
theorem indentThenOutdent_grown (hunit : b.indent.unit ≠ []) (hcarets : b.selection.CaretsOn row)
    (h : b.selection.InBounds b.text) :
    Grown b (b.runAll (Action.indentThenOutdent (b.selection.count - 1)).commands) := by
  have hrow : row < Text.rowCount b.text := by
    rw [← (hcarets _ b.selection.primary_mem_spans).2]
    exact (h _ b.selection.primary_mem_spans).2.1
  obtain ⟨hrows, hselection, hindent⟩ := indentThenOutdent_of_unit hcarets hrow hunit
  rw [Text.modify_indentBy] at hrows
  refine ⟨hindent, ?_, ?_⟩
  · rw [Text.RowsPadded, hrows]
    exact Text.forall₂_mapIdx_indentBy _ (fun i => if i = row then 1 else 0) _
  · rw [hselection]
    intro s hs
    obtain ⟨t, ht, rfl⟩ := Selection.mem_spans_map.mp hs
    obtain ⟨hcaret, hhead⟩ := hcarets t ht
    have hin : Text.InBounds (b.runAll (Action.indentThenOutdent (b.selection.count - 1)).commands).text
        (settled b.indent.unit.length b.selection.count t.head) := by
      refine inBounds_indented hrows (h t ht).2 (by rw [settled]) ?_
      rw [if_pos hhead, Nat.one_mul]
      exact settled_col_le ..
    rw [hcaret]
    exact ⟨hin, hin⟩

/-- The points at which a tab puts units in when nothing is selected. -/
theorem insertable_cuts (h : b.selection.selectsText = false) : Text.Insertable 0 b.cuts b.text := by
  obtain ⟨sorted, hperm, hsorted, hcuts⟩ := b.exists_sorted_cuts
  have hpoint : ∀ c ∈ sorted, ∃ p, c = (Text.offsetOf b.text p, Text.offsetOf b.text p) := by
    intro c hc
    obtain ⟨s, hs, rfl⟩ := List.mem_map.mp (hperm.mem_iff.mp hc)
    refine ⟨s.head, ?_⟩
    rw [Selection.caret_of_not_selectsText h hs, offsets, Span.first_caret, Span.last_caret]
    rfl
  have hpoints : ∀ c ∈ sorted, c.1 = c.2 := by
    intro c hc
    obtain ⟨p, rfl⟩ := hpoint c hc
    rfl
  rw [hcuts, Stretch.trimCuts_eq_self hpoints hsorted fun c _ => Nat.zero_le c.1]
  refine ⟨hpoints, hsorted.imp ?_, fun c _ => Nat.zero_le c.1, ?_⟩
  · intro c d hcd
    simp only [Stretch.CutLE] at hcd
    omega
  · intro c hc
    obtain ⟨p, rfl⟩ := hpoint c hc
    exact Text.seamAt_offsetOf b.text p

theorem insertTab_grown (hunit : b.indent.unit ≠ []) (h : b.selection.selectsText = false) :
    Grown b b.insertTab := by
  have hcuts := insertable_cuts h
  refine ⟨rfl, hcuts.rowsPadded b.indent.unbroken_unit hunit, ?_⟩
  intro s hs
  obtain ⟨i, hi, rfl⟩ := List.mem_map.mp ((spans_insertTab b).mem_iff.mp hs)
  have hseam := hcuts.seamAt_of_mem_splicedEnds b.indent.unbroken_unit hunit [] hi
  exact ⟨Text.inBounds_positionAt hseam, Text.inBounds_positionAt hseam⟩

theorem inBounds_successor {text : List Char} (p : Position) : Text.InBounds text (successor text p) := by
  have hclamp := Text.inBounds_clamp text p
  rw [successor]
  split
  · next hlt => exact ⟨hclamp.1, hlt⟩
  · split
    · next hlt => exact ⟨hlt, Nat.zero_le _⟩
    · exact hclamp

theorem moveCursorRight_grown (h : b.selection.InBounds b.text) : Grown b b.moveCursorRight := by
  refine ⟨rfl, .refl _ _, ?_⟩
  intro s hs
  obtain ⟨t, ht, rfl⟩ := Selection.mem_spans_map.mp hs
  have hmoved : Text.InBounds b.text (if t.isCaret then successor b.text t.head else t.last) := by
    split
    · exact inBounds_successor _
    · rcases t.last_eq with hlast | hlast
      · exact hlast ▸ (h t ht).1
      · exact hlast ▸ (h t ht).2
  exact ⟨hmoved, hmoved⟩

theorem setCursor_grown (target : Position) (reveal : Reveal) : Grown b (b.setCursor target reveal) := by
  refine ⟨rfl, .refl _ _, ?_⟩
  intro s hs
  obtain rfl := List.mem_singleton.mp hs
  exact ⟨Text.inBounds_clamp _ _, Text.inBounds_clamp _ _⟩

/-- One trigger that is not switched off puts in whole units and keeps the spans in bounds. -/
theorem trigger_grown {settings : Settings} (henable : settings.enable) (hunit : b.indent.unit ≠ [])
    (h : b.selection.InBounds b.text) : Grown b (b.trigger settings).2 := by
  rw [trigger_of_performed (Outcome.ofTrigger_eq_performed.mpr ⟨henable, rfl⟩)]
  change Grown b (b.runAll ((b.view.document.situation b.selection settings).decide settings).commands)
  cases haction : (b.view.document.situation b.selection settings).decide settings with
  | indentBlock => exact indentLines_grown h
  | indentThenOutdent n =>
    have htext : b.selection.selectsText = false := Situation.selectsText_of_decide_ne (by
      rw [haction]
      nofun)
    obtain ⟨hrows, rfl⟩ := Situation.eq_of_decide_eq_indentThenOutdent haction
    exact indentThenOutdent_grown hunit (Selection.caretsOn_of_rowCount_eq_one htext hrows) h
  | insertTab =>
    have htext : b.selection.selectsText = false := Situation.selectsText_of_decide_ne (by
      rw [haction]
      nofun)
    exact insertTab_grown hunit htext
  | moveCaretRight => exact moveCursorRight_grown h
  | jumpInto target => exact setCursor_grown target _
  | jumpOut target => exact setCursor_grown target _
  | moveCaretTo target => exact setCursor_grown target _

def afterTriggers (b : Buffer) (presses : List Settings) : Buffer :=
  presses.foldl (fun b settings => (b.trigger settings).2) b

/-- However often the key is pressed, and whatever the settings of each press, the rows keep their number
and their endings, their contents gain whole units and lose nothing, and every span stays in bounds. -/
theorem afterTriggers_padded (presses : List Settings)
    (hunit : b.indent.insertSpaces = false ∨ 1 ≤ b.indent.tabWidth)
    (hbounds : b.selection.InBounds b.text) (henable : ∀ settings ∈ presses, settings.enable) :
    Text.RowsPadded b.indent.unit b.text (b.afterTriggers presses).text ∧
      (b.afterTriggers presses).selection.InBounds (b.afterTriggers presses).text := by
  have hne : b.indent.unit ≠ [] := by
    intro hempty
    obtain ⟨hspaces, hwidth⟩ := Indent.unit_eq_nil_iff.mp hempty
    rcases hunit with htab | hpos
    · exact Bool.false_ne_true (htab.symm.trans hspaces)
    · omega
  have hgrown : Grown b (b.afterTriggers presses) := by
    clear hunit
    induction presses generalizing b with
    | nil => exact ⟨rfl, .refl _ _, hbounds⟩
    | cons settings rest ih =>
      have hstep := trigger_grown (henable settings List.mem_cons_self) hne hbounds
      have hrest := ih hstep.bounds (fun s hs => henable s (List.mem_cons_of_mem _ hs))
        (hstep.indent ▸ hne)
      exact hstep.trans hrest
  exact ⟨hgrown.rows, hgrown.bounds⟩

def twoRows : Buffer where
  text := ['a', '\n', 'b']
  selection := ⟨.caret ⟨0, 1⟩, [.caret ⟨1, 0⟩]⟩
  indent := { tabWidth := 2 }

/-- Two presses on `twoRows`, with settings that differ. -/
theorem afterTriggers_twoRows :
    let presses : List Settings := [{}, { eagerJumpOut := true }]
    twoRows.selection.InBounds twoRows.text ∧ (∀ settings ∈ presses, settings.enable) ∧
      Text.RowsPadded twoRows.indent.unit twoRows.text (twoRows.afterTriggers presses).text ∧
      (twoRows.afterTriggers presses).selection.InBounds (twoRows.afterTriggers presses).text := by
  have hbounds : twoRows.selection.InBounds twoRows.text := by decide
  have henable : ∀ settings ∈ ([{}, { eagerJumpOut := true }] : List Settings), settings.enable := by decide
  exact ⟨hbounds, henable, afterTriggers_padded _ (.inr (by decide)) hbounds henable⟩

end Buffer

end TabKey
