import TabKey.Proofs.Decision
import TabKey.Proofs.Indentation

namespace TabKey

namespace Buffer
variable {b : Buffer} {row : Nat} {settings : Settings}

/-- Several carets on one row of the text, not all of them at its end. -/
structure SharesRow (b : Buffer) (row : Nat) : Prop where
  several : 2 ≤ b.selection.count
  carets : b.selection.CaretsOn row
  inText : row < Text.rowCount b.text
  spread : (Document.ofText b.text).atLineEnd b.selection = false

/-- Such carets have their row indented once for each of them, and one unit left. -/
theorem SharesRow.outcome (h : b.SharesRow row) (henable : settings.enable) :
    (b.trigger settings).1 = .performed (.indentThenOutdent (b.selection.count - 1)) := by
  apply Outcome.ofTrigger_eq_performed.mpr
  refine ⟨henable, ?_⟩
  have hseveral := h.several
  have hshared : (decide (1 < b.selection.count) && !(Document.ofText b.text).atLineEnd b.selection) = true := by
    rw [h.spread, Bool.and_eq_true, decide_eq_true_eq]
    exact ⟨by omega, rfl⟩
  simp only [Situation.decide, Situation.ruling, Situation.onSharedLine?, Document.situation, view,
    h.carets.selectsText_eq_false, h.carets.rowCount_eq_one, hshared, Bool.false_eq_true, if_false, if_true,
    Option.getD_some]

/-- Outdenting the lines over and over takes as many units from the row of the carets, which move along. -/
theorem runAll_outdentLines {times : Nat} {rest : List Char} {ending : Option Text.LineBreak}
    (hcarets : b.selection.CaretsOn row) (hunit : b.indent.unit ≠ []) (hrest : rest ≠ [])
    (hrow : (Text.rows b.text)[row]? = some ⟨(List.replicate times b.indent.unit).flatten ++ rest, ending⟩) :
    Text.rows (b.runAll (List.replicate times .outdentLines)).text = (Text.rows b.text).set row ⟨rest, ending⟩ ∧
      (b.runAll (List.replicate times .outdentLines)).selection =
        b.selection.map (·.map (shiftLeft row (times * b.indent.unit.length))) ∧
      (b.runAll (List.replicate times .outdentLines)).indent = b.indent := by
  induction times generalizing b with
  | zero =>
    obtain ⟨hlt, hget⟩ := List.getElem?_eq_some_iff.mp hrow
    refine ⟨?_, ?_, rfl⟩
    · rw [show (⟨rest, ending⟩ : Text.Row) = (Text.rows b.text)[row] from hget.symm, List.set_getElem_self]
      rfl
    · rw [Nat.zero_mul, shiftLeft_zero, Selection.map_id]
      rfl
  | succ times ih =>
    rw [List.replicate_succ, List.flatten_cons, List.append_assoc] at hrow
    have hlt : row < Text.rowCount b.text := (List.getElem?_eq_some_iff.mp hrow).1
    obtain ⟨hrows, hselection, hindent⟩ :=
      outdentRow_of_unit hrow hunit (List.append_ne_nil_of_right_ne_nil _ hrest)
    rw [← outdentLines_of_caretsOn hcarets hlt] at hrows hselection hindent
    have hcarets' : b.outdentLines.selection.CaretsOn row := by
      rw [hselection]
      exact hcarets.map fun _ => row_shiftLeft ..
    have hrow' : (Text.rows b.outdentLines.text)[row]? =
        some ⟨(List.replicate times b.outdentLines.indent.unit).flatten ++ rest, ending⟩ := by
      rw [hrows, hindent, List.getElem?_set_self hlt]
    obtain ⟨hrows', hselection', hindent'⟩ := ih hcarets' (hindent ▸ hunit) hrow'
    rw [List.replicate_succ, show b.runAll (.outdentLines :: List.replicate times .outdentLines) =
      b.outdentLines.runAll (List.replicate times .outdentLines) from rfl]
    refine ⟨?_, ?_, hindent'.trans hindent⟩
    · rw [hrows', hrows, List.set_set]
    · rw [hselection', hselection, hindent, Selection.map_map, shiftLeft_comp, Nat.succ_mul, Nat.add_comm]

/-- Where a caret comes to stand that goes right by so many units and then left by all of them but one. -/
def settled (width times : Nat) (p : Position) : Position :=
  ⟨p.row, if p.col + times * width ≤ maxColumn then p.col + width else maxColumn - (times - 1) * width⟩

theorem settled_col_le (width times : Nat) (p : Position) : (settled width times p).col ≤ p.col + width := by
  have hunits : times * width ≤ (times - 1) * width + width := by
    rw [← Nat.succ_mul]
    exact Nat.mul_le_mul_right width (by omega)
  simp only [settled]
  split <;> omega

theorem outdentWidth_eq_zero {tabWidth : Nat} {line : List Char}
    (h : ∀ c, line.head? = some c → c ≠ '\t' ∧ c ≠ ' ') : outdentWidth tabWidth line = 0 := by
  cases line with
  | nil => simp [outdentWidth]
  | cons c line =>
    obtain ⟨htab, hspace⟩ := h c rfl
    obtain ⟨n, hn⟩ : ∃ n, max tabWidth 1 = n + 1 := Nat.exists_eq_add_one_of_ne_zero (by omega)
    simp [outdentWidth, htab, hspace, hn]

/-- Right by all units and back by all but one. -/
theorem selection_settled (hcarets : b.selection.CaretsOn row) (hrow : row < Text.rowCount b.text) :
    b.indentLines.selection.map
        (·.map (shiftLeft row ((b.selection.count - 1) * b.indent.unit.length))) =
      b.selection.map (·.map (settled b.indent.unit.length b.selection.count)) := by
  obtain ⟨times, htimes⟩ : ∃ times, b.selection.count = times + 1 := ⟨_, List.length_cons⟩
  have hdepth : b.depth row = times + 1 := by
    rw [depth_of_caretsOn hcarets hrow]
    exact (if_pos rfl).trans htimes
  have hsettle : ∀ p : Position, p.row = row →
      shiftLeft row (times * b.indent.unit.length) (pushed b.indent.unit.length (b.depth p.row) p) =
        settled b.indent.unit.length (times + 1) p := by
    intro p hp
    have hmul : (times + 1) * b.indent.unit.length = times * b.indent.unit.length + b.indent.unit.length :=
      Nat.succ_mul _ _
    simp only [shiftLeft, pushed, settled, hp, hdepth, if_true, hmul, Nat.succ_ne_zero, if_false,
      Nat.add_sub_cancel, Position.mk.injEq, true_and]
    split <;> omega
  rw [selection_indentLines, Selection.map_map, htimes, Nat.add_sub_cancel]
  apply Selection.map_congr
  intro s hs
  obtain ⟨hcaret, hhead⟩ := hcarets s hs
  rw [hcaret]
  exact ⟨hsettle _ hhead, hsettle _ hhead⟩

/-- What carets add to the row they share and take back from it leaves one unit. -/
theorem indentThenOutdent_of_unit (hcarets : b.selection.CaretsOn row) (hrow : row < Text.rowCount b.text)
    (hunit : b.indent.unit ≠ []) :
    Text.rows (b.runAll (Action.indentThenOutdent (b.selection.count - 1)).commands).text =
        (Text.rows b.text).modify row (Text.Row.indentBy b.indent.unit 1) ∧
      (b.runAll (Action.indentThenOutdent (b.selection.count - 1)).commands).selection =
        b.selection.map (·.map (settled b.indent.unit.length b.selection.count)) ∧
      (b.runAll (Action.indentThenOutdent (b.selection.count - 1)).commands).indent = b.indent := by
  have hdepth := depth_of_caretsOn hcarets hrow
  obtain ⟨r, hget⟩ : ∃ r, (Text.rows b.text)[row]? = some r := ⟨_, List.getElem?_eq_getElem hrow⟩
  obtain ⟨times, htimes⟩ : ∃ times, b.selection.count = times + 1 := ⟨_, List.length_cons⟩
  have hsettled := selection_settled hcarets hrow
  have hindented : b.indentLines.selection.CaretsOn row := by
    rw [selection_indentLines]
    exact hcarets.map fun _ => pushed_row ..
  have hunits : (Text.rows b.indentLines.text)[row]? =
      some ⟨(List.replicate times b.indentLines.indent.unit).flatten ++
        (b.indent.unit ++ r.content), r.ending⟩ := by
    have htimes' : b.depth row = times + 1 := by
      rw [hdepth]
      exact (if_pos rfl).trans htimes
    rw [rows_indentLines, List.getElem?_mapIdx, hget, indent_indentLines, Option.map_some, htimes',
      Text.Row.indentBy, List.replicate_succ', List.flatten_append, List.flatten_singleton, List.append_assoc]
  obtain ⟨hrows, hselection, hindent⟩ := runAll_outdentLines hindented (indent_indentLines b ▸ hunit)
    (List.append_ne_nil_of_left_ne_nil hunit _) hunits
  rw [htimes, Nat.add_sub_cancel] at hsettled ⊢
  rw [show b.runAll (Action.indentThenOutdent times).commands =
    b.indentLines.runAll (List.replicate times .outdentLines) from rfl]
  refine ⟨?_, ?_, hindent.trans (indent_indentLines b)⟩
  · rw [hrows, rows_indentLines, hdepth]
    apply List.ext_getElem?
    intro i
    rw [List.getElem?_set, List.length_mapIdx, List.getElem?_modify, List.getElem?_mapIdx]
    by_cases hi : row = i
    · subst hi
      rw [if_pos rfl, if_pos (show row < (Text.rows b.text).length from hrow), hget]
      simp [Text.Row.indentBy]
    · simp [hi, Ne.symm hi]
  · rw [hselection, indent_indentLines, hsettled]

/-- A unit without characters adds nothing, and from a row that starts with none to spare nothing is taken. -/
theorem indentThenOutdent_of_no_unit (hcarets : b.selection.CaretsOn row) (hrow : row < Text.rowCount b.text)
    (hunit : b.indent.unit = [])
    (hhead : ∀ c, (Text.rowContent b.text row).head? = some c → c ≠ '\t' ∧ c ≠ ' ') :
    Text.rows (b.runAll (Action.indentThenOutdent (b.selection.count - 1)).commands).text =
        (Text.rows b.text).modify row (Text.Row.indentBy b.indent.unit 1) ∧
      (b.runAll (Action.indentThenOutdent (b.selection.count - 1)).commands).selection =
        b.selection.map (·.map (settled b.indent.unit.length b.selection.count)) := by
  have hrows : Text.rows b.indentLines.text = Text.rows b.text := by
    rw [rows_indentLines, hunit, List.mapIdx_eq_iff]
    simp
  have hindented : b.indentLines.selection.CaretsOn row := by
    rw [selection_indentLines]
    exact hcarets.map fun _ => pushed_row ..
  have hstays : b.indentLines.outdentLines = b.indentLines := by
    have hlt : row < Text.rowCount b.indentLines.text := by
      rw [Text.rowCount, hrows]
      exact hrow
    have hwidth : outdentWidth b.indentLines.indent.tabWidth (Text.rowContent b.indentLines.text row) = 0 := by
      apply outdentWidth_eq_zero
      rw [Text.rowContent, hrows]
      exact hhead
    rw [outdentLines_of_caretsOn hindented hlt, outdentRow, hwidth]
    exact if_neg fun hpos => Nat.lt_irrefl 0 hpos.2
  have hall : ∀ times, b.indentLines.runAll (List.replicate times .outdentLines) = b.indentLines := by
    intro times
    induction times with
    | zero => rfl
    | succ times ih =>
      rw [List.replicate_succ]
      exact (congrArg (runAll · (List.replicate times .outdentLines)) hstays).trans ih
  rw [show b.runAll (Action.indentThenOutdent (b.selection.count - 1)).commands =
    b.indentLines.runAll (List.replicate (b.selection.count - 1) .outdentLines) from rfl, hall]
  constructor
  · rw [hrows, hunit, show Text.Row.indentBy [] 1 = id from funext fun r => r.indentBy_nil 1, List.modify_id]
  · rw [← selection_settled hcarets hrow, hunit, List.length_nil, Nat.mul_zero, shiftLeft_zero, Selection.map_id]

/-- Carets that share a row, not all of them at its end, indent it once for each of them and outdent it once for each
but one. The row keeps one unit at its start, and every caret one unit to its left where the last column left room for
all of them. Of a unit without characters that is so if the row does not start with white space of its own, which the
outdents would take. -/
theorem trigger_of_sharesRow (henable : settings.enable) (h : b.SharesRow row) :
    (b.trigger settings).1 = .performed (.indentThenOutdent (b.selection.count - 1)) ∧
      ((b.indent.unit ≠ [] ∨ ∀ c, (Text.rowContent b.text row).head? = some c → c ≠ '\t' ∧ c ≠ ' ') →
        Text.rows (b.trigger settings).2.text = (Text.rows b.text).modify row (Text.Row.indentBy b.indent.unit 1) ∧
          (b.trigger settings).2.selection =
            b.selection.map (·.map (settled b.indent.unit.length b.selection.count))) := by
  have houtcome := h.outcome henable
  refine ⟨houtcome, fun hkept => ?_⟩
  rw [trigger_of_performed houtcome]
  by_cases hunit : b.indent.unit = []
  · exact indentThenOutdent_of_no_unit h.carets h.inText hunit (hkept.resolve_left (not_not.mpr hunit))
  · obtain ⟨hrows, hselection, -⟩ := indentThenOutdent_of_unit h.carets h.inText hunit
    exact ⟨hrows, hselection⟩

def twoCarets : Buffer where
  text := ['x', '\r', '\n', ' ', 'a', 'b', '\n', 'y']
  selection := ⟨.caret ⟨1, 0⟩, [.caret ⟨1, 2⟩]⟩
  indent := { tabWidth := 2 }

theorem trigger_twoCarets :
    ({} : Settings).enable ∧ twoCarets.SharesRow 1 ∧ twoCarets.indent.unit ≠ [] ∧
      (twoCarets.trigger {}).1 = .performed (.indentThenOutdent 1) ∧
      Text.rows (twoCarets.trigger {}).2.text =
        (Text.rows twoCarets.text).modify 1 (Text.Row.indentBy [' ', ' '] 1) ∧
      (twoCarets.trigger {}).2.selection = ⟨.caret ⟨1, 2⟩, [.caret ⟨1, 4⟩]⟩ := by
  have hshares : twoCarets.SharesRow 1 := ⟨by decide, by decide, by decide, by decide⟩
  obtain ⟨houtcome, hkept⟩ := @trigger_of_sharesRow twoCarets 1 {} rfl hshares
  obtain ⟨hrows, hselection⟩ := hkept (.inl (by decide))
  exact ⟨rfl, hshares, by decide, houtcome, hrows, hselection.trans (by decide)⟩

def oneAtLastColumn : Buffer where
  text := ['a', 'b']
  selection := ⟨.caret ⟨0, 0⟩, [.caret ⟨0, maxColumn⟩]⟩
  indent := { tabWidth := 2 }

def withoutWidth : Buffer where
  text := [' ', ' ', 'a', 'b']
  selection := ⟨.caret ⟨0, 2⟩, [.caret ⟨0, 3⟩]⟩
  indent := { tabWidth := 0 }

/-- A caret in the last column has no room to its right, and a unit without characters brings nothing that the outdents
could take instead of what the row starts with. -/
theorem not_forall_trigger_of_sharesRow :
    (¬∀ (b : Buffer) (row : Nat), b.SharesRow row → b.indent.unit ≠ [] →
      (b.trigger {}).2.selection =
        b.selection.map (·.map fun p => ⟨p.row, p.col + b.indent.unit.length⟩)) ∧
    ¬∀ (b : Buffer) (row : Nat), b.SharesRow row →
      Text.rows (b.trigger {}).2.text = (Text.rows b.text).modify row (Text.Row.indentBy b.indent.unit 1) := by
  constructor
  · intro h
    have hshares : oneAtLastColumn.SharesRow 0 := ⟨by decide, by decide, by decide, by decide⟩
    have hmoved := h oneAtLastColumn 0 hshares (by decide)
    rw [trigger_of_performed (hshares.outcome rfl)] at hmoved
    exact absurd hmoved (by decide)
  · intro h
    have hshares : withoutWidth.SharesRow 0 := ⟨by decide, by decide, by decide, by decide⟩
    have hkept := h withoutWidth 0 hshares
    rw [trigger_of_performed (hshares.outcome rfl)] at hkept
    exact absurd hkept (by decide)

end Buffer

end TabKey
