import Mathlib.Data.List.TakeWhile
import TabKey.Proofs.Decomposition
import TabKey.Proofs.Edits

namespace TabKey

namespace Text

theorem trimStart_eq_nil_iff {cs : List Char} : trimStart cs = [] ↔ isBlank cs = true := by
  rw [trimStart, List.dropWhile_eq_nil_iff, isBlank, List.all_eq_true]

@[simp] theorem margin_trimStart (cs : List Char) : margin (trimStart cs) = [] := by
  have hhead := List.head?_dropWhile_not isSpace cs
  rw [margin, trimStart]
  cases hcs : cs.dropWhile isSpace with
  | nil => rfl
  | cons c rest =>
    rw [hcs] at hhead
    exact List.takeWhile_cons_of_neg (by simpa using hhead)

theorem trimStart_append {ws : List Char} (h : ∀ c ∈ ws, isSpace c = true) (cs : List Char) :
    trimStart (ws ++ cs) = trimStart cs :=
  List.dropWhile_append_of_pos h

@[simp] theorem trimStart_trimStart (cs : List Char) : trimStart (trimStart cs) = trimStart cs := by
  have hsplit := margin_append_trimStart (trimStart cs)
  rwa [margin_trimStart, List.nil_append] at hsplit

theorem margin_append_of_isSpace {ws : List Char} (h : ∀ c ∈ ws, isSpace c = true) (cs : List Char) :
    margin (ws ++ trimStart cs) = ws := by
  rw [margin, List.takeWhile_append_of_pos h, ← margin, margin_trimStart, List.append_nil]

theorem isBlank_congr {cs cs' : List Char} (h : trimStart cs = trimStart cs') : isBlank cs = isBlank cs' := by
  rw [Bool.eq_iff_iff, ← trimStart_eq_nil_iff, ← trimStart_eq_nil_iff, h]

theorem trim_congr {cs cs' : List Char} (h : trimStart cs = trimStart cs') : trim cs = trim cs' := by
  rw [trim, trim, h]

/-- Rows that differ in the white space before their text at most. Blank rows do not differ at all. -/
structure Row.SameButMargin (r r' : Row) : Prop where
  ending : r.ending = r'.ending
  content : r.content = r'.content ∨
    isBlank r.content = false ∧ isBlank r'.content = false ∧ trimStart r.content = trimStart r'.content

end Text

namespace Indent

/-- The white space of a level is made of one character, a space or a tab. -/
theorem indentation_eq_replicate (indent : Indent) (level : Nat) :
    ∃ n c, Text.isSpace c = true ∧ Text.LineBreak.ofChar? c = none ∧
      indent.indentation level = List.replicate n c := by
  cases h : indent.insertSpaces with
  | false => exact ⟨level, '\t', rfl, rfl, by simp [indentation, h]⟩
  | true => exact ⟨level * indent.tabWidth, ' ', rfl, rfl, by simp [indentation, h]⟩

theorem isSpace_of_mem_indentation (indent : Indent) (level : Nat) :
    ∀ c ∈ indent.indentation level, Text.isSpace c = true := by
  obtain ⟨n, c, hspace, -, hindent⟩ := indent.indentation_eq_replicate level
  rw [hindent]
  exact fun _ hd => List.eq_of_mem_replicate hd ▸ hspace

theorem unbroken_indentation (indent : Indent) (level : Nat) : Text.Unbroken (indent.indentation level) := by
  obtain ⟨n, c, -, hc, hindent⟩ := indent.indentation_eq_replicate level
  rw [hindent]
  exact .replicate n hc

end Indent

namespace Script
open Text
variable {indent : Indent}

def onLevel (indent : Indent) (level : Nat) (r : Row) : Row :=
  ⟨indent.indentation level ++ trimStart r.content, r.ending⟩

@[simp] theorem trimStart_onLevel (indent : Indent) (level : Nat) (r : Row) :
    trimStart (onLevel indent level r).content = trimStart r.content := by
  rw [onLevel, trimStart_append (indent.isSpace_of_mem_indentation level), trimStart_trimStart]

@[simp] theorem margin_onLevel (indent : Indent) (level : Nat) (r : Row) :
    margin (onLevel indent level r).content = indent.indentation level :=
  margin_append_of_isSpace (indent.isSpace_of_mem_indentation level) r.content

theorem unbroken_onLevel {r : Row} (h : Unbroken r.content) (level : Nat) :
    Unbroken (onLevel indent level r).content :=
  (indent.unbroken_indentation level).append (h.of_subset (List.dropWhile_sublist isSpace).subset)

def levelled (indent : Indent) : (level : Nat) → List Row → List Row
  | _, [] => []
  | level, r :: rest =>
    if isBlank r.content then r :: levelled indent level rest
    else
      let statement := Statement.ofLine (trim r.content)
      onLevel indent (statement.levelAt level) r :: levelled indent (statement.levelAfter level) rest

theorem row_of_edit? {row level : Nat} {line : List Char} {e : Edit}
    (h : edit? indent row level line = some e) : e.row = row := by
  rw [edit?] at h
  split at h
  · cases h
  · exact (Option.some.inj h) ▸ rfl

theorem row_le_of_mem_editsFrom {row level : Nat} {lines : List (List Char)} {e : Edit}
    (h : e ∈ editsFrom indent row level lines) : row ≤ e.row := by
  induction lines generalizing row level with
  | nil => cases h
  | cons line rest ih =>
    rw [editsFrom] at h
    split at h
    · exact Nat.le_of_succ_le (ih h)
    · rcases List.mem_append.mp h with hhead | hrest
      · exact (row_of_edit? (Option.mem_toList.mp hhead)).ge
      · exact Nat.le_of_succ_le (ih hrest)

/-- The edits come in the order of their rows, no two for one row. -/
theorem pairwise_editsFrom (row level : Nat) (lines : List (List Char)) :
    (editsFrom indent row level lines).Pairwise fun d e => d.row < e.row := by
  induction lines generalizing row level with
  | nil => exact .nil
  | cons line rest ih =>
    simp only [editsFrom]
    split
    · exact ih ..
    · refine List.pairwise_append.mpr ⟨?_, ih .., ?_⟩
      · generalize edit? .. = first
        cases first <;> simp
      · intro d hd e he
        have hrow := row_of_edit? (Option.mem_toList.mp hd)
        have hafter := row_le_of_mem_editsFrom he
        omega

theorem nodup_row_editsFrom (row level : Nat) (lines : List (List Char)) :
    ((editsFrom indent row level lines).map Edit.row).Nodup :=
  List.pairwise_map.mpr ((pairwise_editsFrom row level lines).imp Nat.ne_of_lt)

/-- The edit for a row, if it needs one, puts the row on its level. -/
theorem rewriteRow_edit?_append {row level : Nat} {after : List Edit} (hafter : ∀ e ∈ after, e.row ≠ row)
    (r : Row) :
    Edit.rewriteRow ((edit? indent row level r.content).toList ++ after) row r =
      (onLevel indent level r).raw := by
  have hmargin := margin_append_trimStart r.content
  rw [onLevel, edit?]
  split
  · next heq =>
    rw [Option.toList_none, List.nil_append, Edit.rewriteRow_of_forall_ne hafter, ← heq, hmargin]
  · have hwidth : min (margin r.content).length r.content.length = (margin r.content).length := by
      have hlength := congrArg List.length hmargin
      rw [List.length_append] at hlength
      omega
    have hraw : r.raw = margin r.content ++ (trimStart r.content ++ r.tail) := by
      rw [Row.raw, ← List.append_assoc, hmargin]
    rw [Option.toList_some, List.singleton_append]
    refine (Edit.rewriteRow_cons_self _ after r).trans ?_
    rw [Edit.rewrite, hwidth, hraw, List.drop_left, Row.raw, List.append_assoc]
    rfl

theorem rewriteRow_edit?_append_of_lt {row row' level : Nat} {line : List Char} (h : row < row')
    (after : List Edit) (r : Row) :
    Edit.rewriteRow ((edit? indent row level line).toList ++ after) row' r =
      Edit.rewriteRow after row' r := by
  cases hedit : edit? indent row level line with
  | none => rfl
  | some e =>
    have hrow := row_of_edit? hedit
    exact Edit.rewriteRow_cons_of_ne (by omega) after r

/-- The edits for a script put each of its rows on its level. -/
theorem mapIdx_rewriteRow_editsFrom (indent : Indent) {rs : List Row} (h : ∀ r ∈ rs, Unbroken r.content)
    (row level : Nat) :
    (rs.mapIdx fun i => Edit.rewriteRow (editsFrom indent row level (rs.map Row.content)) (row + i)) =
      (levelled indent level rs).map Row.raw := by
  induction rs generalizing row level with
  | nil => rfl
  | cons r rest ih =>
    have hpast (level : Nat) : ∀ e ∈ editsFrom indent (row + 1) level (rest.map Row.content), e.row ≠ row := by
      intro e he
      have := row_le_of_mem_editsFrom he
      omega
    have hrest := fun level => ih (fun r hr => h r (List.mem_cons_of_mem _ hr)) (row + 1) level
    rw [List.mapIdx_cons, Nat.add_zero]
    simp only [List.map_cons, editsFrom, levelled, dropBreak_of_unbroken (h r List.mem_cons_self)]
    split
    · have hlater (after : List Edit) : (fun i => Edit.rewriteRow after (row + (i + 1))) =
          fun i => Edit.rewriteRow after (row + 1 + i) := by
        simp only [Nat.add_assoc, Nat.add_comm 1]
      rw [List.map_cons, Edit.rewriteRow_of_forall_ne (hpast level), hlater, hrest]
    · have hlater (level : Nat) (after : List Edit) :
          (fun i => Edit.rewriteRow ((edit? indent row level r.content).toList ++ after) (row + (i + 1))) =
            fun i => Edit.rewriteRow after (row + 1 + i) := by
        funext i s
        rw [rewriteRow_edit?_append_of_lt (by omega), Nat.add_assoc, Nat.add_comm 1]
      rw [List.map_cons, rewriteRow_edit?_append (hpast _), hlater, hrest]

/-- On their levels the rows keep their number and endings, stay free of breaks, and none becomes empty. -/
theorem forall₂_levelled (indent : Indent) {rs : List Row} (h : ∀ r ∈ rs, Unbroken r.content) (level : Nat) :
    List.Forall₂ (fun r r' => r'.ending = r.ending ∧ Unbroken r'.content ∧
      (r'.content = [] → r.content = [])) rs (levelled indent level rs) := by
  induction rs generalizing level with
  | nil => exact .nil
  | cons r rest ih =>
    have hrest := fun level => ih (fun s hs => h s (List.mem_cons_of_mem _ hs)) level
    have hr : Unbroken r.content := h r List.mem_cons_self
    rw [levelled]
    split
    · exact .cons ⟨rfl, hr, id⟩ (hrest level)
    · next hblank =>
      refine .cons ⟨rfl, unbroken_onLevel hr _, fun hempty => ?_⟩ (hrest _)
      exact absurd (trimStart_eq_nil_iff.mp (List.append_eq_nil_iff.mp hempty).2) hblank

/-- Re-indenting puts every row of a text on its level, and no two rows run together. -/
theorem rows_reindent (indent : Indent) (text : List Char) :
    rows (reindent indent text) = levelled indent 0 (rows text) := by
  have hcanonical := canonical_rows text
  have hlevelled := forall₂_levelled indent (fun _ hr => hcanonical.unbroken hr) 0
  have htext : reindent indent text = unrows (levelled indent 0 (rows text)) := by
    have hrewritten := mapIdx_rewriteRow_editsFrom indent (fun _ hr => hcanonical.unbroken hr) 0 0
    simp only [Nat.zero_add] at hrewritten
    rw [reindent, editsOf, edits, Edit.applyAll_of_nodup (nodup_row_editsFrom ..), hrewritten,
      ← List.flatMap_def]
    rfl
  rw [htext, rows_unrows (hcanonical.of_forall₂ hlevelled)]

/-- Rows on their levels need no edit. -/
theorem editsFrom_levelled {rs : List Row} (h : ∀ r ∈ rs, Unbroken r.content) (row level : Nat) :
    editsFrom indent row level ((levelled indent level rs).map Row.content) = [] := by
  induction rs generalizing row level with
  | nil => rfl
  | cons r rest ih =>
    have hrest := fun level => ih (fun s hs => h s (List.mem_cons_of_mem _ hs)) (row + 1) level
    have hr : Unbroken r.content := h r List.mem_cons_self
    rw [levelled]
    split
    · next hblank =>
      simp only [List.map_cons, editsFrom, dropBreak_of_unbroken hr, hblank, if_true, hrest]
    · next hblank =>
      -- On its level the row has the text it had, so it is the same statement again.
      have hblank' (level : Nat) : isBlank (onLevel indent level r).content = isBlank r.content :=
        isBlank_congr (trimStart_onLevel indent level r)
      have htrim (level : Nat) : trim (onLevel indent level r).content = trim r.content :=
        trim_congr (trimStart_onLevel indent level r)
      have hedit (level : Nat) : edit? indent row level (onLevel indent level r).content = none := by
        rw [edit?, margin_onLevel, if_pos rfl]
      simp only [List.map_cons, editsFrom, dropBreak_of_unbroken (unbroken_onLevel hr _), hblank', htrim,
        hedit, hrest, Option.toList_none, List.append_nil, if_neg hblank]

/-- The level of a row and what is written on it do not depend on margins. -/
theorem levelled_congr {rs rs' : List Row} (h : List.Forall₂ Row.SameButMargin rs rs') (level : Nat) :
    levelled indent level rs = levelled indent level rs' := by
  induction h generalizing level with
  | nil => rfl
  | @cons r r' rest rest' hr _ ih =>
    rcases hr.content with hsame | ⟨hblank, hblank', htext⟩
    · obtain rfl : r = r' := by
        cases r
        cases r'
        rw [Row.mk.injEq]
        exact ⟨hsame, hr.ending⟩
      simp only [levelled, ih]
    · have honLevel (level : Nat) : onLevel indent level r = onLevel indent level r' := by
        rw [onLevel, onLevel, htext, hr.ending]
      simp only [levelled, hblank, hblank', trim_congr htext, honLevel, ih]
      rfl

/-- Scripts that differ in their margins alone, if at all, are re-indented to the same text: one that re-indenting
leaves without an edit to make. -/
theorem reindent_eq_of_sameButMargin (indent : Indent) {text text' : List Char}
    (h : List.Forall₂ Row.SameButMargin (rows text) (rows text')) :
    reindent indent text = reindent indent text' ∧ editsOf indent (reindent indent text) = [] := by
  constructor
  · rw [← unrows_rows (reindent indent text), ← unrows_rows (reindent indent text'), rows_reindent,
      rows_reindent, levelled_congr h]
  · rw [editsOf, rows_reindent]
    exact editsFrom_levelled (fun _ hr => (canonical_rows text).unbroken hr) 0 0

/-- A block that opens in the margin, its body after a blank row, and the same with margins of another kind. -/
theorem reindent_eq_of_sameButMargin_block :
    let text := [' ', 'm', 'e', 'n', 'u', ':', '\r', '\n', ' ', '\r', 'a', '\u2028', '\t', 'b']
    let text' := ['m', 'e', 'n', 'u', ':', '\r', '\n', ' ', '\r', '\t', ' ', 'a', '\u2028', 'b']
    List.Forall₂ Row.SameButMargin (rows text) (rows text') ∧
      reindent {} text = reindent {} text' ∧ editsOf {} (reindent {} text) = [] := by
  intro text text'
  have h : List.Forall₂ Row.SameButMargin (rows text) (rows text') :=
    .cons ⟨rfl, .inr ⟨rfl, rfl, rfl⟩⟩ (.cons ⟨rfl, .inl rfl⟩ (.cons ⟨rfl, .inr ⟨rfl, rfl, rfl⟩⟩
      (.cons ⟨rfl, .inr ⟨rfl, rfl, rfl⟩⟩ .nil)))
  exact ⟨h, reindent_eq_of_sameButMargin {} h⟩

end Script

end TabKey
