import Mathlib.Data.List.Basic
import TabKey.Buffer
import TabKey.Proofs.Rows

/-! What outdenting does to the rows of a buffer, and the one case in which it does more: where what goes was all that
kept a lone CR and an LF apart. -/
namespace TabKey

namespace Text

/-- A line without its leading tab, or else without its leading spaces, but for those past the width of a unit. -/
def outdented (tabWidth : Nat) : List Char → List Char
  | '\t' :: rest => rest
  | line => line.drop (min (max tabWidth 1) (line.takeWhile (· == ' ')).length)

theorem drop_outdentWidth (tabWidth : Nat) (line : List Char) :
    line.drop (Buffer.outdentWidth tabWidth line) = outdented tabWidth line := by
  rw [Buffer.outdentWidth]
  split
  · next htab =>
    obtain ⟨rest, rfl⟩ := List.head?_eq_some_iff.mp htab
    rfl
  · next hnot =>
    rw [← List.take_takeWhile, List.length_take, outdented]
    rintro rest rfl
    exact hnot rfl

theorem outdentWidth_le_length (tabWidth : Nat) (line : List Char) :
    Buffer.outdentWidth tabWidth line ≤ line.length := by
  rw [Buffer.outdentWidth]
  split
  · next htab =>
    obtain ⟨rest, rfl⟩ := List.head?_eq_some_iff.mp htab
    exact Nat.succ_pos _
  · exact ((List.takeWhile_sublist _).trans (List.take_sublist _ _)).length_le

namespace Row

def outdent (tabWidth : Nat) (r : Row) : Row := ⟨outdented tabWidth r.content, r.ending⟩

@[simp] theorem ending_outdent (tabWidth : Nat) (r : Row) : (r.outdent tabWidth).ending = r.ending := rfl

end Row

theorem modify_split (f : Row → Row) (pre : List Row) (r : Row) (post : List Row) :
    (pre ++ r :: post).modify pre.length f = pre ++ f r :: post := by
  induction pre with
  | nil => rfl
  | cons first pre ih => rw [List.cons_append, List.length_cons, List.modify_succ_cons, ih]; rfl

/-- A row may be given other content that breaks no line, unless that leaves an empty row that ends in LF below a
lone CR. -/
theorem Canonical.replace_of_not_below_cr {pre post : List Row} {r : Row} {content : List Char}
    (h : Canonical (pre ++ r :: post)) (hu : Unbroken content)
    (hapart : ∀ above, pre.getLast? = some above → above.ending = some .cr →
      content = [] → r.ending ≠ some .lf) : Canonical (pre ++ ⟨content, r.ending⟩ :: post) := by
  induction pre with
  | nil =>
    cases post with
    | nil => exact ⟨hu, h.2⟩
    | cons next post => exact ⟨hu, h.2⟩
  | cons first pre ih =>
    rw [List.cons_append, canonical_cons (by simp)] at h ⊢
    obtain ⟨hfirst, ⟨ending, hending, hcr⟩, hrest⟩ := h
    cases pre with
    | nil =>
      have hbelow := ih hrest nofun
      refine ⟨hfirst, ⟨ending, hending, fun hlone hhead => ?_⟩, hbelow⟩
      obtain ⟨hempty, hlf⟩ := hbelow.head?_eq_lf_iff.mp hhead
      exact hapart first rfl (hlone ▸ hending) hempty hlf
    | cons next pre =>
      have hbelow := ih hrest hapart
      refine ⟨hfirst, ⟨ending, hending, fun hlone hhead => hcr hlone ?_⟩, hbelow⟩
      exact hrest.head?_eq_lf_iff.mpr (hbelow.head?_eq_lf_iff.mp hhead)

/-- Where a lone CR has its row end at an LF instead, the row ends in CR LF. -/
theorem Canonical.join_crlf {pre post : List Row} {content content' : List Char}
    (h : Canonical (pre ++ ⟨content, some .cr⟩ :: ⟨content', some .lf⟩ :: post)) :
    Canonical (pre ++ ⟨content, some .crlf⟩ :: post) := by
  induction pre with
  | nil =>
    obtain ⟨hcontent, -, hrest⟩ := h
    cases post with
    | nil => cases hrest.2
    | cons next post => exact ⟨hcontent, ⟨.crlf, rfl, nofun⟩, hrest.2.2⟩
  | cons first pre ih =>
    rw [List.cons_append, canonical_cons (by simp)] at h ⊢
    obtain ⟨hfirst, ⟨ending, hending, hcr⟩, hrest⟩ := h
    have hbelow := ih hrest
    refine ⟨hfirst, ⟨ending, hending, fun hlone hhead => ?_⟩, hbelow⟩
    cases pre with
    | nil => cases (hbelow.head?_eq_lf_iff.mp hhead).2
    | cons next pre => exact hcr hlone (hrest.head?_eq_lf_iff.mpr (hbelow.head?_eq_lf_iff.mp hhead))

/-- Outdenting the row would let the lone CR above it meet its LF: all that it holds would go. -/
def MeetsAbove (tabWidth : Nat) (rs : List Row) (row : Nat) : Prop :=
  0 < row ∧ rs[row - 1]?.bind Row.ending = some .cr ∧
    ∃ r, rs[row]? = some r ∧ r.ending = some .lf ∧ outdented tabWidth r.content = []

/-- Outdenting one row has no part in whether another would meet the row above it. -/
theorem meetsAbove_modify_iff {tabWidth : Nat} {rs : List Row} {row row' : Nat} (h : row ≠ row') :
    MeetsAbove tabWidth (rs.modify row (Row.outdent tabWidth)) row' ↔ MeetsAbove tabWidth rs row' := by
  have hending : (rs.modify row (Row.outdent tabWidth))[row' - 1]?.bind Row.ending =
      rs[row' - 1]?.bind Row.ending := by
    rw [List.getElem?_modify]
    cases rs[row' - 1]? with
    | none => rfl
    | some r => by_cases hi : row = row' - 1 <;> simp [hi]
  have hrow : (rs.modify row (Row.outdent tabWidth))[row']? = rs[row']? := by
    rw [List.getElem?_modify]
    simp [h]
  rw [MeetsAbove, MeetsAbove, hending, hrow]

end Text

namespace Buffer
variable {b : Buffer} {row : Nat}

@[simp] theorem indent_outdentRow (b : Buffer) (row : Nat) : (b.outdentRow row).indent = b.indent := by
  rw [outdentRow]
  split <;> rfl

/-- Outdenting a row takes characters from that row alone, whatever becomes of the breaks around it. -/
theorem text_outdentRow (b : Buffer) (row : Nat) :
    (b.outdentRow row).text =
      Text.unrows ((Text.rows b.text).modify row (Text.Row.outdent b.indent.tabWidth)) := by
  by_cases hrow : row < Text.rowCount b.text
  · obtain ⟨r, hr⟩ : ∃ r, (Text.rows b.text)[row]? = some r := ⟨_, List.getElem?_eq_getElem hrow⟩
    obtain ⟨pre, post, hrows, rfl, hstart, htext⟩ := Text.exists_rows_split hr
    have hcontent : Text.rowContent b.text pre.length = r.content := by
      rw [Text.rowContent, hr]
      rfl
    have hdrop := Text.drop_outdentWidth b.indent.tabWidth r.content
    have hwidth := Text.outdentWidth_le_length b.indent.tabWidth r.content
    rw [hrows, Text.modify_split, outdentRow, hcontent]
    generalize outdentWidth b.indent.tabWidth r.content = width at hdrop hwidth ⊢
    have hcut : r.raw.drop width = (r.outdent b.indent.tabWidth).raw := by
      rw [Text.Row.raw, List.drop_append_of_le_length hwidth, hdrop]
      rfl
    split
    · have hlength : width ≤ r.raw.length := by
        rw [Text.Row.raw, List.length_append]
        omega
      rw [hstart, show Text.splice b.text = Text.splice (Text.unrows pre ++ (r.raw ++ Text.unrows post)) from
        congrArg Text.splice htext]
      simp only [Text.splice, List.take_left, List.drop_length_add_append,
        List.drop_append_of_le_length hlength, List.append_nil, Text.unrows_append, Text.unrows_cons, hcut]
    · next hnot =>
      have hzero : width = 0 := by omega
      rw [hzero, List.drop_zero] at hcut
      rw [Text.unrows_append, Text.unrows_cons, ← hcut]
      exact htext
  · rw [outdentRow, if_neg fun h => hrow h.1, List.modify_eq_self (Nat.le_of_not_lt hrow), Text.unrows_rows]

/-- Outdenting a row keeps the rows apart, unless the row meets the one above it. -/
theorem rows_outdentRow (h : ¬Text.MeetsAbove b.indent.tabWidth (Text.rows b.text) row) :
    Text.rows (b.outdentRow row).text =
      (Text.rows b.text).modify row (Text.Row.outdent b.indent.tabWidth) := by
  rw [text_outdentRow]
  apply Text.rows_unrows
  have hcanonical := Text.canonical_rows b.text
  by_cases hrow : row < Text.rowCount b.text
  · obtain ⟨r, hr⟩ : ∃ r, (Text.rows b.text)[row]? = some r := ⟨_, List.getElem?_eq_getElem hrow⟩
    obtain ⟨pre, post, hrows, rfl, -, -⟩ := Text.exists_rows_split hr
    rw [hrows] at hcanonical hr h ⊢
    rw [Text.modify_split]
    have hunbroken : Text.Unbroken (Text.outdented b.indent.tabWidth r.content) := by
      rw [← Text.drop_outdentWidth]
      exact (hcanonical.unbroken (by simp)).of_subset (List.drop_subset _ _)
    refine hcanonical.replace_of_not_below_cr hunbroken fun above habove hcr hempty hlf => h ?_
    obtain ⟨before, rfl⟩ := List.getLast?_eq_some_iff.mp habove
    refine ⟨by simp, ?_, r, hr, hlf, hempty⟩
    rw [List.length_append, List.length_singleton, Nat.add_sub_cancel, List.append_assoc,
      List.getElem?_append_right (Nat.le_refl _), Nat.sub_self]
    exact hcr
  · rwa [List.modify_eq_self (Nat.le_of_not_lt hrow)]

/-- A row that meets the one above it is one with it. -/
theorem rowCount_outdentRow_lt (h : Text.MeetsAbove b.indent.tabWidth (Text.rows b.text) row) :
    Text.rowCount (b.outdentRow row).text < Text.rowCount b.text := by
  obtain ⟨hpos, hcr, r, hr, hlf, hempty⟩ := h
  obtain ⟨pre, post, hrows, rfl, -, -⟩ := Text.exists_rows_split hr
  have hcanonical := Text.canonical_rows b.text
  have htext := b.text_outdentRow pre.length
  obtain ⟨before, above, rfl⟩ : ∃ before above, pre = before ++ [above] :=
    (List.eq_nil_or_concat' pre).resolve_left (List.ne_nil_of_length_pos hpos)
  obtain ⟨content, ending⟩ := above
  obtain ⟨content', ending'⟩ := r
  have habove : ending = some .cr := by
    rw [hrows] at hcr
    simpa using hcr
  simp only at hlf
  subst hlf habove
  rw [hrows] at hcanonical htext
  rw [Text.modify_split, Text.Row.outdent, hempty] at htext
  rw [List.append_assoc] at hcanonical htext
  have hjoined : (b.outdentRow (before ++ [(⟨content, some .cr⟩ : Text.Row)]).length).text =
      Text.unrows (before ++ ⟨content, some .crlf⟩ :: post) := by
    rw [htext]
    simp [Text.Row.raw, Text.Row.tail, Text.LineBreak.text]
  rw [Text.rowCount, hjoined, Text.rows_unrows hcanonical.join_crlf, Text.rowCount, hrows]
  simp

theorem rowCount_outdentRow_le (b : Buffer) (row : Nat) :
    Text.rowCount (b.outdentRow row).text ≤ Text.rowCount b.text := by
  by_cases h : Text.MeetsAbove b.indent.tabWidth (Text.rows b.text) row
  · exact Nat.le_of_lt (rowCount_outdentRow_lt h)
  · rw [Text.rowCount, rows_outdentRow h, List.length_modify]
    exact Nat.le_refl _

theorem rowCount_foldl_outdentRow_le (b : Buffer) (listed : List Nat) :
    Text.rowCount (listed.foldl outdentRow b).text ≤ Text.rowCount b.text := by
  induction listed generalizing b with
  | nil => exact Nat.le_refl _
  | cons row rest ih => exact Nat.le_trans (ih (b.outdentRow row)) (b.rowCount_outdentRow_le row)

theorem meetsAbove_outdentRow_iff {row' : Nat}
    (h : ¬Text.MeetsAbove b.indent.tabWidth (Text.rows b.text) row) (hne : row ≠ row') :
    Text.MeetsAbove (b.outdentRow row).indent.tabWidth (Text.rows (b.outdentRow row).text) row' ↔
      Text.MeetsAbove b.indent.tabWidth (Text.rows b.text) row' := by
  rw [rows_outdentRow h, indent_outdentRow, Text.meetsAbove_modify_iff hne]

/-- Rows outdented one after another, none of which meets the row above it. -/
theorem rows_foldl_outdentRow {listed : List Nat} (hnodup : listed.Nodup)
    (h : ∀ row ∈ listed, ¬Text.MeetsAbove b.indent.tabWidth (Text.rows b.text) row) :
    Text.rows (listed.foldl outdentRow b).text = (Text.rows b.text).mapIdx fun row r =>
      if row ∈ listed then r.outdent b.indent.tabWidth else r := by
  induction listed generalizing b with
  | nil =>
    rw [eq_comm, List.mapIdx_eq_iff]
    simp
  | cons row rest ih =>
    obtain ⟨hrow, hrest⟩ := List.nodup_cons.mp hnodup
    have hstep := rows_outdentRow (h row List.mem_cons_self)
    have hafter := fun row' (hrow' : row' ∈ rest) =>
      mt (meetsAbove_outdentRow_iff (h row List.mem_cons_self) fun heq => hrow (heq ▸ hrow')).mp
        (h row' (List.mem_cons_of_mem _ hrow'))
    rw [List.foldl_cons, ih hrest hafter, hstep, indent_outdentRow]
    apply List.ext_getElem?
    intro i
    rw [List.getElem?_mapIdx, List.getElem?_mapIdx, List.getElem?_modify]
    cases (Text.rows b.text)[i]? with
    | none => rfl
    | some r =>
      by_cases hi : row = i
      · subst hi
        simp [hrow]
      · simp [hi, Ne.symm hi]

/-- The places of an outdented row move along with it. -/
theorem selection_outdentRow (b : Buffer) (row : Nat) :
    (b.outdentRow row).selection = b.selection.map
      (·.map (shiftLeft row (outdentWidth b.indent.tabWidth (Text.rowContent b.text row)))) := by
  rw [outdentRow]
  split
  · rfl
  · next hnot =>
    have hzero : outdentWidth b.indent.tabWidth (Text.rowContent b.text row) = 0 := by
      by_cases hrow : row < Text.rowCount b.text
      · exact Nat.eq_zero_of_not_pos fun hpos => hnot ⟨hrow, hpos⟩
      · have hempty : Text.rowContent b.text row = [] := by
          rw [Text.rowContent, List.getElem?_eq_none (Nat.le_of_not_lt hrow)]
          rfl
        exact Nat.le_zero.mp (hempty ▸ Text.outdentWidth_le_length b.indent.tabWidth [])
    rw [hzero, shiftLeft_zero, Selection.map_id]

/-- Rows outdented one after another, none of which meets the row above it, take their places along. -/
theorem selection_foldl_outdentRow {listed : List Nat} (hnodup : listed.Nodup)
    (h : ∀ row ∈ listed, ¬Text.MeetsAbove b.indent.tabWidth (Text.rows b.text) row) :
    (listed.foldl outdentRow b).selection = b.selection.map (·.map fun p =>
      if p.row ∈ listed then
        ⟨p.row, p.col - outdentWidth b.indent.tabWidth (Text.rowContent b.text p.row)⟩
      else p) := by
  induction listed generalizing b with
  | nil => simp [Selection.map_id]
  | cons row rest ih =>
    obtain ⟨hrow, hrest⟩ := List.nodup_cons.mp hnodup
    have hstep := rows_outdentRow (h row List.mem_cons_self)
    have hother : ∀ row' ≠ row, Text.rowContent (b.outdentRow row).text row' = Text.rowContent b.text row' := by
      intro row' hne
      simp only [Text.rowContent, hstep, List.getElem?_modify, if_neg (Ne.symm hne), id_map']
    have hafter := fun row' (hrow' : row' ∈ rest) =>
      mt (meetsAbove_outdentRow_iff (h row List.mem_cons_self) fun heq => hrow (heq ▸ hrow')).mp
        (h row' (List.mem_cons_of_mem _ hrow'))
    rw [List.foldl_cons, ih hrest hafter, selection_outdentRow, indent_outdentRow, Selection.map_map]
    congr 2
    funext s
    congr 1
    funext p
    by_cases hp : p.row = row
    · simp [shiftLeft, hp, hrow]
    · simp [shiftLeft, hp, hother p.row hp]

/-- If some row meets the one above it, rows are lost for good. -/
theorem rowCount_foldl_outdentRow_lt {listed : List Nat} (hnodup : listed.Nodup)
    (h : ∃ row ∈ listed, Text.MeetsAbove b.indent.tabWidth (Text.rows b.text) row) :
    Text.rowCount (listed.foldl outdentRow b).text < Text.rowCount b.text := by
  induction listed generalizing b with
  | nil => simp at h
  | cons row rest ih =>
    obtain ⟨hrow, hrest⟩ := List.nodup_cons.mp hnodup
    by_cases hmeets : Text.MeetsAbove b.indent.tabWidth (Text.rows b.text) row
    · exact Nat.lt_of_le_of_lt (rowCount_foldl_outdentRow_le _ rest) (rowCount_outdentRow_lt hmeets)
    · have hafter : ∃ row' ∈ rest, Text.MeetsAbove (b.outdentRow row).indent.tabWidth
          (Text.rows (b.outdentRow row).text) row' := by
        obtain ⟨row', hmem, hrow'⟩ := h
        rcases List.mem_cons.mp hmem with rfl | hmem
        · exact absurd hrow' hmeets
        · exact ⟨row', hmem, (meetsAbove_outdentRow_iff hmeets fun heq => hrow (heq ▸ hmem)).mpr hrow'⟩
      exact Nat.lt_of_lt_of_le (ih hrest hafter) (b.rowCount_outdentRow_le row)

def touchedRows (b : Buffer) : List Nat :=
  (List.range (Text.rowCount b.text)).filter fun row => b.selection.spans.any (·.touches row)

theorem mem_touchedRows {row : Nat} :
    row ∈ b.touchedRows ↔ row < Text.rowCount b.text ∧ b.selection.spans.any (·.touches row) := by
  rw [touchedRows, List.mem_filter, List.mem_range]

theorem nodup_touchedRows (b : Buffer) : b.touchedRows.Nodup := List.nodup_range.filter _

theorem outdentLines_eq_foldl (b : Buffer) : b.outdentLines = b.touchedRows.foldl outdentRow b := rfl

def outdentedOnce (b : Buffer) : List Text.Row :=
  (Text.rows b.text).mapIdx fun row r =>
    if b.selection.spans.any (·.touches row) then r.outdent b.indent.tabWidth else r

/-- Outdenting the lines outdents once every row that some span touches and leaves all else as it is, breaks
included, if and only if no touched row would meet the row above it. -/
theorem rows_outdentLines_eq_outdentedOnce_iff (b : Buffer) :
    Text.rows b.outdentLines.text = b.outdentedOnce ↔
      ∀ row, b.selection.spans.any (·.touches row) →
        ¬Text.MeetsAbove b.indent.tabWidth (Text.rows b.text) row := by
  rw [outdentLines_eq_foldl]
  constructor
  · intro hrows row htouched hmeets
    have hlt : row < Text.rowCount b.text := by
      obtain ⟨-, -, r, hr, -⟩ := hmeets
      exact (List.getElem?_eq_some_iff.mp hr).1
    have hfewer := rowCount_foldl_outdentRow_lt b.nodup_touchedRows
      ⟨row, mem_touchedRows.mpr ⟨hlt, htouched⟩, hmeets⟩
    rw [Text.rowCount, hrows, outdentedOnce, List.length_mapIdx] at hfewer
    exact Nat.lt_irrefl _ hfewer
  · intro hapart
    rw [rows_foldl_outdentRow b.nodup_touchedRows fun row hrow => hapart row (mem_touchedRows.mp hrow).2,
      outdentedOnce, List.mapIdx_eq_mapIdx_iff]
    intro row hrow
    have hlt : row < Text.rowCount b.text := hrow
    simp only [mem_touchedRows, hlt, true_and]

def acrossLoneReturn : Buffer where
  text := ['a', '\r', ' ', '\n', ' ', ' ', 'b', '\n', ' ', ' ', 'c']
  selection := ⟨⟨⟨1, 0⟩, ⟨2, 1⟩⟩, []⟩
  indent := { tabWidth := 2 }

/-- After the CR and the LF have met, the row that is outdented next is one that no span touches. -/
theorem not_forall_rows_outdentLines_eq_outdentedOnce :
    ¬∀ b : Buffer, Text.rows b.outdentLines.text = b.outdentedOnce := by
  intro h
  exact absurd (h acrossLoneReturn) (by decide)

end Buffer

end TabKey
