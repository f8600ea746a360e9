import Mathlib.Data.List.Nodup
import Mathlib.Data.List.Sort
import TabKey.Proofs.Bounds
import TabKey.Script.Edit

/-! Edits of rows, carried out from the last row up. The rows above an edit stay where they are, so every edit finds
its row as the text had it. -/
namespace TabKey

namespace Text

private theorem head?_append_of_ne_nil {a : List Char} (h : a ≠ []) (b : List Char) :
    (a ++ b).head? = a.head? := by
  rw [List.head?_append, List.head?_eq_some_head h, Option.some_or]

/-- Rows above a seam are rows of the text, whatever comes after it. -/
theorem rows_unrows_append {pre post : List Row} (h : Canonical (pre ++ post)) (hpost : post ≠ [])
    {after : List Char} (hseam : Seam (unrows pre) after) :
    rows (unrows pre ++ after) = pre ++ rows after := by
  induction pre with
  | nil => rfl
  | cons r pre ih =>
    rw [List.cons_append, canonical_cons (List.append_ne_nil_of_right_ne_nil _ hpost)] at h
    obtain ⟨hcontent, ⟨ending, hending, hcr⟩, hrest⟩ := h
    rw [unrows_cons] at hseam
    have htail : r.tail = ending.text := by
      rw [Row.tail, hending]
      rfl
    have hbreak : rows (ending.text ++ (unrows pre ++ after)) =
        ⟨[], some ending⟩ :: rows (unrows pre ++ after) := by
      apply rows_break
      intro hlone
      cases pre with
      | nil =>
        apply hseam
        rw [Row.raw, htail, hlone]
        simp [unrows, LineBreak.text]
      | cons next pre =>
        have hne : unrows (next :: pre) ≠ [] := by
          rw [unrows_cons]
          exact List.append_ne_nil_of_left_ne_nil (Canonical.raw_ne_nil_of_cons hrest hpost) _
        have hhead := hcr hlone
        rw [unrows_append, head?_append_of_ne_nil hne] at hhead
        rwa [head?_append_of_ne_nil hne]
    have hrows := rows_append_of_unbroken hcontent hbreak
    rw [List.append_nil, ih hrest hseam.of_append] at hrows
    rw [unrows_cons, Row.raw, htail, List.append_assoc, List.append_assoc, hrows, ← hending]
    rfl

/-- A raw row is read with its content, whatever comes after its break. -/
theorem exists_rows_raw_append {r : Row} (h : Unbroken r.content) {after : List Char}
    (hafter : r.ending = none → after = []) :
    ∃ ending rest, rows (r.raw ++ after) = ⟨r.content, ending⟩ :: rest := by
  suffices hbreak : ∃ ending rest, rows (r.tail ++ after) = ⟨[], ending⟩ :: rest by
    obtain ⟨ending, rest, hrows⟩ := hbreak
    refine ⟨ending, rest, ?_⟩
    rw [Row.raw, List.append_assoc, rows_append_of_unbroken h hrows, List.append_nil]
  rw [Row.tail]
  cases hending : r.ending with
  | none => exact ⟨none, [], by rw [hafter hending]; rfl⟩
  | some ending =>
    by_cases hlone : ending = .cr ∧ after.head? = some '\n'
    · -- The lone CR and the LF that has come after it are one break now.
      obtain ⟨rfl, hhead⟩ := hlone
      obtain ⟨rest, rfl⟩ := List.head?_eq_some_iff.mp hhead
      exact ⟨some .crlf, rows rest, rfl⟩
    · exact ⟨_, _, rows_break ending after fun hcr hhead => hlone ⟨hcr, hhead⟩⟩

end Text

namespace Script.Edit
open Text

def rewrite (e : Edit) (r : Row) : List Char := e.indent ++ r.raw.drop (min e.width r.content.length)

def rewriteRow (edits : List Edit) (row : Nat) (r : Row) : List Char :=
  match edits.find? (·.row == row) with
  | some e => e.rewrite r
  | none => r.raw

theorem rewriteRow_of_forall_ne {edits : List Edit} {row : Nat} (h : ∀ e ∈ edits, e.row ≠ row) (r : Row) :
    rewriteRow edits row r = r.raw := by
  have hnone : edits.find? (·.row == row) = none :=
    List.find?_eq_none.mpr fun e he => by simpa using h e he
  rw [rewriteRow, hnone]

@[simp] theorem rewriteRow_cons_self (e : Edit) (edits : List Edit) (r : Row) :
    rewriteRow (e :: edits) e.row r = e.rewrite r := by
  simp [rewriteRow]

theorem rewriteRow_cons_of_ne {e : Edit} {row : Nat} (h : e.row ≠ row) (edits : List Edit) (r : Row) :
    rewriteRow (e :: edits) row r = rewriteRow edits row r := by
  simp [rewriteRow, h]

/-- One edit changes its own row alone, even if the rows below it have been rewritten. -/
theorem apply_row {e : Edit} {pre post : List Row} {r : Row} (h : Canonical (pre ++ r :: post))
    (hrow : e.row = pre.length) {after : List Char} (hafter : post = [] → after = []) :
    e.apply (unrows pre ++ (r.raw ++ after)) = unrows pre ++ (e.rewrite r ++ after) := by
  have hcontent : Unbroken r.content := h.unbroken (by simp)
  have hlast : r.ending = none → post = [] := by
    intro hnone
    have hr := h.of_append (List.cons_ne_nil r post)
    cases post with
    | nil => rfl
    | cons next post =>
      obtain ⟨-, ⟨ending, hending, -⟩, -⟩ := hr
      rw [hnone] at hending
      cases hending
  obtain ⟨ending, rest, hrest⟩ := exists_rows_raw_append hcontent fun hnone => hafter (hlast hnone)
  have hseam : Seam (unrows pre) (r.raw ++ after) := by
    have hseam := h.seam (List.cons_ne_nil r post)
    cases hpost : post with
    | nil =>
      rw [hafter hpost]
      rwa [hpost] at hseam
    | cons next post =>
      rw [unrows_cons] at hseam
      have hne : r.raw ≠ [] := by
        cases hending : r.ending with
        | none => rw [hlast hending] at hpost; cases hpost
        | some ending => exact Row.raw_ne_nil hending
      rw [Seam, head?_append_of_ne_nil hne] at hseam ⊢
      exact hseam
  have hrows := rows_unrows_append h (List.cons_ne_nil r post) hseam
  rw [hrest] at hrows
  have hlt : e.row < rowCount (unrows pre ++ (r.raw ++ after)) := by
    rw [rowCount, hrows, hrow, List.length_append, List.length_cons]
    omega
  have hstart : rowStart (unrows pre ++ (r.raw ++ after)) e.row = (unrows pre).length := by
    rw [rowStart, hrows, startOf, hrow, List.take_left]
  have hread : rowContent (unrows pre ++ (r.raw ++ after)) e.row = r.content := by
    rw [rowContent, hrows, hrow, List.getElem?_append_right (Nat.le_refl _), Nat.sub_self]
    rfl
  have hwidth : min e.width r.content.length ≤ r.raw.length := by
    rw [Row.raw, List.length_append]
    omega
  rw [apply, if_pos hlt, hstart, hread]
  simp only [splice, List.take_left, List.drop_length_add_append, rewrite,
    List.drop_append_of_le_length hwidth, List.append_assoc]

theorem mapIdx_rewriteRow_of_forall_ne {edits : List Edit} {rs : List Row}
    (h : ∀ e ∈ edits, ∀ row < rs.length, e.row ≠ row) : rs.mapIdx (rewriteRow edits) = rs.map Row.raw := by
  apply List.mapIdx_eq_iff.mpr
  intro row
  rw [List.getElem?_map]
  cases hr : rs[row]? with
  | none => rfl
  | some r =>
    have hlt : row < rs.length := (List.getElem?_eq_some_iff.mp hr).1
    rw [Option.map_some, Option.map_some, rewriteRow_of_forall_ne fun e he => h e he row hlt]

/-- Edits in the order of their rows, carried out from the last one up. -/
theorem foldr_apply {edits : List Edit} (h : edits.Pairwise fun d e => d.row < e.row) (text : List Char) :
    edits.foldr apply text = ((rows text).mapIdx (rewriteRow edits)).flatten := by
  induction edits with
  | nil =>
    rw [mapIdx_rewriteRow_of_forall_ne (fun e he => absurd he List.not_mem_nil), ← List.flatMap_def]
    exact (unrows_rows text).symm
  | cons e edits ih =>
    obtain ⟨hbelow, hsorted⟩ := List.pairwise_cons.mp h
    rw [List.foldr_cons, ih hsorted]
    by_cases hlt : e.row < rowCount text
    · obtain ⟨r, hr⟩ : ∃ r, (rows text)[e.row]? = some r := ⟨_, List.getElem?_eq_getElem hlt⟩
      obtain ⟨pre, post, hrows, hlength, -, -⟩ := exists_rows_split hr
      have hcanonical := hrows ▸ canonical_rows text
      have habove : ∀ d ∈ e :: edits, ∀ row < pre.length, d.row ≠ row := by
        intro d hd row hrow
        rcases List.mem_cons.mp hd with rfl | hd
        · omega
        · have := hbelow d hd
          omega
      have hself : rewriteRow (e :: edits) (0 + pre.length) r = e.rewrite r := by
        rw [Nat.zero_add, hlength, rewriteRow_cons_self]
      have hwaits : rewriteRow edits (0 + pre.length) r = r.raw := by
        apply rewriteRow_of_forall_ne
        intro d hd
        have := hbelow d hd
        omega
      have hpost : (fun i => rewriteRow (e :: edits) (i + 1 + pre.length)) =
          fun i => rewriteRow edits (i + 1 + pre.length) := by
        funext i s
        exact rewriteRow_cons_of_ne (by omega) edits s
      rw [hrows, List.mapIdx_append, List.mapIdx_append, List.mapIdx_cons, List.mapIdx_cons,
        mapIdx_rewriteRow_of_forall_ne habove,
        mapIdx_rewriteRow_of_forall_ne fun d hd => habove d (List.mem_cons_of_mem _ hd),
        hself, hwaits, hpost]
      simp only [List.flatten_append, List.flatten_cons, ← List.flatMap_def]
      apply apply_row hcanonical hlength.symm
      rintro rfl
      rfl
    · -- All rows that the edits are for lie past the end.
      have hpast : ∀ d ∈ e :: edits, ∀ row < (rows text).length, d.row ≠ row := by
        intro d hd row hrow
        rw [rowCount] at hlt
        rcases List.mem_cons.mp hd with rfl | hd
        · omega
        · have := hbelow d hd
          omega
      rw [mapIdx_rewriteRow_of_forall_ne hpast,
        mapIdx_rewriteRow_of_forall_ne fun d hd => hpast d (List.mem_cons_of_mem _ hd),
        ← List.flatMap_def, show (rows text).flatMap Row.raw = text from unrows_rows text, apply, if_neg hlt]

/-- Of edits for distinct rows the one for a row is the one that counts. -/
theorem rewriteRow_of_mem {edits : List Edit} (h : (edits.map Edit.row).Nodup) {e : Edit} (he : e ∈ edits)
    (r : Row) : rewriteRow edits e.row r = e.rewrite r := by
  have hfind : edits.find? (·.row == e.row) = some e := by
    cases hd : edits.find? (·.row == e.row) with
    | none => simpa using List.find?_eq_none.mp hd e he
    | some d =>
      have hrow : d.row = e.row := by simpa using List.find?_some hd
      rw [List.inj_on_of_nodup_map h (List.mem_of_find?_eq_some hd) he hrow]
  rw [rewriteRow, hfind]

/-- What edits for distinct rows make of a row depends on the edits for that row alone, not on where they stand. -/
theorem rewriteRow_congr {edits edits' : List Edit} (h : (edits.map Edit.row).Nodup)
    (h' : (edits'.map Edit.row).Nodup) {row : Nat} (hmem : ∀ e, e.row = row → (e ∈ edits' ↔ e ∈ edits)) :
    rewriteRow edits' row = rewriteRow edits row := by
  funext r
  by_cases hrow : ∃ e ∈ edits, e.row = row
  · obtain ⟨e, he, rfl⟩ := hrow
    rw [rewriteRow_of_mem h he, rewriteRow_of_mem h' ((hmem e rfl).mpr he)]
  · have hne : ∀ e ∈ edits, e.row ≠ row := fun e he heq => hrow ⟨e, he, heq⟩
    have hne' : ∀ e ∈ edits', e.row ≠ row := fun e he heq => hne e ((hmem e heq).mp he) heq
    rw [rewriteRow_of_forall_ne hne, rewriteRow_of_forall_ne hne']

theorem rewriteRow_of_perm {edits edits' : List Edit} (h : (edits.map Edit.row).Nodup)
    (hperm : edits'.Perm edits) : rewriteRow edits' = rewriteRow edits := by
  funext row
  exact rewriteRow_congr h ((hperm.map Edit.row).nodup_iff.mpr h) fun e _ => hperm.mem_iff

/-- Sorted by their rows, edits for distinct rows come in strict order. -/
theorem pairwise_mergeSort_lt {edits : List Edit} (h : (edits.map Edit.row).Nodup) :
    (edits.mergeSort fun a b => a.row ≤ b.row).Pairwise fun d e => d.row < e.row := by
  have hsorted : (edits.mergeSort fun a b => a.row ≤ b.row).Pairwise fun d e => d.row ≤ e.row :=
    List.pairwise_mergeSort' (fun d e : Edit => d.row ≤ e.row) edits
  have hdistinct : (edits.mergeSort fun a b => a.row ≤ b.row).Pairwise fun d e => d.row ≠ e.row := by
    rw [← List.pairwise_map]
    exact ((List.mergeSort_perm ..).map Edit.row).nodup_iff.mpr h
  exact hsorted.imp₂ (fun _ _ hle hne => Nat.lt_of_le_of_ne hle hne) hdistinct

/-- Edits for distinct rows, in any order, act on each row by itself. -/
theorem applyAll_of_nodup {edits : List Edit} (h : (edits.map Edit.row).Nodup) (text : List Char) :
    applyAll edits text = ((rows text).mapIdx (rewriteRow edits)).flatten := by
  rw [applyAll, foldr_apply (pairwise_mergeSort_lt h), rewriteRow_of_perm h (List.mergeSort_perm ..)]

/-- Edits for distinct rows are replacements of their own rows, each by itself and whatever their order. The new text
is made of one part for every row of the text: the row as it was if no edit is for it, or else what the edit puts in
and the row without as many characters of its content as the edit takes. Edits for rows past the end do nothing. -/
theorem applyAll_row_by_row {edits : List Edit} (h : (edits.map Edit.row).Nodup) (text : List Char) :
    (∃ parts : List (List Char), applyAll edits text = parts.flatten ∧ parts.length = rowCount text ∧
      ∀ row r, (rows text)[row]? = some r →
        ((∀ e ∈ edits, e.row ≠ row) → parts[row]? = some r.raw) ∧
        ∀ e ∈ edits, e.row = row → parts[row]? = some (e.indent ++ r.raw.drop (min e.width r.content.length))) ∧
    applyAll (edits.filter (·.row < rowCount text)) text = applyAll edits text ∧
    ∀ edits', edits'.Perm edits → applyAll edits' text = applyAll edits text := by
  refine ⟨⟨_, applyAll_of_nodup h text, List.length_mapIdx, fun row r hr => ?_⟩, ?_, fun edits' hperm => ?_⟩
  · have hpart : ((rows text).mapIdx (rewriteRow edits))[row]? = some (rewriteRow edits row r) := by
      rw [List.getElem?_mapIdx, hr, Option.map_some]
    rw [hpart]
    refine ⟨fun hne => congrArg some (rewriteRow_of_forall_ne hne r), ?_⟩
    rintro e he rfl
    exact congrArg some (rewriteRow_of_mem h he r)
  · have hkept : ((edits.filter (·.row < rowCount text)).map Edit.row).Nodup :=
      h.sublist ((List.filter_sublist).map Edit.row)
    have hparts : (rows text).mapIdx (rewriteRow (edits.filter (·.row < rowCount text))) =
        (rows text).mapIdx (rewriteRow edits) := by
      apply List.mapIdx_eq_mapIdx_iff.mpr
      intro row hrow
      rw [rewriteRow_congr h hkept]
      rintro e rfl
      simp [rowCount, hrow]
    rw [applyAll_of_nodup hkept, applyAll_of_nodup h, hparts]
  · have h' : (edits'.map Edit.row).Nodup := (hperm.map Edit.row).nodup_iff.mpr h
    rw [applyAll_of_nodup h', applyAll_of_nodup h, rewriteRow_of_perm h hperm]

/-- Three edits out of order: one empties a row between a CR and an LF, one puts in a break, one is past the end. -/
theorem applyAll_row_by_row_unsorted :
    let edits : List Edit := [⟨1, 5, []⟩, ⟨7, 1, ['x']⟩, ⟨0, 1, ['\n', ' ']⟩]
    let text := ['a', '\r', ' ', '\n', 'b']
    (edits.map Edit.row).Nodup ∧ applyAll edits text = ['\n', ' ', '\r', '\n', 'b'] ∧
      applyAll edits.reverse text = ['\n', ' ', '\r', '\n', 'b'] := by
  intro edits text
  have h : (edits.map Edit.row).Nodup := by decide
  have hresult : applyAll edits text = ['\n', ' ', '\r', '\n', 'b'] := (applyAll_of_nodup h text).trans (by decide)
  obtain ⟨-, -, horder⟩ := applyAll_row_by_row h text
  exact ⟨h, hresult, (horder edits.reverse (List.reverse_perm edits)).trans hresult⟩

end Script.Edit

end TabKey
