import TabKey.Proofs.Enclosure.Local
import TabKey.Proofs.Enclosure.Sound

/-! What a window leaves out. It keeps the pair that the search without a limit finds if both ends lie within it, and
otherwise finds nothing: it never makes the search settle for another pair. -/
namespace TabKey.Enclosure

def openerUp (doc : Document) : (depth row : Nat) → Option (Delimiter × Position)
  | _, 0 => none
  | depth, row + 1 =>
    match openerBefore false depth 0 (doc.glyphs row).reverse with
    | .hit (d, col) => some (d, ⟨row, col⟩)
    | .past depth => openerUp doc depth row

def closerDown (d : Delimiter) : (depth row : Nat) → List (List Char) → Option Position
  | _, _, [] => none
  | depth, row, line :: below =>
    match closerAfter d depth 0 0 (Text.glyphs line) with
    | .hit col => some ⟨row, col⟩
    | .past depth => closerDown d depth (row + 1) below

def farOpener? (doc : Document) (caret : Position) : Option (Delimiter × Position) :=
  match openerBefore true 0 0 ((doc.glyphs caret.row).take caret.col).reverse with
  | .hit (d, col) => some (d, ⟨caret.row, col⟩)
  | .past depth => openerUp doc depth caret.row

def farCloser? (doc : Document) (d : Delimiter) (caret : Position) : Option Position :=
  let col := min caret.col (doc.line caret.row).length
  let after := (doc.glyphs caret.row).drop col
  match d.kind with
  | .string => (Token.first? d.closer after).map fun n => ⟨caret.row, col + n + d.closer.length⟩
  | .structural =>
    match closerAfter d 0 0 col after with
    | .hit col => some ⟨caret.row, col⟩
    | .past depth => closerDown d depth (caret.row + 1) (doc.lines.drop (caret.row + 1))

def unlimited? (doc : Document) (caret : Position) : Option Enclosure :=
  match farOpener? doc caret with
  | none => none
  | some (d, opened) => (farCloser? doc d caret).map fun closed => ⟨opened, closed, d.kind⟩

section
variable {doc : Document} {d : Delimiter} {caret : Position}

theorem row_lt_of_openerUp {depth row : Nat} {found : Delimiter × Position}
    (h : openerUp doc depth row = some found) : found.2.row < row := by
  fun_induction openerUp doc depth row with
  | case1 => cases h
  | case2 depth row d col _ =>
    cases h
    exact Nat.lt_succ_self row
  | case3 depth row k _ ih => exact Nat.lt_succ_of_lt (ih h)

theorem le_row_of_closerDown {depth row : Nat} {lines : List (List Char)} {closed : Position}
    (h : closerDown d depth row lines = some closed) : row ≤ closed.row := by
  fun_induction closerDown d depth row lines with
  | case1 => cases h
  | case2 depth row line below col _ =>
    cases h
    exact Nat.le_refl row
  | case3 depth row line below k _ ih => exact Nat.le_of_succ_le (ih h)

/-- Of the rows above, a window sees the nearest ones. -/
theorem openerAbove_eq_filter (window depth row : Nat) :
    openerAbove doc window depth row = (openerUp doc depth row).filter fun found => row ≤ found.2.row + window := by
  induction row generalizing window depth with
  | zero => cases window <;> rfl
  | succ row ih =>
    cases window with
    | zero =>
      symm
      rw [openerAbove, Option.filter_eq_none_iff]
      intro found hfound
      have hlt := row_lt_of_openerUp hfound
      simpa using hlt
    | succ window =>
      rw [openerAbove, openerUp]
      cases openerBefore false depth 0 (doc.glyphs row).reverse with
      | hit found => simp [Option.filter]
      | past k =>
        simp only [ih, ← Nat.add_assoc, Nat.add_le_add_iff_right]

/-- Of the rows below, a window sees the nearest ones. -/
theorem closerBelow_eq_filter (window depth row : Nat) :
    closerBelow doc d window depth row =
      (closerDown d depth row (doc.lines.drop row)).filter fun closed => closed.row < row + window := by
  induction window generalizing depth row with
  | zero =>
    symm
    rw [closerBelow, Option.filter_eq_none_iff]
    intro closed hclosed
    have hle := le_row_of_closerDown hclosed
    simpa using hle
  | succ window ih =>
    by_cases hrow : row < doc.lineCount
    · have hline : doc.glyphs row = Text.glyphs doc.lines[row] := by
        rw [Document.glyphs, Document.line, List.getElem?_eq_getElem hrow]
        rfl
      rw [closerBelow, hline, List.drop_eq_getElem_cons hrow, closerDown]
      cases closerAfter d depth 0 0 (Text.glyphs doc.lines[row]) with
      | hit col => simp [Option.filter]
      | past k =>
        have hreach : row + 1 + window = row + (window + 1) := by omega
        simp only [ih, hreach]
    · have hle : doc.lineCount ≤ row := Nat.le_of_not_lt hrow
      rw [closerBelow_lineCount, Nat.sub_eq_zero_of_le hle, Nat.min_zero, List.drop_of_length_le hle]
      rfl

theorem opener?_eq_filter (window : Nat) :
    opener? doc window caret = (farOpener? doc caret).filter fun found => caret.row ≤ found.2.row + window := by
  rw [opener?, farOpener?]
  cases openerBefore true 0 0 ((doc.glyphs caret.row).take caret.col).reverse with
  | hit found => simp [Option.filter]
  | past depth => exact openerAbove_eq_filter window depth caret.row

theorem closer?_eq_filter (window : Nat) :
    closer? doc d window caret = (farCloser? doc d caret).filter fun closed => closed.row ≤ caret.row + window := by
  rw [closer?, farCloser?]
  cases d.kind with
  | string =>
    simp only
    cases Token.first? d.closer
      ((doc.glyphs caret.row).drop (min caret.col (doc.line caret.row).length)) <;> simp [Option.filter]
  | structural =>
    simp only
    cases closerAfter d 0 0 (min caret.col (doc.line caret.row).length)
        ((doc.glyphs caret.row).drop (min caret.col (doc.line caret.row).length)) with
    | hit col => simp [Option.filter]
    | past depth =>
      have hreach : caret.row + 1 + window = caret.row + window + 1 := by omega
      simp only [closerBelow_eq_filter, hreach, Nat.lt_succ_iff]

theorem within?_eq_filter (window : Nat) :
    within? doc window caret = (unlimited? doc caret).filter fun e =>
      caret.row - window ≤ e.opened.row ∧ e.closed.row ≤ caret.row + window := by
  rw [within?, unlimited?, opener?_eq_filter]
  cases farOpener? doc caret with
  | none => rfl
  | some found =>
    by_cases hopened : caret.row ≤ found.2.row + window
    · -- With the opener in the window, only the closer decides.
      simp only [Option.filter, hopened, decide_true, if_true, closer?_eq_filter]
      cases farCloser? doc found.1 caret with
      | none => rfl
      | some closed =>
        by_cases hclosed : closed.row ≤ caret.row + window
        · simp [hopened, hclosed]
        · simp [hclosed]
    · have hnot : ¬caret.row - window ≤ found.2.row := by omega
      simp only [Option.filter, hopened, decide_false, Bool.false_eq_true, if_false]
      cases farCloser? doc found.1 caret with
      | none => rfl
      | some closed => simp [hnot]

end

/-- A window only cuts off: the pair found is the one that the search without a limit finds, if both of its ends lie in
the window, and else there is none. So a wider window keeps whatever a narrower one finds. -/
theorem find?_eq_filter_unlimited? (doc : Document) (window : Nat) (caret : Position) :
    find? doc window caret =
        (unlimited? doc caret).filter (fun e =>
          caret.row - min window 50 ≤ e.opened.row ∧ e.closed.row ≤ caret.row + min window 50) ∧
      ∀ wider, window ≤ wider → ∀ e, find? doc window caret = some e → find? doc wider caret = some e := by
  have hwindow (n : Nat) : find? doc n caret = (unlimited? doc caret).filter fun e =>
      caret.row - min n 50 ≤ e.opened.row ∧ e.closed.row ≤ caret.row + min n 50 := within?_eq_filter (min n 50)
  refine ⟨hwindow window, fun wider hwider e he => ?_⟩
  rw [hwindow, Option.filter_eq_some_iff, decide_eq_true_iff] at he ⊢
  obtain ⟨hfound, hopened, hclosed⟩ := he
  exact ⟨hfound, by omega, by omega⟩

/-- Ends six rows apart, found in a window of six rows and not in one of five. -/
example :
    let doc : Document := ⟨[['['], ['('], [], [], [], [], [], [')', ']']]⟩
    find? doc 6 ⟨7, 0⟩ = some ⟨⟨1, 0⟩, ⟨7, 1⟩, .structural⟩ ∧ find? doc 5 ⟨7, 0⟩ = none := by decide

end TabKey.Enclosure
