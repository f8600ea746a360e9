import TabKey.Proofs.Bounds
import TabKey.Proofs.Replacement

namespace TabKey.Text

def PartsCrLf (text : List Char) (i : Nat) : Prop := 0 < i ∧ text[i - 1]? = some '\r' ∧ text[i]? = some '\n'

instance (text : List Char) (i : Nat) : Decidable (PartsCrLf text i) := inferInstanceAs (Decidable (_ ∧ _))

variable {text : List Char} {i : Nat}

/-- The cuts that do not part a CR LF are the seams. -/
theorem seamAt_iff : SeamAt text i ↔ i ≤ text.length ∧ ¬PartsCrLf text i := by
  have hcut (a b : List Char) : PartsCrLf (a ++ b) a.length ↔ ¬Seam a b := by
    rw [PartsCrLf, Seam, List.getElem?_append_right (Nat.le_refl _), Nat.sub_self, ← List.head?_eq_getElem?]
    rcases List.eq_nil_or_concat' a with rfl | ⟨before, c, rfl⟩
    · simp
    · simp
  constructor
  · rintro ⟨a, b, rfl, rfl, hseam⟩
    exact ⟨by simp, fun hparts => (hcut a b).mp hparts hseam⟩
  · rintro ⟨hle, hwhole⟩
    refine ⟨text.take i, text.drop i, (List.take_append_drop i text).symm, List.length_take_of_le hle, ?_⟩
    have hparts := hcut (text.take i) (text.drop i)
    rw [List.take_append_drop, List.length_take_of_le hle] at hparts
    exact not_not.mp fun hseam => hwhole (hparts.mpr hseam)

/-- A place within a row's content is found again from the characters before it. -/
theorem locate_startOf {rs : List Row} (h : Canonical rs) {p : Position} (hp : Within rs p) :
    locate rs (startOf rs p.row + p.col) = p := by
  induction rs generalizing p with
  | nil => exact h.elim
  | cons r rest ih =>
    obtain ⟨row, col⟩ := p
    obtain ⟨s, hs, hcol⟩ := hp
    cases row with
    | zero =>
      obtain rfl : r = s := Option.some.inj hs
      have hcol : col ≤ r.content.length := hcol
      have hfits : (rest.isEmpty || decide (startOf (r :: rest) 0 + col < r.raw.length)) = true := by
        cases rest with
        | nil => rfl
        | cons next rest =>
          obtain ⟨-, ⟨ending, hending, -⟩, -⟩ := h
          have hlt := Row.length_content_lt_raw hending
          have hstart : startOf (r :: next :: rest) 0 = 0 := rfl
          rw [Bool.or_eq_true, decide_eq_true_eq]
          exact .inr (by omega)
      rw [locate, if_pos hfits]
      simp [startOf, unrows]
    | succ row =>
      rw [List.getElem?_cons_succ] at hs
      have hne : rest ≠ [] := by
        rintro rfl
        cases hs
      have hpast : ¬(rest.isEmpty || decide (startOf (r :: rest) (row + 1) + col < r.raw.length)) = true := by
        rw [startOf_cons_succ]
        simp [hne]
        omega
      have hrest := ih ((canonical_cons hne).mp h).2.2 (p := ⟨row, col⟩) ⟨s, hs, hcol⟩
      rw [locate, if_neg hpast, startOf_cons_succ, Nat.add_assoc, Nat.add_sub_cancel_left, hrest]
      rfl

/-- No offset lies further behind a row's content than between the two characters of its break. -/
theorem locate_col_le {rs : List Row} (h : Canonical rs) (hi : i ≤ (unrows rs).length) :
    ∃ r, rs[(locate rs i).row]? = some r ∧ (locate rs i).col ≤ r.content.length + 1 := by
  induction rs generalizing i with
  | nil => exact h.elim
  | cons r rest ih =>
    rw [unrows_cons, List.length_append] at hi
    rw [locate]
    split
    · next hfits =>
      refine ⟨r, rfl, ?_⟩
      cases rest with
      | nil =>
        have hraw : r.raw = r.content := by simp [Row.raw, Row.tail, h.2]
        simp only [hraw, unrows, List.flatMap_nil, List.length_nil] at hi
        exact Nat.le_succ_of_le hi
      | cons next rest =>
        obtain ⟨-, ⟨ending, hending, -⟩, -⟩ := h
        have hlt : i < r.raw.length := by simpa using hfits
        have hbreak : ending.text.length ≤ 2 := by cases ending <;> decide
        rw [Row.raw, Row.tail, hending, List.length_append] at hlt
        simp only [Option.map_some, Option.getD_some] at hlt
        exact (by omega : i ≤ r.content.length + 1)
    · next hpast =>
      rw [Bool.or_eq_true, not_or, decide_eq_true_eq, Nat.not_lt] at hpast
      have hne : rest ≠ [] := fun hnil => hpast.1 (List.isEmpty_iff.mpr hnil)
      obtain ⟨s, hs, hcol⟩ := ih ((canonical_cons hne).mp h).2.2 (i := i - r.raw.length) (by omega)
      exact ⟨s, by rw [Position.below, List.getElem?_cons_succ]; exact hs, hcol⟩

theorem positionAt_offsetOf (text : List Char) (p : Position) :
    positionAt text (offsetOf text p) = clamp text p :=
  locate_startOf (canonical_rows text) (inBounds_iff.mp (inBounds_clamp text p))

/-- Back from its position an offset is at most one too low. -/
theorem offsetOf_positionAt_bounds (hi : i ≤ text.length) :
    offsetOf text (positionAt text i) ≤ i ∧ i ≤ offsetOf text (positionAt text i) + 1 := by
  have hlength : (unrows (rows text)).length = text.length := by rw [unrows_rows]
  obtain ⟨r, hr, hcol⟩ := locate_col_le (canonical_rows text) (hlength ▸ hi)
  have hindex := charIndex_positionAt text i
  have hrow : min (positionAt text i).row (rowCount text - 1) = (positionAt text i).row :=
    Nat.min_eq_left (Nat.le_sub_one_of_lt (List.getElem?_eq_some_iff.mp hr).1)
  have hcontent : rowContent text (positionAt text i).row = r.content := by
    rw [rowContent, positionAt, hr]
    rfl
  have hcol : (positionAt text i).col ≤ r.content.length + 1 := hcol
  rw [charIndex] at hindex
  simp only [offsetOf, clamp, hrow, hcontent]
  omega

theorem offsetOf_positionAt (hi : i ≤ text.length) :
    offsetOf text (positionAt text i) = if PartsCrLf text i then i - 1 else i := by
  split
  · next hparts =>
    have hbounds := offsetOf_positionAt_bounds hi
    have hne : offsetOf text (positionAt text i) ≠ i := by
      intro heq
      have hseam := seamAt_offsetOf text (positionAt text i)
      rw [heq] at hseam
      exact (seamAt_iff.mp hseam).2 hparts
    omega
  · next hwhole =>
    have hbounds := inBounds_positionAt (seamAt_iff.mpr ⟨hi, hwhole⟩)
    rw [offsetOf, clamp_of_inBounds hbounds]
    exact charIndex_positionAt text i

/-- Offsets and positions of a text correspond. From the offset of a position comes the position that it is clamped
to, which exists and is the position itself if that exists; offsets of existing positions are in their order; and
from the position of an offset comes the offset, or the one before it if it parts a CR LF. -/
theorem offsets_correspond (text : List Char) :
    (∀ p, offsetOf text p ≤ text.length ∧ positionAt text (offsetOf text p) = clamp text p ∧
      InBounds text (clamp text p) ∧ (InBounds text p → clamp text p = p)) ∧
    (∀ p q, InBounds text p → InBounds text q → (offsetOf text p < offsetOf text q ↔ p < q)) ∧
    ∀ i ≤ text.length, offsetOf text (positionAt text i) = if PartsCrLf text i then i - 1 else i := by
  refine ⟨fun p => ⟨offsetOf_le_length text p, positionAt_offsetOf text p, inBounds_clamp text p,
    clamp_of_inBounds⟩, fun p q hp hq => ⟨fun hlt => ?_, offsetOf_lt_offsetOf hp hq⟩,
    fun i hi => offsetOf_positionAt hi⟩
  by_contra hnot
  rcases Position.lt_or_eq_of_le (Position.le_of_not_lt hnot) with hqp | rfl
  · exact Nat.lt_asymm hlt (offsetOf_lt_offsetOf hq hp hqp)
  · exact Nat.lt_irrefl _ hlt

/-- The offset within the CR LF of the first row, and the places before and after that CR LF. -/
theorem offsets_correspond_crlf :
    let text := ['a', '\r', '\n', '\r', '\u2028']
    PartsCrLf text 2 ∧ offsetOf text (positionAt text 2) = 1 ∧ positionAt text 2 = ⟨0, 2⟩ ∧
      InBounds text ⟨0, 1⟩ ∧ InBounds text ⟨1, 0⟩ ∧ offsetOf text ⟨0, 1⟩ < offsetOf text ⟨1, 0⟩ := by
  intro text
  have hparts : PartsCrLf text 2 := by decide
  have hend : InBounds text ⟨0, 1⟩ := by decide
  have hnext : InBounds text ⟨1, 0⟩ := by decide
  obtain ⟨-, horder, hback⟩ := offsets_correspond text
  have hoffset := hback 2 (by decide)
  rw [if_pos hparts] at hoffset
  exact ⟨hparts, hoffset, by decide, hend, hnext, (horder _ _ hend hnext).mpr (by decide)⟩

end TabKey.Text
