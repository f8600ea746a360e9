import TabKey.Proofs.Rows
import TabKey.Selection

namespace TabKey

namespace Text

def InBounds (text : List Char) (p : Position) : Prop :=
  p.row < rowCount text ∧ p.col ≤ (rowContent text p.row).length

instance (text : List Char) (p : Position) : Decidable (InBounds text p) := inferInstanceAs (Decidable (_ ∧ _))

def Within (rs : List Row) (p : Position) : Prop := ∃ r, rs[p.row]? = some r ∧ p.col ≤ r.content.length

theorem inBounds_iff {text : List Char} {p : Position} : InBounds text p ↔ Within (rows text) p := by
  constructor
  · rintro ⟨hrow, hcol⟩
    have hget : (rows text)[p.row]? = some (rows text)[p.row] := List.getElem?_eq_getElem hrow
    rw [rowContent, hget] at hcol
    exact ⟨_, hget, hcol⟩
  · rintro ⟨r, hget, hcol⟩
    refine ⟨(List.getElem?_eq_some_iff.mp hget).1, ?_⟩
    rw [rowContent, hget]
    exact hcol

theorem inBounds_clamp (text : List Char) (p : Position) : InBounds text (clamp text p) :=
  ⟨clamp_row_lt text p, Nat.min_le_right _ _⟩

theorem clamp_of_inBounds {text : List Char} {p : Position} (h : InBounds text p) : clamp text p = p := by
  have hrow : min p.row (rowCount text - 1) = p.row := Nat.min_eq_left (Nat.le_sub_one_of_lt h.1)
  simp only [clamp, hrow, Nat.min_eq_left h.2]

private theorem within_below {r : Row} {rs : List Row} {p : Position} :
    Within (r :: rs) p.below ↔ Within rs p := by
  rw [Within, Within, Position.below, List.getElem?_cons_succ]

private theorem within_locate_join {as bs : List Row} (ha : Canonical as) (hb : Canonical bs) :
    Within (join as bs) (locate (join as bs) (unrows as).length) := by
  induction as with
  | nil => exact ha.elim
  | cons r as ih =>
    cases as with
    | nil =>
      -- The cut falls within the row that the two parts share.
      cases bs with
      | nil => exact hb.elim
      | cons b rest =>
        have hlength : (unrows [r]).length = r.content.length := by
          simp [unrows, Row.raw, Row.tail, ha.2]
        have hfits : (rest.isEmpty || decide (r.content.length <
            (⟨r.content ++ b.content, b.ending⟩ : Row).raw.length)) = true := by
          cases rest with
          | nil => rfl
          | cons next rest =>
            obtain ⟨-, ⟨ending, hending, -⟩, -⟩ := hb
            have hpos : 0 < ending.text.length := by cases ending <;> decide
            rw [Bool.or_eq_true, decide_eq_true_eq, Row.raw, Row.tail, hending, Option.map_some,
              Option.getD_some, List.length_append, List.length_append]
            exact .inr (by omega)
        rw [hlength, join, locate, if_pos hfits]
        exact ⟨_, rfl, by simp⟩
    | cons next rest =>
      have hne : join (next :: rest) bs ≠ [] := by
        cases rest <;> cases bs <;> simp [join]
      have hpast : ¬((join (next :: rest) bs).isEmpty ||
          decide ((unrows (r :: next :: rest)).length < r.raw.length)) = true := by
        simp [hne, unrows_cons]
      rw [join_cons bs (List.cons_ne_nil _ _), locate, if_neg hpast, within_below, unrows_cons,
        List.length_append, Nat.add_sub_cancel_left]
      exact ih ha.2.2

/-- The offset cuts the text in two, not within a CR LF. -/
def SeamAt (text : List Char) (i : Nat) : Prop := ∃ a b, text = a ++ b ∧ a.length = i ∧ Seam a b

/-- At a seam there is a position. -/
theorem inBounds_positionAt {text : List Char} {i : Nat} (h : SeamAt text i) :
    InBounds text (positionAt text i) := by
  obtain ⟨a, b, rfl, rfl, hseam⟩ := h
  rw [inBounds_iff, positionAt, rows_append hseam]
  have hwithin := within_locate_join (canonical_rows a) (canonical_rows b)
  rwa [unrows_rows] at hwithin

/-- After characters that break no line there is a seam. -/
theorem Unbroken.seam_append {cs : List Char} (h : Unbroken cs) (hne : cs ≠ []) (a b : List Char) :
    Seam (a ++ cs) b := by
  intro hlast
  rw [List.getLast?_append, List.getLast?_eq_some_getLast hne, Option.some_or,
    ← List.getLast?_eq_some_getLast hne] at hlast
  cases h '\r' (List.mem_of_getLast? hlast)

theorem Seam.of_append {a b c : List Char} (h : Seam (a ++ b) c) : Seam b c := by
  intro hlast
  apply h
  rw [List.getLast?_append, hlast]
  rfl

theorem SeamAt.of_append {a b : List Char} {i : Nat} (h : SeamAt (a ++ b) (a.length + i)) :
    SeamAt b i := by
  obtain ⟨c, d, hsplit, hlength, hseam⟩ := h
  obtain ⟨e, rfl, rfl⟩ : ∃ e, c = a ++ e ∧ b = e ++ d := by
    rcases List.append_eq_append_iff.mp hsplit with ⟨e, hc, hb⟩ | ⟨e, ha, hd⟩
    · exact ⟨e, hc, hb⟩
    · rw [ha, List.length_append] at hlength
      obtain rfl : e = [] := List.length_eq_zero_iff.mp (by omega)
      exact ⟨[], by simp [ha], hd.symm⟩
  rw [List.length_append] at hlength
  exact ⟨e, d, rfl, by omega, hseam.of_append⟩

/-- The offset of a position is a seam. -/
theorem seamAt_offsetOf (text : List Char) (p : Position) : SeamAt text (offsetOf text p) := by
  obtain ⟨r, hr, hcol⟩ := inBounds_iff.mp (inBounds_clamp text p)
  obtain ⟨pre, post, hrows, -, hstart, htext⟩ := exists_rows_split hr
  have hcanonical : Canonical (pre ++ r :: post) := hrows ▸ canonical_rows text
  refine ⟨unrows pre ++ r.content.take (clamp text p).col,
    r.content.drop (clamp text p).col ++ (r.tail ++ unrows post), ?_, ?_, ?_⟩
  · rw [List.append_assoc, ← List.append_assoc (r.content.take _), List.take_append_drop,
      ← List.append_assoc r.content]
    exact htext
  · rw [List.length_append, List.length_take_of_le hcol, offsetOf, hstart]
  · cases htake : r.content.take (clamp text p).col with
    | nil =>
      have hdrop := List.take_append_drop (clamp text p).col r.content
      rw [htake, List.nil_append] at hdrop
      have hseam := hcanonical.seam (List.cons_ne_nil r post)
      rw [unrows_cons, Row.raw, List.append_assoc] at hseam
      rwa [hdrop, List.append_nil]
    | cons c cs =>
      have hunbroken : Unbroken (c :: cs) := by
        rw [← htake]
        exact (hcanonical.unbroken (show r ∈ pre ++ r :: post by simp)).of_subset (List.take_subset _ _)
      exact hunbroken.seam_append (List.cons_ne_nil c cs) _ _

theorem offsetOf_le_length (text : List Char) (p : Position) : offsetOf text p ≤ text.length := by
  obtain ⟨a, b, htext, hlength, -⟩ := seamAt_offsetOf text p
  rw [← hlength, htext, List.length_append]
  exact Nat.le_add_right _ _

/-- A row starts past the content of every row above it. -/
theorem rowStart_add_length_lt {text : List Char} {row below : Nat} (hlt : row < below)
    (hbelow : below < rowCount text) :
    rowStart text row + (rowContent text row).length < rowStart text below := by
  have hrow : row < (rows text).length := Nat.lt_trans hlt hbelow
  obtain ⟨r, hget⟩ : ∃ r, (rows text)[row]? = some r := ⟨_, List.getElem?_eq_getElem hrow⟩
  have hcontent : rowContent text row = r.content := by
    rw [rowContent, hget]
    rfl
  obtain ⟨pre, post, hrows, hlen, hstart, -⟩ := exists_rows_split hget
  have hpost : post ≠ [] := by
    rintro rfl
    rw [rowCount, hrows, List.length_append, List.length_singleton, hlen] at hbelow
    omega
  have hcanonical : Canonical (pre ++ r :: post) := hrows ▸ canonical_rows text
  obtain ⟨-, ⟨ending, hending, -⟩, -⟩ :=
    (canonical_cons hpost).mp (hcanonical.of_append (List.cons_ne_nil r post))
  have hraw := Row.length_content_lt_raw hending
  have htake : (rows text).take below = pre ++ r :: post.take (below - row - 1) := by
    obtain ⟨n, rfl⟩ := Nat.exists_eq_add_of_lt hlt
    rw [hrows, Nat.add_assoc, ← hlen, List.take_length_add_append, List.take_succ_cons]
    congr 3
    omega
  have hstart' : rowStart text below = (unrows pre).length + (r.raw.length +
      (unrows (post.take (below - row - 1))).length) := by
    rw [rowStart, startOf, htake, unrows_append, unrows_cons, List.length_append, List.length_append]
  rw [hcontent, hstart, hstart']
  omega

/-- Offsets keep the order of the positions of a text. -/
theorem offsetOf_lt_offsetOf {text : List Char} {p q : Position} (hp : InBounds text p)
    (hq : InBounds text q) (h : p < q) : offsetOf text p < offsetOf text q := by
  rw [offsetOf, offsetOf, clamp_of_inBounds hp, clamp_of_inBounds hq]
  rcases h with hrow | ⟨hrow, hcol⟩
  · have hstart := rowStart_add_length_lt hrow hq.1
    have hcol := hp.2
    omega
  · rw [hrow]
    omega

end Text

namespace Selection

def InBounds (sel : Selection) (text : List Char) : Prop :=
  ∀ s ∈ sel.spans, Text.InBounds text s.anchor ∧ Text.InBounds text s.head

instance (sel : Selection) (text : List Char) : Decidable (sel.InBounds text) :=
  inferInstanceAs (Decidable (∀ s ∈ sel.spans, _))

theorem InBounds.map {sel : Selection} {old new : List Char} {f : Position → Position}
    (h : sel.InBounds old) (hf : ∀ p, Text.InBounds old p → Text.InBounds new (f p)) :
    (sel.map (·.map f)).InBounds new := by
  intro s hs
  obtain ⟨t, ht, rfl⟩ := mem_spans_map.mp hs
  exact ⟨hf _ (h t ht).1, hf _ (h t ht).2⟩

end Selection

end TabKey
