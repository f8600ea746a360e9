import Mathlib.Data.List.Nodup
import Mathlib.Data.List.Sort
import TabKey.Proofs.Bounds
import TabKey.Proofs.Insertion
import TabKey.Proofs.Splicing

namespace TabKey

namespace Text

/-- The offset of a position that need not be clamped, such as one between a carriage return and its line feed. -/
def charIndex (text : List Char) (p : Position) : Nat := rowStart text p.row + p.col

theorem startOf_cons_succ (r : Row) (rs : List Row) (row : Nat) :
    startOf (r :: rs) (row + 1) = r.raw.length + startOf rs row := by
  rw [startOf, List.take_succ_cons, unrows_cons, List.length_append]
  rfl

theorem startOf_locate (rs : List Row) (i : Nat) :
    startOf rs (locate rs i).row + (locate rs i).col = i := by
  induction rs generalizing i with
  | nil => exact Nat.zero_add i
  | cons r rest ih =>
    rw [locate]
    split
    · exact Nat.zero_add i
    · next hpast =>
      have hle : r.raw.length ≤ i := by
        rw [Bool.or_eq_true, not_or, decide_eq_true_eq, Nat.not_lt] at hpast
        exact hpast.2
      have hrest := ih (i - r.raw.length)
      simp only [Position.below, startOf_cons_succ]
      omega

theorem charIndex_positionAt (text : List Char) (i : Nat) : charIndex text (positionAt text i) = i :=
  startOf_locate (rows text) i

end Text

namespace Buffer

namespace Stretch

def reach (s : Stretch) : Nat := max s.start s.stop

def covers (s : Stretch) (i : Nat) : Bool := s.start ≤ i && i < s.reach

def precedes (t s : Stretch) : Bool := le t s && t != s

def furthest (reached : Nat) (ss : List Stretch) : Nat := ss.foldl (fun r s => max r s.reach) reached

theorem furthest_of_perm {ss ts : List Stretch} (h : ss.Perm ts) (reached : Nat) :
    furthest reached ss = furthest reached ts := by
  refine h.foldl_eq' (fun s _ t _ r => ?_) reached
  omega

theorem trim_append (reached : Nat) (pre post : List Stretch) :
    trim reached (pre ++ post) = trim reached pre ++ trim (furthest reached pre) post := by
  induction pre generalizing reached with
  | nil => rfl
  | cons s pre ih =>
    have hreached : max s.stop (max s.start reached) = max reached s.reach := by
      rw [reach]
      omega
    rw [List.cons_append, trim, trim, ih, hreached]
    rfl

theorem map_index_trim (reached : Nat) (ss : List Stretch) :
    (trim reached ss).map Stretch.index = ss.map Stretch.index := by
  induction ss generalizing reached with
  | nil => rfl
  | cons s rest ih => rw [trim, List.map_cons, List.map_cons, ih]

theorem le_antisymm {s t : Stretch} (hst : le s t) (hts : le t s) : s = t := by
  rw [le_iff] at hst hts
  obtain ⟨start, stop, index⟩ := s
  obtain ⟨start', stop', index'⟩ := t
  simp only [mk.injEq]
  simp only at hst hts
  omega

/-- Sorted and trimmed, the stretches come one after another. -/
theorem inTurn_trim {length reached : Nat} {ss : List Stretch}
    (h : ∀ s ∈ ss, s.start ≤ length ∧ s.stop ≤ length) (hreached : reached ≤ length) :
    Text.InTurn length reached ((trim reached ss).map cut) := by
  induction ss generalizing reached with
  | nil => exact hreached
  | cons s rest ih =>
    have hs := h s List.mem_cons_self
    have hstop : max s.stop (max s.start reached) ≤ length :=
      Nat.max_le.mpr ⟨hs.2, Nat.max_le.mpr ⟨hs.1, hreached⟩⟩
    exact ⟨Nat.le_max_right _ _, Nat.le_max_right _ _, ih (fun t ht => h t (List.mem_cons_of_mem _ ht)) hstop⟩

/-- Trimming takes from a stretch only what the ones before it have taken. -/
theorem isCut_trim {ss : List Stretch} (h : ss.Pairwise fun s t => s.start ≤ t.start) (reached i : Nat) :
    Text.isCut ((trim reached ss).map cut) i = (reached ≤ i && ss.any (·.covers i)) := by
  induction ss generalizing reached with
  | nil => exact (Bool.and_false _).symm
  | cons s rest ih =>
    obtain ⟨hle, hrest⟩ := List.pairwise_cons.mp h
    have hstart : rest.any (·.covers i) = true → s.start ≤ i := by
      intro hany
      obtain ⟨t, ht, hcovers⟩ := List.any_eq_true.mp hany
      have := hle t ht
      simp only [covers, Bool.and_eq_true, decide_eq_true_eq] at hcovers
      omega
    have hcons : Text.isCut ((trim reached (s :: rest)).map cut) i =
        ((max s.start reached ≤ i && i < max s.stop (max s.start reached)) ||
          Text.isCut ((trim (max s.stop (max s.start reached)) rest).map cut) i) := rfl
    rw [hcons, ih hrest, List.any_cons, Bool.eq_iff_iff]
    generalize rest.any (·.covers i) = later at hstart ⊢
    rw [covers, reach]
    simp only [Bool.or_eq_true, Bool.and_eq_true, decide_eq_true_eq]
    cases later with
    | false =>
      simp only [Bool.false_eq_true, and_false, or_false]
      omega
    | true =>
      have := hstart rfl
      simp only [and_true, or_true]
      omega

end Stretch

section
variable (b : Buffer)

def marks : List Stretch :=
  b.selection.spans.zipIdx.map fun (s, i) => ⟨Text.offsetOf b.text s.first, Text.offsetOf b.text s.last, i⟩

/-- Where the unit for a span goes: at its start, or where the spans before it reach if that is further. -/
def place (s : Stretch) : Nat := max s.start (Stretch.furthest 0 (b.marks.filter (·.precedes s)))

/-- What stands for the character at an offset: the units that go there, and the character unless some span
selects it. -/
def replacedAt (i : Nat) : List Char :=
  Text.copies ((b.marks.map b.place).count i) b.indent.unit ++
    if b.marks.any (·.covers i) then [] else b.text[i]?.toList

def throughUnit (s : Stretch) : List Char :=
  (List.range (b.place s)).flatMap b.replacedAt ++
    Text.copies (((b.marks.filter (·.precedes s)).map b.place).count (b.place s) + 1) b.indent.unit

def sortedMarks : List Stretch := b.marks.mergeSort Stretch.le

end

section
variable {b : Buffer} {pre post : List Stretch} {s : Stretch}

theorem stretches_eq (b : Buffer) : b.stretches = Stretch.trim 0 b.sortedMarks := rfl

theorem sortedMarks_perm (b : Buffer) : b.sortedMarks.Perm b.marks := List.mergeSort_perm _ _

theorem pairwise_sortedMarks (b : Buffer) : b.sortedMarks.Pairwise (Stretch.le · ·) :=
  Stretch.pairwise_mergeSort_le b.marks

theorem pairwise_index_marks (b : Buffer) : b.marks.Pairwise (·.index < ·.index) := by
  have hindices : b.marks.map Stretch.index = List.range' 0 b.selection.spans.length := by
    rw [marks, List.map_map, ← List.zipIdx_map_snd 0 b.selection.spans]
    rfl
  rw [← List.pairwise_map (f := Stretch.index), hindices]
  exact List.pairwise_lt_range'

theorem nodup_sortedMarks (b : Buffer) : b.sortedMarks.Nodup := by
  refine b.sortedMarks_perm.nodup_iff.mpr (b.pairwise_index_marks.imp fun h hst => ?_)
  rw [hst] at h
  exact Nat.lt_irrefl _ h

/-- The spans before one of them are those that are sorted before it. -/
theorem filter_precedes (h : b.sortedMarks = pre ++ s :: post) :
    b.sortedMarks.filter (·.precedes s) = pre := by
  have hsorted := b.pairwise_sortedMarks
  have hnodup := b.nodup_sortedMarks
  rw [h] at hsorted hnodup ⊢
  obtain ⟨-, hsorted, hpre⟩ := List.pairwise_append.mp hsorted
  obtain ⟨-, hnodup, hdisjoint⟩ := List.nodup_append.mp hnodup
  have hbefore : pre.filter (·.precedes s) = pre := by
    refine List.filter_eq_self.mpr fun t ht => ?_
    rw [Stretch.precedes, hpre t ht s List.mem_cons_self, Bool.true_and, bne_iff_ne]
    exact hdisjoint t ht s List.mem_cons_self
  have hafter : (s :: post).filter (·.precedes s) = [] := by
    refine List.filter_eq_nil_iff.mpr fun t ht hprecedes => ?_
    rw [Stretch.precedes, Bool.and_eq_true, bne_iff_ne] at hprecedes
    rcases List.mem_cons.mp ht with rfl | ht
    · exact hprecedes.2 rfl
    · exact hprecedes.2 (Stretch.le_antisymm hprecedes.1 (List.rel_of_pairwise_cons hsorted ht))
  rw [List.filter_append, hbefore, hafter, List.append_nil]

theorem place_of_split (h : b.sortedMarks = pre ++ s :: post) :
    b.place s = max s.start (Stretch.furthest 0 pre) := by
  have hperm := b.sortedMarks_perm.symm.filter (·.precedes s)
  rw [place, Stretch.furthest_of_perm hperm, filter_precedes h]

/-- The trimmed stretches start where the units go. -/
theorem map_start_trim {mid : List Stretch} (h : b.sortedMarks = pre ++ (mid ++ post)) :
    (Stretch.trim (Stretch.furthest 0 pre) mid).map Stretch.start = mid.map b.place := by
  induction mid generalizing pre with
  | nil => rfl
  | cons s mid ih =>
    have hreached : max s.stop (max s.start (Stretch.furthest 0 pre)) = Stretch.furthest 0 (pre ++ [s]) := by
      rw [Stretch.furthest, Stretch.furthest, List.foldl_append, List.foldl_cons, List.foldl_nil, Stretch.reach]
      omega
    rw [List.cons_append] at h
    have hrest : b.sortedMarks = (pre ++ [s]) ++ (mid ++ post) := by rw [h, List.append_assoc]; rfl
    rw [Stretch.trim, List.map_cons, List.map_cons, hreached, ih hrest, place_of_split h]

theorem cuts_eq (b : Buffer) : b.cuts = (Stretch.trim 0 b.sortedMarks).map Stretch.cut := rfl

theorem inTurn_cuts (b : Buffer) : Text.InTurn b.text.length 0 b.cuts := by
  refine Stretch.inTurn_trim (fun s hs => ?_) (Nat.zero_le _)
  obtain ⟨⟨span, i⟩, -, rfl⟩ := List.mem_map.mp (b.sortedMarks_perm.mem_iff.mp hs)
  exact ⟨Text.offsetOf_le_length .., Text.offsetOf_le_length ..⟩

/-- What is written for an offset depends on the spans as they stand. -/
theorem writtenAt_cuts (b : Buffer) (i : Nat) :
    Text.writtenAt b.indent.unit b.cuts b.text i = b.replacedAt i := by
  have hstarts : b.cuts.map Prod.fst = b.sortedMarks.map b.place := by
    have hwhole : b.sortedMarks = [] ++ (b.sortedMarks ++ []) := (List.append_nil _).symm
    rw [cuts_eq, List.map_map]
    exact map_start_trim hwhole
  have hcount : (b.cuts.map Prod.fst).count i = (b.marks.map b.place).count i := by
    rw [hstarts]
    exact (b.sortedMarks_perm.map b.place).count_eq i
  have hcut : Text.isCut b.cuts i = b.marks.any (·.covers i) := by
    have hstart : b.sortedMarks.Pairwise fun s t => s.start ≤ t.start := by
      refine b.pairwise_sortedMarks.imp fun hle => ?_
      rw [Stretch.le_iff] at hle
      omega
    rw [cuts_eq, Stretch.isCut_trim hstart, decide_eq_true (Nat.zero_le i), Bool.true_and]
    exact b.sortedMarks_perm.any_eq
  rw [Text.writtenAt, replacedAt, hcount, hcut]

theorem writtenFrom_cuts (b : Buffer) (stop : Nat) :
    Text.writtenFrom b.indent.unit b.cuts b.text 0 stop = (List.range stop).flatMap b.replacedAt := by
  rw [Text.writtenFrom, List.range_eq_range', Nat.sub_zero]
  exact List.flatMap_congr fun i _ => b.writtenAt_cuts i

/-- There is a cut for each span, which starts where its unit goes, behind those of the spans before it. -/
theorem exists_cuts_split (h : b.sortedMarks = pre ++ s :: post) :
    ∃ before stop after, b.cuts = before ++ (b.place s, stop) :: after ∧ before.length = pre.length ∧
      (before.map Prod.fst).Perm ((b.marks.filter (·.precedes s)).map b.place) := by
  have hcuts : b.cuts = (Stretch.trim 0 pre).map Stretch.cut ++
      (Stretch.trim (Stretch.furthest 0 pre) (s :: post)).map Stretch.cut := by
    rw [cuts_eq, h, Stretch.trim_append, List.map_append]
  rw [Stretch.trim, ← place_of_split h] at hcuts
  refine ⟨(Stretch.trim 0 pre).map Stretch.cut, _, _, hcuts, by simp, ?_⟩
  have hstarts : ((Stretch.trim 0 pre).map Stretch.cut).map Prod.fst = pre.map b.place := by
    have hwhole : b.sortedMarks = [] ++ (pre ++ s :: post) := h
    rw [List.map_map]
    exact map_start_trim hwhole
  rw [hstarts, ← filter_precedes h]
  exact (b.sortedMarks_perm.filter _).map _

theorem sortedMarks_split {k : Nat} (hk : k < b.sortedMarks.length) :
    b.sortedMarks = b.sortedMarks.take k ++ b.sortedMarks[k] :: b.sortedMarks.drop (k + 1) := by
  rw [← List.drop_eq_getElem_cons, List.take_append_drop]

/-- The unit for a span ends where the spans as they stand say. -/
theorem ends_eq (b : Buffer) : b.ends = b.sortedMarks.map fun s => (b.throughUnit s).length := by
  have hlength : b.ends.length = b.sortedMarks.length := by simp [ends, cuts, stretches_eq]
  refine List.ext_getElem (by rw [hlength, List.length_map]) fun k hk hk' => ?_
  have hsplit := sortedMarks_split (hlength ▸ hk)
  obtain ⟨before, stop, after, hcuts, hbefore, hplaces⟩ := exists_cuts_split hsplit
  have hturn := b.inTurn_cuts
  rw [hcuts] at hturn
  have hend := Text.getElem?_splicedEnds b.indent.unit 0 hturn
  rw [← hcuts, writtenFrom_cuts, hplaces.count_eq, hbefore, Nat.zero_add,
    List.length_take_of_le (Nat.le_of_lt (hlength ▸ hk))] at hend
  rw [List.getElem_map, ← Option.some_inj, ← List.getElem?_eq_getElem hk]
  exact hend

theorem exists_cut_of_mem (hs : s ∈ b.marks) :
    ∃ before stop after, b.cuts = before ++ (b.place s, stop) :: after ∧
      (before.map Prod.fst).Perm ((b.marks.filter (·.precedes s)).map b.place) := by
  obtain ⟨pre, post, hsplit⟩ := List.append_of_mem (b.sortedMarks_perm.mem_iff.mpr hs)
  obtain ⟨before, stop, after, hcuts, -, hplaces⟩ := exists_cuts_split hsplit
  exact ⟨before, stop, after, hcuts, hplaces⟩

theorem place_le_length (hs : s ∈ b.marks) : b.place s ≤ b.text.length := by
  obtain ⟨before, stop, after, hcuts, -⟩ := exists_cut_of_mem hs
  exact b.inTurn_cuts.start_le (hcuts ▸ List.mem_append_cons_self)

theorem text_insertTab_eq (b : Buffer) :
    b.insertTab.text = (List.range (b.text.length + 1)).flatMap b.replacedAt := by
  have hall := Text.spliceAll_eq_writtenFrom b.indent.unit b.inTurn_cuts
  rwa [List.drop_zero, ← text_insertTab, writtenFrom_cuts] at hall

/-- The text up to a unit is how the new text begins. -/
theorem throughUnit_begins (hs : s ∈ b.marks) : b.throughUnit s <+: b.insertTab.text := by
  obtain ⟨before, stop, after, hcuts, hplaces⟩ := exists_cut_of_mem hs
  have hunits : (before.map Prod.fst).count (b.place s) + 1 ≤ (b.cuts.map Prod.fst).count (b.place s) := by
    rw [hcuts, List.map_append, List.count_append, List.map_cons, List.count_cons_self]
    omega
  have hbegins := Text.writtenFrom_begins b.indent.unit b.text (Nat.zero_le _)
    (Nat.lt_succ_of_le (place_le_length hs)) hunits
  rwa [writtenFrom_cuts, writtenFrom_cuts, hplaces.count_eq, ← text_insertTab_eq] at hbegins

def unitEnd (b : Buffer) (s : Stretch) : Nat × Nat := (s.index, (b.throughUnit s).length)

/-- Sorting by place in the selection undoes the sorting by offset. -/
theorem mergeSort_zip_ends (b : Buffer) :
    (((b.stretches.map Stretch.index).zip b.ends).mergeSort fun a c => a.1 ≤ c.1) =
      b.marks.map b.unitEnd := by
  have hzip : (b.stretches.map Stretch.index).zip b.ends = b.sortedMarks.map b.unitEnd := by
    rw [stretches_eq, Stretch.map_index_trim, ends_eq, List.zip_map']
    rfl
  rw [hzip]
  have hperm := (List.mergeSort_perm (b.sortedMarks.map b.unitEnd) fun a c => a.1 ≤ c.1).trans
    (b.sortedMarks_perm.map b.unitEnd)
  have hsorted : ((b.sortedMarks.map b.unitEnd).mergeSort fun a c => a.1 ≤ c.1).Pairwise (·.1 ≤ ·.1) :=
    List.pairwise_mergeSort' (fun a c : Nat × Nat => a.1 ≤ c.1) _
  have hindices : (b.marks.map b.unitEnd).Pairwise (·.1 < ·.1) :=
    List.pairwise_map.mpr b.pairwise_index_marks
  have hnodup : ((b.marks.map b.unitEnd).map Prod.fst).Nodup :=
    List.pairwise_map.mpr (hindices.imp Nat.ne_of_lt)
  refine hperm.eq_of_pairwise (fun a c ha hc hac hca => ?_) hsorted (hindices.imp Nat.le_of_lt)
  exact List.inj_on_of_nodup_map hnodup (hperm.mem_iff.mp ha) hc (Nat.le_antisymm hac hca)

/-- The carets stand in the order of their spans again. -/
theorem spans_insertTab_eq (b : Buffer) :
    b.insertTab.selection.spans =
      b.marks.map fun s => Span.caret (Text.positionAt b.insertTab.text (b.throughUnit s).length) := by
  have hcarets : b.insertTab.selection =
      (Selection.ofSpans? ((b.marks.map b.unitEnd).map fun p =>
        Span.caret (Text.positionAt b.insertTab.text p.2))).getD b.selection := by
    rw [← mergeSort_zip_ends]
    rfl
  rw [hcarets, List.map_map]
  rfl

end

structure Replaces (b c : Buffer) : Prop where
  /-- Every character that no span selects stays, once and in order, and every span puts a unit in its place. -/
  text_eq : c.text = (List.range (b.text.length + 1)).flatMap b.replacedAt
  /-- No unit is lost past the end of the text. -/
  place_le : ∀ s ∈ b.marks, b.place s ≤ b.text.length
  /-- There is a caret for every span, in the order of the spans. -/
  spans_eq : c.selection.spans =
    b.marks.map fun s => Span.caret (Text.positionAt c.text (b.throughUnit s).length)
  /-- The caret stands right behind the unit for its span. -/
  caret_after : ∀ s ∈ b.marks, b.throughUnit s <+: c.text ∧
    Text.charIndex c.text (Text.positionAt c.text (b.throughUnit s).length) = (b.throughUnit s).length
  /-- Every stretch that is taken out ends within the text, and none reaches over the one before it. -/
  cuts_inTurn : Text.InTurn b.text.length 0 b.cuts
  /-- The stretches can be replaced one at a time from the last to the first. -/
  text_eq_foldr : c.text = b.cuts.foldr (fun cut text => Text.splice text cut.1 cut.2 b.indent.unit) b.text
  /-- Clamping to the last row takes one from a number of rows that is not zero. -/
  rowCount_pos : 0 < Text.rowCount b.text
  /-- The running difference gives the offset before the unit for each span. -/
  starts_eq : Text.shiftedStarts b.indent.unit.length 0 b.cuts =
    b.sortedMarks.map fun s => ((b.throughUnit s).length : Int) - b.indent.unit.length
  /-- No such offset falls below zero, nor does its unit end past the new text. -/
  starts_inBounds : ∀ i ∈ Text.shiftedStarts b.indent.unit.length 0 b.cuts,
    0 ≤ i ∧ i + b.indent.unit.length ≤ c.text.length

theorem shiftedStarts_cuts (b : Buffer) :
    Text.shiftedStarts b.indent.unit.length 0 b.cuts =
      b.sortedMarks.map fun s => ((b.throughUnit s).length : Int) - b.indent.unit.length := by
  have hstarts := Text.map_splicedEnds b.indent.unit.length 0 b.inTurn_cuts
  have hends : Text.splicedEnds b.indent.unit.length 0 0 b.cuts = b.ends := rfl
  rw [hends, ends_eq, List.map_map] at hstarts
  exact hstarts.symm

/-- A unit is no longer than the text that it ends. -/
theorem length_unit_le_throughUnit (b : Buffer) (s : Stretch) :
    b.indent.unit.length ≤ (b.throughUnit s).length := by
  rw [throughUnit, Text.copies_add, ← List.append_assoc, List.length_append]
  simp [Text.length_copies]

/-- However the spans overlap, one tab replaces every selected character once and puts in one unit for every
span, with the caret behind it. -/
theorem insertTab_replaces (b : Buffer) : b.Replaces b.insertTab where
  text_eq := b.text_insertTab_eq
  place_le _ := place_le_length
  spans_eq := b.spans_insertTab_eq
  caret_after _ hs := ⟨throughUnit_begins hs, Text.charIndex_positionAt _ _⟩
  cuts_inTurn := b.inTurn_cuts
  text_eq_foldr := by
    rw [Text.foldr_splice b.indent.unit b.inTurn_cuts, text_insertTab]
    rfl
  rowCount_pos := Text.rowCount_pos b.text
  starts_eq := b.shiftedStarts_cuts
  starts_inBounds := by
    rw [shiftedStarts_cuts]
    intro i hi
    obtain ⟨s, hs, rfl⟩ := List.mem_map.mp hi
    have hunit := b.length_unit_le_throughUnit s
    have hend := (throughUnit_begins (b.sortedMarks_perm.mem_iff.mp hs)).length_le
    omega

end Buffer

end TabKey
