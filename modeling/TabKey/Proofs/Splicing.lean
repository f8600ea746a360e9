import Mathlib.Algebra.BigOperators.Group.List.Basic
import Mathlib.Data.List.Basic
import TabKey.Text.Splice

namespace TabKey.Text

/-- Stretches one after another, from `reached` on and within the first `length` characters. -/
def InTurn (length : Nat) : (reached : Nat) → List (Nat × Nat) → Prop
  | reached, [] => reached ≤ length
  | reached, (start, stop) :: rest => reached ≤ start ∧ start ≤ stop ∧ InTurn length stop rest

theorem InTurn.reached_le {length reached : Nat} {cuts : List (Nat × Nat)}
    (h : InTurn length reached cuts) : reached ≤ length := by
  induction cuts generalizing reached with
  | nil => exact h
  | cons cut rest ih => exact Nat.le_trans (Nat.le_trans h.1 h.2.1) (ih h.2.2)

theorem InTurn.reached_le_start {length reached : Nat} {cuts : List (Nat × Nat)}
    (h : InTurn length reached cuts) {c : Nat × Nat} (hc : c ∈ cuts) : reached ≤ c.1 := by
  induction cuts generalizing reached with
  | nil => cases hc
  | cons cut rest ih =>
    rcases List.mem_cons.mp hc with rfl | hc
    · exact h.1
    · exact Nat.le_trans (Nat.le_trans h.1 h.2.1) (ih h.2.2 hc)

theorem InTurn.start_le {length reached : Nat} {cuts : List (Nat × Nat)}
    (h : InTurn length reached cuts) {c : Nat × Nat} (hc : c ∈ cuts) : c.1 ≤ length := by
  induction cuts generalizing reached with
  | nil => cases hc
  | cons cut rest ih =>
    rcases List.mem_cons.mp hc with rfl | hc
    · exact Nat.le_trans h.2.1 h.2.2.reached_le
    · exact ih h.2.2 hc

theorem InTurn.from_start {length reached start stop : Nat} {rest : List (Nat × Nat)}
    (h : InTurn length reached ((start, stop) :: rest)) : InTurn length start ((start, stop) :: rest) :=
  ⟨Nat.le_refl _, h.2⟩

def isCut (cuts : List (Nat × Nat)) (i : Nat) : Bool := cuts.any fun c => c.1 ≤ i && i < c.2

def copies (n : Nat) (unit : List Char) : List Char := (List.replicate n unit).flatten

theorem length_copies (n : Nat) (unit : List Char) : (copies n unit).length = n * unit.length := by
  simp [copies]

theorem copies_add (m n : Nat) (unit : List Char) : copies (m + n) unit = copies m unit ++ copies n unit := by
  rw [copies, List.replicate_add, List.flatten_append]
  rfl

theorem copies_one (unit : List Char) : copies 1 unit = unit := List.append_nil unit

section
variable (unit : List Char) (cuts : List (Nat × Nat)) (text : List Char)

/-- What is written for one offset: a unit for each stretch that starts there, then the character that stands
there, unless it is cut. -/
def writtenAt (i : Nat) : List Char :=
  copies ((cuts.map Prod.fst).count i) unit ++ if isCut cuts i then [] else text[i]?.toList

def writtenFrom (start stop : Nat) : List Char :=
  (List.range' start (stop - start)).flatMap (writtenAt unit cuts text)

end

section
variable {unit text : List Char} {cuts rest : List (Nat × Nat)} {start stop reached finish i : Nat}

theorem writtenFrom_append {middle : Nat} (hstart : start ≤ middle) (hstop : middle ≤ stop) :
    writtenFrom unit cuts text start stop =
      writtenFrom unit cuts text start middle ++ writtenFrom unit cuts text middle stop := by
  have hrange : List.range' start (stop - start) =
      List.range' start (middle - start) ++ List.range' middle (stop - middle) := by
    rw [show stop - start = middle - start + (stop - middle) by omega, ← List.range'_append_1,
      show start + (middle - start) = middle by omega]
  rw [writtenFrom, hrange, List.flatMap_append]
  rfl

theorem writtenFrom_cons (h : start < stop) :
    writtenFrom unit cuts text start stop =
      writtenAt unit cuts text start ++ writtenFrom unit cuts text (start + 1) stop := by
  rw [writtenFrom, show stop - start = stop - (start + 1) + 1 by omega, List.range'_succ, List.flatMap_cons]
  rfl

theorem writtenFrom_congr {cuts' : List (Nat × Nat)}
    (h : ∀ i, start ≤ i → i < stop → writtenAt unit cuts text i = writtenAt unit cuts' text i) :
    writtenFrom unit cuts text start stop = writtenFrom unit cuts' text start stop := by
  refine List.flatMap_congr fun i hi => ?_
  rw [List.mem_range'_1] at hi
  exact h i hi.1 (by omega)

/-- No stretch starts before the first one. -/
theorem InTurn.count_eq_zero {length : Nat} (h : InTurn length reached cuts) (hi : i < reached) :
    (cuts.map Prod.fst).count i = 0 := by
  refine List.count_eq_zero.mpr fun hmem => ?_
  obtain ⟨c, hc, rfl⟩ := List.mem_map.mp hmem
  exact Nat.not_lt.mpr (h.reached_le_start hc) hi

/-- Before the first stretch the text stays as it is. -/
theorem writtenAt_of_lt {length : Nat} (h : InTurn length reached cuts) (hi : i < reached) :
    writtenAt unit cuts text i = text[i]?.toList := by
  have hcut : isCut cuts i = false := by
    refine List.any_eq_false.mpr fun c hc => ?_
    have := h.reached_le_start hc
    simp only [Bool.and_eq_true, decide_eq_true_eq]
    omega
  simp [writtenAt, h.count_eq_zero hi, hcut, copies]

theorem flatMap_getElem?_range' (text : List Char) (start n : Nat) :
    ((List.range' start n).flatMap fun i => text[i]?.toList) = (text.drop start).take n := by
  induction n generalizing start with
  | zero => rfl
  | succ n ih =>
    rw [List.range'_succ, List.flatMap_cons, ih]
    rcases Nat.lt_or_ge start text.length with hlt | hge
    · rw [List.drop_eq_getElem_cons hlt, List.getElem?_eq_getElem hlt]
      rfl
    · rw [List.drop_eq_nil_of_le hge, List.drop_eq_nil_of_le (by omega), List.getElem?_eq_none hge]
      simp

theorem writtenFrom_of_le {length : Nat} (h : InTurn length reached cuts) (hstop : stop ≤ reached) :
    writtenFrom unit cuts text start stop = (text.drop start).take (stop - start) := by
  rw [← flatMap_getElem?_range']
  refine List.flatMap_congr fun i hi => writtenAt_of_lt h ?_
  rw [List.mem_range'_1] at hi
  omega

/-- Behind a stretch it is as if the stretch were not there. -/
theorem writtenAt_cons_of_le (hstop : stop ≤ i) (hne : start ≠ i) :
    writtenAt unit ((start, stop) :: rest) text i = writtenAt unit rest text i := by
  have hcut : isCut ((start, stop) :: rest) i = isCut rest i := by
    simp [isCut, Nat.not_lt.mpr hstop]
  rw [writtenAt, writtenAt, hcut, List.map_cons, List.count_cons_of_ne hne]

/-- A stretch without characters puts its unit before the character at which it stands. -/
theorem writtenAt_cons_self :
    writtenAt unit ((start, start) :: rest) text start = unit ++ writtenAt unit rest text start := by
  have hcut : isCut ((start, start) :: rest) start = isCut rest start := by simp [isCut]
  rw [writtenAt, writtenAt, hcut, List.map_cons, List.count_cons_self, Nat.add_comm, copies_add,
    copies_one, List.append_assoc]

/-- In place of the characters of a stretch there is its unit. -/
theorem writtenFrom_cons_stretch {length : Nat} (h : InTurn length stop rest) (hlt : start < stop) :
    writtenFrom unit ((start, stop) :: rest) text start stop = unit := by
  have hcut {i : Nat} (hstart : start ≤ i) (hstop : i < stop) : isCut ((start, stop) :: rest) i = true := by
    simp only [isCut, List.any_cons, Bool.or_eq_true, Bool.and_eq_true, decide_eq_true_eq]
    omega
  have hfirst : writtenAt unit ((start, stop) :: rest) text start = unit := by
    rw [writtenAt, hcut (Nat.le_refl _) hlt, List.map_cons, List.count_cons_self, h.count_eq_zero hlt,
      copies_one]
    exact List.append_nil _
  have hothers : writtenFrom unit ((start, stop) :: rest) text (start + 1) stop = [] := by
    refine List.flatMap_eq_nil_iff.mpr fun i hi => ?_
    obtain ⟨hstart, hstop⟩ := List.mem_range'_1.mp hi
    rw [writtenAt, hcut (by omega) (by omega), List.map_cons, List.count_cons_of_ne (by omega),
      h.count_eq_zero (by omega)]
    rfl
  rw [writtenFrom_cons hlt, hfirst, hothers, List.append_nil]

/-- One stretch becomes one unit. The offset it starts at may still be written, for a stretch without
characters. -/
theorem writtenFrom_stretch {length : Nat} (h : InTurn length reached ((start, stop) :: rest))
    (hlt : start < finish) (hle : stop ≤ finish) :
    writtenFrom unit ((start, stop) :: rest) text start finish =
      unit ++ writtenFrom unit rest text stop finish := by
  rcases Nat.eq_or_lt_of_le h.2.1 with rfl | hchars
  · rw [writtenFrom_cons hlt, writtenFrom_cons hlt, writtenAt_cons_self, List.append_assoc,
      writtenFrom_congr fun i hi _ => writtenAt_cons_of_le (by omega) (by omega)]
  · rw [writtenFrom_append h.2.1 hle, writtenFrom_cons_stretch h.2.2 hchars,
      writtenFrom_congr fun i hi _ => writtenAt_cons_of_le hi (by omega)]

/-- Every offset is written once and in its order, with one unit for each stretch. -/
theorem spliceAll_eq_writtenFrom (unit : List Char) (h : InTurn text.length reached cuts) :
    spliceAll unit reached cuts (text.drop reached) =
      writtenFrom unit cuts text reached (text.length + 1) := by
  induction cuts generalizing reached with
  | nil =>
    have hwhole : InTurn (text.length + 1) (text.length + 1) [] := Nat.le_refl _
    rw [writtenFrom_of_le hwhole (Nat.le_refl _), List.take_of_length_le (by simp; omega)]
    rfl
  | cons cut rest ih =>
    obtain ⟨start, stop⟩ := cut
    have hstop : stop ≤ text.length := h.2.2.reached_le
    have hstart := h.2.1
    have hbehind : reached + (stop - reached) = stop := Nat.add_sub_cancel' (Nat.le_trans h.1 hstart)
    rw [spliceAll, List.drop_drop, hbehind, ih h.2.2, writtenFrom_append h.1 (by omega),
      writtenFrom_of_le h.from_start (Nat.le_refl _), writtenFrom_stretch h (by omega) (by omega),
      List.append_assoc]

theorem length_writtenFrom_of_le {length : Nat} (h : InTurn length reached cuts) (hstop : stop ≤ reached)
    (hlength : stop ≤ text.length) : (writtenFrom unit cuts text start stop).length = stop - start := by
  rw [writtenFrom_of_le h hstop, List.length_take, List.length_drop]
  omega

/-- A unit ends behind everything written before its stretch and the units that came first at its place. -/
theorem getElem?_splicedEnds (unit : List Char) (written : Nat) {pre post : List (Nat × Nat)}
    (h : InTurn text.length reached (pre ++ (start, stop) :: post)) :
    (splicedEnds unit.length written reached (pre ++ (start, stop) :: post))[pre.length]? =
      some (written + (writtenFrom unit (pre ++ (start, stop) :: post) text reached start ++
        copies ((pre.map Prod.fst).count start + 1) unit).length) := by
  induction pre generalizing written reached with
  | nil =>
    rw [List.nil_append] at h ⊢
    have hlength : start ≤ text.length := h.start_le List.mem_cons_self
    rw [List.length_append, length_writtenFrom_of_le h.from_start (Nat.le_refl _) hlength, length_copies,
      List.map_nil, List.count_nil, Nat.zero_add, Nat.one_mul, ← Nat.add_assoc]
    rfl
  | cons cut pre ih =>
    obtain ⟨first, last⟩ := cut
    rw [List.cons_append] at h ⊢
    have hlast : last ≤ start := h.2.2.reached_le_start List.mem_append_cons_self
    have hfirst : first ≤ start := Nat.le_trans h.2.1 hlast
    have hlength : first ≤ text.length := h.start_le List.mem_cons_self
    rw [splicedEnds, List.length_cons, List.getElem?_cons_succ, ih _ h.2.2, Option.some_inj,
      writtenFrom_append h.1 hfirst]
    simp only [List.length_append, length_copies, length_writtenFrom_of_le h.from_start (Nat.le_refl _) hlength,
      List.map_cons]
    rcases Nat.eq_or_lt_of_le hfirst with rfl | hlt
    · -- The first stretch has no characters and puts its unit at the same place.
      obtain rfl : first = last := Nat.le_antisymm h.2.1 hlast
      simp only [writtenFrom, Nat.sub_self, List.range'_zero, List.flatMap_nil, List.length_nil,
        List.count_cons_self, Nat.add_mul]
      omega
    · rw [writtenFrom_stretch h hlt hlast, List.length_append, List.count_cons_of_ne (Nat.ne_of_lt hlt)]
      omega

/-- Up to the end of any of the units at its place the result is already written. -/
theorem writtenFrom_begins (unit text : List Char) {n : Nat} (hstart : reached ≤ start) (hstop : start < stop)
    (hn : n ≤ (cuts.map Prod.fst).count start) :
    writtenFrom unit cuts text reached start ++ copies n unit <+:
      writtenFrom unit cuts text reached stop := by
  have hcopies : copies n unit <+: writtenAt unit cuts text start := by
    rw [writtenAt, ← Nat.add_sub_cancel' hn, copies_add, List.append_assoc]
    exact List.prefix_append _ _
  rw [writtenFrom_append hstart (Nat.le_of_lt hstop), writtenFrom_cons hstop]
  exact (List.prefix_append_right_inj _).mpr (hcopies.trans (List.prefix_append _ _))

/-- Replacing the stretches one at a time on the changing text comes to the same, when the last one is the
first to go. -/
theorem foldr_splice (unit : List Char) (h : InTurn text.length reached cuts) :
    cuts.foldr (fun c changed => splice changed c.1 c.2 unit) text =
      text.take reached ++ spliceAll unit reached cuts (text.drop reached) := by
  induction cuts generalizing reached with
  | nil => exact (List.take_append_drop reached text).symm
  | cons cut rest ih =>
    obtain ⟨start, stop⟩ := cut
    obtain ⟨hreached, hstart, hrest⟩ := h
    have hstop : stop ≤ text.length := hrest.reached_le
    have htake : (text.take stop).length = stop := List.length_take_of_le hstop
    have hkept : text.take start = text.take reached ++ (text.drop reached).take (start - reached) := by
      rw [← List.take_add, Nat.add_sub_cancel' hreached]
    rw [List.foldr_cons, ih hrest, splice, spliceAll, List.take_append_of_le_length (by omega),
      List.take_take, Nat.min_eq_left hstart, List.drop_append_of_le_length (by omega),
      List.drop_of_length_le (by omega), List.nil_append, List.drop_drop, Nat.add_sub_cancel' (by omega), hkept]
    simp only [List.append_assoc]

end

/-- Where the units start, by the signed difference between what is written and what is read, kept on the way. -/
def shiftedStarts (width : Nat) : (delta : Int) → List (Nat × Nat) → List Int
  | _, [] => []
  | delta, (start, stop) :: rest => (start + delta) :: shiftedStarts width (delta + (width - (stop - start))) rest

/-- The difference may be negative, the starts are not. -/
theorem map_splicedEnds {length reached : Nat} {cuts : List (Nat × Nat)} (width written : Nat)
    (h : InTurn length reached cuts) :
    (splicedEnds width written reached cuts).map (fun e : Nat => (e : Int) - width) =
      shiftedStarts width (written - reached) cuts := by
  induction cuts generalizing written reached with
  | nil => rfl
  | cons cut rest ih =>
    obtain ⟨start, stop⟩ := cut
    have hreached := h.1
    rw [splicedEnds, shiftedStarts, List.map_cons, ih _ h.2.2]
    congr 1
    · omega
    · congr 1
      omega

end TabKey.Text
