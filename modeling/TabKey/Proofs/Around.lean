import Mathlib.Data.List.Nodup
import Mathlib.Order.Defs.LinearOrder
import TabKey.Proofs.Enclosure.LineWalk

namespace TabKey

namespace Position

instance : LinearOrder Position where
  le_refl p := .inr ⟨rfl, Nat.le_refl _⟩
  le_trans p q r h h' := by
    rw [le_def] at h h' ⊢
    omega
  lt_iff_le_not_ge p q := by
    simp only [lt_def, le_def]
    omega
  le_antisymm p q h h' := (lt_or_eq_of_le h).resolve_left (not_lt_of_le h')
  le_total p q := by
    simp only [le_def]
    omega
  toDecidableLE := inferInstance
  toDecidableEq := inferInstance

theorem lt_next_iff {p q : Position} : p < q.next ↔ p ≤ q := by
  simp only [lt_def, le_def, next]
  omega

theorem next_le_iff {p q : Position} : p.next ≤ q ↔ p < q := by
  simp only [lt_def, le_def, next]
  omega

end Position

namespace Mark
variable {ms : List Mark} {p : Position} {d d' : Delimiter} {o o' c c' : Position}

structure Around (ms : List Mark) (p : Position) (d : Delimiter) (o c : Position) : Prop where
  matched : Matched ms d o c
  opener_lt : o < p
  le_closer : p ≤ c

theorem Innermost.around (h : Innermost ms p d o c) : Around ms p d o c :=
  ⟨h.matched, h.opener_before, h.closer_after⟩

theorem exists_cut (sorted : ms.Pairwise fun a b => a.place < b.place) (p : Position) :
    ∃ left right, ms = left ++ right ∧ (∀ m ∈ left, m.place < p) ∧ ∀ m ∈ right, p ≤ m.place := by
  induction ms with
  | nil => exact ⟨[], [], rfl, nofun, nofun⟩
  | cons m ms ih =>
    obtain ⟨hm, hms⟩ := List.pairwise_cons.mp sorted
    rcases lt_or_ge m.place p with hlt | hge
    · obtain ⟨left, right, rfl, hl, hr⟩ := ih hms
      exact ⟨m :: left, right, rfl, List.forall_mem_cons.mpr ⟨hlt, hl⟩, hr⟩
    · refine ⟨[], m :: ms, rfl, nofun, List.forall_mem_cons.mpr ⟨hge, ?_⟩⟩
      intro m' hm'
      exact hge.trans (hm m' hm').le

section
variable (nested : Nested ms) (sorted : ms.Pairwise fun a b => a.place < b.place)
include nested sorted

theorem Innermost.unique (h : Innermost ms p d o c) (h' : Innermost ms p d' o' c') :
    d = d' ∧ o = o' ∧ c = c' := by
  obtain ⟨left, right, rfl, hl, hr⟩ := exists_cut sorted p
  obtain ⟨hopener, hcloser⟩ := (innermost_iff nested sorted hl hr).mp h
  obtain ⟨hopener', hcloser'⟩ := (innermost_iff nested sorted hl hr).mp h'
  rw [hopener] at hopener'
  cases hopener'
  rw [hcloser] at hcloser'
  cases hcloser'
  exact ⟨rfl, rfl, rfl⟩

/-- A matched pair is the innermost one around its own closer. -/
theorem Matched.innermost (h : Matched ms d o c) : Innermost ms c d o c := by
  obtain ⟨before, inner, after, hms, hinner⟩ := h
  have hcut : ms = (before ++ ⟨o, d, true⟩ :: inner) ++ ⟨c, d, false⟩ :: after := by
    rw [hms, List.append_assoc, List.cons_append]
  subst hcut
  obtain ⟨-, hright, hleft⟩ := List.pairwise_append.mp sorted
  apply (innermost_iff nested sorted ?_ ?_).mpr
  · exact ⟨unclosed_of_nested hinner, unopened_of_nested Nested.nil⟩
  · intro m hm
    exact hleft m hm _ List.mem_cons_self
  · intro m hm
    rcases List.mem_cons.mp hm with rfl | hm
    · exact le_rfl
    · exact (List.rel_of_pairwise_cons hright hm).le

/-- Matched pairs do not cross. -/
theorem Matched.le_of_lt_closer (h : Matched ms d o c) (h' : Matched ms d' o' c') (hlt : o' < c)
    (hle : c ≤ c') : o' ≤ o :=
  (h.innermost nested sorted).innermost h' hlt hle

/-- An opener belongs to one pair. -/
theorem Matched.closer_unique (h : Matched ms d o c) (h' : Matched ms d' o c') : d = d' ∧ c = c' := by
  wlog hle : c ≤ c' generalizing d d' c c'
  · obtain ⟨hd, hc⟩ := this h' h (le_of_not_ge hle)
    exact ⟨hd.symm, hc.symm⟩
  have hinner := h.innermost nested sorted
  have hinner' : Innermost ms c d' o c' := ⟨h', hinner.opener_before, hle, hinner.innermost⟩
  obtain ⟨hd, -, hc⟩ := hinner.unique nested sorted hinner'
  exact ⟨hd, hc⟩

/-- So does a closer. -/
theorem Matched.opener_unique (h : Matched ms d o c) (h' : Matched ms d' o' c) : d = d' ∧ o = o' := by
  obtain ⟨hd, ho, -⟩ := (h.innermost nested sorted).unique nested sorted (h'.innermost nested sorted)
  exact ⟨hd, ho⟩

omit nested in
private theorem Matched.opener_ne_closer (h : Matched ms d o c) (h' : Matched ms d' o' c') : o' ≠ c := by
  rintro rfl
  obtain ⟨before, inner, after, hms, -⟩ := h
  obtain ⟨before', inner', after', hms', -⟩ := h'
  have hcloser : ⟨o', d, false⟩ ∈ ms := by simp [hms]
  have hopener : ⟨o', d', true⟩ ∈ ms := by simp [hms']
  have hplaces : (ms.map place).Nodup := List.pairwise_map.mpr (sorted.imp ne_of_lt)
  cases List.inj_on_of_nodup_map hplaces hcloser hopener rfl

/-- All pairs around a place but the innermost one lie around that one. -/
theorem Innermost.lt_of_around (h : Innermost ms p d o c) (h' : Around ms p d' o' c') (hne : c' ≠ c) :
    o' < o ∧ c < c' := by
  have hle : o' ≤ o := h.innermost h'.matched h'.opener_lt h'.le_closer
  have hopener : o' ≠ o := by
    rintro rfl
    exact hne (h'.matched.closer_unique nested sorted h.matched).2
  refine ⟨lt_of_le_of_ne hle hopener, lt_of_not_ge fun hge => hopener (hle.antisymm ?_)⟩
  exact h'.matched.le_of_lt_closer nested sorted h.matched (h.opener_before.trans_le h'.le_closer) hge

/-- Right behind the closer of the innermost pair the caret is in all the others. -/
theorem Innermost.around_next_iff (h : Innermost ms p d o c) :
    Around ms c.next d' o' c' ↔ Around ms p d' o' c' ∧ c' ≠ c := by
  constructor
  · intro h'
    have hlt : c < c' := Position.next_le_iff.mp h'.le_closer
    have hbefore : o' < c :=
      lt_of_le_of_ne (Position.lt_next_iff.mp h'.opener_lt) (h.matched.opener_ne_closer sorted h'.matched)
    have hle : o' ≤ o := h.matched.le_of_lt_closer nested sorted h'.matched hbefore hlt.le
    exact ⟨⟨h'.matched, hle.trans_lt h.opener_before, h.closer_after.trans hlt.le⟩, hlt.ne'⟩
  · rintro ⟨h', hne⟩
    obtain ⟨-, hlt⟩ := h.lt_of_around nested sorted h' hne
    refine ⟨h'.matched, ?_, Position.next_le_iff.mpr hlt⟩
    exact Position.lt_next_iff.mpr (h'.opener_lt.le.trans h.closer_after)

end

/-- The pairs around a place, from the inside out: the innermost one, and those that are left right behind its
closer. -/
inductive Peels (ms : List Mark) : Position → List (Delimiter × Position × Position) → Prop
  | none {p : Position} : (∀ d o c, ¬ Around ms p d o c) → Peels ms p []
  | pair {p : Position} {d : Delimiter} {o c : Position} {pairs : List (Delimiter × Position × Position)} :
      Innermost ms p d o c → Peels ms c.next pairs → Peels ms p ((d, o, c) :: pairs)

/-- If the part before a cut is nested, no pair lies around the cut. -/
private theorem not_around_of_nested {left right : List Mark} (hl : ∀ m ∈ left, m.place < p)
    (hr : ∀ m ∈ right, p ≤ m.place) (hleft : Nested left) : ¬ Around (left ++ right) p d o c := by
  intro h
  obtain ⟨before, near, far, after, hcut, -, hnested⟩ := h.matched.cut hl hr h.opener_lt h.le_closer
  have hpast := hleft.unclosed_reverse 0
  rcases hnested.split with ⟨hnear, -⟩ | ⟨before', d', o', near', _, _, _, hnear, -, hnear', -⟩
  · rw [hcut, unclosed_of_nested hnear] at hpast
    cases hpast
  · have hcut' : left = (before ++ ⟨o, d, true⟩ :: before') ++ ⟨o', d', true⟩ :: near' := by
      rw [hcut, hnear, List.append_assoc, List.cons_append]
    rw [hcut', unclosed_of_nested hnear'] at hpast
    cases hpast

private theorem exists_peels_of_cut {left right : List Mark} {p : Position} (nested : Nested (left ++ right))
    (sorted : (left ++ right).Pairwise fun a b => a.place < b.place) (hl : ∀ m ∈ left, m.place < p)
    (hr : ∀ m ∈ right, p ≤ m.place) : ∃ pairs, Peels (left ++ right) p pairs := by
  rcases nested.split with ⟨hleft, -⟩ | ⟨before, d, o, near, c, far, after, hleft, hright, hnear, hfar⟩
  · exact ⟨[], .none fun d o c => not_around_of_nested hl hr hleft⟩
  · have hinner : Innermost (left ++ right) p d o c := by
      apply (innermost_iff nested sorted hl hr).mpr
      rw [hleft, hright]
      exact ⟨unclosed_of_nested hnear, unopened_of_nested hfar⟩
    -- The next cut lies right behind the closer, so less of the text is left to the right of it.
    have hms : left ++ right = (left ++ far ++ [⟨c, d, false⟩]) ++ after := by simp [hright]
    rw [hms] at nested sorted hinner ⊢
    obtain ⟨hinit, -, hafter⟩ := List.pairwise_append.mp sorted
    have hbefore := (List.pairwise_append.mp hinit).2.2
    have hl' : ∀ m ∈ left ++ far ++ [⟨c, d, false⟩], m.place < c.next := by
      intro m hm
      apply Position.lt_next_iff.mpr
      rcases List.mem_append.mp hm with hm | hm
      · exact (hbefore m hm _ (List.mem_singleton_self _)).le
      · rw [List.mem_singleton.mp hm]
    have hr' : ∀ m ∈ after, c.next ≤ m.place := by
      intro m hm
      apply Position.next_le_iff.mpr
      exact hafter _ (List.mem_append_right _ (List.mem_singleton_self _)) m hm
    obtain ⟨pairs, hpairs⟩ := exists_peels_of_cut nested sorted hl' hr'
    exact ⟨_, .pair hinner hpairs⟩
termination_by right.length
decreasing_by
  rw [hright, List.length_append, List.length_cons]
  omega

theorem exists_peels (nested : Nested ms) (sorted : ms.Pairwise fun a b => a.place < b.place) (p : Position) :
    ∃ pairs, Peels ms p pairs := by
  obtain ⟨left, right, rfl, hl, hr⟩ := exists_cut sorted p
  exact exists_peels_of_cut nested sorted hl hr

namespace Peels
variable {pairs : List (Delimiter × Position × Position)} (nested : Nested ms)
  (sorted : ms.Pairwise fun a b => a.place < b.place)
include nested sorted

/-- They are all of the pairs around the place. -/
theorem mem_iff (h : Peels ms p pairs) : (d, o, c) ∈ pairs ↔ Around ms p d o c := by
  induction h with
  | none hnone =>
    constructor
    · exact nofun
    · exact fun h => absurd h (hnone d o c)
  | @pair p d' o' c' pairs hinner _ ih =>
    rw [List.mem_cons, ih, hinner.around_next_iff nested sorted]
    constructor
    · rintro (heq | ⟨h, -⟩)
      · cases heq
        exact hinner.around
      · exact h
    · intro h
      by_cases hc : c = c'
      · subst hc
        obtain ⟨rfl, rfl⟩ := h.matched.opener_unique nested sorted hinner.matched
        exact .inl rfl
      · exact .inr ⟨h, hc⟩

/-- Each of them lies within the ones that come after it. -/
theorem pairwise (h : Peels ms p pairs) :
    pairs.Pairwise fun inner outer => outer.2.1 < inner.2.1 ∧ inner.2.2 < outer.2.2 := by
  induction h with
  | none => exact .nil
  | @pair p d o c pairs hinner hpeels ih =>
    refine .cons ?_ ih
    rintro ⟨d', o', c'⟩ hmem
    obtain ⟨h, hne⟩ := (hinner.around_next_iff nested sorted).mp ((hpeels.mem_iff nested sorted).mp hmem)
    exact hinner.lt_of_around nested sorted h hne

end Peels

end Mark

end TabKey
