import Mathlib.Order.Lattice
import TabKey.Proofs.Nesting

/-! Bracket ends counted along a text. A search by depth hits where the count of the ends that open comes to exceed the
count of those that close by one more than the depth, whatever the nesting. -/
namespace TabKey

namespace Mark
variable {ms : List Mark}

def flip (m : Mark) : Mark := { m with opens := !m.opens }

/-- The search to the right is the search to the left among the ends of its kind, read the other way. -/
theorem unopened_eq_unclosed_flip (d : Delimiter) (depth : Nat) (ms : List Mark) :
    unopened d depth ms = (unclosed depth ((ms.filter (·.delimiter = d)).map flip)).map Prod.snd := by
  induction ms generalizing depth with
  | nil => rfl
  | cons m ms ih =>
    obtain ⟨p, kind, opens⟩ := m
    by_cases hkind : kind = d
    · cases opens with
      | true => simp [unopened, unclosed, flip, hkind, ih]
      | false =>
        cases depth with
        | zero => simp [unopened, unclosed, flip, hkind, Walk.map]
        | succ depth => simp [unopened, unclosed, flip, hkind, ih]
    · simp [unopened, hkind, ih]

section
variable {α : Type} [LinearOrder α] (key : Position → α)

/-- Of the ends up to `x`, in an order of their places, `n` more open than close. -/
def Exceeds (n : Nat) (ms : List Mark) (x : α) : Prop :=
  (ms.filter (key ·.place ≤ x)).countP (·.opens) = (ms.filter (key ·.place ≤ x)).countP (!·.opens) + n

variable {key} {m : Mark} {n depth : Nat} {x : α}

theorem Exceeds.exists_le (h : Exceeds key (n + 1) ms x) : ∃ m ∈ ms, key m.place ≤ x := by
  by_contra hnone
  have hfilter : ms.filter (key ·.place ≤ x) = [] :=
    List.filter_eq_nil_iff.mpr fun m hm hle => hnone ⟨m, hm, decide_eq_true_iff.mp hle⟩
  rw [Exceeds, hfilter] at h
  cases h

theorem exceeds_cons_opens (hopens : m.opens = true) (hle : key m.place ≤ x) :
    Exceeds key (n + 1) (m :: ms) x ↔ Exceeds key n ms x := by
  simp only [Exceeds, List.filter_cons, decide_eq_true hle, if_true, List.countP_cons, hopens, Bool.not_true,
    Bool.false_eq_true, if_false]
  omega

theorem exceeds_cons_closes (hopens : m.opens = false) (hle : key m.place ≤ x) :
    Exceeds key n (m :: ms) x ↔ Exceeds key (n + 1) ms x := by
  simp only [Exceeds, List.filter_cons, decide_eq_true hle, if_true, List.countP_cons, hopens, Bool.not_false,
    Bool.false_eq_true, if_false]
  omega

/-- Nothing is counted before the nearest end. -/
theorem Exceeds.near_le (sorted : (m :: ms).Pairwise fun a b => key a.place < key b.place)
    (h : Exceeds key (n + 1) (m :: ms) x) : key m.place ≤ x := by
  obtain ⟨m', hm', hle⟩ := h.exists_le
  rcases List.mem_cons.mp hm' with rfl | hm'
  · exact hle
  · exact (List.rel_of_pairwise_cons sorted hm').le.trans hle

/-- Where the search hits, one end more is open than the depth. -/
theorem exceeds_of_unclosed (sorted : ms.Pairwise fun a b => key a.place < key b.place) {d : Delimiter} {p : Position}
    (h : unclosed depth ms = .hit (d, p)) : Exceeds key (depth + 1) ms (key p) := by
  fun_induction unclosed depth ms with
  | case1 depth => cases h
  | case2 o kind ms =>
    cases h
    have hnone : ms.filter (key ·.place ≤ key p) = [] := by
      apply List.filter_eq_nil_iff.mpr
      intro m hm
      rw [decide_eq_true_iff]
      exact not_le_of_gt (List.rel_of_pairwise_cons sorted hm)
    rw [exceeds_cons_opens rfl le_rfl, Exceeds, hnone]
    rfl
  | case3 depth o kind ms ih =>
    have hmem := mem_of_unclosed h
    rw [exceeds_cons_opens rfl (List.rel_of_pairwise_cons sorted hmem).le]
    exact ih sorted.of_cons h
  | case4 depth o kind ms ih =>
    have hmem := mem_of_unclosed h
    rw [exceeds_cons_closes rfl (List.rel_of_pairwise_cons sorted hmem).le]
    exact ih sorted.of_cons h

/-- The search has hit by any place where one end more is open than the depth. -/
theorem exists_unclosed_of_exceeds (sorted : ms.Pairwise fun a b => key a.place < key b.place)
    (h : Exceeds key (depth + 1) ms x) : ∃ d p, unclosed depth ms = .hit (d, p) ∧ key p ≤ x := by
  fun_induction unclosed depth ms with
  | case1 depth =>
    obtain ⟨m, hm, -⟩ := h.exists_le
    cases hm
  | case2 o kind ms => exact ⟨kind, o, rfl, h.near_le sorted⟩
  | case3 depth o kind ms ih => exact ih sorted.of_cons ((exceeds_cons_opens rfl (h.near_le sorted)).mp h)
  | case4 depth o kind ms ih => exact ih sorted.of_cons ((exceeds_cons_closes rfl (h.near_le sorted)).mp h)

/-- No place with one end more open than the depth comes before the hit. -/
theorem le_of_exceeds (sorted : ms.Pairwise fun a b => key a.place < key b.place) {d : Delimiter} {p : Position}
    (h : unclosed depth ms = .hit (d, p)) (hx : Exceeds key (depth + 1) ms x) : key p ≤ x := by
  obtain ⟨d', p', h', hle⟩ := exists_unclosed_of_exceeds sorted hx
  cases h.symm.trans h'
  exact hle

end

end Mark

end TabKey
