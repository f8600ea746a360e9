import TabKey.Enclosure

/-! Bracket ends as a text holds them, and the two searches by depth on such ends alone. On a properly nested text both
find the innermost pair around a place. -/
namespace TabKey

structure Mark where
  place : Position
  delimiter : Delimiter
  opens : Bool
deriving DecidableEq, Repr

namespace Walk
variable {α β : Type}

def map (f : α → β) : Walk α → Walk β
  | hit a => hit (f a)
  | past depth => past depth

def andThen : Walk α → (Nat → Walk α) → Walk α
  | hit a, _ => hit a
  | past depth, next => next depth

def found? : Walk α → Option α
  | hit a => some a
  | past _ => none

@[simp] theorem found?_eq_some {w : Walk α} {a : α} : w.found? = some a ↔ w = .hit a := by
  cases w <;> simp [found?]

theorem map_eq_hit {f : α → β} {w : Walk α} {b : β} : w.map f = .hit b ↔ ∃ a, w = .hit a ∧ f a = b := by
  cases w <;> simp [map]

theorem map_andThen (f : α → β) (w : Walk α) (next : Nat → Walk α) :
    (w.andThen next).map f = (w.map f).andThen fun depth => (next depth).map f := by
  cases w <;> rfl

theorem andThen_past (w : Walk α) : w.andThen .past = w := by
  cases w <;> rfl

theorem map_injective {f : α → β} (h : Function.Injective f) : Function.Injective (map f) := by
  intro v w hmap
  cases v with
  | hit a =>
    cases w with
    | hit b => rw [h (hit.inj hmap)]
    | past k => cases hmap
  | past k =>
    cases w with
    | hit b => cases hmap
    | past l => rw [past.inj hmap]

theorem andThen_assoc (w : Walk α) (next later : Nat → Walk α) :
    (w.andThen next).andThen later = w.andThen fun depth => (next depth).andThen later := by
  cases w <;> rfl

end Walk

namespace Mark

inductive Nested : List Mark → Prop
  | nil : Nested []
  | pair {d : Delimiter} {o c : Position} {inner rest : List Mark} : Nested inner → Nested rest →
      Nested (⟨o, d, true⟩ :: (inner ++ ⟨c, d, false⟩ :: rest))

/-- `o` and `c` are the two ends of one pair of `d`: what lies between them is properly nested. -/
def Matched (ms : List Mark) (d : Delimiter) (o c : Position) : Prop :=
  ∃ before inner after, ms = before ++ ⟨o, d, true⟩ :: (inner ++ ⟨c, d, false⟩ :: after) ∧ Nested inner

/-- A matched pair around the caret that no other such pair lies within. -/
structure Innermost (ms : List Mark) (caret : Position) (d : Delimiter) (o c : Position) : Prop where
  matched : Matched ms d o c
  opener_before : o < caret
  closer_after : caret ≤ c
  innermost : ∀ {d' : Delimiter} {o' c' : Position}, Matched ms d' o' c' → o' < caret → caret ≤ c' →
    o' ≤ o

/-- The nearest opener that is not closed again, in ends given nearest first. Kinds do not count. -/
def unclosed : (depth : Nat) → List Mark → Walk (Delimiter × Position)
  | depth, [] => .past depth
  | 0, ⟨p, d, true⟩ :: _ => .hit (d, p)
  | depth + 1, ⟨_, _, true⟩ :: before => unclosed depth before
  | depth, ⟨_, _, false⟩ :: before => unclosed (depth + 1) before

/-- The nearest closer of `d` that no opener of `d` balances. Other kinds are passed over. -/
def unopened (d : Delimiter) : (depth : Nat) → List Mark → Walk Position
  | depth, [] => .past depth
  | depth, m :: rest =>
    if m.delimiter = d then
      match m.opens, depth with
      | true, depth => unopened d (depth + 1) rest
      | false, 0 => .hit m.place
      | false, depth + 1 => unopened d depth rest
    else unopened d depth rest

theorem unclosed_append (depth : Nat) (near far : List Mark) :
    unclosed depth (near ++ far) = (unclosed depth near).andThen fun k => unclosed k far := by
  fun_induction unclosed depth near with
  | case1 | case2 => rfl
  | case3 depth _ _ before ih => exact ih
  | case4 depth _ _ before ih => exact ih

theorem unopened_append (d : Delimiter) (depth : Nat) (near far : List Mark) :
    unopened d depth (near ++ far) = (unopened d depth near).andThen fun k => unopened d k far := by
  induction near generalizing depth with
  | nil => rfl
  | cons m near ih =>
    simp only [List.cons_append, unopened]
    split
    · split
      · exact ih _
      · rfl
      · exact ih _
    · exact ih _

theorem mem_of_unclosed {depth : Nat} {ms : List Mark} {d : Delimiter} {p : Position}
    (h : unclosed depth ms = .hit (d, p)) : ⟨p, d, true⟩ ∈ ms := by
  fun_induction unclosed depth ms with
  | case1 => cases h
  | case2 => cases h; exact List.mem_cons_self
  | case3 _ _ _ _ ih => exact List.mem_cons_of_mem _ (ih h)
  | case4 _ _ _ _ ih => exact List.mem_cons_of_mem _ (ih h)

theorem mem_of_unopened {d : Delimiter} {depth : Nat} {ms : List Mark} {p : Position}
    (h : unopened d depth ms = .hit p) : ⟨p, d, false⟩ ∈ ms := by
  induction ms generalizing depth with
  | nil => cases h
  | cons m ms ih =>
    obtain ⟨place, kind, opens⟩ := m
    simp only [unopened] at h
    split at h
    · rename_i hkind
      split at h
      · exact List.mem_cons_of_mem _ (ih h)
      · cases h
        subst hkind
        exact List.mem_cons_self
      · exact List.mem_cons_of_mem _ (ih h)
    · exact List.mem_cons_of_mem _ (ih h)

/-- A find that is not in the farther part was made in the nearer one. -/
theorem unclosed_of_append {depth : Nat} {near far : List Mark} {d : Delimiter} {p : Position}
    (h : unclosed depth (near ++ far) = .hit (d, p)) (hfar : ⟨p, d, true⟩ ∉ far) :
    unclosed depth near = .hit (d, p) := by
  rw [unclosed_append] at h
  cases hnear : unclosed depth near with
  | hit found => rwa [hnear] at h
  | past k =>
    rw [hnear] at h
    exact absurd (mem_of_unclosed h) hfar

theorem unopened_of_append {d : Delimiter} {depth : Nat} {near far : List Mark} {p : Position}
    (h : unopened d depth (near ++ far) = .hit p) (hfar : ⟨p, d, false⟩ ∉ far) :
    unopened d depth near = .hit p := by
  rw [unopened_append] at h
  cases hnear : unopened d depth near with
  | hit found => rwa [hnear] at h
  | past k =>
    rw [hnear] at h
    exact absurd (mem_of_unopened h) hfar

namespace Nested

theorem append {a b : List Mark} (ha : Nested a) (hb : Nested b) : Nested (a ++ b) := by
  induction ha with
  | nil => exact hb
  | pair hinner _ _ ih => simpa using Nested.pair hinner ih

/-- A nested stretch leaves the depth as it was, read from the right. -/
theorem unclosed_reverse {ms : List Mark} (h : Nested ms) (depth : Nat) :
    unclosed depth ms.reverse = .past depth := by
  induction h generalizing depth with
  | nil => rfl
  | pair _ _ ihinner ihrest =>
    simp only [List.reverse_cons, List.reverse_append, List.append_assoc, unclosed_append, ihrest,
      Walk.andThen, List.singleton_append, unclosed, ihinner]

/-- A nested stretch leaves the depth of every kind as it was, read from the left. -/
theorem unopened_eq {ms : List Mark} (h : Nested ms) (d : Delimiter) (depth : Nat) :
    unopened d depth ms = .past depth := by
  induction h generalizing depth with
  | nil => rfl
  | @pair kind _ _ _ _ _ _ ihinner ihrest =>
    by_cases hkind : kind = d
    · simp only [unopened, hkind, if_true, unopened_append, ihinner, Walk.andThen, ihrest]
    · simp only [unopened, hkind, if_false, unopened_append, ihinner, Walk.andThen, ihrest]

/-- Cutting a nested text leaves either two nested parts, or parts with an innermost pair that the
cut separates. -/
theorem split {left right : List Mark} (h : Nested (left ++ right)) :
    (Nested left ∧ Nested right) ∨
      ∃ before d o near c far after, left = before ++ ⟨o, d, true⟩ :: near ∧
        right = far ++ ⟨c, d, false⟩ :: after ∧ Nested near ∧ Nested far := by
  generalize hms : left ++ right = ms at h
  induction h generalizing left right with
  | nil =>
    obtain ⟨rfl, rfl⟩ := List.append_eq_nil_iff.mp hms
    exact .inl ⟨.nil, .nil⟩
  | @pair d o c inner rest hinner hrest ihinner ihrest =>
    cases left with
    | nil =>
      rw [List.nil_append] at hms
      exact .inl ⟨.nil, hms ▸ .pair hinner hrest⟩
    | cons m left =>
      obtain ⟨rfl, hcut⟩ := List.cons.inj hms
      rcases List.append_eq_append_iff.mp hcut with ⟨tail, rfl, rfl⟩ | ⟨tail, rfl, htail⟩
      · -- The cut lies within the pair.
        rcases ihinner rfl with ⟨hnear, hfar⟩ | ⟨before, d', o', near, c', far, after, rfl, rfl, h⟩
        · exact .inr ⟨[], d, o, left, c, tail, rest, rfl, rfl, hnear, hfar⟩
        · exact .inr ⟨⟨o, d, true⟩ :: before, d', o', near, c', far,
            after ++ ⟨c, d, false⟩ :: rest, rfl, by simp, h⟩
      · cases tail with
        | nil =>
          -- The cut lies right before the closer.
          rw [List.nil_append] at htail
          exact .inr ⟨[], d, o, inner, c, [], rest, by simp, htail.symm, hinner, .nil⟩
        | cons m tail =>
          obtain ⟨rfl, hrest'⟩ := List.cons.inj htail
          rcases ihrest hrest'.symm with
            ⟨hleft, hright⟩ | ⟨before, d', o', near, c', far, after, rfl, hr, h⟩
          · exact .inl ⟨.pair hinner hleft, hright⟩
          · exact .inr ⟨⟨o, d, true⟩ :: (inner ++ ⟨c, d, false⟩ :: before), d', o', near, c', far, after,
              by simp, hr, h⟩

end Nested

section
variable {left right : List Mark} {caret : Position}

/-- A matched pair on either side of a caret is cut by it. -/
theorem Matched.cut {d : Delimiter} {o c : Position} (hl : ∀ m ∈ left, m.place < caret)
    (hr : ∀ m ∈ right, caret ≤ m.place) (h : Matched (left ++ right) d o c) (ho : o < caret)
    (hc : caret ≤ c) :
    ∃ before near far after, left = before ++ ⟨o, d, true⟩ :: near ∧
      right = far ++ ⟨c, d, false⟩ :: after ∧ Nested (near ++ far) := by
  obtain ⟨before, inner, after, hms, hinner⟩ := h
  have holeft : ⟨o, d, true⟩ ∉ right := fun hm => Position.not_lt_of_le (hr _ hm) ho
  have hcright : ⟨c, d, false⟩ ∉ left := fun hm => Position.not_lt_of_le hc (hl _ hm)
  rcases List.append_eq_append_iff.mp hms with ⟨tail, rfl, hright⟩ | ⟨tail, rfl, hleft⟩
  · exact absurd (hright ▸ List.mem_append_right _ List.mem_cons_self) holeft
  · cases tail with
    | nil =>
      rw [List.nil_append] at hleft
      exact absurd (hleft ▸ List.mem_cons_self) holeft
    | cons m near =>
      obtain ⟨rfl, hcut⟩ := List.cons.inj hleft
      rcases List.append_eq_append_iff.mp hcut with ⟨tail, rfl, hright⟩ | ⟨far, rfl, hright⟩
      · cases tail with
        | nil => exact ⟨before, inner, [], after, by simp, by simpa using hright.symm, by simpa using hinner⟩
        | cons m tail =>
          obtain ⟨rfl, -⟩ := List.cons.inj hright
          exact absurd (by simp) hcright
      · exact ⟨before, near, far, after, rfl, hright, hinner⟩

/-- With a nested stretch before it, the search to the left answers with the next opener. -/
theorem unclosed_of_nested {before near : List Mark} {d : Delimiter} {o : Position}
    (h : Nested near) : unclosed 0 (before ++ ⟨o, d, true⟩ :: near).reverse = .hit (d, o) := by
  simp only [List.reverse_append, List.reverse_cons, List.append_assoc, unclosed_append,
    h.unclosed_reverse, Walk.andThen, List.singleton_append, unclosed]

theorem unopened_of_nested {far after : List Mark} {d : Delimiter} {c : Position}
    (h : Nested far) : unopened d 0 (far ++ ⟨c, d, false⟩ :: after) = .hit c := by
  simp only [unopened_append, h.unopened_eq, Walk.andThen, unopened, if_true]

/-- On a properly nested text the two searches answer with the innermost pair around the caret, and
the first fails when there is none. -/
theorem innermost_iff {d : Delimiter} {o c : Position} (h : Nested (left ++ right))
    (sorted : (left ++ right).Pairwise fun a b => a.place < b.place)
    (hl : ∀ m ∈ left, m.place < caret) (hr : ∀ m ∈ right, caret ≤ m.place) :
    Innermost (left ++ right) caret d o c ↔
      unclosed 0 left.reverse = .hit (d, o) ∧ unopened d 0 right = .hit c := by
  constructor
  · rintro ⟨hm, ho, hc, hin⟩
    obtain ⟨before, near, far, after, rfl, rfl, hnested⟩ := hm.cut hl hr ho hc
    rcases hnested.split with ⟨hnear, hfar⟩ | ⟨b, d', o', n, c', f, a, rfl, rfl, hn, hf⟩
    · exact ⟨unclosed_of_nested hnear, unopened_of_nested hfar⟩
    · -- A pair closer to the caret would contradict the choice of `o`.
      have hm' : Matched ((before ++ ⟨o, d, true⟩ :: (b ++ ⟨o', d', true⟩ :: n)) ++
          ((f ++ ⟨c', d', false⟩ :: a) ++ ⟨c, d, false⟩ :: after)) d' o' c' :=
        ⟨before ++ ⟨o, d, true⟩ :: b, n ++ f, a ++ ⟨c, d, false⟩ :: after, by simp, hn.append hf⟩
      have hle := hin hm' (hl ⟨o', d', true⟩ (by simp)) (hr ⟨c', d', false⟩ (by simp))
      have hlt : o < o' := by
        have hp := (List.pairwise_append.mp (List.pairwise_append.mp sorted).1).2.1
        exact List.rel_of_pairwise_cons hp (show (⟨o', d', true⟩ : Mark) ∈ _ by simp)
      exact absurd hlt (Position.not_lt_of_le hle)
  · rintro ⟨hopener, hcloser⟩
    rcases h.split with ⟨hleft, -⟩ | ⟨before, d', o', near, c', far, after, rfl, rfl, hnear, hfar⟩
    · rw [hleft.unclosed_reverse] at hopener
      cases hopener
    rw [unclosed_of_nested hnear] at hopener
    cases hopener
    rw [unopened_of_nested hfar] at hcloser
    cases hcloser
    refine ⟨⟨before, near ++ far, after, by simp, hnear.append hfar⟩, hl ⟨o, d, true⟩ (by simp),
      hr ⟨c, d, false⟩ (by simp), ?_⟩
    intro d' o' c' hm ho' hc'
    obtain ⟨before', near', far', after', hleft, -, hnested⟩ := hm.cut hl hr ho' hc'
    have hhit : unclosed 0 (before' ++ ⟨o', d', true⟩ :: near').reverse = .hit (d, o) :=
      hleft ▸ unclosed_of_nested hnear
    rcases hnested.split with ⟨hnear', -⟩ | ⟨b, d'', o'', n, _, _, _, rfl, -, hn, -⟩
    · rw [unclosed_of_nested hnear'] at hhit
      cases hhit
      exact .inr ⟨rfl, Nat.le_refl _⟩
    · have heq : unclosed 0 ((before' ++ ⟨o', d', true⟩ :: b) ++ ⟨o'', d'', true⟩ :: n).reverse =
          .hit (d'', o'') := unclosed_of_nested hn
      rw [List.append_assoc, List.cons_append, hhit] at heq
      cases heq
      have hp := (List.pairwise_append.mp sorted).1
      rw [hleft] at hp
      have hlt := List.rel_of_pairwise_cons (List.pairwise_append.mp hp).2.1
        (show (⟨o, d, true⟩ : Mark) ∈ _ by simp)
      exact Position.le_of_lt hlt

end

end Mark

end TabKey
