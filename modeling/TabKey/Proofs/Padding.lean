import Mathlib.Data.List.Forall2
import TabKey.Proofs.Bounds

namespace TabKey.Text

/-- Whole units put into a text. Deleting them gives the text back. -/
inductive Padded (unit : List Char) : List Char → List Char → Prop
  | nil : Padded unit [] []
  | keep (c : Char) {old new : List Char} : Padded unit old new → Padded unit (c :: old) (c :: new)
  | pad {old new : List Char} : Padded unit old new → Padded unit old (unit ++ new)

namespace Padded
variable {unit old new : List Char}

theorem append_left (cs : List Char) (h : Padded unit old new) : Padded unit (cs ++ old) (cs ++ new) := by
  induction cs with
  | nil => exact h
  | cons c cs ih => exact .keep c ih

theorem refl (cs : List Char) : Padded unit cs cs := by
  have h : Padded unit (cs ++ []) (cs ++ []) := append_left cs .nil
  rwa [List.append_nil] at h

theorem pad_replicate (n : Nat) (h : Padded unit old new) :
    Padded unit old ((List.replicate n unit).flatten ++ new) := by
  induction n with
  | zero => exact h
  | succ n ih =>
    rw [List.replicate_succ, List.flatten_cons, List.append_assoc]
    exact .pad ih

/-- A character of the old text is found again after the units put in before it. -/
private theorem exists_of_cons {c : Char} {text : List Char} (h : Padded unit text new)
    (htext : text = c :: old) :
    ∃ n rest, new = (List.replicate n unit).flatten ++ c :: rest ∧ Padded unit old rest := by
  induction h with
  | nil => cases htext
  | keep d hold _ =>
    cases htext
    exact ⟨0, _, rfl, hold⟩
  | pad _ ih =>
    obtain ⟨n, rest, hnew, hrest⟩ := ih htext
    refine ⟨n + 1, rest, ?_, hrest⟩
    rw [hnew, List.replicate_succ, List.flatten_cons, List.append_assoc]

/-- A run of the unit's character may have grown by whole units, whatever their place in it. -/
private theorem exists_of_replicate {c : Char} {size : Nat} (hunit : unit = List.replicate size c)
    (m : Nat) {new : List Char} (h : Padded unit (List.replicate m c ++ old) new) :
    ∃ n rest, new = List.replicate (m + n * size) c ++ rest ∧ Padded unit old rest := by
  induction m generalizing new with
  | zero => exact ⟨0, new, by simp, h⟩
  | succ m ih =>
    rw [List.replicate_succ, List.cons_append] at h
    obtain ⟨before, between, hnew, hbetween⟩ := exists_of_cons h rfl
    obtain ⟨n, rest, hrun, hrest⟩ := ih hbetween
    refine ⟨before + n, rest, ?_, hrest⟩
    have hcount : m + 1 + (before + n) * size = before * size + ((m + n * size) + 1) := by
      rw [Nat.add_mul]
      omega
    rw [hnew, hrun, hunit, List.flatten_replicate_replicate, hcount,
      ← List.replicate_append_replicate (n := before * size), List.append_assoc]
    rfl

theorem trans {c : Char} {size : Nat} (hunit : unit = List.replicate size c) {newer : List Char}
    (h : Padded unit old new) (hnew : Padded unit new newer) : Padded unit old newer := by
  induction h generalizing newer with
  | nil => exact hnew
  | keep d _ ih =>
    obtain ⟨n, rest, rfl, hrest⟩ := exists_of_cons hnew rfl
    exact ((ih hrest).keep d).pad_replicate n
  | pad _ ih =>
    obtain ⟨n, rest, hnewer, hrest⟩ := exists_of_replicate hunit size (by rwa [← hunit])
    have hunits : newer = (List.replicate (n + 1) unit).flatten ++ rest := by
      rw [hnewer, hunit, List.flatten_replicate_replicate, Nat.succ_mul, Nat.add_comm]
    rw [hunits]
    exact (ih hrest).pad_replicate (n + 1)

end Padded

structure Row.Padded (unit : List Char) (old new : Row) : Prop where
  ending : new.ending = old.ending
  content : Text.Padded unit old.content new.content

def RowsPadded (unit old new : List Char) : Prop :=
  List.Forall₂ (Row.Padded unit) (rows old) (rows new)

namespace RowsPadded
variable {unit old new : List Char}

theorem refl (unit text : List Char) : RowsPadded unit text text :=
  List.forall₂_same.mpr fun _ _ => ⟨rfl, .refl _⟩

private theorem forall₂_trans {c : Char} {size : Nat} (hunit : unit = List.replicate size c)
    {as bs cs : List Row} (hab : List.Forall₂ (Row.Padded unit) as bs)
    (hbc : List.Forall₂ (Row.Padded unit) bs cs) : List.Forall₂ (Row.Padded unit) as cs := by
  induction hab generalizing cs with
  | nil => exact hbc
  | cons hr _ ih =>
    cases hbc with
    | cons hs hrest =>
      exact .cons ⟨hs.ending.trans hr.ending, hr.content.trans hunit hs.content⟩ (ih hrest)

theorem trans {c : Char} {size : Nat} (hunit : unit = List.replicate size c) {newer : List Char}
    (h : RowsPadded unit old new) (hnew : RowsPadded unit new newer) : RowsPadded unit old newer :=
  forall₂_trans hunit h hnew

end RowsPadded

/-- Rows joined to rows that have gained units have gained no more. -/
private theorem forall₂_join {unit : List Char} (as : List Row) {bs bs' : List Row}
    (h : List.Forall₂ (Row.Padded unit) bs bs') :
    List.Forall₂ (Row.Padded unit) (join as bs) (join as bs') := by
  induction as with
  | nil => exact h
  | cons r as ih =>
    cases as with
    | nil =>
      cases h with
      | nil => exact .cons ⟨rfl, .refl _⟩ .nil
      | cons hb hrest => exact .cons ⟨hb.ending, hb.content.append_left _⟩ hrest
    | cons next rest => exact .cons ⟨rfl, .refl _⟩ ih

/-- A unit put in at a seam grows the row that the seam is in. -/
private theorem rowsPadded_insert {unit a b b' : List Char} (hunit : Unbroken unit) (hne : unit ≠ [])
    (hseam : Seam a b) (h : RowsPadded unit b b') : RowsPadded unit (a ++ b) (a ++ (unit ++ b')) := by
  have hseam' : Seam a (unit ++ b') := by
    cases unit with
    | nil => exact absurd rfl hne
    | cons c cs =>
      intro _ hhead
      cases hhead
      cases hunit '\n' List.mem_cons_self
  rw [RowsPadded, rows_append hseam, rows_append hseam']
  apply forall₂_join
  rw [RowsPadded] at h
  cases hb' : rows b' with
  | nil => exact absurd hb' (rows_ne_nil b')
  | cons r rs =>
    rw [rows_append_of_unbroken hunit hb']
    rw [hb'] at h
    cases hb : rows b with
    | nil => exact absurd hb (rows_ne_nil b)
    | cons q qs =>
      rw [hb] at h
      cases h with
      | cons hr hrest => exact .cons ⟨hr.ending, .pad hr.content⟩ hrest

/-- Places where units may be put into what lies from `offset` on: points in order, each at a seam. -/
structure Insertable (offset : Nat) (cuts : List (Nat × Nat)) (text : List Char) : Prop where
  point : ∀ c ∈ cuts, c.1 = c.2
  sorted : cuts.Pairwise fun c d => c.1 ≤ d.1
  reached : ∀ c ∈ cuts, offset ≤ c.1
  seam : ∀ c ∈ cuts, SeamAt text (c.1 - offset)

namespace Insertable
variable {unit text : List Char} {offset : Nat} {cuts rest : List (Nat × Nat)}

/-- The first place cuts the text in two, and the other places lie in the second part. -/
private theorem exists_split {cut : Nat × Nat} (h : Insertable offset (cut :: rest) text) :
    ∃ a b, cut = (offset + a.length, offset + a.length) ∧ text = a ++ b ∧ Seam a b ∧
      Insertable (offset + a.length) rest b := by
  obtain ⟨start, stop⟩ := cut
  obtain rfl : start = stop := h.point _ List.mem_cons_self
  obtain ⟨a, b, rfl, hlength, hseam⟩ := h.seam _ List.mem_cons_self
  have hreached : offset ≤ start := h.reached _ List.mem_cons_self
  obtain rfl : start = offset + a.length := by
    rw [hlength]
    omega
  obtain ⟨hle, hsorted⟩ := List.pairwise_cons.mp h.sorted
  refine ⟨a, b, rfl, rfl, hseam, fun c hc => h.point c (List.mem_cons_of_mem _ hc), hsorted, hle, ?_⟩
  intro c hc
  have hsum : c.1 - offset = a.length + (c.1 - (offset + a.length)) := by
    have hlt : offset + a.length ≤ c.1 := hle c hc
    omega
  have hseam' := h.seam c (List.mem_cons_of_mem _ hc)
  rw [hsum] at hseam'
  exact hseam'.of_append

private theorem spliceAll_cons (offset : Nat) (a b : List Char) :
    spliceAll unit offset ((offset + a.length, offset + a.length) :: rest) (a ++ b) =
      a ++ (unit ++ spliceAll unit (offset + a.length) rest b) := by
  rw [spliceAll, Nat.add_sub_cancel_left, List.take_left, List.drop_left, List.append_assoc]

/-- Units put in grow the rows and nothing else. -/
theorem rowsPadded (h : Insertable offset cuts text) (hunit : Unbroken unit) (hne : unit ≠ []) :
    RowsPadded unit text (spliceAll unit offset cuts text) := by
  induction cuts generalizing offset text with
  | nil => exact .refl unit text
  | cons cut rest ih =>
    obtain ⟨a, b, rfl, rfl, hseam, hrest⟩ := h.exists_split
    rw [spliceAll_cons]
    exact rowsPadded_insert hunit hne hseam (ih hrest)

/-- Right after each unit that was put in there is a seam. -/
theorem seamAt_of_mem_splicedEnds (h : Insertable offset cuts text) (hunit : Unbroken unit)
    (hne : unit ≠ []) (before : List Char) {i : Nat}
    (hi : i ∈ splicedEnds unit.length before.length offset cuts) :
    SeamAt (before ++ spliceAll unit offset cuts text) i := by
  induction cuts generalizing offset text before with
  | nil => cases hi
  | cons cut rest ih =>
    obtain ⟨a, b, rfl, rfl, -, hrest⟩ := h.exists_split
    have hlength : before.length + (offset + a.length - offset) + unit.length =
        (before ++ a ++ unit).length := by
      rw [Nat.add_sub_cancel_left, List.length_append, List.length_append]
    rw [spliceAll_cons, ← List.append_assoc, ← List.append_assoc]
    rw [splicedEnds] at hi
    simp only [hlength] at hi
    rcases List.mem_cons.mp hi with rfl | hi
    · exact ⟨_, _, rfl, rfl, hunit.seam_append hne _ _⟩
    · exact ih hrest _ hi

end Insertable

end TabKey.Text
