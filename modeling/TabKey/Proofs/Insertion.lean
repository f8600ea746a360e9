import TabKey.Buffer

namespace TabKey.Buffer

namespace Stretch

def cut (s : Stretch) : Nat × Nat := (s.start, s.stop)

def CutLE (c d : Nat × Nat) : Prop := c.1 < d.1 ∨ (c.1 = d.1 ∧ c.2 ≤ d.2)

/-- Trimming as it acts on start and stop. -/
def trimCuts : (reached : Nat) → List (Nat × Nat) → List (Nat × Nat)
  | _, [] => []
  | reached, (start, stop) :: rest =>
    let start := max start reached
    let stop := max stop start
    (start, stop) :: trimCuts stop rest

/-- Points in order have nothing to trim. -/
theorem trimCuts_eq_self {reached : Nat} {cuts : List (Nat × Nat)} (hpoints : ∀ c ∈ cuts, c.1 = c.2)
    (hsorted : cuts.Pairwise CutLE) (hreached : ∀ c ∈ cuts, reached ≤ c.1) :
    trimCuts reached cuts = cuts := by
  induction cuts generalizing reached with
  | nil => rfl
  | cons cut rest ih =>
    obtain ⟨start, stop⟩ := cut
    obtain rfl : start = stop := hpoints _ List.mem_cons_self
    have hstart : reached ≤ start := hreached _ List.mem_cons_self
    obtain ⟨hle, hsorted⟩ := List.pairwise_cons.mp hsorted
    have hafter : ∀ c ∈ rest, start ≤ c.1 := by
      intro c hc
      have hcut := hle c hc
      simp only [CutLE] at hcut
      omega
    have hrest := ih (fun c hc => hpoints c (List.mem_cons_of_mem _ hc)) hsorted hafter
    simp only [trimCuts, Nat.max_eq_left hstart, Nat.max_self, hrest]

theorem map_cut_trim (reached : Nat) (ss : List Stretch) :
    (trim reached ss).map cut = trimCuts reached (ss.map cut) := by
  induction ss generalizing reached with
  | nil => rfl
  | cons s rest ih => simp only [trim, List.map_cons, ih, cut, trimCuts]

theorem le_iff {a b : Stretch} :
    le a b ↔ a.start < b.start ∨
      (a.start = b.start ∧ (a.stop < b.stop ∨ (a.stop = b.stop ∧ a.index ≤ b.index))) := by
  simp only [le, Bool.or_eq_true, Bool.and_eq_true, decide_eq_true_eq, beq_iff_eq]

theorem pairwise_mergeSort_le (ss : List Stretch) : (ss.mergeSort le).Pairwise (le · ·) := by
  refine List.pairwise_mergeSort ?_ ?_ ss
  · intro a b c hab hbc
    rw [le_iff] at hab hbc ⊢
    omega
  · intro a b
    rw [Bool.or_eq_true, le_iff, le_iff]
    omega

theorem pairwise_sorted (ss : List Stretch) : ((ss.mergeSort le).map cut).Pairwise CutLE := by
  refine List.pairwise_map.mpr ((pairwise_mergeSort_le ss).imp ?_)
  intro a b hab
  rw [le_iff] at hab
  simp only [CutLE, cut]
  omega

end Stretch

def offsets (b : Buffer) (s : Span) : Nat × Nat :=
  (Text.offsetOf b.text s.first, Text.offsetOf b.text s.last)

def cuts (b : Buffer) : List (Nat × Nat) := b.stretches.map Stretch.cut

def ends (b : Buffer) : List Nat := Text.splicedEnds b.indent.unit.length 0 0 b.cuts

theorem text_insertTab (b : Buffer) :
    b.insertTab.text = Text.spliceAll b.indent.unit 0 b.cuts b.text := rfl

/-- What is cut are the offsets of the spans, sorted and then trimmed. -/
theorem exists_sorted_cuts (b : Buffer) :
    ∃ sorted, sorted.Perm (b.selection.spans.map b.offsets) ∧ sorted.Pairwise Stretch.CutLE ∧
      b.cuts = Stretch.trimCuts 0 sorted := by
  refine ⟨_, ?_, Stretch.pairwise_sorted _, Stretch.map_cut_trim 0 _⟩
  refine ((List.mergeSort_perm _ _).map _).trans (List.Perm.of_eq ?_)
  have hplaces : b.selection.spans = b.selection.spans.zipIdx.map Prod.fst :=
    (List.zipIdx_map_fst 0 _).symm
  rw [congrArg (List.map b.offsets) hplaces, List.map_map, List.map_map]
  rfl

/-- Spans in another order cut the same stretches. -/
theorem cuts_of_perm {b b' : Buffer} (htext : b.text = b'.text)
    (hspans : b.selection.spans.Perm b'.selection.spans) : b.cuts = b'.cuts := by
  obtain ⟨sorted, hperm, hsorted, hcuts⟩ := b.exists_sorted_cuts
  obtain ⟨sorted', hperm', hsorted', hcuts'⟩ := b'.exists_sorted_cuts
  have hoffsets : b.offsets = b'.offsets := by
    funext s
    rw [offsets, offsets, htext]
  have hsame : sorted.Perm sorted' := by
    rw [hoffsets] at hperm
    exact hperm.trans ((hspans.map _).trans hperm'.symm)
  have heq : sorted = sorted' := by
    refine hsame.eq_of_pairwise (fun c d _ _ hcd hdc => ?_) hsorted hsorted'
    simp only [Stretch.CutLE] at hcd hdc
    exact Prod.ext (by omega) (by omega)
  rw [hcuts, hcuts', heq]

theorem length_ends (b : Buffer) : b.ends.length = b.selection.spans.length := by
  simp [ends, cuts, stretches]

/-- After a tab there is one caret for each span, right after what was put in for it. -/
theorem spans_insertTab (b : Buffer) :
    b.insertTab.selection.spans.Perm
      (b.ends.map fun i => Span.caret (Text.positionAt b.insertTab.text i)) := by
  let placed := ((b.stretches.map (·.index)).zip b.ends).mergeSort fun a c => a.1 ≤ c.1
  let carets := placed.map fun p => Span.caret (Text.positionAt b.insertTab.text p.2)
  have hselection : b.insertTab.selection = (Selection.ofSpans? carets).getD b.selection := rfl
  have hperm : carets.Perm (b.ends.map fun i => Span.caret (Text.positionAt b.insertTab.text i)) := by
    have hsnd : ((b.stretches.map (·.index)).zip b.ends).map Prod.snd = b.ends :=
      List.map_snd_zip (by simp [ends, cuts])
    have hplaced := ((List.mergeSort_perm ((b.stretches.map (·.index)).zip b.ends)
      fun a c => a.1 ≤ c.1).map Prod.snd).map fun i => Span.caret (Text.positionAt b.insertTab.text i)
    rwa [hsnd, List.map_map] at hplaced
  have hlength : carets.length = b.selection.spans.length := by
    rw [hperm.length_eq, List.length_map, length_ends]
  cases hcarets : carets with
  | nil =>
    rw [hcarets] at hlength
    cases hlength
  | cons first rest =>
    rw [hcarets] at hselection hperm
    rw [hselection]
    exact hperm

end TabKey.Buffer
