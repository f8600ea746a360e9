import Mathlib.Data.List.Forall2
import TabKey.Text.Offset
import TabKey.Text.Splice

namespace TabKey.Text

def Unbroken (cs : List Char) : Prop := ∀ c ∈ cs, LineBreak.ofChar? c = none

/-- Rows as reading a text gives them. A lone CR is not followed by a row that starts with LF. -/
def Canonical : List Row → Prop
  | [] => False
  | [r] => Unbroken r.content ∧ r.ending = none
  | r :: next :: rest => Unbroken r.content ∧
    (∃ ending, r.ending = some ending ∧ (ending = .cr → (unrows (next :: rest)).head? ≠ some '\n')) ∧
    Canonical (next :: rest)

/-- The cut between two texts does not fall within a CR LF. -/
def Seam (before after : List Char) : Prop := before.getLast? = some '\r' → after.head? ≠ some '\n'

/-- Rows of two parts put together: the last row of the first goes on with the first of the second. -/
def join : List Row → List Row → List Row
  | [], bs => bs
  | [r], [] => [r]
  | [r], b :: bs => ⟨r.content ++ b.content, b.ending⟩ :: bs
  | r :: next :: rest, bs => r :: join (next :: rest) bs

theorem Row.raw_ne_nil {r : Row} {ending : LineBreak} (h : r.ending = some ending) : r.raw ≠ [] := by
  rw [raw, tail, h]
  cases ending <;> simp [LineBreak.text]

theorem Row.length_content_lt_raw {r : Row} {ending : LineBreak} (h : r.ending = some ending) :
    r.content.length < r.raw.length := by
  rw [raw, tail, h, List.length_append]
  cases ending <;> simp [LineBreak.text]

theorem Unbroken.nil : Unbroken [] := nofun

theorem Unbroken.append {a b : List Char} (ha : Unbroken a) (hb : Unbroken b) : Unbroken (a ++ b) :=
  fun c hc => (List.mem_append.mp hc).elim (ha c) (hb c)

theorem Unbroken.of_subset {a b : List Char} (hb : Unbroken b) (h : a ⊆ b) : Unbroken a :=
  fun c hc => hb c (h hc)

theorem Unbroken.replicate (n : Nat) {c : Char} (h : LineBreak.ofChar? c = none) :
    Unbroken (List.replicate n c) :=
  fun _ hx => List.eq_of_mem_replicate hx ▸ h

@[simp] theorem unrows_cons (r : Row) (rs : List Row) : unrows (r :: rs) = r.raw ++ unrows rs :=
  List.flatMap_cons

@[simp] theorem unrows_append (as bs : List Row) : unrows (as ++ bs) = unrows as ++ unrows bs :=
  List.flatMap_append

theorem rows_cons {c : Char} (rest : List Char) (h : LineBreak.ofChar? c = none) :
    rows (c :: rest) = consContent c (rows rest) := by
  rw [rows]
  · rw [h]
  · rintro _ rfl
    cases h

/-- A break at the start ends an empty first row. -/
theorem rows_break (ending : LineBreak) (rest : List Char)
    (h : ending = .cr → rest.head? ≠ some '\n') :
    rows (ending.text ++ rest) = ⟨[], some ending⟩ :: rows rest := by
  cases ending with
  | cr =>
    cases rest with
    | nil => rfl
    | cons c rest =>
      have hc : c ≠ '\n' := fun hc => h rfl (congrArg some hc)
      simp only [LineBreak.text, List.singleton_append]
      rw [rows]
      · rfl
      · intro _ _ heq
        exact hc (List.cons.inj heq).1
  | _ => rfl

theorem rows_append_of_unbroken {cs rest : List Char} {r : Row} {rs : List Row} (h : Unbroken cs)
    (hr : rows rest = r :: rs) : rows (cs ++ rest) = ⟨cs ++ r.content, r.ending⟩ :: rs := by
  induction cs with
  | nil => exact hr
  | cons c cs ih =>
    rw [List.cons_append, rows_cons _ (h c List.mem_cons_self),
      ih fun x hx => h x (List.mem_cons_of_mem _ hx)]
    rfl

theorem rows_of_unbroken {cs : List Char} (h : Unbroken cs) : rows cs = [⟨cs, none⟩] := by
  have hrows := rows_append_of_unbroken h (show rows [] = [⟨[], none⟩] from rfl)
  rwa [List.append_nil] at hrows

theorem canonical_cons {r : Row} {rs : List Row} (h : rs ≠ []) :
    Canonical (r :: rs) ↔ Unbroken r.content ∧
      (∃ ending, r.ending = some ending ∧ (ending = .cr → (unrows rs).head? ≠ some '\n')) ∧
      Canonical rs := by
  cases rs with
  | nil => exact absurd rfl h
  | cons next rest => rfl

/-- Reading gives canonical rows. -/
theorem canonical_rows (text : List Char) : Canonical (rows text) := by
  fun_induction rows text with
  | case1 => exact ⟨.nil, rfl⟩
  | case2 rest ih =>
    refine (canonical_cons (rows_ne_nil rest)).mpr ⟨.nil, ⟨_, rfl, ?_⟩, ih⟩
    intro h
    cases h
  | case3 c rest hnot ending hc ih =>
    refine (canonical_cons (rows_ne_nil rest)).mpr ⟨.nil, ⟨_, rfl, ?_⟩, ih⟩
    rintro rfl hhead
    rw [unrows_rows] at hhead
    have htext := LineBreak.text_of_ofChar? hc
    cases rest with
    | nil => cases hhead
    | cons d rest =>
      cases hhead
      cases htext
      exact hnot rest rfl rfl
  | case4 c rest _ hc ih =>
    cases hrest : rows rest with
    | nil => exact absurd hrest (rows_ne_nil rest)
    | cons r rs =>
      rw [hrest] at ih
      have hcons : ∀ cs, Unbroken cs → Unbroken (c :: cs) := by
        intro cs hcs x hx
        rcases List.mem_cons.mp hx with rfl | hx
        · exact hc
        · exact hcs x hx
      cases rs with
      | nil => exact ⟨hcons _ ih.1, ih.2⟩
      | cons next rs => exact ⟨hcons _ ih.1, ih.2⟩

/-- Canonical rows are read back as they were written. -/
theorem rows_unrows {rs : List Row} (h : Canonical rs) : rows (unrows rs) = rs := by
  induction rs with
  | nil => exact absurd h id
  | cons r rs ih =>
    obtain ⟨content, ending⟩ := r
    cases rs with
    | nil =>
      obtain ⟨hcontent, hending⟩ := h
      simp only at hending
      subst hending
      simpa [unrows, Row.raw, Row.tail] using rows_of_unbroken hcontent
    | cons next rest =>
      obtain ⟨hcontent, ⟨b, hending, hcr⟩, hrest⟩ := h
      simp only at hending
      subst hending
      have hbreak := rows_break b (unrows (next :: rest)) hcr
      have hrows := rows_append_of_unbroken hcontent hbreak
      rw [ih hrest, List.append_nil] at hrows
      rw [unrows_cons, Row.raw, List.append_assoc]
      exact hrows

namespace Canonical

theorem unbroken {rs : List Row} (h : Canonical rs) {r : Row} (hr : r ∈ rs) : Unbroken r.content := by
  induction rs with
  | nil => cases hr
  | cons first rs ih =>
    cases rs with
    | nil =>
      obtain rfl := List.mem_singleton.mp hr
      exact h.1
    | cons next rest =>
      rcases List.mem_cons.mp hr with rfl | hr
      · exact h.1
      · exact ih h.2.2 hr

theorem of_append {pre post : List Row} (h : Canonical (pre ++ post)) (hpost : post ≠ []) :
    Canonical post := by
  induction pre with
  | nil => exact h
  | cons r pre ih =>
    rw [List.cons_append, canonical_cons (List.append_ne_nil_of_right_ne_nil _ hpost)] at h
    exact ih h.2.2

theorem raw_ne_nil_of_cons {r : Row} {pre post : List Row} (h : Canonical (r :: pre ++ post))
    (hpost : post ≠ []) : r.raw ≠ [] := by
  rw [List.cons_append, canonical_cons (List.append_ne_nil_of_right_ne_nil _ hpost)] at h
  obtain ⟨-, ⟨_, hending, -⟩, -⟩ := h
  exact Row.raw_ne_nil hending

/-- Between two rows there is a seam. -/
theorem seam {pre post : List Row} (h : Canonical (pre ++ post)) (hpost : post ≠ []) :
    Seam (unrows pre) (unrows post) := by
  induction pre with
  | nil => exact nofun
  | cons r pre ih =>
    rw [List.cons_append, canonical_cons (by simp [hpost])] at h
    obtain ⟨hcontent, ⟨ending, hending, hcr⟩, hrest⟩ := h
    cases pre with
    | nil =>
      intro hlast
      rw [unrows_cons, Row.raw, Row.tail, hending] at hlast
      apply hcr
      cases ending <;> simp [unrows, LineBreak.text] at hlast ⊢
    | cons next pre =>
      intro hlast
      have hne : unrows (next :: pre) ≠ [] := by
        rw [unrows_cons]
        exact List.append_ne_nil_of_left_ne_nil (raw_ne_nil_of_cons hrest hpost) _
      rw [unrows_cons, List.getLast?_append, List.getLast?_eq_some_getLast hne, Option.some_or,
        ← List.getLast?_eq_some_getLast hne] at hlast
      exact ih hrest hlast

/-- Only an empty row that ends in LF begins with one. -/
theorem head?_eq_lf_iff {r : Row} {rs : List Row} (h : Canonical (r :: rs)) :
    (unrows (r :: rs)).head? = some '\n' ↔ r.content = [] ∧ r.ending = some .lf := by
  have hcontent : Unbroken r.content := h.unbroken List.mem_cons_self
  obtain ⟨content, ending⟩ := r
  cases content with
  | cons c cs =>
    have hc : c ≠ '\n' := by
      rintro rfl
      cases hcontent '\n' List.mem_cons_self
    simp [Row.raw, hc]
  | nil =>
    cases ending with
    | none =>
      have hlast : rs = [] := by
        cases rs with
        | nil => rfl
        | cons next rest =>
          obtain ⟨-, ⟨_, hending, -⟩, -⟩ := h
          cases hending
      simp [hlast, unrows, Row.raw, Row.tail]
    | some b => cases b <;> simp [Row.raw, Row.tail, LineBreak.text]

/-- Rows keep being canonical when each is given other content that breaks no line and is not empty unless the
content was. -/
theorem of_forall₂ {rs rs' : List Row} (h : Canonical rs)
    (hrows : List.Forall₂ (fun r r' => r'.ending = r.ending ∧ Unbroken r'.content ∧
      (r'.content = [] → r.content = [])) rs rs') : Canonical rs' := by
  induction hrows with
  | nil => exact h
  | cons hr hrest ih =>
    obtain ⟨hending, hunbroken, -⟩ := hr
    cases hrest with
    | nil => exact ⟨hunbroken, hending.trans h.2⟩
    | cons hnext _ =>
      obtain ⟨-, ⟨ending, hold, hcr⟩, hcanonical⟩ := h
      have hcanonical' := ih hcanonical
      refine ⟨hunbroken, ⟨ending, hending.trans hold, fun hlone hhead => hcr hlone ?_⟩, hcanonical'⟩
      obtain ⟨hempty, hlf⟩ := hcanonical'.head?_eq_lf_iff.mp hhead
      exact hcanonical.head?_eq_lf_iff.mpr ⟨hnext.2.2 hempty, hnext.1.symm.trans hlf⟩

/-- A row may be given other content that breaks no line, and is not empty unless it was. -/
theorem replace {pre post : List Row} {r : Row} {content : List Char}
    (h : Canonical (pre ++ r :: post)) (hu : Unbroken content)
    (hne : content = [] → r.content = []) : Canonical (pre ++ ⟨content, r.ending⟩ :: post) := by
  have hkept (rs : List Row) (hrs : ∀ s ∈ rs, Unbroken s.content) :
      List.Forall₂ (fun s s' : Row => s'.ending = s.ending ∧ Unbroken s'.content ∧
        (s'.content = [] → s.content = [])) rs rs :=
    List.forall₂_same.mpr fun s hs => ⟨rfl, hrs s hs, id⟩
  refine h.of_forall₂ (List.rel_append (hkept pre fun s hs => h.unbroken (by simp [hs])) ?_)
  exact .cons ⟨rfl, hu, hne⟩ (hkept post fun s hs => h.unbroken (by simp [hs]))

end Canonical

theorem join_cons {r : Row} {as : List Row} (bs : List Row) (h : as ≠ []) :
    join (r :: as) bs = r :: join as bs := by
  cases as with
  | nil => exact absurd rfl h
  | cons next rest => rfl

theorem Seam.of_cons {c : Char} {a b : List Char} (h : Seam (c :: a) b) : Seam a b := by
  intro hlast
  apply h
  rw [List.getLast?_cons, hlast]
  rfl

private theorem join_consContent (c : Char) {as : List Row} (bs : List Row) (h : as ≠ []) :
    join (consContent c as) bs = consContent c (join as bs) := by
  match as, bs with
  | [], _ => exact absurd rfl h
  | [_], [] => rfl
  | [_], _ :: _ => rfl
  | _ :: _ :: _, _ => rfl

/-- The rows of a text cut at a seam are those of its parts, joined. -/
theorem rows_append {a b : List Char} (h : Seam a b) : rows (a ++ b) = join (rows a) (rows b) := by
  fun_induction rows a with
  | case1 =>
    cases hb : rows b with
    | nil => exact absurd hb (rows_ne_nil b)
    | cons r rs => exact hb
  | case2 rest ih =>
    rw [join_cons _ (rows_ne_nil rest), ← ih h.of_cons.of_cons]
    rfl
  | case3 c rest hnot ending hc ih =>
    have hbreak := rows_break ending (rest ++ b) fun hcr hhead => by
      have hchar : c = '\r' := by
        have htext := LineBreak.text_of_ofChar? hc
        rw [hcr] at htext
        exact (List.cons.inj htext).1.symm
      cases rest with
      | nil => exact h (congrArg some hchar) hhead
      | cons d rest => exact hnot rest hchar (by rw [Option.some.inj hhead])
    rw [LineBreak.text_of_ofChar? hc] at hbreak
    rw [join_cons _ (rows_ne_nil rest), ← ih h.of_cons]
    exact hbreak
  | case4 c rest _ hc ih =>
    rw [List.cons_append, rows_cons _ hc, ih h.of_cons, join_consContent c _ (rows_ne_nil rest)]

theorem exists_rows_split {text : List Char} {row : Nat} {r : Row} (hr : (rows text)[row]? = some r) :
    ∃ pre post, rows text = pre ++ r :: post ∧ pre.length = row ∧
      rowStart text row = (unrows pre).length ∧ text = unrows pre ++ (r.raw ++ unrows post) := by
  obtain ⟨hlt, hget⟩ := List.getElem?_eq_some_iff.mp hr
  have hsplit : rows text = (rows text).take row ++ r :: (rows text).drop (row + 1) := by
    rw [← hget, List.getElem_cons_drop, List.take_append_drop]
  refine ⟨_, _, hsplit, List.length_take_of_le (Nat.le_of_lt hlt), rfl, ?_⟩
  rw [← unrows_cons, ← unrows_append, ← hsplit, unrows_rows]

/-- An edit within the content of one row changes that row alone. -/
theorem rows_splice {text : List Char} {row start stop : Nat} {u : List Char} {r : Row}
    (hr : (rows text)[row]? = some r) (hu : Unbroken u) (hle : start ≤ stop)
    (hstop : stop ≤ r.content.length) (hne : splice r.content start stop u = [] → r.content = []) :
    rows (splice text (rowStart text row + start) (rowStart text row + stop) u) =
      (rows text).set row ⟨splice r.content start stop u, r.ending⟩ := by
  obtain ⟨pre, post, hrows, hlen, hstart, htext⟩ := exists_rows_split hr
  have hcanonical : Canonical (pre ++ r :: post) := hrows ▸ canonical_rows text
  have hcontent : Unbroken (splice r.content start stop u) := by
    have hr := hcanonical.unbroken (show r ∈ pre ++ r :: post by simp)
    exact ((hr.of_subset (List.take_subset _ _)).append hu).append (hr.of_subset (List.drop_subset _ _))
  have hset : (rows text).set row ⟨splice r.content start stop u, r.ending⟩ =
      pre ++ ⟨splice r.content start stop u, r.ending⟩ :: post := by
    rw [hrows, ← hlen, List.set_append_right _ _ (Nat.le_refl _), Nat.sub_self, List.set_cons_zero]
  have hsplice : splice text (rowStart text row + start) (rowStart text row + stop) u =
      unrows (pre ++ ⟨splice r.content start stop u, r.ending⟩ :: post) := by
    rw [hstart, show splice text = splice (unrows pre ++ (r.raw ++ unrows post)) from
      congrArg splice htext]
    simp only [splice, unrows_append, unrows_cons, Row.raw, Row.tail, List.append_assoc,
      List.take_length_add_append, List.drop_length_add_append,
      List.take_append_of_le_length (Nat.le_trans hle hstop), List.drop_append_of_le_length hstop]
  rw [hset, hsplice, rows_unrows (hcanonical.replace hcontent hne)]

end TabKey.Text
