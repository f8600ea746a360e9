import Mathlib.Data.List.MinMax
import Mathlib.Data.List.ReduceOption
import Mathlib.Order.Bounds.Basic
import TabKey.Ahead
import TabKey.Proofs.Token

/-! The pair ahead, by where pairs open and close on the line. To look at the first opener of each pair is enough: any
closer of a later one comes after the first one too. -/
namespace TabKey.PairAhead
variable {line : List Char} {start column : Nat} {d : Delimiter}

def Complete (line : List Char) (column : Nat) (d : Delimiter) : Prop :=
  Token.Stands line column d.opener ∧
    ∃ close, column + d.opener.length ≤ close ∧ Token.Stands line close d.closer

/-- Where some pair of `d` is complete, the one that opens at the first opener is. -/
theorem Complete.first (h : Complete line column d) (hle : start ≤ column) :
    ∃ first ≤ column, Token.find? line start d.opener = some first ∧ Complete line first d := by
  obtain ⟨hopener, close, hinner, hcloser⟩ := h
  obtain ⟨first, hfirst⟩ := Token.exists_find? hopener hle d.opener_ne_nil
  have hfirst_le := Token.find?_le hfirst hopener hle d.opener_ne_nil
  exact ⟨first, hfirst_le, hfirst, (Token.find?_eq_some hfirst).2, close, by omega, hcloser⟩

theorem candidate?_of_complete (hfirst : Token.find? line start d.opener = some column)
    (h : Complete line column d) : candidate? line start d = some ⟨d, column⟩ := by
  obtain ⟨-, close, hinner, hcloser⟩ := h
  obtain ⟨stop, hstop⟩ := Token.exists_find? hcloser hinner d.closer_ne_nil
  simp only [candidate?, hfirst, hstop, Option.bind_eq_bind, Option.bind_some]
  rfl

theorem candidate?_eq_some {ahead : PairAhead} (h : candidate? line start d = some ahead) :
    ahead.delimiter = d ∧ Token.find? line start d.opener = some ahead.column ∧
      ∃ close, Token.find? line ahead.inner d.closer = some close := by
  obtain ⟨column, hopener, h⟩ := Option.bind_eq_some_iff.mp h
  obtain ⟨close, hcloser, h⟩ := Option.bind_eq_some_iff.mp h
  cases h
  exact ⟨rfl, hopener, close, hcloser⟩

/-- What a candidate is: the leftmost complete pair of its kind. -/
theorem candidate?_eq_some_iff :
    candidate? line start d = some ⟨d, column⟩ ↔ IsLeast {c | start ≤ c ∧ Complete line c d} column := by
  constructor
  · intro h
    obtain ⟨-, hopener, close, hcloser⟩ := candidate?_eq_some h
    obtain ⟨hle, hstands⟩ := Token.find?_eq_some hopener
    obtain ⟨hinner, hclose⟩ := Token.find?_eq_some hcloser
    exact ⟨⟨hle, hstands, close, hinner, hclose⟩,
      fun c hc => Token.find?_le hopener hc.2.1 hc.1 d.opener_ne_nil⟩
  · rintro ⟨⟨hle, hcomplete⟩, hleast⟩
    obtain ⟨first, hfirst_le, hfirst, hcomplete'⟩ := hcomplete.first hle
    have hsame := hleast ⟨(Token.find?_eq_some hfirst).1, hcomplete'⟩
    rw [Nat.le_antisymm hfirst_le hsame] at hfirst
    exact candidate?_of_complete hfirst hcomplete

def candidates (line : List Char) (start : Nat) : List PairAhead := Delimiter.all.filterMap (candidate? line start)

theorem mem_candidates {ahead : PairAhead} : ahead ∈ candidates line start ↔
    IsLeast {c | start ≤ c ∧ Complete line c ahead.delimiter} ahead.column := by
  rw [← candidate?_eq_some_iff, candidates, List.mem_filterMap]
  constructor
  · rintro ⟨d, -, hd⟩
    obtain ⟨rfl, -⟩ := candidate?_eq_some hd
    exact hd
  · exact fun h => ⟨_, ahead.delimiter.mem_all, h⟩

/-- Where a pair is complete, a candidate of its kind opens there or before. -/
theorem Complete.exists_candidate (h : Complete line column d) (hle : start ≤ column) :
    ∃ first ≤ column, ⟨d, first⟩ ∈ candidates line start := by
  obtain ⟨first, hfirst_le, hfirst, hcomplete⟩ := h.first hle
  exact ⟨first, hfirst_le, List.mem_filterMap.mpr ⟨d, d.mem_all, candidate?_of_complete hfirst hcomplete⟩⟩

theorem candidates_longest_first (line : List Char) (start : Nat) :
    (candidates line start).Pairwise fun a b => b.delimiter.opener.length ≤ a.delimiter.opener.length := by
  have htable : Delimiter.all.Pairwise fun a b => b.opener.length ≤ a.opener.length := by decide
  refine List.pairwise_filterMap.mpr (htable.imp fun hle a ha b hb => ?_)
  rwa [(candidate?_eq_some ha).1, (candidate?_eq_some hb).1]

/-- Keeping the leftmost find is taking the first one of the least column. -/
theorem find?_eq_argmin (line : List Char) (col : Nat) :
    find? line col = (candidates line (min col line.length)).argmin PairAhead.column := by
  have hfold (finds : List (Option PairAhead)) (best : Option PairAhead) : finds.foldl leftmost best =
      finds.reduceOption.foldl (List.argAux fun b c => b.column < c.column) best := by
    induction finds generalizing best with
    | nil => rfl
    | cons find finds ih =>
      rw [List.foldl_cons, ih]
      cases find with
      | none =>
        rw [List.reduceOption_cons_of_none]
        cases best <;> rfl
      | some b =>
        rw [List.reduceOption_cons_of_some, List.foldl_cons]
        cases best with
        | none => rfl
        | some a =>
          congr 1
          by_cases hle : a.column ≤ b.column
          · simp [leftmost, List.argAux, hle, Nat.not_lt.mpr hle]
          · simp [leftmost, List.argAux, hle, Nat.lt_of_not_le hle]
  rw [find?, hfold, List.reduceOption, List.filterMap_map]
  rfl

/-- The pair ahead opens at the first place right of the caret where its opener stands, and closes later on. -/
theorem find?_eq_some {line : List Char} {col : Nat} {ahead : PairAhead} (h : find? line col = some ahead) :
    Token.find? line (min col line.length) ahead.delimiter.opener = some ahead.column ∧
      ∃ close, Token.find? line ahead.inner ahead.delimiter.closer = some close := by
  rw [find?_eq_argmin] at h
  obtain ⟨d, -, hd⟩ := List.mem_filterMap.mp (List.argmin_mem h)
  obtain ⟨rfl, hopener, hcloser⟩ := candidate?_eq_some hd
  exact ⟨hopener, hcloser⟩

/-- The pair found is leftmost, and the longest of those that open together. -/
theorem leftmost_longest_of_find? {col : Nat} (h : find? line col = some ⟨d, column⟩) :
    IsLeast {c | min col line.length ≤ c ∧ ∃ d', Complete line c d'} column ∧ Complete line column d ∧
      ∀ d', Complete line column d' → d'.opener.length ≤ d.opener.length := by
  rw [find?_eq_argmin, List.argmin_eq_some_iff] at h
  obtain ⟨hmem, hleast, hfirst⟩ := h
  obtain ⟨hstart, hcomplete⟩ := (mem_candidates.mp hmem).1
  refine ⟨⟨⟨hstart, d, hcomplete⟩, ?_⟩, hcomplete, ?_⟩
  · rintro c ⟨hle, d', hcomplete'⟩
    obtain ⟨first, hfirst_le, hcandidate⟩ := hcomplete'.exists_candidate hle
    exact (hleast _ hcandidate).trans hfirst_le
  · intro d' hcomplete'
    obtain ⟨first, hfirst_le, hcandidate⟩ := hcomplete'.exists_candidate hstart
    have hindex := hfirst _ hcandidate hfirst_le
    rcases hindex.eq_or_lt with heq | hlt
    · cases (List.idxOf_inj hmem).mp heq
      exact Nat.le_refl _
    · have hsorted := List.pairwise_iff_getElem.mp (candidates_longest_first line (min col line.length)) _ _
        (List.idxOf_lt_length_iff.mpr hmem) (List.idxOf_lt_length_iff.mpr hcandidate) hlt
      rwa [List.getElem_idxOf, List.getElem_idxOf] at hsorted

theorem find?_eq_none_iff {col : Nat} :
    find? line col = none ↔ ∀ c, min col line.length ≤ c → ∀ d, ¬Complete line c d := by
  rw [find?_eq_argmin, List.argmin_eq_none, List.eq_nil_iff_forall_not_mem]
  constructor
  · intro h c hle d hcomplete
    obtain ⟨first, -, hcandidate⟩ := hcomplete.exists_candidate hle
    exact h _ hcandidate
  · intro h ahead hmem
    obtain ⟨hle, hcomplete⟩ := (mem_candidates.mp hmem).1
    exact h _ hle _ hcomplete

/-- The pair ahead opens at the least column from the caret on at which some pair of the table is complete, and is the
longest pair complete there; it is missing where there is no such column. To look at the first opener of each pair is
enough: if a later one is complete, so is the first. -/
theorem find?_leftmost_complete (line : List Char) (col : Nat) :
    (∀ d column, find? line col = some ⟨d, column⟩ ↔
        IsLeast {c | min col line.length ≤ c ∧ ∃ d', Complete line c d'} column ∧ Complete line column d ∧
          ∀ d', Complete line column d' → d'.opener.length ≤ d.opener.length) ∧
      (find? line col = none ↔ ∀ c, min col line.length ≤ c → ∀ d, ¬Complete line c d) ∧
      ∀ d, (∃ c, min col line.length ≤ c ∧ Complete line c d) ↔
        ∃ first, Token.find? line (min col line.length) d.opener = some first ∧ Complete line first d := by
  refine ⟨fun d column => ⟨leftmost_longest_of_find?, ?_⟩, find?_eq_none_iff, fun d => ⟨?_, ?_⟩⟩
  · rintro ⟨hleast, hcomplete, hlongest⟩
    obtain ⟨⟨d', column'⟩, hfound⟩ : ∃ ahead, find? line col = some ahead :=
      Option.ne_none_iff_exists'.mp fun hnone => find?_eq_none_iff.mp hnone column hleast.1.1 d hcomplete
    obtain ⟨hleast', hcomplete', hlongest'⟩ := leftmost_longest_of_find? hfound
    cases hleast.unique hleast'
    have hopener : d.opener = d'.opener :=
      (List.prefix_of_prefix_length_le hcomplete.1.1 hcomplete'.1.1 (hlongest' d hcomplete)).eq_of_length_le
        (hlongest d' hcomplete')
    rw [hfound, Delimiter.opener_injective hopener]
  · rintro ⟨c, hle, hcomplete⟩
    obtain ⟨first, -, hfirst, hcomplete'⟩ := hcomplete.first hle
    exact ⟨first, hfirst, hcomplete'⟩
  · rintro ⟨first, hfirst, hcomplete⟩
    exact ⟨first, (Token.find?_eq_some hfirst).1, hcomplete⟩

/-- Three quotes that nothing closes are passed by for the single one that they begin with. -/
example : find? ['(', '"', '"', '"', 'a', '"'] 0 = some ⟨.double, 1⟩ := by decide

/-- Quotes ahead are read as the longest one that stands there exactly when it is closed further on. If it is not,
three of a kind stand there, the first is taken for the opener and the second for its closer, and a caret that enters
the pair lands between them. -/
theorem quoteAt?_of_find? {col : Nat} (h : find? line col = some ⟨d, column⟩) (hstring : d.kind = .string) :
    ∃ q, Token.quoteAt? ((Text.glyphs line).drop column) = some q ∧ (q = d ↔ Complete line column q) ∧
      (q ≠ d → ∃ c, d.opener = [c] ∧ q.opener = [c, c, c] ∧ inner ⟨d, column⟩ = column + 1 ∧
        Token.find? line (column + 1) d.closer = some (column + 1)) := by
  obtain ⟨-, hcomplete, hlongest⟩ := leftmost_longest_of_find? h
  have hd : d ∈ Delimiter.quotes := Delimiter.mem_quotes_iff.mpr hstring
  obtain ⟨q, hq, hquote, hstands, hpre⟩ := hcomplete.1.exists_quoteAt? hd
  refine ⟨q, hquote, ⟨fun hsame => hsame ▸ hcomplete, fun hclosed => ?_⟩, fun hne => ?_⟩
  · exact Delimiter.opener_injective (hpre.eq_of_length_le (hlongest q hclosed)).symm
  · rcases Delimiter.eq_or_tripled_of_prefix hd hq hpre with heq | ⟨c, hsingle, htriple⟩
    · exact absurd heq.symm hne
    · refine ⟨c, hsingle, htriple, by simp [inner, hsingle], ?_⟩
      -- The second of the three is the nearest closer.
      have hsecond : Token.Stands line (column + 1) d.closer := by
        have htail := hstands.drop (i := 1) q.backslash_not_mem_opener (by simp [htriple])
        rw [htriple] at htail
        rw [Delimiter.closer_eq_opener hstring, hsingle]
        exact htail.of_prefix ⟨[c], rfl⟩
      exact Token.find?_eq_of_first hsecond (Nat.le_refl _) d.closer_ne_nil fun _ hle _ => hle

/-- The three quotes before a text that goes on below. -/
theorem quoteAt?_of_find?_unclosed :
    find? ['x', ' ', '"', '"', '"', 'a', '\\', '"'] 1 = some ⟨.double, 2⟩ ∧ Delimiter.double.kind = .string ∧
      ∃ q, Token.quoteAt? ((Text.glyphs ['x', ' ', '"', '"', '"', 'a', '\\', '"']).drop 2) = some q ∧
        (q = .double ↔ Complete ['x', ' ', '"', '"', '"', 'a', '\\', '"'] 2 q) ∧
        (q ≠ .double → ∃ c, Delimiter.double.opener = [c] ∧ q.opener = [c, c, c] ∧ inner ⟨.double, 2⟩ = 2 + 1 ∧
          Token.find? ['x', ' ', '"', '"', '"', 'a', '\\', '"'] (2 + 1) Delimiter.double.closer = some (2 + 1)) := by
  have hfind : find? ['x', ' ', '"', '"', '"', 'a', '\\', '"'] 1 = some ⟨.double, 2⟩ := by decide
  exact ⟨hfind, rfl, quoteAt?_of_find? hfind rfl⟩

/-- The pair ahead may open with the first of three quotes. -/
theorem not_forall_quoteAt?_of_find? :
    ¬ ∀ (line : List Char) (col column : Nat) (d : Delimiter), find? line col = some ⟨d, column⟩ → d.kind = .string →
      Token.quoteAt? ((Text.glyphs line).drop column) = some d := by
  intro h
  have hquote := h ['"', '"', '"', 'a'] 0 0 .double (by decide) rfl
  exact absurd hquote (by decide)

end TabKey.PairAhead
