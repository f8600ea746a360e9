import Mathlib.Data.List.Find
import TabKey.Delimiter.Token

namespace TabKey.Text

/-- One character decides the verdict on the next one. -/
theorem isEscaped_succ {text : List Char} {i : Nat} {c : Char} (h : text[i]? = some c) :
    isEscaped text (i + 1) = (c == '\\' && !isEscaped text i) := by
  have hrun : (text.take (i + 1)).reverse = c :: (text.take i).reverse := by
    rw [List.take_add_one, h]
    simp
  unfold isEscaped
  rw [hrun, List.takeWhile_cons]
  cases hc : c == '\\' with
  | false => rfl
  | true =>
    simp only [if_true, List.length_cons, Bool.true_and]
    rcases Nat.mod_two_eq_zero_or_one ((text.take i).reverse.takeWhile (· == '\\')).length with hm | hm
    · simp [Nat.add_mod, hm]
    · simp [Nat.add_mod, hm]

/-- The marks from left to right carry the verdicts of the backward count. -/
theorem drop_glyphs (text : List Char) (i : Nat) :
    (glyphs text).drop i = marked (isEscaped text i) (text.drop i) := by
  induction i with
  | zero => rfl
  | succ i ih =>
    rw [← List.tail_drop, ← List.tail_drop, ih]
    cases h : text.drop i with
    | nil => rfl
    | cons c rest =>
      have hc : text[i]? = some c := by
        rw [← List.head?_drop, h]
        rfl
      rw [isEscaped_succ hc]
      rfl

theorem getElem?_glyphs (text : List Char) (i : Nat) :
    (glyphs text)[i]? = text[i]?.map fun c => ⟨c, isEscaped text i⟩ := by
  rw [← List.head?_drop, drop_glyphs, ← List.head?_drop]
  cases text.drop i <;> rfl

theorem length_take_glyphs {line : List Char} {n : Nat} (h : n ≤ line.length) : ((glyphs line).take n).length = n :=
  List.length_take_of_le (by rwa [length_glyphs])

def bare (cs : List Char) : List Glyph := cs.map fun c => ⟨c, false⟩

@[simp] theorem map_char_bare (cs : List Char) : (bare cs).map Glyph.char = cs := by
  simp [bare, Function.comp_def]

theorem take_bare (n : Nat) (cs : List Char) : (bare cs).take n = bare (cs.take n) := List.map_take.symm

theorem drop_bare (n : Nat) (cs : List Char) : (bare cs).drop n = bare (cs.drop n) := List.map_drop.symm

theorem reverse_bare (cs : List Char) : (bare cs).reverse = bare cs.reverse := List.map_reverse.symm

/-- Behind a text without backslashes the marks begin anew. -/
theorem glyphs_append {front : List Char} (rest : List Char) (h : '\\' ∉ front) :
    glyphs (front ++ rest) = bare front ++ glyphs rest := by
  unfold glyphs
  induction front with
  | nil => rfl
  | cons c front ih =>
    obtain ⟨hc, hfront⟩ := List.ne_and_not_mem_of_not_mem_cons h
    have hfalse : (c == '\\' && !false) = false := by simpa using Ne.symm hc
    rw [List.cons_append, marked, hfalse, ih hfront]
    rfl

/-- Without backslashes nothing is escaped. -/
theorem glyphs_eq_bare {line : List Char} (h : '\\' ∉ line) : glyphs line = bare line := by
  have happend := glyphs_append [] h
  rwa [List.append_nil, show glyphs [] = [] from rfl, List.append_nil] at happend

theorem isEscaped_append {front : List Char} (rest : List Char) (h : '\\' ∉ front) :
    isEscaped (front ++ rest) front.length = false := by
  have hrun : front.reverse.takeWhile (· == '\\') = [] := by
    cases hlast : front.reverse with
    | nil => rfl
    | cons c before =>
      have hmem : c ∈ front := by
        rw [← List.mem_reverse, hlast]
        exact List.mem_cons_self
      have hc : (c == '\\') = false := beq_false_of_ne fun hback => h (hback ▸ hmem)
      exact List.takeWhile_cons_of_neg (by rw [hc]; exact Bool.false_ne_true)
  rw [isEscaped, List.take_left, hrun]
  rfl

end TabKey.Text

namespace TabKey.Delimiter

/-- The bracket that a character opens is the one spelled by it. -/
theorem ofOpener?_eq_some {c : Char} {d : Delimiter} :
    ofOpener? c = some d ↔ d.kind = .structural ∧ d.opener = [c] := by
  constructor
  · intro h
    have hc := List.find?_some h
    have hm := List.mem_of_find?_eq_some h
    refine ⟨?_, by simpa using hc⟩
    revert hm
    cases d <;> decide
  · rintro ⟨hk, hc⟩
    cases d <;> cases hk <;> cases hc <;> rfl

theorem ofCloser?_eq_some {c : Char} {d : Delimiter} :
    ofCloser? c = some d ↔ d.kind = .structural ∧ d.closer = [c] := by
  constructor
  · intro h
    have hc := List.find?_some h
    have hm := List.mem_of_find?_eq_some h
    refine ⟨?_, by simpa using hc⟩
    revert hm
    cases d <;> decide
  · rintro ⟨hk, hc⟩
    cases d <;> cases hk <;> cases hc <;> rfl

/-- No character both opens and closes. -/
theorem ofCloser?_eq_none {c : Char} {d : Delimiter} (h : ofOpener? c = some d) :
    ofCloser? c = none := by
  obtain ⟨hk, hc⟩ := ofOpener?_eq_some.mp h
  cases d <;> cases hk <;> cases hc <;> rfl

theorem opener_injective {d d' : Delimiter} (h : d.opener = d'.opener) : d = d' := by
  revert h
  cases d <;> cases d' <;> decide

theorem backslash_not_mem_opener (d : Delimiter) : '\\' ∉ d.opener := by cases d <;> decide

theorem backslash_not_mem_closer (d : Delimiter) : '\\' ∉ d.closer := by cases d <;> decide

theorem mem_quotes_iff {d : Delimiter} : d ∈ quotes ↔ d.kind = .string := by cases d <;> decide

theorem mem_brackets_iff {d : Delimiter} : d ∈ brackets ↔ d.kind = .structural := by cases d <;> decide

theorem double_mem_quotes : double ∈ quotes := by decide

/-- A quote is one character or three times the same one, and the character by itself is a quote too. -/
theorem exists_single {q : Delimiter} (hq : q ∈ quotes) :
    ∃ d ∈ quotes, ∃ c, d.opener = [c] ∧ (q.opener = [c] ∨ q.opener = [c, c, c]) := by
  simp only [quotes, List.mem_cons, List.not_mem_nil, or_false] at hq
  rcases hq with rfl | rfl | rfl | rfl | rfl
  · exact ⟨.double, by decide, _, rfl, .inr rfl⟩
  · exact ⟨.single, by decide, _, rfl, .inr rfl⟩
  · exact ⟨.double, by decide, _, rfl, .inl rfl⟩
  · exact ⟨.single, by decide, _, rfl, .inl rfl⟩
  · exact ⟨.backquote, by decide, _, rfl, .inl rfl⟩

/-- Of two quotes of which one begins with the other, one is the other's character three times. -/
theorem eq_or_tripled_of_prefix {d q : Delimiter} (hd : d ∈ quotes) (hq : q ∈ quotes) (h : d.opener <+: q.opener) :
    d = q ∨ ∃ c, d.opener = [c] ∧ q.opener = [c, c, c] := by
  obtain ⟨-, -, c, -, hc⟩ := exists_single hd
  obtain ⟨-, -, c', -, hc'⟩ := exists_single hq
  rcases hc with hc | hc <;> rcases hc' with hc' | hc'
  · rw [hc, hc', List.cons_prefix_cons] at h
    exact .inl (opener_injective (by rw [hc, hc', h.1]))
  · rw [hc, hc', List.cons_prefix_cons] at h
    exact .inr ⟨c', by rw [hc, h.1], hc'⟩
  · have hlen := h.length_le
    rw [hc, hc'] at hlen
    simp at hlen
  · rw [hc, hc', List.cons_prefix_cons] at h
    exact .inl (opener_injective (by rw [hc, hc', h.1]))

/-- The table has the longer quotes first, so the first quote that passes a test is a longest one. -/
theorem length_le_of_find? {test : Delimiter → Bool} {d q : Delimiter} (h : quotes.find? test = some q)
    (hd : d ∈ quotes) (htest : test d) : d.opener.length ≤ q.opener.length := by
  have hsorted : quotes.Pairwise fun a b => b.opener.length ≤ a.opener.length := by decide
  obtain ⟨-, longer, shorter, hquotes, hnot⟩ := List.find?_eq_some_iff_append.mp h
  rw [hquotes] at hd hsorted
  rcases List.mem_append.mp hd with hd | hd
  · have hnone := hnot d hd
    rw [htest] at hnone
    cases hnone
  · rcases List.mem_cons.mp hd with rfl | hd
    · exact Nat.le_refl _
    · exact List.rel_of_pairwise_cons (List.pairwise_append.mp hsorted).2.1 hd

theorem length_of_structural {d : Delimiter} (h : d.kind = .structural) :
    d.opener.length = 1 ∧ d.closer.length = 1 := by
  cases d <;> cases h <;> decide

end TabKey.Delimiter

namespace TabKey.Token
open Text (Glyph)

/-- The token is spelled out at a column of the line, and its first character is not escaped. -/
def Stands (line : List Char) (col : Nat) (token : List Char) : Prop :=
  token <+: line.drop col ∧ Text.isEscaped line col = false

theorem beginsAt_cons_iff {token : List Char} {g : Glyph} {rest : List Glyph} :
    beginsAt token (g :: rest) ↔
      token ≠ [] ∧ g.escaped = false ∧ token <+: (g :: rest).map Glyph.char := by
  simp only [beginsAt, Bool.and_eq_true, Bool.not_eq_true', spells_iff, and_assoc]
  simp

theorem beginsAt_marked_iff {token : List Char} {e : Bool} {cs : List Char} :
    beginsAt token (Text.marked e cs) ↔ token ≠ [] ∧ e = false ∧ token <+: cs := by
  cases cs with
  | nil =>
    simp only [Text.marked, beginsAt, Bool.false_eq_true, List.prefix_nil, false_iff]
    rintro ⟨hne, -, rfl⟩
    exact hne rfl
  | cons c rest =>
    have hmap : (Text.marked e (c :: rest)).map Glyph.char = c :: rest := Text.map_char_marked e _
    rw [Text.marked, beginsAt_cons_iff]
    rw [Text.marked] at hmap
    rw [hmap]

/-- The executable test agrees with the reading of a token on the characters. -/
theorem standsAt_iff {line token : List Char} {col : Nat} :
    standsAt line col token ↔ token ≠ [] ∧ Stands line col token := by
  rw [standsAt, Text.drop_glyphs, beginsAt_marked_iff, Stands, and_comm (a := _ <+: _)]

theorem length_le_of_beginsAt {token : List Char} {gs : List Glyph} (h : beginsAt token gs) :
    token.length ≤ gs.length := by
  cases gs with
  | nil => cases h
  | cons g rest => simpa using (beginsAt_cons_iff.mp h).2.2.length_le

theorem length_le_of_endsAt {token : List Char} {before : List Glyph} (h : endsAt token before) :
    token.length ≤ before.length := by
  have hle := length_le_of_beginsAt h
  rw [List.length_reverse, List.length_take] at hle
  exact hle.trans (Nat.min_le_right _ _)

/-- A token seen from its right end is the token that begins its own length further left. -/
theorem endsAt_reverse (token : List Char) (gs : List Glyph) :
    endsAt token gs.reverse = beginsAt token (gs.drop (gs.length - token.length)) := by
  rw [endsAt, List.take_reverse, List.reverse_reverse]

theorem beginsAt_of_prefix {token : List Char} {gs more : List Glyph} (hp : gs <+: more)
    (h : beginsAt token gs) : beginsAt token more := by
  cases gs with
  | nil => cases h
  | cons g rest =>
    obtain ⟨hne, he, ht⟩ := beginsAt_cons_iff.mp h
    obtain ⟨tail, rfl⟩ := hp
    refine beginsAt_cons_iff.mpr ⟨hne, he, ht.trans ?_⟩
    exact List.IsPrefix.map Glyph.char (List.prefix_append _ _)

theorem beginsAt_of_first? {token : List Char} {gs : List Glyph} {n : Nat}
    (h : first? token gs = some n) : beginsAt token (gs.drop n) := by
  induction gs generalizing n with
  | nil => cases h
  | cons g rest ih =>
    rw [first?] at h
    split at h
    · cases h
      assumption
    · obtain ⟨m, hm, rfl⟩ := Option.map_eq_some_iff.mp h
      exact ih hm

/-- The search to the right passes no place at which the token begins. -/
theorem first?_le {token : List Char} {gs : List Glyph} {n m : Nat} (h : first? token gs = some n)
    (hm : beginsAt token (gs.drop m)) : n ≤ m := by
  induction gs generalizing n m with
  | nil => cases h
  | cons g rest ih =>
    rw [first?] at h
    split at h
    · cases h
      exact Nat.zero_le m
    · next hnot =>
      obtain ⟨k, hk, rfl⟩ := Option.map_eq_some_iff.mp h
      cases m with
      | zero => exact absurd hm hnot
      | succ m => exact Nat.succ_le_succ (ih hk hm)

theorem stands_of_beginsAt {line token : List Char} {col : Nat}
    (h : beginsAt token ((Text.glyphs line).drop col)) : Stands line col token :=
  (standsAt_iff.mp h).2

/-- A token that ends where the glyphs before a column leave off stands its own length further left. -/
theorem stands_of_endsAt {line token : List Char} {n col : Nat} {far : List Glyph}
    (hfar : far <:+ ((Text.glyphs line).take n).reverse) (hends : endsAt token far)
    (hlen : far.length = col + token.length) : Stands line col token := by
  have hpre : far.reverse <+: (Text.glyphs line).take n := by
    simpa using List.reverse_prefix.mpr hfar
  have hbegins := endsAt_reverse token far.reverse
  rw [List.reverse_reverse, hends, List.length_reverse, hlen, Nat.add_sub_cancel] at hbegins
  obtain ⟨tail, htail⟩ := hpre.trans (List.take_prefix n _)
  have hcol : col ≤ far.reverse.length := by rw [List.length_reverse]; omega
  apply stands_of_beginsAt
  rw [← htail, List.drop_append_of_le_length hcol]
  exact beginsAt_of_prefix (List.prefix_append _ _) hbegins.symm

/-- A token that stands on a line fits into it. -/
theorem Stands.length_le {line token : List Char} {col : Nat} (h : Stands line col token)
    (hne : token ≠ []) : col + token.length ≤ line.length := by
  have hle := h.1.length_le
  have hpos := List.length_pos_iff.mpr hne
  rw [List.length_drop] at hle
  omega

theorem Stands.beginsAt {line token : List Char} {col : Nat} (h : Stands line col token)
    (hne : token ≠ []) : beginsAt token ((Text.glyphs line).drop col) :=
  standsAt_iff.mpr ⟨hne, h⟩

theorem beginsAt_take {token : List Char} {gs : List Glyph} (h : beginsAt token gs) :
    beginsAt token (gs.take token.length) := by
  cases gs with
  | nil => cases h
  | cons g rest =>
    obtain ⟨hne, he, hp⟩ := beginsAt_cons_iff.mp h
    obtain ⟨n, hn⟩ := Nat.exists_eq_succ_of_ne_zero (List.length_pos_iff.mpr hne).ne'
    have htake : (g :: rest).take token.length = g :: rest.take n := by rw [hn]; rfl
    rw [htake, beginsAt_cons_iff, ← htake, List.map_take, List.prefix_take_iff]
    exact ⟨hne, he, hp, Nat.le_refl _⟩

/-- Seen from its right end a token that stands on a line ends there. -/
theorem Stands.endsAt {line token : List Char} {col : Nat} (h : Stands line col token) (hne : token ≠ []) :
    endsAt token ((Text.glyphs line).take (col + token.length)).reverse := by
  have hlen := h.length_le hne
  have hbegins := beginsAt_take (h.beginsAt hne)
  rw [endsAt_reverse, Text.length_take_glyphs hlen, Nat.add_sub_cancel, List.drop_take,
    Nat.add_sub_cancel_left]
  exact hbegins

/-- Where a token stands, so does each token it begins with. -/
theorem Stands.of_prefix {line token more : List Char} {col : Nat} (h : Stands line col more)
    (hp : token <+: more) : Stands line col token := ⟨hp.trans h.1, h.2⟩

/-- Behind a text without backslashes a token stands where it is written. -/
theorem stands_append {front : List Char} (token rest : List Char) (h : '\\' ∉ front) :
    Stands (front ++ (token ++ rest)) front.length token := by
  refine ⟨?_, Text.isEscaped_append _ h⟩
  rw [List.drop_left]
  exact List.prefix_append _ _

/-- No token begins among characters that it does not have. -/
theorem Stands.le_of_not_mem {front part rest token : List Char} {col : Nat}
    (h : Stands (front ++ (part ++ rest)) col token) (hne : token ≠ []) (hpart : ∀ c ∈ part, c ∉ token)
    (hcol : front.length ≤ col) : front.length + part.length ≤ col := by
  by_contra hlt
  obtain ⟨c, token', rfl⟩ := List.exists_cons_of_ne_nil hne
  obtain ⟨tail, htail⟩ := h.1
  have hchar : (front ++ (part ++ rest))[col]? = some c := by
    rw [← List.head?_drop, ← htail]
    rfl
  rw [List.getElem?_append_right hcol, List.getElem?_append_left (by omega)] at hchar
  exact hpart c (List.mem_of_getElem? hchar) List.mem_cons_self

/-- A token without backslashes may be entered at any of its characters. -/
theorem Stands.drop {text token : List Char} {col i : Nat} (h : Stands text col token) (htoken : '\\' ∉ token)
    (hi : i < token.length) : Stands text (col + i) (token.drop i) := by
  induction i with
  | zero => exact h
  | succ i ih =>
    have hlt : i < token.length := Nat.lt_of_succ_lt hi
    obtain ⟨⟨tail, htail⟩, -⟩ := ih hlt
    rw [List.drop_eq_getElem_cons hlt] at htail
    have hchar : text[col + i]? = some token[i] := by
      rw [← List.head?_drop, ← htail]
      rfl
    have hplain : (token[i] == '\\') = false := by
      rw [beq_eq_false_iff_ne]
      exact fun hback => htoken (hback ▸ List.getElem_mem hlt)
    have hrest : token.drop (i + 1) ++ tail = text.drop (col + i + 1) := by
      rw [← List.tail_drop (i := col + i), ← htail]
      rfl
    have hescaped : Text.isEscaped text (col + i + 1) = false := by
      rw [Text.isEscaped_succ hchar, hplain, Bool.false_and]
    exact ⟨⟨tail, hrest⟩, hescaped⟩

theorem find?_eq_some {line token : List Char} {start col : Nat} (h : find? line start token = some col) :
    start ≤ col ∧ Stands line col token := by
  obtain ⟨n, hn, rfl⟩ := Option.map_eq_some_iff.mp h
  have hbegins := beginsAt_of_first? hn
  rw [List.drop_drop] at hbegins
  exact ⟨Nat.le_add_right _ _, stands_of_beginsAt hbegins⟩

/-- The search answers with the first place from `start` on. -/
theorem find?_le {line token : List Char} {start col place : Nat} (h : find? line start token = some col)
    (hs : Stands line place token) (hle : start ≤ place) (hne : token ≠ []) : col ≤ place := by
  obtain ⟨n, hn, rfl⟩ := Option.map_eq_some_iff.mp h
  obtain ⟨m, rfl⟩ := Nat.exists_eq_add_of_le hle
  have hbegins := hs.beginsAt hne
  rw [← List.drop_drop] at hbegins
  exact Nat.add_le_add_left (first?_le hn hbegins) start

theorem exists_first? {token : List Char} {gs : List Glyph} {m : Nat} (h : beginsAt token (gs.drop m)) :
    ∃ n, first? token gs = some n := by
  induction gs generalizing m with
  | nil =>
    rw [List.drop_nil] at h
    cases h
  | cons g rest ih =>
    rw [first?]
    split
    · exact ⟨0, rfl⟩
    · next hnot =>
      cases m with
      | zero => exact absurd h hnot
      | succ m =>
        obtain ⟨n, hn⟩ := ih h
        exact ⟨n + 1, by rw [hn]; rfl⟩

/-- The search answers wherever the token stands from `start` on. -/
theorem exists_find? {line token : List Char} {start place : Nat} (hs : Stands line place token)
    (hle : start ≤ place) (hne : token ≠ []) : ∃ col, find? line start token = some col := by
  obtain ⟨m, rfl⟩ := Nat.exists_eq_add_of_le hle
  have hbegins := hs.beginsAt hne
  rw [← List.drop_drop] at hbegins
  obtain ⟨n, hn⟩ := exists_first? hbegins
  exact ⟨start + n, by rw [find?, hn]; rfl⟩

/-- Where a token stands and none like it does before, the search finds it. -/
theorem find?_eq_of_first {line token : List Char} {start col : Nat} (hs : Stands line col token) (hle : start ≤ col)
    (hne : token ≠ []) (hfirst : ∀ place, start ≤ place → Stands line place token → col ≤ place) :
    find? line start token = some col := by
  obtain ⟨found, hfound⟩ := exists_find? hs hle hne
  obtain ⟨hstart, hstands⟩ := find?_eq_some hfound
  rw [hfound, Nat.le_antisymm (find?_le hfound hs hle hne) (hfirst found hstart hstands)]

/-- At any character other than the three quotes. -/
theorem quoteAt?_eq_none {g : Glyph} (rest : List Glyph) (h : ∀ q ∈ Delimiter.quotes, g.char ∉ q.opener) :
    quoteAt? (g :: rest) = none := by
  apply List.find?_eq_none.mpr
  intro q hq hbegins
  obtain ⟨hne, -, hp⟩ := beginsAt_cons_iff.mp hbegins
  obtain ⟨c, token, hc⟩ := List.exists_cons_of_ne_nil hne
  rw [hc, List.map_cons, List.cons_prefix_cons] at hp
  exact h q hq (hc ▸ hp.1 ▸ List.mem_cons_self)

/-- Where a quote stands, the longest one that does begins with it. -/
theorem Stands.exists_quoteAt? {line : List Char} {col : Nat} {d : Delimiter} (h : Stands line col d.opener)
    (hd : d ∈ Delimiter.quotes) :
    ∃ q ∈ Delimiter.quotes, quoteAt? ((Text.glyphs line).drop col) = some q ∧ Stands line col q.opener ∧
      d.opener <+: q.opener := by
  have hbegins := h.beginsAt d.opener_ne_nil
  obtain ⟨q, hq⟩ : ∃ q, quoteAt? ((Text.glyphs line).drop col) = some q :=
    Option.isSome_iff_exists.mp (List.find?_isSome.mpr ⟨d, hd, hbegins⟩)
  have hstands : Stands line col q.opener := stands_of_beginsAt (by simpa using List.find?_some hq)
  refine ⟨q, List.mem_of_find?_eq_some hq, hq, hstands, ?_⟩
  exact List.prefix_of_prefix_length_le h.1 hstands.1 (Delimiter.length_le_of_find? hq hd hbegins)

section bare
open Text (bare)

theorem beginsAt_bare {token cs : List Char} :
    beginsAt token (bare cs) ↔ token ≠ [] ∧ token <+: cs := by
  cases cs with
  | nil =>
    simp only [bare, List.map_nil, beginsAt, Bool.false_eq_true, List.prefix_nil, false_iff]
    rintro ⟨hne, rfl⟩
    exact hne rfl
  | cons c cs =>
    have hmap := Text.map_char_bare (c :: cs)
    rw [bare, List.map_cons] at hmap ⊢
    rw [beginsAt_cons_iff, hmap]
    simp

theorem endsAt_bare {token cs : List Char} :
    endsAt token (bare cs) ↔ token ≠ [] ∧ token.reverse <+: cs := by
  rw [endsAt, Text.take_bare, Text.reverse_bare, beginsAt_bare]
  refine and_congr_right fun _ => ⟨fun h => ?_, fun h => ?_⟩
  · have heq := h.eq_of_length_le (List.length_reverse.trans_le (List.length_take_le _ _))
    rw [List.prefix_iff_eq_take, List.length_reverse, List.reverse_eq_iff]
    exact heq
  · rw [List.prefix_iff_eq_take, List.length_reverse, List.reverse_eq_iff] at h
    exact h ▸ List.prefix_rfl

/-- A quote reads the same from both ends. -/
theorem quoteBefore?_bare (cs : List Char) : quoteBefore? (bare cs) = quoteAt? (bare cs) := by
  have hpal : ∀ q ∈ Delimiter.quotes, q.opener.reverse = q.opener := by decide
  apply List.find?_congr
  intro q hq
  rw [Bool.eq_iff_iff, endsAt_bare, beginsAt_bare, hpal q hq]

/-- A quote that is not the first of three. -/
theorem quoteAt?_bare_single {d : Delimiter} {c : Char} {cs : List Char} (hd : d ∈ Delimiter.quotes)
    (hc : d.opener = [c]) (h : ¬ [c, c] <+: cs) : quoteAt? (bare (c :: cs)) = some d := by
  have hone : ∀ q ∈ Delimiter.quotes, beginsAt q.opener (bare (c :: cs)) = decide (q = d) := by
    intro q hq
    rw [Bool.eq_iff_iff, beginsAt_bare, decide_eq_true_iff]
    constructor
    · rintro ⟨-, hspelled⟩
      obtain ⟨-, -, x, -, hx | hx⟩ := Delimiter.exists_single hq
      · rw [hx, List.cons_prefix_cons] at hspelled
        exact Delimiter.opener_injective (by rw [hx, hc, hspelled.1])
      · rw [hx, List.cons_prefix_cons] at hspelled
        rw [hspelled.1] at hspelled
        exact absurd hspelled.2 h
    · rintro rfl
      exact ⟨q.opener_ne_nil, by rw [hc, List.cons_prefix_cons]; exact ⟨rfl, List.nil_prefix⟩⟩
  rw [quoteAt?, List.find?_congr hone]
  clear hone hc
  revert hd
  cases d <;> decide

theorem first?_bare {c : Char} {before : List Char} (after : List Char) (h : c ∉ before) :
    first? [c] (bare (before ++ c :: after)) = some before.length := by
  induction before with
  | nil => simp [bare, first?, beginsAt, spells]
  | cons x before ih =>
    obtain ⟨hx, hbefore⟩ := List.ne_and_not_mem_of_not_mem_cons h
    have hnot : beginsAt [c] (bare (x :: (before ++ c :: after))) = false := by
      rw [Bool.eq_false_iff, Ne, beginsAt_bare]
      simp [List.cons_prefix_cons, hx]
    have hcons : bare (x :: (before ++ c :: after)) = ⟨x, false⟩ :: bare (before ++ c :: after) := rfl
    rw [List.cons_append, hcons, first?, ← hcons, hnot, ih hbefore]
    rfl

theorem first?_bare_eq_none {c : Char} {cs : List Char} (h : c ∉ cs) : first? [c] (bare cs) = none := by
  induction cs with
  | nil => rfl
  | cons x cs ih =>
    obtain ⟨hx, hcs⟩ := List.ne_and_not_mem_of_not_mem_cons h
    have hnot : beginsAt [c] (bare (x :: cs)) = false := by
      rw [Bool.eq_false_iff, Ne, beginsAt_bare]
      simp [List.cons_prefix_cons, hx]
    have hcons : bare (x :: cs) = ⟨x, false⟩ :: bare cs := rfl
    rw [hcons, first?, ← hcons, hnot, ih hcs]
    rfl

theorem last?_bare {c : Char} {near : List Char} (far : List Char) (h : c ∉ near) :
    last? [c] (bare (near ++ c :: far)) = some far.length := by
  induction near with
  | nil => simp [bare, last?, endsAt, beginsAt, spells]
  | cons x near ih =>
    obtain ⟨hx, hnear⟩ := List.ne_and_not_mem_of_not_mem_cons h
    have hnot : endsAt [c] (bare (x :: (near ++ c :: far))) = false := by
      rw [Bool.eq_false_iff, Ne, endsAt_bare]
      simp [List.cons_prefix_cons, hx]
    have hcons : bare (x :: (near ++ c :: far)) = ⟨x, false⟩ :: bare (near ++ c :: far) := rfl
    rw [List.cons_append, hcons, last?, ← hcons, hnot, ih hnear]
    rfl

theorem last?_bare_eq_none {c : Char} {cs : List Char} (h : c ∉ cs) : last? [c] (bare cs) = none := by
  induction cs with
  | nil => rfl
  | cons x cs ih =>
    obtain ⟨hx, hcs⟩ := List.ne_and_not_mem_of_not_mem_cons h
    have hnot : endsAt [c] (bare (x :: cs)) = false := by
      rw [Bool.eq_false_iff, Ne, endsAt_bare]
      simp [List.cons_prefix_cons, hx]
    have hcons : bare (x :: cs) = ⟨x, false⟩ :: bare cs := rfl
    rw [hcons, last?, ← hcons, hnot, ih hcs]
    rfl

end bare

theorem quoteBefore?_eq_some {before : List Glyph} {q : Delimiter}
    (h : quoteBefore? before = some q) : q ∈ Delimiter.quotes ∧ endsAt q.opener before := by
  have hends := List.find?_some h
  exact ⟨List.mem_of_find?_eq_some h, hends⟩

/-- No quote that ends at the same place is longer. -/
theorem length_le_of_quoteBefore? {before : List Glyph} {q d : Delimiter} (h : quoteBefore? before = some q)
    (hd : d ∈ Delimiter.quotes) (hends : endsAt d.opener before) : d.opener.length ≤ q.opener.length :=
  Delimiter.length_le_of_find? h hd hends

theorem prefix_of_endsAt {token : List Char} {before : List Glyph} (h : endsAt token before) :
    token.reverse <+: before.map Glyph.char := by
  rw [endsAt] at h
  have hspelled : token <+: ((before.take token.length).reverse).map Glyph.char := by
    cases hgs : (before.take token.length).reverse with
    | nil =>
      rw [hgs] at h
      cases h
    | cons g rest =>
      rw [hgs] at h
      exact (beginsAt_cons_iff.mp h).2.2
  have heq := hspelled.eq_of_length_le (by simp)
  rw [List.map_reverse, List.map_take] at heq
  rw [heq, List.reverse_reverse]
  exact List.take_prefix _ _

theorem quoteBefore?_eq_none {g : Glyph} (before : List Glyph) (h : ∀ q ∈ Delimiter.quotes, g.char ∉ q.opener) :
    quoteBefore? (g :: before) = none := by
  apply List.find?_eq_none.mpr
  intro q hq hends
  have hp := prefix_of_endsAt hends
  obtain ⟨c, cs, hrev⟩ := List.exists_cons_of_ne_nil (List.reverse_ne_nil_iff.mpr q.opener_ne_nil)
  rw [hrev, List.map_cons, List.cons_prefix_cons] at hp
  have hc : c ∈ q.opener := by
    rw [← List.mem_reverse, hrev]
    exact List.mem_cons_self
  exact h q hq (hp.1 ▸ hc)

/-- Where a quote ends, one is found that it begins and ends like. -/
theorem exists_quoteBefore? {before : List Glyph} {d : Delimiter} (hd : d ∈ Delimiter.quotes)
    (hends : endsAt d.opener before) :
    ∃ q, quoteBefore? before = some q ∧ d.opener <+: q.opener ∧ d.closer <+: q.closer := by
  have hpalindrome : ∀ q ∈ Delimiter.quotes, ∀ q' ∈ Delimiter.quotes, q.opener <:+ q'.opener →
      q.opener <+: q'.opener ∧ q.closer <+: q'.closer := by decide
  obtain ⟨q, hq⟩ : ∃ q, quoteBefore? before = some q :=
    Option.isSome_iff_exists.mp (List.find?_isSome.mpr ⟨d, hd, hends⟩)
  obtain ⟨hmem, hqends⟩ := quoteBefore?_eq_some hq
  have hsuffix : d.opener <:+ q.opener := by
    rw [← List.reverse_prefix]
    refine List.prefix_of_prefix_length_le (prefix_of_endsAt hends) (prefix_of_endsAt hqends) ?_
    rw [List.length_reverse, List.length_reverse]
    exact length_le_of_quoteBefore? hq hd hends
  exact ⟨q, hq, hpalindrome d hd q hmem hsuffix⟩

theorem last?_eq_some {token : List Char} {before : List Glyph} {col : Nat}
    (h : last? token before = some col) :
    ∃ far, far <:+ before ∧ endsAt token far ∧ far.length = col + token.length := by
  induction before with
  | nil => cases h
  | cons g before ih =>
    rw [last?] at h
    split at h
    · next hends =>
      cases h
      exact ⟨_, List.suffix_rfl, hends, (Nat.sub_add_cancel (length_le_of_endsAt hends)).symm⟩
    · obtain ⟨far, hfar, hrest⟩ := ih h
      exact ⟨far, hfar.trans (List.suffix_cons g before), hrest⟩

theorem exists_last? {token : List Char} {before far : List Glyph} (hfar : far <:+ before) (hends : endsAt token far) :
    ∃ col, last? token before = some col ∧ far.length ≤ col + token.length := by
  induction before with
  | nil =>
    rw [List.suffix_nil.mp hfar, endsAt, List.take_nil] at hends
    cases hends
  | cons g before ih =>
    rw [last?]
    split
    · have hlen := hfar.length_le
      exact ⟨_, rfl, by omega⟩
    · next hnot =>
      rcases List.suffix_cons_iff.mp hfar with rfl | hfar
      · exact absurd hends hnot
      · exact ih hfar

theorem rfind?_eq_some {line token : List Char} {stop col : Nat} (h : rfind? line stop token = some col) :
    Stands line col token ∧ col + token.length ≤ stop := by
  obtain ⟨far, hfar, hends, hlen⟩ := last?_eq_some h
  have hle := hfar.length_le
  rw [List.length_reverse, List.length_take] at hle
  exact ⟨stands_of_endsAt hfar hends hlen, by omega⟩

/-- The search to the left answers with the last place whose token ends in time. -/
theorem exists_rfind? {line token : List Char} {stop place : Nat} (hs : Stands line place token)
    (hstop : place + token.length ≤ stop) (hne : token ≠ []) :
    ∃ col, rfind? line stop token = some col ∧ place ≤ col := by
  have hlen := hs.length_le hne
  have hfar : ((Text.glyphs line).take (place + token.length)).reverse <:+ ((Text.glyphs line).take stop).reverse :=
    List.reverse_suffix.mpr (List.take_prefix_take_left hstop)
  obtain ⟨col, hcol, hle⟩ := exists_last? hfar (hs.endsAt hne)
  rw [List.length_reverse, Text.length_take_glyphs hlen] at hle
  exact ⟨col, hcol, by omega⟩

end TabKey.Token
