import TabKey.Invocation.Location
import TabKey.Proofs.Reindent

namespace TabKey

namespace Text

theorem exists_trim_split (cs : List Char) : ∃ before after, cs = before ++ trim cs ++ after ∧
    (∀ c ∈ before, isSpace c = true) ∧ ∀ c ∈ after, isSpace c = true := by
  have hend (cs : List Char) : trimEnd cs ++ (cs.reverse.takeWhile isSpace).reverse = cs := by
    rw [trimEnd, ← List.reverse_append, List.takeWhile_append_dropWhile, List.reverse_reverse]
  refine ⟨margin cs, ((trimStart cs).reverse.takeWhile isSpace).reverse, ?_, ?_, ?_⟩
  · rw [trim, List.append_assoc, hend, margin_append_trimStart]
  · intro c hc
    exact List.mem_takeWhile_imp hc
  · intro c hc
    exact List.mem_takeWhile_imp (List.mem_reverse.mp hc)

/-- Of a text without white space nothing is trimmed but what stands around it. -/
theorem trim_append {before cs after : List Char} (hbefore : ∀ c ∈ before, isSpace c = true)
    (hcs : ∀ c ∈ cs, isSpace c = false) (hafter : ∀ c ∈ after, isSpace c = true) :
    trim (before ++ cs ++ after) = cs := by
  have hkept {cs rest : List Char} (hcs : ∀ c ∈ cs, isSpace c = false) (hrest : ∀ c ∈ rest, isSpace c = true) :
      trimEnd (cs ++ rest) = cs := by
    rw [trimEnd, List.reverse_append, List.dropWhile_append_of_pos (by simpa using hrest)]
    rcases List.eq_nil_or_concat' cs with rfl | ⟨body, last, rfl⟩
    · rfl
    · have hlast := hcs last (by simp)
      rw [List.reverse_concat, List.dropWhile_cons_of_neg (by simp [hlast]), List.reverse_cons, List.reverse_reverse]
  rw [trim, List.append_assoc, trimStart_append hbefore]
  cases cs with
  | nil =>
    have hblank : trimStart after = [] := trimStart_eq_nil_iff.mpr (List.all_eq_true.mpr hafter)
    rw [List.nil_append, hblank]
    rfl
  | cons c cs =>
    have hc := hcs c List.mem_cons_self
    have hstart : trimStart (c :: cs ++ after) = c :: cs ++ after :=
      List.dropWhile_cons_of_neg (by simp [hc])
    rw [hstart, hkept hcs hafter]

end Text

namespace Location

/-- A number is decimal digits, one at least, perhaps after a plus sign, with a value below the bound. -/
def Numeral (cs : List Char) (n : Nat) : Prop :=
  ∃ digits, (cs = digits ∨ cs = '+' :: digits) ∧ digits ≠ [] ∧ (∀ c ∈ digits, c.isDigit = true) ∧
    Nat.ofDigitChars 10 digits 0 = n ∧ n < Nat.pow 2 64

def SpacedNumeral (cs : List Char) (n : Nat) : Prop :=
  ∃ before numeral after, cs = before ++ numeral ++ after ∧ (∀ c ∈ before, Text.isSpace c = true) ∧
    Numeral numeral n ∧ ∀ c ∈ after, Text.isSpace c = true

def Place (cs : List Char) (p : Position) : Prop :=
  ∃ row col, cs = row ++ ':' :: col ∧ SpacedNumeral row (p.row + 1) ∧ SpacedNumeral col (p.col + 1)

inductive Typed : List Char → Span → Prop
  | caret {cs : List Char} {p : Position} (h : Place cs p) : Typed cs (.caret p)
  | span {cs cs' : List Char} {anchor head : Position} (h : Place cs anchor) (h' : Place cs' head) :
      Typed (cs ++ '-' :: cs') ⟨anchor, head⟩

theorem valueOf_eq (digits : List Char) : valueOf digits = Nat.ofDigitChars 10 digits 0 := rfl

theorem digits?_eq_some {digits : List Char} {n : Nat} :
    digits? digits = some n ↔ digits ≠ [] ∧ (∀ c ∈ digits, c.isDigit = true) ∧
      Nat.ofDigitChars 10 digits 0 = n ∧ n < Nat.pow 2 64 := by
  have hbound : bound = Nat.pow 2 64 := rfl
  rw [digits?, ← valueOf_eq, ← hbound]
  constructor
  · intro h
    split at h
    · next hcond =>
      obtain rfl := Option.some.inj h
      simpa [and_assoc] using hcond
    · cases h
  · rintro ⟨hne, hdigits, rfl, hlt⟩
    rw [if_pos]
    simpa [hne, hlt] using hdigits

theorem number?_eq_some {cs : List Char} {n : Nat} : number? cs = some n ↔ Numeral cs n := by
  rw [number?.eq_def]
  split
  · next digits =>
    rw [digits?_eq_some]
    constructor
    · exact fun h => ⟨digits, .inr rfl, h⟩
    · rintro ⟨digits', rfl | heq, h⟩
      · cases h.2.1 '+' List.mem_cons_self
      · obtain rfl := (List.cons.inj heq).2
        exact h
  · next hsign =>
    rw [digits?_eq_some]
    constructor
    · exact fun h => ⟨cs, .inl rfl, h⟩
    · rintro ⟨digits, rfl | heq, h⟩
      · exact h
      · exact absurd heq (hsign digits)

/-- A numeral holds none of the characters that stand between numerals or around them. -/
theorem Numeral.char {cs : List Char} {n : Nat} (h : Numeral cs n) {c : Char} (hc : c ∈ cs) :
    Text.isSpace c = false ∧ c ≠ ':' ∧ c ≠ '-' := by
  have hdigit {d : Char} (hd : d.isDigit = true) : Text.isSpace d = false ∧ d ≠ ':' ∧ d ≠ '-' := by
    rw [Char.isDigit_iff_toNat] at hd
    obtain ⟨hlow, hhigh⟩ : 0x30 ≤ d.toNat ∧ d.toNat ≤ 0x39 := hd
    refine ⟨?_, ?_, ?_⟩
    · simp only [Text.isSpace, Bool.or_eq_false_iff, Bool.and_eq_false_iff, decide_eq_false_iff_not,
        beq_eq_false_iff_ne]
      omega
    · rintro rfl
      exact absurd hhigh (by decide)
    · rintro rfl
      exact absurd hlow (by decide)
  obtain ⟨digits, rfl | rfl, -, hdigits, -⟩ := h
  · exact hdigit (hdigits c hc)
  · rcases List.mem_cons.mp hc with rfl | hc
    · decide
    · exact hdigit (hdigits c hc)

theorem number?_trim_eq_some {cs : List Char} {n : Nat} :
    number? (Text.trim cs) = some n ↔ SpacedNumeral cs n := by
  rw [number?_eq_some]
  constructor
  · intro h
    obtain ⟨before, after, hsplit, hbefore, hafter⟩ := Text.exists_trim_split cs
    exact ⟨before, _, after, hsplit, hbefore, h, hafter⟩
  · rintro ⟨before, numeral, after, rfl, hbefore, h, hafter⟩
    rwa [Text.trim_append hbefore (fun c hc => (h.char hc).1) hafter]

theorem SpacedNumeral.char {cs : List Char} {n : Nat} (h : SpacedNumeral cs n) {c : Char} (hc : c ∈ cs) :
    c ≠ ':' ∧ c ≠ '-' := by
  have hspace {d : Char} (hd : Text.isSpace d = true) : d ≠ ':' ∧ d ≠ '-' := by
    constructor
    all_goals
      rintro rfl
      cases hd
  obtain ⟨before, numeral, after, rfl, hbefore, hnumeral, hafter⟩ := h
  rcases List.mem_append.mp hc with hc | hc
  · rcases List.mem_append.mp hc with hc | hc
    · exact hspace (hbefore c hc)
    · exact (hnumeral.char hc).2
  · exact hspace (hafter c hc)

theorem position_eq_ok {cs : List Char} {p : Position} : position cs = .ok p ↔ Place cs p := by
  rw [position]
  constructor
  · intro h
    split at h
    · cases h
    · next row col hsplit =>
      split at h
      · cases h
      · cases h
      · next r c hrow hcol =>
        split at h
        · cases h
        · next hpos =>
          obtain rfl := Except.ok.inj h
          have hr : r - 1 + 1 = r := by omega
          have hc : c - 1 + 1 = c := by omega
          refine ⟨row, col, (splitOnce?_eq_some.mp hsplit).1, ?_, ?_⟩
          · rw [hr]
            exact number?_trim_eq_some.mp hrow
          · rw [hc]
            exact number?_trim_eq_some.mp hcol
  · rintro ⟨row, col, rfl, hrow, hcol⟩
    have hsplit : splitOnce? ':' (row ++ ':' :: col) = some (row, col) :=
      splitOnce?_eq_some.mpr ⟨rfl, fun hmem => (hrow.char hmem).1 rfl⟩
    simp only [hsplit, number?_trim_eq_some.mpr hrow, number?_trim_eq_some.mpr hcol]
    simp

theorem Place.hyphen_not_mem {cs : List Char} {p : Position} (h : Place cs p) : '-' ∉ cs := by
  obtain ⟨row, col, rfl, hrow, hcol⟩ := h
  intro hmem
  rcases List.mem_append.mp hmem with hmem | hmem
  · exact (hrow.char hmem).2 rfl
  · rcases List.mem_cons.mp hmem with heq | hmem
    · cases heq
    · exact (hcol.char hmem).2 rfl

theorem span_eq_ok {cs : List Char} {s : Span} : span cs = .ok s ↔ Typed cs s := by
  rw [span.eq_def]
  constructor
  · intro h
    split at h
    · next anchor head hsplit =>
      obtain ⟨rfl, -⟩ := splitOnce?_eq_some.mp hsplit
      cases hanchor : position anchor with
      | error fault =>
        rw [hanchor] at h
        cases h
      | ok p =>
        cases hhead : position head with
        | error fault =>
          rw [hanchor, hhead] at h
          cases h
        | ok q =>
          rw [hanchor, hhead] at h
          obtain rfl := Except.ok.inj h
          exact .span (position_eq_ok.mp hanchor) (position_eq_ok.mp hhead)
    · cases hcaret : position cs with
      | error fault =>
        rw [hcaret] at h
        cases h
      | ok p =>
        rw [hcaret] at h
        obtain rfl := Except.ok.inj h
        exact .caret (position_eq_ok.mp hcaret)
  · intro h
    cases h with
    | caret h =>
      rw [splitOnce?_eq_none.mpr h.hyphen_not_mem, position_eq_ok.mpr h]
      rfl
    | span h h' =>
      rw [splitOnce?_eq_some.mpr ⟨rfl, h.hyphen_not_mem⟩]
      simp only [position_eq_ok.mpr h, position_eq_ok.mpr h']
      rfl

theorem numeral_toDigits {n : Nat} (h : n < Nat.pow 2 64) : Numeral (Nat.toDigits 10 n) n :=
  ⟨_, .inl rfl, Nat.toDigits_ne_nil, fun _ hc => Nat.isDigit_of_mem_toDigits (by decide) (by decide) hc,
    Nat.ofDigitChars_ten_toDigits, h⟩

theorem Numeral.spaced {cs : List Char} {n : Nat} (h : Numeral cs n) : SpacedNumeral cs n :=
  ⟨[], cs, [], (List.append_nil _).symm, nofun, h, nofun⟩

theorem SpacedNumeral.lt {cs : List Char} {n : Nat} (h : SpacedNumeral cs n) : n < Nat.pow 2 64 := by
  obtain ⟨_, _, _, -, -, ⟨_, -, -, -, -, hlt⟩, -⟩ := h
  exact hlt

def Displayable (p : Position) : Prop := p.row + 1 < Nat.pow 2 64 ∧ p.col + 1 < Nat.pow 2 64

theorem Place.displayable {cs : List Char} {p : Position} (h : Place cs p) : Displayable p := by
  obtain ⟨_, _, -, hrow, hcol⟩ := h
  exact ⟨hrow.lt, hcol.lt⟩

theorem place_ofPosition {p : Position} (h : Displayable p) : Place (ofPosition p) p :=
  ⟨_, _, rfl, (numeral_toDigits h.1).spaced, (numeral_toDigits h.2).spaced⟩

theorem Typed.displayable {cs : List Char} {s : Span} (h : Typed cs s) :
    Displayable s.anchor ∧ Displayable s.head := by
  cases h with
  | caret h => exact ⟨h.displayable, h.displayable⟩
  | span h h' => exact ⟨h.displayable, h'.displayable⟩

/-- Reading accepts the texts of the grammar and no others, each as the place it is derived for. A place that has been
typed can be displayed, and its two ends displayed with a hyphen between them are read as the same place. So is any
position that can be displayed, as a caret. -/
theorem span_eq_ok_iff_typed :
    (∀ cs s, span cs = .ok s ↔ Typed cs s) ∧
    (∀ cs s, Typed cs s → Displayable s.anchor ∧ Displayable s.head ∧
      span (ofPosition s.anchor ++ '-' :: ofPosition s.head) = .ok s) ∧
    ∀ p, Displayable p → span (ofPosition p) = .ok (.caret p) := by
  refine ⟨fun _ _ => span_eq_ok, fun cs s h => ?_, fun p h => span_eq_ok.mpr (.caret (place_ofPosition h))⟩
  obtain ⟨hanchor, hhead⟩ := h.displayable
  exact ⟨hanchor, hhead, span_eq_ok.mpr (.span (place_ofPosition hanchor) (place_ofPosition hhead))⟩

/-- Signs, leading zeros and wide spaces are read, and are gone when the place is displayed. -/
theorem span_eq_ok_iff_typed_spaced :
    let cs := ['\u2003', '+', '0', '7', ' ', ':', '1', '-', '2', ':', '\n', '3']
    let s : Span := ⟨⟨6, 0⟩, ⟨1, 2⟩⟩
    Typed cs s ∧ ofPosition s.anchor = ['7', ':', '1'] ∧ ofPosition s.head = ['2', ':', '3'] ∧
      span (ofPosition s.anchor ++ '-' :: ofPosition s.head) = .ok s ∧
      span (ofPosition s.head) = .ok (.caret s.head) := by
  intro cs s
  obtain ⟨hread, hdisplayed, hcaret⟩ := span_eq_ok_iff_typed
  have htyped : Typed cs s := (hread cs s).mp (by rfl)
  obtain ⟨-, hhead, hsame⟩ := hdisplayed cs s htyped
  exact ⟨htyped, by decide, by decide, hsame, hcaret s.head hhead⟩

end Location

end TabKey
