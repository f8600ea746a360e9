import Mathlib.Computability.DFA
import TabKey.Ahead
import TabKey.Proofs.Token

/-! Escapes, read from left to right. The first character of a token decides for all of it: where it is not escaped,
no other one is. -/
namespace TabKey

namespace Text
variable {text : List Char} {i : Nat}

/-- Accepts what leaves the character after it escaped. A backslash does, unless it is escaped itself. -/
def escapes : DFA Char Bool where
  step escaped c := c == '\\' && !escaped
  start := false
  accept := {true}

theorem isEscaped_of_length_le (h : text.length ≤ i) : isEscaped text i = isEscaped text text.length := by
  rw [isEscaped, isEscaped, List.take_of_length_le h, List.take_length]

theorem isEscaped_succ_iff (h : i < text.length) :
    isEscaped text (i + 1) = true ↔ text[i] = '\\' ∧ isEscaped text i = false := by
  rw [isEscaped_succ (List.getElem?_eq_getElem h), Bool.and_eq_true, beq_iff_eq, Bool.not_eq_true']

/-- The state in which the automaton comes to a column is the verdict there. -/
theorem eval_escapes_take (text : List Char) (i : Nat) : escapes.eval (text.take i) = isEscaped text i := by
  induction i with
  | zero => rfl
  | succ i ih =>
    rcases Nat.lt_or_ge i text.length with hi | hi
    · rw [List.take_add_one, List.getElem?_eq_getElem hi, Option.toList_some, DFA.eval_append_singleton, ih,
        isEscaped_succ (List.getElem?_eq_getElem hi)]
      rfl
    · rw [List.take_of_length_le hi] at ih
      rw [List.take_of_length_le (Nat.le_succ_of_le hi), ih, isEscaped_of_length_le hi,
        isEscaped_of_length_le (Nat.le_succ_of_le hi)]

theorem take_mem_accepts_escapes : text.take i ∈ escapes.accepts ↔ isEscaped text i = true := by
  rw [DFA.mem_accepts, eval_escapes_take]
  exact Set.mem_singleton_iff

end Text

namespace Token
variable {line token : List Char} {start : Nat}

inductive Tabled : List Char → Prop
  | opener (d : Delimiter) : Tabled d.opener
  | closer (d : Delimiter) : Tabled d.closer
  | ahead {token : List Char} (h : token ∈ CloserAhead.tokens) : Tabled token

theorem Tabled.ne_nil (h : Tabled token) : token ≠ [] := by
  cases h with
  | opener d => exact d.opener_ne_nil
  | closer d => exact d.closer_ne_nil
  | ahead h =>
    revert token
    decide

theorem Tabled.backslash_not_mem (h : Tabled token) : '\\' ∉ token := by
  cases h with
  | opener d => exact d.backslash_not_mem_opener
  | closer d => exact d.backslash_not_mem_closer
  | ahead h =>
    revert token
    decide

/-- A token without backslashes stands where it is spelled out by characters none of which is escaped. -/
theorem standsAt_iff_forall_not_escaped (hne : token ≠ []) (htoken : '\\' ∉ token) :
    standsAt line start token ↔
      token <+: line.drop start ∧ ∀ i < token.length, Text.isEscaped line (start + i) = false := by
  rw [standsAt_iff]
  constructor
  · rintro ⟨-, hstands⟩
    exact ⟨hstands.1, fun i hi => (hstands.drop htoken hi).2⟩
  · rintro ⟨hspelled, hunescaped⟩
    exact ⟨hne, hspelled, hunescaped 0 (List.length_pos_iff.mpr hne)⟩

/-- With a backslash in it a token may have an escaped character where it stands. -/
example : standsAt ['\\', '"'] 0 ['\\', '"'] ∧ Text.isEscaped ['\\', '"'] 1 = true := by decide

end Token

namespace Text

/-- Whether a character is escaped is settled by those to the left of it, read one by one. The first one is not, and
each further one is exactly if the one before it is a backslash that is not escaped itself; past the end the verdict
is that of the end. This is what the automaton accepts and what every search goes by. Where a token of the tables
stands, no character of it is escaped, and the first one decides for all of them. -/
theorem isEscaped_left_to_right (text : List Char) :
    (isEscaped text 0 = false ∧
      (∀ (i : Nat) (hi : i < text.length),
        isEscaped text (i + 1) = true ↔ text[i] = '\\' ∧ isEscaped text i = false) ∧
      ∀ i, text.length ≤ i → isEscaped text i = isEscaped text text.length) ∧
    (∀ i, (text.take i ∈ escapes.accepts ↔ isEscaped text i = true) ∧
      (glyphs text)[i]? = text[i]?.map fun c => ⟨c, isEscaped text i⟩) ∧
    ∀ token, Token.Tabled token → ∀ start, Token.standsAt text start token ↔
      token <+: text.drop start ∧ ∀ i < token.length, isEscaped text (start + i) = false := by
  refine ⟨⟨isEscaped_zero text, fun i hi => isEscaped_succ_iff hi, fun i hi => isEscaped_of_length_le hi⟩,
    fun i => ⟨take_mem_accepts_escapes, getElem?_glyphs text i⟩, fun token htoken start => ?_⟩
  exact Token.standsAt_iff_forall_not_escaped htoken.ne_nil htoken.backslash_not_mem

/-- Two backslashes before three quotes, and one that nothing follows. -/
theorem isEscaped_left_to_right_tripleQuote :
    let text := ['\\', '\\', '"', '"', '"', '\\']
    0 < text.length ∧ isEscaped text 1 = true ∧ text.length ≤ 9 ∧ isEscaped text 9 = true ∧
      Token.Tabled ['"', '"', '"'] ∧ Token.standsAt text 2 ['"', '"', '"'] = true ∧
      ∀ i < 3, isEscaped text (2 + i) = false := by
  intro text
  have hnext : 0 < text.length := by decide
  have hpast : text.length ≤ 9 := by decide
  have htoken : Token.Tabled ['"', '"', '"'] := .opener .tripleDouble
  have hstands : Token.standsAt text 2 ['"', '"', '"'] = true := by decide
  obtain ⟨⟨hfirst, hsucc, hbeyond⟩, -, hstretch⟩ := isEscaped_left_to_right text
  have hend : isEscaped text text.length = true := by decide
  exact ⟨hnext, (hsucc 0 hnext).mpr ⟨rfl, hfirst⟩, hpast, (hbeyond 9 hpast).trans hend, htoken, hstands,
    ((hstretch _ htoken 2).mp hstands).2⟩

end Text

end TabKey
