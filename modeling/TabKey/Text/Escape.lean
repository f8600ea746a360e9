namespace TabKey.Text

/-- An odd run of backslashes ends right before index `i`; past the end, `i` is the end. -/
def isEscaped (line : List Char) (i : Nat) : Bool :=
  ((line.take i).reverse.takeWhile (· == '\\')).length % 2 == 1

structure Glyph where
  char : Char
  escaped : Bool
deriving DecidableEq, Repr

/-- Marks each character, where `escaped` says whether the first one is. -/
def marked (escaped : Bool) : List Char → List Glyph
  | [] => []
  | c :: rest => ⟨c, escaped⟩ :: marked (c == '\\' && !escaped) rest

def glyphs (line : List Char) : List Glyph := marked false line

@[simp] theorem length_marked (e : Bool) (line : List Char) :
    (marked e line).length = line.length := by
  induction line generalizing e with
  | nil => rfl
  | cons c rest ih => simp [marked, ih]

@[simp] theorem length_glyphs (line : List Char) : (glyphs line).length = line.length :=
  length_marked false line

@[simp] theorem map_char_marked (e : Bool) (line : List Char) :
    (marked e line).map Glyph.char = line := by
  induction line generalizing e with
  | nil => rfl
  | cons c rest ih => simp [marked, ih]

@[simp] theorem isEscaped_zero (line : List Char) : isEscaped line 0 = false := rfl

end TabKey.Text
