import TabKey.Text.LineBreak

namespace TabKey.Text

structure Row where
  content : List Char
  ending : Option LineBreak
deriving DecidableEq, Repr

namespace Row

def tail (r : Row) : List Char := (r.ending.map LineBreak.text).getD []

def raw (r : Row) : List Char := r.content ++ r.tail

end Row

def consContent (c : Char) : List Row → List Row
  | [] => [⟨[c], none⟩]
  | r :: rest => ⟨c :: r.content, r.ending⟩ :: rest

/-- The rows of a text. A text that ends in a break has an empty row after it, and the empty text
is one empty row. -/
def rows : List Char → List Row
  | [] => [⟨[], none⟩]
  | '\r' :: '\n' :: rest => ⟨[], some .crlf⟩ :: rows rest
  | c :: rest =>
    match LineBreak.ofChar? c with
    | some ending => ⟨[], some ending⟩ :: rows rest
    | none => consContent c (rows rest)

def unrows (rs : List Row) : List Char := rs.flatMap Row.raw

theorem LineBreak.text_of_ofChar? {c : Char} {b : LineBreak} (h : LineBreak.ofChar? c = some b) :
    b.text = [c] := by
  unfold LineBreak.ofChar? at h
  split at h
  · cases h; subst_vars; rfl
  repeat' split at h
  all_goals first | (cases h; subst_vars; rfl) | cases h

theorem unrows_consContent (c : Char) (rs : List Row) :
    unrows (consContent c rs) = c :: unrows rs := by
  cases rs <;> simp [consContent, unrows, Row.raw, Row.tail]

theorem rows_ne_nil (text : List Char) : rows text ≠ [] := by
  fun_induction rows text with
  | case1 => simp
  | case2 => simp
  | case3 => simp
  | case4 c rest _ _ ih => cases h : rows rest <;> simp [consContent]

/-- No character is lost or moved. -/
@[simp] theorem unrows_rows (text : List Char) : unrows (rows text) = text := by
  fun_induction rows text with
  | case1 => rfl
  | case2 rest ih => simpa [unrows, Row.raw, Row.tail, LineBreak.text] using ih
  | case3 c rest _ ending h ih =>
    simp only [unrows, List.flatMap_cons, Row.raw, Row.tail, Option.map_some, Option.getD_some,
      List.nil_append, LineBreak.text_of_ofChar? h] at ih ⊢
    rw [ih]; rfl
  | case4 c rest _ _ ih => rw [unrows_consContent, ih]

end TabKey.Text
