import TabKey.Text.Escape
import TabKey.Text.Row

namespace TabKey

structure Document where
  lines : List (List Char)
deriving DecidableEq, Repr

namespace Document

def ofText (text : List Char) : Document := ⟨(Text.rows text).map Text.Row.content⟩

/-- One line per entry; an entry loses the one break it may end with and keeps any other. -/
def ofLines (entries : List (List Char)) : Document := ⟨entries.map Text.dropBreak⟩

def lineCount (doc : Document) : Nat := doc.lines.length

def line (doc : Document) (row : Nat) : List Char := doc.lines[row]?.getD []

def glyphs (doc : Document) (row : Nat) : List Text.Glyph := Text.glyphs (doc.line row)

@[simp] theorem length_glyphs (doc : Document) (row : Nat) :
    (doc.glyphs row).length = (doc.line row).length :=
  Text.length_glyphs _

theorem line_eq_nil_of_le {doc : Document} {row : Nat} (h : doc.lineCount ≤ row) :
    doc.line row = [] := by
  unfold line
  rw [List.getElem?_eq_none_iff.2 h]
  rfl

end Document

end TabKey
