import TabKey.Position

/-! Carets and selections. Spans keep their direction and their order, and they may overlap or repeat. -/
namespace TabKey

structure Span where
  anchor : Position
  head : Position
deriving DecidableEq, Repr, Inhabited

namespace Span

def caret (p : Position) : Span := ⟨p, p⟩

def isCaret (s : Span) : Bool := s.anchor = s.head

def first (s : Span) : Position := min s.anchor s.head

def last (s : Span) : Position := max s.anchor s.head

def firstRow (s : Span) : Nat := s.first.row

/-- The last row a span touches. A span over several rows that ends at column 0 stops on the row
before. -/
def lastRow (s : Span) : Nat :=
  if s.first.row ≠ s.last.row ∧ s.last.col = 0 then s.last.row - 1 else s.last.row

def touches (s : Span) (row : Nat) : Bool := s.firstRow ≤ row && row ≤ s.lastRow

def map (f : Position → Position) (s : Span) : Span := ⟨f s.anchor, f s.head⟩

end Span

structure Selection where
  primary : Span
  others : List Span
deriving DecidableEq, Repr

namespace Selection

def spans (sel : Selection) : List Span := sel.primary :: sel.others

def ofSpans? : List Span → Option Selection
  | [] => none
  | s :: rest => some ⟨s, rest⟩

def caret (p : Position) : Selection := ⟨.caret p, []⟩

def count (sel : Selection) : Nat := sel.spans.length

def selectsText (sel : Selection) : Bool := sel.spans.any (!·.isCaret)

def map (f : Span → Span) (sel : Selection) : Selection := ⟨f sel.primary, sel.others.map f⟩

theorem primary_mem_spans (sel : Selection) : sel.primary ∈ sel.spans := List.mem_cons_self

@[simp] theorem spans_map (f : Span → Span) (sel : Selection) :
    (sel.map f).spans = sel.spans.map f := rfl

theorem mem_spans_map {f : Span → Span} {sel : Selection} {s : Span} :
    s ∈ (sel.map f).spans ↔ ∃ t ∈ sel.spans, f t = s := by
  rw [spans_map, List.mem_map]

theorem map_map (f g : Position → Position) (sel : Selection) :
    (sel.map (·.map f)).map (·.map g) = sel.map (·.map (g ∘ f)) := by
  simp [Selection.map, Span.map, Function.comp_def]

theorem map_congr {f g : Position → Position} {sel : Selection}
    (h : ∀ s ∈ sel.spans, f s.anchor = g s.anchor ∧ f s.head = g s.head) :
    sel.map (·.map f) = sel.map (·.map g) := by
  have hspan : ∀ s ∈ sel.spans, s.map f = s.map g := by
    intro s hs
    rw [Span.map, Span.map, (h s hs).1, (h s hs).2]
  rw [Selection.map, Selection.map, hspan _ sel.primary_mem_spans]
  congr 1
  exact List.map_congr_left fun s hs => hspan s (List.mem_cons_of_mem _ hs)

theorem map_id (sel : Selection) : sel.map (·.map fun p => p) = sel := by
  simp [Selection.map, Span.map]

def emptyMessage : String := "selection must contain at least one range"

end Selection

end TabKey
