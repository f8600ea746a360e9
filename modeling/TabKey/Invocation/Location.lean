import TabKey.Selection
import TabKey.Text.Space

/-! Carets and spans as a user types them: `ROW:COL` or `ROW:COL-ROW:COL`, counted from one. -/
namespace TabKey

inductive LocationFault
  | noColon (text : List Char)
  | badRow (text : List Char)
  | badColumn (text : List Char)
  /-- Rows and columns are counted from one. -/
  | zero (text : List Char)
deriving DecidableEq, Repr

def LocationFault.message : LocationFault → String
  | noColon text => "expected ROW:COL, got '" ++ String.ofList text ++ "'"
  | badRow text => "invalid row in '" ++ String.ofList text ++ "'"
  | badColumn text => "invalid column in '" ++ String.ofList text ++ "'"
  | zero text => "positions are 1-based, got '" ++ String.ofList text ++ "'"

namespace Location

def splitOnce? (c : Char) : List Char → Option (List Char × List Char)
  | [] => none
  | d :: rest =>
    if d = c then some ([], rest) else (splitOnce? c rest).map fun (a, b) => (d :: a, b)

def bound : Nat := Nat.pow 2 64

def valueOf (digits : List Char) : Nat := digits.foldl (fun n c => 10 * n + (c.toNat - 0x30)) 0

def digits? (digits : List Char) : Option Nat :=
  if !digits.isEmpty && digits.all Char.isDigit && valueOf digits < bound then
    some (valueOf digits)
  else none

def number? : List Char → Option Nat
  | '+' :: digits => digits? digits
  | digits => digits? digits

/-- A position. Its row is checked before its column, and both before they are compared with
zero. -/
def position (text : List Char) : Except LocationFault Position :=
  match splitOnce? ':' text with
  | none => .error (.noColon text)
  | some (row, col) =>
    match number? (Text.trim row), number? (Text.trim col) with
    | none, _ => .error (.badRow text)
    | some _, none => .error (.badColumn text)
    | some row, some col =>
      if row = 0 ∨ col = 0 then .error (.zero text) else .ok ⟨row - 1, col - 1⟩

def span (text : List Char) : Except LocationFault Span :=
  match splitOnce? '-' text with
  | some (anchor, head) => do return ⟨← position anchor, ← position head⟩
  | none => do return .caret (← position text)

def ofPosition (p : Position) : List Char :=
  Nat.toDigits 10 (p.row + 1) ++ ':' :: Nat.toDigits 10 (p.col + 1)

def ofSpan (s : Span) : List Char :=
  if s.isCaret then ofPosition s.head else ofPosition s.anchor ++ '-' :: ofPosition s.head

theorem splitOnce?_eq_some {c : Char} {cs a b : List Char} :
    splitOnce? c cs = some (a, b) ↔ cs = a ++ c :: b ∧ c ∉ a := by
  induction cs generalizing a with
  | nil => simp [splitOnce?]
  | cons d rest ih =>
    rw [splitOnce?]
    split
    · next heq =>
      cases a with
      | nil => simp [heq, eq_comm]
      | cons x a =>
        refine iff_of_false nofun ?_
        rintro ⟨hcons, hmem⟩
        obtain ⟨rfl, -⟩ := List.cons.inj hcons
        exact hmem (heq ▸ List.mem_cons_self)
    · next hne =>
      rw [Option.map_eq_some_iff]
      cases a with
      | nil => simp [hne]
      | cons x a =>
        constructor
        · rintro ⟨⟨a', b'⟩, hrest, hcons⟩
          obtain ⟨⟨rfl, rfl⟩, rfl⟩ : (d = x ∧ a' = a) ∧ b' = b := by simpa using hcons
          obtain ⟨rfl, hmem⟩ := ih.mp hrest
          exact ⟨rfl, by simp [hmem, Ne.symm hne]⟩
        · rintro ⟨hcons, hmem⟩
          obtain ⟨rfl, rfl⟩ := List.cons.inj hcons
          exact ⟨(a, b), ih.mpr ⟨rfl, fun ha => hmem (List.mem_cons_of_mem _ ha)⟩, rfl⟩

theorem splitOnce?_eq_none {c : Char} {cs : List Char} : splitOnce? c cs = none ↔ c ∉ cs := by
  induction cs with
  | nil => simp [splitOnce?]
  | cons d rest ih =>
    rw [splitOnce?]
    split
    · next heq => simp [heq]
    · next hne => simp [ih, Ne.symm hne]

end Location

end TabKey
