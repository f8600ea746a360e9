import Mathlib.Data.List.Forall2
import TabKey.Proofs.Rows
import TabKey.Script.Reindent
import TabKey.Situation

/-! A text cut into raw rows, each with its break still on it. Lines without their breaks and raw rows are one
document, and one script. -/
namespace TabKey

namespace Text

/-- A text cut after every break. CR LF is one break, and what follows the last break is a raw row of its own,
perhaps an empty one. -/
def rawRows : List Char → List (List Char)
  | [] => [[]]
  | '\r' :: '\n' :: rest => ['\r', '\n'] :: rawRows rest
  | c :: rest =>
    if (LineBreak.ofChar? c).isSome then [c] :: rawRows rest
    else (rawRows rest).modifyHead (c :: ·)

def LineBreak.inPlace? (cs : List Char) : Option LineBreak :=
  match cs[cs.length - 1]? with
  | none => none
  | some last =>
    if last = '\n' ∧ 2 ≤ cs.length ∧ cs[cs.length - 2]? = some '\r' then some crlf
    else ofChar? last

def upToBreak (cs : List Char) : List Char :=
  cs.take (cs.length - ((LineBreak.inPlace? cs).map fun ending => ending.text.length).getD 0)

/-- Each row is what is left of a raw row when its break is taken off. -/
theorem map_raw_rows (text : List Char) : (rows text).map Row.raw = rawRows text := by
  fun_induction rows text with
  | case1 => rfl
  | case2 rest ih => simpa [rawRows, Row.raw, Row.tail, LineBreak.text] using ih
  | case3 c rest hnot ending hc ih =>
    rw [rawRows, hc]
    · simp [Row.raw, Row.tail, LineBreak.text_of_ofChar? hc, ih]
    · rintro after rfl rfl
      exact hnot after rfl rfl
  | case4 c rest hnot hc ih =>
    rw [rawRows, hc, ← ih]
    · cases hrest : rows rest with
      | nil => exact absurd hrest (rows_ne_nil rest)
      | cons r rs => rfl
    · rintro after rfl rfl
      exact hnot after rfl rfl

namespace LineBreak

theorem atEnd?_concat (cs : List Char) (c : Char) :
    atEnd? (cs ++ [c]) =
      if c = '\n' ∧ cs.getLast? = some '\r' then some crlf else ofChar? c := by
  rw [atEnd?, List.reverse_append, List.reverse_singleton, List.singleton_append]
  split
  · next heq =>
    obtain ⟨rfl, hcs⟩ := List.cons.inj heq
    rw [if_pos ⟨rfl, by rw [List.getLast?_eq_head?_reverse, hcs]; rfl⟩]
  · next hnot heq =>
    obtain ⟨rfl, rfl⟩ := List.cons.inj heq
    rw [if_neg]
    rintro ⟨rfl, hlast⟩
    rw [List.getLast?_eq_head?_reverse] at hlast
    obtain ⟨before, hcs⟩ := List.head?_eq_some_iff.mp hlast
    exact hnot before rfl hcs
  · next heq => cases heq

theorem inPlace?_concat (cs : List Char) (c : Char) :
    inPlace? (cs ++ [c]) =
      if c = '\n' ∧ cs.getLast? = some '\r' then some crlf else ofChar? c := by
  have hlast : (cs ++ [c])[(cs ++ [c]).length - 1]? = some c := by simp
  have hbefore : 2 ≤ (cs ++ [c]).length ∧ (cs ++ [c])[(cs ++ [c]).length - 2]? = some '\r' ↔
      cs.getLast? = some '\r' := by
    rw [List.length_append, List.length_singleton, List.getLast?_eq_getElem?]
    constructor
    · rintro ⟨htwo, hget⟩
      rwa [show cs.length + 1 - 2 = cs.length - 1 by omega,
        List.getElem?_append_left (by omega)] at hget
    · intro hget
      have hlt : cs.length - 1 < cs.length := (List.getElem?_eq_some_iff.mp hget).1
      refine ⟨by omega, ?_⟩
      rwa [show cs.length + 1 - 2 = cs.length - 1 by omega, List.getElem?_append_left hlt]
  rw [inPlace?, hlast]
  simp only [hbefore]

/-- A text read by place and one read from its end show the same break. -/
theorem inPlace?_eq_atEnd? (cs : List Char) : inPlace? cs = atEnd? cs := by
  rcases List.eq_nil_or_concat' cs with rfl | ⟨before, c, rfl⟩
  · rfl
  · rw [inPlace?_concat, atEnd?_concat]

theorem atEnd?_of_unbroken {cs : List Char} (h : Unbroken cs) : atEnd? cs = none := by
  rcases List.eq_nil_or_concat' cs with rfl | ⟨before, c, rfl⟩
  · rfl
  · have hc : ofChar? c = none := h c (by simp)
    rw [atEnd?_concat, if_neg, hc]
    rintro ⟨rfl, -⟩
    cases hc

/-- A break is read back off the end of a text that breaks nowhere else. -/
theorem atEnd?_append_text {cs : List Char} (h : Unbroken cs) (ending : LineBreak) :
    atEnd? (cs ++ ending.text) = some ending := by
  have hlast : cs.getLast? ≠ some '\r' := by
    intro hlast
    cases h '\r' (List.mem_of_getLast? hlast)
  cases ending with
  | crlf =>
    rw [show cs ++ text crlf = (cs ++ ['\r']) ++ ['\n'] by simp [text], atEnd?_concat]
    simp
  | _ => simp [text, atEnd?_concat, hlast, ofChar?]

end LineBreak

theorem upToBreak_eq_dropBreak (cs : List Char) : upToBreak cs = dropBreak cs := by
  rw [upToBreak, LineBreak.inPlace?_eq_atEnd?, dropBreak]
  cases LineBreak.atEnd? cs with
  | none => simp
  | some ending => rfl

theorem dropBreak_of_unbroken {cs : List Char} (h : Unbroken cs) : dropBreak cs = cs := by
  rw [dropBreak, LineBreak.atEnd?_of_unbroken h]

namespace Row

theorem atEnd?_raw {r : Row} (h : Unbroken r.content) : LineBreak.atEnd? r.raw = r.ending := by
  rw [raw, tail]
  cases r.ending with
  | none => simpa using LineBreak.atEnd?_of_unbroken h
  | some ending => exact LineBreak.atEnd?_append_text h ending

theorem dropBreak_raw {r : Row} (h : Unbroken r.content) : dropBreak r.raw = r.content := by
  rw [dropBreak, atEnd?_raw h, raw, tail]
  cases r.ending with
  | none => simp
  | some ending => simp

structure ReadFrom (r : Row) (raw : List Char) : Prop where
  lossless : raw = r.content ++ r.tail
  unbroken : Unbroken r.content
  ending : LineBreak.atEnd? raw = r.ending
  endingInPlace : LineBreak.inPlace? raw = r.ending
  content : dropBreak raw = r.content
  contentInPlace : upToBreak raw = r.content
  stripped : dropBreak r.content = r.content

theorem readFrom_raw {r : Row} (h : Unbroken r.content) : r.ReadFrom r.raw where
  lossless := rfl
  unbroken := h
  ending := atEnd?_raw h
  endingInPlace := by rw [LineBreak.inPlace?_eq_atEnd?, atEnd?_raw h]
  content := dropBreak_raw h
  contentInPlace := by rw [upToBreak_eq_dropBreak, dropBreak_raw h]
  stripped := dropBreak_of_unbroken h

end Row

theorem readFrom_rows (text : List Char) : List.Forall₂ Row.ReadFrom (rows text) (rawRows text) := by
  rw [← map_raw_rows, List.forall₂_map_right_iff]
  exact List.forall₂_same.mpr fun r hr => Row.readFrom_raw ((canonical_rows text).unbroken hr)

/-- Of canonical rows the last one has no break, and only that one. -/
theorem Canonical.ending_eq_none_iff {rs : List Row} (h : Canonical rs) {row : Nat} {r : Row}
    (hr : rs[row]? = some r) : r.ending = none ↔ row + 1 = rs.length := by
  induction rs generalizing row with
  | nil => cases hr
  | cons first rest ih =>
    cases rest with
    | nil =>
      obtain ⟨rfl, rfl⟩ : row = 0 ∧ first = r := by
        cases row with
        | zero => exact ⟨rfl, Option.some.inj hr⟩
        | succ row => cases hr
      exact iff_of_true h.2 rfl
    | cons next rest =>
      obtain ⟨-, ⟨ending, hending, -⟩, hrest⟩ := h
      cases row with
      | zero =>
        cases hr
        simp [hending]
      | succ row =>
        rw [ih hrest hr, List.length_cons (a := first)]
        omega

end Text

namespace Document

/-- Raw rows are a document of the same lines as the text. -/
theorem ofLines_rawRows (text : List Char) : ofLines (Text.rawRows text) = ofText text := by
  have hlines : (Text.rawRows text).map Text.dropBreak = (Text.rows text).map Text.Row.content := by
    rw [← Text.map_raw_rows, List.map_map]
    exact List.map_congr_left fun r hr => Text.Row.dropBreak_raw ((Text.canonical_rows text).unbroken hr)
  rw [ofLines, ofText, hlines]

end Document

namespace Script

/-- A script is the same whether its lines still have their breaks or not. -/
theorem editsFrom_congr (indent : Indent) {lines lines' : List (List Char)}
    (h : lines.map Text.dropBreak = lines'.map Text.dropBreak) (row level : Nat) :
    editsFrom indent row level lines = editsFrom indent row level lines' := by
  induction lines generalizing lines' row level with
  | nil =>
    obtain rfl := List.map_eq_nil_iff.mp h.symm
    rfl
  | cons line rest ih =>
    cases lines' with
    | nil => cases h
    | cons line' rest' =>
      obtain ⟨hline, hrest⟩ := List.cons.inj h
      simp only [editsFrom, hline, ih hrest]

theorem edits_rawRows (indent : Indent) (text : List Char) :
    edits indent (Text.rawRows text) = editsOf indent text := by
  apply editsFrom_congr
  rw [← Text.map_raw_rows, List.map_map, List.map_map]
  apply List.map_congr_left
  intro r hr
  have hunbroken := (Text.canonical_rows text).unbroken hr
  exact (Text.Row.dropBreak_raw hunbroken).trans (Text.dropBreak_of_unbroken hunbroken).symm

end Script

namespace Text

/-- A text falls into rows without loss, and every way of reading them agrees. Each raw row is a content that
breaks no line followed by a break; only the last row has no break; contents and breaks written one after
another are the text. Read from their end or by place, raw rows show the same contents and breaks, and contents
have nothing more to strip. So what is found around a caret, what a trigger sees, and the edits of a script
are the same for the text and for its raw rows. -/
theorem rows_lossless (text : List Char) :
    List.Forall₂ Row.ReadFrom (rows text) (rawRows text) ∧
      (∀ row r, (rows text)[row]? = some r → (r.ending = none ↔ row + 1 = rowCount text)) ∧
      ((rows text).flatMap fun r => r.content ++ r.tail) = text ∧
      Document.ofLines (rawRows text) = Document.ofText text ∧
      (∀ window p, Enclosure.find? (.ofLines (rawRows text)) window p =
        Enclosure.find? (.ofText text) window p) ∧
      (∀ sel settings, (Document.ofLines (rawRows text)).situation sel settings =
        (Document.ofText text).situation sel settings) ∧
      ∀ indent, Script.edits indent (rawRows text) = Script.editsOf indent text := by
  have hdocument := Document.ofLines_rawRows text
  refine ⟨readFrom_rows text, fun row r hr => (canonical_rows text).ending_eq_none_iff hr,
    unrows_rows text, hdocument, ?_, ?_, fun indent => Script.edits_rawRows indent text⟩
  · intro window p
    rw [hdocument]
  · intro sel settings
    rw [hdocument]

end Text

end TabKey
