import TabKey.Proofs.Reindent

namespace TabKey.Script
open Text

/-- The line begins with one of the words, and the word does not go on. -/
def BeginsWith (words : List String) (line : List Char) : Prop :=
  ∃ word ∈ words, ∃ rest, line = word.toList ++ rest ∧ ∀ c ∈ rest.head?, isWordChar c = false

def EndsInColon (line : List Char) : Prop := line.getLast? = some ':'

def IsBranch (line : List Char) : Prop := BeginsWith ["elif", "else"] line

def OpensBlock (line : List Char) : Prop :=
  BeginsWith ["label", "menu", "screen", "if", "while", "for", "python", "define"] line ∧ EndsInColon line

def IsTopLevel (line : List Char) : Prop :=
  BeginsWith ["label", "screen", "init", "define"] line ∧ ¬EndsInColon line

/-- The level that a line stands on and the one it leaves, where `level` is the level so far. A branch stands one
level out, if there is one. -/
inductive Placed (line : List Char) (level : Nat) : (stands leaves : Nat) → Prop
  | branch (hbranch : IsBranch line) : Placed line level (level - 1) level
  | opener (hbranch : ¬IsBranch line) (hopens : OpensBlock line) : Placed line level level (level + 1)
  | topLevel (hbranch : ¬IsBranch line) (hopens : ¬OpensBlock line) (htop : IsTopLevel line) :
      Placed line level level 0
  | plain (hbranch : ¬IsBranch line) (hopens : ¬OpensBlock line) (htop : ¬IsTopLevel line) :
      Placed line level level level

/-- Rows and what becomes of them, where `level` is the level so far. A blank row stays as it is and leaves the level;
of every other row the white space in front becomes that of the level it stands on. -/
inductive Aligned (indent : Indent) : (level : Nat) → List Row → List Row → Prop
  | nil (level : Nat) : Aligned indent level [] []
  | blank {level : Nat} {r : Row} {rest rest' : List Row} (hblank : isBlank r.content = true)
      (hrest : Aligned indent level rest rest') : Aligned indent level (r :: rest) (r :: rest')
  | text {level stands leaves : Nat} {r : Row} {rest rest' : List Row} (htext : isBlank r.content = false)
      (hplaced : Placed (trim r.content) level stands leaves) (hrest : Aligned indent leaves rest rest') :
      Aligned indent level (r :: rest)
        (⟨indent.indentation stands ++ trimStart r.content, r.ending⟩ :: rest')

namespace Statement

theorem endsWord_iff {rest : List Char} : endsWord rest = true ↔ ∀ c ∈ rest.head?, isWordChar c = false := by
  cases rest <;> simp [endsWord]

theorem afterWord?_eq_some {line rest : List Char} {word : String} :
    afterWord? line word = some rest ↔
      line = word.toList ++ rest ∧ ∀ c ∈ rest.head?, isWordChar c = false := by
  rw [← endsWord_iff, afterWord?]
  constructor
  · intro h
    split at h
    · next hword =>
      obtain rfl := Option.some.inj h
      obtain ⟨hbegins, hends⟩ := Bool.and_eq_true_iff.mp hword
      obtain ⟨after, rfl⟩ := List.isPrefixOf_iff_prefix.mp hbegins
      rw [List.drop_left] at hends ⊢
      exact ⟨rfl, hends⟩
    · cases h
  · rintro ⟨rfl, hends⟩
    simp [hends]

theorem beginsWithWord_iff {words : List String} {line : List Char} :
    beginsWithWord words line = true ↔ BeginsWith words line := by
  simp only [beginsWithWord, List.any_eq_true, Option.isSome_iff_exists, afterWord?_eq_some, BeginsWith]

/-- On a line without a line feed the run from a word to the colon at the end is never broken off. No word ends in
a colon, so the colon at the end is not the word's. -/
theorem opensBlock_iff {words : List String} (hwords : ∀ word ∈ words, word.toList.getLast? ≠ some ':')
    {line : List Char} (hline : '\n' ∉ line) :
    opensBlock words line = true ↔ BeginsWith words line ∧ EndsInColon line := by
  have hruns {word : String} {rest : List Char} (hword : word ∈ words) (hsplit : line = word.toList ++ rest) :
      runsToColon rest = true ↔ EndsInColon line := by
    have hrest : '\n' ∉ rest := by
      intro hmem
      rw [hsplit] at hline
      exact hline (List.mem_append_right _ hmem)
    have hlast : EndsInColon line ↔ rest.getLast? = some ':' := by
      rw [EndsInColon, hsplit, List.getLast?_append]
      cases rest.getLast? with
      | none => simpa using hwords word hword
      | some c => rw [Option.some_or]
    simp [runsToColon, hrest, hlast]
  simp only [opensBlock, List.any_eq_true, Option.any_eq_true, afterWord?_eq_some, BeginsWith]
  constructor
  · rintro ⟨word, hword, rest, ⟨hsplit, hends⟩, hcolon⟩
    exact ⟨⟨word, hword, rest, hsplit, hends⟩, (hruns hword hsplit).mp hcolon⟩
  · rintro ⟨⟨word, hword, rest, hsplit, hends⟩, hcolon⟩
    exact ⟨word, hword, rest, ⟨hsplit, hends⟩, (hruns hword hsplit).mpr hcolon⟩

open Classical in
/-- The kinds of lines in their order of precedence. -/
theorem ofLine_eq {line : List Char} (hline : '\n' ∉ line) :
    ofLine line =
      if IsBranch line then branch else if OpensBlock line then blockOpener
      else if IsTopLevel line then topLevel else plain := by
  have hbranch : beginsWithWord branchWords line = true ↔ IsBranch line := beginsWithWord_iff
  have hopens : opensBlock blockWords line = true ↔ OpensBlock line := opensBlock_iff (by decide) hline
  have htop : (beginsWithWord topLevelWords line && line.getLast? != some ':') = true ↔ IsTopLevel line := by
    rw [Bool.and_eq_true, beginsWithWord_iff, bne_iff_ne]
    rfl
  simp only [ofLine, hbranch, hopens, htop]

end Statement

theorem lf_not_mem_trim {cs : List Char} (h : Unbroken cs) : '\n' ∉ trim cs := by
  have htrim : trim cs ⊆ cs := by
    intro c hc
    rw [trim, trimEnd, List.mem_reverse] at hc
    exact (List.dropWhile_sublist _).subset (List.mem_reverse.mp ((List.dropWhile_sublist _).subset hc))
  intro hmem
  cases h '\n' (htrim hmem)

/-- Every line has its place, and only one. -/
theorem placed_iff {line : List Char} (hline : '\n' ∉ line) {level stands leaves : Nat} :
    Placed line level stands leaves ↔
      stands = (Statement.ofLine line).levelAt level ∧ leaves = (Statement.ofLine line).levelAfter level := by
  have hkind := Statement.ofLine_eq hline
  constructor
  · intro h
    cases h with
    | branch hbranch =>
      rw [hkind, if_pos hbranch]
      exact ⟨rfl, rfl⟩
    | opener hbranch hopens =>
      rw [hkind, if_neg hbranch, if_pos hopens]
      exact ⟨rfl, rfl⟩
    | topLevel hbranch hopens htop =>
      rw [hkind, if_neg hbranch, if_neg hopens, if_pos htop]
      exact ⟨rfl, rfl⟩
    | plain hbranch hopens htop =>
      rw [hkind, if_neg hbranch, if_neg hopens, if_neg htop]
      exact ⟨rfl, rfl⟩
  · rintro ⟨rfl, rfl⟩
    by_cases hbranch : IsBranch line
    · rw [hkind, if_pos hbranch]
      exact .branch hbranch
    · by_cases hopens : OpensBlock line
      · rw [hkind, if_neg hbranch, if_pos hopens]
        exact .opener hbranch hopens
      · by_cases htop : IsTopLevel line
        · rw [hkind, if_neg hbranch, if_neg hopens, if_pos htop]
          exact .topLevel hbranch hopens htop
        · rw [hkind, if_neg hbranch, if_neg hopens, if_neg htop]
          exact .plain hbranch hopens htop

/-- There is one way for rows to be aligned. -/
theorem aligned_iff {indent : Indent} {level : Nat} {rs rs' : List Row} (h : ∀ r ∈ rs, Unbroken r.content) :
    Aligned indent level rs rs' ↔ rs' = levelled indent level rs := by
  constructor
  · intro haligned
    induction haligned with
    | nil level => rfl
    | blank hblank _ ih => rw [levelled, if_pos hblank, ih fun r hr => h r (List.mem_cons_of_mem _ hr)]
    | text htext hplaced _ ih =>
      obtain ⟨rfl, rfl⟩ := (placed_iff (lf_not_mem_trim (h _ List.mem_cons_self))).mp hplaced
      rw [levelled, htext, ih fun r hr => h r (List.mem_cons_of_mem _ hr)]
      rfl
  · rintro rfl
    induction rs generalizing level with
    | nil => exact .nil level
    | cons r rest ih =>
      have hrest := fun r hr => h r (List.mem_cons_of_mem _ hr)
      rw [levelled]
      split
      · next hblank => exact .blank hblank (ih hrest)
      · next htext =>
        rw [Bool.not_eq_true] at htext
        have hplaced : Placed (trim r.content) level _ _ :=
          (placed_iff (lf_not_mem_trim (h r List.mem_cons_self))).mpr ⟨rfl, rfl⟩
        exact .text htext hplaced (ih hrest)

/-- Carrying out the edits for a script changes the margins of its rows and nothing else. Rows and breaks stay, blank
rows too, and every other row comes to stand on the level that the rows above it leave, the first one on level 0. No
other rows are placed so. -/
theorem aligned_applyAll_editsOf (indent : Indent) (text : List Char) (rs : List Row) :
    Aligned indent 0 (rows text) rs ↔ rs = rows (Edit.applyAll (editsOf indent text) text) := by
  rw [aligned_iff fun _ hr => (canonical_rows text).unbroken hr, ← rows_reindent]
  rfl

end TabKey.Script
