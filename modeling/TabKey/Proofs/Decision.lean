import TabKey.Buffer

namespace TabKey

namespace Situation
variable {s : Situation} {settings : Settings}

private theorem action_onLine? {eager : Bool} {rule : Rule} {action : Action}
    (h : s.onLine? eager = some (rule, action)) (n : Nat) : action ≠ .indentThenOutdent n := by
  rw [onLine?] at h
  repeat' split at h
  all_goals cases h <;> nofun

private theorem action_offLine (n : Nat) : s.offLine.2 ≠ .indentThenOutdent n := by
  rw [offLine]
  split <;> nofun

/-- A block is indented whenever text is selected. -/
theorem selectsText_of_decide_ne (h : s.decide settings ≠ .indentBlock) : s.selectsText = false := by
  cases hselects : s.selectsText with
  | false => rfl
  | true =>
    rw [decide, ruling, if_pos hselects] at h
    exact absurd rfl h

/-- Units are taken back only for several carets on one row, and one unit stays. -/
theorem eq_of_decide_eq_indentThenOutdent {n : Nat} (h : s.decide settings = .indentThenOutdent n) :
    s.rowCount = 1 ∧ n = s.spanCount - 1 := by
  have hselects : s.selectsText = false := selectsText_of_decide_ne (by rw [h]; nofun)
  rw [decide, ruling, hselects, if_neg Bool.false_ne_true] at h
  split at h
  · next hone =>
    refine ⟨hone, ?_⟩
    rw [onSharedLine?] at h
    split at h
    · cases h
      rfl
    · cases hline : s.onLine? settings.eagerJumpOut with
      | none =>
        rw [hline] at h
        exact absurd h (action_offLine n)
      | some ruled =>
        rw [hline] at h
        exact absurd h (action_onLine? hline n)
  · exact absurd h (action_offLine n)

/-- What a situation must offer for an action that moves carets. No rule moves them to a place of its own. -/
def Warrants (s : Situation) : Action → Prop
  | .jumpOut target => s.exit? = some target
  | .jumpInto target => s.entry? = some target
  | .moveCaretRight => s.atLineEnd
  | .moveCaretTo _ => False
  | _ => True

private theorem warrants_onLine? {eager : Bool} {rule : Rule} {action : Action}
    (h : s.onLine? eager = some (rule, action)) : s.Warrants action := by
  rw [onLine?] at h
  split at h
  · next target hexit =>
    cases h
    exact (Option.ite_none_right_eq_some.mp hexit).2
  · split at h
    · cases h
      trivial
    · split at h
      · cases h
        trivial
      · split at h
        · next target _ hexit =>
          cases h
          exact hexit
        · next target _ hentry =>
          cases h
          exact hentry
        · obtain ⟨hend, hmove⟩ := Option.ite_none_right_eq_some.mp h
          cases hmove
          exact hend

private theorem warrants_offLine : s.Warrants s.offLine.2 := by
  rw [offLine]
  split <;> trivial

theorem warrants_decide (s : Situation) (settings : Settings) : s.Warrants (s.decide settings) := by
  rw [decide, ruling]
  split
  · trivial
  · split
    · rw [onSharedLine?]
      split
      · trivial
      · cases hline : s.onLine? settings.eagerJumpOut with
        | none => exact warrants_offLine
        | some ruled => exact warrants_onLine? hline
    · exact warrants_offLine

/-- A single caret behind the margin leaves the pair it is in, eager or not. -/
theorem decide_of_exit? {target : Position} (htext : s.selectsText = false) (hrows : s.rowCount = 1)
    (hspans : s.spanCount = 1) (hstart : s.atContentStart = false) (hexit : s.exit? = some target) :
    s.decide settings = .jumpOut target := by
  have hline : ∃ rule, s.onLine? settings.eagerJumpOut = some (rule, .jumpOut target) := by
    rw [onLine?, hstart, hexit]
    cases settings.eagerJumpOut && s.hasCloserAhead with
    | true => exact ⟨_, rfl⟩
    | false => exact ⟨_, rfl⟩
  obtain ⟨rule, hline⟩ := hline
  rw [decide, ruling, htext, if_neg Bool.false_ne_true, if_pos hrows, onSharedLine?, hrows, hspans, hline]
  rfl

/-- A single caret behind the margin and in no pair enters the pair ahead. -/
theorem decide_of_entry? {target : Position} (htext : s.selectsText = false) (hrows : s.rowCount = 1)
    (hspans : s.spanCount = 1) (hstart : s.atContentStart = false) (hexit : s.exit? = none)
    (hentry : s.entry? = some target) : s.decide settings = .jumpInto target := by
  have hline : s.onLine? settings.eagerJumpOut = some (.pairAhead, .jumpInto target) := by
    rw [onLine?, hstart, hexit, hentry, ite_self]
    rfl
  rw [decide, ruling, htext, if_neg Bool.false_ne_true, if_pos hrows, onSharedLine?, hrows, hspans, hline]
  rfl

/-- A decision for text, for several rows, or for carets spread over a line needs no more than the facts
about the whole selection. -/
theorem decide_congr {s' : Situation} (settings : Settings)
    (hrows : s.rowCount = s'.rowCount) (hspans : s.spanCount = s'.spanCount)
    (htext : s.selectsText = s'.selectsText) (hend : s.atLineEnd = s'.atLineEnd)
    (hline : s.selectsText = false → s.rowCount = 1 → (s.spanCount ≤ 1 ∨ s.atLineEnd) → s = s') :
    s.decide settings = s'.decide settings := by
  have hoff : s.offLine = s'.offLine := by rw [offLine, offLine, hrows, hspans, hend]
  rw [decide, decide, ruling, ruling]
  cases hselects : s.selectsText with
  | true => rw [← htext, hselects, if_pos rfl, if_pos rfl]
  | false =>
    rw [← htext, hselects, ← hrows]
    by_cases hone : s.rowCount = 1
    · by_cases hspread : (s.rowCount < s.spanCount && !s.atLineEnd) = true
      · have hspread' := hspread
        rw [hrows, hspans, hend] at hspread'
        rw [if_pos hone, if_pos hone, onSharedLine?, onSharedLine?, if_pos hspread, if_pos hspread', hspans]
        rfl
      · simp only [Bool.and_eq_true, decide_eq_true_eq, Bool.not_eq_true', not_and,
          Bool.not_eq_false] at hspread
        have hsame : s = s' := hline hselects hone (by
          by_cases hle : s.spanCount ≤ 1
          · exact .inl hle
          · exact .inr (hspread (by omega)))
        rw [hsame]
    · rw [if_neg hone, if_neg hone, hoff]

end Situation

theorem Outcome.ofTrigger_eq_performed {settings : Settings} {view : View} {action : Action} :
    ofTrigger settings (some view) = .performed action ↔
      settings.enable ∧ (view.document.situation view.selection settings).decide settings = action := by
  cases henable : settings.enable with
  | false => simp [ofTrigger, henable]
  | true => simp [ofTrigger, henable]

/-- What a trigger does to a buffer is what the commands of its action do. -/
theorem Buffer.trigger_of_performed {b : Buffer} {settings : Settings} {action : Action}
    (h : (b.trigger settings).1 = .performed action) : (b.trigger settings).2 = b.runAll action.commands := by
  have houtcome : Outcome.ofTrigger settings (some b.view) = .performed action := h
  rw [trigger, houtcome]
  rfl

end TabKey
