namespace TabKey.Program

structure Host (m : Type → Type) where
  /-- The text of a file; none when it cannot be read or is no text. -/
  read : String → m (Option String)
  /-- Puts a text in place of a file's content; false when that fails. -/
  write : String → String → m Bool
  /-- Adds a text to the end of a file, which is made if it is not there; false when that
  fails. -/
  append : String → String → m Bool
  print : String → m Unit
  /-- Writes a line for the user that is no part of the output. -/
  complain : String → m Unit
  /-- The time, as a log line begins. -/
  now : m String

end TabKey.Program
