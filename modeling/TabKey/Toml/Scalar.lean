import TabKey.Toml.Moment

namespace TabKey.Toml

def numeric? (run : List Char) : Option Value :=
  match (unsigned run).dropWhile Char.isDigit with
  | [] => if unsigned run = [] then none else integer? run
  | c :: rest =>
    if c = '-' ∨ c = ':' then if Moment.isMoment run then some .moment else none
    else if (c :: rest).contains ' ' then none
    else if (c :: rest).any fun d => d = '.' || d = 'e' || d = 'E' then (real? run).map .real
    else if c = '_' then integer? run
    else none

def unquoted? (run : List Char) : Option Value :=
  if run = ['t', 'r', 'u', 'e'] then some (.boolean true)
  else if run = ['f', 'a', 'l', 's', 'e'] then some (.boolean false)
  else
    match special? run, marked? run with
    | some x, _ => some (.real x)
    | none, some v => some v
    | none, none => numeric? run

end TabKey.Toml
