namespace TabKey.Text

/-- A line terminator: CR LF as one, LF, CR, and the Unicode breaks VT, FF, NEL, LS and PS. -/
inductive LineBreak
  | crlf | lf | cr | vt | ff | nel | ls | ps
deriving DecidableEq, Repr

namespace LineBreak

def text : LineBreak → List Char
  | crlf => ['\r', '\n']
  | lf => ['\n']
  | cr => ['\r']
  | vt => ['\x0b']
  | ff => ['\x0c']
  | nel => ['\u0085']
  | ls => ['\u2028']
  | ps => ['\u2029']

def ofChar? (c : Char) : Option LineBreak :=
  if c = '\n' then some lf
  else if c = '\r' then some cr
  else if c = '\x0b' then some vt
  else if c = '\x0c' then some ff
  else if c = '\u0085' then some nel
  else if c = '\u2028' then some ls
  else if c = '\u2029' then some ps
  else none

def atEnd? (cs : List Char) : Option LineBreak :=
  match cs.reverse with
  | '\n' :: '\r' :: _ => some crlf
  | c :: _ => ofChar? c
  | [] => none

end LineBreak

def dropBreak (cs : List Char) : List Char :=
  match LineBreak.atEnd? cs with
  | some ending => cs.take (cs.length - ending.text.length)
  | none => cs

end TabKey.Text
