import PeerCrawl.Text.Combining
import PeerCrawl.Text.Digits
import PeerCrawl.Text.Unprintable

set_option autoImplicit false

/-! # Quoted text

`quote` writes a text between double quotes on one line: quotes, backslashes and the usual controls
get a backslash, and every other character that has no visible form or extends the one before it is
written by its code point. -/

namespace PeerCrawl

namespace Text

/-- The written form of one character inside quotes. -/
def escape (c : Char) : List Char :=
  if c = '"' then ['\\', '"']
  else if c = '\\' then ['\\', '\\']
  else if c = '\t' then ['\\', 't']
  else if c = '\r' then ['\\', 'r']
  else if c = '\n' then ['\\', 'n']
  else if c = '\x00' then ['\\', '0']
  else if isUnprintable c || isCombining c then
    ['\\', 'u', '\x7b'] ++ digits 16 c.toNat ++ ['\x7d']
  else [c]

/-- A text between double quotes. -/
def quote (s : String) : String :=
  String.ofList ('"' :: s.toList.flatMap escape ++ ['"'])

end Text

end PeerCrawl
