import CommandShell.Text.Unseen

/-!
Texts as they are shown in messages: in quotes, with escapes for what would not be seen.
-/

namespace CommandShell.Text

def shownChar (c : Char) : List Char :=
  if c = '\x22' then ['\\', '\x22']
  else if c = '\\' then ['\\', '\\']
  else if c = '\n' then ['\\', 'n']
  else if c = '\r' then ['\\', 'r']
  else if c = '\t' then ['\\', 't']
  else if c.toNat = 0 then ['\\', '0']
  else if isUnseen c then ['\\', 'u', '\x7b'] ++ Nat.toDigits 16 c.toNat ++ ['\x7d']
  else [c]

def shown (text : String) : String :=
  String.ofList ('\x22' :: text.toList.flatMap shownChar ++ ['\x22'])

end CommandShell.Text
