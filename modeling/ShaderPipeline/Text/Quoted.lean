import ShaderPipeline.Text.Concealed
import ShaderPipeline.Text.Hex

/-!
Quoted texts, as paths and strings appear in messages and listings.

A quoted text stands between double quotes; quotes and backslashes are marked, the common controls have
letters, and any other concealed character is written by its code point.
-/

set_option autoImplicit false
set_option relaxedAutoImplicit false

namespace ShaderPipeline.Text

def quoteChar (c : Char) : String :=
  if c = '"' then "\\\""
  else if c = '\\' then "\\\\"
  else if c = '\n' then "\\n"
  else if c = '\r' then "\\r"
  else if c = '\t' then "\\t"
  else if c.toNat = 0 then "\\0"
  else if isConcealed c then "\\u\x7b" ++ hex c.toNat ++ "\x7d"
  else c.toString

def quoted (s : String) : String :=
  "\"" ++ String.join (s.toList.map quoteChar) ++ "\""

end ShaderPipeline.Text
