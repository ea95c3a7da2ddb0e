/-
# Printing JSON

Two forms of a value: all on one line without blanks, and indented by two blanks a level with
one element or field on each line.
-/
import CloudCodec.Json.Basic
import CloudCodec.Numeral.Integer
import CloudCodec.Text.Quoted

namespace CloudCodec.Json

/-- One character inside a printed string. -/
def escaped (c : Char) : String :=
  if c = '"' then "\\\""
  else if c = '\\' then "\\\\"
  else if c.toNat = 8 then "\\b"
  else if c.toNat = 12 then "\\f"
  else if c = '\n' then "\\n"
  else if c = '\r' then "\\r"
  else if c = '\t' then "\\t"
  else if c.toNat < 0x10 then "\\u000" ++ Text.hexDigits c.toNat
  else if c.toNat < 0x20 then "\\u00" ++ Text.hexDigits c.toNat
  else c.toString

/-- A string with its quotes, behind `out`. -/
def writeText (out s : String) : String :=
  s.toList.foldl (fun out c => out ++ escaped c) (out.push '"') |>.push '"'

/-- A value without elements, behind `out`. -/
def writeAtom (out : String) : Json → String
  | .null => out ++ "null"
  | .boolean true => out ++ "true"
  | .boolean false => out ++ "false"
  | .integer n => out ++ Numeral.integerText n
  | .real spelling => out ++ spelling
  | .text s => writeText out s
  | .unreadable => out ++ "\"\""
  | .array _ => out ++ "[]"
  | .object _ => out ++ "\x7b\x7d"

/-! ### On one line -/

mutual

/-- A value on one line, behind `out`. -/
def writeCompact (out : String) : Json → String
  | .array (e :: elements) => writeElements (writeCompact (out.push '[') e) elements |>.push ']'
  | .object ((name, e) :: fields) =>
    writeFields (writeCompact (writeText (out.push '\x7b') name |>.push ':') e) fields
      |>.push '\x7d'
  | atom => writeAtom out atom

/-- The elements behind the first, each with its comma. -/
def writeElements (out : String) : List Json → String
  | [] => out
  | e :: elements => writeElements (writeCompact (out.push ',') e) elements

/-- The fields behind the first, each with its comma. -/
def writeFields (out : String) : List (String × Json) → String
  | [] => out
  | (name, e) :: fields =>
    writeFields (writeCompact (writeText (out.push ',') name |>.push ':') e) fields

end

/-- A value on one line. -/
def compact (value : Json) : String := writeCompact "" value

/-! ### Indented -/

/-- A new line at a level of indentation. -/
def newLine (out : String) (level : Nat) : String :=
  out.push '\n' ++ String.ofList (List.replicate (2 * level) ' ')

mutual

/-- An indented value at a level, behind `out`. -/
def writeIndented (level : Nat) (out : String) : Json → String
  | .array (e :: elements) =>
    let out := writeIndented (level + 1) (newLine (out.push '[') (level + 1)) e
    newLine (writeIndentedElements (level + 1) out elements) level |>.push ']'
  | .object ((name, e) :: fields) =>
    let out := writeText (newLine (out.push '\x7b') (level + 1)) name ++ ": "
    let out := writeIndented (level + 1) out e
    newLine (writeIndentedFields (level + 1) out fields) level |>.push '\x7d'
  | atom => writeAtom out atom

/-- The elements behind the first, each behind a comma on a line of its own. -/
def writeIndentedElements (level : Nat) (out : String) : List Json → String
  | [] => out
  | e :: elements =>
    writeIndentedElements level (writeIndented level (newLine (out.push ',') level) e) elements

/-- The fields behind the first, each behind a comma on a line of its own. -/
def writeIndentedFields (level : Nat) (out : String) : List (String × Json) → String
  | [] => out
  | (name, e) :: fields =>
    let out := writeText (newLine (out.push ',') level) name ++ ": "
    writeIndentedFields level (writeIndented level out e) fields

end

/-- A value with one element or field on each line. -/
def pretty (value : Json) : String := writeIndented 0 "" value

end CloudCodec.Json
