import SheetTemplate.Data.Json
import SheetTemplate.Number.Shown
import SheetTemplate.Text.Quoted

namespace SheetTemplate.Data

open Number

namespace JsonText

def escaped (c : Char) : List Char :=
  if c == '"' then ['\\', '"']
  else if c == '\\' then ['\\', '\\']
  else if c.toNat < 32 then '\\' :: 'u' :: Text.hexDigits 4 c.toNat
  else [c]

def quoted (s : String) : String := String.ofList ('"' :: s.toList.flatMap escaped ++ ['"'])

def floatText (x : Float) : String :=
  if x.isNaN then "NaN"
  else if x.isInf then (if x < 0 then "-Infinity" else "Infinity")
  else showFloat x

mutual

def pieces (rest : List String) : Value → List String
  | .null => "null" :: rest
  | .bool b => (if b then "true" else "false") :: rest
  | .int n => showInt n :: rest
  | .float x => floatText x :: rest
  | .list items => "[" :: itemPieces ("]" :: rest) "" items
  | .tuple items => "[" :: itemPieces ("]" :: rest) "" items
  | .dict entries => "\x7b" :: entryPieces ("\x7d" :: rest) "" entries
  | v => quoted v.shown :: rest

def itemPieces (rest : List String) (comma : String) : List Value → List String
  | [] => rest
  | v :: more => comma :: pieces (itemPieces rest "," more) v

def entryPieces (rest : List String) (comma : String) : List (Value × Value) → List String
  | [] => rest
  | (k, v) :: more =>
    comma :: quoted k.shown :: ":" :: pieces (entryPieces rest "," more) v

end

end JsonText

def showJson (v : Value) : String := String.join (JsonText.pieces [] v)

end SheetTemplate.Data
