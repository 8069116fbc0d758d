import SheetTemplate.CommandLine.Run
import SheetTemplate.Data.JsonText
import SheetTemplate.Workbook.Listing

namespace SheetTemplate

def readText? (path : String) : IO (Option String) := do
  try
    return some (← IO.FS.readFile path)
  catch _ => return none

def files : CommandLine.Files IO where
  text? := readText?
  book? path := do
    return ((← readText? path).bind Data.readJson?).map (Workbook.ofListing id)

def levelRank (title : String) : Nat :=
  ["DEBUG", "INFO", "WARNING", "ERROR", "CRITICAL"].findIdx (· == title)

def shows (level? : Option String) (e : LogEntry) : Bool :=
  match level? with
  | some "NOTSET" => true
  | some level => levelRank level ≤ levelRank e.level.title
  | none => true

def lastLine : Failure → String
  | .template e => e.text
  | .plain f => f.kind.title ++ ": " ++ f.text
  | .library kind => kind.title

end SheetTemplate

open SheetTemplate in
def main (args : List String) : IO UInt32 := do
  let outcome ← CommandLine.run files args
  for e in outcome.log do
    if shows outcome.level? e then IO.eprintln e.line
  IO.print outcome.printed
  match outcome.saved? with
  | some (path, book) => IO.FS.writeFile path (Data.showJson (book.listing id))
  | none => pure ()
  match outcome.exit with
  | .ok code => return code.toUInt32
  | .error f =>
    IO.eprintln (lastLine f)
    return 1
