import AuditTrail.AuditError
import AuditTrail.Entry.Codec
import AuditTrail.Verification
/-!
# Ledger files

A ledger file has one entry a line. Lines end with a line feed, before which a carriage return may
stand; the last line needs no end. Blank lines are skipped, and every other line has to write an
entry. The first line that does not is named by its number, blank lines counted.
-/

namespace AuditTrail.LedgerFile

/-- Puts a byte in front of some lines: a line feed ends a line of its own. -/
def consByte (b : UInt8) (lines : List (List UInt8)) : List (List UInt8) :=
  if b = 10 then [] :: lines
  else
    match lines with
    | [] => [[b]]
    | line :: rest => (b :: line) :: rest

/-- The lines of some bytes, without line feeds. -/
def splitLines (bytes : List UInt8) : List (List UInt8) := bytes.foldr consByte []

/-- A line without the carriage return at its end. -/
def dropReturn (line : List UInt8) : List UInt8 :=
  if line.getLast? = some 13 then line.dropLast else line

def lineText? (line : List UInt8) : Option String := String.fromUTF8? ⟨(dropReturn line).toArray⟩

/-- The entries of some lines, of which the first has the given number. -/
def readLines : Nat → List (List UInt8) → Except AuditError (List Entry)
  | _, [] => .ok []
  | number, line :: rest =>
    match lineText? line with
    | none => .error (.ledgerLine number .notText)
    | some text =>
      if Text.isAllBlank text then readLines (number + 1) rest
      else
        match Entry.read? text with
        | none => .error (.ledgerEntry number)
        | some e => (readLines (number + 1) rest).map (e :: ·)

/-- The entries of a file with some content. -/
def read (bytes : ByteArray) : Except AuditError (List Entry) :=
  readLines 1 (splitLines bytes.data.toList)

/-- The entries of the file at a path. -/
def load (store : FileStore) (path : String) : Except AuditError (List Entry) :=
  match store.find path with
  | .error fault => .error (.fileOpen path fault)
  | .ok node =>
    match FileStore.content node with
    | .error fault => .error (.ledgerLine 1 fault)
    | .ok bytes => read bytes

def verify (store : FileStore) (path : String) (checker : Option Signer) (now : Instant) :
    Except AuditError Verification :=
  if store.has path then (load store path).map (Verification.of checker now)
  else .error (.ledgerMissing path)

def writeLine (e : Entry) : ByteArray := (String.ofList (e.write ++ ['\n'])).toUTF8

/-- Opens the file that entries are copied to, making the folders on the way to it. -/
def openExport (store : FileStore) (path : String) : Except AuditError (Place × FileStore) :=
  match store.makeFolders path with
  | .error fault => .error (.exportFolder fault)
  | .ok store =>
    match store.openForAppending path with
    | .error fault => .error (.fileOpen path fault)
    | .ok opened => .ok opened

end AuditTrail.LedgerFile
