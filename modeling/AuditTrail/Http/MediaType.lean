import AuditTrail.Text.Split
/-!
# Media types

A media type is a type, a slash, a subtype that may end in a suffix behind a plus sign, and
parameters behind semicolons. A type is JSON when it is an application type whose subtype or suffix
is named so.
-/

namespace AuditTrail.Http

/-- The marks that may stand in a token besides letters and digits. -/
def tokenMarks : List Char :=
  ['!', '#', '$', '%', '&', '\'', '*', '+', '-', '.', '^', '_', '\x60', '|', '~']

def isTokenChar (c : Char) : Bool := c.isAlphanum || tokenMarks.contains c

/-- Characters that make up a token. -/
def isToken (cs : List Char) : Bool := !cs.isEmpty && cs.all isTokenChar

def isQuotedChar (c : Char) : Bool := 31 < c.toNat && c.toNat != 127

/-- The rest behind a quoted value, without the spaces that follow it. A value has a character at
least, which may be a quote. -/
def afterQuoted? : List Char → Option (List Char)
  | [] => none
  | first :: cs =>
    if isQuotedChar first then
      match cs.dropWhile fun c => c != '"' && isQuotedChar c with
      | '"' :: rest => some (rest.dropWhile (· == ' '))
      | _ => none
    else none

/-- The parameters can be read; the number bounds how many there are. -/
def areParameters : Nat → List Char → Bool
  | 0, _ => false
  | bound + 1, cs =>
    match cs.dropWhile (· == ' ') with
    | [] => true
    | cs =>
      let name := cs.takeWhile isTokenChar
      match cs.dropWhile isTokenChar with
      | '=' :: '"' :: rest =>
        !name.isEmpty &&
          match afterQuoted? rest with
          | some [] => true
          | some (c :: rest) => c == ';' && areParameters bound rest
          | none => false
      | '=' :: rest =>
        !name.isEmpty &&
          match rest.dropWhile isTokenChar with
          | [] => true
          | c :: more =>
            c == ';' && !(rest.takeWhile isTokenChar).isEmpty && areParameters bound more
      | _ => false

/-- A subtype parted at its last plus sign; one that begins the subtype parts nothing. -/
def splitSuffix (subtype : List Char) : List Char × Option (List Char) :=
  let suffix := (subtype.reverse.takeWhile (· != '+')).reverse
  let front := subtype.take (subtype.length - suffix.length - 1)
  if subtype.contains '+' && !front.isEmpty then (front, some suffix) else (subtype, none)

/-- The letters of the format. -/
def jsonName : List Char := ['j', 's', 'o', 'n']

/-- A visible ASCII character, a space or a tab. -/
def isHeaderChar (c : Char) : Bool := c == '\t' || (32 ≤ c.toNat && c.toNat < 127)

def isJsonType (mediaType : String) : Bool :=
  mediaType.toList.all isHeaderChar && match Text.cutAt '/' (Text.lowered mediaType).toList with
  | none => false
  | some (kind, rest) =>
    let (subtype, parametersOk) := match Text.cutAt ';' rest with
      | some (subtype, parameters) => (subtype, areParameters (parameters.length + 1) parameters)
      | none => (rest, true)
    let (front, suffix) := splitSuffix subtype
    String.ofList kind == "application" && isToken subtype && parametersOk &&
      (front == jsonName || suffix == some jsonName)

end AuditTrail.Http
