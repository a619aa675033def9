import AuditTrail.Toml.Value
/-!
# TOML documents

A document sets keys, first of the table around everything and then of the tables it opens, each by
its name between brackets; with two pairs of brackets a table is added to a list.
-/

namespace AuditTrail.Toml

/-- What has been read of a document: all that is set, and the name of the open table. -/
structure Progress where
  entries : Entries
  path : List String

/-- The progress when a table is opened at the place that a name leads to. -/
def Progress.open? (openAt? : String → Entries → Option Entries) (path : List String)
    (p : Progress) : Option Progress := do
  let entries ← Entries.change? (openAt? (← path.getLast?)) path.dropLast p.entries
  return ⟨entries, path⟩

/-- The progress after the expression that stands in front, which is neither blank nor a comment,
and what follows it on its line. -/
def Progress.read? (p : Progress) (cs : List Char) : Option (Progress × List Char) :=
  match cs with
  | '[' :: '[' :: rest => do
    match ← key? rest with
    | (path, ']' :: ']' :: rest) => return (← p.open? Entries.openItem? path, rest)
    | _ => none
  | '[' :: rest => do
    match ← key? rest with
    | (path, ']' :: rest) => return (← p.open? Entries.openTable? path, rest)
    | _ => none
  | _ => do
    let (parts, rest) ← keySign? cs
    let (v, rest) ← value? (2 * rest.length + 2) (maxLevels - 1) (dropGaps rest)
    let entries ← Entries.change? (fun entries => entries.set? v parts) p.path p.entries
    return ({ p with entries }, rest)

/-- The progress at the end of the text; the number bounds how many lines are left. -/
def Progress.readLines? : Nat → Progress → List Char → Option Progress
  | 0, _, _ => none
  | bound + 1, p, cs =>
    match dropGaps cs with
    | [] => some p
    | c :: rest =>
      if c = '#' ∨ c = '\n' ∨ c = '\r' then
        (dropLineEnd? (c :: rest)).bind (p.readLines? bound)
      else do
        let (p, rest) ← p.read? (c :: rest)
        p.readLines? bound (← dropLineEnd? rest)

/-- The entries of the table that a text writes; a mark of its byte order in front does not count.
-/
def read? (s : String) : Option (List (String × Value)) :=
  let cs := match s.toList with
    | '\ufeff' :: rest => rest
    | cs => cs
  (Progress.readLines? (cs.length + 1) ⟨[], []⟩ cs).map fun p => closeEntries p.entries

end AuditTrail.Toml
