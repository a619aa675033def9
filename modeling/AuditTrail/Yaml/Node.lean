import AuditTrail.Yaml.Token
/-!
# The nodes of a YAML document

A document is a tree of scalars, sequences and mappings. A part that is left out is an empty scalar.
The use of a name stands for the node that has it; inside that node the name is not known yet.
-/

namespace AuditTrail.Yaml

/-- A node of a document. -/
inductive Node where
  | scalar (style : ScalarStyle) (tag : Option Tag) (text : String)
  | sequence (items : List Node)
  /-- Keys and their values by turns. -/
  | mapping (parts : List Node)
  /-- The use of a name inside the node that has it. -/
  | unknown

namespace Node

/-- A node that is left out. -/
def empty : Node := .scalar .plain none ""

end Node

/-- The tokens that are left of a document, with what the ones before them have named. -/
structure NodeReader where
  tokens : List Token
  /-- The handle that a directive gives an address, with this address. -/
  handles : List (String × String)
  /-- The names with the numbers of their nodes, the last one first. -/
  names : List (String × Nat)
  /-- The complete nodes that have names, by their numbers. -/
  named : List (Nat × Node)

/-- A node and what follows it. -/
abbrev NodeStep : Type := NodeReader → Option (Node × NodeReader)

/-- Some nodes and what follows them. -/
abbrev NodesStep : Type := NodeReader → Option (List Node × NodeReader)

namespace NodeReader

/-- The same behind the next token. -/
def pass (r : NodeReader) : NodeReader := { r with tokens := r.tokens.drop 1 }

/-- The next token is one of some kinds. -/
def isAt (r : NodeReader) (kinds : List Token) : Bool := r.tokens.head?.any kinds.contains

/-- The node that a name stands for; nothing if there is no such name. -/
def use? (name : String) (r : NodeReader) : Option Node :=
  (r.names.lookup name).map fun n => (r.named.lookup n).getD .unknown

/-- The address that the double exclamation mark stands for unless a directive tells another. -/
def standardAddress : String := "tag:yaml.org,2002:"

/-- A tag with the address that its handle stands for; a named handle has to be known. -/
def resolve? (t : Tag) (r : NodeReader) : Option Tag :=
  match r.handles.lookup t.handle with
  | some address => some ⟨address, t.suffix⟩
  | none =>
    if t.handle = "!!" then some ⟨standardAddress, t.suffix⟩
    else if isNamedHandle t.handle.toList then none
    else some t

/-- The same with a new name for the node that follows. -/
def addName (name : String) (r : NodeReader) : NodeReader :=
  { r with names := (name, r.names.length) :: r.names }

/-- The name and the tag of a node, in either order: the number of the name, the tag, and what
follows them. -/
def properties? (r : NodeReader) : Option (Option Nat × Option Tag × NodeReader) :=
  match r.tokens with
  | .anchor name :: .tag t :: _ =>
    (r.resolve? t).map fun t => (some r.names.length, some t, (r.addName name).pass.pass)
  | .tag t :: .anchor name :: _ =>
    (r.resolve? t).map fun t => (some r.names.length, some t, (r.addName name).pass.pass)
  | .anchor name :: _ => some (some r.names.length, none, (r.addName name).pass)
  | .tag t :: _ => (r.resolve? t).map fun t => (none, some t, r.pass)
  | _ => some (none, none, r)

/-- The same with a complete node for the number of a name. -/
def keep (name : Option Nat) (n : Node) (r : NodeReader) : NodeReader :=
  match name with
  | some number => { r with named := (number, n) :: r.named }
  | none => r

/-- A node, unless one of some tokens shows that it is left out. -/
def orEmpty (stops : List Token) (read : NodeStep) : NodeStep := fun r =>
  if r.isAt stops then some (.empty, r) else read r

/-- The value of a key, unless it is left out. -/
def valueOf (stops : List Token) (read : NodeStep) : NodeStep := fun r =>
  if r.isAt [.value] then orEmpty stops read r.pass else some (.empty, r)

def andThen (first : NodeStep) (more : NodesStep) : NodesStep := fun r => do
  let (n, r) ← first r
  let (ns, r) ← more r
  return (n :: ns, r)

/-- The key and the value of a pair without braces. A mark of what should follow the key counts as
an empty one. -/
def pair (read : NodeStep) : NodeStep := fun r => do
  let (key, r) ← if r.isAt [.value, .comma, .sequenceClosing] then some (.empty, r.pass) else read r
  let (value, r) ← valueOf [.comma, .sequenceClosing] read r
  return (.mapping [key, value], r)

/-- Some nodes up to a closing mark, with a comma between them. -/
def listed (closing : Token) (isFirst : Bool) (items : NodesStep) : NodesStep := fun r =>
  if r.isAt [closing] then some ([], r.pass)
  else if isFirst || r.isAt [.comma] then
    let r := if isFirst then r else r.pass
    if r.isAt [closing] then some ([], r.pass) else items r
  else none

mutual

/-- A node; the number bounds how many steps it takes. In brackets no block may stand; a sequence
that is not indented may stand only as a part of a mapping. -/
def node : Nat → (allowsBlock allowsLoose : Bool) → NodeStep
  | 0, _, _, _ => none
  | bound + 1, allowsBlock, allowsLoose, r =>
    match r.tokens with
    | .alias name :: _ => (r.use? name).map fun n => (n, r.pass)
    | _ => do
      let (name, tag, r) ← r.properties?
      let (n, r) ← (match r.tokens with
        | .scalar style text :: _ => some (Node.scalar style tag text, r.pass)
        | .sequenceOpening :: _ => (bracketItems bound true r.pass).map (Prod.map .sequence id)
        | .mappingOpening :: _ => (braceParts bound true r.pass).map (Prod.map .mapping id)
        | t :: _ =>
          if t = .item ∧ allowsLoose then (looseItems bound r).map (Prod.map .sequence id)
          else if t = .sequenceBlock ∧ allowsBlock then
            (blockItems bound r.pass).map (Prod.map .sequence id)
          else if t = .mappingBlock ∧ allowsBlock then
            (blockParts bound r.pass).map (Prod.map .mapping id)
          else if name.isSome || tag.isSome then some (.scalar .plain tag "", r)
          else none
        | [] => if name.isSome || tag.isSome then some (.scalar .plain tag "", r) else none)
      return (n, r.keep name n)

def bracketItems : Nat → (isFirst : Bool) → NodesStep
  | 0, _, _ => none
  | bound + 1, isFirst, r =>
    r |> listed .sequenceClosing isFirst fun r =>
      if r.isAt [.key] then
        andThen (pair (node bound false false)) (bracketItems bound false) r.pass
      else andThen (node bound false false) (bracketItems bound false) r

/-- The keys and values of a mapping in braces. -/
def braceParts : Nat → (isFirst : Bool) → NodesStep
  | 0, _, _ => none
  | bound + 1, isFirst, r =>
    r |> listed .mappingClosing isFirst fun r =>
      let value := valueOf [.comma, .mappingClosing] (node bound false false)
      let more := braceParts bound false
      if r.isAt [.key] then
        andThen (orEmpty [.value, .comma, .mappingClosing] (node bound false false))
          (andThen value more) r.pass
      else if r.isAt [.value] then andThen (fun r => some (.empty, r)) (andThen value more) r
      else andThen (node bound false false) (andThen (fun r => some (.empty, r)) more) r

def blockItems : Nat → NodesStep
  | 0, _ => none
  | bound + 1, r =>
    if r.isAt [.blockEnd] then some ([], r.pass)
    else if r.isAt [.item] then
      andThen (orEmpty [.item, .blockEnd] (node bound true false)) (blockItems bound) r.pass
    else none

/-- The items of a sequence that is not indented. -/
def looseItems : Nat → NodesStep
  | 0, _ => none
  | bound + 1, r =>
    if r.isAt [.item] then
      andThen (orEmpty [.item, .key, .value, .blockEnd] (node bound true false))
        (looseItems bound) r.pass
    else some ([], r)

/-- The keys and values of a block. -/
def blockParts : Nat → NodesStep
  | 0, _ => none
  | bound + 1, r =>
    let part := node bound true true
    let stops := [Token.key, .value, .blockEnd]
    if r.isAt [.blockEnd] then some ([], r.pass)
    else if r.isAt [.key] then
      andThen (orEmpty stops part) (andThen (valueOf stops part) (blockParts bound)) r.pass
    else if r.isAt [.value] then
      andThen (fun r => some (.empty, r)) (andThen (valueOf stops part) (blockParts bound)) r
    else none

end

/-! ## Documents -/

/-- Behind the marks that end documents. -/
def passEnds (r : NodeReader) : NodeReader :=
  { r with tokens := r.tokens.dropWhile fun t => t == .documentEnd }

/-- Behind the directives, the last of which alone tells an address. At most one tells the version.
-/
def passDirectives? : (seen : Bool) → List Token → List (String × String) →
    Option (List Token × List (String × String))
  | seen, .directive .version :: rest, _ => if seen then none else passDirectives? true rest []
  | seen, .directive (.handle handle address) :: rest, _ =>
    passDirectives? seen rest [(handle, address)]
  | _, tokens, handles => some (tokens, handles)

/-- A document does not begin with this token. -/
def isOutside : Token → Bool
  | .directive _ | .documentStart | .documentEnd => true
  | _ => false

/-- The root of the document that begins here. -/
def root? : NodeStep := fun r => do
  let bound := 3 * r.tokens.length + 3
  if r.tokens.head?.any isOutside then
    let (tokens, handles) ← passDirectives? false r.tokens []
    let r := { r with tokens, handles }
    if r.isAt [.documentStart] then
      if r.pass.tokens.head?.all isOutside then return (.empty, r.pass)
      else node bound true false r.pass
    else none
  else node bound true false r

end NodeReader

/-- The root of the one document that tokens make up, if there is one. -/
def Node.ofTokens? (tokens : List Token) : Option (Option Node) := do
  let r := NodeReader.passEnds ⟨tokens, [], [], []⟩
  if r.tokens.isEmpty then return none
  else
    let (n, r) ← r.root?
    if r.passEnds.tokens.isEmpty then return some n else none

/-- The root of the one document in a text, if there is one. A text ends before its first zero. -/
def Node.ofText? (s : String) : Option (Option Node) :=
  (Token.ofText? (s.toList.takeWhile fun c => c != '\x00')).bind Node.ofTokens?

end AuditTrail.Yaml
