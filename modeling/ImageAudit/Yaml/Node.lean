import ImageAudit.Yaml.Tokens

/-! # Documents

A document is a tree of scalars, sequences and mappings. A node may carry a name, and an alias
stands for a named node. Names are numbered: the number of a name is that of the different names
before it, and a name that is given again takes a new number. A number that two nodes share stands
for the later one, even where an alias comes before it. A node that is not there counts as an empty
plain scalar.
-/

namespace ImageAudit.Yaml

inductive Node where
  | scalar (tag : Option Bytes) (style : ScalarStyle) (text : String)
  | sequence (tag : Option Bytes) (items : List Node)
  | mapping (tag : Option Bytes) (pairs : List (Node × Node))
  /-- Stands for the node with the number. -/
  | alias (number : Nat)

namespace Node

/-- A node that is not there. -/
def missing : Node := scalar none .plain ""

end Node

structure Anchor where
  name : String
  /-- The number of its name. -/
  number : Nat
  /-- Missing until the node was read to its end. -/
  node : Node

/-- A document: its outermost node and its named nodes, in the order in which they begin. -/
structure Document where
  root : Node
  anchors : List Anchor

/-- The node that a node stands for: itself, unless it is an alias. -/
def Document.follow (document : Document) : Node → Node
  | .alias number =>
    match document.anchors.reverse.find? fun anchor => anchor.number = number with
    | some anchor => anchor.node
    | none => .missing
  | node => node

/-- A document in the course of being read. -/
structure Composer where
  tokens : List Token
  /-- The handles that were declared, with what they stand for. -/
  handles : List (String × Bytes)
  /-- The named nodes so far. -/
  anchors : List Anchor

/-- A step of reading a document. -/
abbrev Composing := StateT Composer Option

namespace Composing

def peek? : Composing (Option Token) := do return (← get).tokens.head?

def advance : Composing Unit :=
  modify fun composer => { composer with tokens := composer.tokens.drop 1 }

/-- Whether the next token is one of the given ones. -/
def sees (tokens : List Token) : Composing Bool := do
  return ((← peek?).map tokens.contains).getD false

/-- Passes over a token if it is next, and tells whether it was. -/
def accept (token : Token) : Composing Bool := do
  if ← sees [token] then
    advance
    return true
  return false

/-- Passes over a token that must be next. -/
def expect (token : Token) : Composing Unit := do
  if !(← accept token) then failure

/-- An alias for a name, with the number that the name was given last. -/
def aliased (name : String) : Composing Node := do
  match (← get).anchors.reverse.find? fun anchor => anchor.name = name with
  | some anchor => return .alias anchor.number
  | none => failure

def countNames (anchors : List Anchor) : Nat := (anchors.map (·.name)).eraseDups.length

/-- Gives a name to the node that follows; its position among the named nodes. -/
def openAnchor (name : Option String) : Composing (Option Nat) := do
  match name with
  | none => return none
  | some name =>
    let anchors := (← get).anchors
    modify fun composer =>
      { composer with anchors := anchors ++ [⟨name, countNames anchors, .missing⟩] }
    return some anchors.length

/-- Notes the node at a position among the named nodes. -/
def closeAnchor (position : Option Nat) (node : Node) : Composing Node := do
  if let some position := position then
    modify fun composer =>
      { composer with
        anchors := composer.anchors.modify position fun anchor => { anchor with node } }
  return node

/-- What a tag stands for in full. -/
def resolve (tag : TagText) : Composing Bytes := do
  if tag.handle = "" then return tag.suffix
  match (← get).handles.find? fun (handle, _) => handle = tag.handle with
  | some (_, meaning) => return meaning ++ tag.suffix
  | none => failure

/-- What may stand before a node: a name and a tag, in either order. -/
structure Properties where
  anchor : Option String
  tag : Option TagText
  deriving DecidableEq

/-- Reads a name, if one is next. -/
def anchor? : Composing (Option String) := do
  match ← peek? with
  | some (.anchor name) => do
    advance
    return some name
  | _ => return none

def tag? : Composing (Option TagText) := do
  match ← peek? with
  | some (.tag tag) => do
    advance
    return some tag
  | _ => return none

def properties : Composing Properties := do
  match ← anchor? with
  | some name => return ⟨some name, ← tag?⟩
  | none => do
    let tag ← tag?
    if tag.isSome then return ⟨← anchor?, tag⟩
    return ⟨none, none⟩

structure Place where
  /-- Whether it may be a block collection. -/
  allowsBlock : Bool
  /-- Whether it may be a block sequence that is not set in. -/
  allowsFlush : Bool
  deriving DecidableEq

/-- An item of a block sequence. -/
def inBlock : Place := ⟨true, false⟩

/-- A key or value of a block mapping. -/
def inPair : Place := ⟨true, true⟩

def inFlow : Place := ⟨false, false⟩

/-- Stands for a node that is not there, where that is allowed. -/
def absent (tag : Option Bytes) (isAllowed : Bool) : Composing Node := do
  if !isAllowed then failure
  return .scalar tag .plain ""

mutual

/-- Reads a node. The fuel bounds the tokens of it. -/
def node : Nat → Place → Composing Node
  | 0, _ => failure
  | fuel + 1, place => do
    if let some (.alias name) ← peek? then
      advance
      return ← aliased name
    let properties ← properties
    let tag ← properties.tag.mapM resolve
    let position ← openAnchor properties.anchor
    let node ← content fuel place tag (properties.anchor.isSome || properties.tag.isSome)
    closeAnchor position node

/-- Reads a node after what stands before it. It may be missing if something stood there. -/
def content : Nat → Place → Option Bytes → Bool → Composing Node
  | 0, _, _, _ => failure
  | fuel + 1, place, tag, mayBeMissing => do
    match ← peek? with
    | some (.scalar style text) => do
      advance
      return .scalar tag style text
    | some .flowSequenceStart => do
      advance
      return .sequence tag (← flowItems fuel true)
    | some .flowMappingStart => do
      advance
      return .mapping tag (← flowPairs fuel true)
    | some .blockSequenceStart => do
      if !place.allowsBlock then return ← absent tag mayBeMissing
      advance
      let items ← blockItems fuel [.blockEntry, .blockEnd]
      expect .blockEnd
      return .sequence tag items
    | some .blockMappingStart => do
      if !place.allowsBlock then return ← absent tag mayBeMissing
      advance
      return .mapping tag (← blockPairs fuel)
    | some .blockEntry => do
      if !place.allowsFlush then return ← absent tag mayBeMissing
      return .sequence tag (← blockItems fuel [.blockEntry, .key, .value, .blockEnd])
    | _ => absent tag mayBeMissing

/-- Reads a node unless one of the given tokens shows that it is missing. -/
def nodeUnless : Nat → Place → List Token → Composing Node
  | 0, _, _ => failure
  | fuel + 1, place, tokens => do
    if ← sees tokens then return .missing
    node fuel place

/-- Reads the items of a block sequence. An item is missing before one of the given tokens. -/
def blockItems : Nat → List Token → Composing (List Node)
  | 0, _ => failure
  | fuel + 1, endings => do
    if !(← accept .blockEntry) then return []
    let item ← nodeUnless fuel inBlock endings
    return item :: (← blockItems fuel endings)

/-- Reads the pairs of a block mapping up to its end. -/
def blockPairs : Nat → Composing (List (Node × Node))
  | 0 => failure
  | fuel + 1 => do
    if ← accept .blockEnd then return []
    expect .key
    let endings := [.key, .value, .blockEnd]
    let key ← nodeUnless fuel inPair endings
    let value ← if ← accept .value then nodeUnless fuel inPair endings else pure .missing
    return (key, value) :: (← blockPairs fuel)

/-- Reads the items of a flow sequence up to its end. -/
def flowItems : Nat → Bool → Composing (List Node)
  | 0, _ => failure
  | fuel + 1, isFirst => do
    if ← accept .flowSequenceEnd then return []
    if !isFirst then
      expect .flowEntry
      if ← accept .flowSequenceEnd then return []
    let item ← if ← accept .key then singlePair fuel else node fuel inFlow
    return item :: (← flowItems fuel false)

/-- Reads a pair that is an item of a flow sequence. A mark that shows a missing key is passed over
with it. -/
def singlePair : Nat → Composing Node
  | 0 => failure
  | fuel + 1 => do
    let key ←
      if ← sees [.value, .flowEntry, .flowSequenceEnd] then do
        advance
        pure .missing
      else node fuel inFlow
    let value ←
      if ← accept .value then nodeUnless fuel inFlow [.flowEntry, .flowSequenceEnd]
      else pure .missing
    return .mapping none [(key, value)]

/-- Reads the pairs of a flow mapping up to its end. -/
def flowPairs : Nat → Bool → Composing (List (Node × Node))
  | 0, _ => failure
  | fuel + 1, isFirst => do
    if ← accept .flowMappingEnd then return []
    if !isFirst then
      expect .flowEntry
      if ← accept .flowMappingEnd then return []
    let pair ←
      if ← accept .key then do
        let key ← nodeUnless fuel inFlow [.value, .flowEntry, .flowMappingEnd]
        let value ←
          if ← accept .value then nodeUnless fuel inFlow [.flowEntry, .flowMappingEnd]
          else pure .missing
        pure (key, value)
      else do
        pure (← node fuel inFlow, .missing)
    return pair :: (← flowPairs fuel false)

end

/-- The handles that need not be declared. -/
def standardHandles : List (String × Bytes) :=
  [("!", Bytes.ofText "!"), ("!!", Bytes.ofText "tag:yaml.org,2002:")]

/-- Reads directives. Only one version is declared and no handle twice. -/
def directives : Nat → Bool → List (String × Bytes) → Composing (List (String × Bytes))
  | 0, _, handles => return handles
  | fuel + 1, hasVersion, handles => do
    match ← peek? with
    | some (.version major minor) => do
      if hasVersion || major ≠ 1 || (minor ≠ 1 && minor ≠ 2) then failure
      advance
      directives fuel true handles
    | some (.handle handle meaning) => do
      if handles.any fun known => known.1 = handle then failure
      advance
      directives fuel hasVersion (handles ++ [(handle, meaning)])
    | _ => return handles

def seesDirective : Composing Bool := do
  match ← peek? with
  | some (.version ..) | some (.handle ..) => return true
  | _ => return false

/-- Reads the node of a document that has begun. -/
def documentNode (size : Nat) (mayBeMissing : Bool) : Composing Node := do
  let ends := (← peek?).isNone || (← seesDirective) || (← sees [.documentStart, .documentEnd])
  if mayBeMissing && ends then return .missing
  node size inBlock

/-- Reads the next document, none at the end of the text. Only the first needs no mark in front. -/
def document? (isFirst : Bool) : Composing (Option Document) := do
  let size := 4 * (← get).tokens.length + 8
  if (← peek?).isNone then return none
  let isMarked := (← seesDirective) || (← sees [.documentStart])
  let declared ← directives size false []
  modify fun composer =>
    { composer with
      handles := declared ++ standardHandles
      anchors := [] }
  if isMarked || !isFirst then expect .documentStart
  let node ← documentNode size (isMarked || !isFirst)
  discard (accept .documentEnd)
  return some ⟨node, (← get).anchors⟩

/-- Passes over marks that end documents. The fuel bounds their number. -/
def skipEnds : Nat → Composing Unit
  | 0 => return
  | fuel + 1 => do
    if ← accept .documentEnd then skipEnds fuel

/-- Reads the only document of a text; none in an empty text. -/
def onlyDocument? : Composing (Option Document) := do
  let document ← document? true
  skipEnds (← get).tokens.length
  if (← peek?).isSome then failure
  return document

end Composing

/-- The only document of a text, or none when the text has none. Fails for other texts. -/
def readDocument? (text : String) : Option (Option Document) := do
  let tokens ← Token.ofText? text
  return (← Composing.onlyDocument?.run ⟨tokens, Composing.standardHandles, []⟩).1

end ImageAudit.Yaml
