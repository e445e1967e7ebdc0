import Stencil.Bindings.Yaml.Scan
import Stencil.Bindings.Yaml.Tag

/-!
# Nodes of YAML

A document is a tree of nodes: scalars, sequences and mappings, each with a tag. An alias stands for the
node with its anchor. A document that is read holds exactly one tree, or none.
-/

namespace Stencil.Yaml

/-- A node. -/
inductive Node where
  | scalar (tag : Tag) (text : String)
  | sequence (tag : Tag) (items : List Node)
  | mapping (tag : Tag) (entries : List (Node × Node))

/-- The state of reading nodes: the tokens left, the nodes that have an anchor, of which those that are
still being read are missing, and what the handles of tags stand for. -/
structure Reader where
  rest : List Token
  anchors : List (String × Option Node)
  handles : List (String × String)

/-- A computation that reads nodes. -/
abbrev Read := StateT Reader (Except Fault)

namespace Read

/-- The document cannot be read. -/
def refuse {α : Type} : Read α :=
  throw .malformed

/-- The next token. Where the document could not be scanned, the fault of scanning ends the reading. -/
def peek : Read Token := do
  match (← get).rest with
  | .broken fault :: _ => throw fault
  | t :: _ => return t
  | [] => return .streamEnd

/-- Goes behind the next token. -/
def advance : Read Unit :=
  modify fun r => { r with rest := r.rest.tail }

/-- Goes behind the next token if it is the given one. -/
def accept (t : Token) : Read Bool := do
  if (← peek) == t then
    advance
    return true
  else return false

/-- Whether the next token is one of the given ones. -/
def isAt (ts : List Token) : Read Bool := do
  return ts.contains (← peek)

end Read

open Read

/-- What stands in front of a node: the name of its anchor and the full name of its tag. -/
structure Properties where
  anchor : Option String
  tag : Option String

/-- The full name of a tag. -/
def fullTag (handle : Option String) (suffix : String) : Read String := do
  match handle with
  | none => return suffix
  | some h =>
    match (← get).handles.find? fun entry => entry.1 == h with
    | some (_, mark) => return mark ++ suffix
    | none => refuse

/-- Reads what stands in front of a node: an anchor and a tag in either order. -/
def properties : Read Properties := do
  match ← peek with
  | .anchor a =>
    advance
    match ← peek with
    | .tag h s =>
      advance
      return ⟨some a, some (← fullTag h s)⟩
    | _ => return ⟨some a, none⟩
  | .tag h s =>
    advance
    match ← peek with
    | .anchor a =>
      advance
      return ⟨some a, some (← fullTag h s)⟩
    | _ => return ⟨none, some (← fullTag h s)⟩
  | _ => return ⟨none, none⟩

/-- The tag of a collection, which is the given one unless another is written. -/
def Properties.collectionTag (p : Properties) (usual : Tag) : Tag :=
  match p.tag with
  | none | some "!" => usual
  | some uri => Tag.ofUri uri

/-- A scalar node. A text shows its tag if it is plain without a tag, or if its tag is a lone mark. -/
def Properties.scalar (p : Properties) (text : String) (plain : Bool) : Node :=
  match p.tag with
  | none => .scalar (if plain then Plain.tag text else .str) text
  | some "!" => .scalar (Plain.tag text) text
  | some uri => .scalar (Tag.ofUri uri) text

/-- The node where nothing is written. -/
def emptyNode : Node := .scalar .null ""

/-- Announces a node with an anchor. No two nodes have the same. -/
def announce (p : Properties) : Read Unit := do
  match p.anchor with
  | none => pure ()
  | some a =>
    if (← get).anchors.any fun entry => entry.1 == a then refuse
    modify fun r => { r with anchors := (a, none) :: r.anchors }

/-- Keeps a node with its anchor. -/
def keep (p : Properties) (n : Node) : Read Node := do
  match p.anchor with
  | none => pure ()
  | some a => modify fun r => { r with anchors := (a, some n) :: r.anchors }
  return n

/-- The node of an alias. A node cannot be part of itself. -/
def aliased (name : String) : Read Node := do
  match (← get).anchors.find? fun entry => entry.1 == name with
  | some (_, some n) => return n
  | _ => refuse

/-- Goes behind the comma in front of an item, which the first item does not have. -/
def comma (first : Bool) : Read Unit := do
  unless first do
    unless ← accept .flowEntry do refuse

mutual

/-- A node. Blocks can be nodes outside brackets only; `bare` allows a sequence without indentation. -/
def node : Nat → Bool → Bool → Read Node
  | 0, _, _ => refuse
  | fuel + 1, block, bare => do
    match ← peek with
    | .alias name =>
      advance
      aliased name
    | _ =>
      let p ← properties
      announce p
      match ← peek with
      | .scalar text plain =>
        advance
        keep p (p.scalar text plain)
      | .flowSequenceStart =>
        advance
        keep p (.sequence (p.collectionTag .seq) (← flowItems fuel true []))
      | .flowMappingStart =>
        advance
        keep p (.mapping (p.collectionTag .map) (← flowEntries fuel true []))
      | .blockEntry =>
        if bare then keep p (.sequence (p.collectionTag .seq) (← bareItems fuel []))
        else nothing p
      | .blockSequenceStart =>
        if block then
          advance
          keep p (.sequence (p.collectionTag .seq) (← blockItems fuel []))
        else nothing p
      | .blockMappingStart =>
        if block then
          advance
          keep p (.mapping (p.collectionTag .map) (← blockEntries fuel []))
        else nothing p
      | _ => nothing p

/-- A node of which only anchor or tag are written. -/
def nothing (p : Properties) : Read Node :=
  if p.anchor.isNone && p.tag.isNone then refuse
  else keep p <| match p.tag with
    | none | some "!" => emptyNode
    | some uri => .scalar (Tag.ofUri uri) ""

/-- A node, or the empty node in front of one of the given tokens. -/
def nodeUnless : Nat → List Token → Bool → Bool → Read Node
  | 0, _, _, _ => refuse
  | fuel + 1, ends, block, bare => do
    if ← isAt ends then return emptyNode else node fuel block bare

/-- The items of a sequence that is a block. -/
def blockItems : Nat → List Node → Read (List Node)
  | 0, _ => refuse
  | fuel + 1, acc => do
    if ← accept .blockEntry then
      let n ← nodeUnless fuel [.blockEntry, .blockEnd] true false
      blockItems fuel (n :: acc)
    else if ← accept .blockEnd then return acc.reverse
    else refuse

/-- The items of a sequence without indentation. -/
def bareItems : Nat → List Node → Read (List Node)
  | 0, _ => refuse
  | fuel + 1, acc => do
    if ← accept .blockEntry then
      let n ← nodeUnless fuel [.blockEntry, .key, .value, .blockEnd] true false
      bareItems fuel (n :: acc)
    else return acc.reverse

/-- The entries of a mapping that is a block. -/
def blockEntries : Nat → List (Node × Node) → Read (List (Node × Node))
  | 0, _ => refuse
  | fuel + 1, acc => do
    let ends : List Token := [.key, .value, .blockEnd]
    if ← accept .key then
      let k ← nodeUnless fuel ends true true
      let v ← if ← accept .value then nodeUnless fuel ends true true else pure emptyNode
      blockEntries fuel ((k, v) :: acc)
    else if ← accept .blockEnd then return acc.reverse
    else refuse

/-- The items of a sequence in brackets. An item that is a key is a mapping with one entry. -/
def flowItems : Nat → Bool → List Node → Read (List Node)
  | 0, _, _ => refuse
  | fuel + 1, first, acc => do
    if ← accept .flowSequenceEnd then return acc.reverse
    comma first
    if ← accept .key then
      let k ← nodeUnless fuel [.value, .flowEntry, .flowSequenceEnd] false false
      let v ← if ← accept .value then nodeUnless fuel [.flowEntry, .flowSequenceEnd] false false
        else pure emptyNode
      flowItems fuel false (.mapping .map [(k, v)] :: acc)
    else if ← accept .flowSequenceEnd then return acc.reverse
    else
      let n ← node fuel false false
      flowItems fuel false (n :: acc)

/-- The entries of a mapping in brackets. -/
def flowEntries : Nat → Bool → List (Node × Node) → Read (List (Node × Node))
  | 0, _, _ => refuse
  | fuel + 1, first, acc => do
    if ← accept .flowMappingEnd then return acc.reverse
    comma first
    if ← accept .key then
      let k ← nodeUnless fuel [.value, .flowEntry, .flowMappingEnd] false false
      let v ← if ← accept .value then nodeUnless fuel [.flowEntry, .flowMappingEnd] false false
        else pure emptyNode
      flowEntries fuel false ((k, v) :: acc)
    else if ← accept .flowMappingEnd then return acc.reverse
    else
      let k ← node fuel false false
      flowEntries fuel false ((k, emptyNode) :: acc)

end

/-! ## Documents -/

/-- What the handles of tags stand for without directives. -/
def usualHandles : List (String × String) := [("!", "!"), ("!!", tagRoot)]

/-- Reads the directives in front of a document. -/
def directives : Nat → Bool → List (String × String) → Read (List (String × String))
  | 0, _, _ => refuse
  | fuel + 1, versioned, handles => do
    match ← peek with
    | .directive (.version major _) =>
      advance
      if versioned || major != 1 then refuse
      directives fuel true handles
    | .directive (.tagPrefix handle mark) =>
      advance
      if handles.any fun entry => entry.1 == handle then refuse
      directives fuel versioned ((handle, mark) :: handles)
    | .directive .reserved =>
      advance
      directives fuel versioned handles
    | _ => return handles ++ usualHandles

/-- Goes behind the markers of the end of a document. -/
def skipEnds : Nat → Read Unit
  | 0 => refuse
  | fuel + 1 => do
    if ← accept .documentEnd then skipEnds fuel

/-- The node of a document that begins with directives or with its marker. -/
def markedDocument (fuel : Nat) : Read Node := do
  let handles ← directives fuel false []
  modify fun r => { r with handles := handles }
  if !(← accept .documentStart) then refuse
  match ← peek with
  | .directive _ | .documentStart | .documentEnd | .streamEnd => return emptyNode
  | _ => node fuel true false

/-- The only document, if there is one. -/
def document (fuel : Nat) : Read (Option Node) := do
  let n ← match ← peek with
    | .streamEnd => pure none
    | .directive _ | .documentStart => some <$> markedDocument fuel
    | _ => some <$> node fuel true false
  skipEnds fuel
  if ← isAt [.streamEnd] then return n else refuse

/-- The node that a text stands for, if it holds one. -/
def Node.ofText (t : Text) : Except Fault (Option Node) := do
  let ts := tokens t
  let (n, _) ← (document (4 * ts.length + 16)).run ⟨ts, [], usualHandles⟩
  return n

end Stencil.Yaml
