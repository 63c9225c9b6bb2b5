import InlineQuery.Data.Assoc
import InlineQuery.Data.Yaml.Layout
import InlineQuery.Data.Yaml.Tag

/-!
Documents as trees. Each token is looked at by a few functions only, which bounds the depth of
their calls. An alias stands for a copy of what its anchor names. An alias inside of what it names has
no copy to stand for: it is a leaf of its own, at which the collection that it is in starts again.
Where such a collection is merged, it is written out when the document is read.
-/

namespace InlineQuery.Yaml

inductive Node where
  | scalar (tag : Tag) (text : String)
  | sequence (tag : Tag) (items : List Node)
  | mapping (tag : Tag) (entries : List (Node × Node))
  | again (anchor : String) (tag : Tag)
  deriving Repr, Inhabited

/-- What the anchors of a document name. -/
abbrev Anchors := List (String × Node)

namespace Node

def tag : Node → Tag
  | scalar t _ | sequence t _ | mapping t _ | again _ t => t

/-- An entry or value that is not written. -/
def missing : Node := scalar .null ""

mutual

/-- Whether two nodes have the same parts. -/
def isSame : Node → Node → Bool
  | scalar s a, scalar t b => s == t && a == b
  | sequence s xs, sequence t ys => s == t && areSame xs ys
  | mapping s xs, mapping t ys => s == t && entriesAreSame xs ys
  | again a s, again b t => a == b && s == t
  | _, _ => false

def areSame : List Node → List Node → Bool
  | [], [] => true
  | x :: xs, y :: ys => isSame x y && areSame xs ys
  | _, _ => false

def entriesAreSame : List (Node × Node) → List (Node × Node) → Bool
  | [], [] => true
  | (k, v) :: xs, (l, w) :: ys => isSame k l && isSame v w && entriesAreSame xs ys
  | _, _ => false

end

/-- Where an alias is replaced that is inside of what it names: where that is merged, among the pairs of
a list, and where its text is looked for. -/
inductive Place where
  | merge
  | pair
  | text
  deriving DecidableEq, Repr

section Completing

/- What an alias is replaced by at a place. What is merged may merge something itself, and so it is with
texts; all the collections on the way are given, the innermost one first. -/
variable (replaced : Place → List Node → String → Tag → Node)

mutual

/-- A node in which aliases are replaced. -/
def completed : Node → Node
  | scalar tag text => scalar tag text
  | again anchor tag => again anchor tag
  | sequence tag items =>
    sequence tag (if tag = .omap ∨ tag = .pairs then pairsCompleted items else itemsCompleted items)
  | mapping tag entries =>
    mapping tag (entriesCompleted (!tag.isCollection) [mapping tag entries] entries)

def itemsCompleted : List Node → List Node
  | [] => []
  | n :: rest => completed n :: itemsCompleted rest

def pairsCompleted : List Node → List Node
  | [] => []
  | again anchor tag :: rest => replaced .pair [] anchor tag :: pairsCompleted rest
  | n :: rest => completed n :: pairsCompleted rest

/-- The entries of the innermost of some collections, which may stand for a text. -/
def entriesCompleted (isText : Bool) (within : List Node) : List (Node × Node) → List (Node × Node)
  | [] => []
  | (k, v) :: rest =>
    (completed k,
      if k.tag = .merge then completedAt .merge within v
      else if isText ∧ k.tag = .value then completedAt .text within v
      else completed v) :: entriesCompleted isText within rest

/-- A node at a place in a collection, in which aliases are replaced. -/
def completedAt (place : Place) (within : List Node) : Node → Node
  | scalar tag text => scalar tag text
  | again anchor tag => replaced place within anchor tag
  | sequence tag items => sequence tag (itemsCompletedAt place (sequence tag items :: within) items)
  | mapping tag entries =>
    mapping tag (entriesCompleted (place = .text) (mapping tag entries :: within) entries)

def itemsCompletedAt (place : Place) (within : List Node) : List Node → List Node
  | [] => []
  | n :: rest => completedAt place within n :: itemsCompletedAt place within rest

end

end Completing

/-- An entry with a value that holds itself. -/
def heldByItself (anchor : String) (tag : Tag) : Node :=
  mapping .map [(scalar .str "<<", again anchor tag)]

/-- What stands for a node that an alias inside of it names. Merged into itself it brings nothing.
One that is around the collection that merges it brings its entries. These are written out once:
inside of them there is an entry with a value that holds itself. -/
def replacement (anchors : Anchors) : Nat → List String → Place → List Node → String → Tag → Node
  | 0, _, _, _, anchor, tag => heldByItself anchor tag
  | fuel + 1, known, place, within, anchor, tag =>
    match Assoc.get? anchors anchor with
    | none => again anchor tag
    | some n =>
      -- A collection around these has more parts than any of them.
      let isWithin := within.any n.isSame
      match place, n with
      | .pair, mapping _ [(k, v)] => mapping .map [(k, again anchor v.tag)]
      | .pair, _ => again anchor tag
      | .text, _ => if isWithin then again anchor tag else sequence .seq []
      | .merge, _ =>
        if isWithin then
          match n with
          | sequence .. => sequence .seq []
          | _ => mapping .map []
        else if known.contains anchor then heldByItself anchor tag
        else n.completedAt (replacement anchors fuel (anchor :: known)) .merge within

/-- The root of a document with these anchors, in which aliases are replaced. -/
def complete (anchors : Anchors) (root : Node) : Node :=
  if anchors.isEmpty then root else root.completed (replacement anchors (anchors.length + 1) [])

end Node

/-- The tokens ahead and the fault behind them, the nodes that anchors name, and what handles of tags
stand for. -/
structure Source where
  tokens : List Token
  fault : Option Fault
  anchors : Anchors
  handles : List (String × String)
  deriving Repr, Inhabited

abbrev Composer := StateT Source (Except Fault)

namespace Composer

def malformed {α : Type} : Composer α := throw .malformed

/-- The next token, unless the text ends before it. -/
def peek? : Composer (Option Token) := do
  let s ← get
  match s.tokens, s.fault with
  | t :: _, _ => return some t
  | [], some fault => throw fault
  | [], none => return none

def advance : Composer Unit := modify fun s => { s with tokens := s.tokens.drop 1 }

/-- Reads a token if it comes next. -/
def accept (t : Token) : Composer Bool := do
  if (← peek?) == some t then advance; return true
  else return false

def expect (t : Token) : Composer Unit := do
  if !(← accept t) then malformed

/-- Whether one of some tokens comes next. -/
def nextIn (ts : List Token) : Composer Bool := do
  match ← peek? with
  | some t => return ts.contains t
  | none => return false

/-- What a node may be where it stands: in a block, and there a sequence that is not indented, or
inside brackets. -/
inductive Context where
  | flow
  | block
  | entry
  deriving DecidableEq, Repr, Inhabited

/-- The anchor and tag before a node. -/
structure Properties where
  anchor : Option String
  tag : Option (Option String × String)
  deriving DecidableEq, Repr, Inhabited

def anchor? : Composer (Option String) := do
  match ← peek? with
  | some (.anchor name) => advance; return some name
  | _ => return none

def tag? : Composer (Option (Option String × String)) := do
  match ← peek? with
  | some (.tag handle suffix) => advance; return some (handle, suffix)
  | _ => return none

/-- Reads the anchor and the tag before a node, in either order. -/
def properties : Composer Properties := do
  match ← anchor? with
  | some name => return ⟨some name, ← tag?⟩
  | none =>
    match ← tag? with
    | some tag => return ⟨← anchor?, some tag⟩
    | none => return ⟨none, none⟩

/-- The full name of a tag. -/
def tagName : Option (Option String × String) → Composer (Option String)
  | none => return none
  | some (none, suffix) => return some suffix
  | some (some handle, suffix) => do
    match Assoc.get? (← get).handles handle with
    | some pre => return some (pre ++ suffix)
    | none => malformed

/-- The tag of a collection. The mark for no special tag counts as none. -/
def collectionTag (name : Option String) (default : Tag) : Tag :=
  match name with
  | none | some "!" => default
  | some name => .ofName name

/-- The tag of a scalar. A plain one without a tag and any with the mark for no special tag is what
its form says. -/
def scalarTag (name : Option String) (isPlain : Bool) (text : String) : Tag :=
  match name with
  | none => if isPlain then .ofPlain text else .str
  | some "!" => .ofPlain text
  | some name => .ofName name

/-- Gives a node the name of an anchor. -/
def bind (anchor : Option String) (node : Node) : Composer Unit :=
  match anchor with
  | none => return
  | some name => modify fun s => { s with anchors := Assoc.put s.anchors name node }

/-- Refuses an anchor that is taken. -/
def requireFree (anchor : Option String) : Composer Unit := do
  if let some name := anchor then
    if Assoc.contains (← get).anchors name then malformed

mutual

/-- Reads a node. -/
def node (context : Context) : Nat → Composer Node
  | 0 => malformed
  | fuel + 1 => do
    if let some (.alias name) ← peek? then
      advance
      match Assoc.get? (← get).anchors name with
      | some node => return node
      | none => malformed
    else
      let properties ← properties
      let name ← tagName properties.tag
      let _ ← peek?
      requireFree properties.anchor
      let node ← content context properties.anchor name fuel
      bind properties.anchor node
      return node

/-- Reads a node after its anchor and tag. -/
def content (context : Context) (anchor name : Option String) : Nat → Composer Node
  | 0 => malformed
  | fuel + 1 => do
    let sequence (items : Composer (List Node)) : Composer Node := do
      let tag := collectionTag name .seq
      bind anchor (.again (anchor.getD "") tag)
      return .sequence tag (← items)
    let mapping (entries : Composer (List (Node × Node))) : Composer Node := do
      let tag := collectionTag name .map
      bind anchor (.again (anchor.getD "") tag)
      return .mapping tag (← entries)
    match ← peek? with
    | some (.scalar text isPlain) =>
      advance
      return .scalar (scalarTag name isPlain text) text
    | some .flowSequenceStart =>
      advance
      sequence (flowItems true fuel)
    | some .flowMappingStart =>
      advance
      mapping (flowEntries true fuel)
    | next =>
      if context ≠ .flow ∧ next = some .blockSequenceStart then
        advance
        sequence (blockItems fuel)
      else if context ≠ .flow ∧ next = some .blockMappingStart then
        advance
        mapping (blockEntries fuel)
      else if context = .entry ∧ next = some .blockEntry then sequence (alignedItems fuel)
      else if anchor.isSome ∨ name.isSome then
        match name with
        | none | some "!" => return .missing
        | some name => return .scalar (.ofName name) ""
      else malformed

/-- Reads a node unless one of some tokens shows that it is missing. -/
def nodeUnless (stops : List Token) (context : Context) : Nat → Composer Node
  | 0 => malformed
  | fuel + 1 => do
    if ← nextIn stops then return .missing else node context fuel

/-- The items of a sequence that is indented. -/
def blockItems : Nat → Composer (List Node)
  | 0 => malformed
  | fuel + 1 => do
    if ← accept .blockEntry then
      let first ← nodeUnless [.blockEntry, .blockEnd] .block fuel
      return first :: (← blockItems fuel)
    else
      expect .blockEnd
      return []

/-- The items of a sequence that stands where the keys of its mapping do. -/
def alignedItems : Nat → Composer (List Node)
  | 0 => malformed
  | fuel + 1 => do
    if ← accept .blockEntry then
      let first ← nodeUnless [.blockEntry, .key, .value, .blockEnd] .block fuel
      return first :: (← alignedItems fuel)
    else return []

def blockEntries : Nat → Composer (List (Node × Node))
  | 0 => malformed
  | fuel + 1 => do
    let stops := [Token.key, .value, .blockEnd]
    if ← accept .key then
      let key ← nodeUnless stops .entry fuel
      let value ← if ← accept .value then nodeUnless stops .entry fuel else pure .missing
      return (key, value) :: (← blockEntries fuel)
    else
      expect .blockEnd
      return []

def flowItems (isFirst : Bool) : Nat → Composer (List Node)
  | 0 => malformed
  | fuel + 1 => do
    if ← accept .flowSequenceEnd then return []
    if !isFirst then
      expect .flowEntry
      if ← accept .flowSequenceEnd then return []
    let first ← if ← accept .key then
        let stops := [Token.flowEntry, .flowSequenceEnd]
        let key ← nodeUnless (.value :: stops) .flow fuel
        let value ← if ← accept .value then nodeUnless stops .flow fuel else pure .missing
        pure (Node.mapping .map [(key, value)])
      else node .flow fuel
    return first :: (← flowItems false fuel)

def flowEntries (isFirst : Bool) : Nat → Composer (List (Node × Node))
  | 0 => malformed
  | fuel + 1 => do
    if ← accept .flowMappingEnd then return []
    if !isFirst then
      expect .flowEntry
      if ← accept .flowMappingEnd then return []
    let stops := [Token.flowEntry, .flowMappingEnd]
    let entry ← if ← accept .key then
        let key ← nodeUnless (.value :: stops) .flow fuel
        let value ← if ← accept .value then nodeUnless stops .flow fuel else pure .missing
        pure (key, value)
      else pure (← node .flow fuel, .missing)
    return entry :: (← flowEntries false fuel)

end

/-- Reads the directives before a document. It has one version at most, and no handle is declared
twice. -/
def directives (hasVersion : Bool) : Nat → Composer Unit
  | 0 => return
  | fuel + 1 => do
    match ← peek? with
    | some (.version major) =>
      if hasVersion || major ≠ 1 then malformed
      advance
      directives true fuel
    | some (.tagHandle handle pre) =>
      if Assoc.contains (← get).handles handle then malformed
      advance
      modify fun s => { s with handles := s.handles ++ [(handle, pre)] }
      directives hasVersion fuel
    | some .otherDirective =>
      advance
      directives hasVersion fuel
    | _ => return

/-- The handles that need no declaration. -/
def defaultHandles : List (String × String) := [("!", "!"), ("!!", Tag.standard)]

/-- Adds the default handles that are not declared. -/
def withDefaults (s : Source) : Source :=
  let undeclared := defaultHandles.filter fun (h, _) => !Assoc.contains s.handles h
  { s with handles := s.handles ++ undeclared }

/-- Whether the document that starts here says so by a mark or a directive. -/
def nextIsExplicit : Composer Bool := do
  match ← peek? with
  | some (.version _) | some (.tagHandle ..) | some .otherDirective | some .documentStart =>
    return true
  | _ => return false

/-- The content of a document. Only after a mark it may be missing. -/
def root (fuel : Nat) : Composer Node := do
  if ← nextIsExplicit then
    directives false fuel
    expect .documentStart
    modify withDefaults
    let next ← peek?
    if next.isNone || next == some .documentEnd || (← nextIsExplicit) then return .missing
    else node .block fuel
  else
    modify withDefaults
    node .block fuel

/-- Refuses whatever follows a document. The directives of another one are read before that. -/
def requireEnd (fuel : Nat) : Composer Unit := do
  modify fun s => { s with tokens := s.tokens.dropWhile (· == .documentEnd) }
  if (← peek?).isSome then
    modify fun s => { s with handles := [] }
    directives false fuel
    let _ ← peek?
    malformed

/-- Reads the only document of a text; a text of nothing has none. -/
def document (fuel : Nat) : Composer (Option Node) := do
  if (← peek?).isNone then return none
  let root ← root fuel
  requireEnd fuel
  return some root

end Composer

/-- The document that a text holds, if it holds one. -/
def compose (text : List Char) : Except Fault (Option Node) := do
  let stream := TokenStream.ofText text
  let fuel := 4 * stream.tokens.length + 4
  let (root, source) ← (Composer.document fuel).run ⟨stream.tokens, stream.fault, [], []⟩
  return root.map (·.complete source.anchors)

end InlineQuery.Yaml
