import SparkTuner.Yaml.Event
import SparkTuner.Yaml.Token.Lexer

/-!
# YAML documents as trees

Events are put together to a tree with a stack of the collections that are still open. A document
that breaks off is a tree all the same: it has the node `cut` where it ends, so that whatever stands
before can be read. An alias that no anchor precedes breaks a document off, too.

Anchors have numbers. An anchor gets the number of different names before it; where that gives a
number to two anchors, it belongs to the one that starts last.
-/

namespace SparkTuner.Yaml

/-- A node of a document. -/
inductive Node where
  | scalar (tag : Option String) (style : Style) (text : String)
  | sequence (tag : Option String) (items : List Node)
  | mapping (tag : Option String) (entries : List (Node × Node))
  /-- The node with an anchor. -/
  | alias (anchor : Nat)
  /-- The document breaks off here. -/
  | cut
  deriving Repr

/-- A node with an anchor. -/
structure Anchored where
  anchor : Nat
  /-- How many events are before the node. -/
  start : Nat
  node : Node
  deriving Repr

/-- A document. -/
structure Document where
  /-- The node of the document; none if there is no document at all. -/
  root : Option Node
  anchored : List Anchored
  /-- The number of events. -/
  size : Nat
  /-- Whether the document is whole and nothing else stands in its text. -/
  isAlone : Bool
  deriving Repr

/-- A collection that is still open. -/
structure Frame where
  isMapping : Bool
  tag : Option String
  anchor : Option Nat
  start : Nat
  /-- The nodes in it, backwards. -/
  nodes : List Node := []
  deriving Repr

/-- The entries of a mapping from its nodes, which are keys and values in turn. -/
def entriesOf : List Node → List (Node × Node)
  | key :: value :: rest => (key, value) :: entriesOf rest
  | [key] => [(key, .cut)]
  | [] => []

/-- The collection that an open one becomes when it is closed. -/
def Frame.node (f : Frame) : Node :=
  if f.isMapping then .mapping f.tag (entriesOf f.nodes.reverse)
  else .sequence f.tag f.nodes.reverse

/-- The part of a tree that is known. -/
structure Growth where
  /-- The open collections, the innermost first. -/
  frames : List Frame := []
  root : Option Node := none
  anchored : List Anchored := []
  /-- The number of each anchor name. -/
  names : List (String × Nat) := []
  size : Nat := 0
  deriving Repr

namespace Growth

/-- Gives a name the next number. -/
def declare (g : Growth) (name : String) : Growth × Nat :=
  let number := g.names.length
  ({ g with names := (name, number) :: g.names.filter fun n => n.1 != name }, number)

/-- `declare` for a node that may have no anchor. -/
def declare? (g : Growth) (name : Option String) : Growth × Option Nat :=
  match name with
  | some name =>
    let (g, number) := g.declare name
    (g, some number)
  | none => (g, none)

/-- Adds a node to the innermost collection. -/
def add (g : Growth) (node : Node) : Growth :=
  match g.frames with
  | f :: outer => { g with frames := { f with nodes := node :: f.nodes } :: outer }
  | [] => { g with root := some node }

/-- Adds a node that started behind `start` events. -/
def addAnchored (g : Growth) (anchor : Option Nat) (start : Nat) (node : Node) : Growth :=
  let g := g.add node
  match anchor with
  | some anchor => { g with anchored := ⟨anchor, start, node⟩ :: g.anchored }
  | none => g

/-- Closes the innermost collection. -/
def close (g : Growth) : Growth :=
  match g.frames with
  | f :: outer => { g with frames := outer }.addAnchored f.anchor f.start f.node
  | [] => g

/-- Adds the next event; none if it is an alias of an anchor that is not declared. -/
def step? (g : Growth) (event : Event) : Option Growth :=
  let counted (g : Growth) : Growth := { g with size := g.size + 1 }
  let opened (isMapping : Bool) (p : Properties) : Growth :=
    let (g, anchor) := g.declare? p.anchor
    { g with frames := ⟨isMapping, p.tag, anchor, g.size, []⟩ :: g.frames }
  match event with
  | .alias name => (g.names.find? fun n => n.1 == name).map fun n => counted (g.add (.alias n.2))
  | .scalar p style text =>
    let (g, anchor) := g.declare? p.anchor
    some (counted (g.addAnchored anchor g.size (.scalar p.tag style text)))
  | .sequence p => some (counted (opened false p))
  | .mapping p => some (counted (opened true p))
  | .close => some (counted g.close)

/-- Adds events, and says whether all of them could be added. -/
def steps (g : Growth) : List Event → Growth × Bool
  | [] => (g, true)
  | e :: es =>
    match g.step? e with
    | some g => g.steps es
    | none => (g, false)

/-- Closes the open collections where the document breaks off. -/
def cutOff (g : Growth) : Growth :=
  if g.root.isSome then g else closeAll g.frames.length (g.add .cut)
where
  /-- Closes so many collections. -/
  closeAll : Nat → Growth → Growth
    | 0, g => g
    | n + 1, g => closeAll n g.close

end Growth

/-- The document that a list of events describes. -/
def Document.ofEvents (es : EventList) : Document :=
  let (g, known) := Growth.steps {} es.events
  let isAlone := known && es.isAlone
  if es.events.isEmpty && isAlone then ⟨none, [], 1, true⟩
  else
    let g := g.cutOff
    ⟨g.root, g.anchored, g.size, isAlone⟩

/-- The document in a text. -/
def Document.parse (text : String) : Document :=
  match prepare? text.toList with
  | none => ⟨some .cut, [], 0, false⟩
  | some cs => .ofEvents (.ofTokens (tokens cs))

/-- The node that an anchor belongs to. -/
def Document.node? (d : Document) (anchor : Nat) : Option Node :=
  let latest (best : Option Anchored) (a : Anchored) : Option Anchored :=
    if a.anchor = anchor ∧ best.all (·.start < a.start) then some a else best
  (d.anchored.foldl latest none).map (·.node)

mutual

/-- Whether the document does not break off in a node. -/
def Node.isWhole : Node → Bool
  | .sequence _ items => allWhole items
  | .mapping _ entries => entriesWhole entries
  | .cut => false
  | _ => true

/-- Whether the document does not break off in one of the nodes. -/
def Node.allWhole : List Node → Bool
  | [] => true
  | n :: ns => n.isWhole && allWhole ns

/-- Whether the document does not break off in one of the entries. -/
def Node.entriesWhole : List (Node × Node) → Bool
  | [] => true
  | (k, v) :: es => k.isWhole && v.isWhole && entriesWhole es

end

end SparkTuner.Yaml
