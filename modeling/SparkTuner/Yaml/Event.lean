import SparkTuner.Yaml.Token

/-!
# Events of YAML documents

A document is a list of events: scalars, aliases, and the starts and ends of collections. Its tokens
are read with a stack of what is still expected; a token that is not expected, or the lack of one,
breaks the document off, and the events before it stay.
-/

namespace SparkTuner.Yaml

/-- What stands before a node. -/
structure Properties where
  anchor : Option String := none
  /-- The tag, written out. -/
  tag : Option String := none
  deriving Repr, DecidableEq

/-- A piece of a document. -/
inductive Event where
  | alias (name : String)
  | scalar (properties : Properties) (style : Style) (text : String)
  | sequence (properties : Properties)
  | mapping (properties : Properties)
  /-- The end of the innermost collection. -/
  | close
  deriving Repr, DecidableEq

/-- The event of a value that is left out. -/
def Event.nothing : Event := .scalar {} .plain ""

/-- What tag handles stand for. -/
abbrev Handles := List (String × String)

/-- The handles that need no directive. -/
def standardHandles : Handles := [("!", "!"), ("!!", "tag:yaml.org,2002:")]

/-- What a handle stands for. -/
def Handles.get? (handles : Handles) (name : String) : Option String :=
  (handles.find? fun h => h.1 == name).map (·.2)

/-- A tag, written out. -/
def TagName.resolve? (handles : Handles) (name : TagName) : Option String :=
  if name.handle.isEmpty then some name.suffix
  else (handles.get? name.handle).map (· ++ name.suffix)

/-- What is expected next. -/
inductive Place where
  /-- The node of a document behind its start mark. -/
  | content
  | node
  /-- An item of a block sequence, or its end. -/
  | item
  /-- An item of a block sequence that is not indented, or its end. -/
  | unindentedItem
  | blockKey
  | blockValue
  /-- An item of a flow sequence, or its end. -/
  | flowItem (first : Bool)
  /-- The key of a mapping that is an item of a flow sequence by itself. -/
  | pairKey
  | pairValue
  | pairEnd
  | flowKey (first : Bool)
  | flowValue
  /-- The value of a key in a flow mapping that no colon follows. -/
  | flowNothing
  deriving Repr, DecidableEq

/-- An event, what is expected after it, and the tokens behind it. -/
structure Step where
  event : Event
  stack : List Place
  rest : List Token
  deriving Repr, DecidableEq

/-- The properties before a node, in either order, and the tokens behind them. -/
def readProperties? (handles : Handles) (ts : List Token) : Option (Properties × List Token) :=
  let withTag (anchor : Option String) (name : TagName) (rest : List Token) :=
    (name.resolve? handles).map fun tag => ({ anchor := anchor, tag := some tag }, rest)
  match ts with
  | .anchor a :: .tag name :: rest => withTag (some a) name rest
  | .tag name :: .anchor a :: rest => withTag (some a) name rest
  | .anchor a :: rest => some ({ anchor := some a }, rest)
  | .tag name :: rest => withTag none name rest
  | rest => some ({}, rest)

/-- Reads the start of a node. In a flow collection `block` is false; `unindented` says whether a
block sequence may start without a deeper indentation. -/
def nodeStep? (handles : Handles) (block unindented : Bool) (stack : List Place)
    (ts : List Token) : Option Step :=
  match ts with
  | .alias name :: rest => some ⟨.alias name, stack, rest⟩
  | _ =>
    match readProperties? handles ts with
    | none => none
    | some (p, rest) =>
      match rest with
      | [] => none
      | t :: later =>
        let collection (event : Event) (place : Place) : Option Step :=
          some ⟨event, place :: stack, later⟩
        let absent : Option Step :=
          if p = {} then none else some ⟨.scalar p .plain "", stack, t :: later⟩
        match t with
        | .item =>
          if unindented then some ⟨.sequence p, .unindentedItem :: stack, t :: later⟩ else absent
        | .scalar style text =>
          let tag := if p.tag = some "!" then none else p.tag
          some ⟨.scalar { p with tag := tag } style text, stack, later⟩
        | .flowSequence => collection (.sequence p) (.flowItem true)
        | .flowMapping => collection (.mapping p) (.flowKey true)
        | .blockSequence => if block then collection (.sequence p) .item else absent
        | .blockMapping => if block then collection (.mapping p) .blockKey else absent
        | _ => absent

/-- Reads the next event at a place, before the places in `stack`. -/
def Place.step? (handles : Handles) (place : Place) (stack : List Place) (ts : List Token) :
    Option Step :=
  /- A node, or nothing if the next token is one of `ends`. -/
  let nodeUnless (block unindented : Bool) (ends : List Token) (next : Place)
      (ts : List Token) : Option Step :=
    match ts with
    | [] => none
    | t :: _ =>
      if ends.contains t then some ⟨.nothing, next :: stack, ts⟩
      else nodeStep? handles block unindented (next :: stack) ts
  match place, ts with
  | _, [] => none
  | .content, t :: rest =>
    match t with
    | .version .. | .handle .. | .documentStart | .documentEnd | .streamEnd =>
      some ⟨.nothing, stack, t :: rest⟩
    | _ => nodeStep? handles true false stack (t :: rest)
  | .node, ts => nodeStep? handles true false stack ts
  | .item, .item :: rest => nodeUnless true false [.item, .blockEnd] .item rest
  | .item, .blockEnd :: rest => some ⟨.close, stack, rest⟩
  | .item, _ => none
  | .unindentedItem, .item :: rest =>
    nodeUnless true false [.item, .key, .value, .blockEnd] .unindentedItem rest
  | .unindentedItem, ts => some ⟨.close, stack, ts⟩
  | .blockKey, .key :: rest => nodeUnless true true [.key, .value, .blockEnd] .blockValue rest
  | .blockKey, .blockEnd :: rest => some ⟨.close, stack, rest⟩
  | .blockKey, _ => none
  | .blockValue, .value :: rest => nodeUnless true true [.key, .value, .blockEnd] .blockKey rest
  | .blockValue, ts => some ⟨.nothing, .blockKey :: stack, ts⟩
  | .flowItem first, ts =>
    let item (ts : List Token) : Option Step :=
      match ts with
      | [] => none
      | .key :: rest => some ⟨.mapping {}, .pairKey :: .flowItem false :: stack, rest⟩
      | .flowSequenceEnd :: rest => some ⟨.close, stack, rest⟩
      | ts => nodeStep? handles false false (.flowItem false :: stack) ts
    match first, ts with
    | true, ts => item ts
    | false, .flowSequenceEnd :: rest => some ⟨.close, stack, rest⟩
    | false, .comma :: rest => item rest
    | false, _ => none
  | .pairKey, t :: rest =>
    if [.value, .comma, .flowSequenceEnd].contains t then
      some ⟨.nothing, .pairValue :: stack, rest⟩
    else nodeStep? handles false false (.pairValue :: stack) (t :: rest)
  | .pairValue, .value :: rest => nodeUnless false false [.comma, .flowSequenceEnd] .pairEnd rest
  | .pairValue, ts => some ⟨.nothing, .pairEnd :: stack, ts⟩
  | .pairEnd, ts => some ⟨.close, stack, ts⟩
  | .flowKey first, ts =>
    let entry (ts : List Token) : Option Step :=
      match ts with
      | [] => none
      | .key :: rest =>
        nodeUnless false false [.value, .comma, .flowMappingEnd] .flowValue rest
      | .flowMappingEnd :: rest => some ⟨.close, stack, rest⟩
      | ts => nodeStep? handles false false (.flowNothing :: stack) ts
    match first, ts with
    | true, ts => entry ts
    | false, .flowMappingEnd :: rest => some ⟨.close, stack, rest⟩
    | false, .comma :: rest => entry rest
    | false, _ => none
  | .flowValue, .value :: rest =>
    nodeUnless false false [.comma, .flowMappingEnd] (.flowKey false) rest
  | .flowValue, ts => some ⟨.nothing, .flowKey false :: stack, ts⟩
  | .flowNothing, ts => some ⟨.nothing, .flowKey false :: stack, ts⟩

/-- The events up to the end of what is expected, at most `steps`, and the tokens behind it unless
the document breaks off. -/
def readEvents (handles : Handles) : (steps : Nat) → List Place → List Token →
    List Event × Option (List Token)
  | _, [], ts => ([], some ts)
  | 0, _, _ => ([], none)
  | steps + 1, place :: stack, ts =>
    match place.step? handles stack ts with
    | none => ([], none)
    | some s =>
      let (events, rest) := readEvents handles steps s.stack s.rest
      (s.event :: events, rest)

/-- What directives declare. -/
structure Directives where
  hasVersion : Bool := false
  handles : Handles := []
  deriving Repr, DecidableEq

/-- Reads the directives before a document. Neither the version nor a handle may be declared twice,
and the version has to be 1.1 or 1.2. -/
def readDirectives? (d : Directives) : List Token → Option (Directives × List Token)
  | .version major minor :: rest =>
    if !d.hasVersion && major == 1 && (minor == 1 || minor == 2) then
      readDirectives? { d with hasVersion := true } rest
    else none
  | .handle name stands :: rest =>
    if (d.handles.get? name).isSome then none
    else readDirectives? { d with handles := d.handles ++ [(name, stands)] } rest
  | rest => some (d, rest)

/-- The first document of a text as events. -/
structure EventList where
  events : List Event
  /-- Whether the document is whole and nothing but the end of the text follows it. -/
  isAlone : Bool
  deriving Repr, DecidableEq

/-- Whether nothing but the end of the text follows the end of a document. -/
def onlyEndFollows : List Token → Bool
  | .documentEnd :: rest => onlyEndFollows rest
  | .streamEnd :: _ => true
  | _ => false

/-- The events of the first document. There are at most four for each token. -/
def EventList.ofTokens (ts : List Token) : EventList :=
  let ofNode (handles : Handles) (place : Place) (ts : List Token) : EventList :=
    let (events, rest) := readEvents (handles ++ standardHandles) (4 * ts.length + 8) [place] ts
    ⟨events, rest.any onlyEndFollows⟩
  match ts with
  | .streamEnd :: _ => ⟨[], true⟩
  | .version .. :: _ | .handle .. :: _ | .documentStart :: _ =>
    match readDirectives? {} ts with
    | some (d, .documentStart :: rest) => ofNode d.handles .content rest
    | _ => ⟨[], false⟩
  | ts => ofNode [] .node ts

end SparkTuner.Yaml
