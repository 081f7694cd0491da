import Stopwatch.Yaml.Token

/-!
The nodes of a YAML document, read from its tokens: scalars, lists and tables. Only the first document of a text counts,
and what follows it is not looked at beyond a few tokens.
-/

namespace Stopwatch.Yaml

/-- A document or a part of one. A scalar that is not plain is a text whatever it spells. -/
inductive Node where
  | scalar (text : Bytes) (plain : Bool)
  | list (items : List Node)
  | table (entries : List (Node × Node))
  deriving Inhabited, Repr

/-- The node that is left out. -/
def Node.absent : Node := .scalar [] true

/-- A reader of tokens, which may fail. -/
abbrev Reading := StateT Scan Option

/-- The next token, which stays. -/
def peek : Reading Token := fun s => s.peek

/-- Past the next token. -/
def pass : Reading Unit := fun s => some ((), s.take)

/-- Where a node stands: whether blocks may start there, and whether a list may start without indentation. -/
structure Context where
  block : Bool
  bareList : Bool := false

def Context.flow : Context := { block := false }

/-- Past the anchor and the tag in front of a node, with whether there were any and whether the tag makes it a text. -/
def properties : Nat → Reading (Bool × Bool)
  | 0 => pure (false, false)
  | fuel + 1 => do
    match ← peek with
    | .anchor =>
      pass
      let (_, text) ← properties fuel
      pure (true, text)
    | .tag name =>
      pass
      let (_, text) ← properties fuel
      pure (true, text || name == utf8 "!!str" || name == utf8 "!")
    | _ => pure (false, false)

mutual

/-- The next node. -/
def node : Nat → Context → Reading Node
  | 0, _ => failure
  | fuel + 1, ctx => do
    let (marked, text) ← properties 2
    let t ← peek
    if ctx.bareList && t = .blockEntry then bareItems fuel []
    else
      match t with
      | .scalar value plain =>
        pass
        pure (.scalar value (plain && !text))
      | .flowSequence =>
        pass
        flowItems fuel true []
      | .flowMapping =>
        pass
        flowEntries fuel true []
      | .blockSequence =>
        if ctx.block then do
          pass
          blockItems fuel []
        else if marked then pure .absent
        else failure
      | .blockMapping =>
        if ctx.block then do
          pass
          blockEntries fuel []
        else if marked then pure .absent
        else failure
      | _ => if marked then pure (.scalar [] (!text)) else failure

/-- The next node, or none if one of the given tokens comes next. -/
def nodeUnless : Nat → Context → List Token → Reading Node
  | 0, _, _ => failure
  | fuel + 1, ctx, stops => do
    if stops.contains (← peek) then pure .absent else node fuel ctx

/-- The items of an indented list. -/
def blockItems : Nat → List Node → Reading Node
  | 0, _ => failure
  | fuel + 1, items => do
    match ← peek with
    | .blockEntry =>
      pass
      let item ← nodeUnless fuel { block := true } [.blockEntry, .blockEnd]
      blockItems fuel (item :: items)
    | .blockEnd =>
      pass
      pure (.list items.reverse)
    | _ => failure

/-- The items of a list that is not indented more than the key before it. -/
def bareItems : Nat → List Node → Reading Node
  | 0, _ => failure
  | fuel + 1, items => do
    match ← peek with
    | .blockEntry =>
      pass
      let item ← nodeUnless fuel { block := true } [.blockEntry, .key, .value, .blockEnd]
      bareItems fuel (item :: items)
    | _ => pure (.list items.reverse)

/-- The value after a key, absent if there is no colon. -/
def valueAfter : Nat → Context → List Token → Reading Node
  | 0, _, _ => failure
  | fuel + 1, ctx, stops => do
    match ← peek with
    | .value =>
      pass
      nodeUnless fuel ctx stops
    | _ => pure .absent

/-- The entries of an indented table. -/
def blockEntries : Nat → List (Node × Node) → Reading Node
  | 0, _ => failure
  | fuel + 1, entries => do
    match ← peek with
    | .key =>
      let ctx : Context := { block := true, bareList := true }
      pass
      let key ← nodeUnless fuel ctx [.key, .value, .blockEnd]
      let value ← valueAfter fuel ctx [.key, .value, .blockEnd]
      blockEntries fuel ((key, value) :: entries)
    | .blockEnd =>
      pass
      pure (.table entries.reverse)
    | _ => failure

/-- The key of a lone entry in a list in brackets. A key that is left out takes the token behind it along. -/
def loneKey : Nat → Reading Node
  | 0 => failure
  | fuel + 1 => do
    match ← peek with
    | .value | .flowEntry | .flowSequenceEnd =>
      pass
      pure .absent
    | _ => node fuel .flow

/-- The items of a list in brackets. -/
def flowItems : Nat → Bool → List Node → Reading Node
  | 0, _, _ => failure
  | fuel + 1, first, items => do
    let t ← peek
    if t = .flowSequenceEnd then
      pass
      pure (.list items.reverse)
    else if !first && t ≠ .flowEntry then failure
    else
      if !first then pass
      match ← peek with
      | .flowSequenceEnd =>
        pass
        pure (.list items.reverse)
      | .key =>
        pass
        let key ← loneKey fuel
        let value ← valueAfter fuel .flow [.flowEntry, .flowSequenceEnd]
        flowItems fuel false (.table [(key, value)] :: items)
      | _ =>
        let item ← node fuel .flow
        flowItems fuel false (item :: items)

/-- The entries of a table in braces. -/
def flowEntries : Nat → Bool → List (Node × Node) → Reading Node
  | 0, _, _ => failure
  | fuel + 1, first, entries => do
    let t ← peek
    if t = .flowMappingEnd then
      pass
      pure (.table entries.reverse)
    else if !first && t ≠ .flowEntry then failure
    else
      if !first then pass
      match ← peek with
      | .flowMappingEnd =>
        pass
        pure (.table entries.reverse)
      | .key =>
        pass
        let key ← nodeUnless fuel .flow [.value, .flowEntry, .flowMappingEnd]
        let value ← valueAfter fuel .flow [.flowEntry, .flowMappingEnd]
        flowEntries fuel false ((key, value) :: entries)
      | _ =>
        let key ← node fuel .flow
        flowEntries fuel false ((key, .absent) :: entries)

end

/-- Past the directives in front of a document, with whether there were any. A version may be told once, and must be the
first of its major one; no handle may be given twice. -/
def directives : Nat → List Token → Reading Bool
  | 0, _ => failure
  | fuel + 1, seen => do
    match ← peek with
    | .version major minor =>
      let told := seen.any fun
        | .version _ _ => true
        | _ => false
      if told || major ≠ 1 || minor ≠ 1 then failure
      else
        pass
        directives fuel (.version major minor :: seen)
    | .handle name =>
      if seen.contains (.handle name) then failure
      else
        pass
        directives fuel (.handle name :: seen)
    | _ => pure !seen.isEmpty

/-- The first document of a text, absent if there is none. The number bounds its parts. -/
def document (fuel : Nat) : Reading Node := do
  let directed ← directives fuel []
  match ← peek with
  | .streamEnd => if directed then failure else pure .absent
  | .documentStart =>
    pass
    match ← peek with
    | .version _ _ | .handle _ | .documentStart | .documentEnd | .streamEnd => pure .absent
    | _ => root
  | _ => if directed then failure else root
where
  /-- The node of the document; what follows it is looked at. -/
  root : Reading Node := do
    let n ← node fuel { block := true }
    let _ ← peek
    pure n

/-- The document that a text holds. -/
def documentOf (text : Bytes) : Option Node :=
  let scan := Scan.ofSource (.ofBytes text)
  ((document (8 * scan.bound)).run scan).map Prod.fst

end Stopwatch.Yaml
