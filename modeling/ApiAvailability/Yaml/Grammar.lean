import ApiAvailability.Yaml.Node

/-!
# Yaml/Grammar — from lexemes to the tree

    document  ::= directive* '---'? node? '...'*
    node      ::= alias | (anchor | tag)* (scalar | sequence | mapping)?
    sequence  ::= block of entries | entries at the column of their parent's keys | bracketed items
    mapping   ::= block of pairs | bracketed pairs

Where a node may be left out, an empty scalar stands in its place. A text holds one document.
-/

namespace ApiAvailability.Yaml

/-- **What is left to read**: the lexemes, and the numbers of the anchors so far. -/
structure Input where
  rest : List Token
  anchors : List (String × Nat)

namespace Input

/-- Whether the next lexeme satisfies `p`. -/
def nextIs (inp : Input) (p : Token → Bool) : Bool := (inp.rest.head?.map p).getD false

/-- What is left when only `rest` is. -/
def behind (inp : Input) (rest : List Token) : Input := { inp with rest }

/-- A number for an anchor: how many names of anchors there are before it. -/
def define (inp : Input) (name : String) : Nat × Input :=
  let number := inp.anchors.length
  (number, { inp with anchors := (name, number) :: inp.anchors.filter (·.1 ≠ name) })

end Input

/-- What stands in front of a node's content. -/
structure Properties where
  anchor : Option Nat
  tag : Option Tag

/-- What the handles of tags stand for. -/
abbrev Handles := List (List Char × List Char)

/-- The handles that need no directive. -/
def usualHandles : Handles := [(['!'], ['!']), (['!', '!'], Tag.standard)]

/-- The tag that a handle and a suffix make. -/
def Handles.tag? (handles : Handles) (handle suffix : List Char) : Option Tag :=
  if handle = [] then some suffix else (handles.lookup handle).map (· ++ suffix)

/-- The properties in front: an anchor, a tag, or both in either order. -/
def properties? (handles : Handles) (inp : Input) : Option (Properties × Input) :=
  match inp.rest with
  | .anchor name :: rest =>
    let (number, inp) := (inp.behind rest).define name
    match rest with
    | .tag handle suffix :: rest => do
      return (⟨number, ← handles.tag? handle suffix⟩, inp.behind rest)
    | _ => some (⟨number, none⟩, inp)
  | .tag handle suffix :: rest => do
    let tag ← handles.tag? handle suffix
    match rest with
    | .anchor name :: rest =>
      let (number, inp) := (inp.behind rest).define name
      return (⟨number, tag⟩, inp)
    | _ => return (⟨none, tag⟩, inp.behind rest)
  | _ => some (⟨none, none⟩, inp)

/-- Where an entry of a block has no content. -/
def endsEntry (t : Token) : Bool := t = .entry || t = .blockEnd

/-- Where a key or a value of a block has no content. -/
def endsPart (t : Token) : Bool := t = .key || t = .value || t = .blockEnd

/-- Where an item between square brackets has no content. -/
def endsItem (t : Token) : Bool := t = .comma || t = .closeSequence

/-- Where a value between braces has no content. -/
def endsMember (t : Token) : Bool := t = .comma || t = .closeMapping

mutual

/-- A node. Blocks may begin here if `inBlock`, and entries without a block of their own if
`indentless`. -/
def node? (handles : Handles) (inBlock indentless : Bool) : Nat → Input → Option (Node × Input)
  | 0, _ => none
  | fuel + 1, inp =>
    match inp.rest with
    | .reference name :: rest => do
      return (.reference (← inp.anchors.lookup name), inp.behind rest)
    | _ => do
      let (p, inp) ← properties? handles inp
      match inp.rest with
      | .scalar style text :: rest =>
        return (.scalar p.anchor (if p.tag = some ['!'] then none else p.tag) style text,
          inp.behind rest)
      | .openSequence :: rest => do
        let (items, inp) ← flowItems? handles fuel [] (inp.behind rest)
        return (.sequence p.anchor items, inp)
      | .openMapping :: rest => do
        let (pairs, inp) ← flowPairs? handles fuel [] (inp.behind rest)
        return (.mapping p.anchor pairs, inp)
      | t :: rest =>
        if indentless && t = .entry then do
          let (items, inp) ← indentlessItems? handles fuel [] inp
          return (.sequence p.anchor items, inp)
        else if inBlock && t = .blockSequence then do
          let (items, inp) ← blockItems? handles fuel [] (inp.behind rest)
          return (.sequence p.anchor items, inp)
        else if inBlock && t = .blockMapping then do
          let (pairs, inp) ← blockPairs? handles fuel [] (inp.behind rest)
          return (.mapping p.anchor pairs, inp)
        else if p.anchor.isSome || p.tag.isSome then
          return (.scalar p.anchor p.tag .plain "", inp)
        else none
      | [] =>
        if p.anchor.isSome || p.tag.isSome then return (.scalar p.anchor p.tag .plain "", inp)
        else none

/-- A node, or the empty one in front of a lexeme that satisfies `ends`. -/
def nodeUnless? (handles : Handles) (inBlock indentless : Bool) (ends : Token → Bool) :
    Nat → Input → Option (Node × Input)
  | 0, _ => none
  | fuel + 1, inp =>
    if inp.nextIs ends then some (.empty, inp) else node? handles inBlock indentless fuel inp

/-- The entries of a block, behind `seen` (last first). -/
def blockItems? (handles : Handles) : Nat → List Node → Input → Option (List Node × Input)
  | 0, _, _ => none
  | fuel + 1, seen, inp =>
    match inp.rest with
    | .entry :: rest => do
      let (n, inp) ← nodeUnless? handles true false endsEntry fuel (inp.behind rest)
      blockItems? handles fuel (n :: seen) inp
    | .blockEnd :: rest => some (seen.reverse, inp.behind rest)
    | _ => none

/-- Entries without a block of their own, behind `seen` (last first). -/
def indentlessItems? (handles : Handles) : Nat → List Node → Input → Option (List Node × Input)
  | 0, _, _ => none
  | fuel + 1, seen, inp =>
    match inp.rest with
    | .entry :: rest => do
      let (n, inp) ←
        nodeUnless? handles true false (fun t => endsEntry t || endsPart t) fuel (inp.behind rest)
      indentlessItems? handles fuel (n :: seen) inp
    | _ => some (seen.reverse, inp)

/-- The pairs of a block, behind `seen` (last first). -/
def blockPairs? (handles : Handles) :
    Nat → List (Node × Node) → Input → Option (List (Node × Node) × Input)
  | 0, _, _ => none
  | fuel + 1, seen, inp =>
    match inp.rest with
    | .key :: rest => do
      let (k, inp) ← nodeUnless? handles true true endsPart fuel (inp.behind rest)
      let (v, inp) ← valueIf? handles true endsPart fuel inp
      blockPairs? handles fuel ((k, v) :: seen) inp
    | .blockEnd :: rest => some (seen.reverse, inp.behind rest)
    | _ => none

/-- The value behind a colon, or the empty node if there is no colon. -/
def valueIf? (handles : Handles) (inBlock : Bool) (ends : Token → Bool) :
    Nat → Input → Option (Node × Input)
  | 0, _ => none
  | fuel + 1, inp =>
    match inp.rest with
    | .value :: rest => nodeUnless? handles inBlock inBlock ends fuel (inp.behind rest)
    | _ => some (.empty, inp)

/-- The items between square brackets, behind `seen` (last first). A pair there is a mapping of its
own; a question mark that no key follows swallows the lexeme behind it. -/
def flowItems? (handles : Handles) : Nat → List Node → Input → Option (List Node × Input)
  | 0, _, _ => none
  | fuel + 1, seen, inp => do
    match inp.rest with
    | .closeSequence :: rest => return (seen.reverse, inp.behind rest)
    | _ =>
      let (n, inp) ← match inp.rest with
        | .key :: rest => do
          let inp := inp.behind rest
          let (k, inp) ←
            if inp.nextIs fun t => t = .value || endsItem t then
              pure (.empty, inp.behind inp.rest.tail)
            else node? handles false false fuel inp
          let (v, inp) ← valueIf? handles false endsItem fuel inp
          pure (.mapping none [(k, v)], inp)
        | _ => node? handles false false fuel inp
      match inp.rest with
      | .comma :: rest => flowItems? handles fuel (n :: seen) (inp.behind rest)
      | .closeSequence :: rest => return ((n :: seen).reverse, inp.behind rest)
      | _ => none

/-- The pairs between braces, behind `seen` (last first). -/
def flowPairs? (handles : Handles) :
    Nat → List (Node × Node) → Input → Option (List (Node × Node) × Input)
  | 0, _, _ => none
  | fuel + 1, seen, inp => do
    match inp.rest with
    | .closeMapping :: rest => return (seen.reverse, inp.behind rest)
    | _ =>
      let (pair, inp) ← match inp.rest with
        | .key :: rest => do
          let noKey (t : Token) : Bool := t = .value || endsMember t
          let (k, inp) ← nodeUnless? handles false false noKey fuel (inp.behind rest)
          let (v, inp) ← valueIf? handles false endsMember fuel inp
          pure ((k, v), inp)
        | _ => do
          let (k, inp) ← node? handles false false fuel inp
          pure ((k, .empty), inp)
      match inp.rest with
      | .comma :: rest => flowPairs? handles fuel (pair :: seen) (inp.behind rest)
      | .closeMapping :: rest => return ((pair :: seen).reverse, inp.behind rest)
      | _ => none

end

/-- The directives in front of a document, and what is behind them. Nothing may be named twice. -/
def directives? (version : Bool) (handles : Handles) :
    List Token → Option (Bool × Handles × List Token)
  | .version major minor :: rest =>
    if version || major ≠ 1 || (minor ≠ 1 && minor ≠ 2) then none
    else directives? true handles rest
  | .handle name meaning :: rest =>
    if (handles.lookup name).isSome then none
    else directives? version ((name, meaning) :: handles) rest
  | rest => some (version, handles, rest)

/-- **The document that a list of lexemes spells**, and nothing else: its tree. -/
def Node.ofTokens? (ts : List Token) : Option Node := do
  let fuel := 4 * ts.length + 4
  let (version, named, rest) ← directives? false [] ts
  let handles := named ++ usualHandles
  let content (rest : List Token) : Option (Node × Input) :=
    node? handles true false fuel ⟨rest, []⟩
  let (root, inp) ← match rest with
    | .documentStart :: rest =>
      match rest with
      | [] => pure (.empty, ⟨[], []⟩)
      | .documentEnd :: _ => pure (.empty, ⟨rest, []⟩)
      | _ => content rest
    | _ => if version || !named.isEmpty then none else content rest
  if inp.rest.all (· = .documentEnd) then return root else none

end ApiAvailability.Yaml
