import ClassChart.Settings.Yaml.Scalar
import ClassChart.Settings.Yaml.Token

/-!
The value of a YAML document.
-/
namespace ClassChart

namespace Value

/-- Whether two values are the same key of a mapping.  Numbers and truth values
are compared by their amount. -/
def sameKey : Value → Value → Bool
  | .null, .null => true
  | .text s, .text t => s == t
  | .date d, .date e => d == e
  | .moment m, .moment n => m.same n
  | .binary b, .binary c => b == c
  | .float x, .float y => x == y
  | .float x, v => (whole? v).any fun n => x == Float.ofInt n
  | v, .float x => (whole? v).any fun n => x == Float.ofInt n
  | v, w =>
      match whole? v, whole? w with
      | some n, some m => n == m
      | _, _ => false
where
  /-- The amount of a whole number or truth value. -/
  whole? : Value → Option Int
    | .int n => some n
    | .bool b => some (if b then 1 else 0)
    | _ => none

/-- Whether a value can be a key. -/
def isScalar : Value → Bool
  | .list _ => false
  | .set _ => false
  | .mapping _ => false
  | _ => true

/-- Set the value of a key: in place if there is one, else at the end. -/
def setKey (key value : Value) : List (Value × Value) → List (Value × Value)
  | [] => [(key, value)]
  | entry :: rest =>
      if entry.1.sameKey key then (entry.1, value) :: rest
      else entry :: setKey key value rest

/-- Entries with each key once; the last value of a key counts. -/
def distinctKeys (entries : List (Value × Value)) : List (Value × Value) :=
  entries.foldl (fun acc entry => setKey entry.1 entry.2 acc) []

end Value

namespace Yaml

/-- What is written in a document.  What it stands for, if anything, is a `Value`. -/
inductive Node where
  | scalar (text : String) (plain : Bool)
  | sequence (items : List Node)
  | mapping (entries : List (Node × Node))
  | tagged (tag : Tag) (node : Node)
deriving Inhabited

namespace Node

/-- Nothing is written. -/
def empty : Node := .scalar "" true

mutual

/-- The value that a node stands for.  A set is written as a mapping, of which the values do not
count. -/
def value : Node → Except Refusal Value
  | .scalar text isPlain => if isPlain then plain text else .ok (.text text)
  | .sequence items => return .list (← values items)
  | .mapping entries => return .mapping (Value.distinctKeys (← pairs entries))
  | .tagged .binary (.scalar text _) =>
      match Binary.decode? text with
      | some bytes => return .binary bytes
      | none => .error .malformed
  | .tagged .set (.mapping entries) =>
      return .set ((Value.distinctKeys (← pairs entries)).map Prod.fst)
  | .tagged .. => .error .malformed

def values : List Node → Except Refusal (List Value)
  | [] => return []
  | item :: rest => return (← item.value) :: (← values rest)

def pairs : List (Node × Node) → Except Refusal (List (Value × Value))
  | [] => return []
  | (first, second) :: rest => do
      let key ← first.value
      if !key.isScalar then throw .malformed
      return (key, ← second.value) :: (← pairs rest)

end

end Node

/-- A reader of the tokens that are left. -/
abbrev Reader := StateT (List Token) Option

/-- Whether a node without a tag may begin with a token. -/
def Token.beginsNode (block besideKey : Bool) : Token → Bool
  | .scalar .. | .openSequence | .openMapping => true
  | .entry => besideKey
  | .blockSequence | .blockMapping => block
  | _ => false

namespace Reader

def sees (ts : List Token) : Reader Bool := do
  return (← get).head?.any ts.contains

/-- Take the next token if it is the given one. -/
def takes (t : Token) : Reader Bool := do
  match ← get with
  | u :: rest =>
      if u = t then
        set rest
        return true
      else return false
  | [] => return false

def expect (t : Token) : Reader Unit := do
  if !(← takes t) then failure

mutual

/-- A node.  Blocks are nodes outside brackets only, and a sequence may stand at
its key's own column. -/
def node : Nat → (block besideKey : Bool) → Reader Node
  | 0, _, _ => failure
  | fuel + 1, block, besideKey => do
      match ← get with
      | .tag t :: rest =>
          set rest
          if rest.head?.any (·.beginsNode block besideKey) then
            return .tagged t (← node fuel block besideKey)
          else return .tagged t .empty
      | .scalar text plain :: rest =>
          set rest
          return .scalar text plain
      | .openSequence :: rest =>
          set rest
          return .sequence (← flowItems fuel true)
      | .openMapping :: rest =>
          set rest
          return .mapping (← flowEntries fuel true)
      | .entry :: _ => if besideKey then return .sequence (← blockItems fuel true) else failure
      | .blockSequence :: rest =>
          if !block then failure
          set rest
          let items ← blockItems fuel false
          expect .blockEnd
          return .sequence items
      | .blockMapping :: rest =>
          if !block then failure
          set rest
          let entries ← blockEntries fuel
          expect .blockEnd
          return .mapping entries
      | _ => failure

/-- A node, which is empty if one of the given tokens follows. -/
def nodeUnless : Nat → List Token → (block besideKey : Bool) → Reader Node
  | 0, _, _, _ => failure
  | fuel + 1, ts, block, besideKey => do
      if ← sees ts then return .empty else node fuel block besideKey

/-- The items of a sequence with dashes. -/
def blockItems : Nat → (besideKey : Bool) → Reader (List Node)
  | 0, _ => failure
  | fuel + 1, besideKey => do
      if ← takes .entry then
        let ends : List Token :=
          if besideKey then [.entry, .key, .value, .blockEnd] else [.entry, .blockEnd]
        let item ← nodeUnless fuel ends true false
        return item :: (← blockItems fuel besideKey)
      else return []

/-- The entries of a mapping without brackets. -/
def blockEntries : Nat → Reader (List (Node × Node))
  | 0 => failure
  | fuel + 1 => do
      if ← takes .key then
        let ends : List Token := [.key, .value, .blockEnd]
        let key ← nodeUnless fuel ends true true
        let value ← if ← takes .value then nodeUnless fuel ends true true else pure .empty
        return (key, value) :: (← blockEntries fuel)
      else return []

/-- The items of a sequence in brackets, which may be single entries of a
mapping. -/
def flowItems : Nat → (first : Bool) → Reader (List Node)
  | 0, _ => failure
  | fuel + 1, first => do
      if ← takes .closeSequence then return []
      if !first then expect .comma
      if ← takes .closeSequence then return []
      let item ←
        if ← takes .key then
          let key ← nodeUnless fuel [.value, .comma, .closeSequence] false false
          let value ←
            if ← takes .value then nodeUnless fuel [.comma, .closeSequence] false false
            else pure .empty
            pure (Node.mapping [(key, value)])
        else node fuel false false
      return item :: (← flowItems fuel false)

/-- The entries of a mapping in brackets.  A key without a colon has no value. -/
def flowEntries : Nat → (first : Bool) → Reader (List (Node × Node))
  | 0, _ => failure
  | fuel + 1, first => do
      if ← takes .closeMapping then return []
      if !first then expect .comma
      if ← takes .closeMapping then return []
      let entry ←
        if ← takes .key then
          let key ← nodeUnless fuel [.value, .comma, .closeMapping] false false
          let value ←
            if ← takes .value then nodeUnless fuel [.comma, .closeMapping] false false
            else pure .empty
          pure (key, value)
        else do
          let key ← node fuel false false
          pure (key, .empty)
      return entry :: (← flowEntries fuel false)

end

/-- The only document, which is empty if there is none. -/
def document : Reader Node := do
  let tokens ← get
  if tokens.isEmpty then return .empty
  let fuel := 3 * tokens.length + 3
  let root ←
    if ← takes .documentStart then
      let atEnd := (← get).isEmpty
      if atEnd || (← sees [.documentStart, .documentEnd]) then pure .empty
      else node fuel true false
    else node fuel true false
  modify fun rest => rest.dropWhile (· == .documentEnd)
  if !(← get).isEmpty then failure
  return root

end Reader

/-- The document that a text is, if it is one. -/
def node? (text : String) : Option Node := do
  let tokens ← tokens? text
  return (← Reader.document.run tokens).1

/-- The value of a text that is one YAML document. -/
def value (text : String) : Except Refusal Value :=
  match node? text with
  | some node => node.value
  | none => .error .malformed

end Yaml

end ClassChart
