import Kovael.Js.Number
import Kovael.Js.OrderedMap
import Kovael.Js.Text

/-!
# The front matter of WORKFLOW.md

`WorkflowLoader.parseYamlSubset` and `parseScalar`
(`src/services/WorkflowLoader.ts`): a minimal YAML, line by line, with a stack
of the maps that are open and the list that the next `- ` belongs to.

Mirroring notes vs the TS:
- The parser holds references into the object it builds; here a reference is the
  path from the root. It stays valid as long as it is used: a key is written
  again only when the maps below it have been popped.
- The bottom of the stack is the root, which no line pops (its indent is -1), so
  the error for an empty stack cannot arise.
- `obj['__proto__'] = v` reaches the setter that ordinary objects inherit; so an
  object here has a prototype, and reads go up the chain. Of the built-in
  prototypes nothing but that setter matters.
- Numbers are exact.
- An error is its data; the messages are `Unexpected list item at line ..` and
  `Expected key: value at line .. (..)`.
-/

namespace Kovael.Workflow

open Js (Number isWhitespace)

/-! ## Values -/

/-- A value of the document. -/
inductive Value where
  | null
  | bool (b : Bool)
  | number (n : Number)
  | string (s : String)
  | list (xs : List Value)
  | map (own : List (String × Value)) (proto : Value)
  /-- `Object.prototype`. -/
  | objectPrototype

namespace Value

/-- `{}`. -/
def emptyMap : Value := .map [] .objectPrototype

/-- `typeof value === 'object'`. -/
def isObject : Value → Bool
  | .null | .list _ | .map .. | .objectPrototype => true
  | _ => false

/-- `value[key]`, for a key no built-in object has. -/
def get? (key : String) : Value → Option Value
  | .map own proto =>
    match Js.getEntry key own with
    | some v => some v
    | none => proto.get? key
  | _ => none

/-- The setter of `__proto__` is what an assignment to that key finds. -/
def inheritsSetter : Value → Bool
  | .map own proto =>
    match Js.getEntry "__proto__" own with
    | some _ => false
    | none => proto.inheritsSetter
  | .list _ | .objectPrototype => true
  | _ => false

/-- Where an assignment puts a value. -/
inductive Slot where
  | own (key : String)
  | proto
  deriving DecidableEq, Repr

/-- Where `obj[key] = v` puts the value; `none` if nowhere. -/
def slotOf (obj : Value) (key : String) (v : Value) : Option Slot :=
  if key = "__proto__" ∧ obj.inheritsSetter then if v.isObject then some .proto else none
  else some (.own key)

/-- The value is put there. -/
def place (slot : Slot) (v : Value) : Value → Value
  | .map own proto =>
    match slot with
    | .own key => .map (Js.setEntry key v own) proto
    | .proto => .map own v
  | obj => obj

/-- What is there. -/
def read? (slot : Slot) : Value → Option Value
  | .map own proto =>
    match slot with
    | .own key => Js.getEntry key own
    | .proto => some proto
  | _ => none

/-- What the reference refers to. -/
def follow? : List Slot → Value → Option Value
  | [], v => some v
  | slot :: path, v => (v.read? slot).bind (follow? path)

/-- A change through a reference. -/
def modifyAt (f : Value → Value) : List Slot → Value → Value
  | [], v => f v
  | slot :: path, v =>
    match v.read? slot with
    | some w => place slot (modifyAt f path w) v
    | none => v

/-- `arr.push(v)`. -/
def push (v : Value) : Value → Value
  | .list xs => .list (xs ++ [v])
  | obj => obj

end Value

/-! ## Scalars -/

/-- `s.trim()`. -/
def trimmed (cs : List Char) : List Char :=
  ((cs.dropWhile isWhitespace).reverse.dropWhile isWhitespace).reverse

/-- `s.slice(1, -1)`. -/
def unwrapped (cs : List Char) : List Char := (cs.drop 1).dropLast

/-- The number of a run of digits. -/
def digitsValue (cs : List Char) : Nat := cs.foldl (fun n c => 10 * n + (c.toNat - '0'.toNat)) 0

/-- `\d+`. -/
def isDigits (cs : List Char) : Bool := !cs.isEmpty && cs.all Char.isDigit

/-- The sign and the rest. -/
def signed (cs : List Char) : Bool × List Char :=
  match cs with
  | '-' :: cs => (true, cs)
  | cs => (false, cs)

def withSign (negative : Bool) (q : ℚ) : ℚ := if negative then -q else q

/-- `/^-?\d+$/` and `/^-?\d+\.\d+$/`, with the number that the text denotes. -/
def numeral? (cs : List Char) : Option Number :=
  let (negative, unsigned) := signed cs
  let whole := unsigned.takeWhile (· ≠ '.')
  match unsigned.dropWhile (· ≠ '.') with
  | [] => if isDigits unsigned then some (.fin (withSign negative (digitsValue unsigned))) else none
  | _ :: fraction =>
    if isDigits whole && isDigits fraction then
      some (.fin (withSign negative
        (digitsValue whole + digitsValue fraction / (10 ^ fraction.length : ℚ))))
    else none

/-- Starts and ends with the character. -/
def quotedBy (q : Char) (cs : List Char) : Bool := cs.head? = some q && cs.getLast? = some q

/-- `parseScalar(s)`. -/
def parseScalar (cs : List Char) : Value :=
  let s := String.ofList cs
  if s = "" ∨ s = "~" ∨ s = "null" then .null
  else if s = "true" then .bool true
  else if s = "false" then .bool false
  else
    match numeral? cs with
    | some n => .number n
    | none =>
      if quotedBy '\'' cs || quotedBy '"' cs then .string (String.ofList (unwrapped cs))
      else .string s

/-- `v !== ''`. -/
def notEmptyString : Value → Bool
  | .string s => s ≠ ""
  | _ => true

/-- The scalars of `[a, b]`. -/
def parseInlineList (rest : List Char) : Value :=
  .list ((((unwrapped rest).splitOn ',').map fun item => parseScalar (trimmed item)).filter
    notEmptyString)

/-! ## Lines -/

/-- What `.` does not match in a line. -/
def isLineSeparator (c : Char) : Bool := c.toNat = 0x2028 || c.toNat = 0x2029

/-- `\s+#.*$` matches here. -/
def startsComment (cs : List Char) : Bool :=
  match cs with
  | [] => false
  | c :: _ =>
    isWhitespace c &&
      match cs.dropWhile isWhitespace with
      | '#' :: comment => comment.all fun c => !isLineSeparator c
      | _ => false

/-- `raw.replace(/\s+#.*$/, '')`. -/
def stripComment : List Char → List Char
  | [] => []
  | c :: cs => if startsComment (c :: cs) then [] else c :: stripComment cs

/-- The spaces a line starts with. -/
def indentOf (cs : List Char) : Nat := (cs.takeWhile (· = ' ')).length

/-- `peekNext`: the next line that is not blank. -/
def peekNext (following : List (List Char)) : Option (List Char) :=
  following.find? fun line => !(trimmed (stripComment line)).isEmpty

/-- `/^\s*- /`. -/
def isListItem (line : List Char) : Bool :=
  ['-', ' '].isPrefixOf (line.dropWhile isWhitespace)

inductive ParseError where
  | unexpectedListItem (line : Nat)
  | expectedKey (line : Nat) (content : String)
  deriving DecidableEq, Repr

/-- An open map. -/
structure Frame where
  indent : Nat
  path : List Value.Slot

/-- The list that may go on. -/
structure PendingList where
  indent : Nat
  path : List Value.Slot

structure Parser where
  root : Value
  /-- The open maps above the root, innermost first. -/
  stack : List Frame
  pendingList : Option PendingList

def Parser.init : Parser := ⟨.emptyMap, [], none⟩

/-- `parent.obj[key] = v`; the reference to where it went, if anywhere. -/
def Parser.assign (p : Parser) (parent : List Value.Slot) (key : String) (v : Value) :
    Parser × Option (List Value.Slot) :=
  match ((p.root.follow? parent).getD .null).slotOf key v with
  | none => (p, none)
  | some slot =>
    ({ p with root := p.root.modifyAt (Value.place slot v) parent }, some (parent ++ [slot]))

/-- `key:` with nothing behind it: a map begins, or a list if the next line has a
`- `. -/
def Parser.openKey (p : Parser) (indent : Nat) (parent : List Value.Slot) (key : String)
    (following : List (List Char)) : Parser :=
  match peekNext following with
  | some next =>
    if isListItem next then
      let (p, path) := p.assign parent key (.list [])
      { p with pendingList := path.map fun path => ⟨indentOf next, path⟩ }
    else
      let (p, path) := p.assign parent key .emptyMap
      { p with stack := (path.map fun path => ⟨indent, path⟩).toList ++ p.stack }
  | none =>
    let (p, path) := p.assign parent key .emptyMap
    { p with stack := (path.map fun path => ⟨indent, path⟩).toList ++ p.stack }

/-- A line that is neither blank nor a comment, without its indent. -/
def Parser.line (p : Parser) (lineNo indent : Nat) (content : List Char)
    (following : List (List Char)) : Except ParseError Parser :=
  if ['-', ' '].isPrefixOf content then
    let value := parseScalar (trimmed (content.drop 2))
    match p.pendingList with
    | none => .error (.unexpectedListItem lineNo)
    | some pending =>
      if pending.indent ≠ indent then .error (.unexpectedListItem lineNo)
      else .ok { p with root := p.root.modifyAt (Value.push value) pending.path }
  else
    let stack := p.stack.dropWhile fun frame => indent ≤ frame.indent
    let p := { p with stack := stack, pendingList := none }
    let parent := (stack.head?.map Frame.path).getD []
    match content.dropWhile (· ≠ ':') with
    | [] => .error (.expectedKey lineNo (String.ofList content))
    | _ :: behind =>
      let key := String.ofList (trimmed (content.takeWhile (· ≠ ':')))
      let rest := trimmed behind
      if rest = [] then .ok (p.openKey indent parent key following)
      else if rest.head? = some '[' && rest.getLast? = some ']' then
        .ok (p.assign parent key (parseInlineList rest)).1
      else .ok (p.assign parent key (parseScalar rest)).1

/-- Blank lines and whole-line comments say nothing. -/
def isSkipped (stripped : List Char) : Bool :=
  (trimmed stripped).isEmpty || (trimmed stripped).head? = some '#'

/-- The lines from the given number on. -/
def parseLines : Nat → List (List Char) → Parser → Except ParseError Parser
  | _, [], p => .ok p
  | lineNo, raw :: following, p =>
    let stripped := stripComment raw
    if isSkipped stripped then parseLines (lineNo + 1) following p
    else
      match p.line lineNo (indentOf stripped) (stripped.drop (indentOf stripped)) following with
      | .error e => .error e
      | .ok p => parseLines (lineNo + 1) following p

/-- `parseYamlSubset(src)`. -/
def parseYamlSubset (src : List Char) : Except ParseError Value :=
  match parseLines 1 ((src.filter (· ≠ '\r')).splitOn '\n') .init with
  | .error e => .error e
  | .ok p => .ok p.root

end Kovael.Workflow

namespace Kovael.Persona

/-- `PersonaLoader.parseYamlSubset(src)`: `src/services/PersonaLoader.ts` has the text of
`WorkflowLoader`, in `peekNext` and `parseScalar` as well. -/
def parseYamlSubset (src : List Char) : Except Workflow.ParseError Workflow.Value :=
  Workflow.parseYamlSubset src

end Kovael.Persona
