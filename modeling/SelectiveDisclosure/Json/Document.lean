import SelectiveDisclosure.Json.Literal
import SelectiveDisclosure.Json.Numeral
import SelectiveDisclosure.Json.Tree

/-!
# Reading JSON text

A text is read in one pass from left to right. The state of reading is what is being read at the
moment and the arrays and objects that are still open around it. The first character that cannot
stand where it stands ends the reading; what was read before it is kept as a tree.

## Main definitions

* `Reading` — the state of reading.
* `Reading.push` — one more character.
* `Document` — the tree of a text, and whether something stands behind it.
* `Document.read` — the document of a text.
* `Json.ofText?` — the value of a text.

## Implementation notes

White space is the space, the tab, the line feed and the carriage return, between tokens only.
A number has no closing mark, so the character behind it is looked at twice: once to see that the
number is over, and once for itself.
-/

namespace SelectiveDisclosure

/-- An array or object that is open; finished parts stand last first. -/
inductive Frame where
  | array (items : List Tree)
  /-- An object between two members. -/
  | object (members : List (Option String × Tree))
  /-- An object in a member with this name. -/
  | member (members : List (Option String × Tree)) (name : Option String)

/-- What is being read. -/
inductive Mode where
  /-- A value has to start. -/
  | value
  /-- A value or the end of an array. -/
  | itemOrEnd
  /-- A name or the end of an object. -/
  | nameOrEnd
  /-- A name. -/
  | name
  /-- The colon behind a name. -/
  | colon
  /-- A comma or the end of the innermost array or object. -/
  | next
  /-- The rest of a word that stands for a value. -/
  | word (rest : List Char) (value : Tree)
  | numeral (n : Numeral)
  | literal (l : Literal) (isName : Bool)
  /-- The text has been read and only white space may follow. -/
  | ended (root : Tree)

/-- The state of reading: what is being read, the open arrays and objects from the innermost
outwards, and whether a character was met that cannot stand where it stands. -/
structure Reading where
  mode : Mode
  frames : List Frame
  stuck : Bool

namespace Reading

/-- Nothing has been read. -/
def start : Reading := ⟨.value, [], false⟩

/-- A value is finished. -/
def finished (value : Tree) : List Frame → Reading
  | [] => ⟨.ended value, [], false⟩
  | .array items :: outer => ⟨.next, .array (value :: items) :: outer, false⟩
  | .object members :: outer => ⟨.next, .object members :: outer, false⟩
  | .member members name :: outer => ⟨.next, .object ((name, value) :: members) :: outer, false⟩

/-- White space between tokens. -/
def isSpace (c : Char) : Bool := c = ' ' || c = '\t' || c = '\n' || c = '\r'

/-- The character cannot stand there. -/
def halt (r : Reading) : Reading := { r with stuck := true }

/-- Reads the first character of a value; `r` is the state in front of it. -/
def startValue (r : Reading) (c : Char) : Reading :=
  if c = '"' then { r with mode := .literal .start false }
  else if c = '[' then ⟨.itemOrEnd, .array [] :: r.frames, false⟩
  else if c = '\x7b' then ⟨.nameOrEnd, .object [] :: r.frames, false⟩
  else if c = 'n' then { r with mode := .word ['u', 'l', 'l'] .null }
  else if c = 't' then { r with mode := .word ['r', 'u', 'e'] (.bool true) }
  else if c = 'f' then { r with mode := .word ['a', 'l', 's', 'e'] (.bool false) }
  else match Numeral.start? c with
    | some n => { r with mode := .numeral n }
    | none => r.halt

/-- Reads a character behind a finished value; `r` is the state in front of it. With nothing open
around the value only white space can stand there. -/
def pushNext (r : Reading) (c : Char) : Reading :=
  if isSpace c then r
  else match c, r.frames with
    | ',', .array _ :: _ => { r with mode := .value }
    | ']', .array items :: outer => finished (.array items.reverse true) outer
    | ',', .object _ :: _ => { r with mode := .name }
    | '\x7d', .object members :: outer => finished (.object members.reverse true) outer
    | _, _ => r.halt

/-- The name of a member is finished. -/
def named (r : Reading) (name : Option String) : Reading :=
  match r.frames with
  | .object members :: outer => ⟨.colon, .member members name :: outer, false⟩
  | _ => r.halt

/-- Reads one more character. -/
def push (r : Reading) (c : Char) : Reading :=
  if r.stuck then r
  else match r.mode with
    | .value => if isSpace c then r else r.startValue c
    | .itemOrEnd =>
      if isSpace c then r
      else if c = ']' then { r with mode := .next }.pushNext c
      else r.startValue c
    | .nameOrEnd =>
      if isSpace c then r
      else if c = '\x7d' then { r with mode := .next }.pushNext c
      else if c = '"' then { r with mode := .literal .start true }
      else r.halt
    | .name =>
      if isSpace c then r
      else if c = '"' then { r with mode := .literal .start true }
      else r.halt
    | .colon =>
      if isSpace c then r
      else if c = ':' then { r with mode := .value }
      else r.halt
    | .next | .ended _ => r.pushNext c
    | .word [] value => (finished value r.frames).pushNext c
    | .word [last] value => if c = last then finished value r.frames else r.halt
    | .word (first :: rest) value =>
      if c = first then { r with mode := .word rest value } else r.halt
    | .numeral n =>
      match n.push c with
      | .more n => { r with mode := .numeral n }
      | .wrong => r.halt
      | .over => (finished (.number n.value?) r.frames).pushNext c
    | .literal l isName =>
      match l.push c with
      | .more l => { r with mode := .literal l isName }
      | .wrong => r.halt
      | .over value => if isName then r.named value else finished (.string value) r.frames

/-! ### The tree -/

/-- The value that is being read, as far as it goes; none where no value has begun. -/
def inner (r : Reading) : Option Tree :=
  match r.mode with
  | .value | .colon | .word _ _ => some .broken
  | .itemOrEnd | .nameOrEnd | .name | .next => none
  | .numeral n => some (if !r.stuck && n.ends then .number n.value? else .broken)
  | .literal _ isName => if isName then none else some .broken
  | .ended root => some root

/-- Closes the open arrays and objects around a value, marking that their ends were not found. -/
def enclose : Option Tree → List Frame → Tree
  | value, [] => value.getD .broken
  | value, .array items :: outer =>
    enclose (some (.array (value.toList ++ items).reverse false)) outer
  | _, .object members :: outer => enclose (some (.object members.reverse false)) outer
  | value, .member members name :: outer =>
    enclose (some (.object ((name, value.getD .broken) :: members).reverse false)) outer

/-- The tree of what has been read. -/
def tree (r : Reading) : Tree := enclose r.inner r.frames

end Reading

/-- What a text shows: its tree, and whether something else stands behind the value. -/
structure Document where
  root : Tree
  trailing : Bool

/-- Reads a text. -/
def Document.read (s : String) : Document :=
  let r := s.toList.foldl Reading.push .start
  ⟨r.tree, match r.mode with
    | .ended _ => r.stuck
    | _ => false⟩

/-- How many arrays and objects may be nested in a text that is read. -/
def Document.room : Nat := 127

/-- The value of a text, with sorted members. -/
def Json.ofText? (s : String) : Option Json :=
  let document := Document.read s
  if document.trailing then none else document.root.toJson? Document.room

end SelectiveDisclosure
