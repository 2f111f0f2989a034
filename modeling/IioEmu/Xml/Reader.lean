import IioEmu.Utils.XmlUtils

/-! # Reading XML

A reader that takes a document character by character and builds the tree of its nodes.
It accepts the well-formed documents without entities of their own: declarations inside the
document type are passed over, comments and processing instructions leave no node, and the
five predefined entities and the character references stand for their characters. -/

namespace IioEmu.Xml

/-! ## Characters -/

/-- A property of the characters of a text is decided along the text, before an instance that
goes through every character there is. -/
instance (priority := 2000) decidableForallMem {p : Char → Prop} [DecidablePred p]
    (text : List Char) : Decidable (∀ c ∈ text, p c) :=
  List.decidableBAll p text

def isChar (c : Char) : Bool :=
  let code := c.toNat
  code == 9 || code == 10 || code == 13 || (32 ≤ code && code ≤ 0xD7FF) ||
    (0xE000 ≤ code && code ≤ 0xFFFD) || 0x10000 ≤ code

def isWhite (c : Char) : Bool := c == ' ' || c == '\t' || c == '\n' || c == '\r'

def isNameStart (c : Char) : Bool :=
  let code := c.toNat
  c.isAlpha || c == ':' || c == '_' || (0xC0 ≤ code && code ≤ 0xD6) ||
    (0xD8 ≤ code && code ≤ 0xF6) || (0xF8 ≤ code && code ≤ 0x2FF) ||
    (0x370 ≤ code && code ≤ 0x37D) || (0x37F ≤ code && code ≤ 0x1FFF) ||
    (0x200C ≤ code && code ≤ 0x200D) || (0x2070 ≤ code && code ≤ 0x218F) ||
    (0x2C00 ≤ code && code ≤ 0x2FEF) || (0x3001 ≤ code && code ≤ 0xD7FF) ||
    (0xF900 ≤ code && code ≤ 0xFDCF) || (0xFDF0 ≤ code && code ≤ 0xFFFD) ||
    (0x10000 ≤ code && code ≤ 0xEFFFF)

def isNameChar (c : Char) : Bool :=
  let code := c.toNat
  isNameStart c || c == '-' || c == '.' || c.isDigit || code == 0xB7 ||
    (0x300 ≤ code && code ≤ 0x36F) || (0x203F ≤ code && code ≤ 0x2040)

def digitValue (c : Char) : Nat :=
  if c.isDigit then c.toNat - 48 else if c.isUpper then c.toNat - 55 else c.toNat - 87

def numbered (base : Nat) (isBaseDigit : Char → Bool)
    (digits : List Char) : Option Char :=
  let code := digits.foldl (fun value digit => base * value + digitValue digit) 0
  if digits.isEmpty || !digits.all isBaseDigit then none
  else if code.isValidChar && isChar (Char.ofNat code) then some (Char.ofNat code)
  else none

def isHexDigit (c : Char) : Bool :=
  c.isDigit || ('a' ≤ c && c ≤ 'f') || ('A' ≤ c && c ≤ 'F')

def referenced (reference : List Char) : Option Char :=
  if reference = ['l', 't'] then some '<'
  else if reference = ['g', 't'] then some '>'
  else if reference = ['a', 'm', 'p'] then some '&'
  else if reference = ['q', 'u', 'o', 't'] then some '"'
  else if reference = ['a', 'p', 'o', 's'] then some '\''
  else match reference with
    | '#' :: 'x' :: digits => numbered 16 isHexDigit digits
    | '#' :: digits => numbered 10 Char.isDigit digits
    | _ => none

/-! ## The state of the reader -/

structure Frame where
  element : XmlElement
  children : List XmlNode

inductive Mode
  | misc
  | content (text : List Char)
  | contentReference (text reference : List Char)
  | markup
  | declaration (seen : List Char)
  | comment (dashes : Nat)
  | cdata (text : List Char)
  | instruction (question : Bool)
  | doctype (depth : Nat) (quote : Option Char)
  | startName (name : List Char)
  | inTag (tag : XmlElement)
  | attributeName (tag : XmlElement) (name : List Char)
  | afterName (tag : XmlElement) (name : List Char)
  | beforeValue (tag : XmlElement) (name : List Char)
  | value (tag : XmlElement) (name : List Char) (quote : Char) (text : List Char)
  | valueReference (tag : XmlElement) (name : List Char) (quote : Char)
      (text reference : List Char)
  | afterValue (tag : XmlElement)
  | slash (tag : XmlElement)
  | endName (name : List Char)
  | afterEndName (name : List Char)

structure State where
  frames : List Frame
  root : Option XmlNode
  mode : Mode

def start : State := ⟨[], none, .misc⟩

def textNode (text : List Char) : XmlNode := .node ⟨"text", [], String.ofList text⟩ []

def emptyElement (name : List Char) : XmlElement := ⟨String.ofList name, [], ""⟩

def withProperty (tag : XmlElement) (name value : List Char) : XmlElement :=
  { tag with properties := tag.properties ++ [⟨String.ofList name, String.ofList value⟩] }

namespace State

def become (state : State) (mode : Mode) : State := { state with mode := mode }

def addNode (state : State) (node : XmlNode) : State :=
  match state.frames with
  | [] => { state with root := some node }
  | frame :: frames =>
      { state with
        frames := { frame with children := frame.children ++ [node] } :: frames }

def resume (state : State) : State :=
  state.become (if state.frames.isEmpty then .misc else .content [])

/-- Characters between two pieces of markup make a text node. -/
def flush (state : State) (text : List Char) : State :=
  if text.isEmpty then state else state.addNode (textNode text)

def openElement (state : State) (tag : XmlElement) : State :=
  { state with frames := ⟨tag, []⟩ :: state.frames, mode := .content [] }

def closeElement (state : State) (name : List Char) : Option State :=
  match state.frames with
  | [] => none
  | frame :: frames =>
      if frame.element.name = String.ofList name then
        some (({ state with frames := frames }.addNode
          (.node frame.element frame.children)).resume)
      else none

/-- An attribute may occur once. -/
def endValue (state : State) (tag : XmlElement) (name text : List Char) : Option State :=
  if tag.properties.any fun property => property.name == String.ofList name then none
  else some (state.become (.afterValue (withProperty tag name text)))

end State

/-! ## One character -/

/-- `<!` begins a comment, a section of character data or the document type. -/
def stepDeclaration (state : State) (seen : List Char) : Option State :=
  if seen = ['-', '-'] then some (state.become (.comment 0))
  else if seen = ['[', 'C', 'D', 'A', 'T', 'A', '['] && !state.frames.isEmpty then
    some (state.become (.cdata []))
  else if seen = ['D', 'O', 'C', 'T', 'Y', 'P', 'E'] && state.frames.isEmpty &&
      state.root.isNone then
    some (state.become (.doctype 0 none))
  else if seen.isPrefixOf ['-', '-'] || seen.isPrefixOf ['[', 'C', 'D',
    'A', 'T', 'A', '['] ||
      seen.isPrefixOf ['D', 'O', 'C', 'T', 'Y', 'P', 'E'] then
    some (state.become (.declaration seen))
  else none

def stepDoctype (state : State) (depth : Nat) (quote : Option Char) (c : Char) : State :=
  match quote with
  | some delimiter => state.become (.doctype depth (if c = delimiter then none else quote))
  | none =>
      if c = '"' || c = '\'' then state.become (.doctype depth (some c))
      else if c = '[' then state.become (.doctype (depth + 1) none)
      else if c = ']' then state.become (.doctype (depth - 1) none)
      else if c = '>' && depth = 0 then state.become .misc
      else state.become (.doctype depth none)

def stepTag (state : State) (tag : XmlElement) (c : Char) : Option State :=
  if isWhite c then some (state.become (.inTag tag))
  else if c = '/' then some (state.become (.slash tag))
  else if c = '>' then some (state.openElement tag)
  else none

def step (state : State) (c : Char) : Option State :=
  if !isChar c then none
  else match state.mode with
  | .misc =>
      if isWhite c then some state
      else if c = '<' then some (state.become .markup)
      else none
  | .content text =>
      if c = '<' then some ((state.flush text).become .markup)
      else if c = '&' then some (state.become (.contentReference text []))
      else if c = '>' && [']', ']'].isSuffixOf text then none
      else some (state.become (.content (text ++ [c])))
  | .contentReference text reference =>
      if c = ';' then
        (referenced reference).map fun char => state.become (.content (text ++ [char]))
      else if isNameChar c || c = '#' then
        some (state.become (.contentReference text (reference ++ [c])))
      else none
  | .markup =>
      if c = '/' && !state.frames.isEmpty then some (state.become (.endName []))
      else if c = '!' then some (state.become (.declaration []))
      else if c = '?' then some (state.become (.instruction false))
      else if isNameStart c && (!state.frames.isEmpty || state.root.isNone) then
        some (state.become (.startName [c]))
      else none
  | .declaration seen => stepDeclaration state (seen ++ [c])
  | .comment dashes =>
      if c = '>' && dashes = 2 then some state.resume
      else if dashes = 2 then none
      else some (state.become (.comment (if c = '-' then dashes + 1 else 0)))
  | .cdata text =>
      if c = '>' && [']', ']'].isSuffixOf text then
        some ((state.flush (text.take (text.length - 2))).become (.content []))
      else some (state.become (.cdata (text ++ [c])))
  | .instruction question =>
      if c = '>' && question then some state.resume
      else some (state.become (.instruction (c = '?')))
  | .doctype depth quote => some (stepDoctype state depth quote c)
  | .startName name =>
      if isNameChar c then some (state.become (.startName (name ++ [c])))
      else stepTag state (emptyElement name) c
  | .inTag tag =>
      if isNameStart c then some (state.become (.attributeName tag [c]))
      else stepTag state tag c
  | .attributeName tag name =>
      if isNameChar c then some (state.become (.attributeName tag (name ++ [c])))
      else if c = '=' then some (state.become (.beforeValue tag name))
      else if isWhite c then some (state.become (.afterName tag name))
      else none
  | .afterName tag name =>
      if c = '=' then some (state.become (.beforeValue tag name))
      else if isWhite c then some state
      else none
  | .beforeValue tag name =>
      if c = '"' || c = '\'' then some (state.become (.value tag name c []))
      else if isWhite c then some state
      else none
  | .value tag name quote text =>
      if c = quote then state.endValue tag name text
      else if c = '<' then none
      else if c = '&' then some (state.become (.valueReference tag name quote text []))
      else some (state.become (.value tag name quote
        (text ++ [if isWhite c then ' ' else c])))
  | .valueReference tag name quote text reference =>
      if c = ';' then
        (referenced reference).map fun char =>
          state.become (.value tag name quote (text ++ [char]))
      else if isNameChar c || c = '#' then
        some (state.become (.valueReference tag name quote text (reference ++ [c])))
      else none
  | .afterValue tag => stepTag state tag c
  | .slash tag =>
      if c = '>' then some ((state.addNode (.node tag [])).resume) else none
  | .endName name =>
      if isNameChar c then some (state.become (.endName (name ++ [c])))
      else if isWhite c then some (state.become (.afterEndName name))
      else if c = '>' then state.closeElement name
      else none
  | .afterEndName name =>
      if isWhite c then some state
      else if c = '>' then state.closeElement name
      else none

/-! ## Whole documents -/

def run (state : State) (text : List Char) : Option State := text.foldlM step state

/-- A carriage return ends a line, alone or with the line feed after it. -/
def normalizeLineEnds : List Char → List Char
  | [] => []
  | '\r' :: '\n' :: rest => '\n' :: normalizeLineEnds rest
  | '\r' :: rest => '\n' :: normalizeLineEnds rest
  | c :: rest => c :: normalizeLineEnds rest

def finish (state : State) : Option XmlNode :=
  match state.mode with
  | .misc => state.root
  | _ => none

def parse (text : List Char) : Option XmlNode :=
  (run start (normalizeLineEnds text)).bind finish

example : parse
    "<?xml version=\"1.0\"?>\n<!DOCTYPE a [<!ELEMENT a ANY>]><a b='1 &lt;'> <c/></a >".toList =
      some (.node ⟨"a", [⟨"b", "1 <"⟩], ""⟩ [textNode [' '],
      .node ⟨"c", [], ""⟩ []]) := by
  rfl

end IioEmu.Xml
