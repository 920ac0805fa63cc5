import Mathlib.Data.Bool.AllAny
import Mathlib.Data.List.Basic
import Mathlib.Data.List.Nodup

/-!
# XML documents

A reader of XML 1.0 documents: elements with their attributes, character data, the predefined
entities and character references, and the constraints of well-formedness that concern them (end
tags match, an attribute occurs once, only characters of the `Char` production occur, no `<` in a
value, no `]]>` in character data).  What is not modelled is refused: declarations other than the
plain one, comments, processing instructions, sections, other names than ASCII ones, and raw carriage
returns.

An `Elem` is a document as programs write it: an element holds text, or it holds elements, each on a
line of its own.  `layout` writes it with any escaping of characters that the reader undoes, and the
reader gets back the tree with the white space between the lines in it, which `significant` drops.
-/

namespace Xml

/-! ## Reading -/

/-- The `Char` production. -/
def isChar (c : Char) : Bool :=
  c = '\t' || c = '\n' || c = '\r' || (0x20 ≤ c.toNat && c.toNat ≤ 0xD7FF) ||
    (0xE000 ≤ c.toNat && c.toNat ≤ 0xFFFD) || 0x10000 ≤ c.toNat

def isSpace (c : Char) : Bool := c = ' ' || c = '\t' || c = '\n' || c = '\r'

def isNameStart (c : Char) : Bool := c.isAlpha || c = ':' || c = '_'

def isNameChar (c : Char) : Bool := isNameStart c || c.isDigit || c = '-' || c = '.'

/-- An attribute: its name and its value. -/
abbrev Attr := List Char × List Char

inductive Node
  | element (name : List Char) (attrs : List Attr) (children : List Node)
  | text (value : List Char)

/-- The value of a digit. -/
def digitValue (c : Char) : Option Nat :=
  if c.isDigit then some (c.toNat - 48)
  else if 'a' ≤ c ∧ c ≤ 'f' then some (c.toNat - 87)
  else if 'A' ≤ c ∧ c ≤ 'F' then some (c.toNat - 55)
  else none

/-- A number of at least one digit. -/
def number (base : Nat) (digits : List Char) : Option Nat :=
  if digits = [] then none
  else digits.foldlM (fun n c => ((digitValue c).filter (· < base)).map (n * base + ·)) 0

/-- The character with a number, if a document may have it. -/
def charOf (n : Nat) : Option Char :=
  let c := Char.ofNat n
  if c.toNat = n && isChar c then some c else none

/-- What a reference stands for. -/
def resolve (name : List Char) : Option Char :=
  if name = "amp".toList then some '&'
  else if name = "lt".toList then some '<'
  else if name = "gt".toList then some '>'
  else if name = "quot".toList then some '"'
  else if name = "apos".toList then some '\''
  else if name.take 2 = "#x".toList then (number 16 (name.drop 2)).bind charOf
  else if name.take 1 = "#".toList then (number 10 (name.drop 1)).bind charOf
  else none

/-- Character data, or the value of an attribute, from a position on; with the name of the reference
read so far when there is one.  In a value, raw white space is a space. -/
def decode (quoted : Bool) : Option (List Char) → List Char → Option (List Char)
  | none, [] => some []
  | some _, [] => none
  | none, c :: cs =>
    if c = '&' then decode quoted (some []) cs
    else if isChar c && c ≠ '<' && c ≠ '\r' then
      (decode quoted none cs).map ((if quoted && isSpace c then ' ' else c) :: ·)
    else none
  | some rev, c :: cs =>
    if c = ';' then
      (resolve rev.reverse).bind fun d => (decode quoted none cs).map (d :: ·)
    else decode quoted (some (c :: rev)) cs

/-- The end of a section, which character data must not have. -/
def hasSectionEnd : List Char → Bool
  | [] => false
  | c :: cs => "]]>".toList.isPrefixOf (c :: cs) || hasSectionEnd cs

def charData (raw : List Char) : Option (List Char) :=
  if hasSectionEnd raw then none else decode false none raw

/-- A name, and what follows. -/
def readName (input : List Char) : Option (List Char × List Char) :=
  if (input.head?.map isNameStart).getD false then
    some (input.takeWhile isNameChar, input.dropWhile isNameChar)
  else none

/-- A value in quotes, and what follows. -/
def readValue (input : List Char) : Option (List Char × List Char) :=
  match input with
  | [] => none
  | quote :: rest =>
    if quote = '"' || quote = '\'' then
      match rest.dropWhile (· ≠ quote) with
      | [] => none
      | _ :: later =>
        (decode true none (rest.takeWhile (· ≠ quote))).map fun value => (value, later)
    else none

/-- An attribute, and what follows. -/
def readAttr (input : List Char) : Option (Attr × List Char) :=
  (readName input).bind fun (name, rest) =>
    match rest.dropWhile isSpace with
    | [] => none
    | c :: rest =>
      if c = '=' then
        (readValue (rest.dropWhile isSpace)).map fun (value, rest) => ((name, value), rest)
      else none

/-- The rest of a start tag: its attributes, whether the element ends with it, what follows. -/
def readAttrs : Nat → List Char → Option (List Attr × Bool × List Char)
  | 0, _ => none
  | fuel + 1, input =>
    let rest := input.dropWhile isSpace
    if rest.take 1 = ['>'] then some ([], false, rest.drop 1)
    else if rest.take 2 = ['/', '>'] then some ([], true, rest.drop 2)
    else if (input.head?.map isSpace).getD false then
      (readAttr rest).bind fun (attr, rest) =>
        (readAttrs fuel rest).map fun (attrs, closed, rest) => (attr :: attrs, closed, rest)
    else none

/-- A start tag. -/
def readStart (input : List Char) :
    Option (List Char × List Attr × Bool × List Char) :=
  if input.take 1 = ['<'] then
    (readName (input.drop 1)).bind fun (name, rest) =>
      (readAttrs (rest.length + 1) rest).bind fun (attrs, closed, rest) =>
        if (attrs.map Prod.fst).Nodup then some (name, attrs, closed, rest) else none
  else none

/-- An end tag of that name, and what follows. -/
def readEnd (name input : List Char) : Option (List Char) :=
  if (['<', '/'] ++ name).isPrefixOf input then
    let rest := (input.drop (name.length + 2)).dropWhile isSpace
    if rest.take 1 = ['>'] then some (rest.drop 1) else none
  else none

mutual

/-- An element, and what follows. -/
def readElement : Nat → List Char → Option (Node × List Char)
  | 0, _ => none
  | fuel + 1, input =>
    (readStart input).bind fun (name, attrs, closed, rest) =>
      if closed then some (.element name attrs [], rest)
      else
        (readNodes fuel rest).bind fun (children, rest) =>
          (readEnd name rest).map fun rest => (.element name attrs children, rest)

/-- Content up to an end tag. -/
def readNodes : Nat → List Char → Option (List Node × List Char)
  | 0, _ => none
  | fuel + 1, input =>
    if input.take 2 = ['<', '/'] then some ([], input)
    else if input.take 1 = ['<'] then
      (readElement fuel input).bind fun (node, rest) =>
        (readNodes fuel rest).map fun (nodes, rest) => (node :: nodes, rest)
    else if input = [] then none
    else
      (charData (input.takeWhile (· ≠ '<'))).bind fun value =>
        (readNodes fuel (input.dropWhile (· ≠ '<'))).map fun (nodes, rest) =>
          (.text value :: nodes, rest)

end

/-- The declaration. -/
def declaration : List Char := "<?xml version=\"1.0\" encoding=\"UTF-8\"?>".toList

/-- A whole document: the declaration and one element, with white space around it. -/
def readDocument (input : List Char) : Option Node :=
  if declaration.isPrefixOf input then
    let rest := (input.drop declaration.length).dropWhile isSpace
    (readElement (2 * rest.length + 1) rest).bind fun (node, rest) =>
      if rest.all isSpace then some node else none
  else none

/-! ## Writing -/

/-- A document as it is written: elements with text, and elements with elements. -/
inductive Elem
  | leaf (name : List Char) (attrs : List Attr) (text : List Char)
  | branch (name : List Char) (attrs : List Attr) (children : List Elem)

/-- A line break and the indentation. -/
def indent (depth : Nat) : List Char := '\n' :: List.replicate (2 * depth) ' '

section Layout

variable (escape : Char → List Char)

def escaped (value : List Char) : List Char := value.flatMap escape

def attrText (attr : Attr) : List Char :=
  ' ' :: attr.1 ++ ['=', '"'] ++ escaped escape attr.2 ++ ['"']

def startTag (name : List Char) (attrs : List Attr) : List Char :=
  '<' :: name ++ attrs.flatMap (attrText escape) ++ ['>']

def endTag (name : List Char) : List Char := ['<', '/'] ++ name ++ ['>']

mutual

def Elem.layout (depth : Nat) : Elem → List Char
  | .leaf name attrs text => startTag escape name attrs ++ escaped escape text ++ endTag name
  | .branch name attrs children =>
    startTag escape name attrs ++ layoutAll (depth + 1) children ++ indent depth ++ endTag name

def Elem.layoutAll (depth : Nat) : List Elem → List Char
  | [] => []
  | e :: es => indent depth ++ e.layout depth ++ layoutAll depth es

end

end Layout

/-- Text as a list of nodes. -/
def textNodes (text : List Char) : List Node := if text = [] then [] else [.text text]

mutual

/-- What the reader makes of the layout. -/
def Elem.node (depth : Nat) : Elem → Node
  | .leaf name attrs text => .element name attrs (textNodes text)
  | .branch name attrs children =>
    .element name attrs (nodes (depth + 1) children ++ [.text (indent depth)])

def Elem.nodes (depth : Nat) : List Elem → List Node
  | [] => []
  | e :: es => .text (indent depth) :: e.node depth :: nodes depth es

end

mutual

/-- The tree without the white space of the layout. -/
def Elem.content : Elem → Node
  | .leaf name attrs text => .element name attrs (textNodes text)
  | .branch name attrs children => .element name attrs (contents children)

def Elem.contents : List Elem → List Node
  | [] => []
  | e :: es => e.content :: contents es

end

def Node.isElement : Node → Bool
  | .element .. => true
  | .text _ => false

mutual

/-- The tree without white space between elements. -/
def Node.significant : Node → Node
  | .element name attrs children =>
    .element name attrs (significantAll (children.any isElement) children)
  | .text value => .text value

def Node.significantAll (among : Bool) : List Node → List Node
  | [] => []
  | .text value :: rest =>
    if among && value.all isSpace then significantAll among rest
    else .text value :: significantAll among rest
  | node :: rest => node.significant :: significantAll among rest

end

/-- A name. -/
def IsName (name : List Char) : Prop :=
  (name.head?.map isNameStart).getD false = true ∧ name.all isNameChar = true

/-- Text that a document may have. -/
def Legal (text : List Char) : Prop := ∀ c ∈ text, isChar c = true

structure Tag (name : List Char) (attrs : List Attr) : Prop where
  isName : IsName name
  legal : ∀ attr ∈ attrs, IsName attr.1 ∧ Legal attr.2
  nodup : (attrs.map Prod.fst).Nodup

mutual

/-- Names are names, values are legal, and an element without elements is written as one. -/
def Elem.Valid : Elem → Prop
  | .leaf name attrs text => Tag name attrs ∧ Legal text
  | .branch name attrs children => Tag name attrs ∧ children ≠ [] ∧ AllValid children

def Elem.AllValid : List Elem → Prop
  | [] => True
  | e :: es => e.Valid ∧ AllValid es

end

end Xml
